import PlotMiner.Json.Printer
import PlotMiner.Text.Utf8

/-!
# Endpoints

A timelord is configured as a host with an optional port behind a colon. The last colon counts, so
that a host may have colons of its own; square brackets around a host are dropped.
-/

namespace PlotMiner.Timelord

structure Endpoint where
  host : String
  port : UInt16
deriving DecidableEq, Inhabited

def defaultPort : UInt16 := 19191

inductive PortError where
  | empty
  | invalidDigit
  | tooLarge
deriving DecidableEq

def PortError.message : PortError → String
  | .empty => "cannot parse integer from empty string"
  | .invalidDigit => "invalid digit found in string"
  | .tooLarge => "number too large to fit in target type"

/-- Why a text is no endpoint. The text is shown without white space around it. -/
inductive EndpointError where
  | badPort (endpoint : String) (error : PortError)
  | emptyHost (endpoint : String)
deriving DecidableEq

def EndpointError.message : EndpointError → String
  | .badPort endpoint e => s!"Invalid port in timelord endpoint {endpoint}: {e.message}"
  | .emptyHost endpoint => s!"Empty host in timelord endpoint `{endpoint}`"

/-- Reads further digits of a port. The first character that is no digit, or that makes the number
too large, decides about the error. -/
def readPort (value : Nat) : List Char → Except PortError UInt16
  | [] => .ok (UInt16.ofNat value)
  | c :: rest =>
    if '0' ≤ c ∧ c ≤ '9' then
      let value := value * 10 + (c.toNat - 0x30)
      if value < UInt16.size then readPort value rest else .error .tooLarge
    else .error .invalidDigit

/-- Reads a port: decimal digits, with a plus sign in front or without. -/
def parsePort (cs : List Char) : Except PortError UInt16 :=
  match cs with
  | [] => .error .empty
  | ['+'] => .error .invalidDigit
  | '+' :: rest => readPort 0 rest
  | cs => readPort 0 cs

def splitAtLastColon (cs : List Char) : Option (List Char × List Char) :=
  let after := (cs.reverse.takeWhile (· ≠ ':')).reverse
  if after.length = cs.length then none
  else some (cs.take (cs.length - after.length - 1), after)

def dropBrackets (cs : List Char) : List Char :=
  ((cs.dropWhile (· = '[')).reverse.dropWhile (· = ']')).reverse

namespace Endpoint

/-- The endpoint with a host in brackets or without. -/
def ofHost (text : List Char) (host : List Char) (port : UInt16) : Except EndpointError Endpoint :=
  let host := dropBrackets host
  if host.isEmpty then .error (.emptyHost (String.ofList text))
  else .ok ⟨String.ofList host, port⟩

def parse (text : String) (defaultPort : UInt16) : Except EndpointError Endpoint :=
  let cs := Text.trimChars text.toList
  match splitAtLastColon cs with
  | none => ofHost cs cs defaultPort
  | some (host, port) =>
    match parsePort port with
    | .ok p => ofHost cs host p
    | .error e => .error (.badPort (String.ofList cs) e)

def render (e : Endpoint) : String :=
  e.host ++ ":" ++ String.ofList (Json.natDigits e.port.toNat)

end Endpoint

end PlotMiner.Timelord
