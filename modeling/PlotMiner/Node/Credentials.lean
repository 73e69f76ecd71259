import PlotMiner.Bytes
import PlotMiner.Files.Path
import PlotMiner.Text.Utf8

/-!
# Credentials

A client logs in to its node with a user and a password. A node that is not configured with either
writes both to a cookie file, anew whenever it starts: the first line of the file, up to its first
colon, is the user, and what follows the colon is the password.

A request carries both in base 64: three bytes are written as four characters of six bits each, and
a last group of one or two bytes is filled up with equals signs.
-/

namespace PlotMiner

namespace Base64

def digit (n : Nat) : Char :=
  if n < 26 then Char.ofNat (0x41 + n)
  else if n < 52 then Char.ofNat (0x61 + (n - 26))
  else if n < 62 then Char.ofNat (0x30 + (n - 52))
  else if n = 62 then '+'
  else '/'

/-- The characters of the lowest `6 * width` bits of `n`. -/
def digits : (width n : Nat) → List Char
  | 0, _ => []
  | width + 1, n => digits width (n / 64) ++ [digit (n % 64)]

def encodeChars : List UInt8 → List Char
  | [] => []
  | [a] => digits 2 (a.toNat * 16) ++ ['=', '=']
  | [a, b] => digits 3 (natOfBytes [a, b] * 4) ++ ['=']
  | a :: b :: c :: rest => digits 4 (natOfBytes [a, b, c]) ++ encodeChars rest

def encode (bytes : List UInt8) : String := String.ofList (encodeChars bytes)

end Base64

structure Credentials where
  user : String
  password : String
deriving DecidableEq, Inhabited

inductive CookieError where
  | file (path : Path) (error : FileError)
  | blank
  | noColon (path : Path)
deriving DecidableEq

namespace CookieError

def kind : CookieError → FailureKind
  | file _ e => e.kind
  | blank => .invalidData
  | noColon _ => .invalidData

def message : CookieError → String
  | file path e => s!"cannot open to read {path.text}: {e.message}"
  | blank => "cannot read auth string from `.cookie`"
  | noColon path => s!"cookie {path.text} is not in user:password form"

def failure (e : CookieError) : Failure := .other e.kind e.message

end CookieError

def splitAtColon : List Char → Option (List Char × List Char)
  | [] => none
  | c :: rest =>
    if c = ':' then some ([], rest)
    else (splitAtColon rest).map fun (before, after) => (c :: before, after)

namespace Credentials

def firstLine (cs : List Char) : List Char := Text.trimChars (cs.takeWhile (· ≠ '\n'))

def ofLine (path : Path) (line : List Char) : Except CookieError Credentials :=
  if line.isEmpty then .error .blank
  else
    match splitAtColon line with
    | some (user, password) => .ok ⟨String.ofList user, String.ofList password⟩
    | none => .error (.noColon path)

/-- Reads the cookie file at a path. -/
def ofCookie (path : Path) (contents : Option (List UInt8)) : Except CookieError Credentials := do
  let cs ← (readText contents).mapError (.file path)
  ofLine path (firstLine cs)

/-- The header that a request carries. -/
def authorization (c : Credentials) : String :=
  "Basic " ++ Base64.encode (Text.utf8 (c.user.toList ++ ':' :: c.password.toList))

end Credentials

end PlotMiner
