import PlotMiner.Text.Utf8
import PlotMiner.Timelord.Message

/-!
# Frames

On a connection each message is the text of its object, without white space, and then a zero byte.
The text of a JSON value never has a zero byte in it. A reader takes the bytes as they arrive, cuts
them at the zero bytes, and stops at the first frame that is no message; what is left when the
connection ends counts as a frame too.
-/

namespace PlotMiner.Timelord

open Json

def delimiter : UInt8 := 0

namespace Message

def toFrame (m : Message) : Except MessageError (List UInt8) :=
  match m.toValue? with
  | some v => .ok (Text.utf8 v.render ++ [delimiter])
  | none => .error .bodyNotObject

/-- The message in a frame, whose delimiter may be missing. -/
def ofFrame (frame : List UInt8) : Except MessageError Message :=
  let bytes := frame.takeWhile (· ≠ delimiter)
  match (Text.decodeUtf8? bytes).bind Value.parse? with
  | some v => ofValue v
  | none => .error (.notJson bytes)

end Message

inductive ReadError where
  | message (error : MessageError)
  | closed
  | broken (reason : String)

def ReadError.text : ReadError → String
  | .message e => e.message
  | .closed => "connection closed by timelord"
  | .broken reason => reason

/-- What a reader makes of the bytes: messages, and at last an error. -/
abbrev Incoming := Except ReadError Message

structure Reader where
  /-- The bytes after the last delimiter. -/
  partialFrame : List UInt8
  stopped : Bool
deriving DecidableEq, Inhabited

namespace Reader

def start : Reader := ⟨[], false⟩

/-- What a complete frame is. -/
def read (frame : List UInt8) : Incoming := (Message.ofFrame frame).mapError .message

def feedByte (r : Reader) (b : UInt8) : Reader × List Incoming :=
  if r.stopped then (r, [])
  else if b = delimiter then
    match read r.partialFrame with
    | .ok m => (start, [.ok m])
    | .error e => (⟨[], true⟩, [.error e])
  else (⟨r.partialFrame ++ [b], false⟩, [])

def feed (r : Reader) : List UInt8 → Reader × List Incoming
  | [] => (r, [])
  | b :: rest =>
    let (r, first) := r.feedByte b
    let (r, later) := feed r rest
    (r, first ++ later)

def finish (r : Reader) : List Incoming :=
  if r.stopped then []
  else if r.partialFrame.isEmpty then [.error .closed]
  else
    match read r.partialFrame with
    | .ok m => [.ok m, .error .closed]
    | .error e => [.error e]

end Reader

end PlotMiner.Timelord
