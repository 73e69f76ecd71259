import PlotMiner.Chain.VdfProof
import PlotMiner.Timelord.MessageType

/-!
# Timelord messages

A miner asks a timelord to compute a number of iterations on a challenge, and the timelord answers
at once with what it knows and later with the proof. A message is a JSON object that has the number
of its type under `id` besides the fields of its body. An object with a number that no type has is a
message as well; it is kept, and ignored.
-/

namespace PlotMiner.Timelord

open Json

structure Netspace where
  groupHash : Bytes32
  totalSize : UInt64
deriving DecidableEq, Inhabited

/-- A request to compute `iters` iterations on a challenge. -/
structure Calc where
  challenge : Bytes32
  iters : UInt64
  netspace : Netspace
deriving DecidableEq, Inhabited

structure ProofMessage where
  challenge : Bytes32
  y : Blob
  proof : Blob
  witnessType : UInt8
  iters : UInt64
  duration : UInt64
deriving DecidableEq, Inhabited

/-- The answer to a request. It carries the proof if the timelord has one already. -/
structure CalcReply where
  challenge : Bytes32
  calculating : Bool
  y : Option Blob
  proof : Option Blob
  witnessType : Option UInt8
  iters : Option UInt64
  duration : Option UInt64
deriving DecidableEq, Inhabited

namespace ProofMessage

def detail (m : ProofMessage) : ProofDetail where
  y := m.y
  proof := m.proof
  witnessType := m.witnessType
  iters := m.iters
  duration := m.duration

/-- A proof for a challenge, as a message. -/
def ofDetail (challenge : Bytes32) (d : ProofDetail) : ProofMessage where
  challenge := challenge
  y := d.y
  proof := d.proof
  witnessType := d.witnessType
  iters := d.iters
  duration := d.duration

end ProofMessage

/-- The proof that a reply carries. One without `y` carries none; anything else that is missing is
empty or zero. -/
def CalcReply.detail (m : CalcReply) : Option ProofDetail :=
  m.y.map fun y =>
    { y := y
      proof := m.proof.getD Blob.empty
      witnessType := m.witnessType.getD 0
      iters := m.iters.getD 0
      duration := m.duration.getD 0 }

instance : Decode Netspace :=
  ⟨Record.read "Netspace" <|
    Record.pure Netspace.mk |>.field "group_hash" |>.field "total_size"⟩

instance : Encode Netspace :=
  ⟨fun n => .object [("group_hash", encode n.groupHash), ("total_size", encode n.totalSize)]⟩

instance : Decode Calc :=
  ⟨Record.read "Calc" <|
    Record.pure Calc.mk |>.field "challenge" |>.field "iters" |>.field "netspace"⟩

instance : Encode Calc :=
  ⟨fun c => .object [("challenge", encode c.challenge), ("iters", encode c.iters),
    ("netspace", encode c.netspace)]⟩

instance : Decode ProofMessage :=
  ⟨Record.read "ProofMessage" <|
    Record.pure ProofMessage.mk
      |>.field "challenge" |>.field "y" |>.field "proof" |>.field "witness_type"
      |>.field "iters" |>.field "duration"⟩

instance : Encode ProofMessage :=
  ⟨fun m => .object [("challenge", encode m.challenge), ("duration", encode m.duration),
    ("iters", encode m.iters), ("proof", encode m.proof),
    ("witness_type", encode m.witnessType), ("y", encode m.y)]⟩

instance : Decode CalcReply :=
  ⟨Record.read "CalcReply" <|
    Record.pure CalcReply.mk
      |>.field "challenge" |>.field "calculating" |>.fieldD "y" none |>.fieldD "proof" none
      |>.fieldD "witness_type" none |>.fieldD "iters" none |>.fieldD "duration" none⟩

def optionalField {α : Type} [Encode α] (name : String) (a : Option α) : List (String × Value) :=
  a.elim [] fun a => [(name, encode a)]

instance : Encode CalcReply :=
  ⟨fun m => .object <|
    [("calculating", encode m.calculating), ("challenge", encode m.challenge)] ++
      optionalField "duration" m.duration ++ optionalField "iters" m.iters ++
      optionalField "proof" m.proof ++ optionalField "witness_type" m.witnessType ++
      optionalField "y" m.y⟩

inductive Message where
  | pong
  | proof (m : ProofMessage)
  | ready (body : Value)
  | speed (body : Value)
  | calcReply (m : CalcReply)
  | ping
  | calcRequest (m : Calc)
  | querySpeed
  | unknown (id : Int) (body : Value)

namespace Message

def type? : Message → Option MessageType
  | pong => some .pong
  | proof _ => some .proof
  | ready _ => some .ready
  | speed _ => some .speed
  | calcReply _ => some .calcReply
  | ping => some .ping
  | calcRequest _ => some .calcRequest
  | querySpeed => some .querySpeed
  | unknown _ _ => none

def id : Message → Int
  | unknown id _ => id
  | m => m.type?.elim 0 MessageType.id

def body : Message → Value
  | pong => .object []
  | proof m => encode m
  | ready body => body
  | speed body => body
  | calcReply m => encode m
  | ping => .object []
  | calcRequest m => encode m
  | querySpeed => .object []
  | unknown _ body => body

/-- The proof that a message carries, with the challenge that it is for. -/
def delivery? : Message → Option (Bytes32 × ProofDetail)
  | proof m => some (m.challenge, m.detail)
  | calcReply m => m.detail.map fun d => (m.challenge, d)
  | _ => none

/-- The message as an object, if its body is one. -/
def toValue? (m : Message) : Option Value :=
  match m.body with
  | .object fields => some (.object (insertField "id" (.int m.id) fields))
  | _ => none

end Message

inductive MessageError where
  | notJson (bytes : List UInt8)
  /-- There is no number of a type, or it is beyond 64 bits with a sign. -/
  | noId
  | decode (error : DecodeError)
  | bodyNotObject

namespace MessageError

/-- The text of an error. Bytes that are not well-formed are shown as U+FFFD. For bytes that are no
JSON text the full message goes on after the line break with the parser's description of what is
wrong; that description is left out here. -/
def message : MessageError → String
  | notJson bytes =>
    "Failed to Parse Json " ++ String.ofList (Text.decodeUtf8Lenient bytes) ++ ",\r\n "
  | noId => "Timelord message without integer id"
  | decode e => e.message
  | bodyNotObject => "Timelord message body must be a JSON object"

end MessageError

namespace Message

def idOf? (v : Value) : Option Int :=
  match v.get? "id" with
  | some (.number (.int n)) => if n ≤ Int64.maxValue.toInt then some n else none
  | _ => none

def ofBody {α : Type} [Decode α] (make : α → Message) (v : Value) : Except MessageError Message :=
  match (decode v : Except DecodeError α) with
  | .ok a => .ok (make a)
  | .error e => .error (.decode e)

/-- The message with a number and a body. -/
def ofParts (id : Int) (body : Value) : Except MessageError Message :=
  match MessageType.ofId? id with
  | none => .ok (.unknown id body)
  | some .pong => .ok .pong
  | some .proof => ofBody .proof body
  | some .ready => .ok (.ready body)
  | some .speed => .ok (.speed body)
  | some .calcReply => ofBody .calcReply body
  | some .ping => .ok .ping
  | some .calcRequest => ofBody .calcRequest body
  | some .querySpeed => .ok .querySpeed

def ofValue (v : Value) : Except MessageError Message :=
  match idOf? v with
  | none => .error .noId
  | some id => ofParts id v

end Message

end PlotMiner.Timelord
