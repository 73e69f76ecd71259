import PlotMiner.Chain.Challenge
import PlotMiner.Chain.Pledge
import PlotMiner.Chain.ProofPack
import PlotMiner.Failure

/-!
# Asking a node

A query is a method with parameters and the type of its result. The node's answer is an envelope
with a result or an error. What the answer comes to depends on its body alone: without an envelope
the node counts as not reached, an error in the envelope counts whatever the result beside it is,
and only then is the result looked at.
-/

namespace PlotMiner

open Json

/-- A question whose answer is a value of type `α`. -/
structure Query (α : Type) where
  method : String
  params : List Value

namespace Query

def checkReady : Query Bool := ⟨"checkchiapos", []⟩

def challenge : Query Challenge := ⟨"querychallenge", []⟩

def requestVdf (challenge : Bytes32) (iters : UInt64) : Query Bool :=
  ⟨"submitvdfrequest", [encode challenge, encode iters]⟩

/-- Whatever the node answers to a submission means that it accepted it. -/
def submitProof (pack : ProofPack) : Query Value := ⟨"submitproof", pack.params⟩

def netspace : Query PledgeParams := ⟨"querynetspace", []⟩

def bindPlotter (address : String) (farmerKey : Bytes32) (spendHeight : UInt32) : Query Bytes32 :=
  ⟨"bindchiaplotter",
    [encode address, encode farmerKey, encode (String.ofList (natDigits spendHeight.toNat))]⟩

def listBindPlotters (address : String) (count skip : UInt32) (watchOnly invalid : Bool) :
    Query (List BindRecord) :=
  ⟨"listbindplotters",
    [encode count, encode skip, encode watchOnly, encode invalid, encode address]⟩

def sendPledge (address : String) (amount : UInt64) (term : DepositTerm) : Query Bytes32 :=
  ⟨"sendpledgetoaddress",
    [encode address, encode amount, encode "no comment", encode "no comment", encode false,
      encode false, .nat 1, encode "UNSET", encode term]⟩

def withdrawPledge (txId : Bytes32) : Query Bytes32 := ⟨"withdrawpledge", [encode txId]⟩

def retargetPledge (txId : Bytes32) (address : String) : Query Bytes32 :=
  ⟨"retargetpledge", [encode txId, encode address]⟩

def miningRequirement (address : String) : Query RequirementReply :=
  ⟨"queryminingrequirement", [encode address]⟩

def generateBurstBlocks (count : UInt32) : Query Bool := ⟨"generateburstblocks", [encode count]⟩

variable {α : Type}

def body (q : Query α) : Value :=
  .object [("jsonrpc", .string "2.0"), ("id", .nat 1), ("method", .string q.method),
    ("params", .array q.params)]

end Query

structure EnvelopeError where
  code : Int64
  message : String

instance : Decode EnvelopeError :=
  ⟨Record.read "EnvelopeError" <|
    Record.pure EnvelopeError.mk |>.field "code" |>.fieldD "message" ""⟩

structure Envelope where
  result : Value
  error : Option EnvelopeError

instance : Decode Envelope :=
  ⟨Record.read "Envelope" <|
    Record.pure Envelope.mk |>.fieldD "result" .null |>.fieldD "error" none⟩

def Envelope.parse? (body : List Char) : Option Envelope := do
  let d ← Document.parse? body
  (decode (Excerpt.mk maxDepth d) : Except DecodeError Envelope).toOption

/-- What comes of sending a request. -/
inductive Delivery where
  | failed (reason : String)
  | body (status : UInt16) (text : List Char)

namespace Query

variable {α : Type} [Decode α]

/-- What an envelope comes to. -/
def ofEnvelope (q : Query α) (e : Envelope) : Except Failure α :=
  match e.error with
  | some err => .error (.rpc err.code err.message)
  | none =>
    match (decode e.result : Except DecodeError α) with
    | .ok a => .ok a
    | .error err =>
      .error (.other .invalidData s!"Unexpected result for `{q.method}`: {err.message}")

/-- What the body of an answer comes to. For a body that is no reply the full message goes on after
the line break with the parser's description of what is wrong; that description is left out here. -/
def ofBody (q : Query α) (body : List Char) : Except Failure α :=
  if body.all Text.isBlank then .error (.net "empty result from RPC server")
  else
    match Envelope.parse? body with
    | none => .error (.net ("Failed to Parse Json " ++ String.ofList body ++ ",\r\n "))
    | some e => q.ofEnvelope e

/-- What a delivery comes to. The body is looked at whatever the status, since nodes report errors
of their own with any. -/
def answer (q : Query α) : Delivery → Except Failure α
  | .failed reason => .error (.net s!"RPC command error `{q.method}`: {reason}")
  | .body _ text => q.ofBody text

end Query

end PlotMiner
