/-!
# Failures

What a collaborator of the miner reports when it cannot answer. Three cases call for different
reactions: the node could not be reached, the node answered with an error of its own, and anything
else.
-/

namespace PlotMiner

inductive FailureKind where
  | invalidInput
  | invalidData
  | notFound
  | notConnected
  | unexpectedEnd
  | other
deriving DecidableEq, Inhabited

/-- How the miner reacts to a failure. -/
inductive FailureClass where
  | net
  | rpc
  | other
deriving DecidableEq, Inhabited

inductive Failure where
  /-- The node could not be reached or sent nothing back. -/
  | net (message : String)
  /-- The node answered with an error. -/
  | rpc (code : Int64) (message : String)
  | other (kind : FailureKind) (message : String)
deriving DecidableEq

namespace Failure

instance : Inhabited Failure := ⟨other .other ""⟩

def kind : Failure → FailureKind
  | net _ => .notConnected
  | rpc _ _ => .other
  | other k _ => k

def message : Failure → String
  | net m => s!"NetError: {m}"
  | rpc code m => s!"RPCError({code.toInt}): {m}"
  | other _ m => m

def failureClass : Failure → FailureClass
  | net _ => .net
  | rpc _ _ => .rpc
  | other _ _ => .other

end Failure

end PlotMiner
