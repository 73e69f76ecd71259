import PlotMiner.Mining.Miner
import PlotMiner.Mining.Site

/-!
# Rehearsals

A miner can be watched without a node: every answer that the node would give is prepared, together
with what else happens while the miner waits for it. The answers to one kind of call are given in
their order, each as often as it says, and the last one for ever. Calls to the node are written
down, and so are the time proofs that the miner acquires.
-/

namespace PlotMiner.Mining

open Keys

structure PreparedAnswer (α : Type) where
  reply : Except Failure α
  /-- How often it is given before the next one takes its place. -/
  times : Nat
  stop : Bool
  proofs : List (Bytes32 × ProofDetail)

def PreparedAnswer.rest {α : Type} : List (PreparedAnswer α) → List (PreparedAnswer α)
  | [] => []
  | [a] => [a]
  | a :: more => if a.times ≤ 1 then more else { a with times := a.times - 1 } :: more

structure Rehearsal where
  ready : List (PreparedAnswer Bool)
  challenge : List (PreparedAnswer Challenge)
  vdf : List (PreparedAnswer Bool)
  submit : List (PreparedAnswer Unit)
  reload : List (PreparedAnswer Bool)
  plotsFail : Bool
  acquired : List VdfProof

namespace Rehearsal

variable {α : Type}

/-- What happens while an answer is on its way. -/
def meanwhile (a : PreparedAnswer α) (s : Site Rehearsal) : Site Rehearsal :=
  let s := if a.stop then { s with running := false } else s
  s.withCache fun cache => a.proofs.foldl (fun c (challenge, d) => c.record challenge d) cache

def give (answers : Rehearsal → List (PreparedAnswer α))
    (put : Rehearsal → List (PreparedAnswer α) → Rehearsal) (s : Site Rehearsal) :
    Except Failure α × Site Rehearsal :=
  match answers s.node with
  | [] => (.error (.other .notFound "no answer is prepared"), s)
  | a :: more =>
    (a.reply, meanwhile a { s with node := put s.node (PreparedAnswer.rest (a :: more)) })

def access : NodeAccess Rehearsal where
  checkReady := give ready fun r l => { r with ready := l }
  queryChallenge := give challenge fun r l => { r with challenge := l }
  requestVdf _ _ := give vdf fun r l => { r with vdf := l }
  submitProof _ := give submit fun r l => { r with submit := l }
  reloadCookie := give reload fun r l => { r with reload := l }

/-- The collaborators in a rehearsal. -/
def collaborators (keys : KeyEngine Failure) : Collaborators (Logged (Site Rehearsal)) :=
  let co := Site.collaborators access keys
  Collaborators.logged
    { co with
      candidates := fun challenge bits s =>
        if s.node.plotsFail then (.error default, s) else co.candidates challenge bits s
      inspect := fun vdf s =>
        { s with node := { s.node with acquired := vdf :: s.node.acquired } } }

end Rehearsal

end PlotMiner.Mining
