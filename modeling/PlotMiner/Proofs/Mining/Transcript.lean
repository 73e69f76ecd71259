import Mathlib.Tactic.Simps.Basic
import PlotMiner.Mining.Miner

/-!
# Transcripts

What passes between a miner and its collaborators, turn by turn. A collaborator that is watched
answers as it would have answered anyway: its answers are written down beside the state of the
world, where nothing reads them.

A history lists the turns that a miner has taken since it was new. Nothing is assumed about the
answers. Between two turns the world may change by itself, as far as the relation `aside` allows; a
miner that backs off after a failure is one way for that to happen.
-/

namespace PlotMiner.Mining

open Timelord (Calc)

inductive Exchange where
  | checkReady (answer : Except Failure Bool)
  | queryChallenge (answer : Except Failure Challenge)
  | requestVdf (challenge : Bytes32) (iters : UInt64) (answer : Except Failure Bool)
  | submitProof (pack : ProofPack) (answer : Except Failure Unit)
  | reloadCookie (answer : Except Failure Bool)
  | candidates (challenge : Bytes32) (filterBits : UInt8) (answer : Except Failure (List Candidate))
  | fullProof (path : Path) (challenge : Bytes32) (index : Nat) (answer : Except Failure Blob)
  | revoke (farmerKey : Bytes48)
  | localKey (masterKey : Bytes32) (answer : Except Failure Bytes48)
  | plotId (localKey farmerKey : Bytes48) (target : PoolTarget) (answer : Except Failure Bytes32)
  | retainOnly (challenge : Bytes32)
  | clearActive
  | broadcast (request : Calc)
  | inspect (vdf : VdfProof)
  | sleep (duration : Nat)

namespace Exchange

def reported? : Exchange → Option Challenge
  | queryChallenge (.ok c) => some c
  | _ => none

def pack? : Exchange → Option ProofPack
  | submitProof pack _ => some pack
  | _ => none

end Exchange

variable {W : Type}

/-- An exchange takes the world of the collaborators from one state to another. -/
inductive Collaborators.Says (co : Collaborators W) : W → Exchange → W → Prop
  | checkReady {w w' a} : co.checkReady w = (a, w') → Says co w (.checkReady a) w'
  | queryChallenge {w w' a} : co.queryChallenge w = (a, w') → Says co w (.queryChallenge a) w'
  | requestVdf {c i w w' a} : co.requestVdf c i w = (a, w') → Says co w (.requestVdf c i a) w'
  | submitProof {p w w' a} : co.submitProof p w = (a, w') → Says co w (.submitProof p a) w'
  | reloadCookie {w w' a} : co.reloadCookie w = (a, w') → Says co w (.reloadCookie a) w'
  | candidates {c b w w' a} : co.candidates c b w = (a, w') → Says co w (.candidates c b a) w'
  | fullProof {p c i w w' a} : co.fullProof p c i w = (a, w') → Says co w (.fullProof p c i a) w'
  | revoke {k w} : Says co w (.revoke k) (co.revoke k w)
  | localKey {k w w' a} : co.localKey k w = (a, w') → Says co w (.localKey k a) w'
  | plotId {k f t w w' a} : co.plotId k f t w = (a, w') → Says co w (.plotId k f t a) w'
  | retainOnly {c w} : Says co w (.retainOnly c) (co.retainOnly c w)
  | clearActive {w} : Says co w .clearActive (co.clearActive w)
  | broadcast {q w} : Says co w (.broadcast q) (co.broadcast q w)
  | inspect {v w} : Says co w (.inspect v) (co.inspect v w)
  | sleep {d w} : Says co w (.sleep d) (co.sleep d w)

/-- A row of exchanges, the latest first, with the worlds where it begins and ends. -/
inductive Conversation (co : Collaborators W) : W → List Exchange → W → Prop
  | silence {w} : Conversation co w [] w
  | next {w w₁ w₂ es e} :
      Conversation co w es w₁ → co.Says w₁ e w₂ → Conversation co w (e :: es) w₂

theorem Conversation.keeps {co : Collaborators W} {P : W → Prop}
    (hkeeps : ∀ {w e w'}, co.Says w e w' → P w → P w') {w w' : W} {es : List Exchange}
    (h : Conversation co w es w') (hw : P w) : P w' := by
  induction h with
  | silence => exact hw
  | next _ hsaid ih => exact hkeeps hsaid ih

structure Recorded (W : Type) where
  world : W
  exchanges : List Exchange

namespace Recorded

variable {α : Type}

@[simp]
def note (r : Recorded W) (e : Exchange) (w : W) : Recorded W := ⟨w, e :: r.exchanges⟩

@[simp]
def asked (r : Recorded W) (exchange : α → Exchange) (answer : α × W) : α × Recorded W :=
  (answer.1, r.note (exchange answer.1) answer.2)

end Recorded

/-- The same collaborators, with everything written down that they are asked or told. -/
@[simps]
def Collaborators.recorded (co : Collaborators W) : Collaborators (Recorded W) where
  checkReady r := r.asked .checkReady (co.checkReady r.world)
  queryChallenge r := r.asked .queryChallenge (co.queryChallenge r.world)
  requestVdf c i r := r.asked (.requestVdf c i) (co.requestVdf c i r.world)
  submitProof p r := r.asked (.submitProof p) (co.submitProof p r.world)
  reloadCookie r := r.asked .reloadCookie (co.reloadCookie r.world)
  candidates c b r := r.asked (.candidates c b) (co.candidates c b r.world)
  fullProof p c i r := r.asked (.fullProof p c i) (co.fullProof p c i r.world)
  revoke k r := r.note (.revoke k) (co.revoke k r.world)
  netspace r := co.netspace r.world
  localKey k r := r.asked (.localKey k) (co.localKey k r.world)
  plotId k f t r := r.asked (.plotId k f t) (co.plotId k f t r.world)
  retainOnly c r := r.note (.retainOnly c) (co.retainOnly c r.world)
  cachedProof c i r := co.cachedProof c i r.world
  clearActive r := r.note .clearActive (co.clearActive r.world)
  broadcast q r := r.note (.broadcast q) (co.broadcast q r.world)
  inspect v r := r.note (.inspect v) (co.inspect v r.world)
  running r := co.running r.world
  now r := co.now r.world
  sleep d r := r.note (.sleep d) (co.sleep d r.world)

/-- A step that was taken, with everything that was said in it. -/
structure Turn where
  before : Miner
  exchanges : List Exchange
  after : Miner

/-- The turn that a miner takes in a world. -/
def Miner.turn (ctx : Context) (co : Collaborators W) (fuel : Nat) (m : Miner) (w : W) : Turn where
  before := m
  exchanges := (m.step ctx co.recorded fuel ⟨w, []⟩).2.2.exchanges
  after := (m.step ctx co fuel w).2.1

/-- The first `n` turns of a new miner in a world, the latest first, with the miner and the world
that they lead to. -/
def Miner.turns (ctx : Context) (co : Collaborators W) (fuel : Nat) (w : W) :
    Nat → List Turn × Miner × W
  | 0 => ([], Miner.initial, w)
  | n + 1 =>
    let (ts, m, w) := turns ctx co fuel w n
    (m.turn ctx co fuel w :: ts, (m.step ctx co fuel w).2)

/-- The turns of a miner since it was new in the world `w₀`, the latest first, with the miner and
the world that they lead to. -/
inductive History (ctx : Context) (co : Collaborators W) (aside : W → W → Prop) (w₀ : W) :
    List Turn → Miner → W → Prop
  | start : History ctx co aside w₀ [] Miner.initial w₀
  | turn {ts m w} (fuel : Nat) :
      History ctx co aside w₀ ts m w →
      History ctx co aside w₀ (m.turn ctx co fuel w :: ts) (m.step ctx co fuel w).2.1
        (m.step ctx co fuel w).2.2
  | aside {ts m w w'} :
      History ctx co aside w₀ ts m w → aside w w' → History ctx co aside w₀ ts m w'

namespace History

variable {ctx : Context} {co : Collaborators W} {aside : W → W → Prop} {w₀ : W}

theorem taken {ts later earlier : List Turn} {t : Turn} {m : Miner} {w : W}
    (h : History ctx co aside w₀ ts m w) (hsplit : ts = later ++ t :: earlier) :
    ∃ m₁ w₁ fuel, History ctx co aside w₀ earlier m₁ w₁ ∧ t = m₁.turn ctx co fuel w₁ := by
  induction h generalizing later with
  | start => simp at hsplit
  | @turn ts m w fuel h ih =>
    cases later with
    | nil =>
      obtain ⟨rfl, rfl⟩ := List.cons.inj hsplit
      exact ⟨m, w, fuel, h, rfl⟩
    | cons u later => exact ih (List.cons.inj hsplit).2
  | aside _ _ ih => exact ih hsplit

theorem turns (fuel n : Nat) :
    History ctx co aside w₀ (Miner.turns ctx co fuel w₀ n).1 (Miner.turns ctx co fuel w₀ n).2.1
      (Miner.turns ctx co fuel w₀ n).2.2 := by
  induction n with
  | zero => exact .start
  | succ n ih => exact .turn fuel ih

/-- A miner that is left to run has a history, provided that what follows a failure is one of the
changes between two turns. -/
theorem run (fuel steps : Nat)
    (hrecover : ∀ {ts m w} f, History ctx co aside w₀ ts m w →
      History ctx co aside w₀ ts m (Miner.recover ctx co f w))
    {ts : List Turn} {m : Miner} {w : W} (h : History ctx co aside w₀ ts m w) :
    ∃ ts', History ctx co aside w₀ ts' (Miner.run ctx co fuel steps m w).2.1
      (Miner.run ctx co fuel steps m w).2.2 := by
  induction steps generalizing ts m w with
  | zero => exact ⟨ts, h⟩
  | succ steps ih =>
    unfold Miner.run
    split
    · exact ⟨ts, h⟩
    have htaken := h.turn fuel
    generalize m.step ctx co fuel w = r at htaken ⊢
    obtain ⟨outcome, m₁, w₁⟩ := r
    cases outcome with
    | continued => exact ih htaken
    | failed f => exact ih (hrecover f htaken)
    | _ => exact ⟨_, htaken⟩

end History

end PlotMiner.Mining
