import PlotMiner.Proofs.Mining.Foundation

/-!
# Submitting once

The challenges that a miner remembers are those for which the node has accepted proofs, no more and
no less. A miner is in no round on such a challenge, so it never submits for one again, whatever the
node reports and in whatever order.
-/

namespace PlotMiner.Mining

namespace Exchange

def Submits (e : Exchange) (challenge : Bytes32) : Prop :=
  ∃ pack answer, e = submitProof pack answer ∧ pack.pos.challenge = challenge

/-- Proofs for a challenge are submitted, and the node accepts them. -/
def Accepts (e : Exchange) (challenge : Bytes32) : Prop :=
  ∃ pack, e = submitProof pack (.ok ()) ∧ pack.pos.challenge = challenge

end Exchange

def exchangesOf (ts : List Turn) : List Exchange := ts.flatMap Turn.exchanges

variable {W : Type} {ctx : Context} {co : Collaborators W} {cache : W → ProofCache}
  {aside : W → W → Prop} {w₀ w : W} {ts : List Turn} {m m' : Miner} {es : List Exchange}

theorem Exchange.Submits.eq_queried {e : Exchange} {challenge : Bytes32} (h : e.Submits challenge)
    (hfits : e.Fits ctx m) (hconsistent : m.Consistent) :
    m.phase = .submitProofs ∧ challenge = m.queried.challenge := by
  obtain ⟨pack, answer, rfl, rfl⟩ := h
  obtain ⟨hphase, hmade, -⟩ := hfits
  exact ⟨hphase, (hconsistent.pack_matches hphase hmade).1⟩

theorem Exchange.Accepts.submits {e : Exchange} {challenge : Bytes32} (h : e.Accepts challenge) :
    e.Submits challenge := by
  obtain ⟨pack, rfl, hsame⟩ := h
  exact ⟨pack, .ok (), rfl, hsame⟩

/-- Nothing else is said in a turn in which proofs may be submitted. -/
theorem Transition.said_alone (h : Transition ctx co m w₀ es m' w)
    (hphase : m.phase = .submitProofs) : es = [] ∨ ∃ e, es = [e] := by
  cases h <;> simp_all

theorem Transition.submitted_eq (h : Transition ctx co m w₀ es m' w)
    (hphase : m.phase ≠ .submitProofs) : m'.submitted = m.submitted := by
  cases h with
  | accepted pack hhere => exact absurd hhere hphase
  | _ => rfl

/-- A challenge is remembered in a turn just if proofs for it are accepted in that turn. -/
theorem Transition.submitted_iff (h : Transition ctx co m w₀ es m' w)
    (hfits : ∀ e ∈ es, e.Fits ctx m) (hconsistent : m.Consistent) (challenge : Bytes32) :
    challenge ∈ m'.submitted ↔ challenge ∈ m.submitted ∨ ∃ e ∈ es, e.Accepts challenge := by
  by_cases hphase : m.phase = .submitProofs
  case neg =>
    have hsilent : ¬ ∃ e ∈ es, e.Accepts challenge := by
      rintro ⟨e, he, haccepts⟩
      exact hphase (haccepts.submits.eq_queried (hfits e he) hconsistent).1
    rw [h.submitted_eq hphase]
    exact ⟨.inl, fun hknown => hknown.resolve_right hsilent⟩
  cases h with
  | accepted pack =>
    have hsaid := hfits (.submitProof pack (.ok ())) (by simp)
    have hsame : pack.pos.challenge = m.queried.challenge :=
      (Exchange.Submits.eq_queried ⟨pack, _, rfl, rfl⟩ hsaid hconsistent).2
    simp [Exchange.Accepts, hsame, or_comm, eq_comm]
  | refused => simp [Exchange.Accepts]
  | dropped => simp
  | _ => simp_all

/-- After proofs for a challenge were accepted, none are submitted for it. -/
def OnceAccepted (later earlier : Exchange) : Prop :=
  ∀ challenge, earlier.Accepts challenge → ¬ later.Submits challenge

theorem History.submitted_iff (h : History ctx (co.withCache cache) aside w₀ ts m w)
    (challenge : Bytes32) :
    challenge ∈ m.submitted ↔ ∃ e ∈ exchangesOf ts, e.Accepts challenge := by
  induction h with
  | start => simp [exchangesOf, Miner.initial, default]
  | turn fuel h ih =>
    rw [(Miner.turn_transition ..).submitted_iff (Miner.turn_fits _ _ _ _ _) h.consistent, ih]
    simp only [exchangesOf, List.flatMap_cons, List.mem_append, or_and_right, exists_or]
    exact or_comm
  | aside _ _ ih => exact ih

theorem History.onceAccepted (h : History ctx (co.withCache cache) aside w₀ ts m w) :
    (exchangesOf ts).Pairwise OnceAccepted := by
  induction h with
  | start => exact .nil
  | aside _ _ ih => exact ih
  | @turn ts m w fuel h ih =>
    have hfits := Miner.turn_fits ctx (co.withCache cache) m w fuel
    refine List.pairwise_append.2 ⟨?_, ih, ?_⟩
    · -- Nothing else is said in a turn that submits; in the other turns nothing is submitted.
      by_cases hphase : m.phase = .submitProofs
      · rcases (Miner.turn_transition ctx (co.withCache cache) m w fuel).said_alone hphase with
          hnone | ⟨e, hone⟩
        · rw [hnone]
          exact .nil
        · rw [hone]
          exact List.pairwise_singleton ..
      · refine List.pairwise_of_forall_mem_list ?_
        intro later hl earlier _ challenge _ hsubmits
        exact hphase (hsubmits.eq_queried (hfits later hl) h.consistent).1
    · intro later hl earlier he challenge haccepts hsubmits
      obtain ⟨hphase, rfl⟩ := hsubmits.eq_queried (hfits later hl) h.consistent
      have hbusy : m.phase ≠ .requireChallenge := by simp [hphase]
      exact (h.consistent.adopted hbusy).unsubmitted ((h.submitted_iff _).2 ⟨earlier, he, haccepts⟩)

theorem History.turn_submitted (h : History ctx (co.withCache cache) aside w₀ ts m w)
    {later earlier : List Turn} {t : Turn} (hsplit : ts = later ++ t :: earlier)
    (challenge : Bytes32) :
    (challenge ∈ t.after.submitted ↔
      challenge ∈ t.before.submitted ∨ ∃ e ∈ t.exchanges, e.Accepts challenge) ∧
    (challenge ∈ t.after.submitted → challenge ∈ m.submitted) := by
  obtain ⟨m₁, w₁, fuel, h₁, rfl⟩ := h.taken hsplit
  constructor
  · exact (Miner.turn_transition ctx (co.withCache cache) m₁ w₁ fuel).submitted_iff
      (Miner.turn_fits _ _ _ _ _) h₁.consistent challenge
  · intro hknown
    obtain ⟨e, hsaid, haccepts⟩ := ((h₁.turn fuel).submitted_iff challenge).1 hknown
    refine (h.submitted_iff challenge).2 ⟨e, ?_, haccepts⟩
    rw [hsplit, exchangesOf, List.flatMap_append]
    exact List.mem_append_right _ hsaid

/-- For each challenge proofs are accepted at most once, and after that none are submitted for it. A
challenge is remembered from the turn on in which proofs for it are accepted, never before it and
ever after. -/
theorem submitted_once (h : History ctx (co.withCache cache) aside w₀ ts m w)
    (challenge : Bytes32) :
    (exchangesOf ts).Pairwise
      (fun later earlier => ¬ (later.Accepts challenge ∧ earlier.Accepts challenge)) ∧
    (∀ later e earlier, exchangesOf ts = later ++ e :: earlier → e.Accepts challenge →
      ∀ e' ∈ later, ¬ e'.Submits challenge) ∧
    (challenge ∈ m.submitted ↔ ∃ e ∈ exchangesOf ts, e.Accepts challenge) ∧
    (∀ t ∈ ts,
      (challenge ∈ t.after.submitted → challenge ∉ t.before.submitted →
        ∃ e ∈ t.exchanges, e.Accepts challenge) ∧
      (challenge ∈ t.before.submitted → challenge ∈ t.after.submitted) ∧
      (challenge ∈ t.after.submitted → challenge ∈ m.submitted)) := by
  refine ⟨?_, ?_, h.submitted_iff challenge, ?_⟩
  · refine h.onceAccepted.imp ?_
    rintro later earlier honce ⟨hagain, haccepted⟩
    exact honce challenge haccepted hagain.submits
  · intro later e earlier hsplit haccepted e' he'
    have honce := h.onceAccepted
    rw [hsplit] at honce
    exact (List.pairwise_append.1 honce).2.2 e' he' e List.mem_cons_self challenge haccepted
  · intro t ht
    obtain ⟨later, earlier, hsplit⟩ := List.append_of_mem ht
    obtain ⟨hchange, hkept⟩ := h.turn_submitted hsplit challenge
    exact ⟨fun hafter hbefore => (hchange.1 hafter).resolve_left hbefore,
      fun hbefore => hchange.2 (.inl hbefore), hkept⟩

/-- The sample miner comes to remember the challenge for which its proofs are accepted. -/
theorem submitted_once_sample :
    .ofNat 32 7 ∈ (Sample.turns 5).2.1.submitted ∧
      ∃ e ∈ exchangesOf (Sample.turns 5).1, e.Accepts (.ofNat 32 7) := by
  have hremembered : .ofNat 32 7 ∈ (Sample.turns 5).2.1.submitted := by decide +kernel
  exact ⟨hremembered, (submitted_once (Sample.history 5) _).2.2.1.1 hremembered⟩

end PlotMiner.Mining
