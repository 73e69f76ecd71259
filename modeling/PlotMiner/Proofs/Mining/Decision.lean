import PlotMiner.Proofs.Mining.Round

/-!
# What decides a wait

A miner that waits for a time proof looks again and again at what the node says, and at what the
cache holds at that moment. The first look that decides the wait decides it alone: what comes before
it is passed over, however often, and what would come after it does not matter
(`first_decisive_look`). This is said of looks that are taken in time and while the miner is to go
on; how the wait ends otherwise is read off its definition.
-/

namespace PlotMiner

/-- A time proof is for the challenge and covers the iterations. -/
def VdfProof.Covers (v : VdfProof) (challenge : Bytes32) (iters : UInt64) : Prop :=
  v.challenge = challenge ∧ iters ≤ v.iters

section

variable {c : Challenge} {cache : ProofCache} {challenge : Bytes32} {iters : UInt64}

theorem Challenge.findVdfProof_eq_some_iff {v : VdfProof} :
    c.findVdfProof iters = some v ↔ v.Covers c.challenge iters ∧
      ∃ before after, c.vdfProofs = before ++ v :: after ∧
        ∀ u ∈ before, ¬ u.Covers c.challenge iters := by
  simp [findVdfProof, VdfProof.Covers, List.find?_eq_some_iff_append,
    Decidable.imp_iff_not_or]

theorem Challenge.findVdfProof_eq_none_iff :
    c.findVdfProof iters = none ↔ ∀ u ∈ c.vdfProofs, ¬ u.Covers c.challenge iters := by
  simp [findVdfProof, VdfProof.Covers]

theorem ProofCache.bestAtLeast_eq_some_iff {d : ProofDetail} :
    cache.bestAtLeast challenge iters = some d ↔ iters ≤ d.iters ∧
      ∃ before after, cache.proofs challenge = before ++ d :: after ∧
        ∀ e ∈ before, e.iters < iters := by
  simp [bestAtLeast, List.find?_eq_some_iff_append]

theorem ProofCache.bestAtLeast_eq_none_iff :
    cache.bestAtLeast challenge iters = none ↔ ∀ d ∈ cache.proofs challenge, d.iters < iters := by
  simp [bestAtLeast]

end

namespace Mining

structure Look where
  reply : Except Failure Challenge
  cache : ProofCache

namespace Look

variable (challenge : Bytes32) (iters : UInt64)

/-- The look decides the wait for a time proof. A report of another challenge does, whatever comes
with it. A report of the challenge does with the first of its time proofs that covers the iterations
or, where none does, with the first one in the cache. An error does, unless it is one that the node
reports. -/
inductive Decides : Look → BreakReason → Prop
  | changed {c cache} : c.challenge ≠ challenge → Decides ⟨.ok c, cache⟩ .challengeChanged
  | reported {c cache before v after} : c.challenge = challenge →
      c.vdfProofs = before ++ v :: after → (∀ u ∈ before, ¬ u.Covers challenge iters) →
      v.Covers challenge iters → Decides ⟨.ok c, cache⟩ (.acquired v)
  | cached {c cache before d after} : c.challenge = challenge →
      (∀ u ∈ c.vdfProofs, ¬ u.Covers challenge iters) →
      cache.proofs challenge = before ++ d :: after → (∀ e ∈ before, e.iters < iters) →
      iters ≤ d.iters →
      Decides ⟨.ok c, cache⟩
        (.acquired ⟨challenge, d.y, d.proof, d.witnessType, d.iters, max d.duration 1⟩)
  | unreachable {message cache} : Decides ⟨.error (.net message), cache⟩ .error
  | failed {kind message cache} : Decides ⟨.error (.other kind message), cache⟩ .error

inductive Undecided : Look → Prop
  | refused {code message cache} : Undecided ⟨.error (.rpc code message), cache⟩
  | uncovered {c cache} : c.challenge = challenge →
      (∀ u ∈ c.vdfProofs, ¬ u.Covers challenge iters) →
      (∀ d ∈ cache.proofs challenge, d.iters < iters) → Undecided ⟨.ok c, cache⟩

/-- The decision that a look brings, if it brings one. -/
def decision? : Look → Option BreakReason
  | ⟨.ok c, cache⟩ =>
    if c.challenge ≠ challenge then some .challengeChanged
    else
      match c.findVdfProof iters with
      | some v => some (.acquired v)
      | none =>
        (cache.bestAtLeast challenge iters).map fun d => .acquired (d.forChallenge challenge)
  | ⟨.error (.rpc _ _), _⟩ => none
  | ⟨.error _, _⟩ => some .error

/-- How long the miner pauses after the look, if it has not decided anything. -/
def pause (t : Timings) : Look → Nat
  | ⟨.error (.rpc _ _), _⟩ => t.rpcErrorWait
  | _ => t.pollTick

variable {challenge iters} {l : Look} {r : BreakReason}

theorem decision?_eq_some_iff :
    l.decision? challenge iters = some r ↔ l.Decides challenge iters r := by
  constructor
  · intro h
    rcases l with ⟨e | c, cache⟩
    · cases e with
      | rpc code message => simp [decision?] at h
      | net message =>
        obtain rfl := Option.some.inj h
        exact .unreachable
      | other kind message =>
        obtain rfl := Option.some.inj h
        exact .failed
    · simp only [decision?] at h
      split at h
      case isTrue hother =>
        obtain rfl := Option.some.inj h
        exact .changed hother
      case isFalse hsame =>
        obtain rfl := Decidable.not_not.1 hsame
        split at h
        case h_1 v hfound =>
          obtain rfl := Option.some.inj h
          obtain ⟨hcovers, before, after, hsplit, hshort⟩ :=
            Challenge.findVdfProof_eq_some_iff.1 hfound
          exact .reported rfl hsplit hshort hcovers
        case h_2 hmissing =>
          obtain ⟨d, hfound, rfl⟩ := Option.map_eq_some_iff.1 h
          obtain ⟨hcovers, before, after, hsplit, hshort⟩ :=
            ProofCache.bestAtLeast_eq_some_iff.1 hfound
          exact .cached rfl (Challenge.findVdfProof_eq_none_iff.1 hmissing) hsplit hshort hcovers
  · intro h
    cases h with
    | changed hother => simp [decision?, hother]
    | reported hsame hsplit hshort hcovers =>
      subst hsame
      have hfound := Challenge.findVdfProof_eq_some_iff.2 ⟨hcovers, _, _, hsplit, hshort⟩
      simp [decision?, hfound]
    | cached hsame hmissing hsplit hshort hcovers =>
      subst hsame
      have hmissing := Challenge.findVdfProof_eq_none_iff.2 hmissing
      have hfound := ProofCache.bestAtLeast_eq_some_iff.2 ⟨hcovers, _, _, hsplit, hshort⟩
      simp [decision?, hmissing, hfound, ProofDetail.forChallenge]
    | unreachable => rfl
    | failed => rfl

theorem decision?_eq_none_iff :
    l.decision? challenge iters = none ↔ l.Undecided challenge iters := by
  constructor
  · intro h
    rcases l with ⟨e | c, cache⟩
    · cases e with
      | rpc code message => exact .refused
      | net message => simp [decision?] at h
      | other kind message => simp [decision?] at h
    · simp only [decision?] at h
      split at h
      case isTrue => simp at h
      case isFalse hsame =>
        obtain rfl := Decidable.not_not.1 hsame
        split at h
        case h_1 => simp at h
        case h_2 hmissing =>
          exact .uncovered rfl (Challenge.findVdfProof_eq_none_iff.1 hmissing)
            (ProofCache.bestAtLeast_eq_none_iff.1 (Option.map_eq_none_iff.1 h))
  · intro h
    cases h with
    | refused => rfl
    | uncovered hsame hmissing hshort =>
      subst hsame
      simp [decision?, Challenge.findVdfProof_eq_none_iff.2 hmissing,
        ProofCache.bestAtLeast_eq_none_iff.2 hshort]

theorem undecided_iff : l.Undecided challenge iters ↔ ¬ ∃ r, l.Decides challenge iters r := by
  simp only [← decision?_eq_none_iff, ← decision?_eq_some_iff, Option.eq_none_iff_forall_ne_some,
    not_exists]

theorem Decides.unique {r' : BreakReason} (h : l.Decides challenge iters r)
    (h' : l.Decides challenge iters r') : r = r' := by
  rw [← decision?_eq_some_iff] at h h'
  exact Option.some.inj (h.symm.trans h')

theorem Decides.covers {v : VdfProof} (h : l.Decides challenge iters (.acquired v)) :
    v.Covers challenge iters := by
  cases h with
  | reported hsame hsplit hshort hcovers => exact hcovers
  | cached hsame hmissing hsplit hshort hcovers => exact ⟨rfl, hcovers⟩

end Look

variable {W : Type}

/-- The looks that a wait takes from one world to another, each in time and while the miner is to go
on. After each of them the miner pauses as it would if nothing had been decided. -/
inductive Sees (ctx : Context) (co : Collaborators W) (cache : W → ProofCache)
    (start timeout : Nat) : W → List Look → W → Prop
  | nothing {w} : Sees ctx co cache start timeout w [] w
  | look {w a w₁ ls w₂} : co.running w → co.now w - start < timeout →
      co.queryChallenge w = (a, w₁) →
      Sees ctx co cache start timeout (co.sleep (Look.pause ctx.timings ⟨a, cache w₁⟩) w₁) ls w₂ →
      Sees ctx co cache start timeout w (⟨a, cache w₁⟩ :: ls) w₂

namespace Miner

variable {ctx : Context} {co : Collaborators W} {cache : W → ProofCache} {challenge : Bytes32}
  {iters : UInt64} {start timeout : Nat} {w w₁ w' : W} {a : Except Failure Challenge}

/-- One look either brings a decision or is followed by the others. -/
theorem poll_look (fuel : Nat) (hrunning : co.running w) (hearly : co.now w - start < timeout)
    (hreplied : co.queryChallenge w = (a, w₁)) :
    poll ctx (co.withCache cache) challenge iters start timeout (fuel + 1) w =
      match Look.decision? challenge iters ⟨a, cache w₁⟩ with
      | some reason => (reason, w₁)
      | none => poll ctx (co.withCache cache) challenge iters start timeout fuel
          (co.sleep (Look.pause ctx.timings ⟨a, cache w₁⟩) w₁) := by
  have hinTime : ¬ timeout ≤ co.now w - start := Nat.not_le.2 hearly
  cases a with
  | error e =>
    cases e <;> simp [poll, Collaborators.withCache, hrunning, hinTime, hreplied, Look.decision?,
      Look.pause]
  | ok c =>
    have hverdict : verdict? (co.withCache cache) challenge iters c w₁ =
        Look.decision? challenge iters ⟨.ok c, cache w₁⟩ := rfl
    have hasked : (co.withCache cache).queryChallenge w = (.ok c, w₁) := hreplied
    have hgoesOn : (co.withCache cache).running w = true := hrunning
    have hnotLate : ¬ timeout ≤ (co.withCache cache).now w - start := hinTime
    rw [poll, hgoesOn, hasked]
    simp only [Bool.not_true, Bool.false_eq_true, if_false, if_neg hnotLate, hverdict]
    rfl

theorem poll_of_undecided {ls : List Look} (hsees : Sees ctx co cache start timeout w ls w')
    (hpassed : ∀ l ∈ ls, l.Undecided challenge iters) (fuel : Nat) :
    poll ctx (co.withCache cache) challenge iters start timeout (ls.length + fuel) w =
      poll ctx (co.withCache cache) challenge iters start timeout fuel w' := by
  induction hsees with
  | nothing => simp
  | @look w a w₁ ls w₂ hrunning hearly hreplied _ ih =>
    have hundecided := Look.decision?_eq_none_iff.2 (hpassed _ List.mem_cons_self)
    rw [List.length_cons, Nat.add_right_comm, poll_look _ hrunning hearly hreplied, hundecided]
    exact ih fun l hmem => hpassed l (List.mem_cons_of_mem _ hmem)

theorem poll_of_decides {skipped rest : List Look} {l : Look} {r : BreakReason} {fuel : Nat}
    (hsees : Sees ctx co cache start timeout w (skipped ++ l :: rest) w')
    (hpassed : ∀ x ∈ skipped, x.Undecided challenge iters) (hdecides : l.Decides challenge iters r)
    (henough : skipped.length < fuel) :
    (poll ctx (co.withCache cache) challenge iters start timeout fuel w).1 = r := by
  induction skipped generalizing w fuel with
  | nil =>
    obtain ⟨fuel, rfl⟩ := Nat.exists_eq_add_one_of_ne_zero (Nat.ne_zero_of_lt henough)
    cases hsees with
    | look hrunning hearly hreplied hlater =>
      rw [poll_look fuel hrunning hearly hreplied, Look.decision?_eq_some_iff.2 hdecides]
  | cons x skipped ih =>
    obtain ⟨fuel, rfl⟩ := Nat.exists_eq_add_one_of_ne_zero (Nat.ne_zero_of_lt henough)
    cases hsees with
    | look hrunning hearly hreplied hlater =>
      have hundecided := Look.decision?_eq_none_iff.2 (hpassed _ List.mem_cons_self)
      rw [poll_look fuel hrunning hearly hreplied, hundecided]
      exact ih hlater (fun y hmem => hpassed y (List.mem_cons_of_mem _ hmem))
        (Nat.lt_of_succ_lt_succ henough)

/-- Whatever a wait is decided by, what is acquired is what a look brings. -/
theorem poll_acquired {fuel : Nat} {v : VdfProof}
    (h : (poll ctx (co.withCache cache) challenge iters start timeout fuel w).1 = .acquired v) :
    v.Covers challenge iters := by
  induction fuel generalizing w with
  | zero => simp [poll] at h
  | succ fuel ih =>
    by_cases hrunning : co.running w
    case neg => simp [poll, Collaborators.withCache, hrunning] at h
    by_cases hearly : co.now w - start < timeout
    case neg => simp [poll, Collaborators.withCache, hrunning, Nat.not_lt.1 hearly] at h
    rw [poll_look fuel hrunning hearly rfl] at h
    split at h
    case h_1 reason hdecision =>
      cases h
      exact (Look.decision?_eq_some_iff.1 hdecision).covers
    case h_2 => exact ih h

/-- The world in which the looks begin: the node and the timelords have been asked for a proof. -/
def requested (co : Collaborators W) (m : Miner) (w : W) : W :=
  let w := (co.requestVdf m.queried.challenge m.iters w).2
  co.broadcast ⟨m.queried.challenge, m.iters, co.netspace w⟩ w

theorem checkAndBreak_eq (m : Miner) (fuel : Nat) :
    m.checkAndBreak ctx (co.withCache cache) fuel timeout w =
      poll ctx (co.withCache cache) m.queried.challenge m.iters (co.now (m.requested co w)) timeout
        fuel (m.requested co w) := rfl

end Miner

/-- A wait that sees some looks, all in time and while the miner is to go on, is decided by the
first of them that decides it, whatever comes later. It passes over the others, and goes on where
none decides it. A look decides nothing just if it is undecided, and decides one thing at most.
Whatever is acquired is for the challenge that is waited for and covers the iterations. -/
theorem first_decisive_look {ctx : Context} {co : Collaborators W} {cache : W → ProofCache}
    (m : Miner) {timeout : Nat} {w w' : W} {ls : List Look}
    (hsees : Sees ctx co cache (co.now (m.requested co w)) timeout (m.requested co w) ls w') :
    (∀ skipped l rest r, ls = skipped ++ l :: rest →
      (∀ x ∈ skipped, x.Undecided m.queried.challenge m.iters) →
      l.Decides m.queried.challenge m.iters r →
      ∀ fuel, skipped.length < fuel →
        (m.checkAndBreak ctx (co.withCache cache) fuel timeout w).1 = r) ∧
    ((∀ x ∈ ls, x.Undecided m.queried.challenge m.iters) → ∀ fuel,
      m.checkAndBreak ctx (co.withCache cache) (ls.length + fuel) timeout w =
        Miner.poll ctx (co.withCache cache) m.queried.challenge m.iters
          (co.now (m.requested co w)) timeout fuel w') ∧
    (∀ l : Look,
      (l.Undecided m.queried.challenge m.iters ↔
        ¬ ∃ r, l.Decides m.queried.challenge m.iters r) ∧
      ∀ r r', l.Decides m.queried.challenge m.iters r → l.Decides m.queried.challenge m.iters r' →
        r = r') ∧
    (∀ fuel v, (m.checkAndBreak ctx (co.withCache cache) fuel timeout w).1 = .acquired v →
      v.challenge = m.queried.challenge ∧ m.iters ≤ v.iters) := by
  refine ⟨?_, ?_, fun l => ⟨Look.undecided_iff, fun r r' => Look.Decides.unique⟩, ?_⟩
  · rintro skipped l rest r rfl hpassed hdecides fuel henough
    rw [Miner.checkAndBreak_eq]
    exact Miner.poll_of_decides hsees hpassed hdecides henough
  · intro hpassed fuel
    rw [Miner.checkAndBreak_eq]
    exact Miner.poll_of_undecided hsees hpassed fuel
  · intro fuel v hacquired
    rw [Miner.checkAndBreak_eq] at hacquired
    exact Miner.poll_acquired hacquired

namespace Sample

def bare : Challenge := { challenge with vdfProofs := [] }

def lateProof : ProofDetail := ⟨⟨[1]⟩, ⟨[2]⟩, 0, 7, 0⟩

/-- The node refuses to answer twice, then reports the challenge twice, and goes over to another
one. A timelord delivers a time proof before the second report. -/
def replies : List (PreparedAnswer Challenge) :=
  [⟨.error (.rpc 0 "busy"), 2, false, []⟩, ⟨.ok bare, 1, false, []⟩,
    ⟨.ok bare, 1, false, [(bare.challenge, lateProof)]⟩,
    ⟨.ok { bare with challenge := .ofNat 32 8 }, 1, false, []⟩]

def waitingSite : Logged (Site Rehearsal) :=
  { site with world := { site.world with node := { rehearsal with challenge := replies } } }

def waiting : Miner := { Miner.initial with phase := .waitVdf, queried := bare, iters := 5 }

def early : List Look :=
  [⟨.error (.rpc 0 "busy"), .empty⟩, ⟨.error (.rpc 0 "busy"), .empty⟩, ⟨.ok bare, .empty⟩]

def late : Look := ⟨.ok bare, ProofCache.empty.record bare.challenge lateProof⟩

def tooLate : Look := ⟨.ok { bare with challenge := .ofNat 32 8 }, late.cache⟩

theorem undecided_early : ∀ l ∈ early, l.Undecided bare.challenge 5 := by
  simp only [← Look.decision?_eq_none_iff]
  decide

theorem decides_late :
    late.Decides bare.challenge 5 (.acquired ⟨bare.challenge, ⟨[1]⟩, ⟨[2]⟩, 0, 7, 1⟩) :=
  Look.decision?_eq_some_iff.1 (by decide)

end Sample

/-- The fourth look decides with the proof that was delivered, as though its computation had taken a
second. The fifth would have found another challenge. -/
theorem first_decisive_look_delivered :
    let co := Rehearsal.collaborators Sample.keys
    let cache := fun l : Logged (Site Rehearsal) => l.world.fleet.cache
    let start := Sample.waiting.requested co Sample.waitingSite
    (∃ w', Sees Sample.context co cache (co.now start) (60 * second) start
      (Sample.early ++ Sample.late :: [Sample.tooLate]) w') ∧
    (Sample.waiting.checkAndBreak Sample.context (co.withCache cache) 4 (60 * second)
      Sample.waitingSite).1 = .acquired ⟨Sample.bare.challenge, ⟨[1]⟩, ⟨[2]⟩, 0, 7, 1⟩ := by
  intro co cache start
  have hsees : ∃ w', Sees Sample.context co cache (co.now start) (60 * second) start
      (Sample.early ++ Sample.late :: [Sample.tooLate]) w' := by
    refine ⟨_, .look rfl ?_ rfl <| .look rfl ?_ rfl <| .look rfl ?_ rfl <| .look rfl ?_ rfl <|
      .look rfl ?_ rfl .nothing⟩ <;> decide
  obtain ⟨w', hseen⟩ := hsees
  exact ⟨⟨w', hseen⟩, (first_decisive_look Sample.waiting hseen).1 _ _ _ _ rfl
    Sample.undecided_early Sample.decides_late 4 (by decide)⟩

end Mining

end PlotMiner
