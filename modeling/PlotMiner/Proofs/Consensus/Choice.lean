import Mathlib.Data.List.Induction
import PlotMiner.Proofs.Consensus.Iterations

/-!
# Which candidate is chosen

Candidates without a byte of quality are passed over. Of the others the first one is chosen that has
to wait for the fewest iterations (`FirstLeast`), which is one candidate at most. So the order of
the candidates decides between equals only, and whatever is passed over may as well not be there
(`selectBest_first_least`).
-/

namespace PlotMiner

namespace ScoredCandidate

/-- The candidate stands in the list. Every one before it waits longer, and none after it less
long. -/
def Least (l : List ScoredCandidate) (s : ScoredCandidate) : Prop :=
  ∃ before after, l = before ++ s :: after ∧ (∀ a ∈ before, s.iters < a.iters) ∧
    ∀ a ∈ after, s.iters ≤ a.iters

theorem best?_concat (l : List ScoredCandidate) (x : ScoredCandidate) :
    best? (l ++ [x]) = some ((best? l).elim x (better · x)) := by
  cases l with
  | nil => rfl
  | cons a rest => simp [best?, List.foldl_append]

theorem Least.concat {l : List ScoredCandidate} {s : ScoredCandidate} (h : Least l s)
    (x : ScoredCandidate) : Least (l ++ [x]) (better s x) := by
  obtain ⟨before, after, rfl, hlonger, hleast⟩ := h
  unfold better
  split
  case isTrue hshorter =>
    refine ⟨before ++ s :: after, [], rfl, ?_, by simp⟩
    intro a ha
    rcases List.mem_append.1 ha with hearlier | hlater
    · exact UInt64.lt_trans hshorter (hlonger a hearlier)
    · rcases List.mem_cons.1 hlater with rfl | hlater
      · exact hshorter
      · exact UInt64.lt_of_lt_of_le hshorter (hleast a hlater)
  case isFalse hnotShorter =>
    refine ⟨before, after ++ [x], by simp, hlonger, ?_⟩
    intro a ha
    rcases List.mem_append.1 ha with hlater | hlast
    · exact hleast a hlater
    · rw [List.mem_singleton.1 hlast]
      exact UInt64.not_lt.1 hnotShorter

theorem least_of_best? {l : List ScoredCandidate} {s : ScoredCandidate} (h : best? l = some s) :
    Least l s := by
  induction l using List.reverseRecOn generalizing s with
  | nil => simp [best?] at h
  | append_singleton l x ih =>
    rw [best?_concat] at h
    obtain rfl := Option.some.inj h
    cases hbest : best? l with
    | some b => exact (ih hbest).concat x
    | none =>
      cases l with
      | nil => exact ⟨[], [], rfl, by simp, by simp⟩
      | cons a rest => simp [best?] at hbest

end ScoredCandidate

namespace Candidate

def waits? (c : Candidate) (challenge : Bytes32) (t : Target) : Option UInt64 :=
  t.iterations? (mixQuality c.quality.toList challenge) c.k

variable {c : Candidate} {challenge : Bytes32} {t : Target}

theorem hasQuality_iff : c.hasQuality ↔ ∃ b ∈ c.quality.toList, b ≠ 0 := by
  simp [hasQuality]

theorem score?_eq_some_iff {s : ScoredCandidate} :
    c.score? challenge t = some s ↔ s.candidate = c ∧
      s.mixed = mixQuality c.quality.toList challenge ∧ c.waits? challenge t = some s.iters := by
  obtain ⟨candidate, mixed, iters⟩ := s
  cases hwaits : c.waits? challenge t with
  | none =>
    unfold waits? at hwaits
    simp [score?, hwaits]
  | some n =>
    rw [score?_eq hwaits]
    simp [eq_comm]

theorem isSome_score? (challenge : Bytes32) (t : Target) (h : c.k ≤ 58) :
    (c.score? challenge t).isSome := by
  obtain ⟨n, hknown, -⟩ := t.iterations?_eq (mixQuality c.quality.toList challenge) h
  simp [score?_eq hknown]

end Candidate

theorem map_eq_of_mapM {α β : Type} {f : α → Option β} {l : List α} {ys : List β}
    (h : l.mapM f = some ys) : l.map f = ys.map some := by
  induction l generalizing ys with
  | nil =>
    obtain rfl : [] = ys := Option.some.inj h
    rfl
  | cons x l ih =>
    simp only [List.mapM_cons, Option.bind_eq_bind, Option.bind_eq_some_iff, Option.pure_def,
      Option.some.injEq] at h
    obtain ⟨y, hfirst, zs, hrest, rfl⟩ := h
    simp [hfirst, ih hrest]

theorem isSome_mapM {α β : Type} {f : α → Option β} {l : List α} (h : ∀ x ∈ l, (f x).isSome) :
    (l.mapM f).isSome := by
  induction l with
  | nil => rfl
  | cons x l ih =>
    obtain ⟨y, hy⟩ := Option.isSome_iff_exists.1 (h x List.mem_cons_self)
    obtain ⟨ys, hys⟩ := Option.isSome_iff_exists.1 (ih fun z hz => h z (List.mem_cons_of_mem x hz))
    simp [List.mapM_cons, hy, hys]

variable {cs cs' : List Candidate} {challenge : Bytes32} {t : Target} {s s' : ScoredCandidate}

/-- `s` is the first of the candidates with quality that wait for the fewest iterations, with its
mixed quality and these iterations. -/
structure FirstLeast (cs : List Candidate) (challenge : Bytes32) (t : Target)
    (s : ScoredCandidate) : Prop where
  quality : ∃ b ∈ s.candidate.quality.toList, b ≠ 0
  mixed : s.mixed = mixQuality s.candidate.quality.toList challenge
  iters : t.iterations? s.mixed s.candidate.k = some s.iters
  first : ∃ before after, cs = before ++ s.candidate :: after ∧
    (∀ c ∈ before, c.hasQuality → ∃ n, c.waits? challenge t = some n ∧ s.iters < n) ∧
    ∀ c ∈ after, c.hasQuality → ∃ n, c.waits? challenge t = some n ∧ s.iters ≤ n

namespace FirstLeast

theorem waits (h : FirstLeast cs challenge t s) :
    s.candidate.waits? challenge t = some s.iters := by
  rw [Candidate.waits?, ← h.mixed, h.iters]

theorem mem (h : FirstLeast cs challenge t s) : s.candidate ∈ cs := by
  obtain ⟨before, after, rfl, -⟩ := h.first
  simp

theorem le (h : FirstLeast cs challenge t s) {c : Candidate} (hmem : c ∈ cs)
    (hquality : c.hasQuality) : ∃ n, c.waits? challenge t = some n ∧ s.iters ≤ n := by
  obtain ⟨before, after, rfl, hlonger, hleast⟩ := h.first
  rcases List.mem_append.1 hmem with hearlier | hlater
  · obtain ⟨n, hknown, hless⟩ := hlonger c hearlier hquality
    exact ⟨n, hknown, UInt64.le_of_lt hless⟩
  · rcases List.mem_cons.1 hlater with rfl | hlater
    · exact ⟨s.iters, h.waits, UInt64.le_refl _⟩
    · exact hleast c hlater hquality

theorem candidate_eq (h : FirstLeast cs challenge t s) (h' : FirstLeast cs challenge t s') :
    s.candidate = s'.candidate := by
  -- The one that stands first would wait both longer than the other one and no longer than it.
  have hapart {s s' : ScoredCandidate} (h : FirstLeast cs challenge t s)
      (h' : FirstLeast cs challenge t s') {before after : List Candidate}
      (hsplit : cs = before ++ s'.candidate :: after)
      (hlonger : ∀ c ∈ before, c.hasQuality → ∃ n, c.waits? challenge t = some n ∧ s'.iters < n) :
      s.candidate ∉ before := by
    intro hearlier
    obtain ⟨n, hknown, hless⟩ := hlonger _ hearlier (Candidate.hasQuality_iff.2 h.quality)
    obtain ⟨n', hknown', hleast⟩ := h.le h'.mem (Candidate.hasQuality_iff.2 h'.quality)
    obtain rfl := Option.some.inj (hknown.symm.trans h.waits)
    obtain rfl := Option.some.inj (hknown'.symm.trans h'.waits)
    exact UInt64.not_lt.2 hleast hless
  obtain ⟨before, after, hsplit, hlonger, -⟩ := h.first
  obtain ⟨before', after', hsplit', hlonger', -⟩ := h'.first
  have hunseen := hapart h' h hsplit hlonger
  have hunseen' := hapart h h' hsplit' hlonger'
  rcases List.append_eq_append_iff.1 (hsplit.symm.trans hsplit') with
    ⟨rest, rfl, hsame⟩ | ⟨rest, rfl, hsame⟩
  · cases rest with
    | nil => exact (List.cons.inj hsame).1
    | cons c rest =>
      obtain ⟨rfl, -⟩ := List.cons.inj hsame
      simp at hunseen'
  · cases rest with
    | nil => exact (List.cons.inj hsame).1.symm
    | cons c rest =>
      obtain ⟨rfl, -⟩ := List.cons.inj hsame
      simp at hunseen

/-- In whatever order the candidates stand, the first of the least waits equally long. -/
theorem iters_eq_of_perm (h : FirstLeast cs challenge t s) (h' : FirstLeast cs' challenge t s')
    (hperm : cs.Perm cs') : s.iters = s'.iters := by
  have hle {cs cs' : List Candidate} {s s' : ScoredCandidate} (h : FirstLeast cs challenge t s)
      (h' : FirstLeast cs' challenge t s') (hperm : cs.Perm cs') : s.iters ≤ s'.iters := by
    obtain ⟨n, hknown, hleast⟩ :=
      h.le (hperm.mem_iff.2 h'.mem) (Candidate.hasQuality_iff.2 h'.quality)
    obtain rfl := Option.some.inj (hknown.symm.trans h'.waits)
    exact hleast
  exact UInt64.le_antisymm (hle h h' hperm) (hle h' h hperm.symm)

theorem unique (h : FirstLeast cs challenge t s) (h' : FirstLeast cs challenge t s') : s = s' := by
  have hcandidate := h.candidate_eq h'
  have hmixed : s.mixed = s'.mixed := by rw [h.mixed, h'.mixed, hcandidate]
  have hiters : s.iters = s'.iters := by
    have hknown := h.iters
    rw [hcandidate, hmixed, h'.iters] at hknown
    exact (Option.some.inj hknown).symm
  cases s
  cases s'
  simp_all

end FirstLeast

theorem exists_waits_of_scores {l : List Candidate} {scores : List ScoredCandidate}
    {P : UInt64 → Prop}
    (hscored : (l.filter Candidate.hasQuality).map (Candidate.score? · challenge t) =
      scores.map some)
    (heach : ∀ a ∈ scores, P a.iters) {c : Candidate} (hmem : c ∈ l) (hquality : c.hasQuality) :
    ∃ n, c.waits? challenge t = some n ∧ P n := by
  have hscore : c.score? challenge t ∈ scores.map some :=
    hscored ▸ List.mem_map_of_mem (List.mem_filter.2 ⟨hmem, hquality⟩)
  obtain ⟨a, ha, hknown⟩ := List.mem_map.1 hscore
  exact ⟨a.iters, (Candidate.score?_eq_some_iff.1 hknown.symm).2.2, heach a ha⟩

theorem firstLeast_of_least {scores : List ScoredCandidate}
    (hscored : (cs.filter Candidate.hasQuality).map (Candidate.score? · challenge t) =
      scores.map some)
    (hleast : ScoredCandidate.Least scores s) : FirstLeast cs challenge t s := by
  obtain ⟨front, back, rfl, hlonger, hleast⟩ := hleast
  rw [List.map_append, List.map_cons, List.map_eq_append_iff] at hscored
  obtain ⟨worthy, rest, hsplit, hfront_scores, hrest_scores⟩ := hscored
  obtain ⟨c, worthy', rfl, hscore, hback_scores⟩ := List.map_eq_cons_iff.1 hrest_scores
  obtain ⟨rfl, hmixed, hwaits⟩ := Candidate.score?_eq_some_iff.1 hscore
  -- The list is taken apart where its members with quality are.
  obtain ⟨l₁, l₂, rfl, rfl, hfiltered⟩ := List.filter_eq_append_iff.1 hsplit
  obtain ⟨l₃, l₄, rfl, hpassed, hquality, rfl⟩ := List.filter_eq_cons_iff.1 hfiltered
  refine ⟨Candidate.hasQuality_iff.1 hquality, hmixed, ?_, l₁ ++ l₃, l₄, by simp, ?_, ?_⟩
  · rw [hmixed]
    exact hwaits
  · intro c hmem hworthy
    rcases List.mem_append.1 hmem with hmem | hmem
    · exact exists_waits_of_scores hfront_scores hlonger hmem hworthy
    · exact absurd hworthy (hpassed c hmem)
  · intro c hmem hworthy
    exact exists_waits_of_scores hback_scores hleast hmem hworthy

theorem firstLeast_of_selectBest (h : selectBest cs challenge t = .ok s) :
    FirstLeast cs challenge t s := by
  unfold selectBest at h
  split at h
  · simp at h
  split at h
  · simp at h
  case h_2 scores hmapped =>
    split at h
    · simp at h
    case h_2 best hchosen =>
      cases h
      exact firstLeast_of_least (map_eq_of_mapM hmapped) (ScoredCandidate.least_of_best? hchosen)

theorem selectBest_of_null (h : ∀ c ∈ cs, ¬ c.hasQuality) :
    selectBest cs challenge t = .error (if cs = [] then .noCandidates else .noQuality) := by
  have hnothing : cs.filter Candidate.hasQuality = [] := by simpa using h
  unfold selectBest
  by_cases hempty : cs = []
  · simp [hempty]
  · simp [hempty, hnothing, ScoredCandidate.best?]

/-- As long as 64 bits hold the sizes of the plots, nothing but quality is needed for a choice. -/
theorem exists_selectBest (challenge : Bytes32) (t : Target) (hsmall : ∀ c ∈ cs, c.k ≤ 58)
    (hworthy : ∃ c ∈ cs, c.hasQuality) :
    ∃ s, selectBest cs challenge t = .ok s := by
  obtain ⟨c, hmem, hquality⟩ := hworthy
  obtain ⟨scores, hmapped⟩ := Option.isSome_iff_exists.1
    (isSome_mapM (f := (Candidate.score? · challenge t)) (l := cs.filter Candidate.hasQuality)
      fun c hc => Candidate.isSome_score? challenge t (hsmall c (List.mem_filter.1 hc).1))
  have hcandidates : cs ≠ [] := List.ne_nil_of_mem hmem
  cases scores with
  | nil =>
    have hnothing := List.map_eq_nil_iff.1 (map_eq_of_mapM hmapped)
    have hworthy : c ∈ cs.filter Candidate.hasQuality := List.mem_filter.2 ⟨hmem, hquality⟩
    simp [hnothing] at hworthy
  | cons a rest => simp [selectBest, hcandidates, hmapped, ScoredCandidate.best?]

theorem selectBest_ne_plotTooLarge (challenge : Bytes32) (t : Target)
    (hsmall : ∀ c ∈ cs, c.k ≤ 58) : selectBest cs challenge t ≠ .error .plotTooLarge := by
  by_cases hworthy : ∃ c ∈ cs, c.hasQuality
  · obtain ⟨s, hchosen⟩ := exists_selectBest challenge t hsmall hworthy
    simp [hchosen]
  · rw [selectBest_of_null fun c hmem hquality => hworthy ⟨c, hmem, hquality⟩]
    split <;> simp

theorem selectBest_invalidInput_iff (hsmall : ∀ c ∈ cs, c.k ≤ 58) :
    (∃ e, selectBest cs challenge t = .error e ∧ e.kind? = some .invalidInput) ↔
      ∀ c ∈ cs, ¬ c.hasQuality := by
  constructor
  · rintro ⟨e, hfailed, -⟩ c hmem hquality
    obtain ⟨s, hchosen⟩ := exists_selectBest challenge t hsmall ⟨c, hmem, hquality⟩
    simp [hchosen] at hfailed
  · intro hnull
    refine ⟨_, selectBest_of_null hnull, ?_⟩
    split <;> rfl

theorem selectBest_eq_ok_iff (hsmall : ∀ c ∈ cs, c.k ≤ 58) :
    selectBest cs challenge t = .ok s ↔ FirstLeast cs challenge t s := by
  refine ⟨firstLeast_of_selectBest, fun h => ?_⟩
  obtain ⟨s', hchosen⟩ :=
    exists_selectBest challenge t hsmall ⟨_, h.mem, Candidate.hasQuality_iff.2 h.quality⟩
  rw [hchosen, h.unique (firstLeast_of_selectBest hchosen)]

theorem selectBest_perm (hsmall : ∀ c ∈ cs, c.k ≤ 58) (hperm : cs.Perm cs') :
    (selectBest cs' challenge t).map (·.iters) = (selectBest cs challenge t).map (·.iters) := by
  by_cases hworthy : ∃ c ∈ cs, c.hasQuality
  · have hsmall' : ∀ c ∈ cs', c.k ≤ 58 := fun c hmem => hsmall c (hperm.mem_iff.2 hmem)
    obtain ⟨s, hchosen⟩ := exists_selectBest challenge t hsmall hworthy
    obtain ⟨s', hchosen'⟩ :=
      exists_selectBest challenge t hsmall' (by simpa only [← hperm.mem_iff] using hworthy)
    have hsame := (firstLeast_of_selectBest hchosen).iters_eq_of_perm
      (firstLeast_of_selectBest hchosen') hperm
    simp [hchosen, hchosen', Except.map, hsame]
  · have hnull : ∀ c ∈ cs, ¬ c.hasQuality := fun c hmem hquality => hworthy ⟨c, hmem, hquality⟩
    have hnull' : ∀ c ∈ cs', ¬ c.hasQuality := fun c hmem => hnull c (hperm.mem_iff.2 hmem)
    have hempty : cs' = [] ↔ cs = [] := by
      constructor
      · rintro rfl
        exact hperm.eq_nil
      · rintro rfl
        exact hperm.symm.eq_nil
    simp [selectBest_of_null hnull, selectBest_of_null hnull', hempty, Except.map]

/-- Only the candidates with quality are looked at, unless there are no candidates at all. -/
theorem selectBest_eq_of_filter
    (hsame : cs'.filter Candidate.hasQuality = cs.filter Candidate.hasQuality)
    (hfilled : cs ≠ []) (hfilled' : cs' ≠ []) :
    selectBest cs' challenge t = selectBest cs challenge t := by
  simp [selectBest, hfilled, hfilled', hsame]

theorem selectBest_kind_of_filter
    (hsame : cs'.filter Candidate.hasQuality = cs.filter Candidate.hasQuality) :
    (selectBest cs' challenge t).mapError SelectionError.kind? =
      (selectBest cs challenge t).mapError SelectionError.kind? := by
  by_cases hfilled : cs ≠ [] ∧ cs' ≠ []
  · rw [selectBest_eq_of_filter hsame hfilled.1 hfilled.2]
  -- One of the lists is empty, so that the other one has no quality to offer either.
  have hnothing : cs.filter Candidate.hasQuality = [] := by
    by_cases hempty : cs = []
    · simp [hempty]
    · have hempty' : cs' = [] := by simpa [hempty] using hfilled
      simp [← hsame, hempty']
  have hnull : ∀ c ∈ cs, ¬ c.hasQuality := by simpa using hnothing
  have hnull' : ∀ c ∈ cs', ¬ c.hasQuality := by simpa using hsame.trans hnothing
  rw [selectBest_of_null hnull, selectBest_of_null hnull']
  split <;> split <;> rfl

/-- With plots whose size 64 bits hold, the choice fails with an invalid input where no candidate
has a byte of quality, and in no other way. Otherwise the first of those with quality is chosen that
wait for the fewest iterations. How many these are does not depend on the order of the candidates,
and candidates without quality change nothing wherever they stand; all they can do is to fill a list
that would else be empty, which fails either way. -/
theorem selectBest_first_least (cs : List Candidate) (challenge : Bytes32) (t : Target)
    (hsmall : ∀ c ∈ cs, c.k ≤ 58) :
    ((∃ e, selectBest cs challenge t = .error e ∧ e.kind? = some .invalidInput) ↔
      ∀ c ∈ cs, ∀ b ∈ c.quality.toList, b = 0) ∧
    ((∃ c ∈ cs, ∃ b ∈ c.quality.toList, b ≠ 0) → ∃ s, selectBest cs challenge t = .ok s) ∧
    (∀ s, selectBest cs challenge t = .ok s ↔ FirstLeast cs challenge t s) ∧
    (∀ cs', cs.Perm cs' →
      (selectBest cs' challenge t).map (·.iters) = (selectBest cs challenge t).map (·.iters)) ∧
    (∀ cs', cs'.filter Candidate.hasQuality = cs.filter Candidate.hasQuality →
      (selectBest cs' challenge t).mapError SelectionError.kind? =
        (selectBest cs challenge t).mapError SelectionError.kind? ∧
      (cs ≠ [] → cs' ≠ [] → selectBest cs' challenge t = selectBest cs challenge t)) := by
  refine ⟨?_, ?_, fun s => selectBest_eq_ok_iff hsmall, fun cs' => selectBest_perm hsmall, ?_⟩
  · rw [selectBest_invalidInput_iff hsmall]
    simp [Candidate.hasQuality_iff]
  · rintro ⟨c, hmem, hquality⟩
    exact exists_selectBest challenge t hsmall ⟨c, hmem, Candidate.hasQuality_iff.2 hquality⟩
  · intro cs' hsame
    exact ⟨selectBest_kind_of_filter hsame, selectBest_eq_of_filter hsame⟩

namespace Sample

/-- Answers of which the first has no quality, and the other two wait equally long. -/
def tied : List Candidate :=
  [{ answer 32 with quality := ⟨[0, 0]⟩ }, { answer 33 with index := 1 },
    { answer 33 with index := 2 }]

end Sample

theorem selectBest_first_least_tie :
    (∀ c ∈ Sample.tied, c.k ≤ 58) ∧
    ∃ s, selectBest Sample.tied default Sample.mild = .ok s ∧ s.candidate.index = 1 ∧
      FirstLeast Sample.tied default Sample.mild s := by
  have hsmall : ∀ c ∈ Sample.tied, c.k ≤ 58 := by decide
  obtain ⟨-, hchooses, hleast, -⟩ := selectBest_first_least Sample.tied default Sample.mild hsmall
  obtain ⟨s, hchosen⟩ := hchooses (by decide)
  have hindex : (selectBest Sample.tied default Sample.mild).map (·.candidate.index) = .ok 1 := by
    decide +kernel
  rw [hchosen] at hindex
  exact ⟨hsmall, s, hchosen, Except.ok.inj hindex, (hleast s).1 hchosen⟩

end PlotMiner
