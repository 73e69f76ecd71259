import Mathlib.Data.Finset.Card
import Mathlib.Data.List.DropRight
import PlotMiner.Proofs.Timelord.Cache

/-!
# A cache and its log

A cache forgets: what it holds for a challenge was recorded since another challenge was last the one
to be retained. So the log of everything that was ever done with a cache says what it answers, and
of the log only the deeds that concern the challenge in question matter (`after_refines`).
-/

namespace PlotMiner.ProofCache

inductive Deed where
  | record (challenge : Bytes32) (detail : ProofDetail)
  | retainOnly (challenge : Bytes32)
  | bestAtLeast (challenge : Bytes32) (minIters : UInt64)
  | count (challenge : Bytes32)

/-- The cache after a deed. A question leaves it as it is. -/
def perform (cache : ProofCache) : Deed → ProofCache
  | .record challenge d => cache.record challenge d
  | .retainOnly challenge => cache.retainOnly challenge
  | .bestAtLeast _ _ | .count _ => cache

def after (log : List Deed) : ProofCache := log.foldl perform empty

namespace Deed

def recorded? (c : Bytes32) : Deed → Option ProofDetail
  | record challenge d => if challenge = c then some d else none
  | _ => none

def drops (c : Bytes32) : Deed → Bool
  | retainOnly challenge => challenge ≠ c
  | _ => false

/-- Whether something is recorded for a challenge, or its proofs are dropped. -/
def concerns (c : Bytes32) (x : Deed) : Bool := x.drops c || (x.recorded? c).isSome

end Deed

/-- What was recorded for a challenge since its proofs were last dropped, the earliest first. -/
def kept (c : Bytes32) (log : List Deed) : List ProofDetail :=
  (log.rtakeWhile fun x => !x.drops c).filterMap (·.recorded? c)

variable (c : Bytes32) (log : List Deed)

@[simp]
theorem kept_nil : kept c [] = [] := by simp [kept]

theorem kept_concat (x : Deed) :
    kept c (log ++ [x]) = if x.drops c then [] else kept c log ++ (x.recorded? c).toList := by
  rw [kept, List.rtakeWhile_concat]
  cases x.drops c with
  | true => rfl
  | false => cases hrecorded : x.recorded? c <;> simp [kept, hrecorded]

@[simp]
theorem after_concat (x : Deed) : after (log ++ [x]) = (after log).perform x := by
  simp [after, List.foldl_append]

theorem proofs_perform (cache : ProofCache) (x : Deed) :
    (cache.perform x).proofs c =
      if x.drops c then [] else cache.proofs c ++ (x.recorded? c).toList := by
  cases x with
  | record challenge d =>
    by_cases hsame : challenge = c
    · simp [perform, proofs_record, Deed.drops, Deed.recorded?, hsame]
    · simp [perform, proofs_record, Deed.drops, Deed.recorded?, hsame, Ne.symm hsame]
  | retainOnly challenge =>
    by_cases hsame : challenge = c
    · simp [perform, proofs_retainOnly, Deed.drops, Deed.recorded?, hsame]
    · simp [perform, proofs_retainOnly, Deed.drops, hsame, Ne.symm hsame]
  | bestAtLeast challenge minIters => simp [perform, Deed.drops, Deed.recorded?]
  | count challenge => simp [perform, Deed.drops, Deed.recorded?]

theorem proofs_after : (after log).proofs c = kept c log := by
  induction log using List.reverseRecOn with
  | nil => simp [after]
  | append_singleton log x ih => rw [after_concat, proofs_perform, ih, kept_concat]

/-- A deed that does not concern a challenge changes nothing for it. -/
theorem kept_filter : kept c (log.filter (·.concerns c)) = kept c log := by
  induction log using List.reverseRecOn with
  | nil => rfl
  | append_singleton log x ih =>
    rw [List.filter_append]
    cases hconcerns : x.concerns c with
    | true => rw [List.filter_singleton, hconcerns, cond_true, kept_concat, kept_concat, ih]
    | false =>
      obtain ⟨hstays, hnothing⟩ : x.drops c = false ∧ x.recorded? c = none := by
        simpa [Deed.concerns] using hconcerns
      rw [List.filter_singleton, hconcerns, cond_false, List.append_nil, ih, kept_concat, hstays,
        hnothing]
      simp

structure Tidy (entries : List (Bytes32 × List ProofDetail)) : Prop where
  once : (entries.map Prod.fst).Nodup
  filled : ∀ entry ∈ entries, entry.2 ≠ []

theorem mem_map_recordIn {challenge k : Bytes32} {d : ProofDetail}
    {entries : List (Bytes32 × List ProofDetail)} :
    k ∈ (recordIn challenge d entries).map Prod.fst ↔
      k = challenge ∨ k ∈ entries.map Prod.fst := by
  induction entries with
  | nil => simp [recordIn]
  | cons entry rest ih =>
    obtain ⟨first, ds⟩ := entry
    by_cases hhere : first = challenge
    · simp [recordIn, hhere]
    · simp only [recordIn, hhere, if_false, List.map_cons, List.mem_cons, ih]
      exact or_left_comm

namespace Tidy

variable {entries : List (Bytes32 × List ProofDetail)}

theorem recordIn (h : Tidy entries) (challenge : Bytes32) (d : ProofDetail) :
    Tidy (recordIn challenge d entries) := by
  induction entries with
  | nil => exact ⟨by simp [ProofCache.recordIn], by simp [ProofCache.recordIn]⟩
  | cons entry rest ih =>
    obtain ⟨first, ds⟩ := entry
    obtain ⟨hfresh, honce⟩ := List.nodup_cons.1 h.once
    have hfilled : ∀ entry ∈ rest, entry.2 ≠ [] :=
      fun entry hmem => h.filled entry (List.mem_cons_of_mem _ hmem)
    by_cases hhere : first = challenge
    · simp only [ProofCache.recordIn, hhere, if_true]
      constructor
      · exact List.nodup_cons.2 ⟨hhere ▸ hfresh, honce⟩
      · intro entry hmem
        rcases List.mem_cons.1 hmem with rfl | hlater
        · simp
        · exact hfilled entry hlater
    · simp only [ProofCache.recordIn, hhere, if_false]
      have htail := ih ⟨honce, hfilled⟩
      constructor
      · refine List.nodup_cons.2 ⟨?_, htail.once⟩
        intro hmem
        exact (mem_map_recordIn.1 hmem).elim hhere hfresh
      · intro entry hmem
        rcases List.mem_cons.1 hmem with rfl | hlater
        · exact h.filled _ List.mem_cons_self
        · exact htail.filled entry hlater

theorem filter (h : Tidy entries) (p : Bytes32 × List ProofDetail → Bool) :
    Tidy (entries.filter p) where
  once := h.once.sublist (List.filter_sublist.map _)
  filled entry hmem := h.filled entry (List.mem_filter.1 hmem).1

theorem mem_iff (h : Tidy entries) :
    c ∈ entries.map Prod.fst ↔ (entries.lookup c).getD [] ≠ [] := by
  induction entries with
  | nil => simp
  | cons entry rest ih =>
    obtain ⟨first, ds⟩ := entry
    have htail : Tidy rest :=
      ⟨(List.nodup_cons.1 h.once).2, fun entry hmem => h.filled entry (List.mem_cons_of_mem _ hmem)⟩
    rw [List.map_cons, List.mem_cons, lookup_cons_ite]
    by_cases hhere : c = first
    · simpa [hhere] using h.filled (first, ds) List.mem_cons_self
    · simpa [hhere] using ih htail

end Tidy

theorem tidy_after : Tidy (after log).entries := by
  induction log using List.reverseRecOn with
  | nil => exact ⟨List.nodup_nil, by simp [after, empty]⟩
  | append_singleton log x ih =>
    rw [after_concat]
    cases x with
    | record challenge d => exact ih.recordIn challenge d
    | retainOnly challenge => exact ih.filter _
    | bestAtLeast challenge minIters => exact ih
    | count challenge => exact ih

/-- The answers of a cache are those of its log: for a challenge it hands out the first of the kept
proofs that covers the iterations, and it counts the kept proofs and the challenges that have any.
What does not concern a challenge might as well not have been done. -/
theorem after_refines :
    (∀ c minIters,
      (after log).bestAtLeast c minIters = (kept c log).find? fun d => minIters ≤ d.iters) ∧
    (∀ c, (after log).count c = (kept c log).length) ∧
    (∃ challenges : Finset Bytes32, (∀ c, c ∈ challenges ↔ kept c log ≠ []) ∧
      (after log).challengeCount = challenges.card) ∧
    (∀ c, (∀ minIters, (after (log.filter (·.concerns c))).bestAtLeast c minIters =
        (after log).bestAtLeast c minIters) ∧
      (after (log.filter (·.concerns c))).count c = (after log).count c) := by
  refine ⟨?_, ?_, ?_, ?_⟩
  · intro c minIters
    rw [bestAtLeast, proofs_after]
  · intro c
    rw [count, proofs_after]
  · have htidy := tidy_after log
    refine ⟨((after log).entries.map Prod.fst).toFinset, ?_, ?_⟩
    · intro c
      rw [List.mem_toFinset, htidy.mem_iff, ← proofs_after, proofs]
    · rw [List.toFinset_card_of_nodup htidy.once, List.length_map, challengeCount]
  · intro c
    have hsame : (after (log.filter (·.concerns c))).proofs c = (after log).proofs c := by
      rw [proofs_after, proofs_after, kept_filter]
    constructor
    · intro minIters
      rw [bestAtLeast, bestAtLeast, hsame]
    · rw [count, count, hsame]

end PlotMiner.ProofCache
