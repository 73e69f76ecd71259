import PlotMiner.Proofs.Lookup
import PlotMiner.Timelord.ProofCache

/-!
# What a cache holds

What a cache holds for a challenge after it was changed, in terms of what it held for the challenge
before. Recording touches one challenge only, and pruning keeps the proofs of one challenge as they
are.
-/

namespace PlotMiner.ProofCache

theorem lookup_recordIn (challenge c : Bytes32) (d : ProofDetail)
    (entries : List (Bytes32 × List ProofDetail)) :
    ((recordIn challenge d entries).lookup c).getD [] =
      if c = challenge then (entries.lookup c).getD [] ++ [d] else (entries.lookup c).getD [] := by
  induction entries with
  | nil => by_cases h : c = challenge <;> simp [recordIn, lookup_cons_ite, h]
  | cons entry rest ih =>
    obtain ⟨k, ds⟩ := entry
    by_cases hhere : k = challenge
    · subst hhere
      by_cases h : c = k <;> simp [recordIn, lookup_cons_ite, h]
    · by_cases h : c = k
      · subst h
        simp [recordIn, hhere]
      · simpa [recordIn, lookup_cons_ite, hhere, h] using ih

theorem lookup_filter (challenge c : Bytes32) (entries : List (Bytes32 × List ProofDetail)) :
    (entries.filter (·.1 = challenge)).lookup c =
      if c = challenge then entries.lookup c else none := by
  induction entries with
  | nil => simp
  | cons entry rest ih =>
    obtain ⟨k, ds⟩ := entry
    by_cases hhere : k = challenge
    · subst hhere
      by_cases h : c = k <;> simp [lookup_cons_ite, ih, h]
    · by_cases h : c = challenge
      · subst h
        simp [lookup_cons_ite, ih, hhere, Ne.symm hhere]
      · simp [ih, hhere, h]

variable (cache : ProofCache) (challenge c : Bytes32)

@[simp]
theorem proofs_empty : empty.proofs c = [] := rfl

theorem proofs_record (d : ProofDetail) :
    (cache.record challenge d).proofs c =
      if c = challenge then cache.proofs c ++ [d] else cache.proofs c :=
  lookup_recordIn challenge c d cache.entries

theorem proofs_retainOnly :
    (cache.retainOnly challenge).proofs c = if c = challenge then cache.proofs c else [] := by
  by_cases h : c = challenge <;> simp [proofs, retainOnly, lookup_filter, h]

variable {cache challenge c}

theorem mem_proofs_record {d x : ProofDetail} (h : x ∈ (cache.record challenge d).proofs c) :
    x ∈ cache.proofs c ∨ c = challenge ∧ x = d := by
  rw [proofs_record] at h
  split at h
  case isTrue hsame =>
    rcases List.mem_append.1 h with hold | hnew
    · exact .inl hold
    · exact .inr ⟨hsame, List.mem_singleton.1 hnew⟩
  case isFalse => exact .inl h

theorem mem_proofs_retainOnly {x : ProofDetail} (h : x ∈ (cache.retainOnly challenge).proofs c) :
    x ∈ cache.proofs c := by
  rw [proofs_retainOnly] at h
  split at h
  case isTrue => exact h
  case isFalse => simp at h

theorem of_bestAtLeast {minIters : UInt64} {d : ProofDetail}
    (h : cache.bestAtLeast challenge minIters = some d) :
    d ∈ cache.proofs challenge ∧ minIters ≤ d.iters :=
  ⟨List.mem_of_find?_eq_some h, by simpa using List.find?_some h⟩

end PlotMiner.ProofCache
