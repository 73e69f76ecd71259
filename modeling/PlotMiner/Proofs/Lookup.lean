/-!
# Look-ups in lists of pairs

A look-up finds the first pair of a key. Where no key is there twice, the pairs in the list and what
is found are the same.
-/

namespace PlotMiner

variable {α β : Type} [DecidableEq α] [BEq α] [LawfulBEq α] {k : α} {v : β} {pairs : List (α × β)}

theorem lookup_cons_ite (k' : α) (v' : β) (pairs : List (α × β)) :
    ((k', v') :: pairs).lookup k = if k = k' then some v' else pairs.lookup k := by
  by_cases hsame : k = k'
  · simp [hsame]
  · simp [List.lookup_cons, beq_eq_false_iff_ne.2 hsame, hsame]

omit [DecidableEq α] in
theorem mem_of_lookup (h : pairs.lookup k = some v) : (k, v) ∈ pairs := by
  obtain ⟨before, after, rfl, -⟩ := List.lookup_eq_some_iff.1 h
  exact List.mem_append_right _ List.mem_cons_self

omit [DecidableEq α] in
theorem lookup_of_mem (honce : (pairs.map Prod.fst).Nodup) (hmem : (k, v) ∈ pairs) :
    pairs.lookup k = some v := by
  obtain ⟨before, after, rfl⟩ := List.append_of_mem hmem
  refine List.lookup_eq_some_iff.2 ⟨before, after, rfl, ?_⟩
  intro p hearlier
  rw [List.map_append] at honce
  have hapart := (List.nodup_append.1 honce).2.2
  exact bne_iff_ne.2 (hapart _ (List.mem_map_of_mem hearlier) _ List.mem_cons_self).symm

omit [DecidableEq α] in
theorem lookup_eq_none_iff_not_mem : pairs.lookup k = none ↔ k ∉ pairs.map Prod.fst := by
  simp only [List.lookup_eq_none_iff, bne_iff_ne, List.mem_map, not_exists, not_and]
  exact forall₂_congr fun p _ => ne_comm

end PlotMiner
