import PlotMiner.Json.Value
import PlotMiner.Proofs.Lookup

/-!
# Fields in the order of their names

Inserting a field keeps fields ordered, and changes what is found under its own name only. Fields
that are ordered already are left as they are by sorting.
-/

namespace PlotMiner.Json

variable {α : Type} {fields : List (String × α)} {name other : String} {a : α}

def Ordered (fields : List (String × α)) : Prop := fields.Pairwise fun f g => f.1 < g.1

theorem Ordered.of_names {names : List String} (hincreasing : names.Pairwise (· < ·))
    (h : (fields.map (·.1)).Sublist names) : Ordered fields := by
  rw [Ordered, ← List.pairwise_map]
  exact hincreasing.sublist h

theorem mem_insertField {f : String × α} (h : f ∈ insertField name a fields) :
    f = (name, a) ∨ f ∈ fields := by
  induction fields with
  | nil => simpa [insertField] using h
  | cons g rest ih =>
    obtain ⟨k, b⟩ := g
    unfold insertField at h
    split at h
    · rcases List.mem_cons.1 h with h | h
      · exact .inl h
      · exact .inr (List.mem_cons_of_mem _ h)
    · split at h
      · rcases List.mem_cons.1 h with h | h
        · exact .inl h
        · exact .inr h
      · rcases List.mem_cons.1 h with h | h
        · exact .inr (h ▸ List.mem_cons_self)
        · rcases ih h with h | h
          · exact .inl h
          · exact .inr (List.mem_cons_of_mem _ h)

theorem Ordered.insertField (h : Ordered fields) (name : String) (a : α) :
    Ordered (insertField name a fields) := by
  induction fields with
  | nil => simp [Json.insertField, Ordered]
  | cons g rest ih =>
    obtain ⟨k, b⟩ := g
    obtain ⟨hfirst, htail⟩ := List.pairwise_cons.1 h
    unfold Json.insertField
    split
    case isTrue hsame =>
      subst hsame
      exact List.pairwise_cons.2 ⟨hfirst, htail⟩
    case isFalse hdifferent =>
      split
      case isTrue hless =>
        refine List.pairwise_cons.2 ⟨?_, h⟩
        intro f hf
        rcases List.mem_cons.1 hf with rfl | hf
        · exact hless
        · exact String.lt_trans hless (hfirst f hf)
      case isFalse hnotLess =>
        refine List.pairwise_cons.2 ⟨?_, ih htail⟩
        intro f hf
        rcases mem_insertField hf with rfl | hf
        · exact Std.lt_of_le_of_ne (String.not_lt.1 hnotLess) (Ne.symm hdifferent)
        · exact hfirst f hf

theorem Ordered.foldl_insertField {acc : List (String × α)} (h : Ordered acc) :
    Ordered (fields.foldl (fun acc f => Json.insertField f.1 f.2 acc) acc) := by
  induction fields generalizing acc with
  | nil => exact h
  | cons f rest ih => exact ih (h.insertField f.1 f.2)

theorem ordered_sortFields (fields : List (String × α)) : Ordered (sortFields fields) :=
  Ordered.foldl_insertField List.Pairwise.nil

theorem mem_foldl_insertField {f : String × α} {acc : List (String × α)}
    (h : f ∈ fields.foldl (fun acc f => insertField f.1 f.2 acc) acc) : f ∈ fields ∨ f ∈ acc := by
  induction fields generalizing acc with
  | nil => exact .inr h
  | cons g rest ih =>
    rcases ih h with h | h
    · exact .inl (List.mem_cons_of_mem _ h)
    · rcases mem_insertField h with rfl | h
      · exact .inl List.mem_cons_self
      · exact .inr h

theorem mem_of_mem_sortFields {f : String × α} (h : f ∈ sortFields fields) : f ∈ fields := by
  rcases mem_foldl_insertField h with h | h
  · exact h
  · cases h

theorem insertField_of_forall_lt (h : ∀ f ∈ fields, f.1 < name) :
    insertField name a fields = fields ++ [(name, a)] := by
  induction fields with
  | nil => rfl
  | cons g rest ih =>
    obtain ⟨k, b⟩ := g
    have hless : k < name := h (k, b) List.mem_cons_self
    have hdifferent : name ≠ k := (String.ne_of_lt hless).symm
    rw [insertField, if_neg hdifferent, if_neg (String.lt_asymm hless),
      ih fun f hf => h f (List.mem_cons_of_mem _ hf)]
    rfl

theorem foldl_insertField_of_ordered (acc : List (String × α)) (h : Ordered (acc ++ fields)) :
    fields.foldl (fun acc f => insertField f.1 f.2 acc) acc = acc ++ fields := by
  induction fields generalizing acc with
  | nil => simp
  | cons f rest ih =>
    have hlast : ∀ g ∈ acc, g.1 < f.1 := fun g hg =>
      (List.pairwise_append.1 h).2.2 g hg f List.mem_cons_self
    have hregroup : acc ++ f :: rest = (acc ++ [f]) ++ rest := by simp
    rw [hregroup] at h ⊢
    rw [List.foldl_cons, insertField_of_forall_lt hlast]
    exact ih (acc ++ [f]) h

theorem Ordered.sortFields_eq (h : Ordered fields) : sortFields fields = fields :=
  foldl_insertField_of_ordered [] h

theorem Ordered.insertField_of_mem (h : Ordered fields) (hmem : (name, a) ∈ fields) :
    Json.insertField name a fields = fields := by
  induction fields with
  | nil => simp at hmem
  | cons g rest ih =>
    obtain ⟨k, b⟩ := g
    obtain ⟨hfirst, htail⟩ := List.pairwise_cons.1 h
    rcases List.mem_cons.1 hmem with hsame | hmem
    · obtain ⟨rfl, rfl⟩ := Prod.mk.inj hsame
      rw [Json.insertField, if_pos rfl]
    · have hless : k < name := hfirst _ hmem
      have hdifferent : name ≠ k := (String.ne_of_lt hless).symm
      rw [Json.insertField, if_neg hdifferent, if_neg (String.lt_asymm hless), ih htail hmem]

def Distinct (fields : List (String × α)) : Prop := (fields.map (·.1)).Nodup

theorem Ordered.distinct (h : Ordered fields) : Distinct fields := by
  rw [Distinct, List.Nodup, List.pairwise_map]
  exact h.imp String.ne_of_lt

theorem Ordered.lookup_of_mem (h : Ordered fields) (hmem : (name, a) ∈ fields) :
    fields.lookup name = some a :=
  PlotMiner.lookup_of_mem h.distinct hmem

theorem lookup_filter_of_pos {p : String × α → Bool} (hkeeps : ∀ a, p (name, a) = true) :
    (fields.filter p).lookup name = fields.lookup name := by
  induction fields with
  | nil => rfl
  | cons g rest ih =>
    obtain ⟨k, b⟩ := g
    by_cases hsame : name = k
    · subst hsame
      rw [List.filter_cons_of_pos (hkeeps b), List.lookup_cons_self, List.lookup_cons_self]
    · have hmisses : (name == k) = false := beq_false_of_ne hsame
      rw [List.filter_cons]
      split <;> simp only [List.lookup_cons, hmisses, ih]

theorem lookup_insertField_self : (insertField name a fields).lookup name = some a := by
  induction fields with
  | nil => simp [insertField]
  | cons g rest ih =>
    obtain ⟨k, b⟩ := g
    unfold insertField
    split
    · simp
    · split
      · simp
      · rename_i hdifferent _
        rw [List.lookup_cons, beq_false_of_ne hdifferent, ih]

theorem lookup_insertField_of_ne (hdifferent : other ≠ name) :
    (insertField name a fields).lookup other = fields.lookup other := by
  have hmisses : (other == name) = false := beq_false_of_ne hdifferent
  induction fields with
  | nil => simp [insertField, hdifferent]
  | cons g rest ih =>
    obtain ⟨k, b⟩ := g
    unfold insertField
    split
    case isTrue hsame =>
      subst hsame
      simp [List.lookup_cons, hmisses]
    case isFalse =>
      split
      · simp [List.lookup_cons, hmisses]
      · simp only [List.lookup_cons, ih]

theorem Distinct.of_cons {f : String × α} (h : Distinct (f :: fields)) :
    fields.lookup f.1 = none ∧ Distinct fields := by
  obtain ⟨hfirst, htail⟩ := List.nodup_cons.1 h
  exact ⟨lookup_eq_none_iff_not_mem.2 hfirst, htail⟩

theorem Distinct.lookup_foldl_insertField (h : Distinct fields) (name : String)
    (acc : List (String × α)) :
    (fields.foldl (fun acc f => insertField f.1 f.2 acc) acc).lookup name =
      (fields.lookup name).or (acc.lookup name) := by
  induction fields generalizing acc with
  | nil => rfl
  | cons f rest ih =>
    obtain ⟨k, a⟩ := f
    obtain ⟨habsent, htail⟩ := h.of_cons
    rw [List.foldl_cons, ih htail]
    by_cases hsame : name = k
    · subst hsame
      simp [habsent, lookup_insertField_self]
    · have hmisses : (name == k) = false := beq_false_of_ne hsame
      simp only [lookup_insertField_of_ne hsame, List.lookup_cons, hmisses]

/-- Fields that differ in their names are all found when they have been ordered. -/
theorem Distinct.lookup_sortFields (h : Distinct fields) (name : String) :
    (sortFields fields).lookup name = fields.lookup name :=
  (h.lookup_foldl_insertField name []).trans (by simp)

theorem Distinct.filter (h : Distinct fields) (p : String × α → Bool) :
    Distinct (fields.filter p) :=
  h.sublist (List.filter_sublist.map _)

theorem Distinct.map_snd {β : Type} (h : Distinct fields) (g : α → β) :
    Distinct (fields.map fun (k, a) => (k, g a)) := by
  simpa [Distinct, Function.comp_def] using h

theorem lookup_map_snd {β : Type} (g : α → β) :
    (fields.map fun (k, a) => (k, g a)).lookup name = (fields.lookup name).map g := by
  induction fields with
  | nil => rfl
  | cons f rest ih =>
    rw [List.map_cons, List.lookup_cons, List.lookup_cons, ih]
    split <;> rfl

end PlotMiner.Json
