import PlotMiner.Proofs.Json.ReadBack

/-!
# Values that one source shows

Two values are alike if one source shows both of them, so that a reader of that source cannot tell
them apart. They agree in their items one by one and in their fields name by name
(`Alike.items`, `Alike.fields`); where values of a type are read back, what they were written from
is the same (`Alike.eq`). Texts of alike values may coincide, texts of others never do
(`alike_of_written`).
-/

namespace PlotMiner.Json

/-- Some source of a type shows both values. -/
def Alike (S : Type) [Source S] (v w : Value) : Prop := ∃ s : S, Shows s v ∧ Shows s w

section

variable {α β γ : Type} {R : α → β → Prop} {R' : α → γ → Prop}

theorem forall₂_common {as : List α} {bs : List β} {cs : List γ} (hleft : List.Forall₂ R as bs)
    (hright : List.Forall₂ R' as cs) : List.Forall₂ (fun b c => ∃ a, R a b ∧ R' a c) bs cs := by
  induction hleft generalizing cs with
  | nil =>
    cases hright
    exact .nil
  | cons hfirst _ ih =>
    cases hright with
    | cons hfirst' hrest' => exact .cons ⟨_, hfirst, hfirst'⟩ (ih hrest')

theorem rel_common {o : Option α} {p : Option β} {q : Option γ} (hleft : Option.Rel R o p)
    (hright : Option.Rel R' o q) : Option.Rel (fun b c => ∃ a, R a b ∧ R' a c) p q := by
  cases hleft with
  | none =>
    cases hright
    exact .none
  | some hone =>
    cases hright with
    | some hother => exact .some ⟨_, hone, hother⟩

end

theorem Value.Legible.alike {room : Nat} {v : Value} (h : v.Legible room) : Alike Value v v :=
  ⟨v, h.shows, h.shows⟩

section

variable {S : Type} [Source S]

theorem Alike.eq [LawfulSource S] {α : Type} [Encode α] [Decode α] [Codec α] {a b : α}
    (h : Alike S (encode a) (encode b)) : a = b := by
  obtain ⟨s, hfirst, hsecond⟩ := h
  have hread : (decode s : Except DecodeError α) = .ok a := Codec.decode_eq hfirst
  exact Except.ok.inj (hread.symm.trans (Codec.decode_eq hsecond))

theorem Alike.items {vs ws : List Value} (h : Alike S (.array vs) (.array ws)) :
    List.Forall₂ (Alike S) vs ws := by
  obtain ⟨s, hfirst, hsecond⟩ := h
  cases hfirst with
  | @array _ subs _ hview hshown =>
    cases hsecond with
    | @array _ subs' _ hview' hshown' =>
      obtain rfl : subs = subs' := by simpa using hview.symm.trans hview'
      exact forall₂_common hshown hshown'

theorem Alike.fields {fs gs : List (String × Value)} (h : Alike S (.object fs) (.object gs))
    (name : String) : Option.Rel (Alike S) (fs.lookup name) (gs.lookup name) := by
  obtain ⟨s, hfirst, hsecond⟩ := h
  cases hfirst with
  | @object _ _ subs hview _ hshown =>
    cases hsecond with
    | @object _ _ subs' hview' _ hshown' =>
      have hmeant := hview.symm.trans hview'
      simp only [Except.ok.injEq, View.object.injEq] at hmeant
      obtain rfl : subs = subs' := meant_injective.list_map hmeant
      exact rel_common (hshown name) (hshown' name)

theorem Alike.field {fs gs : List (String × Value)} {v w : Value}
    (h : Alike S (.object fs) (.object gs)) (name : String) (hleft : fs.lookup name = some v)
    (hright : gs.lookup name = some w) : Alike S v w := by
  have hrelated := h.fields name
  rw [hleft, hright] at hrelated
  cases hrelated with
  | some halike => exact halike

end

/-- Values with a text in common are alike, for the document of the text shows both. -/
theorem alike_of_written {α : Type} [Encode α] {a b : α} {text : String}
    (hlegible : (encode a).Legible maxDepth) (hlegible' : (encode b).Legible maxDepth)
    (hwritten : WrittenAs a text) (hwritten' : WrittenAs b text) :
    Alike Excerpt (encode a) (encode b) := by
  obtain ⟨d, hparsed, hshown⟩ := hwritten.exists_document hlegible
  obtain ⟨d', hparsed', hshown'⟩ := hwritten'.exists_document hlegible'
  obtain rfl : d = d' := Option.some.inj (hparsed.symm.trans hparsed')
  exact ⟨_, hshown, hshown'⟩

end PlotMiner.Json
