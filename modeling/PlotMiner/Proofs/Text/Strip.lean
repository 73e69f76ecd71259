import Mathlib.Data.List.DropRight
import PlotMiner.Text.Utf8

/-!
# Texts without what surrounds them

Dropping characters of one kind from the front of a text, and of another kind from its end, leaves
what stands between them; and every text is what is left of it with such characters around it. What
follows the last mark in a text is found from its end.
-/

namespace PlotMiner.Text

/-- A text without the characters `p` at its front and the characters `q` at its end. -/
def strip (p q : Char → Bool) (cs : List Char) : List Char := (cs.dropWhile p).rdropWhile q

/-- Neither is there a character `p` at the front of a text, nor a character `q` at its end. -/
structure Stripped (p q : Char → Bool) (cs : List Char) : Prop where
  front : ∀ c ∈ cs.head?, p c = false
  back : ∀ c ∈ cs.getLast?, q c = false

theorem trimChars_eq_strip (cs : List Char) : trimChars cs = strip isBlank isBlank cs := rfl

section

variable {p q : Char → Bool} {cs l r : List Char}

theorem Stripped.strip_eq (h : Stripped p q cs) : strip p q cs = cs := by
  have hfront : cs.dropWhile p = cs := by
    cases cs with
    | nil => rfl
    | cons c rest => exact List.dropWhile_cons_of_neg (by simp [h.front c rfl])
  rw [strip, hfront, List.rdropWhile_eq_self_iff]
  intro hsome
  rw [h.back _ (List.getLast?_eq_some_getLast hsome)]
  exact Bool.false_ne_true

theorem Stripped.of_forall (hfront : ∀ c ∈ cs, p c = false) (hback : ∀ c ∈ cs, q c = false) :
    Stripped p q cs where
  front c hfirst := hfront c (List.mem_of_mem_head? hfirst)
  back c hlast := hback c (List.mem_of_mem_getLast? hlast)

/-- What is dropped may be put back. -/
theorem strip_append (hleft : ∀ c ∈ l, p c = true) (hright : ∀ c ∈ r, q c = true) :
    strip p q (l ++ (cs ++ r)) = strip p q cs := by
  have hback : ∀ c ∈ r.reverse, q c = true := by simpa using hright
  unfold strip
  rw [List.dropWhile_append_of_pos hleft, List.dropWhile_append]
  split
  case isTrue hgone =>
    have hnothing : cs.dropWhile p = [] := by simpa using hgone
    rw [hnothing, List.rdropWhile_nil, List.rdropWhile_eq_nil_iff]
    exact fun c hmem => hright c ((List.dropWhile_sublist p).mem hmem)
  case isFalse =>
    rw [List.rdropWhile, List.reverse_append, List.dropWhile_append_of_pos hback, List.rdropWhile]

theorem exists_strip (p q : Char → Bool) (cs : List Char) :
    ∃ l r, cs = l ++ (strip p q cs ++ r) ∧ (∀ c ∈ l, p c = true) ∧ ∀ c ∈ r, q c = true := by
  refine ⟨cs.takeWhile p, (cs.dropWhile p).rtakeWhile q, ?_, fun c => List.mem_takeWhile_imp,
    fun c => List.mem_rtakeWhile_imp⟩
  rw [strip, List.rdropWhile_append_rtakeWhile, List.takeWhile_append_dropWhile]

theorem stripped_strip (p q : Char → Bool) (cs : List Char) : Stripped p q (strip p q cs) := by
  refine ⟨?_, ?_⟩
  · intro c hfirst
    obtain ⟨after, hwhole⟩ := List.rdropWhile_prefix q (l := cs.dropWhile p)
    have hhead : (cs.dropWhile p).head? = some c := by
      rw [← hwhole, List.head?_append]
      exact Option.or_eq_some_iff.2 (.inl hfirst)
    simpa [hhead] using List.head?_dropWhile_not p cs
  · intro c hlast
    obtain ⟨hsome, rfl⟩ := List.mem_getLast?_eq_getLast hlast
    exact Bool.eq_false_iff.2 (List.rdropWhile_last_not q _ hsome)

end

theorem rtakeWhile_append_cons {mark : Char} {after : List Char} (before : List Char)
    (hclean : mark ∉ after) : (before ++ mark :: after).rtakeWhile (· ≠ mark) = after := by
  have hothers : ∀ c ∈ after.reverse, decide (c ≠ mark) = true := by
    intro c hmem
    exact decide_eq_true fun hsame => hclean (hsame ▸ List.mem_reverse.1 hmem)
  rw [List.rtakeWhile, List.reverse_append, List.reverse_cons, List.append_assoc,
    List.takeWhile_append_of_pos hothers]
  simp

theorem isDigit_iff {c : Char} : '0' ≤ c ∧ c ≤ '9' ↔ c.isDigit = true := by
  simp [Char.isDigit, Char.le_def]

theorem isBlank_of_isDigit {c : Char} (hdigit : c.isDigit = true) : isBlank c = false := by
  obtain ⟨hlow, hhigh⟩ := isDigit_iff.2 hdigit
  have hlow : 48 ≤ c.toNat := hlow
  have hhigh : c.toNat ≤ 57 := hhigh
  simp only [isBlank, Bool.or_eq_false_iff, Bool.and_eq_false_iff, beq_eq_false_iff_ne,
    decide_eq_false_iff_not]
  omega

end PlotMiner.Text
