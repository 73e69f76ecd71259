import PlotMiner.Proofs.Json.Literal
import PlotMiner.Text.Elapsed

/-!
# Spans of time are read back

A number of seconds is split into units in one way only, each of them staying below the next larger
one. Of the units, written in words, the leading ones that are zero are left out, but never the
seconds (`Trimmed`). What is left can be read again (`read?`), so that spans which differ by a
second are never shown alike (`render_reads_back`).
-/

namespace PlotMiner.Text.Elapsed

open Json

/-- Each unit stays below the next larger one. -/
structure Proper (e : Elapsed) : Prop where
  hours : e.hours < 24
  minutes : e.minutes < 60
  seconds : e.seconds < 60

theorem proper_ofSeconds (n : Nat) : (ofSeconds n).Proper where
  hours := by
    simp only [ofSeconds]
    omega
  minutes := by
    simp only [ofSeconds]
    omega
  seconds := Nat.mod_lt n (by decide)

theorem total_ofSeconds (n : Nat) : (ofSeconds n).total = n := by
  simp only [ofSeconds, total]
  omega

theorem Proper.ofSeconds_total {e : Elapsed} (h : e.Proper) : ofSeconds e.total = e := by
  obtain ⟨days, hours, minutes, seconds⟩ := e
  obtain ⟨hbelow, hbelow', hbelow''⟩ := h
  simp only [ofSeconds, total, Elapsed.mk.injEq] at hbelow hbelow' hbelow'' ⊢
  omega

/-- There is one way to split a number of seconds into units. -/
theorem ofSeconds_eq_iff {n : Nat} {e : Elapsed} : ofSeconds n = e ↔ e.Proper ∧ e.total = n := by
  constructor
  · rintro rfl
    exact ⟨proper_ofSeconds n, total_ofSeconds n⟩
  · rintro ⟨hproper, rfl⟩
    exact hproper.ofSeconds_total

/-- The seconds in one unit with a mark. -/
def worth? : Char → Option Nat
  | 'd' => some 86400
  | 'h' => some 3600
  | 'm' => some 60
  | 's' => some 1
  | _ => none

def secondsOf? (u : Nat × Char) : Option Nat := (worth? u.2).map (u.1 * ·)

/-- The seconds in several units, all of their marks being known. -/
def secondsIn? (us : List (Nat × Char)) : Option Nat :=
  (us.mapM secondsOf?).map (List.foldr (· + ·) 0)

theorem secondsIn?_cons {u : Nat × Char} {n : Nat} (hone : secondsOf? u = some n)
    (us : List (Nat × Char)) : secondsIn? (u :: us) = (secondsIn? us).map (n + ·) := by
  cases hrest : us.mapM secondsOf? with
  | none => simp [secondsIn?, hone, hrest]
  | some ns => simp [secondsIn?, hone, hrest]

theorem units_ne_nil (e : Elapsed) : e.units ≠ [] := List.cons_ne_nil _ _

theorem secondsIn?_units (e : Elapsed) : secondsIn? e.units = some e.total := by
  simp [secondsIn?, secondsOf?, units, worth?, total, Nat.add_assoc]

/-- Units without leading ones that are zero; the last one stays in any case. -/
structure Trimmed (all us : List (Nat × Char)) : Prop where
  left_out : ∃ front, all = front ++ us ∧ ∀ u ∈ front, u.1 = 0
  first : ∃ u rest, us = u :: rest ∧ (u.1 ≠ 0 ∨ rest = [])

theorem trimmed_shown {all : List (Nat × Char)} (hsome : all ≠ []) : Trimmed all (shown all) := by
  fun_induction shown all with
  | case1 mark u rest ih =>
    obtain ⟨⟨front, hwhole, hzeros⟩, hfirst⟩ := ih (List.cons_ne_nil u rest)
    refine ⟨⟨(0, mark) :: front, ?_, List.forall_mem_cons.2 ⟨rfl, hzeros⟩⟩, hfirst⟩
    rw [List.cons_append, ← hwhole]
  | case2 n mark u rest hthere =>
    exact ⟨⟨[], rfl, nofun⟩, _, _, rfl, .inl hthere⟩
  | case3 us hone =>
    obtain ⟨u, rest, rfl⟩ := List.exists_cons_of_ne_nil hsome
    refine ⟨⟨[], rfl, nofun⟩, u, rest, rfl, .inr ?_⟩
    cases rest with
    | nil => rfl
    | cons v rest => exact absurd rfl (hone u.1 u.2 v rest)

theorem secondsIn?_shown {all : List (Nat × Char)} (hknown : ∀ u ∈ all, (worth? u.2).isSome) :
    secondsIn? (shown all) = secondsIn? all := by
  fun_induction shown all with
  | case1 mark u rest ih =>
    obtain ⟨hhere, hlater⟩ := List.forall_mem_cons.1 hknown
    obtain ⟨w, hworth⟩ := Option.isSome_iff_exists.1 hhere
    have hnothing : secondsOf? (0, mark) = some 0 := by simp [secondsOf?, hworth]
    rw [ih hlater, secondsIn?_cons hnothing]
    simp
  | case2 => rfl
  | case3 => rfl

def inWords (u : Nat × Char) : List Char := natDigits u.1 ++ [u.2]

def readUnit? (cs : List Char) : Option Nat := do
  let mark ← cs.getLast?
  if cs.dropLast.all Char.isDigit then secondsOf? (natOfDigits (cs.dropLast.map digitOf), mark)
  else none

/-- Reads units that are separated by spaces, and adds them up. -/
def read? (text : String) : Option Nat :=
  ((text.toList.splitOn ' ').mapM readUnit?).map (List.foldr (· + ·) 0)

theorem toList_render (e : Elapsed) :
    e.render.toList = [' '].intercalate ((shown e.units).map inWords) := by
  have hwords : String.toList ∘ (fun u : Nat × Char => s!"{u.1}{u.2}") = inWords := by
    funext u
    simp [inWords, natDigits, toString]
  rw [render, String.toList_intercalate, List.map_map]
  exact congrArg _ (congrArg (List.map · _) hwords)

theorem readUnit?_inWords (u : Nat × Char) : readUnit? (inWords u) = secondsOf? u := by
  have hdigits : (natDigits u.1).all Char.isDigit = true :=
    List.all_eq_true.2 fun _ => isDigit_of_mem_natDigits
  have hnumber : natOfDigits ((natDigits u.1).map digitOf) = u.1 := natOfDigits_digitsOf u.1
  simp [readUnit?, inWords, hdigits, hnumber]

theorem space_not_mem_inWords {u : Nat × Char} (hmark : u.2 ≠ ' ') : ' ' ∉ inWords u := by
  have hnoDigit : ' ' ∉ natDigits u.1 :=
    fun hmem => absurd (isDigit_of_mem_natDigits hmem) (by decide)
  simp [inWords, hnoDigit, hmark.symm]

theorem read?_of_words {text : String} {us : List (Nat × Char)} (hsome : us ≠ [])
    (hmarks : ∀ u ∈ us, u.2 ≠ ' ') (hwritten : text.toList = [' '].intercalate (us.map inWords)) :
    read? text = secondsIn? us := by
  have hclean : ∀ cs ∈ us.map inWords, ' ' ∉ cs := by
    intro cs hmem
    obtain ⟨u, hinside, rfl⟩ := List.mem_map.1 hmem
    exact space_not_mem_inWords (hmarks u hinside)
  have hpieces : text.toList.splitOn ' ' = us.map inWords := by
    rw [hwritten]
    exact List.splitOn_intercalate ' ' hclean (by simpa using hsome)
  have hunits : readUnit? ∘ inWords = secondsOf? := funext readUnit?_inWords
  rw [read?, hpieces, List.mapM_map, hunits, secondsIn?]

theorem read?_render (e : Elapsed) : read? e.render = some e.total := by
  have hknown : ∀ u ∈ e.units, (worth? u.2).isSome ∧ u.2 ≠ ' ' := by simp [units, worth?]
  obtain ⟨⟨front, hwhole, -⟩, u, rest, hshows, -⟩ := trimmed_shown e.units_ne_nil
  have hmarks : ∀ u ∈ shown e.units, u.2 ≠ ' ' := fun u hmem =>
    (hknown u (hwhole ▸ List.mem_append_right front hmem)).2
  rw [read?_of_words (by simp [hshows]) hmarks e.toList_render,
    secondsIn?_shown fun u hmem => (hknown u hmem).1, secondsIn?_units]

/-- A number of seconds is shown in days, hours, minutes and seconds: the one way to split it into
units that stay below the next larger ones, in that order and with their marks, without leading
units that are zero, but never without the seconds. The text is read as the same number of seconds
again, so that no other number is shown by it. -/
theorem render_reads_back (n : Nat) :
    (∀ e, ofSeconds n = e ↔ e.Proper ∧ e.total = n) ∧
      (∃ us, Trimmed (ofSeconds n).units us ∧
        (ofSeconds n).render.toList = [' '].intercalate (us.map inWords)) ∧
      read? (ofSeconds n).render = some n ∧
      ∀ m, (ofSeconds m).render = (ofSeconds n).render → m = n := by
  have hread (k : Nat) : read? (ofSeconds k).render = some k := by
    rw [read?_render, total_ofSeconds]
  refine ⟨fun e => ofSeconds_eq_iff, ?_, hread n, ?_⟩
  · exact ⟨_, trimmed_shown (units_ne_nil _), toList_render _⟩
  · intro m hsame
    have hboth : some m = some n := by rw [← hread m, hsame, hread n]
    exact Option.some.inj hboth

end PlotMiner.Text.Elapsed
