import PlotMiner.Files.Path
import PlotMiner.Proofs.Text.Strip

/-!
# Components of paths

Paths are ordered linearly, up to the ways to write the same components. The path of an entry of a
directory has one component more than that of the directory, and its extension is what follows the
last dot of the name. A path leads to a place in a tree of directories: names go down from one
directory to the next, and two dots go up.
-/

namespace PlotMiner.Path

namespace Component

def text : Component → String
  | name s => s
  | _ => ""

theorem compare_eq : Component.compare = compareLex (compareOn rank) (compareOn text) := by
  funext a b
  cases a <;> cases b <;> rfl

instance : Ord Component := ⟨Component.compare⟩

instance : Std.TransOrd Component := by
  have htrans : Std.TransCmp (compareLex (compareOn rank) (compareOn text)) := inferInstance
  rwa [← compare_eq] at htrans

instance : Std.LawfulEqOrd Component where
  eq_of_compare {a b} h := by
    have h : Component.compare a b = .eq := h
    rw [compare_eq] at h
    obtain ⟨hrank, htext⟩ := Ordering.then_eq_eq.1 h
    have hrank : a.rank = b.rank := Std.compare_eq_iff_eq.1 hrank
    have htext : a.text = b.text := Std.compare_eq_iff_eq.1 htext
    cases a <;> cases b <;> first | rfl | cases hrank
    case name.name => exact congrArg name htext

end Component

theorem compareComponents_eq (as bs : List Component) :
    compareComponents as bs = Ord.compare as bs := by
  induction as generalizing bs with
  | nil => cases bs <;> rfl
  | cons a as ih =>
    cases bs with
    | nil => rfl
    | cons b bs =>
      rw [compareComponents, ih]
      exact List.compareLex_cons_cons.symm

theorem pieces_ne_nil (cs : List Char) : pieces cs ≠ [] := by
  cases cs with
  | nil => exact List.cons_ne_nil _ _
  | cons c rest =>
    unfold pieces
    split <;> exact List.cons_ne_nil _ _

theorem pieces_slash (cs : List Char) : pieces ('/' :: cs) = [] :: pieces cs := by
  rw [pieces]

theorem pieces_cons {c : Char} (hother : c ≠ '/') {cs p : List Char} {ps : List (List Char)}
    (hrest : pieces cs = p :: ps) : pieces (c :: cs) = (c :: p) :: ps := by
  simp [pieces, hrest]

theorem pieces_append_slash (cs ds : List Char) :
    pieces (cs ++ '/' :: ds) = pieces cs ++ pieces ds := by
  induction cs with
  | nil => exact pieces_slash ds
  | cons c cs ih =>
    by_cases hslash : c = '/'
    · subst hslash
      rw [List.cons_append, pieces_slash, ih, pieces_slash, List.cons_append]
    · obtain ⟨p, ps, hfirst⟩ := List.exists_cons_of_ne_nil (pieces_ne_nil cs)
      rw [hfirst, List.cons_append] at ih
      rw [List.cons_append, pieces_cons hslash ih, pieces_cons hslash hfirst, List.cons_append]

theorem pieces_of_clean {cs : List Char} (hclean : '/' ∉ cs) : pieces cs = [cs] := by
  induction cs with
  | nil => rfl
  | cons c cs ih =>
    obtain ⟨hfirst, hrest⟩ := not_or.1 (mt List.mem_cons.2 hclean)
    exact pieces_cons (Ne.symm hfirst) (ih hrest)

/-- A text that can be the name of an entry of a directory. -/
structure IsEntryName (s : String) : Prop where
  nonempty : s ≠ ""
  not_here : s ≠ "."
  not_parent : s ≠ ".."
  clean : '/' ∉ s.toList

variable {s : String}

instance : Decidable (IsEntryName s) :=
  decidable_of_iff (s ≠ "" ∧ s ≠ "." ∧ s ≠ ".." ∧ '/' ∉ s.toList)
    ⟨fun ⟨hfilled, hhere, hparent, hclean⟩ => ⟨hfilled, hhere, hparent, hclean⟩,
      fun ⟨hfilled, hhere, hparent, hclean⟩ => ⟨hfilled, hhere, hparent, hclean⟩⟩

theorem IsEntryName.pieceComponent? (h : IsEntryName s) :
    pieceComponent? s.toList = some (.name s) := by
  have hother {t : String} (hdifferent : s ≠ t) : s.toList ≠ t.toList :=
    mt String.toList_inj.1 hdifferent
  have hnone : ¬ (s.toList = [] ∨ s.toList = ['.']) :=
    not_or.2 ⟨hother h.nonempty, hother h.not_here⟩
  have hparent : ¬ s.toList = ['.', '.'] := hother h.not_parent
  rw [Path.pieceComponent?, if_neg hnone, if_neg hparent, String.ofList_toList]

theorem IsEntryName.head? (h : IsEntryName s) : s.toList.head? ≠ some '/' := fun hfirst =>
  h.clean (List.mem_of_mem_head? hfirst)

/-- Paths that begin alike and differ in their last pieces only, of which the first adds nothing. -/
theorem components_eq_append {p q : Path} (common last : List (List Char))
    {last' : List (List Char)} (hfirst : q.text.toList.head? = p.text.toList.head?)
    (hsome : common ≠ []) (hbefore : pieces p.text.toList = common ++ last)
    (hnothing : last.filterMap pieceComponent? = [])
    (hafter : pieces q.text.toList = common ++ last') :
    q.components = p.components ++ last'.filterMap pieceComponent? := by
  have hhead (more : List (List Char)) : (common ++ more).head? = common.head? :=
    List.head?_append_of_ne_nil _ hsome
  have habsolute : q.isAbsolute = p.isAbsolute := by rw [isAbsolute, isAbsolute, hfirst]
  simp only [components, hbefore, hafter, habsolute, hhead, List.filterMap_append, hnothing,
    List.append_nil, List.append_assoc]

theorem components_join {d : Path} (hsome : d.text ≠ "") (h : IsEntryName s) :
    (d.join ⟨s⟩).components = d.components ++ [.name s] := by
  have hrelative : ¬ (Path.mk s).isAbsolute = true := by
    rw [isAbsolute, beq_iff_eq]
    exact h.head?
  have hfilled : ¬ d.text.isEmpty = true := mt String.isEmpty_iff.1 hsome
  have hnonempty : d.text.toList ≠ [] := mt String.toList_eq_nil_iff.1 hsome
  have hnamed : [s.toList].filterMap pieceComponent? = [.name s] := by
    rw [List.filterMap_cons, h.pieceComponent?]
    rfl
  rw [join, if_neg hrelative, ← hnamed]
  by_cases hslash : d.text.toList.getLast? = Option.some '/'
  · obtain ⟨cs, htext⟩ := List.getLast?_eq_some_iff.1 hslash
    have hwhole : (d.text ++ s).toList = cs ++ '/' :: s.toList := by
      rw [String.toList_append, htext, List.append_assoc, List.singleton_append]
    rw [if_pos (by simp [hslash])]
    apply components_eq_append (pieces cs) [[]]
    · simp only [String.toList_append]
      exact List.head?_append_of_ne_nil _ hnonempty
    · exact pieces_ne_nil cs
    · rw [htext, pieces_append_slash]
      rfl
    · rfl
    · rw [hwhole, pieces_append_slash, pieces_of_clean h.clean]
  · have hwhole : (d.text ++ "/" ++ s).toList = d.text.toList ++ '/' :: s.toList := by
      simp
    rw [if_neg (by simp [hslash, hfilled])]
    apply components_eq_append (pieces d.text.toList) []
    · simp only [hwhole]
      exact List.head?_append_of_ne_nil _ hnonempty
    · exact pieces_ne_nil _
    · rw [List.append_nil]
    · rfl
    · rw [hwhole, pieces_append_slash, pieces_of_clean h.clean]

theorem extension?_join {d : Path} (hsome : d.text ≠ "") (h : IsEntryName s) :
    (d.join ⟨s⟩).extension? = nameExtension? s := by
  rw [extension?, fileName?, components_join hsome h, List.getLast?_concat]
  rfl

/-- A name has an extension if there is a dot with something before it; the extension is what
follows the last dot. -/
theorem nameExtension?_eq_some_iff {e : String} :
    nameExtension? s = some e ↔ ∃ stem, stem ≠ "" ∧ '.' ∉ e.toList ∧ s = stem ++ "." ++ e := by
  have hunfolded : nameExtension? s =
      if s.toList.length ≤ (s.toList.rtakeWhile (· ≠ '.')).length + 1 then none
      else some (String.ofList (s.toList.rtakeWhile (· ≠ '.'))) := rfl
  rw [hunfolded]
  constructor
  · intro h
    split at h
    case isTrue => cases h
    case isFalse hlong =>
      cases h
      have hwhole : s.toList.rdropWhile (· ≠ '.') ++ s.toList.rtakeWhile (· ≠ '.') = s.toList :=
        List.rdropWhile_append_rtakeWhile
      have hclean : '.' ∉ s.toList.rtakeWhile (· ≠ '.') := by
        intro hmem
        simpa using List.mem_rtakeWhile_imp hmem
      generalize s.toList.rtakeWhile (· ≠ '.') = after at hwhole hclean hlong ⊢
      have hmore : 1 < (s.toList.rdropWhile (· ≠ '.')).length := by
        rw [← hwhole, List.length_append] at hlong
        omega
      have hdropped : s.toList.rdropWhile (· ≠ '.') ≠ [] := List.ne_nil_of_length_pos (by omega)
      have hdot : (s.toList.rdropWhile (· ≠ '.')).getLast hdropped = '.' := by
        simpa using List.rdropWhile_last_not _ _ hdropped
      generalize s.toList.rdropWhile (· ≠ '.') = before at hwhole hmore hdropped hdot
      refine ⟨String.ofList before.dropLast, ?_, by simpa using hclean, ?_⟩
      · intro hempty
        have hnone : before.dropLast = [] := by simpa using congrArg String.toList hempty
        rw [← List.length_eq_zero_iff, List.length_dropLast] at hnone
        omega
      · rw [← String.toList_inj, ← hwhole, ← List.dropLast_append_getLast hdropped, hdot]
        simp
  · rintro ⟨stem, hnonempty, hclean, rfl⟩
    have htext : (stem ++ "." ++ e).toList = stem.toList ++ '.' :: e.toList := by simp
    have hfilled : 0 < stem.toList.length :=
      List.length_pos_of_ne_nil (mt String.toList_eq_nil_iff.1 hnonempty)
    rw [htext, Text.rtakeWhile_append_cons _ hclean, if_neg ?long, String.ofList_toList]
    case long =>
      rw [List.length_append, List.length_cons]
      omega

def follow (place : List String) : Component → List String
  | .root => []
  | .here => place
  | .parent => place.dropLast
  | .name s => place ++ [s]

/-- The names that lead to a path from the root of a tree, which is its own parent. -/
def place (p : Path) : List String := p.components.foldl follow []

theorem place_join {d : Path} (hsome : d.text ≠ "") (h : IsEntryName s) :
    (d.join ⟨s⟩).place = d.place ++ [s] := by
  rw [place, components_join hsome h, List.foldl_append]
  rfl

end PlotMiner.Path
