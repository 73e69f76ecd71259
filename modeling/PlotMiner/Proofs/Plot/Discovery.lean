import Mathlib.Data.List.Nodup
import PlotMiner.Proofs.Files.Tree
import PlotMiner.Proofs.Plot.Holdings

/-!
# How often plot files are listed

Of the configured directories those that can be read are searched, and what is found is sorted by
path. A file is listed once for every directory in the list that leads to where it is, and its size
and its plot count as often (`PlotFile.listed_per_directory`). The order of the directories makes no
difference, but naming a directory twice, or by two paths, does
(`PlotFile.repeated_directory_counts_twice`).
-/

namespace PlotMiner

namespace PlotFile

variable {t : FileTree} {d e : Path} {f g : PlotFile} {dirs : List Path}

def key (f : PlotFile) : List Path.Component × UInt64 := (f.path.components, f.size)

/-- Keys are ordered by the components of paths, and then by size. -/
def keyOrder : List Path.Component × UInt64 → List Path.Component × UInt64 → Ordering :=
  compareLex (compareOn Prod.fst) (compareOn Prod.snd)

instance : Std.TransCmp keyOrder :=
  inferInstanceAs (Std.TransCmp (compareLex _ _))

theorem eq_of_keyOrder {a b : List Path.Component × UInt64} (h : keyOrder a b = .eq) : a = b := by
  obtain ⟨hcomponents, hsize⟩ := Ordering.then_eq_eq.1 h
  exact Prod.ext (Std.compare_eq_iff_eq.1 hcomponents) (Std.compare_eq_iff_eq.1 hsize)

theorem le_eq (f g : PlotFile) : le f g = (keyOrder f.key g.key).isLE := by
  have hunfolded : keyOrder f.key g.key =
      (compare f.path.components g.path.components).then (compare f.size g.size) := rfl
  rw [hunfolded, le, Path.compare, Path.compareComponents_eq]
  cases compare f.path.components g.path.components with
  | lt => rfl
  | gt => rfl
  | eq =>
    rw [Bool.eq_iff_iff]
    exact decide_eq_true_iff.trans Std.isLE_compare.symm

theorem le_trans (f g h : PlotFile) (hf : le f g = true) (hg : le g h = true) : le f h = true := by
  rw [le_eq] at hf hg ⊢
  exact Std.TransCmp.isLE_trans hf hg

theorem le_total (f g : PlotFile) : (le f g || le g f) = true := by
  have hswap : keyOrder g.key f.key = (keyOrder f.key g.key).swap := Std.OrientedCmp.eq_swap
  rw [le_eq, le_eq, hswap]
  cases keyOrder f.key g.key <;> rfl

theorem pairwise_find (t : FileTree) (dirs : List Path) :
    (find t dirs).Pairwise fun f g => le f g = true :=
  List.pairwise_mergeSort le_trans le_total _

theorem find_eq_of_sorted {l : List PlotFile}
    (hlisted : dirs.flatMap (inDirectory t) = l) (hsorted : l.Pairwise fun f g => le f g = true) :
    find t dirs = l := by
  rw [find, hlisted, List.mergeSort_of_pairwise hsorted]

theorem path_le_of_le (h : le f g = true) : f.path.compare g.path ≠ .gt := by
  unfold le at h
  split at h
  case h_2 => cases h
  all_goals simp_all

theorem perm_find (t : FileTree) (dirs : List Path) :
    (find t dirs).Perm (dirs.flatMap (inDirectory t)) :=
  List.mergeSort_perm _ _

theorem map_key_find_of_perm {dirs' : List Path} (h : dirs.Perm dirs') :
    (find t dirs).map key = (find t dirs').map key := by
  have hsorted (dirs : List Path) :
      ((find t dirs).map key).Pairwise fun a b => (keyOrder a b).isLE = true := by
    rw [List.pairwise_map]
    exact (pairwise_find t dirs).imp fun h => by rwa [le_eq] at h
  have hsame : (find t dirs).Perm (find t dirs') :=
    ((perm_find t dirs).trans (h.flatMap_right _)).trans (perm_find t dirs').symm
  apply List.Perm.eq_of_pairwise _ (hsorted dirs) (hsorted dirs') (hsame.map key)
  intro a b _ _ hbelow habove
  exact eq_of_keyOrder (Std.OrientedCmp.isLE_antisymm hbelow habove)

/-- A directory that can be read holds a plot file: it has an entry that is a regular file, of whose
name the extension is that of plots. -/
inductive In (t : FileTree) (d : Path) : PlotFile → Prop
  | intro {entries stem name size} (hreadable : t.list? d = some entries)
      (hentry : (name, .file size) ∈ entries) (hplot : stem ≠ "" ∧ name = stem ++ ".plot") :
      In t d ⟨d.join ⟨name⟩, size⟩

theorem nameExtension?_eq_plot_iff {name : String} :
    Path.nameExtension? name = some plotExtension ↔ ∃ stem, stem ≠ "" ∧ name = stem ++ ".plot" := by
  have hwhole (stem : String) : stem ++ "." ++ plotExtension = stem ++ ".plot" := by
    rw [String.append_assoc]
    rfl
  have hclean : '.' ∉ plotExtension.toList := by decide
  simp only [Path.nameExtension?_eq_some_iff, hwhole, hclean, not_false_eq_true, true_and]

theorem inDirectory_of_unreadable (h : t.list? d = none) : inDirectory t d = [] := by
  rw [inDirectory, h]
  rfl

section

variable {entries : List (String × FileTree)} (hproper : t.Proper)
  (hreadable : t.list? d = some entries)

include hproper hreadable

theorem ofChild?_eq_some_iff {entry : String × FileTree} (hmem : entry ∈ entries) :
    ofChild? d entry = some f ↔ entry.2 = .file f.size ∧ f.path = d.join ⟨entry.1⟩ ∧
      ∃ stem, stem ≠ "" ∧ entry.1 = stem ++ ".plot" := by
  obtain ⟨hfilled, -⟩ := FileTree.exists_chain_of_list? hreadable
  obtain ⟨name, sub⟩ := entry
  obtain ⟨path, size⟩ := f
  cases hproper.of_list? hreadable with
  | directory _ hnames _ =>
    have hextension := Path.extension?_join hfilled (hnames _ hmem)
    cases sub with
    | directory => simp [ofChild?]
    | file size =>
      rw [← nameExtension?_eq_plot_iff, ← hextension]
      unfold ofChild?
      dsimp only
      split
      case isTrue hplot => simp [hplot, eq_comm, and_comm]
      case isFalse hother => simp [hother]

theorem place_join_of_mem {entry : String × FileTree} (hmem : entry ∈ entries) :
    (d.join ⟨entry.1⟩).place = d.place ++ [entry.1] := by
  obtain ⟨hfilled, -⟩ := FileTree.exists_chain_of_list? hreadable
  cases hproper.of_list? hreadable with
  | directory _ hnames _ => exact Path.place_join hfilled (hnames _ hmem)

/-- Of the entries of one directory, only the one of this name is listed at its place. -/
theorem countP_inDirectory {stem name : String} {size : UInt64}
    (hmem : (name, .file size) ∈ entries)
    (hplot : stem ≠ "" ∧ name = stem ++ ".plot") :
    (inDirectory t d).countP (·.path.place = d.place ++ [name]) = 1 := by
  have honce : (entries.map (·.1)).count name = 1 := by
    cases hproper.of_list? hreadable with
    | directory hdistinct _ _ =>
      exact List.count_eq_one_of_mem hdistinct (List.mem_map_of_mem hmem)
  -- the entries listed at this place are those of this name, of which there is one
  rw [inDirectory, hreadable, Option.getD_some, List.countP_filterMap, ← honce, List.count,
    List.countP_map]
  refine List.countP_congr fun entry hhere => ?_
  rw [Function.comp_apply, beq_iff_eq]
  constructor
  · intro hlisted
    cases hchild : ofChild? d entry with
    | none => simp [hchild] at hlisted
    | some f =>
      obtain ⟨-, hpath, -⟩ := (ofChild?_eq_some_iff hproper hreadable hhere).1 hchild
      simpa [hchild, hpath, place_join_of_mem hproper hreadable hhere] using hlisted
  · rintro rfl
    have hfile : entry.2 = .file size := (hproper.of_list? hreadable).entry_unique hhere hmem
    have hchild : ofChild? d entry = some ⟨d.join ⟨entry.1⟩, size⟩ :=
      (ofChild?_eq_some_iff hproper hreadable hhere).2 ⟨hfile, rfl, stem, hplot⟩
    simp [hchild, place_join_of_mem hproper hreadable hhere]

end

theorem mem_inDirectory_iff (hproper : t.Proper) : f ∈ inDirectory t d ↔ In t d f := by
  constructor
  · intro hmem
    cases hreadable : t.list? d with
    | none =>
      rw [inDirectory_of_unreadable hreadable] at hmem
      cases hmem
    | some entries =>
      rw [inDirectory, hreadable, Option.getD_some, List.mem_filterMap] at hmem
      obtain ⟨⟨name, sub⟩, hmem, hchild⟩ := hmem
      obtain ⟨path, size⟩ := f
      obtain ⟨hfile, hplace, stem, hplot⟩ := (ofChild?_eq_some_iff hproper hreadable hmem).1 hchild
      dsimp only at hfile hplace
      subst hfile hplace
      exact .intro hreadable hmem hplot
  · rintro ⟨hreadable, hmem, hplot⟩
    rw [inDirectory, hreadable, Option.getD_some, List.mem_filterMap]
    exact ⟨_, hmem, (ofChild?_eq_some_iff hproper hreadable hmem).2 ⟨rfl, rfl, _, hplot⟩⟩

theorem mem_find_iff (hproper : t.Proper) : f ∈ find t dirs ↔ ∃ d ∈ dirs, In t d f := by
  rw [(perm_find t dirs).mem_iff, List.mem_flatMap]
  simp only [mem_inDirectory_iff hproper]

theorem In.place_eq (hproper : t.Proper) (h : In t d f) :
    ∃ name, f.path.place = d.place ++ [name] := by
  obtain ⟨hreadable, hmem, -⟩ := h
  have hplace := place_join_of_mem hproper hreadable hmem
  exact ⟨_, hplace⟩

/-- A directory lists the file at a place once if it is the directory that the file is in and can be
read, and does not list it otherwise. -/
theorem countP_inDirectory_eq (hproper : t.Proper) (hheld : In t d f) (e : Path) :
    (inDirectory t e).countP (·.path.place = f.path.place) =
      if e.place = d.place ∧ (t.list? e).isSome then 1 else 0 := by
  cases hreadable : t.list? e with
  | none => simp [inDirectory_of_unreadable hreadable]
  | some entries =>
    obtain ⟨hthere, hmem, hplot⟩ := hheld
    rw [place_join_of_mem hproper hthere hmem]
    by_cases hsame : e.place = d.place
    · obtain rfl := FileTree.entries_eq_of_place hreadable hthere hsame
      rw [← hsame, countP_inDirectory hproper hreadable hmem hplot]
      exact (if_pos ⟨rfl, rfl⟩).symm
    · rw [if_neg fun hboth => hsame hboth.1, List.countP_eq_zero]
      intro g hlisted hplace
      obtain ⟨name, hhere⟩ := ((mem_inDirectory_iff hproper).1 hlisted).place_eq hproper
      have hplace := of_decide_eq_true hplace
      rw [hhere] at hplace
      exact hsame (List.append_inj' hplace rfl).1

theorem countP_find (hproper : t.Proper) (hheld : In t d f) (dirs : List Path) :
    (find t dirs).countP (·.path.place = f.path.place) =
      dirs.countP fun e => e.place = d.place ∧ (t.list? e).isSome := by
  rw [(perm_find t dirs).countP_eq]
  induction dirs with
  | nil => rfl
  | cons e dirs ih =>
    rw [List.flatMap_cons, List.countP_append, ih, countP_inDirectory_eq hproper hheld,
      List.countP_cons, Nat.add_comm]
    simp

end PlotFile

theorem totalSizeOf_append (l l' : List (Plot × UInt64)) :
    totalSizeOf (l ++ l') = totalSizeOf l + totalSizeOf l' := by
  induction l with
  | nil => simp [totalSizeOf]
  | cons p l ih => rw [List.cons_append, totalSizeOf, ih, totalSizeOf, Nat.add_assoc]

theorem totalSizeOf_perm {l l' : List (Plot × UInt64)} (h : l.Perm l') :
    totalSizeOf l = totalSizeOf l' := by
  induction h with
  | nil => rfl
  | cons p _ ih => rw [totalSizeOf, totalSizeOf, ih]
  | swap p q l =>
    simp only [totalSizeOf]
    omega
  | trans _ _ ih ih' => exact ih.trans ih'

namespace PlotCatalog

variable {t : FileTree} {openPlot : Path → Option Plot}

/-- The plots in a directory that can be opened, with the sizes of their files. -/
def openedIn (t : FileTree) (openPlot : Path → Option Plot) (d : Path) : List (Plot × UInt64) :=
  (PlotFile.inDirectory t d).filterMap fun f => (openPlot f.path).map (·, f.size)

/-- What is opened of the listed files is what is opened in one directory after the other. -/
theorem perm_opened (t : FileTree) (openPlot : Path → Option Plot) (dirs : List Path) :
    ((PlotFile.find t dirs).filterMap fun f => (openPlot f.path).map (·, f.size)).Perm
      (dirs.flatMap (openedIn t openPlot)) := by
  have hsame := (PlotFile.perm_find t dirs).filterMap fun f => (openPlot f.path).map (·, f.size)
  rwa [List.filterMap_flatMap] at hsame

theorem totalSizeOf_flatMap (f : Path → List (Plot × UInt64)) (dirs : List Path) :
    totalSizeOf (dirs.flatMap f) = (dirs.map fun d => totalSizeOf (f d)).sum := by
  induction dirs with
  | nil => rfl
  | cons d dirs ih => rw [List.flatMap_cons, totalSizeOf_append, ih, List.map_cons, List.sum_cons]

theorem holdings_perm {l l' : List (Plot × UInt64)} (h : l.Perm l') (allowed : List UInt8)
    (revoked : List Bytes48) : (holdings l allowed revoked).Perm (holdings l' allowed revoked) :=
  (h.map Prod.fst).filter _

theorem holdings_flatMap (f : Path → List (Plot × UInt64)) (dirs : List Path)
    (allowed : List UInt8) (revoked : List Bytes48) :
    holdings (dirs.flatMap f) allowed revoked =
      dirs.flatMap fun d => holdings (f d) allowed revoked := by
  simp only [holdings, List.map_flatMap, List.filter_flatMap]

/-- Sizes and plots of the directories add up, directory by directory, and there is a catalog as
long as 64 bits hold the total size. -/
theorem load?_adds_up (t : FileTree) (dirs : List Path) (allowed : List UInt8)
    (openPlot : Path → Option Plot) :
    let total := (dirs.map fun d => totalSizeOf (openedIn t openPlot d)).sum
    match load? t dirs allowed openPlot with
    | none => UInt64.size ≤ total
    | some c => c.totalSize.toNat = total ∧
        c.plots.Perm (dirs.flatMap fun d => holdings (openedIn t openPlot d) allowed []) := by
  intro total
  have hopened := perm_opened t openPlot dirs
  have hsize := (totalSizeOf_perm hopened).trans (totalSizeOf_flatMap _ dirs)
  cases hmade : load? t dirs allowed openPlot with
  | none =>
    refine Nat.le_of_not_lt fun hfits => ?_
    obtain ⟨c, hsome⟩ := exists_ofPlots? (hsize.trans_lt hfits) allowed
    rw [load?, hsome] at hmade
    cases hmade
  | some c =>
    obtain ⟨hfits, rfl⟩ := ofPlots?_eq_some_iff.1 hmade
    rw [hsize] at hfits ⊢
    refine ⟨UInt64.toNat_ofNat_of_lt' hfits, ?_⟩
    rw [← holdings_flatMap]
    exact holdings_perm hopened allowed []

end PlotCatalog

namespace PlotFile

variable {t : FileTree}

/-- The regular files directly inside the readable directories with the extension of plots are
listed, in the order of their paths. Each of them is listed once for every directory in the list
that leads to where it is, so it is listed once exactly if a single one does; the order of the
directories makes no difference. In a catalog, sizes and plots add up in the same way. -/
theorem listed_per_directory (hproper : t.Proper) (dirs : List Path) :
    (∀ f, f ∈ find t dirs ↔ ∃ d ∈ dirs, In t d f) ∧
    (find t dirs).Pairwise (fun f g => f.path.compare g.path ≠ .gt) ∧
    (∀ d f, In t d f → (find t dirs).countP (·.path.place = f.path.place) =
      dirs.countP fun e => e.place = d.place ∧ (t.list? e).isSome) ∧
    (∀ dirs', dirs.Perm dirs' → (find t dirs).map key = (find t dirs').map key) ∧
    ∀ allowed openPlot,
      let total := (dirs.map fun d => totalSizeOf (PlotCatalog.openedIn t openPlot d)).sum
      match PlotCatalog.load? t dirs allowed openPlot with
      | none => UInt64.size ≤ total
      | some c => c.totalSize.toNat = total ∧ c.plots.Perm
          (dirs.flatMap fun d => holdings (PlotCatalog.openedIn t openPlot d) allowed []) := by
  refine ⟨fun f => mem_find_iff hproper, ?sorted, ?often, fun _ => map_key_find_of_perm, ?catalog⟩
  case sorted => exact (pairwise_find t dirs).imp path_le_of_le
  case often => exact fun d f hheld => countP_find hproper hheld dirs
  case catalog => exact fun allowed openPlot => PlotCatalog.load?_adds_up t dirs allowed openPlot

/-- A directory with a plot file, a smaller directory in it with the same extension, and a file of
another kind. -/
def shelf : FileTree :=
  .directory [("d", .directory [("x.plot", .file 7), ("x.plot.tmp", .file 3),
    ("old.plot", .directory [])])]

theorem proper_shelf : shelf.Proper := by
  apply FileTree.Proper.directory
  · decide
  · decide
  · simp only [List.forall_mem_singleton]
    apply FileTree.Proper.directory
    · decide
    · decide
    · simp only [List.forall_mem_cons, List.not_mem_nil, false_imp_iff, implies_true, and_true]
      exact ⟨.file 7, .file 3, .directory List.nodup_nil nofun nofun⟩

/-- A directory that is named by two paths, next to one that there is not. -/
theorem listed_per_directory_by_two_paths :
    let x : PlotFile := ⟨⟨"d/x.plot"⟩, 7⟩
    shelf.Proper ∧ In shelf ⟨"d"⟩ x ∧
      (find shelf [⟨"/d/"⟩, ⟨"nowhere"⟩, ⟨"d/old.plot/.."⟩]).countP
        (·.path.place = x.path.place) = 2 := by
  intro x
  have hheld : In shelf ⟨"d"⟩ x := (mem_inDirectory_iff proper_shelf).1 (by decide +kernel)
  refine ⟨proper_shelf, hheld, ?_⟩
  obtain ⟨-, -, hoften, -⟩ := listed_per_directory proper_shelf
    [⟨"/d/"⟩, ⟨"nowhere"⟩, ⟨"d/old.plot/.."⟩]
  exact (hoften _ x hheld).trans (by decide +kernel)

/-- A directory that is named twice has its plot listed and held and its size counted twice. -/
theorem repeated_directory_counts_twice :
    let d : Path := ⟨"d"⟩
    let x : PlotFile := ⟨⟨"d/x.plot"⟩, 7⟩
    let openPlot := fun _ => some (Sample.farmed "d/x.plot" 1 32 1 (.ok []))
    let loaded := fun dirs => (PlotCatalog.load? shelf dirs [] openPlot).map fun c =>
      (c.plotCount, c.totalSize)
    shelf.Proper ∧ find shelf [d] = [x] ∧ find shelf [d, d] = [x, x] ∧
      loaded [d] = some (1, 7) ∧ loaded [d, d] = some (2, 14) := by
  intro d x openPlot loaded
  have honce : find shelf [d] = [x] := find_eq_of_sorted (by decide +kernel) (by decide +kernel)
  have htwice : find shelf [d, d] = [x, x] :=
    find_eq_of_sorted (by decide +kernel) (by decide +kernel)
  refine ⟨proper_shelf, honce, htwice, ?_, ?_⟩
  · simp only [loaded, PlotCatalog.load?, honce]
    decide +kernel
  · simp only [loaded, PlotCatalog.load?, htwice]
    decide +kernel

end PlotFile

end PlotMiner
