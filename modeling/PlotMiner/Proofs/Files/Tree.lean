import PlotMiner.Files.Tree
import PlotMiner.Proofs.Files.Path
import PlotMiner.Proofs.Lookup

/-!
# Where paths lead

A path that leads anywhere in a tree leads to what is at its place, so two directories at the same
place that can both be read have the same entries (`FileTree.entries_eq_of_place`). In the trees
that file systems have, the entries of a directory have names of their own.
-/

namespace PlotMiner.FileTree

/-- A tree that a file system can hold: what is in a directory has a name, and no two entries have
the same one. -/
inductive Proper : FileTree → Prop
  | file (size : UInt64) : Proper (.file size)
  | directory {entries : List (String × FileTree)} (hdistinct : (entries.map (·.1)).Nodup)
      (hnames : ∀ e ∈ entries, Path.IsEntryName e.1) (hinside : ∀ e ∈ entries, Proper e.2) :
      Proper (.directory entries)

theorem Proper.entry_unique {entries : List (String × FileTree)} (h : Proper (.directory entries))
    {name : String} {s t : FileTree} (hfirst : (name, s) ∈ entries)
    (hsecond : (name, t) ∈ entries) :
    s = t := by
  cases h with
  | directory hdistinct _ _ =>
    have hfound := lookup_of_mem hdistinct hfirst
    rw [lookup_of_mem hdistinct hsecond] at hfound
    exact (Option.some.inj hfound).symm

/-- What is at a place, in front of the directories that it is in, up to the root. -/
inductive Chain (root : FileTree) : List String → List FileTree → Prop
  | root : Chain root [] [root]
  | entry {place entries above name t} (h : Chain root place (.directory entries :: above))
      (hthere : entries.lookup name = some t) :
      Chain root (place ++ [name]) (t :: .directory entries :: above)

variable {root t : FileTree} {place : List String} {chain : List FileTree}

namespace Chain

theorem getLast (h : Chain root place chain) (hsome : chain ≠ []) : chain.getLast hsome = root := by
  induction h with
  | root => rfl
  | entry _ _ ih => rw [List.getLast_cons (List.cons_ne_nil _ _), ih]

/-- Everything on the way to a place is a tree that a file system can hold, if the root is. -/
theorem proper (h : Chain root place chain) (hproper : root.Proper) : ∀ t ∈ chain, t.Proper := by
  induction h with
  | root => simpa using hproper
  | entry _ hthere ih =>
    obtain ⟨hhere, -⟩ := List.forall_mem_cons.1 ih
    cases hhere with
    | directory _ _ hinside =>
      exact List.forall_mem_cons.2 ⟨hinside _ (mem_of_lookup hthere), ih⟩

theorem unique {chain' : List FileTree} (h : Chain root place chain)
    (h' : Chain root place chain') : chain = chain' := by
  induction h generalizing chain' with
  | root =>
    generalize hsame : ([] : List String) = place at h'
    cases h' with
    | root => rfl
    | entry => simp at hsame
  | @entry place entries above name t _ hthere ih =>
    generalize hsame : place ++ [name] = other at h'
    cases h' with
    | root => simp at hsame
    | entry h' hthere' =>
      obtain ⟨rfl, hnames⟩ := List.append_inj' hsame rfl
      cases hnames
      obtain ⟨hfirst, rfl⟩ := List.cons.inj (ih h')
      cases hfirst
      rw [hthere] at hthere'
      cases hthere'
      rfl

/-- One component more leads one step further. -/
theorem walk (h : Chain root place chain) {path : List Path.Component}
    (hfound : FileTree.walk chain path = some t) :
    ∃ above, Chain root (path.foldl Path.follow place) (t :: above) := by
  -- the chain is what the walk goes along: a name puts one more tree in front, two dots take the
  -- first one off, unless it is the root
  induction path generalizing place chain with
  | nil =>
    cases chain with
    | nil => cases h
    | cons here above =>
      cases hfound
      exact ⟨above, h⟩
  | cons c path ih =>
    cases chain with
    | nil => cases h
    | cons here above =>
      cases here with
      | file size => cases hfound
      | directory entries =>
        cases c with
        | root =>
          rw [FileTree.walk, h.getLast] at hfound
          exact ih .root hfound
        | here => exact ih h hfound
        | parent =>
          cases h with
          | root =>
            rw [FileTree.walk] at hfound
            exact ih .root hfound
          | @entry place _ above name _ h _ =>
            rw [FileTree.walk] at hfound
            rw [List.foldl_cons, Path.follow, List.dropLast_concat]
            exact ih h hfound
        | name s =>
          rw [FileTree.walk] at hfound
          split at hfound
          case h_1 t hthere => exact ih (.entry h hthere) hfound
          case h_2 => cases hfound

end Chain

section

variable {d e : Path} {entries entries' : List (String × FileTree)}

theorem exists_chain_of_list? (h : root.list? d = some entries) :
    d.text ≠ "" ∧ ∃ above, Chain root d.place (.directory entries :: above) := by
  unfold list? at h
  split at h
  case isTrue => cases h
  case isFalse hfilled =>
    refine ⟨mt String.isEmpty_iff.2 hfilled, ?_⟩
    split at h
    case h_1 es hfound =>
      cases h
      exact Chain.root.walk hfound
    case h_2 => cases h

theorem entries_eq_of_place (h : root.list? d = some entries) (h' : root.list? e = some entries')
    (hsame : d.place = e.place) : entries = entries' := by
  obtain ⟨-, above, hchain⟩ := exists_chain_of_list? h
  obtain ⟨-, above', hchain'⟩ := exists_chain_of_list? h'
  rw [hsame] at hchain
  cases hchain.unique hchain'
  rfl

theorem Proper.of_list? (hproper : root.Proper) (h : root.list? d = some entries) :
    Proper (.directory entries) := by
  obtain ⟨-, above, hchain⟩ := exists_chain_of_list? h
  exact hchain.proper hproper _ List.mem_cons_self

end

end PlotMiner.FileTree
