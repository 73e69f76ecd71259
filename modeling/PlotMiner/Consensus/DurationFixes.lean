/-!
# Offsets to the target duration

From some heights on, a number of seconds is added to the time that a block is meant to take. The
table of these offsets is kept in the order of the heights, and an offset is looked up in the range
of heights that lie before a block.
-/

namespace PlotMiner

/-- Offsets to the target duration, in the order of the heights they are recorded at. -/
structure DurationFixes where
  entries : List (UInt32 × Int64)
  ordered : entries.Pairwise (·.1 < ·.1)

namespace DurationFixes

def empty : DurationFixes := ⟨[], .nil⟩

/-- Puts an entry in its place among ordered ones. It replaces an entry of the same height. -/
def insertEntry (height : UInt32) (offset : Int64) : List (UInt32 × Int64) → List (UInt32 × Int64)
  | [] => [(height, offset)]
  | (h, old) :: rest =>
    if height < h then (height, offset) :: (h, old) :: rest
    else if height = h then (height, offset) :: rest
    else (h, old) :: insertEntry height offset rest

variable {height : UInt32} {offset : Int64}

theorem fst_of_mem_insertEntry {entries : List (UInt32 × Int64)} {e : UInt32 × Int64}
    (h : e ∈ insertEntry height offset entries) : e = (height, offset) ∨ e ∈ entries := by
  induction entries with
  | nil => simpa [insertEntry] using h
  | cons head rest ih =>
    unfold insertEntry at h
    split at h
    · simpa using h
    · split at h
      · exact (List.mem_cons.1 h).imp_right (List.mem_cons_of_mem _)
      · obtain rfl | hlater := List.mem_cons.1 h
        · exact .inr List.mem_cons_self
        · exact (ih hlater).imp_right (List.mem_cons_of_mem _)

theorem ordered_insertEntry {entries : List (UInt32 × Int64)}
    (hordered : entries.Pairwise (·.1 < ·.1)) :
    (insertEntry height offset entries).Pairwise (·.1 < ·.1) := by
  induction entries with
  | nil => exact List.pairwise_singleton ..
  | cons head rest ih =>
    obtain ⟨hafter, hrest_ordered⟩ := List.pairwise_cons.1 hordered
    unfold insertEntry
    split
    case isTrue hbefore =>
      refine List.pairwise_cons.2 ⟨?_, hordered⟩
      intro e hmem
      obtain rfl | hlater := List.mem_cons.1 hmem
      · exact hbefore
      · exact UInt32.lt_trans hbefore (hafter e hlater)
    case isFalse hnotBefore =>
      split
      case isTrue hsame =>
        subst hsame
        exact List.pairwise_cons.2 ⟨hafter, hrest_ordered⟩
      case isFalse hdifferent =>
        refine List.pairwise_cons.2 ⟨?_, ih hrest_ordered⟩
        intro e hmem
        obtain rfl | hlater := fst_of_mem_insertEntry hmem
        · exact UInt32.lt_of_le_of_ne (UInt32.not_lt.1 hnotBefore) (Ne.symm hdifferent)
        · exact hafter e hlater

/-- Records an offset at a height, in place of one that is recorded there already. -/
def insert (fixes : DurationFixes) (height : UInt32) (offset : Int64) : DurationFixes :=
  ⟨insertEntry height offset fixes.entries, ordered_insertEntry fixes.ordered⟩

/-- The table of a list of entries. A later entry of a height replaces an earlier one. -/
def ofEntries (entries : List (UInt32 × Int64)) : DurationFixes :=
  entries.foldl (fun fixes e => fixes.insert e.1 e.2) empty

def offset? (fixes : DurationFixes) (height : UInt32) : Option Int64 :=
  fixes.entries.lookup height

/-- The entries of the heights from `first` on that lie before `past`; none if `first` itself lies
beyond `past`. -/
def range? (fixes : DurationFixes) (first past : UInt32) : Option (List (UInt32 × Int64)) :=
  if first ≤ past then some (fixes.entries.filter fun e => first ≤ e.1 ∧ e.1 < past) else none

/-- The offset that applies at a height: the one recorded at the greatest height strictly below it,
or zero. An entry at height zero never applies. None if what is looked up is no range. -/
def at? (fixes : DurationFixes) (height : UInt32) : Option Int64 :=
  (fixes.range? 1 (max height 1)).map fun range => range.getLast?.elim 0 (·.2)

end DurationFixes

end PlotMiner
