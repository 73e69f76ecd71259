import Mathlib.Data.List.Induction
import Mathlib.Data.List.Pairwise
import PlotMiner.Consensus.DurationFixes
import PlotMiner.Proofs.Lookup

/-!
# Which offset applies

Of a table of offsets only what is recorded at a height matters, not how the table is kept. An
offset applies above the height it is recorded at, up to and including the next height that has an
offset of its own (`at?_greatest_below`).
-/

namespace PlotMiner.DurationFixes

open Function (update update_self update_of_ne)

theorem lookup_insertEntry (height h : UInt32) (offset : Int64)
    (entries : List (UInt32 × Int64)) :
    (insertEntry height offset entries).lookup h =
      if h = height then some offset else entries.lookup h := by
  induction entries with
  | nil => exact lookup_cons_ite ..
  | cons head rest ih =>
    obtain ⟨first, old⟩ := head
    unfold insertEntry
    split
    case isTrue => exact lookup_cons_ite ..
    case isFalse =>
      split
      case isTrue hsame =>
        rw [lookup_cons_ite, lookup_cons_ite, hsame]
        split <;> rfl
      case isFalse hdifferent =>
        rw [lookup_cons_ite, lookup_cons_ite, ih]
        by_cases hhere : h = first
        · subst hhere
          simp [Ne.symm hdifferent]
        · simp [hhere]

theorem offset?_insert (fixes : DurationFixes) (height h : UInt32) (offset : Int64) :
    (fixes.insert height offset).offset? h = if h = height then some offset else fixes.offset? h :=
  lookup_insertEntry height h offset fixes.entries

theorem ofEntries_concat (pairs : List (UInt32 × Int64)) (height : UInt32) (offset : Int64) :
    ofEntries (pairs ++ [(height, offset)]) = (ofEntries pairs).insert height offset := by
  rw [ofEntries, List.foldl_append]
  rfl

theorem offset?_ofEntries (pairs : List (UInt32 × Int64)) (h : UInt32) :
    (ofEntries pairs).offset? h = pairs.reverse.lookup h := by
  induction pairs using List.reverseRecOn with
  | nil => rfl
  | append_singleton pairs last ih =>
    obtain ⟨height, offset⟩ := last
    rw [ofEntries_concat, offset?_insert, ih, List.reverse_append]
    exact (lookup_cons_ite ..).symm

theorem mem_entries_iff {fixes : DurationFixes} {h : UInt32} {offset : Int64} :
    (h, offset) ∈ fixes.entries ↔ fixes.offset? h = some offset := by
  have honce : (fixes.entries.map Prod.fst).Nodup := by
    rw [List.Nodup, List.pairwise_map]
    exact fixes.ordered.imp UInt32.ne_of_lt
  exact ⟨lookup_of_mem honce, mem_of_lookup⟩

/-- The offset that applies at a height, for what is recorded at each height: that of the greatest
height above zero and below it, or zero if there is none. -/
inductive Applies (recorded : UInt32 → Option Int64) (height : UInt32) : Int64 → Prop
  | greatest {h : UInt32} {offset : Int64} (hpositive : 0 < h) (hbelow : h < height)
      (hfound : recorded h = some offset)
      (hlast : ∀ k < height, recorded k ≠ none → k ≤ h) : Applies recorded height offset
  | absent (hnothing : ∀ h < height, 0 < h → recorded h = none) : Applies recorded height 0

section

variable {recorded recorded' : UInt32 → Option Int64} {height h : UInt32} {offset offset' : Int64}

theorem Applies.unique (ha : Applies recorded height offset)
    (hb : Applies recorded height offset') :
    offset = offset' := by
  cases ha with
  | greatest hpositive hbelow hfound hlast =>
    cases hb with
    | greatest hpositive' hbelow' hfound' hlast' =>
      obtain rfl := UInt32.le_antisymm (hlast' _ hbelow (by simp [hfound]))
        (hlast _ hbelow' (by simp [hfound']))
      exact Option.some.inj (hfound.symm.trans hfound')
    | absent hnothing => cases hfound.symm.trans (hnothing _ hbelow hpositive)
  | absent hnothing =>
    cases hb with
    | greatest hpositive hbelow hfound hlast =>
      cases hfound.symm.trans (hnothing _ hbelow hpositive)
    | absent => rfl

/-- What is recorded at height zero, or at the height in question and above, does not matter. -/
theorem Applies.congr (hsame : ∀ h < height, 0 < h → recorded' h = recorded h)
    (ha : Applies recorded height offset) : Applies recorded' height offset := by
  cases ha with
  | greatest hpositive hbelow hfound hlast =>
    refine .greatest hpositive hbelow ((hsame _ hbelow hpositive).trans hfound) ?_
    intro k hless hthere
    by_cases hzero : k = 0
    · subst hzero
      exact UInt32.le_of_lt hpositive
    · rw [hsame k hless (UInt32.pos_iff_ne_zero.2 hzero)] at hthere
      exact hlast k hless hthere
  | absent hnothing =>
    refine .absent ?_
    intro h hbelow hpositive
    exact (hsame h hbelow hpositive).trans (hnothing h hbelow hpositive)

theorem applies_update (hpositive : 0 < h) (hbelow : h < height)
    (hlast : ∀ k < height, recorded k ≠ none → k ≤ h) :
    Applies (update recorded h (some offset)) height offset := by
  refine .greatest hpositive hbelow (update_self ..) ?_
  intro k hless hthere
  by_cases hsame : k = h
  · exact hsame ▸ UInt32.le_refl k
  · exact hlast k hless (by rwa [update_of_ne hsame] at hthere)

theorem Applies.update_of_next {k : UInt32} (hnext : h < k) (hbelow : k < height)
    (hthere : recorded k ≠ none) (ha : Applies recorded height offset) :
    Applies (update recorded h (some offset')) height offset := by
  cases ha with
  | greatest hpositive hless hfound hlast =>
    have hbeyond := UInt32.lt_of_lt_of_le hnext (hlast k hbelow hthere)
    refine .greatest hpositive hless
      ((update_of_ne (UInt32.ne_of_lt hbeyond).symm ..).trans hfound) ?_
    intro k' hless' hthere'
    by_cases hsame : k' = h
    · exact hsame ▸ UInt32.le_of_lt hbeyond
    · exact hlast k' hless' (by rwa [update_of_ne hsame] at hthere')
  | absent hnothing =>
    have hpositive : 0 < k := UInt32.lt_of_le_of_lt UInt32.zero_le hnext
    exact absurd (hnothing k hbelow hpositive) hthere

theorem Applies.update_of_outside (houtside : h = 0 ∨ height ≤ h)
    (ha : Applies recorded height offset) :
    Applies (update recorded h (some offset')) height offset := by
  refine ha.congr ?_
  intro k hbelow hpositive
  refine update_of_ne ?_ ..
  intro hsame
  obtain hzero | habove := houtside
  · exact UInt32.pos_iff_ne_zero.1 hpositive (hsame.trans hzero)
  · exact UInt32.not_lt.2 habove (hsame ▸ hbelow)

end

theorem one_le_iff {h : UInt32} : 1 ≤ h ↔ 0 < h := by
  rw [UInt32.le_iff_toNat_le, UInt32.lt_iff_toNat_lt]
  exact Iff.rfl

theorem one_le_max (height : UInt32) : 1 ≤ max height 1 := by
  show 1 ≤ if height ≤ 1 then 1 else height
  split
  case isTrue => exact UInt32.le_refl 1
  case isFalse hmore => exact UInt32.le_of_lt (UInt32.not_le.1 hmore)

theorem lt_max_one_iff {h height : UInt32} (hpositive : 0 < h) : h < max height 1 ↔ h < height := by
  show (h < if height ≤ 1 then 1 else height) ↔ h < height
  split
  case isTrue hfew =>
    have hnone_below : ¬ h < 1 := UInt32.not_lt.2 (one_le_iff.2 hpositive)
    exact iff_of_false hnone_below fun hbelow => hnone_below (UInt32.lt_of_lt_of_le hbelow hfew)
  case isFalse => exact Iff.rfl

theorem le_of_getLast? {entries : List (UInt32 × Int64)} (hordered : entries.Pairwise (·.1 < ·.1))
    {e last : UInt32 × Int64} (hisLast : entries.getLast? = some last) (hmem : e ∈ entries) :
    e.1 ≤ last.1 := by
  obtain ⟨before, rfl⟩ := List.getLast?_eq_some_iff.1 hisLast
  obtain hearlier | hsame := List.mem_append.1 hmem
  · exact UInt32.le_of_lt ((List.pairwise_append.1 hordered).2.2 e hearlier last List.mem_cons_self)
  · rw [List.mem_singleton.1 hsame]
    exact UInt32.le_refl _

/-- The range that is looked up holds, in order, what is recorded above zero and below a height. -/
theorem exists_range? (fixes : DurationFixes) (height : UInt32) :
    ∃ range, fixes.range? 1 (max height 1) = some range ∧ range.Pairwise (·.1 < ·.1) ∧
      ∀ h offset, (h, offset) ∈ range ↔ fixes.offset? h = some offset ∧ 0 < h ∧ h < height := by
  refine ⟨_, if_pos (one_le_max height), fixes.ordered.filter _, ?_⟩
  intro h offset
  rw [List.mem_filter, mem_entries_iff, decide_eq_true_iff, one_le_iff]
  exact and_congr_right fun _ => and_congr_right fun hpositive => lt_max_one_iff hpositive

theorem exists_at? (fixes : DurationFixes) (height : UInt32) :
    ∃ offset, fixes.at? height = some offset ∧ Applies fixes.offset? height offset := by
  obtain ⟨range, hfound_range, hordered, hmem_range⟩ := exists_range? fixes height
  rw [at?, hfound_range, Option.map_some]
  refine ⟨_, rfl, ?_⟩
  cases hisLast : range.getLast? with
  | none =>
    obtain rfl := List.getLast?_eq_none_iff.1 hisLast
    refine .absent ?_
    intro h hbelow hpositive
    refine Option.eq_none_iff_forall_ne_some.2 ?_
    intro offset hfound
    cases (hmem_range h offset).2 ⟨hfound, hpositive, hbelow⟩
  | some last =>
    obtain ⟨h, offset⟩ := last
    obtain ⟨hfound, hpositive, hbelow⟩ := (hmem_range h offset).1 (List.mem_of_getLast? hisLast)
    refine .greatest hpositive hbelow hfound ?_
    intro k hless hthere
    obtain ⟨offset', hthere⟩ := Option.ne_none_iff_exists'.1 hthere
    by_cases hzero : k = 0
    · subst hzero
      exact UInt32.le_of_lt hpositive
    · have hlisted := (hmem_range k offset').2 ⟨hthere, UInt32.pos_iff_ne_zero.2 hzero, hless⟩
      exact le_of_getLast? hordered hisLast hlisted

theorem at?_eq_some_iff {fixes : DurationFixes} {height : UInt32} {offset : Int64} :
    fixes.at? height = some offset ↔ Applies fixes.offset? height offset := by
  obtain ⟨offset', hfound, happlies⟩ := exists_at? fixes height
  rw [hfound, Option.some.injEq]
  exact ⟨fun hsame => hsame ▸ happlies, happlies.unique⟩

theorem at?_congr {fixes fixes' : DurationFixes} {height : UInt32}
    (hkeeps : ∀ offset,
      Applies fixes.offset? height offset → Applies fixes'.offset? height offset) :
    fixes'.at? height = fixes.at? height := by
  obtain ⟨offset, hfound, happlies⟩ := exists_at? fixes height
  rw [hfound, at?_eq_some_iff]
  exact hkeeps offset happlies

section

variable {pairs : List (UInt32 × Int64)} {height h : UInt32} {offset : Int64}

theorem offset?_ofEntries_ne_none_iff :
    (ofEntries pairs).offset? h ≠ none ↔ ∃ p ∈ pairs, p.1 = h := by
  rw [offset?_ofEntries, Ne, lookup_eq_none_iff_not_mem]
  simp

/-- A height is above another one, up to and including the next height of the table. -/
structure Reaches (pairs : List (UInt32 × Int64)) (h height : UInt32) : Prop where
  positive : 0 < h
  below : h < height
  next : ∀ p ∈ pairs, h < p.1 → height ≤ p.1

theorem exists_between_of_not_reaches (hpositive : 0 < h) (hbelow : h < height)
    (hunreached : ¬ Reaches pairs h height) : ∃ p ∈ pairs, h < p.1 ∧ p.1 < height := by
  by_contra hnone
  refine hunreached ⟨hpositive, hbelow, ?_⟩
  intro p hmem hbeyond
  exact UInt32.not_lt.1 fun hless => hnone ⟨p, hmem, hbeyond, hless⟩

theorem offset?_ofEntries_concat :
    (ofEntries (pairs ++ [(h, offset)])).offset? =
      update (ofEntries pairs).offset? h (some offset) := by
  funext k
  rw [ofEntries_concat, offset?_insert, Function.update_apply]

theorem at?_concat_of_reaches (hreached : Reaches pairs h height) :
    (ofEntries (pairs ++ [(h, offset)])).at? height = some offset := by
  rw [at?_eq_some_iff, offset?_ofEntries_concat]
  refine applies_update hreached.positive hreached.below ?_
  intro k hless hthere
  obtain ⟨p, hmem, rfl⟩ := offset?_ofEntries_ne_none_iff.1 hthere
  refine UInt32.not_lt.1 ?_
  intro hbeyond
  exact UInt32.not_lt.2 (hreached.next p hmem hbeyond) hless

theorem at?_concat_of_not_reaches (hunreached : ¬ Reaches pairs h height) :
    (ofEntries (pairs ++ [(h, offset)])).at? height = (ofEntries pairs).at? height := by
  refine at?_congr ?_
  intro offset' happlies
  rw [offset?_ofEntries_concat]
  by_cases hinside : 0 < h ∧ h < height
  · obtain ⟨p, hmem, hbeyond, hless⟩ := exists_between_of_not_reaches hinside.1 hinside.2 hunreached
    exact happlies.update_of_next hbeyond hless (offset?_ofEntries_ne_none_iff.2 ⟨p, hmem, rfl⟩)
  · refine happlies.update_of_outside ?_
    rw [← UInt32.not_lt]
    by_cases hzero : h = 0
    · exact .inl hzero
    · exact .inr fun hbelow => hinside ⟨UInt32.pos_iff_ne_zero.2 hzero, hbelow⟩

end

/-- Of a list of entries, the last of each height counting, every look-up gives an offset: that of
the greatest height above zero and below the one in question, or zero if there is none. So what is
recorded at other heights does not matter, and one more entry changes the answers above its height,
up to and including the next height of the table, and no others. -/
theorem at?_greatest_below (pairs : List (UInt32 × Int64)) (height : UInt32) :
    (∃ offset, (ofEntries pairs).at? height = some offset) ∧
    (∀ h offset, 0 < h → h < height → pairs.reverse.lookup h = some offset →
      (∀ p ∈ pairs, p.1 < height → p.1 ≤ h) → (ofEntries pairs).at? height = some offset) ∧
    ((∀ p ∈ pairs, p.1 < height → p.1 = 0) → (ofEntries pairs).at? height = some 0) ∧
    (∀ pairs' : List (UInt32 × Int64),
      (∀ h < height, 0 < h → pairs'.reverse.lookup h = pairs.reverse.lookup h) →
        (ofEntries pairs').at? height = (ofEntries pairs).at? height) ∧
    ∀ h offset,
      (Reaches pairs h height →
        (ofEntries (pairs ++ [(h, offset)])).at? height = some offset) ∧
      (¬ Reaches pairs h height →
        (ofEntries (pairs ++ [(h, offset)])).at? height = (ofEntries pairs).at? height) := by
  refine ⟨?_, ?_, ?_, ?_, fun h offset => ⟨at?_concat_of_reaches, at?_concat_of_not_reaches⟩⟩
  · obtain ⟨offset, hfound, -⟩ := exists_at? (ofEntries pairs) height
    exact ⟨offset, hfound⟩
  · intro h offset hpositive hbelow hfound hlast
    rw [at?_eq_some_iff]
    refine .greatest hpositive hbelow ((offset?_ofEntries pairs h).trans hfound) ?_
    intro k hless hthere
    obtain ⟨p, hmem, rfl⟩ := offset?_ofEntries_ne_none_iff.1 hthere
    exact hlast p hmem hless
  · intro hnothing
    rw [at?_eq_some_iff]
    refine .absent ?_
    intro h hbelow hpositive
    refine Option.eq_none_iff_forall_ne_some.2 ?_
    intro offset hfound
    have hthere := Option.ne_none_iff_exists'.2 ⟨offset, hfound⟩
    obtain ⟨p, hmem, rfl⟩ := offset?_ofEntries_ne_none_iff.1 hthere
    exact UInt32.pos_iff_ne_zero.1 hpositive (hnothing p hmem hbelow)
  · intro pairs' hsame
    refine at?_congr ?_
    intro offset happlies
    refine happlies.congr ?_
    intro h hbelow hpositive
    rw [offset?_ofEntries, offset?_ofEntries]
    exact hsame h hbelow hpositive

/-- A table with an entry at height zero and two of one height. -/
theorem at?_greatest_below_replaced :
    let pairs : List (UInt32 × Int64) := [(0, 9), (100, 5), (200, -3), (100, 7)]
    (ofEntries pairs).at? 150 = some 7 ∧ (ofEntries pairs).at? 100 = some 0 ∧
      (ofEntries [(100, 7), (150, 1)]).at? 150 = (ofEntries pairs).at? 150 ∧
      (ofEntries (pairs ++ [(120, 4)])).at? 200 = some 4 ∧
      (ofEntries (pairs ++ [(120, 4)])).at? 201 = (ofEntries pairs).at? 201 := by
  intro pairs
  obtain ⟨-, hrecorded, -, hothers, -⟩ := at?_greatest_below pairs 150
  obtain ⟨-, -, hnothing, -, -⟩ := at?_greatest_below pairs 100
  obtain ⟨-, -, -, -, hadded⟩ := at?_greatest_below pairs 200
  obtain ⟨-, -, -, -, hunaffected⟩ := at?_greatest_below pairs 201
  have hreached : Reaches pairs 120 200 := ⟨by decide, by decide, by simp [pairs]⟩
  have hunreached : ¬ Reaches pairs 120 201 := fun hreached =>
    absurd (hreached.next (200, -3) (by simp [pairs]) (by decide)) (by decide)
  refine ⟨hrecorded 100 7 (by decide) (by decide) (by decide) (by simp [pairs]),
    hnothing (by simp [pairs]), ?_, (hadded 120 4).1 hreached, (hunaffected 120 4).2 hunreached⟩
  refine hothers _ ?_
  intro h hbelow hpositive
  have hlow : h ≠ 0 := UInt32.pos_iff_ne_zero.1 hpositive
  have hhigh : h ≠ 200 := UInt32.ne_of_lt (UInt32.lt_trans hbelow (by decide))
  by_cases hhere : h = 100
  · subst hhere
    rfl
  · simp [pairs, lookup_cons_ite, hlow, hhere, hhigh, UInt32.ne_of_lt hbelow]

end PlotMiner.DurationFixes
