import Mathlib.Tactic.ByContra
import PlotMiner.Config
import PlotMiner.Proofs.Plot.Holdings

/-!
# Which plots a configuration lets in

A configuration admits a size class that lies in the range of its network and, when it lists size
classes, is one of those. The catalog of a configuration holds admitted plots only, as long as one
of the listed size classes lies in the range (`PlotCatalog.held_admitted_iff`). Where none does, no
size class is left over, which a catalog takes for leave to hold every plot.
-/

namespace PlotMiner

theorem mem_kRange {low k : UInt8} : k ∈ kRange low ↔ low ≤ k ∧ k ≤ highestK := by
  have hhigh : highestK.toNat = 50 := rfl
  simp only [kRange, List.mem_map, List.mem_range, UInt8.le_iff_toNat_le, hhigh]
  constructor
  · rintro ⟨i, hbound, rfl⟩
    have hsum : (low + UInt8.ofNat i).toNat = low.toNat + i := by
      rw [UInt8.toNat_add, UInt8.toNat_ofNat_of_lt' (by simp only [UInt8.size]; omega)]
      omega
    omega
  · rintro ⟨habove, hbelow⟩
    refine ⟨k.toNat - low.toNat, by omega, ?_⟩
    rw [← UInt8.toNat_inj, UInt8.toNat_add,
      UInt8.toNat_ofNat_of_lt' (by simp only [UInt8.size]; omega)]
    omega

namespace MinerConfig

variable {c : MinerConfig} {k : UInt8}

/-- A size class is one that the network knows. -/
def InRange (c : MinerConfig) (k : UInt8) : Prop := c.lowestAllowedK ≤ k ∧ k ≤ highestK

/-- A size class is one of the network's and, if the configuration lists any, a listed one. -/
def Admits (c : MinerConfig) (k : UInt8) : Prop :=
  c.InRange k ∧ (c.allowedPlotK ≠ [] → k ∈ c.allowedPlotK)

def unrestricted (c : MinerConfig) : MinerConfig := { c with allowedPlotK := [] }

/-- The list of size classes leaves the miner something to mine with. -/
def Satisfiable (c : MinerConfig) : Prop := c.allowedPlotK = [] ∨ ∃ k ∈ c.allowedPlotK, c.InRange k

theorem mem_allowedKs : k ∈ c.allowedKs ↔ c.Admits k := by
  unfold allowedKs Admits InRange
  split
  case isTrue hunlisted =>
    rw [List.isEmpty_iff] at hunlisted
    simp [mem_kRange, hunlisted]
  case isFalse hlisted =>
    rw [List.isEmpty_iff] at hlisted
    rw [List.mem_filter, Bool.and_eq_true, decide_eq_true_iff, decide_eq_true_iff]
    exact ⟨fun h => ⟨h.2, fun _ => h.1⟩, fun h => ⟨h.2 hlisted, h.1⟩⟩

theorem admits_unrestricted : c.unrestricted.Admits k ↔ c.InRange k :=
  and_iff_left fun hlisted => absurd rfl hlisted

theorem not_inRange_zero (c : MinerConfig) : ¬ c.InRange 0 := by
  unfold InRange lowestAllowedK
  split <;> decide

theorem lowestAllowedK_le (c : MinerConfig) : c.lowestAllowedK ≤ highestK := by
  unfold lowestAllowedK
  split <;> decide

/-- The size classes run out only where none of the listed ones is known to the network. -/
theorem allowedKs_ne_nil : c.allowedKs ≠ [] ↔ c.Satisfiable := by
  constructor
  · intro hleft
    obtain ⟨k, hmem⟩ := List.exists_mem_of_ne_nil _ hleft
    obtain ⟨hrange, hlisted⟩ := mem_allowedKs.1 hmem
    by_cases hunlisted : c.allowedPlotK = []
    · exact .inl hunlisted
    · exact .inr ⟨k, hlisted hunlisted, hrange⟩
  · rintro (hunlisted | ⟨k, hlisted, hrange⟩)
    · have hrange : c.InRange highestK := ⟨c.lowestAllowedK_le, UInt8.le_refl _⟩
      exact List.ne_nil_of_mem (mem_allowedKs.2 ⟨hrange, fun h => absurd hunlisted h⟩)
    · exact List.ne_nil_of_mem (mem_allowedKs.2 ⟨hrange, fun _ => hlisted⟩)

theorem unrestricted_satisfiable (c : MinerConfig) : c.unrestricted.Satisfiable := .inl rfl

end MinerConfig

namespace PlotCatalog

variable {opened : List (Plot × UInt64)} {allowed : List UInt8} {cat : PlotCatalog}

theorem mem_plots_of_satisfiable {c : MinerConfig} (h : c.Satisfiable)
    (hmade : ofPlots? opened c.allowedKs = some cat) {p : Plot} :
    p ∈ cat.plots ↔ (∃ size, (p, size) ∈ opened) ∧ c.Admits p.k := by
  have hleft : c.allowedKs ≠ [] := MinerConfig.allowedKs_ne_nil.2 h
  rw [mem_plots_of hmade, or_iff_right hleft, MinerConfig.mem_allowedKs]

theorem mem_plots_of_not_satisfiable {c : MinerConfig} (h : ¬ c.Satisfiable)
    (hmade : ofPlots? opened c.allowedKs = some cat) {p : Plot} :
    p ∈ cat.plots ↔ ∃ size, (p, size) ∈ opened := by
  have hnothing : c.allowedKs = [] :=
    Decidable.by_contra fun hleft => h (MinerConfig.allowedKs_ne_nil.1 hleft)
  rw [mem_plots_of hmade, or_iff_left_of_imp (fun _ => hnothing), and_iff_left hnothing]

/-- Where nothing can be mined with, some catalog holds a plot that the network does not know. -/
theorem exists_held_of_not_satisfiable {c : MinerConfig} (h : ¬ c.Satisfiable) :
    ∃ opened cat, ofPlots? opened c.allowedKs = some cat ∧ ∃ p ∈ cat.plots, ¬ c.InRange p.k := by
  let p : Plot := .steady default default 0 default (.ok []) (.ok default)
  have hfits : totalSizeOf [(p, 0)] < UInt64.size := by decide
  obtain ⟨cat, hmade⟩ := Option.isSome_iff_exists.1 (isSome_ofPlots?.2 hfits)
  have hheld : p ∈ cat.plots := (mem_plots_of_not_satisfiable h hmade).2 ⟨0, by simp⟩
  exact ⟨_, cat, hmade, p, hheld, c.not_inRange_zero⟩

/-- The plots that a configuration lets in are admitted, and let in without its list of size classes
as well, exactly where the list leaves something to mine with. -/
theorem held_admitted_iff (c : MinerConfig) :
    ((∀ opened cat, ofPlots? opened c.allowedKs = some cat → ∀ p ∈ cat.plots, c.Admits p.k) ↔
      c.Satisfiable) ∧
    ((∀ opened cat wide, ofPlots? opened c.allowedKs = some cat →
        ofPlots? opened c.unrestricted.allowedKs = some wide → ∀ p ∈ cat.plots, p ∈ wide.plots) ↔
      c.Satisfiable) := by
  refine ⟨⟨?_, ?_⟩, ⟨?_, ?_⟩⟩
  · intro hadmitted
    by_contra h
    obtain ⟨opened, cat, hmade, p, hheld, hunknown⟩ := exists_held_of_not_satisfiable h
    exact hunknown (hadmitted opened cat hmade p hheld).1
  · intro h opened cat hmade p hheld
    exact ((mem_plots_of_satisfiable h hmade).1 hheld).2
  · intro hnarrowed
    by_contra h
    obtain ⟨opened, cat, hmade, p, hheld, hunknown⟩ := exists_held_of_not_satisfiable h
    have hfits : totalSizeOf opened < UInt64.size :=
      isSome_ofPlots?.1 (Option.isSome_iff_exists.2 ⟨cat, hmade⟩)
    obtain ⟨wide, hwidened⟩ := Option.isSome_iff_exists.1 (isSome_ofPlots?.2 hfits)
    have hamong := hnarrowed opened cat wide hmade hwidened p hheld
    have hadmitted := ((mem_plots_of_satisfiable c.unrestricted_satisfiable hwidened).1 hamong).2
    exact hunknown (MinerConfig.admits_unrestricted.1 hadmitted)
  · intro h opened cat wide hmade hwidened p hheld
    obtain ⟨hopened, hadmitted⟩ := (mem_plots_of_satisfiable h hmade).1 hheld
    exact (mem_plots_of_satisfiable c.unrestricted_satisfiable hwidened).2
      ⟨hopened, MinerConfig.admits_unrestricted.2 hadmitted.1⟩

/-- On the main network, a list with nothing but a size class of the test network lets in a plot of
a size class that no network knows. -/
theorem narrowed_to_nothing_holds_unknown :
    let c : MinerConfig := { (default : MinerConfig) with testnet := false, allowedPlotK := [25] }
    let p : Plot := .steady ⟨"/plots/a.plot"⟩ default 60 default (.ok [⟨[1]⟩]) (.ok default)
    ∃ cat wide, ofPlots? [(p, 100)] c.allowedKs = some cat ∧
      ofPlots? [(p, 100)] c.unrestricted.allowedKs = some wide ∧
      p ∈ cat.plots ∧ ¬ c.InRange p.k ∧ p.k ∉ c.allowedPlotK ∧ p ∉ wide.plots := by
  intro c p
  have hfits : totalSizeOf [(p, 100)] < UInt64.size := by decide
  obtain ⟨cat, hmade⟩ := Option.isSome_iff_exists.1 (isSome_ofPlots?.2 hfits)
  obtain ⟨wide, hwidened⟩ := Option.isSome_iff_exists.1 (isSome_ofPlots?.2 hfits)
  have hunknown : ¬ c.InRange p.k := by
    unfold MinerConfig.InRange
    decide
  have hunlisted : p.k ∉ c.allowedPlotK := by decide
  have hunsatisfiable : ¬ c.Satisfiable := by
    unfold MinerConfig.Satisfiable MinerConfig.InRange
    decide
  refine ⟨cat, wide, hmade, hwidened, ?_, hunknown, hunlisted, ?_⟩
  · exact (mem_plots_of_not_satisfiable hunsatisfiable hmade).2 ⟨100, by simp⟩
  · intro hheld
    have hadmitted := ((mem_plots_of_satisfiable c.unrestricted_satisfiable hwidened).1 hheld).2
    exact hunknown (MinerConfig.admits_unrestricted.1 hadmitted)

end PlotCatalog

end PlotMiner
