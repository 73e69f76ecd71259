import Mathlib.Data.List.Basic
import PlotMiner.Plot.Catalog
import PlotMiner.Proofs.Plot.Filter

/-!
# What a catalog holds

Of the plots that were opened, a catalog holds the allowed ones whose farmer was not revoked, in the
order in which they were opened, whatever revocations there were and in whatever order. What it
offers for a challenge are the answers of those, plot by plot, and as long as no two plots have the
same path, a full proof is read from the plot that gave the answer (`holdings_after_revocations`).
The hash of the plot ids is that of the plots at the beginning: it describes the plots that are held
until the first of them goes, and no longer (`groupHash_of_first_plots`).
-/

namespace PlotMiner

namespace Plot

variable {p : Plot} {challenge : Bytes32} {bits : UInt8}

def candidate (p : Plot) (index : Nat) (quality : Blob) : Candidate :=
  ⟨p.path, p.id, index, p.k, quality, p.memo⟩

/-- What a plot answers to a challenge, if it takes part and can be read. -/
def answers? (p : Plot) (challenge : Bytes32) (bits : UInt8) : Option (List Blob) :=
  match p.qualities challenge with
  | .ok qualities => if passesFilter bits p.id challenge then some qualities else none
  | .error _ => none

theorem answers?_eq_some_iff {qualities : List Blob} :
    p.answers? challenge bits = some qualities ↔
      passesFilter bits p.id challenge = true ∧ p.qualities challenge = .ok qualities := by
  unfold answers?
  cases p.qualities challenge with
  | ok read => simp
  | error e => simp

theorem candidatesFrom_eq (p : Plot) (index : Nat) (qualities : List Blob) :
    p.candidatesFrom index qualities =
      qualities.mapIdx fun i quality => p.candidate (index + i) quality := by
  induction qualities generalizing index with
  | nil => rfl
  | cons quality rest ih =>
    have hlater (i : Nat) : index + 1 + i = index + (i + 1) := by omega
    simp only [candidatesFrom, ih, List.mapIdx_cons, hlater]
    rfl

theorem candidates_eq (p : Plot) (challenge : Bytes32) (bits : UInt8) :
    p.candidates challenge bits = ((p.answers? challenge bits).getD []).mapIdx p.candidate := by
  unfold candidates answers?
  cases p.qualities challenge with
  | error e => simp
  | ok qualities =>
    by_cases hpasses : passesFilter bits p.id challenge
    · simp [hpasses, candidatesFrom_eq]
    · simp [hpasses]

theorem exists_candidate_of_mem {x : Candidate} (h : x ∈ p.candidates challenge bits) :
    ∃ index quality, x = p.candidate index quality := by
  rw [candidates_eq, List.mem_mapIdx] at h
  obtain ⟨index, hinside, rfl⟩ := h
  exact ⟨index, _, rfl⟩

end Plot

theorem Path.same_self (a : Path) : a.same a = true := by simp [same]

/-- No two of the plots have the same path. -/
def DistinctPaths (plots : List Plot) : Prop := plots.Pairwise fun p q => ¬ p.path.same q.path

instance (plots : List Plot) : Decidable (DistinctPaths plots) :=
  inferInstanceAs (Decidable (List.Pairwise _ _))

theorem DistinctPaths.find?_eq {plots : List Plot} (h : DistinctPaths plots) {p : Plot}
    (hmem : p ∈ plots) : plots.find? (·.path.same p.path) = some p := by
  induction plots with
  | nil => simp at hmem
  | cons q rest ih =>
    obtain ⟨hapart, hdistinct⟩ := List.pairwise_cons.1 h
    rcases List.mem_cons.1 hmem with rfl | hlater
    · exact List.find?_cons_of_pos p.path.same_self
    · have hpassed : ¬ q.path.same p.path := hapart p hlater
      rw [List.find?_cons, Bool.eq_false_iff.2 hpassed]
      exact ih hdistinct hlater

theorem kAllowed_iff {allowed : List UInt8} {k : UInt8} :
    kAllowed allowed k ↔ allowed = [] ∨ k ∈ allowed := by
  simp [kAllowed, List.isEmpty_iff]

/-- Of the opened plots, those that are allowed and whose farmers are not among the revoked ones. -/
def holdings (opened : List (Plot × UInt64)) (allowed : List UInt8) (revoked : List Bytes48) :
    List Plot :=
  (opened.map (·.1)).filter fun p =>
    (allowed = [] ∨ p.k ∈ allowed) ∧ p.memo.farmerKey ∉ revoked

/-- The ids of plots one after the other, in the order of words. -/
def idText (plots : List Plot) : List UInt8 := plots.flatMap (·.id.toList.reverse)

namespace PlotCatalog

variable {opened : List (Plot × UInt64)} {allowed : List UInt8} {c cat : PlotCatalog}

theorem ofPlots?_eq_some_iff :
    ofPlots? opened allowed = some cat ↔ totalSizeOf opened < UInt64.size ∧
      cat = ⟨holdings opened allowed [], Sha256.hash (idText (holdings opened allowed [])),
        UInt64.ofNat (totalSizeOf opened)⟩ := by
  have hheld : (opened.map (·.1)).filter (kAllowed allowed ·.k) = holdings opened allowed [] := by
    refine List.filter_congr fun p _ => ?_
    rw [Bool.eq_iff_iff, kAllowed_iff]
    simp
  unfold ofPlots?
  dsimp only
  rw [hheld]
  split
  case isTrue hfits =>
    rw [Option.some.injEq, eq_comm]
    exact (and_iff_right hfits).symm
  case isFalse hbeyond => simp [hbeyond]

theorem isSome_ofPlots? : (ofPlots? opened allowed).isSome ↔ totalSizeOf opened < UInt64.size := by
  simp [Option.isSome_iff_exists, ofPlots?_eq_some_iff]

theorem exists_ofPlots? (hfits : totalSizeOf opened < UInt64.size) (allowed : List UInt8) :
    ∃ cat, ofPlots? opened allowed = some cat :=
  Option.isSome_iff_exists.1 (isSome_ofPlots?.2 hfits)

theorem mem_plots_of (hmade : ofPlots? opened allowed = some cat) {p : Plot} :
    p ∈ cat.plots ↔ (∃ size, (p, size) ∈ opened) ∧ (allowed = [] ∨ p.k ∈ allowed) := by
  obtain ⟨-, rfl⟩ := ofPlots?_eq_some_iff.1 hmade
  simp [holdings]

def revokeAll (c : PlotCatalog) (revoked : List Bytes48) : PlotCatalog := revoked.foldl revoke c

theorem plots_revokeAll (c : PlotCatalog) (revoked : List Bytes48) :
    (c.revokeAll revoked).plots = c.plots.filter (·.memo.farmerKey ∉ revoked) := by
  induction revoked generalizing c with
  | nil => simp [revokeAll]
  | cons key rest ih =>
    have hstep : c.revokeAll (key :: rest) = (c.revoke key).revokeAll rest := rfl
    rw [hstep, ih, revoke, List.filter_filter]
    refine List.filter_congr fun p _ => ?_
    simp [Bool.and_comm]

theorem plots_revokeAll_of (hmade : ofPlots? opened allowed = some cat) (revoked : List Bytes48) :
    (cat.revokeAll revoked).plots = holdings opened allowed revoked := by
  obtain ⟨-, rfl⟩ := ofPlots?_eq_some_iff.1 hmade
  rw [plots_revokeAll, holdings, holdings, List.filter_filter]
  refine List.filter_congr fun p _ => ?_
  simp [Bool.and_comm]

theorem groupHash_revokeAll (c : PlotCatalog) (revoked : List Bytes48) :
    (c.revokeAll revoked).groupHash = c.groupHash := by
  induction revoked generalizing c with
  | nil => rfl
  | cons key rest ih => exact ih (c.revoke key)

theorem revoke_revoke (c : PlotCatalog) (key : Bytes48) :
    (c.revoke key).revoke key = c.revoke key := by
  simp [revoke]

theorem revoke_comm (c : PlotCatalog) (key key' : Bytes48) :
    (c.revoke key).revoke key' = (c.revoke key').revoke key := by
  simp only [revoke, List.filter_filter, Bool.and_comm]

theorem revokedCount_eq (c : PlotCatalog) (key : Bytes48) :
    c.revokedCount key = (c.plots.filter (·.memo.farmerKey = key)).length ∧
      c.plotCount = (c.revoke key).plotCount + c.revokedCount key := by
  -- the filter and its complement share out the plots, so that the difference never falls short
  have hparts := List.length_eq_length_filter_add (l := c.plots) (·.memo.farmerKey = key)
  have hgone : (c.revoke key).plotCount =
      (c.plots.filter fun p => !decide (p.memo.farmerKey = key)).length := by
    simp [plotCount, revoke]
  unfold revokedCount
  rw [hgone, plotCount, hparts]
  omega

/-- The plots that take part in a round and can be read, with what they answer. -/
def answering (c : PlotCatalog) (challenge : Bytes32) (bits : UInt8) : List (Plot × List Blob) :=
  c.plots.filterMap fun p => (p.answers? challenge bits).map (p, ·)

theorem mem_answering_iff {challenge : Bytes32} {bits : UInt8} {p : Plot} {qualities : List Blob} :
    (p, qualities) ∈ c.answering challenge bits ↔ p ∈ c.plots ∧
      passesFilter bits p.id challenge = true ∧ p.qualities challenge = .ok qualities := by
  simp only [answering, List.mem_filterMap, Option.map_eq_some_iff, Prod.mk.injEq]
  constructor
  · rintro ⟨q, hmem, read, hanswered, rfl, rfl⟩
    exact ⟨hmem, Plot.answers?_eq_some_iff.1 hanswered⟩
  · rintro ⟨hmem, hanswered⟩
    exact ⟨p, hmem, qualities, Plot.answers?_eq_some_iff.2 hanswered, rfl, rfl⟩

theorem answering_sublist (c : PlotCatalog) (challenge : Bytes32) (bits : UInt8) :
    ((c.answering challenge bits).map (·.1)).Sublist c.plots := by
  unfold answering
  induction c.plots with
  | nil => exact .slnil
  | cons p rest ih =>
    rw [List.filterMap_cons]
    cases p.answers? challenge bits with
    | none => exact ih.cons p
    | some qualities => exact ih.cons_cons p

theorem candidates_eq (c : PlotCatalog) (challenge : Bytes32) (bits : UInt8) :
    c.candidates challenge bits =
      (c.answering challenge bits).flatMap fun a => a.2.mapIdx a.1.candidate := by
  unfold candidates answering
  induction c.plots with
  | nil => rfl
  | cons p rest ih =>
    rw [List.flatMap_cons, ih, List.filterMap_cons, Plot.candidates_eq]
    cases p.answers? challenge bits with
    | none => simp
    | some qualities => simp

theorem fullProof_of_mem (hdistinct : DistinctPaths c.plots) {p : Plot} (hmem : p ∈ c.plots)
    {x : Candidate} {challenge : Bytes32} {bits : UInt8}
    (hoffered : x ∈ p.candidates challenge bits)
    (challenge' : Bytes32) (index : Nat) :
    c.fullProof x.path challenge' index = p.fullProof challenge' index := by
  obtain ⟨_, _, rfl⟩ := Plot.exists_candidate_of_mem hoffered
  have hfound : c.find? p.path = some p := hdistinct.find?_eq hmem
  simp [fullProof, Plot.candidate, hfound]

theorem fullProof_of_not_held {path : Path} (hmissing : ∀ p ∈ c.plots, ¬ p.path.same path)
    (challenge : Bytes32) (index : Nat) :
    c.fullProof path challenge index =
      .error (.other .notFound s!"Plot is not loaded: {path.text}") := by
  have hnothing : c.find? path = none := List.find?_eq_none.2 hmissing
  rw [fullProof, hnothing]

/-- A catalog can be made as long as 64 bits hold the total size of the opened plots. After any
revocations it holds the allowed plots of the farmers that were not revoked, in the order in which
they were opened. Every revocation counts the plots that it drops; a second one of the same farmer
drops none, and the order of two does not matter. What is offered for a challenge are the answers of
the plots that take part and can be read, plot by plot and numbered from zero. If no two plots have
the same path, a full proof for an answer is read from the plot that gave it; for a path that
belongs to no plot there is none. -/
theorem holdings_after_revocations (opened : List (Plot × UInt64)) (allowed : List UInt8) :
    ((ofPlots? opened allowed).isSome ↔ totalSizeOf opened < UInt64.size) ∧
    ∀ cat, ofPlots? opened allowed = some cat → ∀ revoked,
      let now := cat.revokeAll revoked
      now.plots = holdings opened allowed revoked ∧
      (∀ key, now.revokedCount key = (now.plots.filter (·.memo.farmerKey = key)).length ∧
        now.plotCount = (now.revoke key).plotCount + now.revokedCount key) ∧
      (∀ key, (now.revoke key).revoke key = now.revoke key ∧
        (now.revoke key).revokedCount key = 0) ∧
      (∀ key key', (now.revoke key).revoke key' = (now.revoke key').revoke key) ∧
      (∀ challenge bits,
        now.candidates challenge bits =
          ((now.answering challenge bits).flatMap fun a => a.2.mapIdx a.1.candidate) ∧
        ((now.answering challenge bits).map (·.1)).Sublist now.plots ∧
        ∀ p qualities, (p, qualities) ∈ now.answering challenge bits ↔
          p ∈ now.plots ∧ passesFilter bits p.id challenge = true ∧
            p.qualities challenge = .ok qualities) ∧
      (DistinctPaths now.plots → ∀ p ∈ now.plots, ∀ challenge bits,
        ∀ x ∈ p.candidates challenge bits, ∀ challenge' index,
          now.fullProof x.path challenge' index = p.fullProof challenge' index) ∧
      ∀ path, (∀ p ∈ now.plots, ¬ p.path.same path) → ∀ challenge index,
        now.fullProof path challenge index =
          .error (.other .notFound s!"Plot is not loaded: {path.text}") := by
  refine ⟨isSome_ofPlots?, ?_⟩
  intro cat hmade revoked now
  refine ⟨plots_revokeAll_of hmade revoked, now.revokedCount_eq, ?_, now.revoke_comm, ?_, ?_, ?_⟩
  · intro key
    refine ⟨now.revoke_revoke key, ?_⟩
    rw [revokedCount, now.revoke_revoke key, Nat.sub_self]
  · intro challenge bits
    exact ⟨now.candidates_eq challenge bits, now.answering_sublist challenge bits,
      fun _ _ => mem_answering_iff⟩
  · intro hdistinct p hmem challenge bits x hoffered
    exact fullProof_of_mem hdistinct hmem hoffered
  · intro path hmissing
    exact fullProof_of_not_held hmissing

end PlotCatalog

namespace Sample

/-- A plot of a farmer, all of whose id's bytes are the same. -/
def farmed (name : String) (id k : UInt8) (farmer : Nat) (qualities : Except Failure (List Blob)) :
    Plot :=
  .steady ⟨name⟩ ⟨List.replicate 32 id, rfl⟩ k ⟨default, .ofNat 48 farmer, default⟩ qualities
    (.ok ⟨[k]⟩)

end Sample

namespace PlotCatalog

/-- Of four plots one is not allowed, one is revoked, and one of the two others cannot be read. -/
theorem holdings_after_revocations_mixed :
    let a := Sample.farmed "/plots/a.plot" 1 32 1 (.ok [⟨[7]⟩, ⟨[9]⟩])
    let b := Sample.farmed "/plots/b.plot" 2 25 1 (.ok [⟨[7]⟩])
    let c := Sample.farmed "/plots/c.plot" 3 33 2 (.error (.other .invalidData "bad table"))
    let d := Sample.farmed "/plots/d.plot" 4 32 3 (.ok [⟨[7]⟩])
    ∃ cat, ofPlots? [(a, 100), (b, 50), (c, 200), (d, 7)] [32, 33] = some cat ∧
      let now := cat.revokeAll [.ofNat 48 3]
      now.plots = [a, c] ∧ now.revokedCount (.ofNat 48 1) = 1 ∧
      DistinctPaths now.plots ∧ (∀ p ∈ now.plots, ¬ p.path.same d.path) ∧ ∀ challenge,
        now.candidates challenge 0 = [a.candidate 0 ⟨[7]⟩, a.candidate 1 ⟨[9]⟩] ∧
        now.fullProof a.path challenge 1 = .ok ⟨[32, 1]⟩ ∧
        now.fullProof d.path challenge 0 =
          .error (.other .notFound "Plot is not loaded: /plots/d.plot") := by
  intro a b c d
  obtain ⟨hmade_iff, hcontents⟩ :=
    holdings_after_revocations [(a, 100), (b, 50), (c, 200), (d, 7)] [32, 33]
  obtain ⟨cat, hmade⟩ := Option.isSome_iff_exists.1 (hmade_iff.2 (by decide))
  refine ⟨cat, hmade, ?_⟩
  intro now
  obtain ⟨hplots, hcounts, -, -, hoffers, hproofs, hmissing⟩ := hcontents cat hmade [.ofNat 48 3]
  have hheld : now.plots = [a, c] := hplots
  have hdistinct : DistinctPaths now.plots := hheld ▸ (by decide +kernel : DistinctPaths [a, c])
  have hgone : ∀ p ∈ now.plots, ¬ p.path.same d.path :=
    hheld ▸ (by decide +kernel : ∀ p ∈ [a, c], ¬ p.path.same d.path)
  have hcounted : now.revokedCount (.ofNat 48 1) = 1 := by
    rw [(hcounts _).1, hheld]
    rfl
  refine ⟨hheld, hcounted, hdistinct, hgone, fun challenge => ?_⟩
  have hread : a.answers? challenge 0 = some [⟨[7]⟩, ⟨[9]⟩] :=
    Plot.answers?_eq_some_iff.2 ⟨passesFilter_zero _ _, rfl⟩
  have hunread : c.answers? challenge 0 = none := rfl
  refine ⟨?_, ?_, hmissing d.path hgone challenge 0⟩
  · rw [(hoffers challenge 0).1, answering, hheld]
    simp only [List.filterMap_cons, List.filterMap_nil, hread, hunread, Option.map_some,
      Option.map_none]
    rfl
  · have hoffered : a.candidate 1 ⟨[9]⟩ ∈ a.candidates challenge 0 := by
      rw [Plot.candidates_eq, hread]
      exact List.mem_cons_of_mem _ List.mem_cons_self
    exact hproofs hdistinct a (hheld ▸ List.mem_cons_self) challenge 0 _ hoffered challenge 1

theorem length_idText (plots : List Plot) : (idText plots).length = 32 * plots.length := by
  induction plots with
  | nil => rfl
  | cons p rest ih =>
    have hstep : idText (p :: rest) = p.id.toList.reverse ++ idText rest := rfl
    rw [hstep, List.length_append, ih, List.length_reverse, p.id.length_eq, List.length_cons]
    omega

/-- The ids of some of the plots are the ids of all only if none is left out. -/
theorem idText_filter_eq_iff {plots : List Plot} {keep : Plot → Bool} :
    idText (plots.filter keep) = idText plots ↔ ∀ p ∈ plots, keep p := by
  constructor
  · intro hsame
    have hlengths := congrArg List.length hsame
    rw [length_idText, length_idText] at hlengths
    exact List.length_filter_eq_length_iff.1 (by omega)
  · intro hall
    rw [List.filter_eq_self.2 hall]

/-- The hash of the ids is that of the plots with which a catalog began, after any revocations. The
ids that are hashed are those of the plots that are held exactly as long as none of the first plots
has been revoked, and so until then the hash is theirs. -/
theorem groupHash_of_first_plots (opened : List (Plot × UInt64)) (allowed : List UInt8) :
    ∀ cat, ofPlots? opened allowed = some cat → ∀ revoked,
      let first := holdings opened allowed []
      let now := cat.revokeAll revoked
      now.groupHash = Sha256.hash (idText first) ∧
      (idText now.plots = idText first ↔ ∀ p ∈ first, p.memo.farmerKey ∉ revoked) ∧
      ((∀ p ∈ first, p.memo.farmerKey ∉ revoked) →
        now.groupHash = Sha256.hash (idText now.plots)) := by
  intro cat hmade revoked first now
  obtain ⟨-, rfl⟩ := ofPlots?_eq_some_iff.1 hmade
  have hhashed : now.groupHash = Sha256.hash (idText first) := groupHash_revokeAll _ revoked
  have hsame : idText now.plots = idText first ↔ ∀ p ∈ first, p.memo.farmerKey ∉ revoked := by
    have hleft : now.plots = first.filter (·.memo.farmerKey ∉ revoked) := plots_revokeAll _ revoked
    rw [hleft, idText_filter_eq_iff]
    simp only [decide_eq_true_eq]
  exact ⟨hhashed, hsame, fun hkept => by rw [hhashed, hsame.2 hkept]⟩

/-- A plot that was not allowed does not count, and to revoke its farmer changes nothing. -/
theorem groupHash_of_first_plots_kept :
    let a := Sample.farmed "/plots/a.plot" 1 32 1 (.ok [])
    let b := Sample.farmed "/plots/b.plot" 2 25 2 (.ok [])
    ∃ cat, ofPlots? [(a, 1), (b, 1)] [32] = some cat ∧
      (∀ p ∈ holdings [(a, 1), (b, 1)] [32] [], p.memo.farmerKey ∉ [SizedBytes.ofNat 48 2]) ∧
      (cat.revokeAll [.ofNat 48 2]).groupHash =
        Sha256.hash (idText (cat.revokeAll [.ofNat 48 2]).plots) := by
  intro a b
  have hfits : totalSizeOf [(a, 1), (b, 1)] < UInt64.size := by decide
  obtain ⟨cat, hmade⟩ := exists_ofPlots? hfits [32]
  have hfirst : holdings [(a, 1), (b, 1)] [32] [] = [a] := rfl
  have hkept : ∀ p ∈ holdings [(a, 1), (b, 1)] [32] [],
      p.memo.farmerKey ∉ [SizedBytes.ofNat 48 2] := hfirst ▸ (by decide)
  exact ⟨cat, hmade, hkept, (groupHash_of_first_plots _ _ cat hmade _).2.2 hkept⟩

/-- When one of two plots is revoked, the hash stays that of both. -/
theorem groupHash_ne_of_revoked :
    let a := Sample.farmed "/plots/a.plot" 1 32 1 (.ok [])
    let b := Sample.farmed "/plots/b.plot" 2 32 2 (.ok [])
    ∃ cat, ofPlots? [(a, 1), (b, 1)] [] = some cat ∧
      (cat.revokeAll [.ofNat 48 1]).plots = [b] ∧
      (cat.revokeAll [.ofNat 48 1]).groupHash ≠
        Sha256.hash (idText (cat.revokeAll [.ofNat 48 1]).plots) := by
  intro a b
  have hfits : totalSizeOf [(a, 1), (b, 1)] < UInt64.size := by decide
  obtain ⟨cat, hmade⟩ := exists_ofPlots? hfits []
  have hleft : (cat.revokeAll [.ofNat 48 1]).plots = [b] := plots_revokeAll_of hmade _
  have hhashed : (cat.revokeAll [.ofNat 48 1]).groupHash = Sha256.hash (idText [a, b]) := by
    obtain ⟨-, rfl⟩ := ofPlots?_eq_some_iff.1 hmade
    exact groupHash_revokeAll _ _
  refine ⟨cat, hmade, hleft, ?_⟩
  rw [hleft, hhashed]
  decide +kernel

end PlotCatalog

end PlotMiner
