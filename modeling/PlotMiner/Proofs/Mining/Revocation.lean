import PlotMiner.Proofs.Consensus.Choice
import PlotMiner.Proofs.Mining.Round
import PlotMiner.Proofs.Mining.Search
import PlotMiner.Proofs.Plot.Holdings

/-!
# Searching again

A search that finds the plot of a farmer without a secret key drops the plots of that farmer and
begins again at once. The plot is one of those in the catalog, for whatever is chosen was offered by
one of them. So there are fewer plots each time, and the searches come to an end, even if the plots
answer differently every time (`revocation_ends`). The plots of the other farmers stay.
-/

namespace PlotMiner

open Keys

theorem Plot.mem_candidates {p : Plot} {challenge : Bytes32} {bits : UInt8} {c : Candidate}
    (h : c ∈ p.candidates challenge bits) : c.memo = p.memo ∧ c.k = p.k := by
  obtain ⟨_, _, rfl⟩ := exists_candidate_of_mem h
  exact ⟨rfl, rfl⟩

namespace PlotCatalog

variable (c : PlotCatalog) (keys : FarmerKeys) {farmerKey : Bytes48}

/-- The catalog with other answers, those of each plot given by its place. -/
def answered (answers : Nat → Bytes32 → Except Failure (List Blob)) : PlotCatalog :=
  { c with plots := c.plots.mapIdx fun i p => { p with qualities := answers i } }

def known : List Plot := c.plots.filter fun p => (keys.find? p.memo.farmerKey).isSome

variable {c keys}

theorem mem_candidates_answered {answers : Nat → Bytes32 → Except Failure (List Blob)}
    {challenge : Bytes32} {bits : UInt8} {x : Candidate}
    (h : x ∈ (c.answered answers).candidates challenge bits) :
    ∃ p ∈ c.plots, x.memo = p.memo ∧ x.k = p.k := by
  obtain ⟨q, hmem, hoffered⟩ := List.mem_flatMap.1 h
  obtain ⟨i, hbound, rfl⟩ := List.mem_mapIdx.1 hmem
  have hfields := Plot.mem_candidates hoffered
  exact ⟨c.plots[i], List.getElem_mem hbound, hfields⟩

theorem plotCount_revoke_lt {p : Plot} (hmem : p ∈ c.plots) :
    (c.revoke p.memo.farmerKey).plotCount < c.plotCount :=
  List.length_filter_lt_length_iff_exists.2 ⟨p, hmem, by simp⟩

theorem known_revoke (hunknown : keys.find? farmerKey = none) :
    (c.revoke farmerKey).known keys = c.known keys := by
  rw [known, revoke, List.filter_filter]
  refine List.filter_congr fun p _ => ?_
  by_cases hsame : p.memo.farmerKey = farmerKey
  · simp [hsame, hunknown]
  · simp [hsame]

end PlotCatalog

namespace Mining

variable {N : Type}

/-- The collaborators on a site whose plots may answer anything, at any time. -/
def Site.answering (node : NodeAccess N) (keys : KeyEngine Failure)
    (answers : Site N → Nat → Bytes32 → Except Failure (List Blob)) : Collaborators (Site N) :=
  { collaborators node keys with
    candidates := fun challenge bits s =>
      (.ok ((s.plots.answered (answers s)).candidates challenge bits), s) }

theorem Site.answering_own (node : NodeAccess N) (keys : KeyEngine Failure) :
    answering node keys (fun s i => (s.plots.plots[i]?.map Plot.qualities).getD fun _ => .ok []) =
      collaborators node keys := by
  have hsame (c : PlotCatalog) :
      c.answered (fun i => (c.plots[i]?.map Plot.qualities).getD fun _ => .ok []) = c := by
    unfold PlotCatalog.answered
    congr 1
    refine List.ext_getElem (by simp) fun i hbound _ => ?_
    have hinside : i < c.plots.length := by simpa using hbound
    simp [hinside]
  unfold answering collaborators
  simp only [hsame]

variable {ctx : Context} {node : NodeAccess N} {keys : KeyEngine Failure}
  {answers : Site N → Nat → Bytes32 → Except Failure (List Blob)} {m m' : Miner} {s s' : Site N}
  {fuel n : Nat}

theorem Site.answering_still : (answering node keys answers).Still :=
  ⟨fun _ _ _ => rfl, fun _ _ _ _ => rfl, fun _ _ => rfl, fun _ _ _ _ => rfl⟩

/-- What a search comes to, where no number leaves the range of its type. -/
inductive Searched {N : Type} (ctx : Context) (m : Miner) (s : Site N) :
    Outcome × Miner × Site N → Prop
  | settled {after} : after.phase = .waitVdf → Searched ctx m s (.continued, after, s)
  | revoked {p} : p ∈ s.plots.plots → ctx.farmerKeys.find? p.memo.farmerKey = none →
      Searched ctx m s (.continued, m, { s with plots := s.plots.revoke p.memo.farmerKey })
  | mismatched (path : Path) : Searched ctx m s (.exit (.plotIdMismatch path), m, s)

theorem Miner.step_searched (hphase : m.phase = .findPos) (hsmall : ∀ p ∈ s.plots.plots, p.k ≤ 58)
    (hday : m.queried.oneDayIters?.isSome) :
    Searched ctx m s (m.step ctx (Site.answering node keys answers) fuel s) := by
  have hsearch : m.Search ctx (Site.answering node keys answers) s
      (m.findPos ctx (Site.answering node keys answers) s) := findPos_search
  simp only [step, hphase]
  generalize m.findPos ctx (Site.answering node keys answers) s = r at hsearch ⊢
  cases hsearch with
  | settled hwaits hstill =>
    obtain rfl := hstill Site.answering_still
    exact .settled hwaits
  | revoked best hchosen hunknown hstill =>
    obtain rfl := hstill Site.answering_still
    obtain ⟨p, hmem, hmemo, -⟩ :=
      PlotCatalog.mem_candidates_answered (firstLeast_of_selectBest hchosen).mem
    rw [hmemo] at hunknown ⊢
    exact .revoked hmem hunknown
  | mismatched path hstill =>
    obtain rfl := hstill Site.answering_still
    exact .mismatched path
  | tooLarge hlarge =>
    refine absurd hlarge (selectBest_ne_plotTooLarge _ _ fun c hoffered => ?_)
    obtain ⟨p, hmem, -, hsize⟩ := PlotCatalog.mem_candidates_answered hoffered
    exact hsize ▸ hsmall p hmem
  | endless hnone => simp [hnone] at hday

inductive Searches {W : Type} (ctx : Context) (co : Collaborators W) (fuel : Nat) (m : Miner)
    (w : W) : Nat → Miner → W → Prop
  | start : Searches ctx co fuel m w 0 m w
  | again {n m₁ w₁} : Searches ctx co fuel m w n m₁ w₁ → m₁.phase = .findPos →
      (m₁.step ctx co fuel w₁).1 = .continued → (m₁.step ctx co fuel w₁).2.1.phase = .findPos →
      Searches ctx co fuel m w (n + 1) (m₁.step ctx co fuel w₁).2.1 (m₁.step ctx co fuel w₁).2.2

structure Remains {N : Type} (ctx : Context) (s : Site N) (n : Nat) (s' : Site N) : Prop where
  plots : s'.plots.plots ⊆ s.plots.plots
  fewer : n + s'.plots.plotCount ≤ s.plots.plotCount
  known : s'.plots.known ctx.farmerKeys = s.plots.known ctx.farmerKeys

theorem Remains.revoke (h : Remains ctx s n s') {p : Plot} (hmem : p ∈ s'.plots.plots)
    (hunknown : ctx.farmerKeys.find? p.memo.farmerKey = none) :
    Remains ctx s (n + 1) { s' with plots := s'.plots.revoke p.memo.farmerKey } where
  plots := fun q hq => h.plots (List.mem_of_mem_filter hq)
  fewer := by
    have hless := PlotCatalog.plotCount_revoke_lt hmem
    have hbefore := h.fewer
    dsimp only
    omega
  known := (PlotCatalog.known_revoke hunknown).trans h.known

/-- Each search that leads to another one drops a plot, and the miner stays as it is. -/
theorem Searches.remains
    (h : Searches ctx (Site.answering node keys answers) fuel m s n m' s')
    (hsmall : ∀ p ∈ s.plots.plots, p.k ≤ 58) (hday : m.queried.oneDayIters?.isSome) :
    m' = m ∧ Remains ctx s n s' := by
  induction h with
  | start => exact ⟨rfl, List.Subset.refl _, by simp, rfl⟩
  | @again n m₁ s₁ _ hphase hcontinued hagain ih =>
    obtain ⟨rfl, hremains⟩ := ih
    have hsearched : Searched ctx m₁ s₁ (m₁.step ctx (Site.answering node keys answers) fuel s₁) :=
      Miner.step_searched hphase (fun p hmem => hsmall p (hremains.plots hmem)) hday
    generalize m₁.step ctx (Site.answering node keys answers) fuel s₁ = r
      at hcontinued hagain hsearched ⊢
    cases hsearched with
    | settled hwaits => simp [hwaits] at hagain
    | revoked hmem hunknown => exact ⟨rfl, hremains.revoke hmem hunknown⟩
    | mismatched path => simp at hcontinued

def Leaves {W : Type} (r : Outcome × Miner × W) : Prop :=
  (r.1 = .continued ∧ r.2.1.phase = .waitVdf) ∨ ∃ path, r.1 = .exit (.plotIdMismatch path)

theorem exists_leaves (hsmall : ∀ p ∈ s.plots.plots, p.k ≤ 58)
    (hday : m.queried.oneDayIters?.isSome)
    (hphase : m'.phase = .findPos)
    (h : Searches ctx (Site.answering node keys answers) fuel m s n m' s') :
    ∃ n m' s', Searches ctx (Site.answering node keys answers) fuel m s n m' s' ∧
      Leaves (m'.step ctx (Site.answering node keys answers) fuel s') := by
  -- Each search either leaves or goes on with fewer plots.
  induction hcount : s'.plots.plotCount using Nat.strong_induction_on generalizing n m' s' with
  | _ count ih =>
    subst hcount
    obtain ⟨rfl, hremains⟩ := h.remains hsmall hday
    have hsearched : Searched ctx m' s' (m'.step ctx (Site.answering node keys answers) fuel s') :=
      Miner.step_searched hphase (fun p hmem => hsmall p (hremains.plots hmem)) hday
    have hfurther := h.again hphase
    generalize hstep : m'.step ctx (Site.answering node keys answers) fuel s' = r
      at hsearched hfurther
    cases hsearched with
    | settled hwaits => exact ⟨n, m', s', h, hstep ▸ .inl ⟨rfl, hwaits⟩⟩
    | mismatched path => exact ⟨n, m', s', h, hstep ▸ .inr ⟨path, rfl⟩⟩
    | revoked hmem hunknown =>
      exact ih _ (PlotCatalog.plotCount_revoke_lt hmem) hphase (hfurther rfl hphase) rfl

/-- With plots of size classes up to 58, and where the iterations of a day are in range, the
searches of a miner come to an end, whatever the plots answer and whosever they are. No more of them
lead to another one than there are plots, for each of these drops a plot at least. The plots of the
farmers with a secret key stay, and no miner ever has them dropped. -/
theorem revocation_ends {N : Type} {ctx : Context} (node : NodeAccess N) (keys : KeyEngine Failure)
    (answers : Site N → Nat → Bytes32 → Except Failure (List Blob)) {m : Miner} {s : Site N}
    (fuel : Nat) (hphase : m.phase = .findPos) (hsmall : ∀ p ∈ s.plots.plots, p.k ≤ 58)
    (hday : m.queried.oneDayIters?.isSome) :
    let co := Site.answering node keys answers
    (∀ n m' s', Searches ctx co fuel m s n m' s' →
      let next := m'.step ctx co fuel s'
      n + s'.plots.plotCount ≤ s.plots.plotCount ∧
      s'.plots.known ctx.farmerKeys = s.plots.known ctx.farmerKeys ∧
      next.2.2.plots.known ctx.farmerKeys = s.plots.known ctx.farmerKeys ∧
      (Leaves next ∨ next.1 = .continued ∧ next.2.1.phase = .findPos ∧
        next.2.2.plots.plotCount < s'.plots.plotCount)) ∧
    (∃ n ≤ s.plots.plotCount, ∃ m' s', Searches ctx co fuel m s n m' s' ∧
      Leaves (m'.step ctx co fuel s')) ∧
    ∀ {W : Type} (co : Collaborators W) (m : Miner) (w : W) (fuel : Nat) (farmerKey : Bytes48),
      .revoke farmerKey ∈ (m.turn ctx co fuel w).exchanges →
      ctx.farmerKeys.find? farmerKey = none := by
  intro co
  refine ⟨?_, ?_, ?_⟩
  · intro n m' s' hsearches
    obtain ⟨rfl, hremains⟩ := hsearches.remains hsmall hday
    have hsearched : Searched ctx m' s' (m'.step ctx co fuel s') :=
      Miner.step_searched hphase (fun p hmem => hsmall p (hremains.plots hmem)) hday
    refine ⟨hremains.fewer, hremains.known, ?_⟩
    generalize m'.step ctx co fuel s' = next at hsearched ⊢
    cases hsearched with
    | settled hwaits => exact ⟨hremains.known, .inl (.inl ⟨rfl, hwaits⟩)⟩
    | mismatched path => exact ⟨hremains.known, .inl (.inr ⟨path, rfl⟩)⟩
    | revoked hmem hunknown =>
      exact ⟨(hremains.revoke hmem hunknown).known,
        .inr ⟨rfl, hphase, PlotCatalog.plotCount_revoke_lt hmem⟩⟩
  · have hbegun : Searches ctx (Site.answering node keys answers) fuel m s 0 m s := .start
    obtain ⟨n, m', s', hsearches, hleaves⟩ := exists_leaves hsmall hday hphase hbegun
    have hfewer := (hsearches.remains hsmall hday).2.fewer
    exact ⟨n, Nat.le_of_add_right_le hfewer, m', s', hsearches, hleaves⟩
  · intro W co m w fuel farmerKey hsaid
    exact (Miner.turn_fits ctx co m w fuel _ hsaid).2

namespace Sample

def stranger : Plot :=
  .steady ⟨"b.plot"⟩ default 32 { (default : PlotMemo) with farmerKey := .ofNat 48 9 } (.ok [])
    (.ok ⟨[4]⟩)

def mixedSite : Site Rehearsal := ⟨rehearsal, ⟨[stranger, plot], default, 0⟩, .empty, 0, true⟩

/-- Only the plot that comes first ever answers. -/
def firstAnswers : Site Rehearsal → Nat → Bytes32 → Except Failure (List Blob)
  | _, 0, _ => .ok [⟨[3]⟩]
  | _, _ + 1, _ => .ok []

def searching : Miner := { Miner.initial with phase := .findPos, queried := challenge }

end Sample

/-- The stranger's plot is dropped, and the other one stays. -/
theorem revocation_ends_stranger :
    let co := Site.answering Rehearsal.access Sample.keys Sample.firstAnswers
    ∃ m' s', Searches Sample.context co 0 Sample.searching Sample.mixedSite 1 m' s' ∧
      s'.plots.plotCount ≤ 1 ∧ s'.plots.known Sample.context.farmerKeys = [Sample.plot] := by
  intro co
  have hsearches : ∃ m' s',
      Searches Sample.context co 0 Sample.searching Sample.mixedSite 1 m' s' :=
    ⟨_, _, .again .start rfl (by decide +kernel) (by decide +kernel)⟩
  obtain ⟨m', s', hsearches⟩ := hsearches
  obtain ⟨hfewer, hknown, -⟩ := (revocation_ends Rehearsal.access Sample.keys Sample.firstAnswers 0
    rfl (by decide) (by decide)).1 _ _ _ hsearches
  refine ⟨m', s', hsearches, Nat.le_of_add_le_add_left hfewer, hknown.trans ?_⟩
  rfl

end Mining

end PlotMiner
