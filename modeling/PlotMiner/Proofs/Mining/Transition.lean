import Mathlib.Tactic.SplitIfs
import PlotMiner.Proofs.Mining.Transcript

/-!
# What a turn can do

Every turn of a miner falls under one of a few transitions, each with what was said in it as far as
anything depends on it (`Miner.turn_transition`). What a miner asks of the node and of the timelords
is determined by its state alone (`Miner.turn_fits`). The rest of the theory of the miner goes by
these two, and does not look into the handlers of the phases again.
-/

namespace PlotMiner.Mining

variable {W : Type}

/-- What a miner in the state `m` may say. -/
def Exchange.Fits (ctx : Context) (m : Miner) : Exchange → Prop
  | requestVdf c i _ => m.phase = .waitVdf ∧ c = m.queried.challenge ∧ i = m.iters
  | broadcast q => m.phase = .waitVdf ∧ q.challenge = m.queried.challenge ∧ q.iters = m.iters
  | submitProof pack _ =>
    m.phase = .submitProofs ∧ m.pack? ctx = some pack ∧ pack.validate = .ok ()
  | revoke farmerKey => m.phase = .findPos ∧ ctx.farmerKeys.find? farmerKey = none
  | _ => True

/-- A time proof for a challenge is acquired: the node's report of that challenge has it, or the
cache has it when the conversation `es` has led to the world `w`. -/
def Acquires (co : Collaborators W) (challenge : Bytes32) (iters : UInt64) (es : List Exchange)
    (w : W) (v : VdfProof) : Prop :=
  (∃ c, Exchange.queryChallenge (.ok c) ∈ es ∧ c.challenge = challenge ∧
    c.findVdfProof iters = some v) ∨
  ∃ d, co.cachedProof challenge iters w = some d ∧ v = d.forChallenge challenge

/-- The chosen candidate of a plot whose farmer is known becomes a proof of space. -/
structure Proves (ctx : Context) (c : Challenge) (es : List Exchange) (p : SpaceProof)
    (farmerKey : Bytes32) (s : ScoredCandidate) : Prop where
  selected : ∃ cs, Exchange.candidates c.challenge c.filterBits (.ok cs) ∈ es ∧
    selectBest cs c.challenge ⟨c.difficulty, c.filterBits, ctx.factorBits, c.baseIters⟩ = .ok s
  farmer : ctx.farmerKeys.find? s.candidate.memo.farmerKey = some farmerKey
  localKey : Exchange.localKey s.candidate.memo.localMasterKey (.ok p.localKey) ∈ es
  plotId : Exchange.plotId p.localKey s.candidate.memo.farmerKey p.target (.ok p.plotId) ∈ es
  fullProof :
    Exchange.fullProof s.candidate.path c.challenge s.candidate.index (.ok p.proof) ∈ es
  made : p = Miner.spaceProof c.challenge s p.localKey p.proof

/-- What a turn that begins in the world `w₀` makes of the miner `m` when `es` is said in it and it
ends in the world `w`. -/
inductive Transition (ctx : Context) (co : Collaborators W) (m : Miner) (w₀ : W) :
    List Exchange → Miner → W → Prop
  | kept {es w} : m.phase = .requireChallenge ∨ m.phase = .findPos ∨ m.phase = .waitVdf →
      Transition ctx co m w₀ es m w
  | cleared {es w} : m.phase = .requireChallenge → Transition ctx co m w₀ es m.cleared w
  | repeated {es w} (c : Challenge) : m.phase = .requireChallenge → c.challenge ∈ m.submitted →
      Transition ctx co m w₀ es { m.cleared with queried := c } w
  | adopted {w} (c : Challenge) : m.phase = .requireChallenge → c.challenge ∉ m.submitted →
      Transition ctx co m w₀
        [.retainOnly c.challenge, .queryChallenge (.ok c), .clearActive, .checkReady (.ok true)]
        (m.cleared.adopt c) w
  | unproved {es w} (iters : UInt64) : m.phase = .findPos →
      m.queried.oneDayIters? = some iters →
      Transition ctx co m w₀ es { m with iters := iters, phase := .waitVdf } w
  | proved {es w} (s : ScoredCandidate) (farmerKey : Bytes32) (p : SpaceProof) :
      m.phase = .findPos → Proves ctx m.queried es p farmerKey s →
      Transition ctx co m w₀ es
        { m with iters := s.iters, farmerKey := some farmerKey, pos := some p, phase := .waitVdf } w
  | abandoned {es w} : m.phase = .waitVdf →
      Transition ctx co m w₀ es { m with phase := .requireChallenge } w
  | acquired {es w} (v : VdfProof) : m.phase = .waitVdf → Conversation co w₀ es w →
      Acquires co m.queried.challenge m.iters es w v →
      Transition ctx co m w₀ (.inspect v :: es)
        { m with vdfSpeed := m.speedAfter v, vdf := some v, phase := .processVdf }
        (co.inspect v w)
  | processed {w} : m.phase = .processVdf → Transition ctx co m w₀ [] m.processVdf w
  | dropped {w} : m.phase = .submitProofs →
      (∀ pack, m.pack? ctx = some pack → pack.validate ≠ .ok ()) →
      Transition ctx co m w₀ [] { m with phase := .requireChallenge } w
  | refused {w} (pack : ProofPack) (f : Failure) : m.phase = .submitProofs →
      Transition ctx co m w₀ [.submitProof pack (.error f)] { m with phase := .requireChallenge } w
  | accepted {w} (pack : ProofPack) : m.phase = .submitProofs →
      Transition ctx co m w₀ [.submitProof pack (.ok ())]
        { m with phase := .requireChallenge, submitted := m.queried.challenge :: m.submitted } w

/-- An account of a step: how it comes out when it is watched, and what was said in it. -/
structure Account (ctx : Context) (co : Collaborators W) (m : Miner) (w : W)
    (plain : Outcome × Miner × W) (watched : Outcome × Miner × Recorded W)
    (es : List Exchange) : Prop where
  transparent : watched = (plain.1, plain.2.1, ⟨plain.2.2, es⟩)
  spoken : Conversation co w es plain.2.2
  fits : ∀ e ∈ es, e.Fits ctx m
  transition : Transition ctx co m w es plain.2.1 plain.2.2

section

variable {ctx : Context} {co : Collaborators W} {m m' : Miner} {w w' : W}
  {plain : Outcome × Miner × W} {watched : Outcome × Miner × Recorded W} {es : List Exchange}

theorem Account.of (hends : plain.2 = (m', w')) (htransparent : watched = (plain.1, m', ⟨w', es⟩))
    (hspoken : Conversation co w es w') (hfits : ∀ e ∈ es, e.Fits ctx m)
    (htransition : Transition ctx co m w es m' w') : Account ctx co m w plain watched es := by
  obtain ⟨o, _, _⟩ := plain
  obtain ⟨rfl, rfl⟩ := Prod.mk.inj hends
  exact ⟨htransparent, hspoken, hfits, htransition⟩

end

namespace Miner

variable (ctx : Context) (co : Collaborators W) (m : Miner) (w : W)

theorem requireChallenge_account (hphase : m.phase = .requireChallenge) :
    ∃ es, Account ctx co m w (m.requireChallenge ctx co w)
      (m.requireChallenge ctx co.recorded ⟨w, []⟩) es := by
  rcases hready : co.checkReady w with ⟨e | b, w₁⟩
  · have hsaid : Conversation co w [.checkReady (.error e)] w₁ :=
      .next .silence (.checkReady hready)
    exact ⟨_, .of (by simp [requireChallenge, hready])
      (by simp [requireChallenge, hready]) hsaid
      (by simp [Exchange.Fits]) (.kept (.inl hphase))⟩
  have hsaid : Conversation co w [.checkReady (.ok b)] w₁ := .next .silence (.checkReady hready)
  cases b with
  | false =>
    exact ⟨_, .of (by simp [requireChallenge, hready])
      (by simp [requireChallenge, hready])
      (hsaid.next (.sleep (d := ctx.timings.notReadyWait))) (by simp [Exchange.Fits])
      (.kept (.inl hphase))⟩
  | true =>
    rcases hreply : co.queryChallenge (co.clearActive w₁) with ⟨e | c, w₂⟩
    · have hsaid := (hsaid.next .clearActive).next (.queryChallenge hreply)
      exact ⟨_, .of (by simp [requireChallenge, hready, hreply])
        (by simp [requireChallenge, hready, hreply]) hsaid
        (by simp [Exchange.Fits]) (.cleared hphase)⟩
    have hsaid := (hsaid.next .clearActive).next (.queryChallenge hreply)
    by_cases hknown : m.cleared.isSubmitted c.challenge
    · exact ⟨_, .of (by simp [requireChallenge, hready, hreply, hknown])
        (by simp [requireChallenge, hready, hreply, hknown])
        (hsaid.next (.sleep (d := ctx.timings.duplicateWait))) (by simp [Exchange.Fits])
        (.repeated c hphase (List.contains_iff_mem.1 hknown))⟩
    · exact ⟨_, .of (by simp [requireChallenge, hready, hreply, hknown])
        (by simp [requireChallenge, hready, hreply, hknown])
        (hsaid.next .retainOnly) (by simp [Exchange.Fits])
        (.adopted c hphase (fun h => hknown (List.contains_iff_mem.2 h)))⟩

section

variable {m w} {w₀ : W} {es : List Exchange}

theorem waitWithoutPos_account (hphase : m.phase = .findPos) (hsaid : Conversation co w₀ es w)
    (hfits : ∀ e ∈ es, e.Fits ctx m) :
    Account ctx co m w₀ (m.waitWithoutPos w) (m.waitWithoutPos (⟨w, es⟩ : Recorded W)) es := by
  cases hday : m.queried.oneDayIters? with
  | none =>
    exact .of (by simp [waitWithoutPos, hday]) (by simp [waitWithoutPos, hday]) hsaid hfits
      (.kept (.inr (.inl hphase)))
  | some iters =>
    exact .of (by simp [waitWithoutPos, hday]) (by simp [waitWithoutPos, hday]) hsaid hfits
      (.unproved iters hphase hday)

theorem provePos_account {cs : List Candidate} {s : ScoredCandidate} {farmerKey : Bytes32}
    (hphase : m.phase = .findPos)
    (hoffered : .candidates m.queried.challenge m.queried.filterBits (.ok cs) ∈ es)
    (hchosen : selectBest cs m.queried.challenge (m.target ctx) = .ok s)
    (hfarmer : ctx.farmerKeys.find? s.candidate.memo.farmerKey = some farmerKey)
    (hsaid : Conversation co w₀ es w) (hfits : ∀ e ∈ es, e.Fits ctx m) :
    ∃ es', Account ctx co m w₀ (m.provePos co s farmerKey w)
      (m.provePos co.recorded s farmerKey ⟨w, es⟩) es' := by
  rcases hkey : co.localKey s.candidate.memo.localMasterKey w with ⟨f | localKey, w₁⟩
  · have haccount := waitWithoutPos_account ctx co hphase (hsaid.next (.localKey hkey))
      (by simpa [Exchange.Fits] using hfits)
    exact ⟨_, by simpa [provePos, derive, hkey] using haccount⟩
  have hsaid := hsaid.next (.localKey hkey)
  rcases hderived : co.plotId localKey s.candidate.memo.farmerKey s.candidate.memo.target w₁ with
    ⟨f | id, w₂⟩
  · have haccount := waitWithoutPos_account ctx co hphase (hsaid.next (.plotId hderived))
      (by simpa [Exchange.Fits] using hfits)
    exact ⟨_, by simpa [provePos, derive, hkey, hderived] using haccount⟩
  have hsaid := hsaid.next (.plotId hderived)
  by_cases hown : id = s.candidate.plotId
  · subst hown
    rcases hread : co.fullProof s.candidate.path m.queried.challenge s.candidate.index w₂ with
      ⟨f | proof, w₃⟩
    · have haccount := waitWithoutPos_account ctx co hphase (hsaid.next (.fullProof hread))
        (by simpa [Exchange.Fits] using hfits)
      exact ⟨_, by simpa [provePos, derive, hkey, hderived, hread] using haccount⟩
    · refine ⟨_, .of (by simp [provePos, derive, hkey, hderived, hread])
        (by simp [provePos, derive, hkey, hderived, hread])
        (hsaid.next (.fullProof hread)) (by simpa [Exchange.Fits] using hfits)
        (.proved s farmerKey (spaceProof m.queried.challenge s localKey proof) hphase ?_)⟩
      exact {
        selected := ⟨cs, by simp [hoffered], hchosen⟩
        farmer := hfarmer
        localKey := by simp [spaceProof]
        plotId := by simp [spaceProof]
        fullProof := by simp [spaceProof]
        made := rfl }
  · exact ⟨_, .of (by simp [provePos, derive, hkey, hderived, hown])
      (by simp [provePos, derive, hkey, hderived, hown]) hsaid
      (by simpa [Exchange.Fits] using hfits) (.kept (.inr (.inl hphase)))⟩

end

theorem findPos_account (hphase : m.phase = .findPos) :
    ∃ es, Account ctx co m w (m.findPos ctx co w) (m.findPos ctx co.recorded ⟨w, []⟩) es := by
  rcases hfound : co.candidates m.queried.challenge m.queried.filterBits w with ⟨a, w₁⟩
  have hsaid : Conversation co w [.candidates m.queried.challenge m.queried.filterBits a] w₁ :=
    .next .silence (.candidates hfound)
  rcases hchosen : selectBest (candidatesOf a) m.queried.challenge (m.target ctx) with e | s
  · by_cases hlarge : e = .plotTooLarge
    · subst hlarge
      exact ⟨_, .of (by simp [findPos, hfound, hchosen])
        (by simp [findPos, hfound, hchosen]) hsaid
        (by simp [Exchange.Fits]) (.kept (.inr (.inl hphase)))⟩
    · have haccount := waitWithoutPos_account ctx co hphase hsaid (by simp [Exchange.Fits])
      exact ⟨_, by simpa [findPos, hfound, hchosen, hlarge] using haccount⟩
  cases hfarmer : ctx.farmerKeys.find? s.candidate.memo.farmerKey with
  | none =>
    exact ⟨_, .of (by simp [findPos, hfound, hchosen, hfarmer])
      (by simp [findPos, hfound, hchosen, hfarmer])
      (hsaid.next (.revoke (k := s.candidate.memo.farmerKey)))
      (by simp [Exchange.Fits, hphase, hfarmer]) (.kept (.inr (.inl hphase)))⟩
  | some farmerKey =>
    cases a with
    | error f => simp [candidatesOf, selectBest] at hchosen
    | ok cs =>
      have hchosen : selectBest cs m.queried.challenge (m.target ctx) = .ok s := hchosen
      obtain ⟨es, haccount⟩ := provePos_account ctx co hphase (by simp) hchosen hfarmer hsaid
        (by simp [Exchange.Fits])
      refine ⟨es, ?_⟩
      simpa [findPos, candidatesOf, hfound, hchosen, hfarmer] using haccount

theorem acquires_of_verdict {challenge : Bytes32} {iters : UInt64} {c : Challenge} {w : W}
    {es : List Exchange} {v : VdfProof} (hreported : .queryChallenge (.ok c) ∈ es)
    (h : verdict? co challenge iters c w = some (.acquired v)) :
    Acquires co challenge iters es w v := by
  unfold verdict? at h
  split_ifs at h with hsame
  · simp at h
  have hsame : c.challenge = challenge := Decidable.not_not.1 hsame
  split at h
  case h_1 hfound =>
    cases h
    exact .inl ⟨c, hreported, hsame, hfound⟩
  case h_2 =>
    obtain ⟨d, hcached, hmade⟩ := Option.map_eq_some_iff.1 h
    cases hmade
    exact .inr ⟨d, hcached, rfl⟩

structure Wait (m : Miner) (challenge : Bytes32) (iters : UInt64) (w : W)
    (plain : BreakReason × W) (watched : BreakReason × Recorded W) (es : List Exchange) : Prop where
  transparent : watched = (plain.1, ⟨plain.2, es⟩)
  spoken : Conversation co w es plain.2
  fits : ∀ e ∈ es, e.Fits ctx m
  source : ∀ v, plain.1 = .acquired v → Acquires co challenge iters es plain.2 v

section

variable {ctx co m}

theorem Wait.of {challenge : Bytes32} {iters : UInt64} {w w' : W} {plain : BreakReason × W}
    {watched : BreakReason × Recorded W} {es : List Exchange} (reason : BreakReason)
    (hends : plain = (reason, w')) (htransparent : watched = (reason, ⟨w', es⟩))
    (hspoken : Conversation co w es w') (hfits : ∀ e ∈ es, e.Fits ctx m)
    (hsource : ∀ v, reason = .acquired v → Acquires co challenge iters es w' v) :
    Wait ctx co m challenge iters w plain watched es := by
  subst hends
  exact ⟨htransparent, hspoken, hfits, hsource⟩

end

/-- While a miner looks for a time proof it does nothing but ask for the challenge and let time
pass. -/
theorem poll_account (challenge : Bytes32) (iters : UInt64) (start timeout fuel : Nat) {w₀ w : W}
    {es : List Exchange} (hsaid : Conversation co w₀ es w) (hfits : ∀ e ∈ es, e.Fits ctx m) :
    ∃ es', Wait ctx co m challenge iters w₀ (poll ctx co challenge iters start timeout fuel w)
      (poll ctx co.recorded challenge iters start timeout fuel ⟨w, es⟩) es' := by
  -- What was said before a look is carried along: each look goes on from where the last one ended.
  induction fuel generalizing w es with
  | zero => exact ⟨es, .of .unfinished rfl rfl hsaid hfits (by simp)⟩
  | succ fuel ih =>
    by_cases hrunning : co.running w
    case neg =>
      exact ⟨es, .of .error (by simp [poll, hrunning]) (by simp [poll, hrunning]) hsaid hfits
        (by simp)⟩
    by_cases hlate : timeout ≤ co.now w - start
    · exact ⟨es, .of .timeout (by simp [poll, hrunning, hlate]) (by simp [poll, hrunning, hlate])
        hsaid hfits (by simp)⟩
    rcases hreply : co.queryChallenge w with ⟨f | c, w₁⟩
    · have hsaid := hsaid.next (.queryChallenge hreply)
      have hfits : ∀ e ∈ Exchange.queryChallenge (.error f) :: es, e.Fits ctx m := by
        simpa [Exchange.Fits] using hfits
      cases f with
      | rpc code message =>
        have hsaid := hsaid.next (.sleep (d := ctx.timings.rpcErrorWait))
        obtain ⟨es', hwait⟩ := ih hsaid (by simpa [Exchange.Fits] using hfits)
        exact ⟨es', by simpa [poll, hrunning, hlate, hreply] using hwait⟩
      | net message =>
        exact ⟨_, .of .error (by simp [poll, hrunning, hlate, hreply])
          (by simp [poll, hrunning, hlate, hreply]) hsaid hfits (by simp)⟩
      | other kind message =>
        exact ⟨_, .of .error (by simp [poll, hrunning, hlate, hreply])
          (by simp [poll, hrunning, hlate, hreply]) hsaid hfits (by simp)⟩
    · have hsaid := hsaid.next (.queryChallenge hreply)
      have hfits : ∀ e ∈ Exchange.queryChallenge (.ok c) :: es, e.Fits ctx m := by
        simpa [Exchange.Fits] using hfits
      have hblind (es : List Exchange) :
          verdict? co.recorded challenge iters c ⟨w₁, es⟩ = verdict? co challenge iters c w₁ := rfl
      cases hverdict : verdict? co challenge iters c w₁ with
      | some reason =>
        refine ⟨_, .of reason (by simp [poll, hrunning, hlate, hreply, hverdict])
          (by simp [poll, hrunning, hlate, hreply, hblind, hverdict]) hsaid hfits ?_⟩
        rintro v rfl
        exact acquires_of_verdict co (by simp) hverdict
      | none =>
        have hsaid := hsaid.next (.sleep (d := ctx.timings.pollTick))
        obtain ⟨es', hwait⟩ := ih hsaid (by simpa [Exchange.Fits] using hfits)
        exact ⟨es', by simpa [poll, hrunning, hlate, hreply, hblind, hverdict] using hwait⟩

theorem checkAndBreak_account (fuel timeout : Nat) (hphase : m.phase = .waitVdf) :
    ∃ es, Wait ctx co m m.queried.challenge m.iters w (m.checkAndBreak ctx co fuel timeout w)
      (m.checkAndBreak ctx co.recorded fuel timeout ⟨w, []⟩) es := by
  rcases hrequested : co.requestVdf m.queried.challenge m.iters w with ⟨a, w₁⟩
  have hsaid : Conversation co w _ _ := .next (.next .silence (.requestVdf hrequested))
    (.broadcast (q := ⟨m.queried.challenge, m.iters, co.netspace w₁⟩))
  obtain ⟨es, hwait⟩ := poll_account ctx co m m.queried.challenge m.iters
    (co.now (co.broadcast ⟨m.queried.challenge, m.iters, co.netspace w₁⟩ w₁)) timeout fuel hsaid
    (by simp [Exchange.Fits, hphase])
  exact ⟨es, by simpa [checkAndBreak, hrequested] using hwait⟩

theorem waitVdf_account (fuel : Nat) (hphase : m.phase = .waitVdf) :
    ∃ es, Account ctx co m w (m.waitVdf ctx co fuel w)
      (m.waitVdf ctx co.recorded fuel ⟨w, []⟩) es := by
  cases hbound : ctx.timings.vdfTimeout? m.queried.targetDuration with
  | none =>
    exact ⟨[], .of (by simp [waitVdf, hbound]) (by simp [waitVdf, hbound]) .silence (by simp)
      (.kept (.inr (.inr hphase)))⟩
  | some timeout =>
    obtain ⟨es, hwatched, hsaid, hfits, hsource⟩ :=
      checkAndBreak_account ctx co m w fuel timeout hphase
    rcases hplain : m.checkAndBreak ctx co fuel timeout w with ⟨reason, w'⟩
    simp only [hplain] at hwatched hsaid hsource
    cases reason with
    | challengeChanged =>
      exact ⟨es, .of (by simp [waitVdf, hbound, hplain])
        (by simp [waitVdf, hbound, hplain, hwatched]) hsaid hfits (.abandoned hphase)⟩
    | acquired v =>
      exact ⟨_, .of (by simp [waitVdf, hbound, hplain])
        (by simp [waitVdf, hbound, hplain, hwatched])
        (hsaid.next (.inspect (v := v))) (by simpa [Exchange.Fits] using hfits)
        (.acquired v hphase hsaid (hsource v rfl))⟩
    | timeout =>
      exact ⟨es, .of (by simp [waitVdf, hbound, hplain])
        (by simp [waitVdf, hbound, hplain, hwatched]) hsaid hfits (.kept (.inr (.inr hphase)))⟩
    | error =>
      exact ⟨es, .of (by simp [waitVdf, hbound, hplain])
        (by simp [waitVdf, hbound, hplain, hwatched]) hsaid hfits (.abandoned hphase)⟩
    | unfinished =>
      exact ⟨es, .of (by simp [waitVdf, hbound, hplain])
        (by simp [waitVdf, hbound, hplain, hwatched]) hsaid hfits (.kept (.inr (.inr hphase)))⟩

theorem submitProofs_account (hphase : m.phase = .submitProofs) :
    ∃ es, Account ctx co m w (.continued, m.submitProofs ctx co w)
      (.continued, m.submitProofs ctx co.recorded ⟨w, []⟩) es := by
  cases hmade : m.pack? ctx with
  | none =>
    exact ⟨[], .of (by simp [submitProofs, hmade]) (by simp [submitProofs, hmade]) .silence
      (by simp) (.dropped hphase (by simp [hmade]))⟩
  | some pack =>
    cases hvalid : pack.validate with
    | error e =>
      exact ⟨[], .of (by simp [submitProofs, hmade, hvalid]) (by simp [submitProofs, hmade, hvalid])
        .silence (by simp) (.dropped hphase (by simp [hmade, hvalid]))⟩
    | ok u =>
      rcases hreply : co.submitProof pack w with ⟨f | u, w₁⟩
      · have hsaid : Conversation co w [.submitProof pack (.error f)] w₁ :=
          .next .silence (.submitProof hreply)
        exact ⟨_, .of (by simp [submitProofs, hmade, hvalid, hreply])
          (by simp [submitProofs, hmade, hvalid, hreply]) hsaid
          (by simp [Exchange.Fits, hphase, hmade, hvalid]) (.refused pack f hphase)⟩
      · have hsaid : Conversation co w [.submitProof pack (.ok ())] w₁ :=
          .next .silence (.submitProof hreply)
        exact ⟨_, .of (by simp [submitProofs, hmade, hvalid, hreply])
          (by simp [submitProofs, hmade, hvalid, hreply]) hsaid
          (by simp [Exchange.Fits, hphase, hmade, hvalid]) (.accepted pack hphase)⟩

theorem step_account (fuel : Nat) :
    ∃ es, Account ctx co m w (m.step ctx co fuel w) (m.step ctx co.recorded fuel ⟨w, []⟩) es := by
  cases hphase : m.phase with
  | requireChallenge => simpa only [step, hphase] using requireChallenge_account ctx co m w hphase
  | findPos => simpa only [step, hphase] using findPos_account ctx co m w hphase
  | waitVdf => simpa only [step, hphase] using waitVdf_account ctx co m w fuel hphase
  | processVdf =>
    exact ⟨[], .of (by simp [step, hphase]) (by simp [step, hphase]) .silence (by simp)
      (.processed hphase)⟩
  | submitProofs => simpa only [step, hphase] using submitProofs_account ctx co m w hphase

/-- A step comes to the same whether it is watched or not. -/
theorem step_recorded (fuel : Nat) :
    m.step ctx co.recorded fuel ⟨w, []⟩ =
      ((m.step ctx co fuel w).1, (m.step ctx co fuel w).2.1,
        ⟨(m.step ctx co fuel w).2.2, (m.turn ctx co fuel w).exchanges⟩) := by
  obtain ⟨es, haccount⟩ := step_account ctx co m w fuel
  simp only [turn, haccount.transparent]

theorem turn_spoken (fuel : Nat) :
    Conversation co w (m.turn ctx co fuel w).exchanges (m.step ctx co fuel w).2.2 := by
  obtain ⟨es, haccount⟩ := step_account ctx co m w fuel
  simpa only [turn, haccount.transparent] using haccount.spoken

theorem turn_fits (fuel : Nat) : ∀ e ∈ (m.turn ctx co fuel w).exchanges, e.Fits ctx m := by
  obtain ⟨es, haccount⟩ := step_account ctx co m w fuel
  simpa only [turn, haccount.transparent] using haccount.fits

theorem turn_transition (fuel : Nat) :
    Transition ctx co m w (m.turn ctx co fuel w).exchanges (m.step ctx co fuel w).2.1
      (m.step ctx co fuel w).2.2 := by
  obtain ⟨es, haccount⟩ := step_account ctx co m w fuel
  simpa only [turn, haccount.transparent] using haccount.transition

end Miner

end PlotMiner.Mining
