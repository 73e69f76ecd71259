import PlotMiner.Proofs.Consensus.Choice
import PlotMiner.Proofs.Keys.Farmers
import PlotMiner.Proofs.Mining.Foundation

/-!
# Whose key goes with a proof

A miner that is set up from a configuration has the secret keys of the farmers whose mnemonics the
configuration lists. The plot of a chosen candidate names its farmer by a public key, and the secret
key that is submitted is the one that this public key belongs to.
-/

namespace PlotMiner

theorem MinerConfig.seeds_ne_nil {config : MinerConfig} (hvalid : config.validate = .ok ()) :
    config.seed.toList ≠ [] := by
  intro hnone
  simp only [validate, hnone, List.isEmpty_nil, if_true] at hvalid
  split_ifs at hvalid

namespace Mining

open Keys

section

variable {gen : KeyGenerator} {config : MinerConfig} {ctx : Context}

/-- A configuration that is valid and whose mnemonics have keys is all that a context needs. -/
theorem Context.ofConfig_eq_ok_iff :
    ofConfig config gen = .ok ctx ↔
      config.validate = .ok () ∧
        ∃ keys, FarmerKeys.ofSeeds config.seed.toList gen = .ok keys ∧
          ctx = .new config.reward keys := by
  unfold ofConfig
  cases hvalid : config.validate with
  | error e => simp
  | ok u =>
    cases hmade : FarmerKeys.ofSeeds config.seed.toList gen with
    | error e => simp
    | ok keys =>
      have hsome := (FarmerKeys.of_ofSeeds hmade).ne_nil (MinerConfig.seeds_ne_nil hvalid)
      have hknown : ¬ keys.isEmpty := by simp [hsome]
      simp only [hknown, Bool.false_eq_true, if_false]
      constructor
      · intro hsame
        exact ⟨trivial, keys, rfl, (Except.ok.inj hsame).symm⟩
      · rintro ⟨-, keys', hsame, rfl⟩
        rw [Except.ok.inj hsame]

theorem Context.of_ofConfig (hmade : ofConfig config gen = .ok ctx) :
    FarmerKeys.Of gen config.seed.toList ctx.farmerKeys ∧ ctx.farmerKeys ≠ [] := by
  obtain ⟨hvalid, keys, hderived, rfl⟩ := ofConfig_eq_ok_iff.1 hmade
  have hall := FarmerKeys.of_ofSeeds hderived
  exact ⟨hall, hall.ne_nil (MinerConfig.seeds_ne_nil hvalid)⟩

variable {W : Type} {co : Collaborators W} {aside : W → W → Prop} {w₀ w : W} {ts : List Turn}
  {m : Miner}

theorem History.owner {seeds : List String} (hall : FarmerKeys.Of gen seeds ctx.farmerKeys)
    (h : History ctx co aside w₀ ts m w) {fuel : Nat} {pack : ProofPack}
    {answer : Except Failure Unit}
    (hsaid : .submitProof pack answer ∈ (m.turn ctx co fuel w).exchanges) :
    ∃ c round, Round ts c round ∧ ∃ u ∈ round, ∃ s,
      Proves ctx c u.exchanges pack.pos pack.farmerKey s ∧
      ∃ seed ∈ seeds, ∃ sk, FarmerOf gen seed sk ∧ SecretKey.ofBytes pack.farmerKey = .ok sk ∧
        sk.publicKey.toBytes = s.candidate.memo.farmerKey := by
  obtain ⟨hphase, hmade, -⟩ := Miner.turn_fits _ _ _ _ _ _ hsaid
  obtain ⟨hpos, -, hfarmerKey, -⟩ := Miner.pack?_eq_some hmade
  obtain ⟨round, hisRound, hbacked⟩ := h.told (by simp [hphase])
  obtain ⟨u, hmem, s, hproves⟩ := hbacked _ _ hpos hfarmerKey
  exact ⟨m.queried, round, hisRound, u, hmem, s, hproves, hall.find hproves.farmer⟩

theorem History.next {w' : W} {m' : Miner} {fuel : Nat} {o : Outcome}
    (h : History ctx co aside w₀ ts m w) (hstep : m.step ctx co fuel w = (o, m', w')) :
    History ctx co aside w₀ (m.turn ctx co fuel w :: ts) m' w' := by
  have htaken := h.turn fuel
  rwa [hstep] at htaken

end

/-- The keys that are made of mnemonics are those of their farmers and are paired with their public
keys, and they can be made unless a mnemonic has no master key; so a miner that is set up from a
configuration submits the secret key to the public key that the plot of its proof names. -/
theorem farmer_keys_paired (gen : KeyGenerator) :
    (gen.Total → ∀ seeds,
      ((∃ keys, FarmerKeys.ofSeeds seeds gen = .ok keys) ↔
        ∀ seed ∈ seeds, ∃ master, SecretKey.ofMnemonic seed gen = .ok master) ∧
      ∀ e, FarmerKeys.ofSeeds seeds gen = .error e ↔
        ∃ before seed after, seeds = before ++ seed :: after ∧
          (∀ s ∈ before, ∃ master, SecretKey.ofMnemonic s gen = .ok master) ∧
          SecretKey.ofMnemonic seed gen = .error e) ∧
    (∀ seeds keys, FarmerKeys.ofSeeds seeds gen = .ok keys → FarmerKeys.Of gen seeds keys) ∧
    (∀ config ctx, Context.ofConfig config gen = .ok ctx →
      ctx.farmerKeys ≠ [] ∧
      ∀ (W : Type) (co : Collaborators W) aside w₀ ts m w, History ctx co aside w₀ ts m w →
        ∀ later t earlier pack answer, ts = later ++ t :: earlier →
          .submitProof pack answer ∈ t.exchanges →
          ∃ c round, Round earlier c round ∧ ∃ u ∈ round, ∃ s,
            Proves ctx c u.exchanges pack.pos pack.farmerKey s ∧
            ∃ seed ∈ config.seed.toList, ∃ sk, FarmerOf gen seed sk ∧
              SecretKey.ofBytes pack.farmerKey = .ok sk ∧
              sk.publicKey.toBytes = s.candidate.memo.farmerKey) := by
  refine ⟨?_, ?_, ?_⟩
  · intro htotal seeds
    exact ⟨FarmerKeys.exists_ofSeeds_iff htotal, fun e => FarmerKeys.ofSeeds_eq_error_iff htotal⟩
  · intro seeds keys hmade
    exact FarmerKeys.of_ofSeeds hmade
  · intro config ctx hmade
    obtain ⟨hall, hsome⟩ := Context.of_ofConfig hmade
    refine ⟨hsome, ?_⟩
    intro W co aside w₀ ts m w h later t earlier pack answer hsplit hsaid
    obtain ⟨m₁, w₁, fuel, h₁, rfl⟩ := h.taken hsplit
    exact h₁.owner hall hsaid

namespace Sample

/-- Draws keys from seeds, and has an answer even to a seed from which none can be drawn. -/
def generator : KeyGenerator := fun seed =>
  if seed.length < 32 then .error .badEncoding
  else
    match SecretKey.ofSeed seed with
    | .ok sk => .ok sk
    | .error _ => .ok ⟨1, by decide, by decide⟩

theorem generator_total : generator.Total :=
  KeyGenerator.total_withReserve SecretKey.ofSeed ⟨1, by decide, by decide⟩

def mnemonics : List String := [
  "abandon abandon abandon abandon abandon abandon abandon abandon abandon abandon abandon about",
  "absorb absorb absorb absorb absorb absorb absorb absorb absorb absorb absorb above"]

theorem exists_ofMnemonic :
    ∀ seed ∈ mnemonics, ∃ master, SecretKey.ofMnemonic seed generator = .ok master := by
  intro seed hmem
  have hlegible : mnemonics.all fun seed => (Mnemonic.parse seed).isOk := by decide +kernel
  have hisOk := List.all_eq_true.1 hlegible seed hmem
  cases hread : Mnemonic.parse seed with
  | ok m => exact SecretKey.exists_ofMnemonic generator_total hread
  | error e => simp [hread, Except.isOk, Except.toBool] at hisOk

def config : MinerConfig :=
  { (default : MinerConfig) with
    reward := "reward"
    seed := .many (mnemonics ++ "  " :: mnemonics.take 1) }

theorem toList_seed_config : config.seed.toList = mnemonics ++ mnemonics.take 1 := by
  decide +kernel

theorem exists_ofConfig : ∃ ctx, Context.ofConfig config generator = .ok ctx := by
  have hvalid : config.validate = .ok () := by rfl
  have hall : ∀ seed ∈ config.seed.toList, ∃ master,
      SecretKey.ofMnemonic seed generator = .ok master := by
    intro seed hmem
    rw [toList_seed_config] at hmem
    rcases List.mem_append.1 hmem with hmem | hagain
    · exact exists_ofMnemonic seed hmem
    · exact exists_ofMnemonic seed (List.mem_of_mem_take hagain)
  obtain ⟨keys, hmade⟩ := (FarmerKeys.exists_ofSeeds_iff generator_total).2 hall
  exact ⟨_, Context.ofConfig_eq_ok_iff.2 ⟨hvalid, keys, hmade, rfl⟩⟩

def candidate (farmerKey : Bytes48) : Candidate :=
  ⟨⟨"a.plot"⟩, default, 0, 32, ⟨[3]⟩, ⟨default, farmerKey, default⟩⟩

def steady (farmerKey : Bytes48) : Collaborators Unit :=
  Collaborators.withCache
    { checkReady := fun w => (.ok true, w)
      queryChallenge := fun w => (.ok challenge, w)
      requestVdf := fun _ _ w => (.ok true, w)
      submitProof := fun _ w => (.ok (), w)
      reloadCookie := fun w => (.ok false, w)
      candidates := fun _ _ w => (.ok [candidate farmerKey], w)
      fullProof := fun _ _ _ w => (.ok default, w)
      revoke := fun _ w => w
      netspace := fun _ => default
      localKey := fun _ w => (.ok default, w)
      plotId := fun _ _ _ w => (.ok default, w)
      retainOnly := fun _ w => w
      cachedProof := fun _ _ _ => none
      clearActive := fun w => w
      broadcast := fun _ w => w
      inspect := fun _ w => w
      running := fun _ => true
      now := fun _ => 0
      sleep := fun _ w => w }
    fun _ => .empty

section

variable {ctx : Context} {farmerKey : Bytes48} {secretKey : Bytes32} {m : Miner}

theorem exists_selectBest (farmerKey : Bytes48) (c : Bytes32) (t : Target) :
    ∃ s, selectBest [candidate farmerKey] c t = .ok s ∧ s.candidate = candidate farmerKey := by
  have hsmall : (candidate farmerKey).k ≤ 58 := show (32 : UInt8) ≤ 58 by decide
  have hquality : (candidate farmerKey).hasQuality := rfl
  obtain ⟨s, hscored⟩ := Option.isSome_iff_exists.1 (Candidate.isSome_score? c t hsmall)
  refine ⟨s, ?_, (Candidate.score?_eq_some_iff.1 hscored).1⟩
  simp [selectBest, hquality, hscored, ScoredCandidate.best?]

theorem findPos_steady (hphase : m.phase = .findPos)
    (hfound : ctx.farmerKeys.find? farmerKey = some secretKey) :
    ∃ m', m.step ctx (steady farmerKey) 1 () = (.continued, m', ()) ∧ m'.phase = .waitVdf ∧
      m'.queried = m.queried ∧ m'.pos.isSome := by
  obtain ⟨s, hselected, hchosen⟩ :=
    exists_selectBest farmerKey m.queried.challenge (m.target ctx)
  have hknown : ctx.farmerKeys.find? s.candidate.memo.farmerKey = some secretKey := by
    rw [hchosen]
    exact hfound
  have hown : s.candidate.plotId = default := by
    rw [hchosen]
    rfl
  simp [Miner.step, hphase, Miner.findPos, steady, Collaborators.withCache, Miner.candidatesOf,
    hselected, hknown, Miner.provePos, Miner.derive, hown]

theorem waitVdf_steady (hphase : m.phase = .waitVdf) (hqueried : m.queried = challenge)
    (htimings : ctx.timings = default) :
    ∃ m', m.step ctx (steady farmerKey) 1 () = (.continued, m', ()) ∧ m'.phase = .processVdf ∧
      m'.pos = m.pos := by
  obtain ⟨timeout, hwaits, hpositive⟩ :
      ∃ timeout, (default : Timings).vdfTimeout? challenge.targetDuration = some timeout ∧
        0 < timeout := by
    have hsome : ((default : Timings).vdfTimeout? challenge.targetDuration).any (0 < ·) := by
      decide +kernel
    simpa using Option.any_eq_true _ _ |>.1 hsome
  obtain ⟨v, hreported⟩ : ∃ v, challenge.findVdfProof m.iters = some v := by
    have hcovered : m.iters ≤ 18446744073709551615 :=
      UInt64.le_iff_toNat_le.2 (Nat.le_of_lt_succ m.iters.toNat_lt)
    simp [Challenge.findVdfProof, challenge, hcovered]
  simp [Miner.step, hphase, Miner.waitVdf, htimings, hqueried, hwaits, Miner.checkAndBreak,
    Miner.poll, steady, Collaborators.withCache, Nat.ne_of_gt hpositive, Miner.verdict?, hreported]

theorem submits (htimings : ctx.timings = default)
    (hfound : ctx.farmerKeys.find? farmerKey = some secretKey) :
    ∃ t ts m pack, History ctx (steady farmerKey) Eq () (t :: ts) m () ∧
      .submitProof pack (.ok ()) ∈ t.exchanges := by
  have hbegun : History ctx (steady farmerKey) Eq () [] Miner.initial () := .start
  obtain ⟨m₁, hfirst, hphase₁, hqueried₁⟩ :
      ∃ m₁, Miner.initial.step ctx (steady farmerKey) 1 () = (.continued, m₁, ()) ∧
        m₁.phase = .findPos ∧ m₁.queried = challenge :=
    ⟨Miner.initial.cleared.adopt challenge, rfl, rfl, rfl⟩
  obtain ⟨m₂, hsecond, hphase₂, hqueried₂, hproved⟩ := findPos_steady hphase₁ hfound
  obtain ⟨m₃, hthird, hphase₃, hpos⟩ := waitVdf_steady hphase₂ (hqueried₂.trans hqueried₁) htimings
  have hfourth : m₃.step ctx (steady farmerKey) 1 () =
      (.continued, { m₃ with phase := .submitProofs }, ()) := by
    simp [Miner.step, hphase₃, Miner.processVdf, hpos, hproved]
  have h := (((hbegun.next hfirst).next hsecond).next hthird).next hfourth
  obtain ⟨pack, hmade, hvalid⟩ := h.consistent.pack ctx rfl
  refine ⟨_, _, _, pack, h.turn 1, ?_⟩
  simp [Miner.turn, Miner.step, Miner.submitProofs, hmade, hvalid, steady, Collaborators.withCache,
    Collaborators.recorded]

end

end Sample

/-- The keys of the sample mnemonics can be made, and those of a list that ends in something else
cannot; and a miner with the sample configuration submits the key of a farmer. -/
theorem farmer_keys_paired_sample :
    Sample.generator.Total ∧
    (∃ keys, FarmerKeys.ofSeeds Sample.mnemonics Sample.generator = .ok keys ∧
      FarmerKeys.Of Sample.generator Sample.mnemonics keys) ∧
    FarmerKeys.ofSeeds (Sample.mnemonics ++ ["not a mnemonic"]) Sample.generator =
      .error (.badWordCount 3) ∧
    ∃ ctx, Context.ofConfig Sample.config Sample.generator = .ok ctx ∧ ctx.farmerKeys ≠ [] ∧
      ∃ farmerKey t ts m pack, History ctx (Sample.steady farmerKey) Eq () (t :: ts) m () ∧
        .submitProof pack (.ok ()) ∈ t.exchanges ∧
        ∃ c round, Round ts c round ∧ ∃ u ∈ round, ∃ s,
          Proves ctx c u.exchanges pack.pos pack.farmerKey s ∧
          ∃ seed ∈ Sample.config.seed.toList, ∃ sk, FarmerOf Sample.generator seed sk ∧
            SecretKey.ofBytes pack.farmerKey = .ok sk ∧
            sk.publicKey.toBytes = s.candidate.memo.farmerKey := by
  obtain ⟨hfails, hpaired, howned⟩ := farmer_keys_paired Sample.generator
  refine ⟨Sample.generator_total, ?_, ?_, ?_⟩
  · obtain ⟨keys, hmade⟩ := (hfails Sample.generator_total _).1.2 Sample.exists_ofMnemonic
    exact ⟨keys, hmade, hpaired _ _ hmade⟩
  · have hillegible : Mnemonic.parse "not a mnemonic" = .error (.badWordCount 3) := by rfl
    refine ((hfails Sample.generator_total _).2 _).2
      ⟨_, "not a mnemonic", [], rfl, Sample.exists_ofMnemonic, ?_⟩
    rw [SecretKey.ofMnemonic, hillegible]
    rfl
  · obtain ⟨ctx, hmade⟩ := Sample.exists_ofConfig
    obtain ⟨hsome, hsubmitted⟩ := howned _ ctx hmade
    obtain ⟨entry, hmem⟩ := List.exists_mem_of_ne_nil _ hsome
    have hfound : ctx.farmerKeys.find? entry.1 = Option.some entry.2 :=
      lookup_of_mem (Context.of_ofConfig hmade).1.once hmem
    obtain ⟨hvalid, keys, -, rfl⟩ := Context.ofConfig_eq_ok_iff.1 hmade
    obtain ⟨t, ts, m, pack, h, hsaid⟩ := Sample.submits rfl hfound
    exact ⟨_, hmade, hsome, entry.1, t, ts, m, pack, h, hsaid,
      hsubmitted _ _ _ _ _ _ _ h [] t ts pack _ rfl hsaid⟩

end Mining

end PlotMiner
