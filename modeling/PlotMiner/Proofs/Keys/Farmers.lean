import Mathlib.Data.List.Induction
import PlotMiner.Keys.PlotKey
import PlotMiner.Proofs.Keys.Derivation
import PlotMiner.Proofs.Lookup

/-!
# The keys of the farmers

The secret keys that are made of mnemonics are exactly those of their farmers, each filed once and
under its own public key (`FarmerKeys.of_ofSeeds`). They fail to be made only where a mnemonic has
no master key, and then with the error of the first of these (`FarmerKeys.ofSeeds_eq_error_iff`).
-/

namespace PlotMiner.Keys

variable {gen : KeyGenerator}

/-- The key at the end of the farmer's path from the master key of a mnemonic. -/
def FarmerOf (gen : KeyGenerator) (seed : String) (sk : SecretKey) : Prop :=
  ∃ master, SecretKey.ofMnemonic seed gen = .ok master ∧
    master.descendant [12381, 8444, 0, 0] gen = .ok sk

theorem farmerOf_iff {seed : String} {sk : SecretKey} :
    FarmerOf gen seed sk ↔ SecretKey.farmerOfMnemonic seed gen = .ok sk :=
  bind_eq_ok.symm

namespace FarmerKeys

/-- Every mnemonic has a farmer, whose public key is filed; and whatever is filed is filed once,
under its public key, and belongs to one of these farmers. -/
structure Of (gen : KeyGenerator) (seeds : List String) (keys : FarmerKeys) : Prop where
  farmer : ∀ seed ∈ seeds, ∃ sk, FarmerOf gen seed sk
  once : (keys.map Prod.fst).Nodup
  mem_iff : ∀ publicKey, publicKey ∈ keys.map Prod.fst ↔
    ∃ seed ∈ seeds, ∃ sk, FarmerOf gen seed sk ∧ sk.publicKey.toBytes = publicKey
  paired : ∀ publicKey secretKey, (publicKey, secretKey) ∈ keys →
    ∃ seed ∈ seeds, ∃ sk, FarmerOf gen seed sk ∧ sk.publicKey.toBytes = publicKey ∧
      sk.toBytes = secretKey

section Insert

variable {keys : FarmerKeys} {publicKey publicKey' : Bytes48} {secretKey : Bytes32}

theorem mem_insert {entry : Bytes48 × Bytes32} :
    entry ∈ keys.insert publicKey secretKey ↔
      (entry ∈ keys ∧ entry.1 ≠ publicKey) ∨ entry = (publicKey, secretKey) := by
  simp [insert]

theorem mem_map_fst_insert :
    publicKey' ∈ (keys.insert publicKey secretKey).map Prod.fst ↔
      publicKey' ∈ keys.map Prod.fst ∨ publicKey' = publicKey := by
  by_cases hsame : publicKey' = publicKey
  · simp [insert, hsame]
  · simp [insert, hsame]

theorem nodup_insert (honce : (keys.map Prod.fst).Nodup) :
    ((keys.insert publicKey secretKey).map Prod.fst).Nodup := by
  have hleft : ((keys.filter (·.1 ≠ publicKey)).map Prod.fst).Nodup :=
    honce.sublist (List.filter_sublist.map Prod.fst)
  rw [insert, List.map_append]
  refine List.nodup_append.2 ⟨hleft, by simp, ?_⟩
  simp

end Insert

variable {seeds : List String} {seed : String} {sk : SecretKey} {keys : FarmerKeys}

/-- The key of one more farmer takes the place of an equal one, if there is one. -/
theorem Of.insert (h : Of gen seeds keys) (hfarmer : FarmerOf gen seed sk) :
    Of gen (seeds ++ [seed]) (keys.insert sk.publicKey.toBytes sk.toBytes) where
  farmer := List.forall_mem_append.2 ⟨h.farmer, List.forall_mem_singleton.2 ⟨sk, hfarmer⟩⟩
  once := nodup_insert h.once
  mem_iff publicKey := by
    have honly (sk' : SecretKey) (hfarmer' : FarmerOf gen seed sk') : sk' = sk :=
      Except.ok.inj ((farmerOf_iff.1 hfarmer').symm.trans (farmerOf_iff.1 hfarmer))
    rw [mem_map_fst_insert, h.mem_iff]
    constructor
    · rintro (⟨seed', hmem, hknown⟩ | rfl)
      · exact ⟨seed', List.mem_append_left _ hmem, hknown⟩
      · exact ⟨seed, List.mem_append_right _ List.mem_cons_self, sk, hfarmer, rfl⟩
    · rintro ⟨seed', hmem, sk', hfarmer', hsame⟩
      rcases List.mem_append.1 hmem with hearlier | hlast
      · exact .inl ⟨seed', hearlier, sk', hfarmer', hsame⟩
      · obtain rfl := List.mem_singleton.1 hlast
        exact .inr (honly sk' hfarmer' ▸ hsame.symm)
  paired publicKey secretKey hmem := by
    rcases mem_insert.1 hmem with ⟨hearlier, -⟩ | hnew
    · obtain ⟨seed', hmem', hknown⟩ := h.paired _ _ hearlier
      exact ⟨seed', List.mem_append_left _ hmem', hknown⟩
    · obtain ⟨rfl, rfl⟩ := Prod.mk.inj hnew
      exact ⟨seed, List.mem_append_right _ List.mem_cons_self, sk, hfarmer, rfl, rfl⟩

theorem of_nil : Of gen [] [] where
  farmer := by simp
  once := List.nodup_nil
  mem_iff := by simp
  paired := by simp

theorem of_ofSeeds (hmade : ofSeeds seeds gen = .ok keys) : Of gen seeds keys := by
  induction seeds using List.reverseRecOn generalizing keys with
  | nil =>
    obtain rfl : [] = keys := Except.ok.inj hmade
    exact of_nil
  | append_singleton seeds seed ih =>
    rw [ofSeeds, List.foldlM_append] at hmade
    obtain ⟨before, hearlier, hlast⟩ := bind_eq_ok.1 hmade
    obtain ⟨after, hadded, hrest⟩ := bind_eq_ok.1 hlast
    obtain ⟨sk, hfarmer, hinserted⟩ := bind_eq_ok.1 hadded
    obtain rfl := Except.ok.inj hinserted
    obtain rfl := Except.ok.inj hrest
    exact (ih hearlier).insert (farmerOf_iff.2 hfarmer)

theorem Of.find (h : Of gen seeds keys) {publicKey : Bytes48} {secretKey : Bytes32}
    (hfound : keys.find? publicKey = some secretKey) :
    ∃ seed ∈ seeds, ∃ sk, FarmerOf gen seed sk ∧ SecretKey.ofBytes secretKey = .ok sk ∧
      sk.publicKey.toBytes = publicKey := by
  obtain ⟨seed, hmem, sk, hfarmer, hown, rfl⟩ := h.paired _ _ (mem_of_lookup hfound)
  exact ⟨seed, hmem, sk, hfarmer, sk.ofBytes_toBytes, hown⟩

theorem Of.ne_nil (h : Of gen seeds keys) (hsome : seeds ≠ []) : keys ≠ [] := by
  obtain ⟨seed, hmem⟩ := List.exists_mem_of_ne_nil seeds hsome
  obtain ⟨sk, hfarmer⟩ := h.farmer seed hmem
  have hknown := (h.mem_iff _).2 ⟨seed, hmem, sk, hfarmer, rfl⟩
  rintro rfl
  cases hknown

section Failure

variable (htotal : gen.Total)

include htotal

theorem addSeed_eq_error_iff (keys : FarmerKeys) (seed : String) (e : KeyError) :
    keys.addSeed seed gen = .error e ↔ SecretKey.ofMnemonic seed gen = .error e := by
  rw [← SecretKey.farmerOfMnemonic_eq_error_iff htotal, addSeed]
  cases SecretKey.farmerOfMnemonic seed gen <;> simp [bind, Except.bind, pure, Except.pure]

/-- The keys of mnemonics fail with the error of the first mnemonic that has no master key. -/
theorem ofSeeds_eq_error_iff {e : KeyError} :
    ofSeeds seeds gen = .error e ↔
      ∃ before seed after, seeds = before ++ seed :: after ∧
        (∀ s ∈ before, ∃ master, SecretKey.ofMnemonic s gen = .ok master) ∧
        SecretKey.ofMnemonic seed gen = .error e :=
  foldlM_eq_error_iff (addSeed_eq_error_iff htotal)

theorem exists_ofSeeds_iff :
    (∃ keys, ofSeeds seeds gen = .ok keys) ↔
      ∀ seed ∈ seeds, ∃ master, SecretKey.ofMnemonic seed gen = .ok master :=
  exists_foldlM_iff (addSeed_eq_error_iff htotal)

end Failure

end FarmerKeys

end PlotMiner.Keys
