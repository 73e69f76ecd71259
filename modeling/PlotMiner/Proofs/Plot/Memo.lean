import PlotMiner.Plot.Memo

/-!
# Memos are read without loss

The bytes of a memo are cut into a commitment, the farmer's key and a secret key. There are memos of
112 and of 128 bytes, and in both the parts have exactly the numbers of bytes that they are meant to
have, so that nothing is cut off and nothing filled up (`PlotMemo.cut?`). What is read is therefore
the memo with these bytes and no other (`memo_without_loss`).
-/

namespace PlotMiner

namespace PlotMemo

variable {bytes : List UInt8} {m : PlotMemo}

/-- Cuts the bytes of a memo whose commitment has `size` bytes into parts. Each part has to have
exactly its number of bytes. -/
def cut? {size : Nat} (target : SizedBytes size → PoolTarget) (bytes : List UInt8) :
    Option PlotMemo := do
  let commitment ← SizedBytes.ofList? (bytes.take size)
  let farmerKey ← SizedBytes.ofList? ((bytes.drop size).take 48)
  let localMasterKey ← SizedBytes.ofList? (bytes.drop (size + 48))
  return ⟨target commitment, farmerKey, localMasterKey⟩

theorem cut?_eq_fit {size : Nat} (target : SizedBytes size → PoolTarget)
    (h : bytes.length = size + 80) :
    cut? target bytes = some ⟨target (.fit size (bytes.take size)),
      .fit 48 ((bytes.drop size).take 48), .fit 32 (bytes.drop (size + 48))⟩ := by
  have hcommitment : (bytes.take size).length = size := by
    rw [List.length_take]
    omega
  have hfarmerKey : ((bytes.drop size).take 48).length = 48 := by
    rw [List.length_take, List.length_drop]
    omega
  have hlocalMasterKey : (bytes.drop (size + 48)).length = 32 := by
    rw [List.length_drop]
    omega
  simp only [cut?, SizedBytes.ofList?_eq_fit hcommitment, SizedBytes.ofList?_eq_fit hfarmerKey,
    SizedBytes.ofList?_eq_fit hlocalMasterKey, Option.bind_eq_bind, Option.bind_some,
    Option.pure_def]

theorem ofBytes?_of_contract (h : bytes.length = 112) :
    ofBytes? bytes = cut? .contract bytes := by
  rw [cut?_eq_fit _ h, ofBytes?, if_pos h]

theorem ofBytes?_of_publicKey (h : bytes.length = 128) :
    ofBytes? bytes = cut? .publicKey bytes := by
  have hother : bytes.length ≠ 112 := by omega
  rw [cut?_eq_fit _ h, ofBytes?, if_neg hother, if_pos h]

theorem toBytes_of_cut? {size : Nat} {target : SizedBytes size → PoolTarget}
    (hsame : ∀ b, (target b).bytes = b.toList) (h : cut? target bytes = some m) :
    m.toBytes = bytes := by
  simp only [cut?, Option.bind_eq_bind, Option.bind_eq_some_iff, Option.pure_def,
    Option.some.injEq] at h
  obtain ⟨commitment, hfirst, farmerKey, hsecond, localMasterKey, hthird, rfl⟩ := h
  have hwhole : (bytes.drop size).drop 48 = bytes.drop (size + 48) := List.drop_drop
  rw [toBytes, hsame, SizedBytes.toList_of_ofList? hfirst, SizedBytes.toList_of_ofList? hsecond,
    SizedBytes.toList_of_ofList? hthird, List.append_assoc, ← hwhole, List.take_append_drop,
    List.take_append_drop]

theorem cut?_toBytes {size : Nat} (target : SizedBytes size → PoolTarget) (b : SizedBytes size)
    (hsame : (target b).bytes = b.toList) (farmerKey : Bytes48) (localMasterKey : Bytes32) :
    cut? target (toBytes ⟨target b, farmerKey, localMasterKey⟩) =
      some ⟨target b, farmerKey, localMasterKey⟩ := by
  have hcommitment : b.toList.length = size := b.length_eq
  have hmiddle : farmerKey.toList.length = 48 := farmerKey.length_eq
  simp only [cut?, toBytes, hsame, List.append_assoc]
  rw [← List.drop_drop, List.take_left' hcommitment, List.drop_left' hcommitment,
    List.take_left' hmiddle, List.drop_left' hmiddle]
  simp only [SizedBytes.ofList?_toList, Option.bind_eq_bind, Option.bind_some, Option.pure_def]

theorem ofBytes?_toBytes (m : PlotMemo) : ofBytes? m.toBytes = some m := by
  obtain ⟨target, farmerKey, localMasterKey⟩ := m
  cases target with
  | contract hash =>
    have hlength : (toBytes ⟨.contract hash, farmerKey, localMasterKey⟩).length = 112 := by
      simp [toBytes, PoolTarget.bytes, SizedBytes.length_eq]
    rw [ofBytes?_of_contract hlength]
    exact cut?_toBytes .contract hash rfl farmerKey localMasterKey
  | publicKey key =>
    have hlength : (toBytes ⟨.publicKey key, farmerKey, localMasterKey⟩).length = 128 := by
      simp [toBytes, PoolTarget.bytes, SizedBytes.length_eq]
    rw [ofBytes?_of_publicKey hlength]
    exact cut?_toBytes .publicKey key rfl farmerKey localMasterKey

theorem toBytes_of_ofBytes? (h : ofBytes? bytes = some m) : m.toBytes = bytes := by
  by_cases hcontract : bytes.length = 112
  · exact toBytes_of_cut? (fun _ => rfl) ((ofBytes?_of_contract hcontract).symm.trans h)
  · by_cases hpublicKey : bytes.length = 128
    · exact toBytes_of_cut? (fun _ => rfl) ((ofBytes?_of_publicKey hpublicKey).symm.trans h)
    · simp [ofBytes?, hcontract, hpublicKey] at h

theorem ofBytes?_eq_some_iff : ofBytes? bytes = some m ↔ m.toBytes = bytes :=
  ⟨toBytes_of_ofBytes?, fun h => h ▸ ofBytes?_toBytes m⟩

theorem exists_ofBytes?_iff :
    (∃ m, ofBytes? bytes = some m) ↔ bytes.length = 112 ∨ bytes.length = 128 := by
  unfold ofBytes?
  split
  case isTrue hcontract => simp [hcontract]
  case isFalse hcontract => simp [hcontract]

end PlotMemo

open PlotMemo

/-- Just the rows of 112 and of 128 bytes are read as memos. The memo that is read is the one whose
parts make up the bytes; it has the puzzle hash of a contract in front in the first case, and a
public key in the second, and each part is taken with exactly its number of bytes. No two rows of
bytes are read as the same memo. -/
theorem memo_without_loss (bytes : List UInt8) :
    ((∃ m, ofBytes? bytes = some m) ↔ bytes.length = 112 ∨ bytes.length = 128) ∧
      (∀ m, ofBytes? bytes = some m ↔ m.toBytes = bytes) ∧
      (bytes.length = 112 → ofBytes? bytes = cut? .contract bytes) ∧
      (bytes.length = 128 → ofBytes? bytes = cut? .publicKey bytes) ∧
      ∀ other m, ofBytes? bytes = some m → ofBytes? other = some m → other = bytes := by
  refine ⟨exists_ofBytes?_iff, fun m => ofBytes?_eq_some_iff, ofBytes?_of_contract,
    ofBytes?_of_publicKey, ?_⟩
  intro other m hread hread'
  rw [← toBytes_of_ofBytes? hread, toBytes_of_ofBytes? hread']

end PlotMiner
