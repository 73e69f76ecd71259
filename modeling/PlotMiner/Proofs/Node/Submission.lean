import PlotMiner.Chain.ProofPack
import PlotMiner.Node.Query
import PlotMiner.Proofs.Chain.Codec
import PlotMiner.Proofs.Json.Alike

/-!
# What a submission tells the node

The parameters of a submission say everything about a pack but three values that only the miner
needs: the id of the plot, the mixed quality and the iterations that the proof of space waits for.
Packs have the same parameters exactly if they agree in all the rest, and the text of a request
tells apart those that do not (`params_tell_apart`).
-/

namespace PlotMiner

open Json

/-- The packs agree in everything that is submitted of them. -/
structure ProofPack.Agrees (p q : ProofPack) : Prop where
  prevBlockHash : p.prevBlockHash = q.prevBlockHash
  prevBlockHeight : p.prevBlockHeight = q.prevBlockHeight
  rewardTo : p.rewardTo = q.rewardTo
  farmerKey : p.farmerKey = q.farmerKey
  vdf : p.vdf = q.vdf
  challenge : p.pos.challenge = q.pos.challenge
  k : p.pos.k = q.pos.k
  target : p.pos.target = q.pos.target
  localKey : p.pos.localKey = q.pos.localKey
  proof : p.pos.proof = q.pos.proof

section

variable {S : Type} [Source S] [LawfulSource S]

/-- A hex text says which of the two kinds of commitment it is of. -/
theorem PoolTarget.eq_of_alike {t u : PoolTarget}
    (h : Alike S (.string t.toHex) (.string u.toHex)) : t = u := by
  have hbytes : (⟨t.bytes⟩ : Blob) = ⟨u.bytes⟩ := Alike.eq h
  exact PoolTarget.bytes_inj (congrArg Blob.toList hbytes)

theorem VdfProof.eq_of_alike {p q : VdfProof} (h : Alike S p.params q.params) : p = q := by
  have hchallenge : p.challenge = q.challenge := (h.field "challenge" rfl rfl).eq
  have hy : p.y = q.y := (h.field "y" rfl rfl).eq
  have hproof : p.proof = q.proof := (h.field "proof" rfl rfl).eq
  have hwitnessType : p.witnessType = q.witnessType := (h.field "witness_type" rfl rfl).eq
  have hiters : p.iters = q.iters := (h.field "iters" rfl rfl).eq
  have hduration : p.duration = q.duration := (h.field "duration" rfl rfl).eq
  cases p
  cases q
  simp_all

theorem ProofPack.agrees_of_alike {p q : ProofPack}
    (h : Alike S (.array p.params) (.array q.params)) : p.Agrees q := by
  have heach := h.items
  simp only [ProofPack.params, List.forall₂_cons, List.forall₂_nil_left_iff, and_true] at heach
  obtain ⟨hhash, hheight, hchallenge, hpos, hfarmerKey, hvdf, hreward⟩ := heach
  exact {
    prevBlockHash := hhash.eq
    prevBlockHeight := hheight.eq
    rewardTo := hreward.eq
    farmerKey := hfarmerKey.eq
    vdf := VdfProof.eq_of_alike hvdf
    challenge := hchallenge.eq
    k := (hpos.field "k" rfl rfl).eq
    target := PoolTarget.eq_of_alike (hpos.field "pool_pk_or_hash" rfl rfl)
    localKey := (hpos.field "local_pk" rfl rfl).eq
    proof := (hpos.field "proof" rfl rfl).eq }

end

theorem ProofPack.Agrees.params_eq {p q : ProofPack} (h : p.Agrees q) : p.params = q.params := by
  simp only [ProofPack.params, SpaceProof.params, h.prevBlockHash, h.prevBlockHeight, h.rewardTo,
    h.farmerKey, h.vdf, h.challenge, h.k, h.target, h.localKey, h.proof]

theorem PlotType.legible_code (t : PlotType) (room : Nat) : (Value.nat t.code).Legible room := by
  cases t with
  | og => exact .nat (by decide) room
  | pooled => exact .nat (by decide) room

theorem SpaceProof.legible_params (p : SpaceProof) {room : Nat} (h : 1 ≤ room) :
    p.params.Legible room :=
  Record.legible_object h (by simp [Distinct]) fun _ _ => by
    simp [Codec.legible, Codec.depth, Value.Legible.string, PlotType.legible_code]

theorem VdfProof.legible_params (p : VdfProof) {room : Nat} (h : 1 ≤ room) :
    p.params.Legible room :=
  Record.legible_object h (by simp [Distinct]) fun _ _ => by simp [Codec.legible, Codec.depth]

theorem ProofPack.legible_params (p : ProofPack) {room : Nat} (h : 2 ≤ room) :
    (Value.array p.params).Legible room := by
  obtain ⟨above, rfl⟩ := Nat.exists_eq_add_of_le' h
  have hdeep : 1 ≤ above + 1 := Nat.le_add_left 1 above
  refine .array ?_
  simp [ProofPack.params, Codec.legible, Codec.depth, SpaceProof.legible_params, hdeep,
    VdfProof.legible_params]

theorem ProofPack.legible_body (p : ProofPack) {room : Nat} (h : 3 ≤ room) :
    (Query.submitProof p).body.Legible room :=
  Record.legible_object h (by simp [Distinct]) fun inner hdeep => by
    have hnumber : (Value.nat 1).Legible inner := .nat (by decide) inner
    simp [Query.submitProof, Value.Legible.string, hnumber, hdeep, ProofPack.legible_params]

theorem ProofPack.Agrees.body_eq {p q : ProofPack} (h : p.Agrees q) :
    (Query.submitProof p).body = (Query.submitProof q).body := by
  rw [Query.submitProof, Query.submitProof, h.params_eq]

/-- Two packs have the same parameters exactly if they agree in everything but the id of the plot,
the mixed quality and the iterations that the proof of space waits for. Requests for packs that do
not agree have no text in common, in whatever order the fields are written. -/
theorem params_tell_apart (p q : ProofPack) :
    (p.params = q.params ↔ p.Agrees q) ∧
      ((∃ text, WrittenAs (Query.submitProof p).body text ∧
        WrittenAs (Query.submitProof q).body text) ↔ p.Agrees q) := by
  refine ⟨⟨?_, ProofPack.Agrees.params_eq⟩, ?_, ?_⟩
  · intro hsame
    have halike : Alike Value (.array p.params) (.array q.params) := by
      rw [← hsame]
      exact (p.legible_params (Nat.le_refl 2)).alike
    exact ProofPack.agrees_of_alike halike
  · rintro ⟨text, hwritten, hwritten'⟩
    have halike := alike_of_written (p.legible_body (by decide)) (q.legible_body (by decide))
      hwritten hwritten'
    exact ProofPack.agrees_of_alike (halike.field "params" rfl rfl)
  · intro hagree
    have hlegible := q.legible_body (Nat.le_refl 3)
    refine ⟨_, ⟨_, ?_, .inl rfl⟩, ⟨_, hlegible.shows, .inl rfl⟩⟩
    rw [hagree.body_eq]
    exact hlegible.shows

end PlotMiner
