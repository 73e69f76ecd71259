import Mathlib.Data.List.Induction
import Mathlib.Tactic.Ring
import PlotMiner.Bytes

/-!
# Byte strings as numbers

What a byte string is worth as a number, its most significant byte first: what its parts contribute,
and when it is below a bound. A string whose length is a multiple of the size of its blocks is cut
into full blocks only, and there is one way to do that.
-/

namespace PlotMiner

theorem natOfBytes_concat (bytes : List UInt8) (b : UInt8) :
    natOfBytes (bytes ++ [b]) = natOfBytes bytes * 256 + b.toNat := by
  simp [natOfBytes]

theorem natOfBytes_append (front bytes : List UInt8) :
    natOfBytes (front ++ bytes) = natOfBytes front * 256 ^ bytes.length + natOfBytes bytes := by
  induction bytes using List.reverseRecOn with
  | nil => simp [natOfBytes]
  | append_singleton bytes b ih =>
    rw [← List.append_assoc, natOfBytes_concat, natOfBytes_concat, ih, List.length_append,
      List.length_singleton, pow_succ]
    ring

theorem natOfBytes_bytesOfNat {width n : Nat} (hfits : n < 256 ^ width) :
    natOfBytes (bytesOfNat width n) = n := by
  induction width generalizing n with
  | zero => simp_all [bytesOfNat, natOfBytes]
  | succ width ih =>
    have hfront : n / 256 < 256 ^ width := by
      rw [Nat.div_lt_iff_lt_mul (by decide), ← pow_succ]
      exact hfits
    have hlast : (UInt8.ofNat (n % 256)).toNat = n % 256 :=
      UInt8.toNat_ofNat_of_lt' (Nat.mod_lt n (by decide))
    rw [bytesOfNat, natOfBytes_append, ih hfront]
    simp only [natOfBytes, List.foldl_cons, List.foldl_nil, List.length_singleton, hlast]
    omega

theorem bytesOfNat_natOfBytes (bytes : List UInt8) :
    bytesOfNat bytes.length (natOfBytes bytes) = bytes := by
  induction bytes using List.reverseRecOn with
  | nil => rfl
  | append_singleton bytes b ih =>
    have hsmall := b.toNat_lt
    have hfront : (natOfBytes bytes * 256 + b.toNat) / 256 = natOfBytes bytes := by omega
    have hlast : (natOfBytes bytes * 256 + b.toNat) % 256 = b.toNat := by omega
    rw [List.length_append, List.length_singleton, bytesOfNat, natOfBytes_concat, hfront, hlast, ih,
      UInt8.ofNat_toNat]

theorem natOfBytes_cons (b : UInt8) (bytes : List UInt8) :
    natOfBytes (b :: bytes) = b.toNat * 256 ^ bytes.length + natOfBytes bytes := by
  have hfirst : natOfBytes [b] = b.toNat := by simp [natOfBytes]
  rw [← List.singleton_append, natOfBytes_append, hfirst]

theorem natOfBytes_lt (bytes : List UInt8) : natOfBytes bytes < 256 ^ bytes.length := by
  induction bytes with
  | nil => simp [natOfBytes]
  | cons b bytes ih =>
    have hbyte : b.toNat + 1 ≤ 256 := b.toNat_lt
    calc natOfBytes (b :: bytes)
        = b.toNat * 256 ^ bytes.length + natOfBytes bytes := natOfBytes_cons b bytes
      _ < (b.toNat + 1) * 256 ^ bytes.length := by rw [Nat.add_one_mul]; omega
      _ ≤ 256 * 256 ^ bytes.length := Nat.mul_le_mul_right _ hbyte
      _ = 256 ^ (b :: bytes).length := by rw [List.length_cons, pow_succ']

/-- What follows the first byte never makes up for it. -/
theorem natOfBytes_cons_lt_mul_iff (b : UInt8) (bytes : List UInt8) (m : Nat) :
    natOfBytes (b :: bytes) < m * 256 ^ bytes.length ↔ b.toNat < m := by
  have hrest := natOfBytes_lt bytes
  rw [natOfBytes_cons]
  constructor
  · intro hbelow
    exact Nat.lt_of_mul_lt_mul_right (Nat.lt_of_le_of_lt (Nat.le_add_right _ _) hbelow)
  · intro hbelow
    calc b.toNat * 256 ^ bytes.length + natOfBytes bytes
        < (b.toNat + 1) * 256 ^ bytes.length := by rw [Nat.add_one_mul]; omega
      _ ≤ m * 256 ^ bytes.length := Nat.mul_le_mul_right _ hbelow

/-- A first byte other than zero alone reaches every bound that what follows could be below. -/
theorem natOfBytes_cons_lt_iff {b : UInt8} {bytes : List UInt8} {m : Nat}
    (hsmall : m ≤ 256 ^ bytes.length) :
    natOfBytes (b :: bytes) < m ↔ b = 0 ∧ natOfBytes bytes < m := by
  constructor
  · intro hbelow
    have hfirst : b.toNat < 1 := by
      rw [← natOfBytes_cons_lt_mul_iff b bytes, Nat.one_mul]
      exact Nat.lt_of_lt_of_le hbelow hsmall
    have hzero : b = 0 := UInt8.toNat_inj.1 (Nat.lt_one_iff.1 hfirst)
    subst hzero
    exact ⟨rfl, by simpa [natOfBytes_cons] using hbelow⟩
  · rintro ⟨rfl, hbelow⟩
    simpa [natOfBytes_cons] using hbelow

namespace Block

variable {α : Type} {n : Nat}

theorem chunks_go_flatten (hpositive : 0 < n) {pieces : List (List α)}
    (hfull : ∀ p ∈ pieces, p.length = n) {fuel : Nat} (henough : pieces.flatten.length ≤ fuel) :
    chunks.go n fuel pieces.flatten = pieces := by
  induction pieces generalizing fuel with
  | nil => cases fuel <;> rfl
  | cons p pieces ih =>
    obtain ⟨hlength, hrest⟩ := List.forall_mem_cons.1 hfull
    rw [List.flatten_cons, List.length_append, hlength] at henough
    -- a full piece is not empty, so it takes up fuel, and cutting does not stop before it
    obtain ⟨a, l, hhere⟩ := List.exists_cons_of_length_pos (hlength ▸ hpositive : 0 < p.length)
    cases fuel with
    | zero => omega
    | succ fuel =>
      have hcut : chunks.go n (fuel + 1) (p ++ pieces.flatten) =
          (p ++ pieces.flatten).take n :: chunks.go n fuel ((p ++ pieces.flatten).drop n) := by
        subst hhere
        rfl
      rw [List.flatten_cons, hcut, List.take_left' hlength, List.drop_left' hlength,
        ih hrest (by omega)]

theorem chunks_flatten (hpositive : 0 < n) {pieces : List (List α)}
    (hfull : ∀ p ∈ pieces, p.length = n) : chunks n pieces.flatten = pieces :=
  chunks_go_flatten hpositive hfull (Nat.le_refl _)

theorem exists_pieces {count : Nat} {l : List α} (hwhole : l.length = count * n) :
    ∃ pieces : List (List α),
      pieces.flatten = l ∧ pieces.length = count ∧ ∀ p ∈ pieces, p.length = n := by
  induction count generalizing l with
  | zero =>
    rw [Nat.zero_mul] at hwhole
    exact ⟨[], (List.eq_nil_of_length_eq_zero hwhole).symm, rfl, by simp⟩
  | succ count ih =>
    rw [Nat.succ_mul] at hwhole
    obtain ⟨pieces, hjoined, hlength, hfull⟩ := ih (l := l.drop n) (by rw [List.length_drop]; omega)
    refine ⟨l.take n :: pieces, ?_, by rw [List.length_cons, hlength], ?_⟩
    · rw [List.flatten_cons, hjoined, List.take_append_drop]
    · exact List.forall_mem_cons.2 ⟨by rw [List.length_take]; omega, hfull⟩

end Block

end PlotMiner
