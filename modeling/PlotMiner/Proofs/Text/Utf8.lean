import Mathlib.Tactic.SplitIfs
import PlotMiner.Text.Utf8

/-!
# UTF-8 in both directions

The bytes of a text decode to that text (`decodeUtf8?_utf8`), and bytes that decode to a text are
the bytes of that text (`eq_utf8_of_decodeUtf8?`). When the bytes of a text are cut in two, the
first part therefore decodes to a beginning of the text (`of_utf8_append`) or, if the cut is within
a character, to nothing.
-/

namespace PlotMiner.Text

/-- A well-formed sequence of bytes, with the number of its character. -/
inductive Sequence : List UInt8 → Nat → Prop
  | one {a n} : a.toNat < 0x80 → n = a.toNat → Sequence [a] n
  | two {a b n} : 0xC2 ≤ a.toNat → a.toNat ≤ 0xDF → isTail b →
      n = (a.toNat - 0xC0) * 64 + (b.toNat - 0x80) → Sequence [a, b] n
  | three {a b c n} : 0xE0 ≤ a.toNat → a.toNat ≤ 0xEF → isSecond a b → isTail c →
      n = (a.toNat - 0xE0) * 4096 + (b.toNat - 0x80) * 64 + (c.toNat - 0x80) →
      Sequence [a, b, c] n
  | four {a b c d n} : 0xF0 ≤ a.toNat → a.toNat ≤ 0xF4 → isSecond a b → isTail c → isTail d →
      n = (a.toNat - 0xF0) * 262144 + (b.toNat - 0x80) * 4096 + (c.toNat - 0x80) * 64 +
        (d.toNat - 0x80) → Sequence [a, b, c, d] n

theorem isTail_iff {b : UInt8} : isTail b ↔ 0x80 ≤ b.toNat ∧ b.toNat ≤ 0xBF := by
  simp [isTail, UInt8.le_iff_toNat_le]

theorem isSecond_iff {a b : UInt8} :
    isSecond a b ↔ 0x80 ≤ b.toNat ∧ b.toNat ≤ 0xBF ∧ (a.toNat = 0xE0 → 0xA0 ≤ b.toNat) ∧
      (a.toNat = 0xED → b.toNat ≤ 0x9F) ∧ (a.toNat = 0xF0 → 0x90 ≤ b.toNat) ∧
      (a.toNat = 0xF4 → b.toNat ≤ 0x8F) := by
  simp only [isSecond, beq_iff_eq, ← UInt8.toNat_inj]
  split_ifs <;> simp_all [UInt8.le_iff_toNat_le] <;> omega

theorem Sequence.nextChar {bytes : List UInt8} {n : Nat} (h : Sequence bytes n)
    (rest : List UInt8) :
    nextChar (bytes ++ rest) = some (some (Char.ofNat n), rest) := by
  cases h with
  | one hsmall hnumber => simp [Text.nextChar, UInt8.lt_iff_toNat_lt, hsmall, hnumber]
  | @two a b _ hlow hhigh htail hnumber =>
    have hlarge : ¬ a.toNat < 0x80 := by omega
    simp [Text.nextChar, UInt8.lt_iff_toNat_lt, UInt8.le_iff_toNat_le, hlarge, hlow, hhigh, htail,
      hnumber]
  | @three a b c _ hlow hhigh hsecond htail hnumber =>
    have hlarge : ¬ a.toNat < 0x80 := by omega
    have htwo : ¬ a.toNat ≤ 0xDF := by omega
    simp [Text.nextChar, UInt8.lt_iff_toNat_lt, UInt8.le_iff_toNat_le, hlarge, htwo, hlow, hhigh,
      hsecond, htail, hnumber]
  | @four a b c d _ hlow hhigh hsecond htail hlast hnumber =>
    have hlarge : ¬ a.toNat < 0x80 := by omega
    have htwo : ¬ a.toNat ≤ 0xDF := by omega
    have hthree : ¬ a.toNat ≤ 0xEF := by omega
    simp [Text.nextChar, UInt8.lt_iff_toNat_lt, UInt8.le_iff_toNat_le, hlarge, htwo, hthree, hlow,
      hhigh, hsecond, htail, hlast, hnumber]

theorem sequence_of_nextChar {bytes rest : List UInt8} {c : Char}
    (h : nextChar bytes = some (some c, rest)) :
    ∃ seq n, bytes = seq ++ rest ∧ Sequence seq n ∧ c = Char.ofNat n := by
  unfold nextChar at h
  repeat' split at h
  all_goals simp only [reduceCtorEq, Option.some.injEq, Prod.mk.injEq, false_and] at h
  all_goals obtain ⟨rfl, rfl⟩ := h
  all_goals
    simp only [UInt8.lt_iff_toNat_lt, UInt8.le_iff_toNat_le, Bool.and_eq_true,
      decide_eq_true_eq] at *
  · rename_i a _ hsmall
    exact ⟨[a], _, rfl, .one hsmall rfl, rfl⟩
  · rename_i a _ b _ htail _ hlead
    exact ⟨[a, b], _, rfl, .two hlead.1 hlead.2 htail rfl, rfl⟩
  · rename_i a _ b hsecond _ c _ htail _ _ hlead
    exact ⟨[a, b, c], _, rfl, .three hlead.1 hlead.2 hsecond htail rfl, rfl⟩
  · rename_i a _ b hsecond _ c htail _ d _ hlast _ _ _ hlead
    exact ⟨[a, b, c, d], _, rfl, .four hlead.1 hlead.2 hsecond htail hlast rfl, rfl⟩

theorem sequence_utf8EncodeChar (c : Char) : Sequence (String.utf8EncodeChar c) c.toNat := by
  have hvalid : c.toNat < 0xD800 ∨ 0xDFFF < c.toNat ∧ c.toNat < 0x110000 := c.valid
  have hbyte (x : Nat) (h : x < 256) : (UInt8.ofNat x).toNat = x := UInt8.toNat_ofNat_of_lt' h
  simp only [String.utf8EncodeChar, show c.val.toNat = c.toNat from rfl]
  generalize c.toNat = n at hvalid ⊢
  split_ifs with hone htwo hthree
  · have ha := hbyte n (by omega)
    exact .one (by omega) (by omega)
  · have ha := hbyte (n / 64 % 32 + 192) (by omega)
    have hb := hbyte (n % 64 + 128) (by omega)
    exact .two (by omega) (by omega) (isTail_iff.2 (by omega)) (by omega)
  · have ha := hbyte (n / 4096 % 16 + 224) (by omega)
    have hb := hbyte (n / 64 % 64 + 128) (by omega)
    have hc := hbyte (n % 64 + 128) (by omega)
    exact .three (by omega) (by omega) (isSecond_iff.2 (by omega)) (isTail_iff.2 (by omega))
      (by omega)
  · have ha := hbyte (n / 262144 % 8 + 240) (by omega)
    have hb := hbyte (n / 4096 % 64 + 128) (by omega)
    have hc := hbyte (n / 64 % 64 + 128) (by omega)
    have hd := hbyte (n % 64 + 128) (by omega)
    exact .four (by omega) (by omega) (isSecond_iff.2 (by omega)) (isTail_iff.2 (by omega))
      (isTail_iff.2 (by omega)) (by omega)

theorem Sequence.isValid {bytes : List UInt8} {n : Nat} (h : Sequence bytes n) :
    n.isValidChar := by
  unfold Nat.isValidChar
  cases h with
  | one hsmall hnumber => omega
  | two hlow hhigh htail hnumber =>
    rw [isTail_iff] at htail
    omega
  | three hlow hhigh hsecond htail hnumber =>
    rw [isSecond_iff] at hsecond
    rw [isTail_iff] at htail
    omega
  | four hlow hhigh hsecond htail hlast hnumber =>
    rw [isSecond_iff] at hsecond
    rw [isTail_iff] at htail hlast
    omega

theorem toNat_ofNat_of_isValid {n : Nat} (h : n.isValidChar) : (Char.ofNat n).toNat = n := by
  rw [Char.ofNat, dif_pos h]
  rfl

theorem Sequence.eq_utf8EncodeChar {bytes : List UInt8} {n : Nat} (h : Sequence bytes n) :
    bytes = String.utf8EncodeChar (Char.ofNat n) := by
  have hnumber : (Char.ofNat n).val.toNat = n := toNat_ofNat_of_isValid h.isValid
  have hbyte {b : UInt8} {x : Nat} (h : b.toNat = x) : b = UInt8.ofNat x := by simp [← h]
  simp only [String.utf8EncodeChar, hnumber]
  cases h with
  | one hsmall =>
    rw [if_pos (by omega)]
    exact congrArg (fun b => [b]) (hbyte (by omega))
  | two hlow hhigh htail =>
    rw [isTail_iff] at htail
    rw [if_neg (by omega), if_pos (by omega)]
    congr <;> exact hbyte (by omega)
  | three hlow hhigh hsecond htail =>
    rw [isSecond_iff] at hsecond
    rw [isTail_iff] at htail
    rw [if_neg (by omega), if_neg (by omega), if_pos (by omega)]
    congr <;> exact hbyte (by omega)
  | four hlow hhigh hsecond htail hlast =>
    rw [isSecond_iff] at hsecond
    rw [isTail_iff] at htail hlast
    rw [if_neg (by omega), if_neg (by omega), if_neg (by omega)]
    congr <;> exact hbyte (by omega)

/-- Only the character zero has a zero byte. -/
theorem Sequence.zero_not_mem {bytes : List UInt8} {n : Nat} (h : Sequence bytes n)
    (hnonzero : n ≠ 0) : 0 ∉ bytes := by
  have hzero {b : UInt8} (h : 0 = b) : b.toNat = 0 := by rw [← h]; rfl
  intro hmem
  cases h with
  | one hsmall hnumber =>
    simp only [List.mem_cons, List.not_mem_nil, or_false] at hmem
    have := hzero hmem
    omega
  | two hlow hhigh htail hnumber =>
    rw [isTail_iff] at htail
    simp only [List.mem_cons, List.not_mem_nil, or_false] at hmem
    rcases hmem with hmem | hmem <;> have := hzero hmem <;> omega
  | three hlow hhigh hsecond htail hnumber =>
    rw [isSecond_iff] at hsecond
    rw [isTail_iff] at htail
    simp only [List.mem_cons, List.not_mem_nil, or_false] at hmem
    rcases hmem with hmem | hmem | hmem <;> have := hzero hmem <;> omega
  | four hlow hhigh hsecond htail hlast hnumber =>
    rw [isSecond_iff] at hsecond
    rw [isTail_iff] at htail hlast
    simp only [List.mem_cons, List.not_mem_nil, or_false] at hmem
    rcases hmem with hmem | hmem | hmem | hmem <;> have := hzero hmem <;> omega

theorem utf8_cons (c : Char) (cs : List Char) :
    utf8 (c :: cs) = String.utf8EncodeChar c ++ utf8 cs := rfl

theorem utf8_append (cs cs' : List Char) : utf8 (cs ++ cs') = utf8 cs ++ utf8 cs' :=
  List.flatMap_append

theorem zero_not_mem_utf8 {cs : List Char} (h : ∀ c ∈ cs, c.toNat ≠ 0) : 0 ∉ utf8 cs := by
  unfold utf8
  rw [List.mem_flatMap]
  rintro ⟨c, hc, hmem⟩
  exact (sequence_utf8EncodeChar c).zero_not_mem (h c hc) hmem

theorem decodeRuns_nil : decodeRuns [] = [] := by
  rw [decodeRuns]
  rfl

theorem decodeRuns_of_nextChar {bytes rest : List UInt8} {c : Option Char}
    (h : nextChar bytes = some (c, rest)) : decodeRuns bytes = c :: decodeRuns rest := by
  rw [decodeRuns]
  split
  · simp_all
  · simp_all

theorem nextChar_utf8_cons (c : Char) (cs : List Char) (rest : List UInt8) :
    nextChar (utf8 (c :: cs) ++ rest) = some (some c, utf8 cs ++ rest) := by
  have h := (sequence_utf8EncodeChar c).nextChar (utf8 cs ++ rest)
  rwa [Char.ofNat_toNat, ← List.append_assoc, ← utf8_cons] at h

theorem decodeRuns_utf8_append (cs : List Char) (rest : List UInt8) :
    decodeRuns (utf8 cs ++ rest) = cs.map some ++ decodeRuns rest := by
  induction cs with
  | nil => rfl
  | cons c cs ih =>
    rw [decodeRuns_of_nextChar (nextChar_utf8_cons c cs rest), ih]
    rfl

theorem mapM_id_eq_some_iff {α : Type} {os : List (Option α)} {as : List α} :
    os.mapM id = some as ↔ os = as.map some := by
  induction os generalizing as with
  | nil => cases as <;> simp
  | cons o os ih =>
    cases o with
    | none => cases as <;> simp
    | some a => cases as <;> simp [Option.bind_eq_some_iff, ih, and_left_comm]

theorem decodeUtf8?_eq_some_iff {bytes : List UInt8} {cs : List Char} :
    decodeUtf8? bytes = some cs ↔ decodeRuns bytes = cs.map some := mapM_id_eq_some_iff

theorem decodeUtf8?_utf8 (cs : List Char) : decodeUtf8? (utf8 cs) = some cs := by
  have h := decodeRuns_utf8_append cs []
  rw [decodeRuns_nil, List.append_nil, List.append_nil] at h
  exact decodeUtf8?_eq_some_iff.2 h

theorem eq_nil_of_nextChar {bytes : List UInt8} (h : nextChar bytes = none) : bytes = [] := by
  unfold nextChar at h
  repeat' split at h
  all_goals simp_all

theorem eq_utf8_of_decodeUtf8? {bytes : List UInt8} {cs : List Char}
    (h : decodeUtf8? bytes = some cs) : bytes = utf8 cs := by
  rw [decodeUtf8?_eq_some_iff] at h
  induction cs generalizing bytes with
  | nil =>
    cases hnext : nextChar bytes with
    | none => exact eq_nil_of_nextChar hnext
    | some p =>
      rw [decodeRuns_of_nextChar hnext] at h
      simp at h
  | cons c cs ih =>
    cases hnext : nextChar bytes with
    | none =>
      rw [eq_nil_of_nextChar hnext, decodeRuns_nil] at h
      simp at h
    | some p =>
      obtain ⟨o, rest⟩ := p
      rw [decodeRuns_of_nextChar hnext] at h
      obtain ⟨rfl, htail⟩ := List.cons.inj h
      obtain ⟨seq, n, rfl, hsequence, rfl⟩ := sequence_of_nextChar hnext
      rw [hsequence.eq_utf8EncodeChar, ih htail]
      rfl

/-- The bytes of one text begin with those of another only if the texts do so. -/
theorem of_utf8_append {front cs : List Char} {rest : List UInt8}
    (h : utf8 front ++ rest = utf8 cs) : ∃ back, cs = front ++ back := by
  induction front generalizing cs with
  | nil => exact ⟨cs, rfl⟩
  | cons c front ih =>
    have hnext := nextChar_utf8_cons c front rest
    cases cs with
    | nil =>
      rw [h] at hnext
      simp [utf8, nextChar] at hnext
    | cons d cs =>
      have hother := nextChar_utf8_cons d cs []
      rw [List.append_nil, List.append_nil, ← h, hnext] at hother
      simp only [Option.some.injEq, Prod.mk.injEq] at hother
      obtain ⟨rfl, htail⟩ := hother
      obtain ⟨back, rfl⟩ := ih htail
      exact ⟨back, rfl⟩

end PlotMiner.Text
