import PlotMiner.Bytes.Reading
import PlotMiner.Proofs.Text.Strip
import PlotMiner.Proofs.Text.Utf8

/-!
# What hexadecimal texts stand for

A hex text is a row of digits of either case, two for each byte, with at most one mark `0x` in front
of them and white space around both (`Hex.Spells`). The reader takes such a text for the bytes that
its digits stand for and refuses every other text (`Hex.decode_eq_ok_iff`); where a length is fixed,
so is the number of bytes. The text that shows some bytes is one of theirs, and so are the texts
made from it by upper case, a mark and white space (`Hex.Restyled.spells`).
-/

namespace PlotMiner

open Text

variable {c : Char} {n : Nat} {cs : List Char} {bytes : List UInt8} {text : String}

namespace Hex

def lowerDigits : List Char :=
  ['0', '1', '2', '3', '4', '5', '6', '7', '8', '9', 'a', 'b', 'c', 'd', 'e', 'f']

def upperDigits : List Char :=
  ['0', '1', '2', '3', '4', '5', '6', '7', '8', '9', 'A', 'B', 'C', 'D', 'E', 'F']

/-- A digit of either case, with its value: the place it has among the digits. -/
def IsDigit (c : Char) (n : Nat) : Prop := lowerDigits[n]? = some c ∨ upperDigits[n]? = some c

instance : Decidable (IsDigit c n) := inferInstanceAs (Decidable (_ ∨ _))

structure Legible (c : Char) (n : Nat) : Prop where
  bytes : String.utf8EncodeChar c = [UInt8.ofNat c.toNat]
  value : digitValue? (UInt8.ofNat c.toNat) = some n
  solid : isBlank c = false
  noMark : c ≠ 'x'

theorem IsDigit.legible (h : IsDigit c n) : Legible c n := by
  have hall : ∀ d ∈ lowerDigits.zipIdx ++ upperDigits.zipIdx,
      String.utf8EncodeChar d.1 = [UInt8.ofNat d.1.toNat] ∧
        digitValue? (UInt8.ofNat d.1.toNat) = some d.2 ∧ isBlank d.1 = false ∧ d.1 ≠ 'x' := by
    decide
  have hmem : (c, n) ∈ lowerDigits.zipIdx ++ upperDigits.zipIdx := by
    rw [List.mem_append, List.mk_mem_zipIdx_iff_getElem?, List.mk_mem_zipIdx_iff_getElem?]
    exact h
  obtain ⟨hbytes, hvalue, hsolid, hnoMark⟩ := hall (c, n) hmem
  exact ⟨hbytes, hvalue, hsolid, hnoMark⟩

theorem isDigit_of_digitValue? {b : UInt8} (h : digitValue? b = some n) :
    b.toNat < 0x80 ∧ IsDigit (Char.ofNat b.toNat) n := by
  have hall : ∀ k < 256, ∀ n ∈ digitValue? (UInt8.ofNat k),
      k < 0x80 ∧ IsDigit (Char.ofNat k) n := by
    decide +kernel
  apply hall b.toNat b.toNat_lt n
  rw [UInt8.ofNat_toNat]
  exact h

theorem isDigit_digit : ∀ n < 16, IsDigit (digit n) n := by decide

theorem isDigit_toUpper_digit : ∀ n < 16, IsDigit (digit n).toUpper n := by decide

/-- The bytes that a row of digits stands for: two digits for each byte, the high one first. -/
inductive Denotes : List Char → List UInt8 → Prop
  | nil : Denotes [] []
  | cons {a b cs high low bytes} (hfirst : IsDigit a high) (hsecond : IsDigit b low)
      (hrest : Denotes cs bytes) : Denotes (a :: b :: cs) (UInt8.ofNat (high * 16 + low) :: bytes)

theorem Denotes.isDigit (h : Denotes cs bytes) : ∀ c ∈ cs, ∃ n, IsDigit c n := by
  induction h with
  | nil => exact List.forall_mem_nil _
  | cons hfirst hsecond hrest ih =>
    simp only [List.forall_mem_cons]
    exact ⟨⟨_, hfirst⟩, ⟨_, hsecond⟩, ih⟩

theorem exists_denotes_iff :
    (∃ bytes, Denotes cs bytes) ↔ cs.length % 2 = 0 ∧ ∀ c ∈ cs, ∃ n, IsDigit c n := by
  constructor
  · rintro ⟨bytes, h⟩
    refine ⟨?_, h.isDigit⟩
    induction h with
    | nil => rfl
    | cons hfirst hsecond hrest ih =>
      rw [List.length_cons, List.length_cons]
      omega
  · rintro ⟨heven, hdigits⟩
    -- Two digits at a time, as there is a byte for each two.
    induction cs using List.twoStepInduction with
    | nil => exact ⟨[], .nil⟩
    | singleton c => cases heven
    | cons_cons a b cs ih =>
      obtain ⟨⟨high, hfirst⟩, ⟨low, hsecond⟩, hdigits⟩ := by
        simpa only [List.forall_mem_cons] using hdigits
      simp only [List.length_cons] at heven
      obtain ⟨bytes, hrest⟩ := ih (by omega) hdigits
      exact ⟨_, .cons hfirst hsecond hrest⟩

theorem Denotes.length_utf8 (h : Denotes cs bytes) : (utf8 cs).length = 2 * bytes.length := by
  induction h with
  | nil => rfl
  | cons hfirst hsecond hrest ih =>
    rw [utf8_cons, utf8_cons, hfirst.legible.bytes, hsecond.legible.bytes]
    simp only [List.length_append, List.length_cons, List.length_nil, ih]
    omega

theorem Denotes.decodePairs (h : Denotes cs bytes) (position : Nat) :
    decodePairs position (utf8 cs) = .ok bytes := by
  induction h generalizing position with
  | nil => rfl
  | cons hfirst hsecond hrest ih =>
    rw [utf8_cons, utf8_cons, hfirst.legible.bytes, hsecond.legible.bytes]
    simp only [List.singleton_append, Hex.decodePairs, hfirst.legible.value, hsecond.legible.value,
      ih]
    rfl

theorem exists_of_utf8_cons {a : UInt8} {rest : List UInt8} (h : utf8 cs = a :: rest)
    (hsmall : a.toNat < 0x80) : ∃ cs', cs = Char.ofNat a.toNat :: cs' ∧ utf8 cs' = rest := by
  cases cs with
  | nil => cases h
  | cons c cs' =>
    rw [utf8_cons] at h
    have hnumber : Char.ofNat c.toNat = c := Char.ofNat_toNat c
    have hsequence := sequence_utf8EncodeChar c
    generalize String.utf8EncodeChar c = front at h hsequence
    generalize c.toNat = k at hnumber hsequence
    cases hsequence with
    | one _ hvalue =>
      obtain ⟨rfl, htail⟩ := List.cons.inj h
      exact ⟨cs', by rw [← hnumber, hvalue], htail⟩
    | two hlarge | three hlarge | four hlarge =>
      obtain ⟨rfl, -⟩ := List.cons.inj h
      omega

theorem denotes_of_decodePairs {position : Nat} (h : decodePairs position (utf8 cs) = .ok bytes) :
    Denotes cs bytes := by
  generalize hrow : utf8 cs = units at h
  fun_induction Hex.decodePairs position units generalizing cs bytes with
  | case1 =>
    cases h
    cases cs with
    | nil => exact .nil
    | cons c cs =>
      rw [utf8_cons] at hrow
      exact absurd (List.append_eq_nil_iff.1 hrow).1 (String.utf8EncodeChar_ne_nil)
  | case2 | case3 | case4 => cases h
  | case5 position a b rest high hvalue low hvalue' ih =>
    obtain ⟨hsmall, hfirst⟩ := isDigit_of_digitValue? hvalue
    obtain ⟨hsmall', hsecond⟩ := isDigit_of_digitValue? hvalue'
    obtain ⟨cs', rfl, hbehind⟩ := exists_of_utf8_cons hrow hsmall
    obtain ⟨cs'', rfl, htail⟩ := exists_of_utf8_cons hbehind hsmall'
    cases hread : Hex.decodePairs (position + 2) rest with
    | error e =>
      rw [hread] at h
      cases h
    | ok later =>
      rw [hread] at h
      cases h
      exact .cons hfirst hsecond (ih htail hread)

theorem decodeDigits_eq_ok_iff : decodeDigits cs = .ok bytes ↔ Denotes cs bytes := by
  constructor
  · intro h
    simp only [decodeDigits] at h
    split at h
    · cases h
    · exact denotes_of_decodePairs h
  · intro h
    have heven : (utf8 cs).length % 2 ≠ 1 := by
      rw [h.length_utf8]
      omega
    simp only [decodeDigits, if_neg heven]
    exact h.decodePairs 0

/-- A text that shows bytes: their digits, perhaps with the mark in front, and white space around
both. -/
inductive Spells (text : String) (bytes : List UInt8) : Prop
  | intro (left mark digits right : List Char)
      (hwhole : text.toList = left ++ ((mark ++ digits) ++ right))
      (hleft_blank : ∀ c ∈ left, isBlank c = true) (hright_blank : ∀ c ∈ right, isBlank c = true)
      (hmark_eq : mark = [] ∨ mark = ['0', 'x']) (hshown : Denotes digits bytes)

theorem Denotes.solid (h : Denotes cs bytes) : ∀ c ∈ cs, isBlank c = false := by
  intro c hmem
  obtain ⟨n, hdigit⟩ := h.isDigit c hmem
  exact hdigit.legible.solid

theorem exists_mark (cs : List Char) :
    ∃ mark, cs = mark ++ dropMark cs ∧ (mark = [] ∨ mark = ['0', 'x']) := by
  unfold dropMark
  split
  case h_1 rest => exact ⟨['0', 'x'], rfl, .inr rfl⟩
  case h_2 => exact ⟨[], rfl, .inl rfl⟩

/-- A mark is dropped once, for what follows it are digits. -/
theorem Denotes.dropMark (h : Denotes cs bytes) {mark : List Char}
    (hmark_eq : mark = [] ∨ mark = ['0', 'x']) : dropMark (mark ++ cs) = cs := by
  rcases hmark_eq with rfl | rfl
  case inr => rfl
  rw [List.nil_append]
  unfold Hex.dropMark
  split
  case h_1 rest =>
    obtain ⟨n, hdigit⟩ := h.isDigit 'x' (by simp)
    exact absurd rfl hdigit.legible.noMark
  case h_2 => rfl

/-- The reader accepts the texts that show bytes and no others. -/
theorem decode_eq_ok_iff : decode text = .ok bytes ↔ Spells text bytes := by
  rw [decode, decodeDigits_eq_ok_iff, trimChars_eq_strip]
  constructor
  · intro hshown
    obtain ⟨left, right, hwhole, hleft_blank, hright_blank⟩ :=
      exists_strip isBlank isBlank text.toList
    obtain ⟨mark, hmarked, hmark_eq⟩ := exists_mark (strip isBlank isBlank text.toList)
    refine .intro left mark _ right ?_ hleft_blank hright_blank hmark_eq hshown
    rw [← hmarked]
    exact hwhole
  · rintro ⟨left, mark, digits, right, hwhole, hleft_blank, hright_blank, hmark_eq, hshown⟩
    have hmark_solid : ∀ c ∈ ['0', 'x'], isBlank c = false :=
      List.forall_mem_cons.2 ⟨rfl, List.forall_mem_singleton.2 rfl⟩
    have hsolid : ∀ c ∈ mark ++ digits, isBlank c = false := by
      intro c hmem
      rcases List.mem_append.1 hmem with hmarked | hmem
      · rcases hmark_eq with rfl | rfl
        · cases hmarked
        · exact hmark_solid c hmarked
      · exact hshown.solid c hmem
    rw [hwhole, strip_append hleft_blank hright_blank, (Stripped.of_forall hsolid hsolid).strip_eq,
      hshown.dropMark hmark_eq]
    exact hshown

end Hex

theorem SizedBytes.ofHex_eq_ok_iff {b : SizedBytes n} :
    ofHex n text = .ok b ↔ Hex.Spells text b.toList := by
  rw [← Hex.decode_eq_ok_iff]
  unfold ofHex
  constructor
  · intro h
    split at h
    case h_1 => cases h
    case h_2 bytes hread =>
      unfold ofListExact at h
      split at h
      case h_1 c hmade =>
        cases h
        rw [hread, toList_of_ofList? hmade]
      case h_2 => cases h
  · intro hread
    rw [hread]
    simp only [ofListExact, ofList?_toList]

theorem Blob.ofHex_eq_ok_iff {b : Blob} :
    ofHex text = .ok b ↔ Hex.Spells text b.toList := by
  rw [← Hex.decode_eq_ok_iff]
  unfold ofHex
  cases Hex.decode text with
  | error e => exact iff_of_false nofun nofun
  | ok bytes =>
    obtain ⟨shown⟩ := b
    simp only [Except.ok.injEq, Blob.mk.injEq]

namespace Hex

/-- Other ways to write a text that is shown: in upper case, with a mark in front, with white space
around it, or with none of these. -/
inductive Restyled (shown : String) : String → Prop
  | intro {left mark digits right : String}
      (hleft_blank : ∀ c ∈ left.toList, isBlank c = true)
      (hright_blank : ∀ c ∈ right.toList, isBlank c = true)
      (hmark_eq : mark = "" ∨ mark = "0x") (hdigits_eq : digits = shown ∨ digits = shown.toUpper) :
      Restyled shown (left ++ mark ++ digits ++ right)

theorem denotes_map_encodeChars {f : Char → Char} (hkeeps : ∀ n < 16, IsDigit (f (digit n)) n)
    (bytes : List UInt8) : Denotes ((encodeChars bytes).map f) bytes := by
  induction bytes with
  | nil => exact .nil
  | cons b bytes ih =>
    have hrange := b.toNat_lt
    have hhigh : b.toNat / 16 < 16 := by omega
    have hlow : b.toNat % 16 < 16 := by omega
    have hwhole : UInt8.ofNat (b.toNat / 16 * 16 + b.toNat % 16) = b := by
      rw [Nat.div_add_mod', UInt8.ofNat_toNat]
    have hboth := Denotes.cons (hkeeps _ hhigh) (hkeeps _ hlow) ih
    rw [hwhole] at hboth
    exact hboth

theorem Restyled.spells (h : Restyled (encode bytes) text) : Spells text bytes := by
  cases h with
  | @intro left mark digits right hleft_blank hright_blank hmark_eq hdigits_eq =>
    refine .intro left.toList mark.toList digits.toList right.toList ?_ hleft_blank hright_blank
      ?_ ?_
    · simp only [String.toList_append, List.append_assoc]
    · rcases hmark_eq with rfl | rfl
      · exact .inl rfl
      · exact .inr rfl
    · rcases hdigits_eq with rfl | rfl
      · simpa [encode] using denotes_map_encodeChars (f := id) isDigit_digit bytes
      · rw [encode, String.toUpper, String.toList_map, String.toList_ofList]
        exact denotes_map_encodeChars isDigit_toUpper_digit bytes

theorem restyled_self (shown : String) : Restyled shown shown := by
  have hplain : Restyled shown ("" ++ "" ++ shown ++ "") :=
    .intro (by simp) (by simp) (.inl rfl) (.inl rfl)
  simpa using hplain

end Hex

theorem SizedBytes.ofHex_toHex (b : SizedBytes n) : ofHex n b.toHex = .ok b :=
  ofHex_eq_ok_iff.2 (Hex.restyled_self b.toHex).spells

theorem Blob.ofHex_toHex (b : Blob) : ofHex b.toHex = .ok b :=
  ofHex_eq_ok_iff.2 (Hex.restyled_self b.toHex).spells

namespace Hex

/-- The core of a text is what is left of it without the white space at both ends and without one
mark. A text is read exactly if its core is an even number of digits, and it is read as the bytes
that these stand for; where a length is fixed, there have to be as many bytes. The text that shows
some bytes is read as these bytes, and so it is in upper case, with a mark and with white space. -/
theorem reads_spelled :
    (∀ text : String, let core := dropMark (trimChars text.toList)
      ((∃ bytes, decode text = .ok bytes) ↔
        core.length % 2 = 0 ∧ ∀ c ∈ core, ∃ n, IsDigit c n) ∧
      ∀ bytes, decode text = .ok bytes ↔ Denotes core bytes) ∧
    (∀ text bytes, decode text = .ok bytes ↔ Spells text bytes) ∧
    (∀ n text bytes, (∃ b : SizedBytes n, SizedBytes.ofHex n text = .ok b ∧ b.toList = bytes) ↔
      Spells text bytes ∧ bytes.length = n) ∧
    (∀ text bytes, Blob.ofHex text = .ok ⟨bytes⟩ ↔ Spells text bytes) ∧
    (∀ n (b : SizedBytes n) text, Restyled b.toHex text → SizedBytes.ofHex n text = .ok b) ∧
    (∀ (b : Blob) text, Restyled b.toHex text → Blob.ofHex text = .ok b) := by
  refine ⟨?_, ?_, ?_, ?_, ?_, ?_⟩
  · intro text core
    have hread (bytes : List UInt8) : decode text = .ok bytes ↔ Denotes core bytes :=
      decodeDigits_eq_ok_iff
    refine ⟨?_, hread⟩
    rw [exists_congr hread]
    exact exists_denotes_iff
  · intro text bytes
    exact decode_eq_ok_iff
  · intro n text bytes
    constructor
    · rintro ⟨b, hread, rfl⟩
      exact ⟨SizedBytes.ofHex_eq_ok_iff.1 hread, b.length_eq⟩
    · rintro ⟨hspelled, hlength⟩
      exact ⟨⟨bytes, hlength⟩, SizedBytes.ofHex_eq_ok_iff.2 hspelled, rfl⟩
  · intro text bytes
    exact Blob.ofHex_eq_ok_iff
  · intro n b text hrestyled
    exact SizedBytes.ofHex_eq_ok_iff.2 hrestyled.spells
  · intro b text hrestyled
    exact Blob.ofHex_eq_ok_iff.2 hrestyled.spells

/-- A hash in upper case, with a mark, a space and a line feed. -/
theorem reads_spelled_upper_case :
    let b : Bytes32 := .ofNat 32 0xC0FFEE
    let text := " " ++ "0x" ++ b.toHex.toUpper ++ "\n"
    Restyled b.toHex text ∧ SizedBytes.ofHex 32 text = .ok b := by
  intro b text
  have hrestyled : Restyled b.toHex text :=
    .intro (List.all_eq_true.1 (by decide)) (List.all_eq_true.1 (by decide)) (.inr rfl) (.inr rfl)
  obtain ⟨-, -, -, -, hsized, -⟩ := reads_spelled
  exact ⟨hrestyled, hsized 32 b text hrestyled⟩

end Hex

end PlotMiner
