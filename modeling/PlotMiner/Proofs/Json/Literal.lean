import Mathlib.Tactic.SplitIfs
import PlotMiner.Json.Document
import PlotMiner.Json.Printer

/-!
# Literals in both directions

A string literal is scanned into one piece for each character of the string, and an integer literal
into its digits, whatever follows them that does not go on with the literal. Both mean what they
were written for.
-/

namespace PlotMiner.Json

def withPiece (p : Piece) (scanned : List Piece × List Char) : List Piece × List Char :=
  (p :: scanned.1, scanned.2)

theorem scanString_plain {c : Char} (hvisible : ¬ c.toNat < 0x20) (hquote : c ≠ '"')
    (hslash : c ≠ '\\') (rest : List Char) :
    scanString (c :: rest) = (scanString rest).map (withPiece (.char c)) := by
  rw [scanString.eq_def]
  split
  case h_5 =>
    rename_i hsame
    obtain ⟨rfl, rfl⟩ := List.cons.inj hsame
    rw [if_neg (by simp [hvisible, hslash])]
    cases scanString _ <;> rfl
  all_goals simp_all

theorem scanString_simple {e c : Char} (h : simpleEscape? e = some c) (rest : List Char) :
    scanString ('\\' :: e :: rest) = (scanString rest).map (withPiece (.char c)) := by
  have hother : e ≠ 'u' := by
    rintro rfl
    simp [simpleEscape?] at h
  rw [scanString.eq_def]
  split
  case h_4 =>
    rename_i hsame
    simp only [List.cons.injEq, true_and] at hsame
    obtain ⟨rfl, rfl⟩ := hsame
    rw [h]
    cases scanString _ <;> rfl
  case h_5 =>
    rename_i hnoEscape hsame
    obtain ⟨rfl, rfl⟩ := List.cons.inj hsame
    exact absurd rfl (hnoEscape e rest rfl)
  all_goals simp_all

theorem scanString_unit {a b c d : Char} {n : Nat} (h : codeUnit? a b c d = some n)
    (rest : List Char) :
    scanString ('\\' :: 'u' :: a :: b :: c :: d :: rest) =
      (scanString rest).map (withPiece (.codeUnit n)) := by
  rw [scanString, h]
  cases scanString rest <;> rfl

def pieceOf (c : Char) : Piece :=
  if c.toNat < 0x20 ∧ c ∉ ['\x08', '\x0c', '\n', '\r', '\t'] then .codeUnit c.toNat else .char c

def piecesOf (s : String) : List Piece := s.toList.map pieceOf

theorem codeUnit?_hexDigit {n : Nat} (h : n < 0x20) :
    codeUnit? '0' '0' (hexDigit (n / 16)) (hexDigit (n % 16)) = some n := by
  have hall : ∀ n < 0x20,
      codeUnit? '0' '0' (hexDigit (n / 16)) (hexDigit (n % 16)) = some n := by decide
  exact hall n h

theorem scanString_escape (c : Char) (rest : List Char) :
    scanString (escape c ++ rest) = (scanString rest).map (withPiece (pieceOf c)) := by
  unfold escape
  split_ifs with hquote hslash hbackspace hfeed hline hreturn htab hcontrol
  · subst hquote
    exact scanString_simple rfl rest
  · subst hslash
    exact scanString_simple rfl rest
  · subst hbackspace
    exact scanString_simple rfl rest
  · subst hfeed
    exact scanString_simple rfl rest
  · subst hline
    exact scanString_simple rfl rest
  · subst hreturn
    exact scanString_simple rfl rest
  · subst htab
    exact scanString_simple rfl rest
  · have hpiece : pieceOf c = .codeUnit c.toNat := by
      rw [pieceOf, if_pos]
      simp [hcontrol, hbackspace, hfeed, hline, hreturn, htab]
    rw [hpiece]
    exact scanString_unit (codeUnit?_hexDigit hcontrol) rest
  · have hpiece : pieceOf c = .char c := by simp [pieceOf, hcontrol]
    rw [hpiece]
    exact scanString_plain hcontrol hquote hslash rest

theorem scanString_flatMap_escape (cs rest : List Char) :
    scanString (cs.flatMap escape ++ '"' :: rest) = some (cs.map pieceOf, rest) := by
  induction cs with
  | nil => simp [scanString]
  | cons c cs ih =>
    rw [List.flatMap_cons, List.append_assoc, scanString_escape, ih]
    rfl

theorem nextToken_stringLiteral (s : String) (rest : List Char) :
    nextToken (stringLiteral s ++ rest) = some (.string (piecesOf s), rest) := by
  rw [stringLiteral, List.cons_append, List.append_assoc, nextToken]
  rw [List.cons_append, List.nil_append, scanString_flatMap_escape]
  rfl

theorem chars_cons_pieceOf (c : Char) (rest : List Piece) :
    Piece.chars (pieceOf c :: rest) = (c :: ·) <$> Piece.chars rest := by
  unfold pieceOf
  split_ifs with hcontrol
  · rw [Piece.chars.eq_def]
    simp only
    rw [if_neg (by omega), if_pos (by omega), Char.ofNat_toNat]
    rfl
  · rw [Piece.chars]
    rfl

theorem chars_map_pieceOf (cs : List Char) : Piece.chars (cs.map pieceOf) = .ok cs := by
  induction cs with
  | nil => rfl
  | cons c cs ih =>
    rw [List.map_cons, chars_cons_pieceOf, ih]
    rfl

theorem stringOf_piecesOf (s : String) : stringOf (piecesOf s) = .ok s := by
  rw [stringOf, piecesOf, chars_map_pieceOf]
  change Except.ok (String.ofList s.toList) = _
  rw [String.ofList_toList]

/-- What may follow a number: nothing that goes on with it. -/
def EndsNumber : List Char → Prop
  | [] => True
  | c :: _ => c.isDigit = false ∧ c ≠ '.' ∧ c ≠ 'e' ∧ c ≠ 'E'

theorem EndsNumber.takeWhile {rest : List Char} (h : EndsNumber rest) :
    rest.takeWhile Char.isDigit = [] := by
  cases rest with
  | nil => rfl
  | cons c rest => rw [List.takeWhile_cons, h.1]; rfl

theorem EndsNumber.dropWhile {rest : List Char} (h : EndsNumber rest) :
    rest.dropWhile Char.isDigit = rest := by
  cases rest with
  | nil => rfl
  | cons c rest => rw [List.dropWhile_cons, h.1]; rfl

theorem EndsNumber.scanFraction {rest : List Char} (h : EndsNumber rest) :
    scanFraction rest = some ([], rest) := by
  unfold Json.scanFraction
  split
  · exact absurd rfl h.2.1
  · rfl

theorem EndsNumber.scanExponent {rest : List Char} (h : EndsNumber rest) :
    scanExponent rest = some (none, rest) := by
  cases rest with
  | nil => rfl
  | cons c rest =>
    unfold Json.scanExponent
    exact if_neg (by simp [h.2.2])

def digitsOf (n : Nat) : List Nat := (natDigits n).map digitOf

theorem natDigits_step {n : Nat} (h : 10 ≤ n) :
    natDigits n = natDigits (n / 10) ++ [(n % 10).digitChar] :=
  Nat.toDigits_of_base_le (by decide) h

theorem digitOf_digitChar {n : Nat} (h : n < 10) : digitOf n.digitChar = n :=
  Nat.toNat_digitChar_sub_48_of_lt_ten h

theorem digitsOf_small {n : Nat} (h : n < 10) : digitsOf n = [n] := by
  rw [digitsOf, natDigits, Nat.toDigits_of_lt_base h, List.map_singleton, digitOf_digitChar h]

theorem digitsOf_step {n : Nat} (h : 10 ≤ n) : digitsOf n = digitsOf (n / 10) ++ [n % 10] := by
  rw [digitsOf, natDigits_step h, List.map_append, List.map_singleton,
    digitOf_digitChar (Nat.mod_lt _ (by decide))]
  rfl

theorem natOfDigits_digitsOf (n : Nat) : natOfDigits (digitsOf n) = n := by
  induction n using Nat.strongRecOn with
  | ind n ih =>
    by_cases hsmall : n < 10
    · rw [digitsOf_small hsmall]
      simp [natOfDigits]
    · have hprior : natOfDigits (digitsOf (n / 10)) = n / 10 := ih (n / 10) (by omega)
      unfold natOfDigits at hprior ⊢
      rw [digitsOf_step (by omega), List.foldl_append, hprior]
      simp only [List.foldl_cons, List.foldl_nil]
      omega

theorem digitsOf_ne_zero_cons (n d : Nat) (ds : List Nat) : digitsOf n ≠ 0 :: d :: ds := by
  induction n using Nat.strongRecOn generalizing d ds with
  | ind n ih =>
    by_cases hsmall : n < 10
    · rw [digitsOf_small hsmall]
      simp
    · rw [digitsOf_step (by omega)]
      intro hsame
      cases hprior : digitsOf (n / 10) with
      | nil =>
        rw [hprior] at hsame
        simp at hsame
      | cons e es =>
        cases es with
        | nil =>
          -- a single leading digit is the number itself
          have hvalue := natOfDigits_digitsOf (n / 10)
          rw [hprior] at hsame hvalue
          simp only [List.cons_append, List.nil_append, List.cons.injEq] at hsame
          obtain ⟨rfl, -⟩ := hsame
          simp only [natOfDigits, List.foldl_cons, List.foldl_nil] at hvalue
          omega
        | cons e' es' =>
          rw [hprior] at hsame
          simp only [List.cons_append, List.cons.injEq] at hsame
          exact ih (n / 10) (by omega) e' es' (by rw [hprior, hsame.1])

theorem isDigit_of_mem_natDigits {n : Nat} {c : Char} (h : c ∈ natDigits n) : c.isDigit = true :=
  Nat.isDigit_of_mem_toDigits (by decide) (by decide) h

theorem scanDigits_natDigits (n : Nat) {rest : List Char} (hends : EndsNumber rest) :
    scanDigits (natDigits n ++ rest) = (digitsOf n, rest) := by
  have hall : ∀ c ∈ natDigits n, c.isDigit = true := fun c => isDigit_of_mem_natDigits
  rw [scanDigits, List.takeWhile_append_of_pos hall, List.dropWhile_append_of_pos hall,
    hends.takeWhile, hends.dropWhile, List.append_nil]
  rfl

theorem scanInteger_natDigits (n : Nat) {rest : List Char} (hends : EndsNumber rest) :
    scanInteger (natDigits n ++ rest) = some (digitsOf n, rest) := by
  have hsome_digits : scanDigits1 (natDigits n ++ rest) = some (digitsOf n, rest) := by
    rw [scanDigits1, scanDigits_natDigits n hends]
    split
    case h_1 hnone =>
      have hempty : digitsOf n = [] := (Prod.mk.inj hnone).1
      exact absurd (List.map_eq_nil_iff.1 hempty) Nat.toDigits_ne_nil
    case h_2 hsame =>
      rw [hsame]
  rw [scanInteger, hsome_digits]
  split
  case h_1 hzero =>
    exact absurd (Prod.mk.inj (Option.some.inj hzero)).1 (digitsOf_ne_zero_cons n _ _)
  case h_2 => rfl

def numeralOf (n : Int) : Numeral := ⟨n < 0, digitsOf n.natAbs, [], none⟩

theorem scanNumeral_natDigits (negative : Bool) (n : Nat) {rest : List Char}
    (hends : EndsNumber rest) :
    scanNumeral negative (natDigits n ++ rest) = some (⟨negative, digitsOf n, [], none⟩, rest) := by
  rw [scanNumeral, scanInteger_natDigits n hends]
  simp only [Option.bind_eq_bind, Option.bind_some, hends.scanFraction, hends.scanExponent]
  rfl

theorem nextToken_digit {c : Char} (h : c.isDigit = true) (rest : List Char) :
    nextToken (c :: rest) =
      (scanNumeral false (c :: rest)).map fun (l, after) => (.number l, after) := by
  unfold nextToken
  split
  case h_12 => rfl
  all_goals
    rename_i hsame
    obtain ⟨rfl, -⟩ := List.cons.inj hsame
    exact absurd h (by decide)

theorem nextToken_intLiteral (n : Int) {rest : List Char} (hends : EndsNumber rest) :
    nextToken (intLiteral n ++ rest) = some (.number (numeralOf n), rest) := by
  unfold intLiteral numeralOf
  split_ifs with hnegative
  · rw [List.cons_append, nextToken, scanNumeral_natDigits true _ hends]
    simp [hnegative]
  · cases hdigits : natDigits n.natAbs with
    | nil => exact absurd hdigits Nat.toDigits_ne_nil
    | cons c cs =>
      have hdigit : c.isDigit = true := isDigit_of_mem_natDigits (hdigits ▸ List.mem_cons_self)
      rw [List.cons_append, nextToken_digit hdigit, ← List.cons_append, ← hdigits,
        scanNumeral_natDigits false _ hends]
      simp [hnegative]

def InRange (n : Int) : Prop := -(1 <<< 63 : Nat) ≤ n ∧ n < (UInt64.size : Nat)

theorem value_numeralOf {n : Int} (h : InRange n) : (numeralOf n).value = .ok (.int n) := by
  obtain ⟨hlow, hhigh⟩ := h
  have hsize : UInt64.size = 18446744073709551616 := rfl
  have hleast : (1 <<< 63 : Nat) = 9223372036854775808 := rfl
  rw [hsize] at hhigh
  rw [hleast] at hlow
  unfold Numeral.value numeralOf
  simp only [natOfDigits_digitsOf, List.isEmpty_nil, Option.isNone_none, hsize]
  rw [if_pos ⟨trivial, trivial, by omega⟩]
  by_cases hnegative : n < 0
  · rw [if_neg (by simp [hnegative]), if_neg (by omega)]
    congr 3
    omega
  · rw [if_pos (by simp [hnegative])]
    congr 3
    omega

end PlotMiner.Json
