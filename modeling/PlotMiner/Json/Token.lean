import PlotMiner.Json.Literal

/-!
# Tokens of a JSON text

A text is cut into brackets, marks, names and literals; white space between them is dropped. Raw
control characters may not stand in a string literal, and a `\u` escape needs four hex digits, but
whether the literals mean anything is not looked at.
-/

namespace PlotMiner.Json

inductive Token where
  | arrayStart
  | arrayEnd
  | objectStart
  | objectEnd
  | comma
  | colon
  | null
  | bool (b : Bool)
  | number (l : Numeral)
  | string (pieces : List Piece)
deriving DecidableEq

/-- White space between tokens: space, tab, line feed and carriage return. -/
def isSpace (c : Char) : Bool := c = ' ' || c = '\t' || c = '\n' || c = '\r'

def digitOf (c : Char) : Nat := c.toNat - 0x30

def hexDigit? (c : Char) : Option Nat :=
  if c.isDigit then some (c.toNat - 0x30)
  else if 'a' ≤ c ∧ c ≤ 'f' then some (c.toNat - 0x57)
  else if 'A' ≤ c ∧ c ≤ 'F' then some (c.toNat - 0x37)
  else none

/-- The code unit that four hex digits name. -/
def codeUnit? (a b c d : Char) : Option Nat := do
  return (← hexDigit? a) * 4096 + (← hexDigit? b) * 256 + (← hexDigit? c) * 16 + (← hexDigit? d)

/-- The character that an escape other than `\u` stands for. -/
def simpleEscape? (c : Char) : Option Char :=
  match c with
  | '"' => some '"'
  | '\\' => some '\\'
  | '/' => some '/'
  | 'b' => some '\x08'
  | 'f' => some '\x0c'
  | 'n' => some '\n'
  | 'r' => some '\r'
  | 't' => some '\t'
  | _ => none

/-- The pieces of a string literal whose opening quote has been read, and the text after the closing
quote. -/
def scanString : List Char → Option (List Piece × List Char)
  | [] => none
  | '"' :: rest => some ([], rest)
  | '\\' :: 'u' :: a :: b :: c :: d :: rest => do
    let n ← codeUnit? a b c d
    let (pieces, rest') ← scanString rest
    return (.codeUnit n :: pieces, rest')
  | '\\' :: e :: rest => do
    let c ← simpleEscape? e
    let (pieces, rest') ← scanString rest
    return (.char c :: pieces, rest')
  | c :: rest =>
    if c.toNat < 0x20 ∨ c = '\\' then none
    else do
      let (pieces, rest') ← scanString rest
      return (.char c :: pieces, rest')

def scanDigits (cs : List Char) : List Nat × List Char :=
  ((cs.takeWhile Char.isDigit).map digitOf, cs.dropWhile Char.isDigit)

def scanDigits1 (cs : List Char) : Option (List Nat × List Char) :=
  match scanDigits cs with
  | ([], _) => none
  | (digits, rest) => some (digits, rest)

/-- The integer part of a number: it has no leading zero unless it is zero. -/
def scanInteger (cs : List Char) : Option (List Nat × List Char) :=
  match scanDigits1 cs with
  | some (0 :: _ :: _, _) => none
  | result => result

/-- The fraction of a number; no digits when there is none. -/
def scanFraction : List Char → Option (List Nat × List Char)
  | '.' :: rest => scanDigits1 rest
  | cs => some ([], cs)

/-- The exponent of a number, if there is one. -/
def scanExponent : List Char → Option (Option (Bool × List Nat) × List Char)
  | c :: rest =>
    if c = 'e' ∨ c = 'E' then
      let (isDown, rest) :=
        match rest with
        | '+' :: rest => (false, rest)
        | '-' :: rest => (true, rest)
        | rest => (false, rest)
      (scanDigits1 rest).map fun (digits, rest) => (some (isDown, digits), rest)
    else some (none, c :: rest)
  | [] => some (none, [])

def scanNumeral (negative : Bool) (cs : List Char) : Option (Numeral × List Char) := do
  let (integer, cs) ← scanInteger cs
  let (fraction, cs) ← scanFraction cs
  let (exponent, cs) ← scanExponent cs
  return (⟨negative, integer, fraction, exponent⟩, cs)

/-- The token that the text starts with, and the text after it. -/
def nextToken : List Char → Option (Token × List Char)
  | '[' :: rest => some (.arrayStart, rest)
  | ']' :: rest => some (.arrayEnd, rest)
  | '\x7b' :: rest => some (.objectStart, rest)
  | '\x7d' :: rest => some (.objectEnd, rest)
  | ',' :: rest => some (.comma, rest)
  | ':' :: rest => some (.colon, rest)
  | 'n' :: 'u' :: 'l' :: 'l' :: rest => some (.null, rest)
  | 't' :: 'r' :: 'u' :: 'e' :: rest => some (.bool true, rest)
  | 'f' :: 'a' :: 'l' :: 's' :: 'e' :: rest => some (.bool false, rest)
  | '"' :: rest => (scanString rest).map fun (pieces, rest) => (.string pieces, rest)
  | '-' :: rest => (scanNumeral true rest).map fun (l, rest) => (.number l, rest)
  | cs => (scanNumeral false cs).map fun (l, rest) => (.number l, rest)

theorem length_le_of_scanString {cs rest : List Char} {pieces : List Piece}
    (h : scanString cs = some (pieces, rest)) : rest.length < cs.length := by
  fun_induction scanString cs generalizing pieces rest <;>
    simp_all [Option.bind_eq_some_iff] <;> grind

theorem length_lt_of_scanDigits1 {cs rest : List Char} {digits : List Nat}
    (h : scanDigits1 cs = some (digits, rest)) : rest.length < cs.length := by
  have hsplit :=
    congrArg List.length (List.takeWhile_append_dropWhile (p := Char.isDigit) (l := cs))
  simp only [scanDigits1, scanDigits] at h
  split at h
  · simp at h
  · rename_i d r hne heq
    simp only [Prod.mk.injEq] at heq
    simp only [Option.some.injEq, Prod.mk.injEq] at h
    obtain ⟨h₁, h₂⟩ := heq
    obtain ⟨-, rfl⟩ := h
    rw [← h₂]
    have : (cs.takeWhile Char.isDigit).length ≠ 0 := by
      intro h0
      apply hne
      have := List.eq_nil_of_length_eq_zero h0
      simp_all
    rw [List.length_append] at hsplit
    omega

theorem length_lt_of_scanInteger {cs rest : List Char} {digits : List Nat}
    (h : scanInteger cs = some (digits, rest)) : rest.length < cs.length := by
  unfold scanInteger at h
  split at h
  · simp at h
  · exact length_lt_of_scanDigits1 h

theorem length_le_of_scanFraction {cs rest : List Char} {digits : List Nat}
    (h : scanFraction cs = some (digits, rest)) : rest.length ≤ cs.length := by
  unfold scanFraction at h
  split at h
  · have := length_lt_of_scanDigits1 h
    simp
    omega
  · simp_all

theorem length_le_of_scanExponent {cs rest : List Char} {e : Option (Bool × List Nat)}
    (h : scanExponent cs = some (e, rest)) : rest.length ≤ cs.length := by
  unfold scanExponent at h
  split at h
  · split at h
    · rename_i c cs' _
      simp only [Option.map_eq_some_iff, Prod.mk.injEq, Prod.exists] at h
      obtain ⟨digits, r, h, -, rfl⟩ := h
      have := length_lt_of_scanDigits1 h
      split at this <;> simp_all <;> omega
    · simp_all
  · simp_all

theorem length_lt_of_scanNumeral {negative : Bool} {cs rest : List Char} {l : Numeral}
    (h : scanNumeral negative cs = some (l, rest)) : rest.length < cs.length := by
  simp only [scanNumeral, Option.bind_eq_bind, Option.bind_eq_some_iff, Prod.exists] at h
  obtain ⟨i, r₁, h₁, f, r₂, h₂, e, r₃, h₃, h⟩ := h
  have := length_lt_of_scanInteger h₁
  have := length_le_of_scanFraction h₂
  have := length_le_of_scanExponent h₃
  simp only [Option.pure_def, Option.some.injEq, Prod.mk.injEq] at h
  obtain ⟨-, rfl⟩ := h
  omega

theorem length_lt_of_nextToken {cs rest : List Char} {t : Token}
    (h : nextToken cs = some (t, rest)) : rest.length < cs.length := by
  unfold nextToken at h
  split at h
  case h_10 =>
    simp only [Option.map_eq_some_iff, Prod.mk.injEq, Prod.exists] at h
    obtain ⟨p, r, h, -, rfl⟩ := h
    have := length_le_of_scanString h
    simp
    omega
  case h_11 =>
    simp only [Option.map_eq_some_iff, Prod.mk.injEq, Prod.exists] at h
    obtain ⟨p, r, h, -, rfl⟩ := h
    have := length_lt_of_scanNumeral h
    simp
    omega
  case h_12 =>
    simp only [Option.map_eq_some_iff, Prod.mk.injEq, Prod.exists] at h
    obtain ⟨p, r, h, -, rfl⟩ := h
    exact length_lt_of_scanNumeral h
  all_goals
    simp only [Option.some.injEq, Prod.mk.injEq] at h
    obtain ⟨-, rfl⟩ := h
    simp
    try omega

def tokens? : List Char → Option (List Token)
  | [] => some []
  | c :: rest =>
    if isSpace c then tokens? rest
    else
      match _h : nextToken (c :: rest) with
      | none => none
      | some (t, rest') => (tokens? rest').map (t :: ·)
termination_by cs => cs.length
decreasing_by
  · simp
  · exact length_lt_of_nextToken (by assumption)

end PlotMiner.Json
