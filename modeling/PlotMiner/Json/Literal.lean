import PlotMiner.Decimal.Binary64

/-!
# String and number literals of JSON

A literal is kept as it was read, and its meaning is a separate step that can fail: a `\u` escape
may name half of a surrogate pair, and a number may lie beyond the doubles. A value that is only
skipped never takes that step.

A number without fraction and exponent is an integer as long as 64 bits hold it. Any other becomes
a double in a fixed sequence of roundings: its leading digits, as many as 64 bits hold, are rounded
to a double, which is then multiplied or divided by a power of ten that is itself a double. The
result can differ in the last place from the nearest double.
-/

namespace PlotMiner.Json

/-- Why the meaning of a literal, or of a value made of literals, cannot be taken. -/
inductive LiteralError where
  /-- A `\u` escape names a trailing surrogate first, or a leading one is followed by another
  character's escape. -/
  | loneSurrogate
  /-- A leading surrogate is not followed by another `\u` escape. -/
  | brokenEscape
  | outOfRange
  | tooDeep
deriving DecidableEq

/-- One piece of a string literal: a character, or the code unit of a `\u` escape. -/
inductive Piece where
  | char (c : Char)
  | codeUnit (n : Nat)
deriving DecidableEq

def Piece.chars : List Piece → Except LiteralError (List Char)
  | [] => .ok []
  | .char c :: rest => return c :: (← chars rest)
  | .codeUnit n :: rest =>
    if 0xDC00 ≤ n ∧ n ≤ 0xDFFF then .error .loneSurrogate
    else if n < 0xD800 ∨ 0xDBFF < n then return Char.ofNat n :: (← chars rest)
    else
      match rest with
      | .codeUnit m :: rest' =>
        if 0xDC00 ≤ m ∧ m ≤ 0xDFFF then
          return Char.ofNat (0x10000 + (n - 0xD800) * 0x400 + (m - 0xDC00)) :: (← chars rest')
        else .error .loneSurrogate
      | _ => .error .brokenEscape

/-- A number as JSON values hold it: an integer between `-2 ^ 63` and `2 ^ 64 - 1`, or a finite
double. -/
inductive Number where
  | int (n : Int)
  | float (x : Binary64)
deriving DecidableEq

/-- A number literal, digit by digit. An absent fraction has no digits. -/
structure Numeral where
  negative : Bool
  integer : List Nat
  fraction : List Nat
  /-- Whether the exponent is negative, and its digits. -/
  exponent : Option (Bool × List Nat)
deriving DecidableEq

def natOfDigits (digits : List Nat) : Nat := digits.foldl (fun acc d => acc * 10 + d) 0

/-- The double nearest to `10 ^ n`, for an `n` up to 308. -/
def powerOfTen (n : Nat) : Float := Float.ofScientific 1 false n

/-- Takes up digits as long as the number stays below `2 ^ 64`; returns the number and the digits
that were left. -/
def takeDigits (significand : Nat) : List Nat → Nat × List Nat
  | [] => (significand, [])
  | d :: rest =>
    if significand * 10 + d < UInt64.size then takeDigits (significand * 10 + d) rest
    else (significand, d :: rest)

/-- `significand * 10 ^ exponent` as a double. Beyond the powers of ten that are doubles, a negative
exponent is taken in several divisions. -/
def scaleByTen (significand : Nat) (exponent : Int) : Except LiteralError Float :=
  go 8 (UInt64.ofNat significand).toFloat exponent
where
  /-- Eight divisions by `10 ^ 308` turn any significand into zero. -/
  go : Nat → Float → Int → Except LiteralError Float
    | 0, f, _ => .ok f
    | fuel + 1, f, e =>
      if e.natAbs ≤ 308 then
        if 0 ≤ e then
          let f := f * powerOfTen e.natAbs
          if f.isInf then .error .outOfRange else .ok f
        else .ok (f / powerOfTen e.natAbs)
      else if f == 0 then .ok f
      else if 0 ≤ e then .error .outOfRange
      else go fuel (f / powerOfTen 308) (e + 308)

/-- The greatest exponent that is counted. -/
def maxExponent : Nat := UInt32.size / 2 - 1

namespace Numeral

/-- The leading digits as an integer below `2 ^ 64` and the power of ten that goes with it. Digits
of the integer part that do not fit raise the power; the fraction goes on where the integer part
stopped, as far as its digits fit. -/
def significand (l : Numeral) : Nat × Int :=
  let (n, dropped) := takeDigits 0 l.integer
  let (n', left) := takeDigits n l.fraction
  (n', (dropped.length : Int) - ((l.fraction.length - left.length : Nat) : Int))

/-- The double that a literal with a fraction, an exponent or too many digits stands for. -/
def toFloat (l : Numeral) : Except LiteralError Float := do
  let (n, e) := l.significand
  let magnitude ←
    match l.exponent with
    | none => scaleByTen n e
    | some (isDown, digits) =>
      let x := natOfDigits digits
      if maxExponent < x then
        if n ≠ 0 ∧ !isDown then .error .outOfRange else pure 0
      else
        let shifted := if isDown then e - x else e + x
        scaleByTen n (max (-(maxExponent + 1 : Nat)) (min maxExponent shifted))
  return if l.negative then -magnitude else magnitude

/-- The number that a literal stands for. A negative zero is a double, since it is no integer. -/
def value (l : Numeral) : Except LiteralError Number :=
  let n := natOfDigits l.integer
  if l.fraction.isEmpty ∧ l.exponent.isNone ∧ n < UInt64.size then
    if !l.negative then .ok (.int n)
    else if n = 0 ∨ UInt64.size / 2 < n then .ok (.float (.ofFloat (-(UInt64.ofNat n).toFloat)))
    else .ok (.int (-(n : Int)))
  else do
    let f ← l.toFloat
    return .float (.ofFloat f)

end Numeral

end PlotMiner.Json
