import PlotMiner.Decimal.Shortest
import PlotMiner.Json.Token
import PlotMiner.Json.Value

/-!
# The text of a JSON value

A layout says which white space stands between the tokens. There are two: none at all, and one item
or field a line, indented by two spaces a level. Integers are written in decimal. Doubles are
written with the fewest digits that read back as the same double, and always with a point or an
exponent, so that they read back as doubles.
-/

namespace PlotMiner.Json

open PlotMiner.Decimal

def hexDigit (n : Nat) : Char := if n < 10 then Char.ofNat (0x30 + n) else Char.ofNat (0x57 + n)

/-- One character inside a string literal. Only the quote, the backslash and the control characters
below the space are escaped. -/
def escape (c : Char) : List Char :=
  if c = '"' then ['\\', '"']
  else if c = '\\' then ['\\', '\\']
  else if c = '\x08' then ['\\', 'b']
  else if c = '\x0c' then ['\\', 'f']
  else if c = '\n' then ['\\', 'n']
  else if c = '\r' then ['\\', 'r']
  else if c = '\t' then ['\\', 't']
  else if c.toNat < 0x20 then
    ['\\', 'u', '0', '0', hexDigit (c.toNat / 16), hexDigit (c.toNat % 16)]
  else [c]

def stringLiteral (s : String) : List Char := '"' :: (s.toList.flatMap escape ++ ['"'])

def natDigits (n : Nat) : List Char := Nat.toDigits 10 n

def intLiteral (n : Int) : List Char :=
  if n < 0 then '-' :: natDigits n.natAbs else natDigits n.natAbs

/-- The layout of a positive double: from `10 ^ (lowest - 1)` up to `10 ^ highest` it is written
without an exponent. -/
structure FloatLayout where
  /-- The number of places before the point below which an exponent is used. -/
  lowest : Int
  /-- The number of places before the point above which an exponent is used. -/
  highest : Int

/-- Doubles from a hundred-thousandth up to, but not including, ten to the sixteenth are written
without an exponent. -/
def floatLayout : FloatLayout := ⟨-4, 16⟩

/-- A positive decimal. An exponent carries its sign; a point has a digit on both sides. -/
def decimalLiteral (layout : FloatLayout) (d : Decimal) : List Char :=
  let ds := natDigits d.digits
  let size : Int := ds.length
  -- the number of digits before the point
  let places := size + d.exponent
  if layout.lowest ≤ places ∧ places ≤ layout.highest then
    if 0 ≤ d.exponent then ds ++ List.replicate d.exponent.toNat '0' ++ ['.', '0']
    else if 0 < places then ds.take places.toNat ++ '.' :: ds.drop places.toNat
    else '0' :: '.' :: (List.replicate (-places).toNat '0' ++ ds)
  else
    let e := places - 1
    let mantissa := if size = 1 then ds else ds.take 1 ++ '.' :: ds.drop 1
    mantissa ++ 'e' :: (if e < 0 then '-' else '+') :: natDigits e.natAbs

def floatLiteral (x : Binary64) : List Char :=
  let sign := if x.isNegative then ['-'] else []
  if x.mantissa = 0 then sign ++ ['0', '.', '0']
  else sign ++ decimalLiteral floatLayout (shortest x)

def numberLiteral : Number → List Char
  | .int n => intLiteral n
  | .float x => if x.isFinite then floatLiteral x else ['n', 'u', 'l', 'l']

/-- The white space between the tokens of a text. -/
structure Layout where
  /-- What stands before an item, a field or a closing bracket that is `level` deep. -/
  newLine : (level : Nat) → List Char
  afterColon : List Char
  isSpace_newLine : ∀ level, ∀ c ∈ newLine level, isSpace c = true
  isSpace_afterColon : ∀ c ∈ afterColon, isSpace c = true

def Layout.tight : Layout := ⟨fun _ => [], [], nofun, nofun⟩

/-- Every item and field has a line of its own, indented by two spaces a level. -/
def Layout.lines : Layout where
  newLine level := '\n' :: List.replicate (2 * level) ' '
  afterColon := [' ']
  isSpace_newLine level c h := by
    obtain rfl | ⟨-, rfl⟩ := (List.mem_cons.1 h).imp_right List.mem_replicate.1 <;> rfl
  isSpace_afterColon c h := by
    obtain rfl := List.mem_singleton.1 h
    rfl

namespace Value

mutual

/-- The text of a value that stands `level` deep. -/
def renderIn (layout : Layout) (level : Nat) : Value → List Char
  | .null => ['n', 'u', 'l', 'l']
  | .bool true => ['t', 'r', 'u', 'e']
  | .bool false => ['f', 'a', 'l', 's', 'e']
  | .number n => numberLiteral n
  | .string s => stringLiteral s
  | .array [] => ['[', ']']
  | .array (v :: rest) =>
    '[' :: (layout.newLine (level + 1) ++ (renderIn layout (level + 1) v ++
      (renderItems layout (level + 1) rest ++ (layout.newLine level ++ [']']))))
  | .object [] => ['\x7b', '\x7d']
  | .object ((k, v) :: rest) =>
    '\x7b' :: (layout.newLine (level + 1) ++ (stringLiteral k ++ ':' :: (layout.afterColon ++
      (renderIn layout (level + 1) v ++
        (renderFields layout (level + 1) rest ++ (layout.newLine level ++ ['\x7d']))))))

def renderItems (layout : Layout) (level : Nat) : List Value → List Char
  | [] => []
  | v :: rest =>
    ',' :: (layout.newLine level ++ (renderIn layout level v ++ renderItems layout level rest))

def renderFields (layout : Layout) (level : Nat) : List (String × Value) → List Char
  | [] => []
  | (k, v) :: rest =>
    ',' :: (layout.newLine level ++ (stringLiteral k ++ ':' :: (layout.afterColon ++
      (renderIn layout level v ++ renderFields layout level rest))))

end

/-- The text without white space. -/
def render (v : Value) : List Char := v.renderIn .tight 0

def compact (v : Value) : String := String.ofList v.render

/-- The text with one item or field a line. -/
def pretty (v : Value) : String := String.ofList (v.renderIn .lines 0)

end Value

end PlotMiner.Json
