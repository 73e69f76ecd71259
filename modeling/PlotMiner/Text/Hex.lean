import PlotMiner.Bytes
import PlotMiner.Text.Utf8

/-!
# Hexadecimal text

Byte strings are displayed in lower case without a mark in front. When read, both cases are
accepted, white space around the text is ignored and one leading `0x` may stand in front of the
digits.
-/

namespace PlotMiner.Hex

open PlotMiner.Text

inductive HexError where
  | oddLength
  /-- The first byte of the text that is no hex digit, and its place. -/
  | badDigit (byte : UInt8) (position : Nat)
deriving DecidableEq

def digit (n : Nat) : Char :=
  if n < 10 then Char.ofNat (0x30 + n) else Char.ofNat (0x57 + n)

def digitValue? (b : UInt8) : Option Nat :=
  if 0x30 ≤ b && b ≤ 0x39 then some (b.toNat - 0x30)
  else if 0x61 ≤ b && b ≤ 0x66 then some (b.toNat - 0x57)
  else if 0x41 ≤ b && b ≤ 0x46 then some (b.toNat - 0x37)
  else none

def encodeChars (bytes : List UInt8) : List Char :=
  bytes.flatMap fun b => [digit (b.toNat / 16), digit (b.toNat % 16)]

def encode (bytes : List UInt8) : String := String.ofList (encodeChars bytes)

/-- Reads pairs of digits, `position` being the place of the first of them. -/
def decodePairs (position : Nat) : List UInt8 → Except HexError (List UInt8)
  | [] => .ok []
  | [_] => .error .oddLength
  | a :: b :: rest =>
    match digitValue? a with
    | none => .error (.badDigit a position)
    | some high =>
      match digitValue? b with
      | none => .error (.badDigit b (position + 1))
      | some low => do
        let tail ← decodePairs (position + 2) rest
        return UInt8.ofNat (high * 16 + low) :: tail

/-- Reads a text of digits alone. The number of digits is looked at before any of them. -/
def decodeDigits (cs : List Char) : Except HexError (List UInt8) :=
  let bytes := utf8 cs
  if bytes.length % 2 = 1 then .error .oddLength else decodePairs 0 bytes

/-- Drops one leading `0x`. -/
def dropMark : List Char → List Char
  | '0' :: 'x' :: rest => rest
  | cs => cs

/-- Reads hex text: white space around it and one leading `0x` are ignored. -/
def decode (text : String) : Except HexError (List UInt8) :=
  decodeDigits (dropMark (trimChars text.toList))

end PlotMiner.Hex
