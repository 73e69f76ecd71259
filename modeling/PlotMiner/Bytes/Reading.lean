import PlotMiner.Text.Hex
import PlotMiner.Text.Quoted

/-!
# Reading byte strings

A byte string is read from hex text, or taken from raw bytes; where its length is fixed, the number
of bytes has to be exactly that.
-/

namespace PlotMiner

open PlotMiner.Hex (HexError)

/-- The text of an error: a byte that is no digit is shown as the character with its number. -/
def Hex.HexError.message : HexError → String
  | .oddLength => "Odd number of digits"
  | .badDigit byte position =>
    s!"Invalid character {Text.quoteChar (Char.ofNat byte.toNat)} at position {position}"

inductive BytesError where
  /-- The text is no hex text; `length` is the required number of bytes, if there is one. -/
  | hex (length : Option Nat) (error : HexError)
  | length (expected got : Nat)
deriving DecidableEq

def BytesError.message : BytesError → String
  | .hex (some n) e => s!"Invalid hex for Bytes{n}: {e.message}"
  | .hex none e => s!"Invalid hex: {e.message}"
  | .length expected got => s!"Invalid length for Bytes{expected}, expected {expected} got {got}"

namespace SizedBytes

def ofListExact (n : Nat) (bytes : List UInt8) : Except BytesError (SizedBytes n) :=
  match ofList? bytes with
  | some b => .ok b
  | none => .error (.length n bytes.length)

def ofHex (n : Nat) (text : String) : Except BytesError (SizedBytes n) :=
  match Hex.decode text with
  | .error e => .error (.hex (some n) e)
  | .ok bytes => ofListExact n bytes

def toHex {n : Nat} (b : SizedBytes n) : String := Hex.encode b.toList

end SizedBytes

structure Blob where
  toList : List UInt8
deriving DecidableEq

namespace Blob

instance : Inhabited Blob := ⟨⟨[]⟩⟩

def empty : Blob := ⟨[]⟩

def ofHex (text : String) : Except BytesError Blob :=
  match Hex.decode text with
  | .error e => .error (.hex none e)
  | .ok bytes => .ok ⟨bytes⟩

def toHex (b : Blob) : String := Hex.encode b.toList

end Blob

end PlotMiner
