import PlotMiner.Bytes.Reading
import PlotMiner.Json.Document
import PlotMiner.Json.Printer

/-!
# Decoding JSON into types

A decoder reads from a source: either a value, or a document whose literals get their meaning only
when a decoder looks at them. The two differ in what they report. A value has its fields in the
order of their names and each name once, and everything in it is meaningful. A document has them in
the order of the text, a repeated known name is an error, and whatever belongs to an unknown name is
skipped.

A record may be given as an object, or as an array of its fields in their declared order. In an
object the fields that are present are decoded first, in the order of the source, and only then the
missing ones are looked at, in declared order.
-/

namespace PlotMiner.Json

inductive Found where
  | null
  | bool (b : Bool)
  | number (n : Number)
  | string (s : String)
  | array
  | object

inductive DecodeError where
  | invalidType (found : Found) (want : String)
  | invalidValue (found : Found) (want : String)
  | invalidLength (length : Nat) (want : String)
  | missingField (name : String)
  | duplicateField (name : String)
  | unknownVariant (name : String) (known : List String)
  | noForm (type : String)
  | bytes (error : BytesError)
  | literal (error : LiteralError)
  /-- The array of a record goes on after its last field. -/
  | excessItems

/-- A source at its outermost level. Arrays and objects may turn out to be nested too deeply when
they are entered, and a name may turn out to have no meaning. -/
inductive View (S : Type) where
  | null
  | bool (b : Bool)
  | number (n : Number)
  | string (s : String)
  | array (items : Except DecodeError (List S))
  | object (fields : Except DecodeError (List (Except DecodeError String × S)))

def View.found {S : Type} : View S → Found
  | .null => .null
  | .bool b => .bool b
  | .number n => .number n
  | .string s => .string s
  | .array _ => .array
  | .object _ => .object

class Source (S : Type) where
  view : S → Except DecodeError (View S)
  whole : S → Except DecodeError Value
  /-- The error for the array of a record that goes on after its last field; the number is how many
  items the array has. -/
  excess : Nat → DecodeError

instance : Source Value where
  view
    | .null => .ok .null
    | .bool b => .ok (.bool b)
    | .number n => .ok (.number n)
    | .string s => .ok (.string s)
    | .array items => .ok (.array (.ok items))
    | .object fields => .ok (.object (.ok (fields.map fun (k, v) => (.ok k, v))))
  whole v := .ok v
  excess n := .invalidLength n "fewer elements in array"

/-- A document in which arrays and objects may be nested at most `room` deep. -/
structure Excerpt where
  room : Nat
  document : Document

def LiteralError.lift {α : Type} (e : Except LiteralError α) : Except DecodeError α :=
  e.mapError .literal

/-- What is inside an array or object of an excerpt. -/
def Excerpt.enter {α : Type} (e : Excerpt) (inside : (Document → Excerpt) → α) :
    Except DecodeError α :=
  match e.room with
  | 0 => .error (.literal .tooDeep)
  | room + 1 => .ok (inside (⟨room, ·⟩))

instance : Source Excerpt where
  view e :=
    match e.document with
    | .null => .ok .null
    | .bool b => .ok (.bool b)
    | .number l => return .number (← LiteralError.lift l.value)
    | .string pieces => return .string (← LiteralError.lift (stringOf pieces))
    | .array items => .ok (.array (e.enter fun sub => items.map sub))
    | .object fields =>
      .ok (.object (e.enter fun sub =>
        fields.map fun (name, d) => (LiteralError.lift (stringOf name), sub d)))
  whole e := LiteralError.lift (e.document.toValue e.room)
  excess _ := .excessItems

class Decode (α : Type) where
  decode : {S : Type} → [Source S] → S → Except DecodeError α

export Decode (decode)

class Encode (α : Type) where
  encode : α → Value

export Encode (encode)

section

variable {S : Type} [Source S]

def decodeBool (s : S) : Except DecodeError Bool := do
  match ← Source.view s with
  | .bool b => return b
  | v => throw (.invalidType v.found "a boolean")

/-- A string; `want` says what it stands for. -/
def decodeStringAs (want : String) (s : S) : Except DecodeError String := do
  match ← Source.view s with
  | .string text => return text
  | v => throw (.invalidType v.found want)

def decodeInt (low high : Int) (want : String) (s : S) : Except DecodeError Int := do
  match ← Source.view s with
  | .number (.int n) =>
    if low ≤ n ∧ n ≤ high then return n
    else throw (.invalidValue (.number (.int n)) want)
  | v => throw (.invalidType v.found want)

def decodeItems {α : Type} (item : S → Except DecodeError α) (s : S) :
    Except DecodeError (List α) := do
  match ← Source.view s with
  | .array items => (← items).mapM item
  | v => throw (.invalidType v.found "a sequence")

end

instance : Decode Value := ⟨Source.whole⟩
instance : Encode Value := ⟨id⟩

instance : Decode Bool := ⟨decodeBool⟩
instance : Encode Bool := ⟨.bool⟩

instance : Decode String := ⟨decodeStringAs "a string"⟩
instance : Encode String := ⟨.string⟩

instance : Decode UInt8 :=
  ⟨fun s => return UInt8.ofNat (← decodeInt 0 (.ofNat (UInt8.size - 1)) "u8" s).toNat⟩
instance : Encode UInt8 := ⟨fun n => .nat n.toNat⟩

instance : Decode UInt32 :=
  ⟨fun s => return UInt32.ofNat (← decodeInt 0 (.ofNat (UInt32.size - 1)) "u32" s).toNat⟩
instance : Encode UInt32 := ⟨fun n => .nat n.toNat⟩

instance : Decode UInt64 :=
  ⟨fun s => return UInt64.ofNat (← decodeInt 0 (.ofNat (UInt64.size - 1)) "u64" s).toNat⟩
instance : Encode UInt64 := ⟨fun n => .nat n.toNat⟩

instance : Decode Int64 :=
  ⟨fun s => return Int64.ofInt (← decodeInt Int64.minValue.toInt Int64.maxValue.toInt "i64" s)⟩
instance : Encode Int64 := ⟨fun n => .int n.toInt⟩

instance {α : Type} [Decode α] : Decode (List α) := ⟨decodeItems decode⟩
instance {α : Type} [Encode α] : Encode (List α) := ⟨fun l => .array (l.map encode)⟩

/-- `null` stands for an absent value. -/
instance {α : Type} [Decode α] : Decode (Option α) :=
  ⟨fun s => do
    match ← Source.view s with
    | .null => return none
    | _ => return some (← decode s)⟩

instance {α : Type} [Encode α] : Encode (Option α) := ⟨fun o => o.elim .null encode⟩

instance {n : Nat} : Decode (SizedBytes n) :=
  ⟨fun s => do
    let text ← decodeStringAs s!"Expecting a hex String of {n} bytes" s
    match SizedBytes.ofHex n text with
    | .ok b => return b
    | .error e => throw (.bytes e)⟩

instance {n : Nat} : Encode (SizedBytes n) := ⟨fun b => .string b.toHex⟩

instance : Decode Blob :=
  ⟨fun s => do
    let text ← decodeStringAs "a string" s
    match Blob.ofHex text with
    | .ok b => return b
    | .error e => throw (.bytes e)⟩

instance : Encode Blob := ⟨fun b => .string b.toHex⟩

def LiteralError.message : LiteralError → String
  | .loneSurrogate => "lone leading surrogate in hex escape"
  | .brokenEscape => "unexpected end of hex escape"
  | .outOfRange => "number out of range"
  | .tooDeep => "recursion limit exceeded"

def Found.describe : Found → String
  | .null => "null"
  | .bool b => s!"boolean `{b}`"
  | .number (.int n) => s!"integer `{String.ofList (intLiteral n)}`"
  | .number (.float x) => s!"floating point `{String.ofList (floatLiteral x)}`"
  | .string s => s!"string {Text.quote s}"
  | .array => "sequence"
  | .object => "map"

/-- The known names of a type with alternatives, as a list in words. -/
def describeVariants : List String → String
  | [] => "there are no variants"
  | [a] => s!"expected `{a}`"
  | [a, b] => s!"expected `{a}` or `{b}`"
  | all => "expected one of " ++ ", ".intercalate (all.map fun a => s!"`{a}`")

def DecodeError.message : DecodeError → String
  | .invalidType found want => s!"invalid type: {found.describe}, expected {want}"
  | .invalidValue found want => s!"invalid value: {found.describe}, expected {want}"
  | .invalidLength length want => s!"invalid length {length}, expected {want}"
  | .missingField name => s!"missing field `{name}`"
  | .duplicateField name => s!"duplicate field `{name}`"
  | .unknownVariant name known => s!"unknown variant `{name}`, {describeVariants known}"
  | .noForm type => s!"data did not match any variant of untagged enum {type}"
  | .bytes e => e.message
  | .literal e => e.message
  | .excessItems => "trailing characters"

end PlotMiner.Json
