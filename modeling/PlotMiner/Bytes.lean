/-!
# Byte strings of a fixed length

Challenges, hashes, keys and plot ids are byte strings whose length never varies, so the length is
part of the type. The order of the bytes is the order in which their hex text shows them; a value
that takes part in hashing as a 256-bit word is hashed in the opposite order, `wordOrder`. Longer
strings are cut into blocks.
-/

namespace PlotMiner

/-- The natural number whose base-256 digits are `bytes`, the most significant first. -/
def natOfBytes (bytes : List UInt8) : Nat :=
  bytes.foldl (fun acc b => acc * 256 + b.toNat) 0

/-- The `width` least significant base-256 digits of `n`, the most significant first. -/
def bytesOfNat : (width n : Nat) → List UInt8
  | 0, _ => []
  | width + 1, n => bytesOfNat width (n / 256) ++ [UInt8.ofNat (n % 256)]

/-- The list cut into pieces of `n` elements; the last piece may be shorter. -/
def Block.chunks {α : Type} (n : Nat) (l : List α) : List (List α) :=
  go l.length l
where
  /-- A list of at most `fuel` elements; every piece takes at least one when `n` is positive. -/
  go : Nat → List α → List (List α)
    | 0, _ => []
    | _ + 1, [] => []
    | fuel + 1, l => l.take n :: go fuel (l.drop n)

theorem length_bytesOfNat (width n : Nat) : (bytesOfNat width n).length = width := by
  induction width generalizing n with
  | zero => rfl
  | succ width ih => simp [bytesOfNat, ih]

/-- A byte string of exactly `n` bytes. -/
structure SizedBytes (n : Nat) where
  toList : List UInt8
  length_eq : toList.length = n
deriving DecidableEq

/-- Challenges, hashes, plot ids and secret keys. -/
abbrev Bytes32 := SizedBytes 32

/-- Compressed public keys. -/
abbrev Bytes48 := SizedBytes 48

namespace SizedBytes

variable {n : Nat}

theorem ext {a b : SizedBytes n} (h : a.toList = b.toList) : a = b := by
  cases a
  cases b
  simp_all

def zero (n : Nat) : SizedBytes n :=
  ⟨List.replicate n 0, by simp⟩

instance : Inhabited (SizedBytes n) := ⟨zero n⟩

/-- The bytes themselves, provided that there are exactly `n` of them. -/
def ofList? (bytes : List UInt8) : Option (SizedBytes n) :=
  if h : bytes.length = n then some ⟨bytes, h⟩ else none

/-- The first `n` bytes, filled up with zeros at the end when there are fewer. -/
def fit (n : Nat) (bytes : List UInt8) : SizedBytes n :=
  ⟨bytes.take n ++ List.replicate (n - bytes.length) 0, by simp; omega⟩

/-- The last `n` base-256 digits of a number, the most significant first. -/
def ofNat (n value : Nat) : SizedBytes n :=
  ⟨bytesOfNat n value, length_bytesOfNat n value⟩

def toNat (b : SizedBytes n) : Nat := natOfBytes b.toList

def isNull (b : SizedBytes n) : Bool := b.toList.all (· == 0)

/-- The byte order in which a value takes part in hashing: the reverse of the displayed order. -/
def wordOrder (b : SizedBytes n) : List UInt8 := b.toList.reverse

/-- Values are ordered as their hex texts are. -/
def compare (a b : SizedBytes n) : Ordering := compareLex a.toList b.toList
where
  compareLex : List UInt8 → List UInt8 → Ordering
    | [], [] => .eq
    | [], _ :: _ => .lt
    | _ :: _, [] => .gt
    | x :: xs, y :: ys => if x < y then .lt else if y < x then .gt else compareLex xs ys

theorem ofList?_toList (b : SizedBytes n) : ofList? b.toList = some b := by
  simp [ofList?, b.length_eq]

theorem toList_of_ofList? {bytes : List UInt8} {b : SizedBytes n} (h : ofList? bytes = some b) :
    b.toList = bytes := by
  unfold ofList? at h
  split at h <;> simp_all
  rw [← h]

/-- As many bytes as there have to be are neither cut off nor filled up. -/
theorem ofList?_eq_fit {bytes : List UInt8} (h : bytes.length = n) :
    ofList? bytes = some (fit n bytes) := by
  rw [ofList?, dif_pos h, Option.some.injEq]
  apply ext
  subst h
  simp [fit]

end SizedBytes

end PlotMiner
