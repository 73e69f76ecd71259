/-!
# UTF-8 and white space

The bytes of a text, and the text of bytes: strictly, where anything ill-formed is refused, and
leniently, where each maximal ill-formed run is shown as U+FFFD. The characters that count as white
space at the ends of a text and between its words are those of the Unicode property `White_Space`.
-/

namespace PlotMiner.Text

def utf8 (cs : List Char) : List UInt8 := cs.flatMap String.utf8EncodeChar

/-- The character U+FFFD, which stands for bytes that are not well-formed. -/
def replacement : Char := Char.ofNat 0xFFFD

/-- Whether `b` may follow the lead byte `lead` of a sequence of two or more bytes. The second byte
alone decides whether a sequence is over-long, a surrogate or beyond the last code point. -/
def isSecond (lead b : UInt8) : Bool :=
  if lead == 0xE0 then 0xA0 ≤ b && b ≤ 0xBF
  else if lead == 0xED then 0x80 ≤ b && b ≤ 0x9F
  else if lead == 0xF0 then 0x90 ≤ b && b ≤ 0xBF
  else if lead == 0xF4 then 0x80 ≤ b && b ≤ 0x8F
  else 0x80 ≤ b && b ≤ 0xBF

def isTail (b : UInt8) : Bool := 0x80 ≤ b && b ≤ 0xBF

/-- The next character of a byte string and the bytes after it. `none` in place of the character
means that the bytes passed over form no character: they are the longest beginning of a well-formed
sequence, or one byte that begins none. -/
def nextChar : List UInt8 → Option (Option Char × List UInt8)
  | [] => none
  | a :: rest =>
    if a < 0x80 then some (some (Char.ofNat a.toNat), rest)
    else if 0xC2 ≤ a && a ≤ 0xDF then
      match rest with
      | b :: rest' =>
        if isTail b then
          some (some (Char.ofNat ((a.toNat - 0xC0) * 64 + (b.toNat - 0x80))), rest')
        else some (none, rest)
      | [] => some (none, rest)
    else if 0xE0 ≤ a && a ≤ 0xEF then
      match rest with
      | b :: rest' =>
        if isSecond a b then
          match rest' with
          | c :: rest'' =>
            if isTail c then
              some (some (Char.ofNat ((a.toNat - 0xE0) * 4096 + (b.toNat - 0x80) * 64 +
                (c.toNat - 0x80))), rest'')
            else some (none, rest')
          | [] => some (none, rest')
        else some (none, rest)
      | [] => some (none, rest)
    else if 0xF0 ≤ a && a ≤ 0xF4 then
      match rest with
      | b :: rest' =>
        if isSecond a b then
          match rest' with
          | c :: rest'' =>
            if isTail c then
              match rest'' with
              | d :: rest''' =>
                if isTail d then
                  some (some (Char.ofNat ((a.toNat - 0xF0) * 262144 + (b.toNat - 0x80) * 4096 +
                    (c.toNat - 0x80) * 64 + (d.toNat - 0x80))), rest''')
                else some (none, rest'')
              | [] => some (none, rest'')
            else some (none, rest')
          | [] => some (none, rest')
        else some (none, rest)
      | [] => some (none, rest)
    else some (none, rest)

theorem length_lt_of_nextChar {bytes rest : List UInt8} {c : Option Char}
    (h : nextChar bytes = some (c, rest)) : rest.length < bytes.length := by
  unfold nextChar at h
  repeat' split at h
  all_goals simp_all
  all_goals grind

/-- The characters of a byte string, `none` standing for each ill-formed run. -/
def decodeRuns (bytes : List UInt8) : List (Option Char) :=
  match _h : nextChar bytes with
  | none => []
  | some (c, rest) => c :: decodeRuns rest
termination_by bytes.length
decreasing_by exact length_lt_of_nextChar (by assumption)

/-- The text of well-formed bytes. -/
def decodeUtf8? (bytes : List UInt8) : Option (List Char) :=
  (decodeRuns bytes).mapM id

/-- The text of any bytes, each ill-formed run shown as one U+FFFD. -/
def decodeUtf8Lenient (bytes : List UInt8) : List Char :=
  (decodeRuns bytes).map (·.getD replacement)

/-- The Unicode property `White_Space`. -/
def isBlank (c : Char) : Bool :=
  let n := c.toNat
  (9 ≤ n && n ≤ 13) || n == 0x20 || n == 0x85 || n == 0xA0 || n == 0x1680 ||
    (0x2000 ≤ n && n ≤ 0x200A) || n == 0x2028 || n == 0x2029 || n == 0x202F || n == 0x205F ||
    n == 0x3000

/-- Drops the white space at both ends. -/
def trimChars (cs : List Char) : List Char :=
  ((cs.dropWhile isBlank).reverse.dropWhile isBlank).reverse

def trim (s : String) : String := String.ofList (trimChars s.toList)

def isBlankText (s : String) : Bool := s.toList.all isBlank

/-- The maximal runs of characters that are not white space, in order. -/
def words (cs : List Char) : List (List Char) :=
  let (last, done) := cs.foldr step ([], [])
  if last.isEmpty then done else last :: done
where
  /-- Adds one character in front: a blank ends the run that follows it. -/
  step (c : Char) : List Char × List (List Char) → List Char × List (List Char)
    | (run, done) =>
      if isBlank c then ([], if run.isEmpty then done else run :: done) else (c :: run, done)

end PlotMiner.Text
