import PlotMiner.Proofs.Json.Document
import PlotMiner.Proofs.Json.Literal

/-!
# The tokens of a rendered value

The text of a value without doubles is cut into the tokens of one document, so that the text is read
as that document (`Document.parse?_renderIn`), and there are no control characters in it. Doubles
are left out: the text of a double need not be read as the same double.
-/

namespace PlotMiner.Json

open Value

namespace Value

mutual

/-- Whether all numbers in a value are integers. -/
def isExact : Value → Bool
  | .null | .bool _ | .string _ => true
  | .number (.int _) => true
  | .number (.float _) => false
  | .array items => itemsExact items
  | .object fields => fieldsExact fields

def itemsExact : List Value → Bool
  | [] => true
  | v :: rest => isExact v && itemsExact rest

def fieldsExact : List (String × Value) → Bool
  | [] => true
  | (_, v) :: rest => isExact v && fieldsExact rest

end

mutual

/-- The document that the text of a value is read as, provided that there are no doubles in it. -/
def document : Value → Document
  | .null | .number (.float _) => .null
  | .bool b => .bool b
  | .number (.int n) => .number (numeralOf n)
  | .string s => .string (piecesOf s)
  | .array items => .array (itemDocuments items)
  | .object fields => .object (fieldDocuments fields)

def itemDocuments : List Value → List Document
  | [] => []
  | v :: rest => document v :: itemDocuments rest

def fieldDocuments : List (String × Value) → List (List Piece × Document)
  | [] => []
  | (k, v) :: rest => (piecesOf k, document v) :: fieldDocuments rest

end

end Value

theorem isSpace_eq_false_of_nextToken {c : Char} {cs rest : List Char} {t : Token}
    (h : nextToken (c :: cs) = some (t, rest)) : isSpace c = false := by
  cases hspace : isSpace c with
  | false => rfl
  | true =>
    simp only [isSpace, Bool.or_eq_true, decide_eq_true_eq] at hspace
    obtain ((rfl | rfl) | rfl) | rfl := hspace <;>
      simp [nextToken, scanNumeral, scanInteger, scanDigits1, scanDigits, Char.isDigit] at h

theorem tokens?_of_nextToken {cs rest : List Char} {t : Token}
    (h : nextToken cs = some (t, rest)) : tokens? cs = (tokens? rest).map (t :: ·) := by
  cases cs with
  | nil => simp [nextToken, scanNumeral, scanInteger, scanDigits1, scanDigits] at h
  | cons c cs =>
    rw [tokens?, isSpace_eq_false_of_nextToken h, if_neg Bool.false_ne_true]
    split
    case h_1 hnone => simp [hnone] at h
    case h_2 hfound =>
      rw [h] at hfound
      obtain ⟨rfl, rfl⟩ := Prod.mk.inj (Option.some.inj hfound)
      rfl

theorem tokens?_of_first {t : Token} {cs rest : List Char} {ts : List Token}
    (hfirst : nextToken cs = some (t, rest)) (h : tokens? rest = some ts) :
    tokens? cs = some (t :: ts) := by
  rw [tokens?_of_nextToken hfirst, h]
  rfl

theorem endsNumber_arrayEnd (rest : List Char) : EndsNumber (']' :: rest) :=
  ⟨rfl, by decide, by decide, by decide⟩

theorem endsNumber_objectEnd (rest : List Char) : EndsNumber ('\x7d' :: rest) :=
  ⟨rfl, by decide, by decide, by decide⟩

theorem EndsNumber.blank {space rest : List Char} (h : EndsNumber rest)
    (hspace : ∀ c ∈ space, isSpace c = true) : EndsNumber (space ++ rest) := by
  cases space with
  | nil => exact h
  | cons c space =>
    have hc := hspace c List.mem_cons_self
    simp only [isSpace, Bool.or_eq_true, decide_eq_true_eq] at hc
    obtain ((rfl | rfl) | rfl) | rfl := hc <;> exact ⟨rfl, by decide, by decide, by decide⟩

theorem tokens?_blank {space : List Char} (hspace : ∀ c ∈ space, isSpace c = true)
    (rest : List Char) : tokens? (space ++ rest) = tokens? rest := by
  induction space with
  | nil => rfl
  | cons c space ih =>
    obtain ⟨hc, hspace⟩ := List.forall_mem_cons.1 hspace
    rw [List.cons_append, tokens?, if_pos hc, ih hspace]

section Layout

variable (layout : Layout)

theorem EndsNumber.renderItems {rest : List Char} (h : EndsNumber rest) (level : Nat)
    (items : List Value) : EndsNumber (renderItems layout level items ++ rest) := by
  cases items with
  | nil => exact h
  | cons v items => exact ⟨rfl, by decide, by decide, by decide⟩

theorem EndsNumber.renderFields {rest : List Char} (h : EndsNumber rest) (level : Nat)
    (fields : List (String × Value)) :
    EndsNumber (renderFields layout level fields ++ rest) := by
  cases fields with
  | nil => exact h
  | cons f fields => exact ⟨rfl, by decide, by decide, by decide⟩

theorem tokens?_name (name : String) {rest : List Char} {ts : List Token}
    (h : tokens? rest = some ts) :
    tokens? (stringLiteral name ++ ':' :: (layout.afterColon ++ rest)) =
      some (.string (piecesOf name) :: .colon :: ts) :=
  tokens?_of_first (nextToken_stringLiteral name _)
    (tokens?_of_first rfl ((tokens?_blank layout.isSpace_afterColon rest).trans h))

mutual

/-- The text of a value, with a text behind it that goes on with no number, is cut into the tokens
of its document, whatever the layout. -/
theorem tokens?_renderIn {v : Value} (hhints : v.isExact) (level : Nat) {rest : List Char}
    {ts : List Token} (hends : EndsNumber rest) (h : tokens? rest = some ts) :
    tokens? (v.renderIn layout level ++ rest) = some (v.document.tokens ++ ts) := by
  match v with
  | .null | .bool true | .bool false => exact tokens?_of_first rfl h
  | .number (.int n) => exact tokens?_of_first (nextToken_intLiteral n hends) h
  | .string s => exact tokens?_of_first (nextToken_stringLiteral s rest) h
  | .array [] | .object [] => exact tokens?_of_first rfl (tokens?_of_first rfl h)
  | .array (v :: items) =>
    obtain ⟨hhead, htail⟩ := Bool.and_eq_true_iff.1 hhints
    have hline := tokens?_blank (layout.isSpace_newLine (level + 1))
    have hclose : tokens? (layout.newLine level ++ ']' :: rest) = some (.arrayEnd :: ts) :=
      (tokens?_blank (layout.isSpace_newLine level) _).trans (tokens?_of_first rfl h)
    have hends := (endsNumber_arrayEnd rest).blank (layout.isSpace_newLine level)
    have hlater := tokens?_renderItems htail (level + 1) hends hclose
    have hfirst := tokens?_renderIn hhead (level + 1) (hends.renderItems layout _ items) hlater
    have hwhole : tokens? ('[' :: (layout.newLine (level + 1) ++ _)) = some (.arrayStart :: _) :=
      tokens?_of_first rfl ((hline _).trans hfirst)
    simpa [renderIn, document, itemDocuments, Document.tokens] using hwhole
  | .object ((k, v) :: fields) =>
    obtain ⟨hhead, htail⟩ := Bool.and_eq_true_iff.1 hhints
    have hline := tokens?_blank (layout.isSpace_newLine (level + 1))
    have hclose : tokens? (layout.newLine level ++ '\x7d' :: rest) = some (.objectEnd :: ts) :=
      (tokens?_blank (layout.isSpace_newLine level) _).trans (tokens?_of_first rfl h)
    have hends := (endsNumber_objectEnd rest).blank (layout.isSpace_newLine level)
    have hlater := tokens?_renderFields htail (level + 1) hends hclose
    have hfirst := tokens?_renderIn hhead (level + 1) (hends.renderFields layout _ fields) hlater
    have hwhole : tokens? ('\x7b' :: (layout.newLine (level + 1) ++ _)) =
        some (.objectStart :: _) :=
      tokens?_of_first rfl ((hline _).trans (tokens?_name layout k hfirst))
    simpa [renderIn, document, fieldDocuments, Document.tokens] using hwhole

theorem tokens?_renderItems {items : List Value} (hhints : itemsExact items) (level : Nat)
    {rest : List Char} {ts : List Token} (hends : EndsNumber rest) (h : tokens? rest = some ts) :
    tokens? (renderItems layout level items ++ rest) =
      some (Document.itemTokens (itemDocuments items) ++ ts) := by
  match items with
  | [] => exact h
  | v :: items =>
    obtain ⟨hhead, htail⟩ := Bool.and_eq_true_iff.1 hhints
    have hlater := tokens?_renderItems htail level hends h
    have hfirst := tokens?_renderIn hhead level (hends.renderItems layout _ items) hlater
    have hwhole : tokens? (',' :: (layout.newLine level ++ _)) = some (.comma :: _) :=
      tokens?_of_first rfl ((tokens?_blank (layout.isSpace_newLine level) _).trans hfirst)
    simpa [renderItems, itemDocuments, Document.itemTokens] using hwhole

theorem tokens?_renderFields {fields : List (String × Value)} (hhints : fieldsExact fields)
    (level : Nat) {rest : List Char} {ts : List Token} (hends : EndsNumber rest)
    (h : tokens? rest = some ts) :
    tokens? (renderFields layout level fields ++ rest) =
      some (Document.fieldTokens (fieldDocuments fields) ++ ts) := by
  match fields with
  | [] => exact h
  | (k, v) :: fields =>
    obtain ⟨hhead, htail⟩ := Bool.and_eq_true_iff.1 hhints
    have hlater := tokens?_renderFields htail level hends h
    have hfirst := tokens?_renderIn hhead level (hends.renderFields layout _ fields) hlater
    have hwhole : tokens? (',' :: (layout.newLine level ++ _)) = some (.comma :: _) :=
      tokens?_of_first rfl
        ((tokens?_blank (layout.isSpace_newLine level) _).trans (tokens?_name layout k hfirst))
    simpa [renderFields, fieldDocuments, Document.fieldTokens] using hwhole

end

end Layout

theorem tokens?_nil : tokens? [] = some [] := by rw [tokens?]

theorem Document.parse?_of_tokens? {cs : List Char} {d : Document}
    (hcut : tokens? cs = some d.tokens) : Document.parse? cs = some d := by
  rw [Document.parse?, hcut, Option.bind_some, Document.ofTokens?_tokens]

theorem Document.parse?_renderIn (layout : Layout) {v : Value} (hhints : v.isExact) :
    Document.parse? (v.renderIn layout 0) = some v.document := by
  have hends : EndsNumber [] := trivial
  exact parse?_of_tokens? (by simpa using tokens?_renderIn layout hhints 0 hends tokens?_nil)

/-- No control character is written as it is. -/
def Visible (cs : List Char) : Prop := ∀ c ∈ cs, 0x20 ≤ c.toNat

theorem Visible.append {cs ds : List Char} (h : Visible cs) (h' : Visible ds) :
    Visible (cs ++ ds) := by
  intro c hc
  rcases List.mem_append.1 hc with hc | hc
  · exact h c hc
  · exact h' c hc

theorem Visible.cons {c : Char} {cs : List Char} (h : 0x20 ≤ c.toNat) (h' : Visible cs) :
    Visible (c :: cs) := List.forall_mem_cons.2 ⟨h, h'⟩

theorem visible_nil : Visible [] := by simp [Visible]

theorem visible_escape (c : Char) : Visible (escape c) := by
  by_cases hcontrol : c.toNat < 0x20
  · have hall : ∀ n < 0x20, (escape (Char.ofNat n)).all fun d => 0x20 ≤ d.toNat := by decide
    have h := hall c.toNat hcontrol
    rw [Char.ofNat_toNat] at h
    simpa [Visible] using h
  · have hitself : 0x20 ≤ c.toNat := by omega
    unfold escape
    split_ifs <;> simp [Visible, hitself]

theorem visible_stringLiteral (s : String) : Visible (stringLiteral s) := by
  have hinside : Visible (s.toList.flatMap escape) := by
    intro c hc
    obtain ⟨d, -, hd⟩ := List.mem_flatMap.1 hc
    exact visible_escape d c hd
  have hquote : Visible ['"'] := by simp [Visible]
  exact .cons (by decide) (hinside.append hquote)

theorem visible_natDigits (n : Nat) : Visible (natDigits n) := by
  intro c hc
  have hdigit : c.isDigit = true := isDigit_of_mem_natDigits hc
  simp only [Char.isDigit, Bool.and_eq_true, decide_eq_true_eq, ge_iff_le,
    UInt32.le_iff_toNat_le] at hdigit
  have hlow : 48 ≤ c.toNat := hdigit.1
  omega

theorem visible_intLiteral (n : Int) : Visible (intLiteral n) := by
  unfold intLiteral
  split_ifs
  · exact .cons (by decide) (visible_natDigits _)
  · exact visible_natDigits _

mutual

theorem visible_renderTight {v : Value} (hhints : v.isExact) (level : Nat) :
    Visible (v.renderIn .tight level) := by
  match v with
  | .null | .bool true | .bool false | .array [] | .object [] => simp [renderIn, Visible]
  | .number (.int n) => exact visible_intLiteral n
  | .string s => exact visible_stringLiteral s
  | .array (v :: items) =>
    obtain ⟨hhead, htail⟩ := Bool.and_eq_true_iff.1 hhints
    have hclose : Visible [']'] := by simp [Visible]
    exact .cons (by decide) ((visible_renderTight hhead _).append
      ((visible_renderTightItems htail _).append hclose))
  | .object ((k, v) :: fields) =>
    obtain ⟨hhead, htail⟩ := Bool.and_eq_true_iff.1 hhints
    have hclose : Visible ['\x7d'] := by simp [Visible]
    exact .cons (by decide) ((visible_stringLiteral k).append (.cons (by decide)
      ((visible_renderTight hhead _).append ((visible_renderTightFields htail _).append hclose))))

theorem visible_renderTightItems {items : List Value} (hhints : itemsExact items) (level : Nat) :
    Visible (renderItems .tight level items) := by
  match items with
  | [] => exact visible_nil
  | v :: rest =>
    obtain ⟨hhead, htail⟩ := Bool.and_eq_true_iff.1 hhints
    exact .cons (by decide)
      ((visible_renderTight hhead _).append (visible_renderTightItems htail _))

theorem visible_renderTightFields {fields : List (String × Value)} (hhints : fieldsExact fields)
    (level : Nat) : Visible (renderFields .tight level fields) := by
  match fields with
  | [] => exact visible_nil
  | (k, v) :: rest =>
    obtain ⟨hhead, htail⟩ := Bool.and_eq_true_iff.1 hhints
    exact .cons (by decide) ((visible_stringLiteral k).append (.cons (by decide)
      ((visible_renderTight hhead _).append (visible_renderTightFields htail _))))

end

theorem visible_render {v : Value} (hhints : v.isExact) : Visible v.render :=
  visible_renderTight hhints 0

end PlotMiner.Json
