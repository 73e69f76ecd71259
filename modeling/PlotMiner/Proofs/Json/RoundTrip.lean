import PlotMiner.Proofs.Except
import PlotMiner.Proofs.Json.Fields
import PlotMiner.Proofs.Json.Rendering

/-!
# JSON values in both directions

A value that was read has a known shape: its integers are those that JSON values hold, its fields
are ordered, and its arrays and objects are nested no deeper than the reader allows
(`Value.fits_of_parse?`). A value of that shape without doubles is `Plain`, and is read back from
its text (`Value.parse?_render`).
-/

namespace PlotMiner.Json

namespace Value

mutual

/-- The shape of values that are read where arrays and objects may be nested `room` deep. -/
def Fits (room : Nat) : Value → Prop
  | .null | .bool _ | .string _ | .number (.float _) => True
  | .number (.int n) => InRange n
  | .array items =>
    match room with
    | 0 => False
    | room + 1 => ItemsFit room items
  | .object fields =>
    match room with
    | 0 => False
    | room + 1 => Ordered fields ∧ FieldsFit room fields

def ItemsFit (room : Nat) : List Value → Prop
  | [] => True
  | v :: rest => Fits room v ∧ ItemsFit room rest

def FieldsFit (room : Nat) : List (String × Value) → Prop
  | [] => True
  | (_, v) :: rest => Fits room v ∧ FieldsFit room rest

end

theorem itemsFit_iff {room : Nat} {items : List Value} :
    ItemsFit room items ↔ ∀ v ∈ items, v.Fits room := by
  induction items with
  | nil => simp [ItemsFit]
  | cons v rest ih =>
    rw [List.forall_mem_cons, ← ih]
    rfl

theorem itemsExact_iff {items : List Value} : itemsExact items ↔ ∀ v ∈ items, v.isExact := by
  induction items with
  | nil => simp [itemsExact]
  | cons v rest ih =>
    rw [List.forall_mem_cons, ← ih]
    exact Bool.and_eq_true_iff

theorem fieldsFit_iff {room : Nat} {fields : List (String × Value)} :
    FieldsFit room fields ↔ ∀ f ∈ fields, f.2.Fits room := by
  induction fields with
  | nil => simp [FieldsFit]
  | cons f rest ih =>
    rw [List.forall_mem_cons, ← ih]
    rfl

theorem fieldsExact_iff {fields : List (String × Value)} :
    fieldsExact fields ↔ ∀ f ∈ fields, f.2.isExact := by
  induction fields with
  | nil => simp [fieldsExact]
  | cons f rest ih =>
    rw [List.forall_mem_cons, ← ih]
    exact Bool.and_eq_true_iff

end Value

open Value

theorem inRange_of_value {l : Numeral} {n : Int} (h : l.value = .ok (.int n)) : InRange n := by
  have hsize : UInt64.size = 18446744073709551616 := rfl
  have hleast : (1 <<< 63 : Nat) = 9223372036854775808 := rfl
  unfold Numeral.value at h
  unfold InRange
  rw [hsize, hleast]
  simp only [hsize] at h
  split at h
  case isTrue hsmall =>
    split at h
    case isTrue =>
      cases h
      omega
    case isFalse =>
      split at h
      case isTrue => cases h
      case isFalse hlarge =>
        cases h
        omega
  case isFalse =>
    cases hfloat : l.toFloat with
    | error e => rw [hfloat] at h; cases h
    | ok f => rw [hfloat] at h; cases h

theorem fieldsFit_sortFields {room : Nat} {fields : List (String × Value)}
    (h : FieldsFit room fields) : FieldsFit room (sortFields fields) := by
  refine fieldsFit_iff.2 ?_
  intro f hf
  exact fieldsFit_iff.1 h f (mem_of_mem_sortFields hf)

namespace Document

mutual

theorem fits_of_toValue {d : Document} {room : Nat} {v : Value} (h : d.toValue room = .ok v) :
    v.Fits room := by
  match d with
  | .null | .bool _ =>
    cases h
    trivial
  | .number l =>
    obtain ⟨n, hvalue, h⟩ := bind_eq_ok.1 h
    cases h
    cases n with
    | int n => exact inRange_of_value hvalue
    | float x => trivial
  | .string pieces =>
    obtain ⟨s, -, h⟩ := bind_eq_ok.1 h
    cases h
    trivial
  | .array items =>
    cases room with
    | zero => cases h
    | succ room =>
      obtain ⟨vs, hvalues, h⟩ := bind_eq_ok.1 h
      cases h
      exact itemsFit_of_itemValues hvalues
  | .object fields =>
    cases room with
    | zero => cases h
    | succ room =>
      obtain ⟨fs, hvalues, h⟩ := bind_eq_ok.1 h
      cases h
      exact ⟨ordered_sortFields fs, fieldsFit_sortFields (fieldsFit_of_fieldValues hvalues)⟩

theorem itemsFit_of_itemValues {items : List Document} {room : Nat} {vs : List Value}
    (h : itemValues room items = .ok vs) : ItemsFit room vs := by
  match items with
  | [] =>
    cases h
    trivial
  | d :: rest =>
    obtain ⟨v, hvalue, h⟩ := bind_eq_ok.1 h
    obtain ⟨vs, hvalues, h⟩ := bind_eq_ok.1 h
    cases h
    exact ⟨fits_of_toValue hvalue, itemsFit_of_itemValues hvalues⟩

theorem fieldsFit_of_fieldValues {fields : List (List Piece × Document)} {room : Nat}
    {fs : List (String × Value)} (h : fieldValues room fields = .ok fs) : FieldsFit room fs := by
  match fields with
  | [] =>
    cases h
    trivial
  | (name, d) :: rest =>
    obtain ⟨k, -, h⟩ := bind_eq_ok.1 h
    obtain ⟨v, hvalue, h⟩ := bind_eq_ok.1 h
    obtain ⟨fs, hvalues, h⟩ := bind_eq_ok.1 h
    cases h
    exact ⟨fits_of_toValue hvalue, fieldsFit_of_fieldValues hvalues⟩

end

end Document

theorem Value.fits_of_parse? {cs : List Char} {v : Value} (h : Value.parse? cs = some v) :
    v.Fits maxDepth := by
  obtain ⟨d, -, hvalue⟩ := Option.bind_eq_some_iff.1 h
  cases hok : d.toValue maxDepth with
  | error e => simp [hok, Except.toOption] at hvalue
  | ok w =>
    simp only [hok, Except.toOption, Option.some.injEq] at hvalue
    exact hvalue ▸ Document.fits_of_toValue hok

namespace Value

mutual

theorem toValue_document {v : Value} (hints : v.isExact) {room : Nat} (hfits : v.Fits room) :
    v.document.toValue room = .ok v := by
  match v with
  | .null | .bool _ => rfl
  | .number (.int n) => exact bind_eq_ok.2 ⟨.int n, value_numeralOf hfits, rfl⟩
  | .string s => exact bind_eq_ok.2 ⟨s, stringOf_piecesOf s, rfl⟩
  | .array items =>
    cases room with
    | zero => exact hfits.elim
    | succ room => exact bind_eq_ok.2 ⟨items, itemValues_itemDocuments hints hfits, rfl⟩
  | .object fields =>
    cases room with
    | zero => exact hfits.elim
    | succ room =>
      obtain ⟨hordered, hfits⟩ := hfits
      refine bind_eq_ok.2 ⟨fields, fieldValues_fieldDocuments hints hfits, ?_⟩
      rw [hordered.sortFields_eq]
      rfl

theorem itemValues_itemDocuments {items : List Value} (hints : itemsExact items) {room : Nat}
    (hfits : ItemsFit room items) :
    Document.itemValues room (itemDocuments items) = .ok items := by
  match items with
  | [] => rfl
  | v :: rest =>
    obtain ⟨hhead, htail⟩ := Bool.and_eq_true_iff.1 hints
    have hfirst := toValue_document hhead hfits.1
    have hlater := itemValues_itemDocuments htail hfits.2
    rw [itemDocuments, Document.itemValues, hfirst, hlater]
    rfl

theorem fieldValues_fieldDocuments {fields : List (String × Value)} (hints : fieldsExact fields)
    {room : Nat} (hfits : FieldsFit room fields) :
    Document.fieldValues room (fieldDocuments fields) = .ok fields := by
  match fields with
  | [] => rfl
  | (k, v) :: rest =>
    obtain ⟨hhead, htail⟩ := Bool.and_eq_true_iff.1 hints
    have hfirst := toValue_document hhead hfits.1
    have hlater := fieldValues_fieldDocuments htail hfits.2
    rw [fieldDocuments, Document.fieldValues, stringOf_piecesOf, hfirst, hlater]
    rfl

end

/-- A value without doubles that has the shape of values that are read. -/
structure Plain (room : Nat) (v : Value) : Prop where
  isExact : v.isExact
  fits : v.Fits room

theorem parse?_of_toValue {v w : Value} (hints : v.isExact)
    (hvalue : v.document.toValue maxDepth = .ok w) : parse? v.render = some w := by
  rw [parse?, render, Document.parse?_renderIn .tight hints, Option.bind_eq_bind, Option.bind_some,
    hvalue]
  rfl

theorem parse?_render {v : Value} (h : v.Plain maxDepth) : parse? v.render = some v :=
  parse?_of_toValue h.isExact (toValue_document h.isExact h.fits)

theorem Plain.of_mem {room : Nat} {items : List Value} (h : (array items).Plain (room + 1))
    {v : Value} (hmem : v ∈ items) : v.Plain room :=
  ⟨itemsExact_iff.1 h.isExact v hmem, itemsFit_iff.1 h.fits v hmem⟩

theorem plain_object_iff {room : Nat} {fields : List (String × Value)} :
    (object fields).Plain (room + 1) ↔ Ordered fields ∧ ∀ f ∈ fields, f.2.Plain room := by
  constructor
  · intro ⟨hints, hordered, hfits⟩
    refine ⟨hordered, ?_⟩
    intro f hf
    exact ⟨fieldsExact_iff.1 hints f hf, fieldsFit_iff.1 hfits f hf⟩
  · intro ⟨hordered, hplain⟩
    have hints := fieldsExact_iff.2 fun f hf => (hplain f hf).isExact
    have hfits := fieldsFit_iff.2 fun f hf => (hplain f hf).fits
    exact ⟨hints, hordered, hfits⟩

theorem Plain.insertField {room : Nat} {fields : List (String × Value)} {v : Value}
    (h : (object fields).Plain (room + 1)) (name : String) (hv : v.Plain room) :
    (object (insertField name v fields)).Plain (room + 1) := by
  obtain ⟨hordered, hplain⟩ := plain_object_iff.1 h
  refine plain_object_iff.2 ⟨hordered.insertField name v, ?_⟩
  intro f hf
  rcases mem_insertField hf with rfl | hf
  · exact hv
  · exact hplain f hf

end Value

end PlotMiner.Json
