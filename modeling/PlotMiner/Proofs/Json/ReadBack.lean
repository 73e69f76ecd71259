import PlotMiner.Proofs.Json.Record
import PlotMiner.Proofs.Json.Rendering

/-!
# Texts that are read back

A value of a type is written as a text in one of two layouts, and the fields of its objects may come
in any order (`WrittenAs`). There are two ways to read it: a decoder goes through the document of
the text, or the text is read as a JSON value first, from which the decoder reads. Both give the
value back (`Codec.readBack`).
-/

namespace PlotMiner.Json

variable {α : Type} [Encode α]

/-- A text of a value: that of its JSON form, with the fields of objects in any order. -/
def WrittenAs (a : α) (text : String) : Prop :=
  ∃ v : Value, Shows v (encode a) ∧ (text = v.compact ∨ text = v.pretty)

/-- The texts of a value are read back, those of its own JSON form among them. -/
structure ReadBack [Decode α] (a : α) : Prop where
  compact : WrittenAs a (encode a).compact
  pretty : WrittenAs a (encode a).pretty
  read (text : String) (hwritten : WrittenAs a text) :
    (∃ d, Document.parse? text.toList = some d ∧ decode (Excerpt.mk maxDepth d) = .ok a) ∧
      ∃ v, Value.parse? text.toList = some v ∧ decode v = .ok a

theorem WrittenAs.exists_document {a : α} {text : String} (h : WrittenAs a text)
    (hlegible : (encode a).Legible maxDepth) :
    ∃ d, Document.parse? text.toList = some d ∧ Shows (Excerpt.mk maxDepth d) (encode a) := by
  obtain ⟨v, hshown, hlayout⟩ := h
  obtain ⟨hexact, hshown⟩ := hshown.excerpt hlegible
  refine ⟨v.document, ?_, hshown⟩
  obtain rfl | rfl := hlayout
  · rw [Value.compact, Value.render, String.toList_ofList, Document.parse?_renderIn _ hexact]
  · rw [Value.pretty, String.toList_ofList, Document.parse?_renderIn _ hexact]

theorem Codec.readBack [Decode α] [Codec α] (hshallow : Codec.depth α ≤ maxDepth) (a : α) :
    ReadBack a := by
  have hlegible := Codec.legible a hshallow
  constructor
  case compact => exact ⟨encode a, hlegible.shows, .inl rfl⟩
  case pretty => exact ⟨encode a, hlegible.shows, .inr rfl⟩
  case read =>
    intro text hwritten
    obtain ⟨d, hparsed, hshown⟩ := hwritten.exists_document hlegible
    obtain ⟨v, hvalue, hshown'⟩ := hshown.value hlegible
    refine ⟨⟨d, hparsed, Codec.decode_eq hshown⟩, v, ?_, Codec.decode_eq hshown'⟩
    rw [Value.parse?, hparsed, Option.bind_eq_bind, Option.bind_some, hvalue]
    rfl

end PlotMiner.Json
