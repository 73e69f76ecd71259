import PlotMiner.Proofs.Timelord.Body
import PlotMiner.Timelord.Frame

/-!
# Messages that are written and read back

The frame of a message whose layout is fixed is read as that message. So is the frame that is
written for a message that was read from any frame at all, unless there are doubles in its body:
what was tolerated when the frame was read is gone, and the message stays the same
(`frame_round_trip`).
-/

namespace PlotMiner.Timelord

open Json Text

namespace MessageType

theorem id_of_ofId? {n : Int} {t : MessageType} (h : ofId? n = some t) : t.id = n := by
  simpa using List.find?_some h

end MessageType

namespace Message

/-- The kinds of messages whose body has a fixed layout, or is empty. -/
def Typed : Message → Prop
  | .pong | .proof _ | .calcReply _ | .ping | .calcRequest _ | .querySpeed => True
  | .ready _ | .speed _ | .unknown _ _ => False

structure Written (m : Message) (v : Value) : Prop where
  toValue : m.toValue? = some v
  plain : v.Plain maxDepth
  ofValue : ofValue v = .ok m

theorem idOf?_insertField {n : Int} (h : n ≤ Int64.maxValue.toInt)
    (fields : List (String × Value)) :
    idOf? (.object (insertField "id" (.int n) fields)) = some n := by
  have hfound : (insertField "id" (Value.int n) fields).lookup "id" = some (.number (.int n)) :=
    lookup_insertField_self
  simp only [idOf?, Value.get?, hfound]
  exact if_pos h

/-- What is left to show of a message of a type is that its body is read back. -/
theorem written_of_type {m : Message} {t : MessageType} {own : List (String × Value)}
    (htype : m.id = t.id) (hbody : m.body = .object own)
    (hplain : (Value.object own).Plain maxDepth)
    (hback : ∀ id, ofParts t.id (.object (insertField "id" id own)) = .ok m) :
    ∃ v, Written m v := by
  have hsmall : t.id ≤ Int64.maxValue.toInt ∧ InRange t.id := by
    unfold InRange
    cases t <;> decide
  refine ⟨.object (insertField "id" (.int t.id) own), ?toValue, ?plain, ?ofValue⟩
  case toValue => rw [toValue?, hbody, htype]
  case plain => exact hplain.insertField "id" ⟨rfl, hsmall.2⟩
  case ofValue =>
    rw [ofValue, idOf?_insertField hsmall.1]
    exact hback _

theorem written_of_empty {m : Message} {t : MessageType} (htype : m.id = t.id)
    (hbody : m.body = .object []) (hback : ∀ v, ofParts t.id v = .ok m) : ∃ v, Written m v := by
  have hplain : (Value.object []).Plain maxDepth :=
    Value.plain_object_iff.2 ⟨List.Pairwise.nil, by simp⟩
  exact written_of_type htype hbody hplain fun _ => hback _

theorem written_of_body {α : Type} [Encode α] [Decode α] {a : α} (h : ∃ own, Body a own)
    {make : α → Message} {t : MessageType} (htype : (make a).id = t.id)
    (hbody : (make a).body = encode a) (hback : ∀ v, ofParts t.id v = ofBody make v) :
    ∃ v, Written (make a) v := by
  obtain ⟨own, h⟩ := h
  refine written_of_type htype (hbody.trans h.encode_eq) (h.plain (by decide)) fun id => ?_
  rw [hback, h.ofBody_insertField]

theorem Typed.written {m : Message} (h : m.Typed) : ∃ v, Written m v := by
  cases m with
  | pong => exact written_of_empty (t := .pong) rfl rfl fun _ => rfl
  | ping => exact written_of_empty (t := .ping) rfl rfl fun _ => rfl
  | querySpeed => exact written_of_empty (t := .querySpeed) rfl rfl fun _ => rfl
  | proof p => exact written_of_body (t := .proof) p.body rfl rfl fun _ => rfl
  | calcReply r => exact written_of_body (t := .calcReply) r.body rfl rfl fun _ => rfl
  | calcRequest c => exact written_of_body (t := .calcRequest) c.body rfl rfl fun _ => rfl
  | ready _ | speed _ | unknown _ _ => exact h.elim

theorem exists_of_ofBody {α : Type} [Decode α] {make : α → Message} {m : Message} {v : Value}
    (h : ofBody make v = .ok m) : ∃ a, m = make a := by
  unfold ofBody at h
  split at h
  case h_1 a _ => exact ⟨a, (Except.ok.inj h).symm⟩
  case h_2 => cases h

theorem typed_or_whole {m : Message} {v : Value} (h : ofValue v = .ok m) :
    m.Typed ∨ m.body = v ∧ idOf? v = some m.id := by
  unfold ofValue at h
  cases hnumber : idOf? v with
  | none => simp [hnumber] at h
  | some n =>
    simp only [hnumber] at h
    unfold ofParts at h
    cases htype : MessageType.ofId? n with
    | none =>
      simp only [htype, Except.ok.injEq] at h
      exact .inr ⟨h ▸ rfl, h ▸ rfl⟩
    | some t =>
      have hsame := MessageType.id_of_ofId? htype
      cases t <;> simp only [htype] at h
      case pong | ping | querySpeed =>
        obtain rfl := Except.ok.inj h
        exact .inl trivial
      case proof | calcReply | calcRequest =>
        obtain ⟨a, rfl⟩ := exists_of_ofBody h
        exact .inl trivial
      case ready | speed =>
        obtain rfl := Except.ok.inj h
        exact .inr ⟨rfl, hsame ▸ rfl⟩

theorem eq_object_of_idOf? {v : Value} {n : Int} (h : idOf? v = some n) :
    ∃ fields, v = .object fields ∧ ("id", Value.int n) ∈ fields := by
  unfold idOf? at h
  split at h
  case h_1 hnumber =>
    split at h
    case isTrue =>
      obtain rfl := Option.some.inj h
      cases v with
      | object fields => exact ⟨fields, rfl, mem_of_lookup hnumber⟩
      | _ => cases hnumber
    case isFalse => cases h
  case h_2 => cases h

/-- A message that was read is written again, the number being put where it was. -/
theorem written_of_ofValue {m : Message} {v : Value} (h : ofValue v = .ok m)
    (hfits : v.Fits maxDepth) (hints : m.body.isExact) : ∃ w, Written m w := by
  rcases typed_or_whole h with htyped | ⟨hbody, hnumber⟩
  · exact htyped.written
  · obtain ⟨fields, rfl, hmem⟩ := eq_object_of_idOf? hnumber
    have hplain : (Value.object fields).Plain maxDepth := ⟨hbody ▸ hints, hfits⟩
    have hordered := (Value.plain_object_iff.1 hplain).1
    refine ⟨.object fields, ?_, hplain, h⟩
    rw [toValue?, hbody]
    simp only [hordered.insertField_of_mem hmem]

theorem takeWhile_append {bytes : List UInt8} (h : delimiter ∉ bytes) (rest : List UInt8) :
    (bytes ++ rest).takeWhile (· ≠ delimiter) = bytes ++ rest.takeWhile (· ≠ delimiter) := by
  refine List.takeWhile_append_of_pos ?_
  intro b hb
  refine decide_eq_true ?_
  rintro rfl
  exact h hb

theorem takeWhile_eq_self {bytes : List UInt8} (h : delimiter ∉ bytes) :
    bytes.takeWhile (· ≠ delimiter) = bytes := by
  simpa using takeWhile_append h []

theorem ofFrame_append {bytes : List UInt8} (h : delimiter ∉ bytes) (rest : List UInt8) :
    ofFrame (bytes ++ delimiter :: rest) = ofFrame bytes := by
  have hcut : (bytes ++ delimiter :: rest).takeWhile (· ≠ delimiter) = bytes := by
    simpa using takeWhile_append h (delimiter :: rest)
  simp only [ofFrame, hcut, takeWhile_eq_self h]

theorem delimiter_not_mem_render {v : Value} (hints : v.isExact) : delimiter ∉ utf8 v.render := by
  refine zero_not_mem_utf8 ?_
  intro c hc
  have hvisible := visible_render hints c hc
  omega

theorem ofFrame_render {v w : Value} (hints : v.isExact)
    (hparsed : Value.parse? v.render = some w) :
    ofFrame (utf8 v.render) = ofValue w := by
  simp only [ofFrame, takeWhile_eq_self (delimiter_not_mem_render hints), decodeUtf8?_utf8,
    Option.bind_some, hparsed]

namespace Written

variable {m : Message} {v : Value}

theorem exists_object (h : Written m v) : ∃ fields, v = .object fields := by
  have hwritten := h.toValue
  unfold toValue? at hwritten
  split at hwritten
  case h_1 => exact ⟨_, (Option.some.inj hwritten).symm⟩
  case h_2 => cases hwritten

theorem toFrame_eq (h : Written m v) : m.toFrame = .ok (utf8 v.render ++ [delimiter]) := by
  rw [toFrame, h.toValue]

theorem delimiter_not_mem (h : Written m v) : delimiter ∉ utf8 v.render :=
  delimiter_not_mem_render h.plain.isExact

theorem ofFrame_eq (h : Written m v) : ofFrame (utf8 v.render) = .ok m := by
  rw [ofFrame_render h.plain.isExact (Value.parse?_render h.plain), h.ofValue]

theorem round_trip (h : Written m v) : ∃ frame, m.toFrame = .ok frame ∧ ofFrame frame = .ok m := by
  refine ⟨_, h.toFrame_eq, ?_⟩
  rw [ofFrame_append h.delimiter_not_mem, h.ofFrame_eq]

end Written

theorem fits_of_ofFrame {frame : List UInt8} {m : Message} (h : ofFrame frame = .ok m) :
    ∃ v, ofValue v = .ok m ∧ v.Fits maxDepth := by
  simp only [ofFrame] at h
  split at h
  case h_1 v htext =>
    obtain ⟨cs, -, hvalue⟩ := Option.bind_eq_some_iff.1 htext
    exact ⟨v, h, Value.fits_of_parse? hvalue⟩
  case h_2 => cases h

/-- A message with a fixed layout is read back from its frame. A message that was read from whatever
frame, and has no doubles in its body, has a frame of its own, and is read back from that. -/
theorem frame_round_trip :
    (∀ m : Message, m.Typed → ∃ frame, m.toFrame = .ok frame ∧ ofFrame frame = .ok m) ∧
    (∀ (received : List UInt8) (m : Message), ofFrame received = .ok m → m.body.isExact →
      ∃ frame, m.toFrame = .ok frame ∧ ofFrame frame = .ok m) := by
  constructor
  · intro m htyped
    obtain ⟨v, hwritten⟩ := htyped.written
    exact hwritten.round_trip
  · intro received m hread hints
    obtain ⟨v, hvalue, hfits⟩ := fits_of_ofFrame hread
    obtain ⟨w, hwritten⟩ := written_of_ofValue hvalue hfits hints
    exact hwritten.round_trip

def shuffled : Value :=
  .object [("peers", .array [.object [], .int (-7)]), ("id", .int 1020)]

def ordered : Value :=
  .object [("id", .int 1020), ("peers", .array [.object [], .int (-7)])]

theorem frame_round_trip_shuffled :
    (ping.Typed ∧ ∃ frame, ping.toFrame = .ok frame ∧ ofFrame frame = .ok ping) ∧
    (ofFrame (utf8 shuffled.render ++ [delimiter, 255]) = .ok (ready ordered) ∧
      (ready ordered).body.isExact ∧
      ∃ frame, (ready ordered).toFrame = .ok frame ∧ ofFrame frame = .ok (ready ordered)) := by
  have hints : shuffled.isExact := rfl
  have hparsed : Value.parse? shuffled.render = some ordered := Value.parse?_of_toValue hints rfl
  have hread : ofFrame (utf8 shuffled.render ++ [delimiter, 255]) = .ok (ready ordered) := by
    rw [ofFrame_append (delimiter_not_mem_render hints), ofFrame_render hints hparsed]
    rfl
  obtain ⟨hwritten, hagain⟩ := frame_round_trip
  exact ⟨⟨trivial, hwritten ping trivial⟩, hread, rfl, hagain _ _ hread rfl⟩

end Message

end PlotMiner.Timelord
