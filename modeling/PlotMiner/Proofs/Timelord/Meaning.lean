import PlotMiner.Proofs.Json.Acceptance
import PlotMiner.Proofs.Timelord.RoundTrip

/-!
# What frames mean

A frame is the text of a JSON object that names its type by a number of 64 bits with a sign. Proofs,
replies and requests have a layout: some fields must be there, others may be absent or null, and
what other fields there are does not matter. The layouts are written down here field by field, and
so is what makes a frame no message at all. The reader takes every frame for what it means
(`Message.ofFrame_eq_ok_iff`), and refuses the others (`Message.ofFrame_eq_error_iff`).
-/

namespace PlotMiner

open Json

namespace Json

section

variable {α β : Type} [Decode α] {v : Value} {name : String}

/-- A field that has to be there holds `a`. -/
def Value.Holds (v : Value) (name : String) (a : α) : Prop :=
  ∃ w, v.get? name = some w ∧ decode w = .ok a

/-- What a field holds that may be absent or null. -/
inductive Value.MayHold (v : Value) (name : String) : Option α → Prop
  | absent (hmissing : v.get? name = none) : MayHold v name none
  | null (hthere : v.get? name = some .null) : MayHold v name none
  | present {w : Value} {a : α} (hthere : v.get? name = some w) (hgiven : w ≠ .null)
      (hvalue : decode w = .ok a) : MayHold v name (some a)

theorem decode_null : (decode Value.null : Except DecodeError (Option α)) = .ok none := rfl

theorem decode_option_iff {w : Value} (hgiven : w ≠ .null) {o : Option α} :
    (decode w : Except DecodeError (Option α)) = .ok o ↔ ∃ a, decode w = .ok a ∧ o = some a := by
  have hunfolded : (decode w : Except DecodeError (Option α)) = (decode w).map some := by
    cases w with
    | null => exact absurd rfl hgiven
    | _ => rfl
  rw [hunfolded]
  cases (decode w : Except DecodeError α) <;> simp [Except.map, eq_comm]

theorem Value.mayHold_iff {o : Option α} :
    v.MayHold name o ↔
      match v.get? name with
      | some w => decode w = .ok o
      | none => some none = some o := by
  constructor
  · intro h
    cases h with
    | absent hmissing => simp [hmissing]
    | null hthere => simp [hthere, decode_null]
    | present hthere hgiven hvalue => simp [hthere, (decode_option_iff hgiven).2 ⟨_, hvalue, rfl⟩]
  · intro h
    cases hthere : v.get? name with
    | none =>
      rw [hthere] at h
      cases h
      exact .absent hthere
    | some w =>
      rw [hthere] at h
      by_cases hnull : w = .null
      · subst hnull
        cases h
        exact .null hthere
      · obtain ⟨a, hvalue, rfl⟩ := (decode_option_iff hnull).1 h
        exact .present hthere hnull hvalue

theorem Record.ofFields_field_iff {r : Record Value (α → β)} {b : β} :
    (r.field name).ofFields v.get? = .ok b ↔
      ∃ f a, r.ofFields v.get? = .ok f ∧ b = f a ∧ v.Holds name a := by
  rw [Record.field, Record.ofFields_andField_iff]
  unfold Value.Holds
  cases v.get? name <;> simp

theorem Record.ofFields_optional_iff {r : Record Value (Option α → β)} {b : β} :
    (r.fieldD name none).ofFields v.get? = .ok b ↔
      ∃ f o, r.ofFields v.get? = .ok f ∧ b = f o ∧ v.MayHold name o := by
  simp only [Record.fieldD, Record.ofFields_andField_iff, Value.mayHold_iff]
  cases v.get? name <;> rfl

end

theorem Record.Fair.read_iff {α : Type} {r : Record Value α} (hfair : r.Fair) (type : String)
    {fields : List (String × Value)} (hordered : Ordered fields) {a : α} :
    read type r (Value.object fields) = .ok a ↔ r.ofFields (Value.object fields).get? = .ok a :=
  hfair.read_distinct_iff type rfl hordered.distinct

end Json

namespace Timelord

structure Calc.Layout (v : Value) (c : Calc) : Prop where
  challenge : v.Holds "challenge" c.challenge
  iters : v.Holds "iters" c.iters
  netspace : v.Holds "netspace" c.netspace

structure ProofMessage.Layout (v : Value) (m : ProofMessage) : Prop where
  challenge : v.Holds "challenge" m.challenge
  y : v.Holds "y" m.y
  proof : v.Holds "proof" m.proof
  witnessType : v.Holds "witness_type" m.witnessType
  iters : v.Holds "iters" m.iters
  duration : v.Holds "duration" m.duration

structure CalcReply.Layout (v : Value) (m : CalcReply) : Prop where
  challenge : v.Holds "challenge" m.challenge
  calculating : v.Holds "calculating" m.calculating
  y : v.MayHold "y" m.y
  proof : v.MayHold "proof" m.proof
  witnessType : v.MayHold "witness_type" m.witnessType
  iters : v.MayHold "iters" m.iters
  duration : v.MayHold "duration" m.duration

section

variable {fields : List (String × Value)} (hordered : Ordered fields)

include hordered

theorem Calc.decode_iff {c : Calc} :
    decode (Value.object fields) = .ok c ↔ c.Layout (.object fields) := by
  have hfair := Record.fair_pure (S := Value) Calc.mk
    |>.field "challenge" |>.field "iters" |>.field "netspace"
  refine (hfair.read_iff "Calc" hordered).trans ?_
  simp only [Record.ofFields_field_iff]
  constructor
  · rintro ⟨_, _, ⟨_, _, ⟨_, _, ⟨⟩, rfl, h₁⟩, rfl, h₂⟩, rfl, h₃⟩
    exact ⟨h₁, h₂, h₃⟩
  · rintro ⟨h₁, h₂, h₃⟩
    exact ⟨_, _, ⟨_, _, ⟨_, _, rfl, rfl, h₁⟩, rfl, h₂⟩, rfl, h₃⟩

theorem ProofMessage.decode_iff {m : ProofMessage} :
    decode (Value.object fields) = .ok m ↔ m.Layout (.object fields) := by
  have hfair := Record.fair_pure (S := Value) ProofMessage.mk
    |>.field "challenge" |>.field "y" |>.field "proof" |>.field "witness_type" |>.field "iters"
    |>.field "duration"
  refine (hfair.read_iff "ProofMessage" hordered).trans ?_
  simp only [Record.ofFields_field_iff]
  constructor
  · rintro ⟨_, _, ⟨_, _, ⟨_, _, ⟨_, _, ⟨_, _, ⟨_, _, ⟨⟩, rfl, h₁⟩, rfl, h₂⟩, rfl, h₃⟩, rfl, h₄⟩,
      rfl, h₅⟩, rfl, h₆⟩
    exact ⟨h₁, h₂, h₃, h₄, h₅, h₆⟩
  · rintro ⟨h₁, h₂, h₃, h₄, h₅, h₆⟩
    exact ⟨_, _, ⟨_, _, ⟨_, _, ⟨_, _, ⟨_, _, ⟨_, _, rfl, rfl, h₁⟩, rfl, h₂⟩, rfl, h₃⟩, rfl, h₄⟩,
      rfl, h₅⟩, rfl, h₆⟩

theorem CalcReply.decode_iff {m : CalcReply} :
    decode (Value.object fields) = .ok m ↔ m.Layout (.object fields) := by
  have hfair := Record.fair_pure (S := Value) CalcReply.mk
    |>.field "challenge" |>.field "calculating" |>.fieldD "y" none |>.fieldD "proof" none
    |>.fieldD "witness_type" none |>.fieldD "iters" none |>.fieldD "duration" none
  refine (hfair.read_iff "CalcReply" hordered).trans ?_
  simp only [Record.ofFields_field_iff, Record.ofFields_optional_iff]
  constructor
  · rintro ⟨_, _, ⟨_, _, ⟨_, _, ⟨_, _, ⟨_, _, ⟨_, _, ⟨_, _, ⟨⟩, rfl, h₁⟩, rfl, h₂⟩, rfl, h₃⟩, rfl,
      h₄⟩, rfl, h₅⟩, rfl, h₆⟩, rfl, h₇⟩
    exact ⟨h₁, h₂, h₃, h₄, h₅, h₆, h₇⟩
  · rintro ⟨h₁, h₂, h₃, h₄, h₅, h₆, h₇⟩
    exact ⟨_, _, ⟨_, _, ⟨_, _, ⟨_, _, ⟨_, _, ⟨_, _, ⟨_, _, rfl, rfl, h₁⟩, rfl, h₂⟩, rfl, h₃⟩, rfl,
      h₄⟩, rfl, h₅⟩, rfl, h₆⟩, rfl, h₇⟩

end

structure Numbered (v : Value) (id : Int) : Prop where
  there : v.get? "id" = some (.int id)
  least : Int64.minValue.toInt ≤ id
  most : id ≤ Int64.maxValue.toInt

/-- What an object means, by its number. -/
inductive Means (v : Value) : Message → Prop
  | pong : Numbered v 1000 → Means v .pong
  | proof {m} : Numbered v 1010 → ProofMessage.Layout v m → Means v (.proof m)
  | ready : Numbered v 1020 → Means v (.ready v)
  | speed : Numbered v 1030 → Means v (.speed v)
  | calcReply {m} : Numbered v 1040 → CalcReply.Layout v m → Means v (.calcReply m)
  | ping : Numbered v 2000 → Means v .ping
  | calcRequest {c} : Numbered v 2010 → Calc.Layout v c → Means v (.calcRequest c)
  | querySpeed : Numbered v 2020 → Means v .querySpeed
  | unknown {id} : Numbered v id → id ∉ [1000, 1010, 1020, 1030, 1040, 2000, 2010, 2020] →
      Means v (.unknown id v)

/-- The object has a number, but not what the layout of its type asks for. -/
inductive Misfit (v : Value) : Prop
  | proof : Numbered v 1010 → (∀ m, ¬ ProofMessage.Layout v m) → Misfit v
  | calcReply : Numbered v 1040 → (∀ m, ¬ CalcReply.Layout v m) → Misfit v
  | calcRequest : Numbered v 2010 → (∀ c, ¬ Calc.Layout v c) → Misfit v

def Spells (bytes : List UInt8) (v : Value) : Prop :=
  ∃ text, bytes = Text.utf8 text ∧ Value.parse? text = some v

inductive Refused (bytes : List UInt8) : Prop
  | notJson : (∀ v, ¬ Spells bytes v) → Refused bytes
  | noId {v} : Spells bytes v → (∀ id, ¬ Numbered v id) → Refused bytes
  | misfit {v} : Spells bytes v → Misfit v → Refused bytes

theorem Numbered.unique {v : Value} {id id' : Int} (h : Numbered v id) (h' : Numbered v id') :
    id = id' := by
  have hsame := h.there.symm.trans h'.there
  simpa [Value.int] using hsame

theorem Means.numbered {v : Value} {m : Message} (h : Means v m) : Numbered v m.id := by
  cases h with
  | proof hnumbered | calcReply hnumbered | calcRequest hnumbered | unknown hnumbered =>
    exact hnumbered
  | pong hnumbered | ready hnumbered | speed hnumbered | ping hnumbered | querySpeed hnumbered =>
    exact hnumbered

theorem MessageType.ofId?_eq_none_iff {n : Int} :
    ofId? n = none ↔ n ∉ [1000, 1010, 1020, 1030, 1040, 2000, 2010, 2020] := by
  simp only [ofId?, List.find?_eq_none, all, MessageType.id, List.mem_cons, List.not_mem_nil,
    not_or]
  simp [eq_comm]

namespace Message

section

variable {α : Type} [Decode α] {v : Value} {m : Message}

theorem idOf?_iff {room : Nat} (hfits : v.Fits room) {n : Int} :
    idOf? v = some n ↔ Numbered v n := by
  constructor
  · intro h
    obtain ⟨fields, rfl, hmem⟩ := eq_object_of_idOf? h
    have hinRange : InRange n := by
      cases room with
      | zero => cases hfits
      | succ room => exact Value.fieldsFit_iff.1 hfits.2 _ hmem
    have hthere : (Value.object fields).get? "id" = some (.int n) := by
      cases room with
      | zero => cases hfits
      | succ room => exact hfits.1.lookup_of_mem hmem
    refine ⟨hthere, hinRange.1, ?_⟩
    simpa [idOf?, hthere, Value.int] using h
  · rintro ⟨hthere, -, hmost⟩
    simpa [idOf?, hthere, Value.int] using hmost

theorem ofBody_iff {make : α → Message} :
    ofBody make v = .ok m ↔ ∃ a, decode v = .ok a ∧ m = make a := by
  unfold ofBody
  cases (decode v : Except DecodeError α) <;> simp [eq_comm]

theorem ofParts_iff {fields : List (String × Value)} (hordered : Ordered fields) {id : Int}
    (hnumbered : Numbered (.object fields) id) :
    ofParts id (.object fields) = .ok m ↔ Means (.object fields) m := by
  constructor
  · intro h
    unfold ofParts at h
    cases htype : MessageType.ofId? id with
    | none =>
      rw [htype] at h
      cases h
      exact .unknown hnumbered (MessageType.ofId?_eq_none_iff.1 htype)
    | some t =>
      rw [htype] at h
      obtain rfl := MessageType.id_of_ofId? htype
      cases t with
      | pong => cases h; exact .pong hnumbered
      | ready => cases h; exact .ready hnumbered
      | speed => cases h; exact .speed hnumbered
      | ping => cases h; exact .ping hnumbered
      | querySpeed => cases h; exact .querySpeed hnumbered
      | proof =>
        obtain ⟨p, hdecoded, rfl⟩ := ofBody_iff.1 h
        exact .proof hnumbered ((ProofMessage.decode_iff hordered).1 hdecoded)
      | calcReply =>
        obtain ⟨r, hdecoded, rfl⟩ := ofBody_iff.1 h
        exact .calcReply hnumbered ((CalcReply.decode_iff hordered).1 hdecoded)
      | calcRequest =>
        obtain ⟨c, hdecoded, rfl⟩ := ofBody_iff.1 h
        exact .calcRequest hnumbered ((Calc.decode_iff hordered).1 hdecoded)
  · intro h
    cases h with
    | pong hother | ready hother | speed hother | ping hother | querySpeed hother =>
      obtain rfl := hnumbered.unique hother
      rfl
    | proof hother hlayout =>
      obtain rfl := hnumbered.unique hother
      exact ofBody_iff.2 ⟨_, (ProofMessage.decode_iff hordered).2 hlayout, rfl⟩
    | calcReply hother hlayout =>
      obtain rfl := hnumbered.unique hother
      exact ofBody_iff.2 ⟨_, (CalcReply.decode_iff hordered).2 hlayout, rfl⟩
    | calcRequest hother hlayout =>
      obtain rfl := hnumbered.unique hother
      exact ofBody_iff.2 ⟨_, (Calc.decode_iff hordered).2 hlayout, rfl⟩
    | unknown hother hstrange =>
      obtain rfl := hnumbered.unique hother
      rw [ofParts, MessageType.ofId?_eq_none_iff.2 hstrange]

theorem Numbered.exists_object {room : Nat} (hfits : v.Fits room) {id : Int} (h : Numbered v id) :
    ∃ fields, v = .object fields ∧ Ordered fields := by
  have hthere := h.there
  cases v with
  | object fields =>
    cases room with
    | zero => cases hfits
    | succ room => exact ⟨fields, rfl, hfits.1⟩
  | _ => cases hthere

/-- A value that is read from a text has the meaning that its number gives it. -/
theorem ofValue_eq_ok_iff {room : Nat} (hfits : v.Fits room) : ofValue v = .ok m ↔ Means v m := by
  unfold ofValue
  cases hnumber : idOf? v with
  | none =>
    refine iff_of_false nofun fun h => ?_
    exact Option.some_ne_none _ (((idOf?_iff hfits).2 h.numbered).symm.trans hnumber)
  | some id =>
    have hnumbered := (idOf?_iff hfits).1 hnumber
    obtain ⟨fields, rfl, hordered⟩ := Numbered.exists_object hfits hnumbered
    exact ofParts_iff hordered hnumbered

/-- An object with a number means nothing only if it does not fit the layout. -/
theorem misfit_iff {n : Int} (hnumbered : Numbered v n) : Misfit v ↔ ∀ m, ¬ Means v m := by
  constructor
  · intro hmisfit m hmeans
    cases hmisfit with
    | proof hhere hnone =>
      have hsame := hhere.unique hmeans.numbered
      cases hmeans with
      | proof _ hlayout => exact hnone _ hlayout
      | unknown _ hstrange =>
        obtain rfl := hsame
        exact hstrange (by decide)
      | _ => simp [id, type?, MessageType.id] at hsame
    | calcReply hhere hnone =>
      have hsame := hhere.unique hmeans.numbered
      cases hmeans with
      | calcReply _ hlayout => exact hnone _ hlayout
      | unknown _ hstrange =>
        obtain rfl := hsame
        exact hstrange (by decide)
      | _ => simp [id, type?, MessageType.id] at hsame
    | calcRequest hhere hnone =>
      have hsame := hhere.unique hmeans.numbered
      cases hmeans with
      | calcRequest _ hlayout => exact hnone _ hlayout
      | unknown _ hstrange =>
        obtain rfl := hsame
        exact hstrange (by decide)
      | _ => simp [id, type?, MessageType.id] at hsame
  · intro hnone
    by_cases hknown : n ∈ [1000, 1010, 1020, 1030, 1040, 2000, 2010, 2020]
    case neg => exact absurd (.unknown hnumbered hknown) (hnone _)
    simp only [List.mem_cons, List.not_mem_nil, or_false] at hknown
    obtain rfl | rfl | rfl | rfl | rfl | rfl | rfl | rfl := hknown
    · exact absurd (.pong hnumbered) (hnone _)
    · exact .proof hnumbered fun m hlayout => hnone _ (.proof hnumbered hlayout)
    · exact absurd (.ready hnumbered) (hnone _)
    · exact absurd (.speed hnumbered) (hnone _)
    · exact .calcReply hnumbered fun m hlayout => hnone _ (.calcReply hnumbered hlayout)
    · exact absurd (.ping hnumbered) (hnone _)
    · exact .calcRequest hnumbered fun m hlayout => hnone _ (.calcRequest hnumbered hlayout)
    · exact absurd (.querySpeed hnumbered) (hnone _)

variable {frame : List UInt8}

theorem spells_iff (hclean : delimiter ∉ frame) :
    (Text.decodeUtf8? (frame.takeWhile (· ≠ delimiter))).bind Value.parse? = some v ↔
      Spells frame v := by
  rw [takeWhile_eq_self hclean, Option.bind_eq_some_iff]
  refine exists_congr fun text => and_congr_left fun _ => ?_
  constructor
  · exact Text.eq_utf8_of_decodeUtf8?
  · rintro rfl
    exact Text.decodeUtf8?_utf8 text

theorem fits_of_spells (h : Spells frame v) : v.Fits maxDepth := by
  obtain ⟨text, -, hparsed⟩ := h
  exact Value.fits_of_parse? hparsed

theorem ofFrame_of_spells (hclean : delimiter ∉ frame) (h : Spells frame v) :
    ofFrame frame = ofValue v := by
  simp only [ofFrame, (spells_iff hclean).2 h]

theorem ofFrame_eq_ok_iff (hclean : delimiter ∉ frame) :
    ofFrame frame = .ok m ↔ ∃ v, Spells frame v ∧ Means v m := by
  constructor
  · intro hread
    cases htext : (Text.decodeUtf8? (frame.takeWhile (· ≠ delimiter))).bind Value.parse? with
    | none => simp only [ofFrame, htext, reduceCtorEq] at hread
    | some v =>
      have hspells := (spells_iff hclean).1 htext
      rw [ofFrame_of_spells hclean hspells] at hread
      exact ⟨v, hspells, (ofValue_eq_ok_iff (fits_of_spells hspells)).1 hread⟩
  · rintro ⟨v, hspells, hmeans⟩
    rw [ofFrame_of_spells hclean hspells]
    exact (ofValue_eq_ok_iff (fits_of_spells hspells)).2 hmeans

theorem spells_unique {w : Value} (h : Spells frame v) (h' : Spells frame w) : v = w := by
  obtain ⟨text, rfl, hparsed⟩ := h
  obtain ⟨text', hsame, hparsed'⟩ := h'
  have htexts := (Text.decodeUtf8?_utf8 text).symm.trans (hsame ▸ Text.decodeUtf8?_utf8 text')
  cases htexts
  exact Option.some.inj (hparsed.symm.trans hparsed')

theorem refused_iff : Refused frame ↔ ∀ m v, Spells frame v → ¬ Means v m := by
  constructor
  · intro hrefused m v hspells hmeans
    cases hrefused with
    | notJson hnone => exact hnone v hspells
    | noId hspells' hnone =>
      obtain rfl := spells_unique hspells hspells'
      exact hnone _ hmeans.numbered
    | misfit hspells' hmisfit =>
      obtain rfl := spells_unique hspells hspells'
      exact (misfit_iff hmeans.numbered).1 hmisfit m hmeans
  · intro hnone
    by_cases htext : ∃ v, Spells frame v
    case neg => exact .notJson fun v hspells => htext ⟨v, hspells⟩
    obtain ⟨v, hspells⟩ := htext
    by_cases hnumber : ∃ id, Numbered v id
    case neg => exact .noId hspells fun id hnumbered => hnumber ⟨id, hnumbered⟩
    obtain ⟨id, hnumbered⟩ := hnumber
    exact .misfit hspells ((misfit_iff hnumbered).2 fun m => hnone m v hspells)

theorem ofFrame_eq_error_iff (hclean : delimiter ∉ frame) :
    (∃ e, ofFrame frame = .error e) ↔ Refused frame := by
  have hok (m : Message) := ofFrame_eq_ok_iff (m := m) hclean
  rw [refused_iff]
  cases hread : ofFrame frame with
  | ok m =>
    obtain ⟨v, hspells, hmeans⟩ := (hok m).1 hread
    exact iff_of_false nofun fun hnone => hnone m v hspells hmeans
  | error e =>
    refine iff_of_true ⟨e, rfl⟩ fun m v hspells hmeans => ?_
    cases hread.symm.trans ((hok m).2 ⟨v, hspells, hmeans⟩)

end

theorem ofFrame_nil : ofFrame [] = .error (.notJson []) := by
  have hnone : Value.parse? [] = none := by
    rw [Value.parse?, Document.parse?, tokens?_nil]
    rfl
  have htext : Text.decodeUtf8? [] = some [] := Text.decodeUtf8?_utf8 []
  simp only [ofFrame, List.takeWhile_nil, htext, Option.bind_some, hnone]

end Message

end Timelord

end PlotMiner
