import PlotMiner.Node.Query
import PlotMiner.Proofs.Json.Acceptance
import PlotMiner.Proofs.Json.Truncation
import PlotMiner.Proofs.Text.Strip

/-!
# What an answer of the node comes to

The envelope and the error in it are written down part by part, and a body has an envelope exactly
when its document offers these parts (`Envelope.parse?_eq_some_iff`). The classes of answers are
told apart by that alone (`Query.reply_classified`): a body that is blank or has no envelope counts
as no answer, an envelope with an error as that error, and only an envelope without one as a result,
which is either the value that was asked for or data that cannot be used.
-/

namespace PlotMiner

open Json Text

namespace Json

theorem isBlank_of_nextToken {c : Char} {cs rest : List Char} {t : Token}
    (h : nextToken (c :: cs) = some (t, rest)) : isBlank c = false := by
  unfold nextToken at h
  split at h
  case h_12 =>
    obtain ⟨_, hscanned, -⟩ := Option.map_eq_some_iff.1 h
    obtain ⟨d, ds, hsame, hdigit⟩ := exists_digit_of_scanNumeral hscanned
    obtain ⟨rfl, rfl⟩ := List.cons.inj hsame
    exact isBlank_of_isDigit hdigit
  all_goals
    rename_i hsame
    obtain ⟨rfl, -⟩ := List.cons.inj hsame
    rfl

/-- A text of white space of any kind has no tokens, if it can be cut into tokens at all. -/
theorem eq_nil_of_tokens?_blank {cs : List Char} (hblank : ∀ c ∈ cs, isBlank c = true)
    {ts : List Token} (h : tokens? cs = some ts) : ts = [] := by
  induction cs with
  | nil =>
    rw [tokens?_nil] at h
    exact (Option.some.inj h).symm
  | cons c cs ih =>
    obtain ⟨hfirst, hlater⟩ := List.forall_mem_cons.1 hblank
    by_cases hspace : isSpace c = true
    · rw [tokens?, if_pos hspace] at h
      exact ih hlater h
    · obtain ⟨t, rest, ts', htoken, -, -⟩ := exists_nextToken hspace h
      rw [isBlank_of_nextToken htoken] at hfirst
      cases hfirst

theorem Document.parse?_blank {cs : List Char} (hblank : ∀ c ∈ cs, isBlank c = true) :
    Document.parse? cs = none := by
  rw [Document.parse?]
  cases hcut : tokens? cs with
  | none => rfl
  | some ts =>
    obtain rfl := eq_nil_of_tokens?_blank hblank hcut
    rfl

def Document.IsInt (d : Document) (n : Int64) : Prop :=
  ∃ l, d = .number l ∧ l.value = .ok (.int n.toInt)

def Document.IsText (d : Document) (text : String) : Prop :=
  ∃ pieces, d = .string pieces ∧ stringOf pieces = .ok text

variable {room : Nat} {d : Document}

theorem decode_text_iff {text : String} :
    decode (Excerpt.mk room d) = .ok text ↔ d.IsText text := by
  constructor
  · intro h
    obtain ⟨v, hview, h⟩ := bind_eq_ok.1 h
    cases v with
    | string text =>
      cases h
      exact document_of_view hview
    | _ => cases h
  · rintro ⟨pieces, rfl, hvalue⟩
    refine bind_eq_ok.2 ⟨.string text, bind_eq_ok.2 ⟨text, lift_eq_ok.2 hvalue, rfl⟩, rfl⟩

theorem decode_int64_iff {n : Int64} : decode (Excerpt.mk room d) = .ok n ↔ d.IsInt n := by
  constructor
  · intro h
    obtain ⟨i, hread, hmade⟩ := bind_eq_ok.1 h
    obtain ⟨v, hview, hread⟩ := bind_eq_ok.1 hread
    match v with
    | .number (.int k) =>
      dsimp only at hread
      split at hread
      case isTrue hwithin =>
        cases hread
        cases hmade
        have hleast : -2 ^ 63 ≤ i := Int64.toInt_minValue ▸ hwithin.1
        have hbelow : i < 2 ^ 63 := Int.lt_of_le_sub_one (Int64.toInt_maxValue ▸ hwithin.2)
        rw [Document.IsInt, Int64.toInt_ofInt_of_le hleast hbelow]
        exact document_of_view hview
      case isFalse => cases hread
    | .number (.float _) | .null | .bool _ | .string _ | .array _ | .object _ => cases hread
  · rintro ⟨l, rfl, hvalue⟩
    apply Scalar.decode_eq
    exact .number (bind_eq_ok.2 ⟨_, lift_eq_ok.2 hvalue, rfl⟩)

theorem decode_value_iff {v : Value} :
    decode (Excerpt.mk room d) = .ok v ↔ d.toValue room = .ok v := lift_eq_ok

end Json

/-- An error is written with its code; it has no message if none is written. -/
structure EnvelopeError.Form (part : String → Option Document) (e : EnvelopeError) : Prop where
  code : ∃ d, part "code" = some d ∧ d.IsInt e.code
  message :
    match part "message" with
    | some d => d.IsText e.message
    | none => e.message = ""

def EnvelopeError.Written (d : Document) (e : EnvelopeError) : Prop :=
  ∃ part, d.Offers ["code", "message"] part ∧ e.Form part

inductive EnvelopeError.MayBe : Document → Option EnvelopeError → Prop
  | null : MayBe .null none
  | error {d e} (hwritten : Written d e) : MayBe d (some e)

/-- An envelope is written with a result, which may be anything that has a value and is null if none
is written, and with an error, which may be null or left out. -/
structure Envelope.Form (part : String → Option Document) (e : Envelope) : Prop where
  result :
    match part "result" with
    | some d => d.toValue (maxDepth - 1) = .ok e.result
    | none => e.result = .null
  error :
    match part "error" with
    | some d => EnvelopeError.MayBe d e.error
    | none => e.error = none

def Envelope.Written (d : Document) (e : Envelope) : Prop :=
  ∃ part, d.Offers ["result", "error"] part ∧ e.Form part

/-- The text is a document in which the envelope is written. -/
def Envelope.Spelled (body : List Char) (e : Envelope) : Prop :=
  ∃ d, Document.parse? body = some d ∧ e.Written d

section

variable {room : Nat} {d : Document}

theorem EnvelopeError.decode_iff {e : EnvelopeError} :
    decode (Excerpt.mk (room + 1) d) = .ok e ↔ e.Written d := by
  have hlisted : Record.Listed (S := Excerpt)
      (Record.pure EnvelopeError.mk |>.field "code" |>.fieldD "message" "") :=
    Record.listed_pure EnvelopeError.mk |>.field (by decide) |>.fieldD (by decide) ""
  refine (hlisted.read_excerpt_iff _).trans (exists_congr fun part => and_congr_right fun _ => ?_)
  rw [Record.ofFields_partD_iff]
  simp only [Record.ofFields_part_iff, decode_int64_iff, decode_text_iff]
  constructor
  · rintro ⟨_, message, ⟨_, code, ⟨⟩, rfl, hnumber⟩, rfl, htext⟩
    exact ⟨hnumber, htext⟩
  · rintro ⟨hnumber, htext⟩
    exact ⟨_, e.message, ⟨_, e.code, rfl, rfl, hnumber⟩, rfl, htext⟩

theorem EnvelopeError.decode_option_iff {o : Option EnvelopeError} :
    decode (Excerpt.mk (room + 1) d) = .ok o ↔ MayBe d o := by
  constructor
  · intro h
    obtain ⟨v, hview, h⟩ := bind_eq_ok.1 h
    cases v with
    | null =>
      cases h
      obtain rfl : d = .null := document_of_view hview
      exact .null
    | _ =>
      obtain ⟨e, hvalue, hmade⟩ := bind_eq_ok.1 h
      cases hmade
      exact .error (decode_iff.1 hvalue)
  · intro h
    cases h with
    | null => rfl
    | @error _ e hwritten =>
      have hvalue : decode (Excerpt.mk (room + 1) d) = .ok e := decode_iff.2 hwritten
      obtain ⟨part, hoffers, -⟩ := hwritten
      cases hoffers <;> exact bind_eq_ok.2 ⟨_, rfl, bind_eq_ok.2 ⟨e, hvalue, rfl⟩⟩

theorem Envelope.decode_iff {e : Envelope} :
    decode (Excerpt.mk maxDepth d) = .ok e ↔ e.Written d := by
  have hlisted : Record.Listed (S := Excerpt)
      (Record.pure Envelope.mk |>.fieldD "result" .null |>.fieldD "error" none) :=
    Record.listed_pure Envelope.mk |>.fieldD (by decide) .null |>.fieldD (by decide) none
  refine (hlisted.read_excerpt_iff _).trans (exists_congr fun part => and_congr_right fun _ => ?_)
  simp only [Record.ofFields_partD_iff, decode_value_iff, EnvelopeError.decode_option_iff]
  constructor
  · rintro ⟨_, error, ⟨_, result, ⟨⟩, rfl, hvalue⟩, rfl, hwrong⟩
    exact ⟨hvalue, hwrong⟩
  · rintro ⟨hvalue, hwrong⟩
    exact ⟨_, e.error, ⟨_, e.result, rfl, rfl, hvalue⟩, rfl, hwrong⟩

end

theorem Envelope.parse?_eq_some_iff {body : List Char} {e : Envelope} :
    parse? body = some e ↔ Spelled body e := by
  have hread (d : Document) :
      (decode (Excerpt.mk maxDepth d) : Except DecodeError Envelope).toOption = some e ↔
        e.Written d := by
    rw [← decode_iff]
    cases (decode (Excerpt.mk maxDepth d) : Except DecodeError Envelope) <;> simp [Except.toOption]
  simp only [parse?, Spelled, Option.bind_eq_bind, Option.bind_eq_some_iff, hread]

theorem Envelope.Spelled.not_blank {body : List Char} {e : Envelope} (h : Spelled body e) :
    body.all isBlank = false := by
  rw [Bool.eq_false_iff]
  intro hblank
  obtain ⟨d, hparsed, -⟩ := h
  rw [Document.parse?_blank (List.all_eq_true.1 hblank)] at hparsed
  cases hparsed

namespace Query

variable {α : Type} [Decode α] {q : Query α} {body : List Char}

theorem ofBody_of_spelled {e : Envelope} (h : e.Spelled body) : q.ofBody body = q.ofEnvelope e := by
  rw [ofBody, h.not_blank, if_neg Bool.false_ne_true, Envelope.parse?_eq_some_iff.2 h]

theorem exists_net_of_not_spelled (q : Query α) (hnone : ∀ e, ¬ Envelope.Spelled body e) :
    ∃ message, q.ofBody body = .error (.net message) := by
  have hunread : Envelope.parse? body = Option.none := by
    cases hparsed : Envelope.parse? body with
    | none => rfl
    | some e => exact absurd (Envelope.parse?_eq_some_iff.1 hparsed) (hnone e)
  rw [ofBody, hunread]
  split <;> exact ⟨_, rfl⟩

theorem ofEnvelope_eq_ok_iff {e : Envelope} {a : α} :
    q.ofEnvelope e = .ok a ↔ e.error = none ∧ decode e.result = .ok a := by
  unfold ofEnvelope
  split
  case h_1 err hwrong => simp [hwrong]
  case h_2 hright =>
    split
    case h_1 b hvalue => simp [hright, hvalue]
    case h_2 why hrefused => simp [hright, hrefused]

theorem ofEnvelope_eq_error_iff {e : Envelope} {f : Failure} :
    q.ofEnvelope e = .error f ↔
      (∃ err, e.error = some err ∧ f = .rpc err.code err.message) ∨
        ∃ why, e.error = none ∧ (decode e.result : Except DecodeError α) = .error why ∧
          f = .other .invalidData s!"Unexpected result for `{q.method}`: {why.message}" := by
  unfold ofEnvelope
  split
  case h_1 err hwrong => simp [hwrong, eq_comm]
  case h_2 hright =>
    split
    case h_1 b hvalue => simp [hright, hvalue]
    case h_2 why hrefused => simp [hright, hrefused, eq_comm]

theorem ofBody_eq_iff {outcome : Except Failure α} (hanswered : ∀ m, outcome ≠ .error (.net m)) :
    q.ofBody body = outcome ↔ ∃ e, Envelope.Spelled body e ∧ q.ofEnvelope e = outcome := by
  constructor
  · intro hsame
    by_contra hnone
    have hnone (e : Envelope) (hspelled : Envelope.Spelled body e) : False :=
      hnone ⟨e, hspelled, (ofBody_of_spelled hspelled).symm.trans hsame⟩
    obtain ⟨message, hnet⟩ := exists_net_of_not_spelled q hnone
    exact hanswered message (hsame.symm.trans hnet)
  · rintro ⟨e, hspelled, rfl⟩
    exact ofBody_of_spelled hspelled

/-- The answer counts as none exactly if the body is blank or has no envelope. -/
theorem ofBody_net_iff :
    (∃ f, q.ofBody body = .error f ∧ f.failureClass = .net) ↔
      (∀ c ∈ body, isBlank c = true) ∨ ∀ e, ¬ Envelope.Spelled body e := by
  constructor
  · rintro ⟨f, hfailed, hnet⟩
    right
    intro e hspelled
    rw [ofBody_of_spelled hspelled] at hfailed
    obtain ⟨err, -, rfl⟩ | ⟨why, -, -, rfl⟩ := ofEnvelope_eq_error_iff.1 hfailed
    · cases hnet
    · cases hnet
  · intro h
    have hnone (e : Envelope) (hspelled : Envelope.Spelled body e) : False := by
      obtain hblank | hnone := h
      · have hfilled := hspelled.not_blank
        rw [List.all_eq_true.2 hblank] at hfilled
        cases hfilled
      · exact hnone e hspelled
    obtain ⟨message, hnet⟩ := exists_net_of_not_spelled q hnone
    exact ⟨_, hnet, rfl⟩

theorem ofBody_eq_ok_iff {a : α} :
    q.ofBody body = .ok a ↔
      ∃ result, Envelope.Spelled body ⟨result, none⟩ ∧ decode result = .ok a := by
  have hanswered (m : String) : Except.ok a ≠ (.error (.net m) : Except Failure α) := nofun
  refine (ofBody_eq_iff hanswered).trans ⟨?_, ?_⟩
  · rintro ⟨⟨result, error⟩, hspelled, hvalue⟩
    obtain ⟨rfl, hvalue⟩ := ofEnvelope_eq_ok_iff.1 hvalue
    exact ⟨result, hspelled, hvalue⟩
  · rintro ⟨result, hspelled, hvalue⟩
    exact ⟨_, hspelled, ofEnvelope_eq_ok_iff.2 ⟨rfl, hvalue⟩⟩

/-- A failure of an answered request is the error in the envelope, or there is none and the result
is to blame. -/
theorem ofBody_eq_error_iff {f : Failure} (hanswered : f.failureClass ≠ .net) :
    q.ofBody body = .error f ↔
      (∃ result err, Envelope.Spelled body ⟨result, some err⟩ ∧ f = .rpc err.code err.message) ∨
        ∃ result why, Envelope.Spelled body ⟨result, none⟩ ∧
          (decode result : Except DecodeError α) = .error why ∧
            f = .other .invalidData s!"Unexpected result for `{q.method}`: {why.message}" := by
  have hanswered (m : String) : Except.error f ≠ (.error (.net m) : Except Failure α) := by
    rintro ⟨⟩
    exact hanswered rfl
  refine (ofBody_eq_iff hanswered).trans ⟨?_, ?_⟩
  · rintro ⟨⟨result, error⟩, hspelled, hfailed⟩
    obtain ⟨err, rfl, rfl⟩ | ⟨why, rfl, hrefused, rfl⟩ := ofEnvelope_eq_error_iff.1 hfailed
    · exact .inl ⟨result, err, hspelled, rfl⟩
    · exact .inr ⟨result, why, hspelled, hrefused, rfl⟩
  · rintro (⟨result, err, hspelled, rfl⟩ | ⟨result, why, hspelled, hrefused, rfl⟩)
    · exact ⟨_, hspelled, rfl⟩
    · exact ⟨_, hspelled, ofEnvelope_eq_error_iff.2 (.inr ⟨why, rfl, hrefused, rfl⟩)⟩

/-- What a node answers is classified by the body of the answer alone, whatever its status. A body
that is blank or has no envelope counts as no answer. An error in the envelope counts with its own
code and message, whatever result comes with it. Otherwise the result counts, null if there is
none: it is decoded, or is data that cannot be used. -/
theorem reply_classified (q : Query α) (status : UInt16) (body : List Char) :
    let outcome := q.answer (.body status body)
    (∀ other, q.answer (.body other body) = outcome) ∧
    ((∃ f, outcome = .error f ∧ f.failureClass = .net) ↔
      (∀ c ∈ body, isBlank c = true) ∨ ∀ e, ¬ Envelope.Spelled body e) ∧
    (∀ f, outcome = .error f ∧ f.failureClass = .rpc ↔
      ∃ result err, Envelope.Spelled body ⟨result, some err⟩ ∧ f = .rpc err.code err.message) ∧
    (∀ a, outcome = .ok a ↔
      ∃ result, Envelope.Spelled body ⟨result, none⟩ ∧ decode result = .ok a) ∧
    ∀ f, outcome = .error f ∧ f.failureClass = .other ↔
      ∃ result why, Envelope.Spelled body ⟨result, none⟩ ∧
        (decode result : Except DecodeError α) = .error why ∧
          f = .other .invalidData s!"Unexpected result for `{q.method}`: {why.message}" := by
  refine ⟨fun _ => rfl, ofBody_net_iff, ?rpc, fun _ => ofBody_eq_ok_iff, ?other⟩
  case rpc =>
    intro f
    constructor
    · rintro ⟨hfailed, hrpc⟩
      have hanswered : f.failureClass ≠ .net := by
        rw [hrpc]
        nofun
      obtain herror | ⟨_, _, -, -, rfl⟩ := (ofBody_eq_error_iff hanswered).1 hfailed
      · exact herror
      · cases hrpc
    · rintro ⟨result, err, hspelled, rfl⟩
      refine ⟨(ofBody_eq_error_iff ?_).2 (.inl ⟨result, err, hspelled, rfl⟩), rfl⟩
      nofun
  case other =>
    intro f
    constructor
    · rintro ⟨hfailed, hother⟩
      have hanswered : f.failureClass ≠ .net := by
        rw [hother]
        nofun
      obtain ⟨_, _, -, rfl⟩ | hunusable := (ofBody_eq_error_iff hanswered).1 hfailed
      · cases hother
      · exact hunusable
    · rintro ⟨result, why, hspelled, hrefused, rfl⟩
      refine ⟨(ofBody_eq_error_iff ?_).2 (.inr ⟨result, why, hspelled, hrefused, rfl⟩), rfl⟩
      nofun

/-- An error counts although there is a result. -/
example :
    let body := "\x7b\"result\": true, \"error\": \x7b\"code\": -8\x7d\x7d"
    checkReady.answer (.body 200 body.toList) = .error (.rpc (-8) "") := by
  cbv

end Query

end PlotMiner
