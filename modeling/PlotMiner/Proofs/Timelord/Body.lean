import PlotMiner.Proofs.Json.Record
import PlotMiner.Timelord.Message

/-!
# The bodies of timelord messages

Requests, proofs and replies are written as objects. The number of the message joins their fields
and is still among them when the body is decoded; it is no field of theirs, so the same request,
proof or reply comes back (`Body.ofBody_insertField`), as it does without the number (`Body.codec`).
-/

namespace PlotMiner.Timelord

open Json Json.Record

/-- What is written as an object with these fields, and read from everything that differs from it
under `id` at most. -/
structure Body {α : Type} [Encode α] [Decode α] (a : α) (own : List (String × Value)) : Prop where
  encode_eq : encode a = .object own
  plain {room : Nat} (hdeep : 2 ≤ room) : (Value.object own).Plain room
  decode_eq {S : Type} [Source S] [LawfulSource S] {s : S} {fields : List (String × S)}
    (hview : Source.view s = .ok (.object (.ok (fields.map fun (k, sub) => (.ok k, sub)))))
    (hdistinct : Distinct fields)
    (hsame : ∀ name ≠ "id", Option.Rel Shows (fields.lookup name) (own.lookup name)) :
    decode s = .ok a

section

variable {α : Type} [Encode α] [Decode α] {a : α} {own : List (String × Value)}

theorem Body.ofBody_insertField (h : Body a own) (make : α → Message) (id : Value) :
    Message.ofBody make (.object (insertField "id" id own)) = .ok (make a) := by
  obtain ⟨hordered, hplain⟩ := Value.plain_object_iff.1 (h.plain Nat.le.refl)
  have hdecoded : decode (Value.object (insertField "id" id own)) = .ok a := by
    refine h.decode_eq rfl (hordered.insertField "id" id).distinct fun name hother => ?_
    rw [lookup_insertField_of_ne hother]
    exact rel_lookup_self (fun f hmem => (hplain f hmem).legible.shows) name
  rw [Message.ofBody, hdecoded]

/-- What is read whatever is under `id` is read when there is nothing else. -/
@[reducible]
def Body.codec (hbody : ∀ a : α, ∃ own, Body a own) : Codec α where
  depth := 2
  legible a room h := by
    obtain ⟨own, hbody⟩ := hbody a
    rw [hbody.encode_eq]
    exact (hbody.plain h).legible
  decode_eq {_ _ _ _ a} h := by
    obtain ⟨own, hbody⟩ := hbody a
    rw [hbody.encode_eq] at h
    cases h with
    | object hview hdistinct hsame => exact hbody.decode_eq hview hdistinct fun name _ => hsame name

end

/-- A request names its plots by an object of its own, which has no number in it. -/
theorem Netspace.plain (n : Netspace) (room : Nat) : (encode n).Plain (room + 1) := by
  have hnames := List.Sublist.refl ["group_hash", "total_size"]
  refine Value.plain_object_iff.2 ⟨.of_names (by decide) hnames, ?_⟩
  simp [Scalar.plain]

instance : Codec Netspace where
  depth := 1
  legible n room h := by
    obtain ⟨room, rfl⟩ := Nat.exists_eq_add_of_le' h
    exact (n.plain room).legible
  decode_eq h := read_of_shows _ h fun _ hsame =>
    reads_pure Netspace.mk _ |>.field (hsame "group_hash") |>.field (hsame "total_size")

theorem Calc.body (c : Calc) : ∃ own, Body c own := by
  refine ⟨_, rfl, ?plain, ?decode⟩
  case plain =>
    intro _ hdeep
    obtain ⟨room, rfl⟩ := Nat.exists_eq_add_of_le' hdeep
    have hnames := List.Sublist.refl ["challenge", "iters", "netspace"]
    refine Value.plain_object_iff.2 ⟨.of_names (by decide) hnames, ?_⟩
    simp [Scalar.plain, Netspace.plain]
  case decode =>
    intro _ _ _ _ _ hview hdistinct hsame
    refine read_object _ hview (hdistinct.filter _) ?_
    exact reads_pure Calc.mk _
      |>.field (hsame "challenge" (by decide))
      |>.field (hsame "iters" (by decide))
      |>.field (hsame "netspace" (by decide))

theorem ProofMessage.body (m : ProofMessage) : ∃ own, Body m own := by
  refine ⟨_, rfl, ?plain, ?decode⟩
  case plain =>
    intro _ hdeep
    obtain ⟨room, rfl⟩ := Nat.exists_eq_add_of_le' hdeep
    have hnames :=
      List.Sublist.refl ["challenge", "duration", "iters", "proof", "witness_type", "y"]
    refine Value.plain_object_iff.2 ⟨.of_names (by decide) hnames, ?_⟩
    simp [Scalar.plain]
  case decode =>
    intro _ _ _ _ _ hview hdistinct hsame
    refine read_object _ hview (hdistinct.filter _) ?_
    exact reads_pure ProofMessage.mk _
      |>.field (hsame "challenge" (by decide))
      |>.field (hsame "y" (by decide))
      |>.field (hsame "proof" (by decide))
      |>.field (hsame "witness_type" (by decide))
      |>.field (hsame "iters" (by decide))
      |>.field (hsame "duration" (by decide))

section

variable {α : Type} [Encode α]

theorem names_optionalField (name : String) (o : Option α) :
    ((optionalField name o).map (·.1)).Sublist [name] := by
  cases o with
  | none => exact List.nil_sublist _
  | some a => exact List.Sublist.refl _

theorem lookup_optionalField (name other : String) (o : Option α) :
    (optionalField name o).lookup other = if other = name then o.map encode else none := by
  cases o with
  | none => simp [optionalField]
  | some a =>
    by_cases hsame : other = name
    · simp [optionalField, hsame]
    · simp [optionalField, List.lookup_cons, beq_false_of_ne hsame, hsame]

theorem plain_of_mem_optionalField [Decode α] [Scalar α] {name : String} {o : Option α}
    {f : String × Value} (h : f ∈ optionalField name o) (room : Nat) : f.2.Plain room := by
  cases o with
  | none => simp [optionalField] at h
  | some a =>
    obtain rfl := List.mem_singleton.1 h
    exact Scalar.plain a room

end

theorem CalcReply.body (m : CalcReply) : ∃ own, Body m own := by
  refine ⟨_, rfl, ?plain, ?decode⟩
  case plain =>
    intro _ hdeep
    obtain ⟨room, rfl⟩ := Nat.exists_eq_add_of_le' hdeep
    refine Value.plain_object_iff.2 ⟨?ordered, ?fields⟩
    case ordered =>
      -- the fields that are there are some of all fields, whose names increase
      have hrequired : ([("calculating", encode m.calculating),
          ("challenge", encode m.challenge)].map (·.1)).Sublist ["calculating", "challenge"] :=
        List.Sublist.refl _
      have hnames := ((((hrequired.append (names_optionalField "duration" m.duration)).append
        (names_optionalField "iters" m.iters)).append
        (names_optionalField "proof" m.proof)).append
        (names_optionalField "witness_type" m.witnessType)).append
        (names_optionalField "y" m.y)
      simp only [← List.map_append] at hnames
      exact .of_names (by decide) hnames
    case fields =>
      intro f hf
      simp only [List.mem_append, List.mem_cons, List.not_mem_nil, or_false] at hf
      rcases hf with (((((rfl | rfl) | hf) | hf) | hf) | hf) | hf
      · exact Scalar.plain m.calculating _
      · exact Scalar.plain m.challenge _
      all_goals exact plain_of_mem_optionalField hf _
  case decode =>
    intro _ _ _ _ _ hview hdistinct hsame
    have hfound := hsame
    simp only [List.lookup_append, lookup_optionalField] at hfound
    refine read_object _ hview (hdistinct.filter _) ?_
    exact reads_pure CalcReply.mk _
      |>.field (hsame "challenge" (by decide))
      |>.field (hsame "calculating" (by decide))
      |>.optional (by simpa [List.lookup_cons] using hfound "y" (by decide))
      |>.optional (by simpa [List.lookup_cons] using hfound "proof" (by decide))
      |>.optional (by simpa [List.lookup_cons] using hfound "witness_type" (by decide))
      |>.optional (by simpa [List.lookup_cons] using hfound "iters" (by decide))
      |>.optional (by simpa [List.lookup_cons] using hfound "duration" (by decide))

instance : Codec Calc := Body.codec Calc.body

instance : Codec ProofMessage := Body.codec ProofMessage.body

instance : Codec CalcReply := Body.codec CalcReply.body

end PlotMiner.Timelord
