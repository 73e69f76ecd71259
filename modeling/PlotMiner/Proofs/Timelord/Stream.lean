import Mathlib.Data.List.Forall2
import PlotMiner.Proofs.Json.Truncation
import PlotMiner.Proofs.Timelord.RoundTrip

/-!
# A stream of frames

A connection delivers the frames of messages one after the other, in pieces that have nothing to do
with the frames, and may end anywhere. What the reader makes of that depends on the bytes alone and
not on the pieces (`Reader.transcript_eq`). It is the messages whose frames have arrived, then one
error; a frame that lacks more than its delimiter is no message (`stream_cut`).
-/

namespace PlotMiner.Timelord

open Json Text

/-- The bytes are what stands before the delimiter in the frame of a message. They are read as the
message, and no part of them that lacks their end is read as any. -/
structure Framed (m : Message) (body : List UInt8) : Prop where
  toFrame : m.toFrame = .ok (body ++ [delimiter])
  undelimited : delimiter ∉ body
  nonempty : body ≠ []
  whole : Message.ofFrame body = .ok m
  truncated (front back : List UInt8) (hcut : front ++ back = body) (hmissing : back ≠ []) :
    ∃ e, Message.ofFrame front = .error e

theorem Message.Written.framed {m : Message} {v : Value} (h : Written m v) :
    Framed m (utf8 v.render) := by
  obtain ⟨fields, rfl⟩ := h.exists_object
  refine ⟨h.toFrame_eq, h.delimiter_not_mem, ?nonempty, h.ofFrame_eq, ?truncated⟩
  case nonempty =>
    obtain ⟨front, hbracket⟩ := exists_render_object fields
    rw [hbracket, utf8_append]
    exact List.append_ne_nil_of_right_ne_nil _ (by decide)
  case truncated =>
    intro front back hcut hmissing
    have hclean : delimiter ∉ front := by
      intro hmem
      exact h.delimiter_not_mem (hcut ▸ List.mem_append_left back hmem)
    simp only [ofFrame, takeWhile_eq_self hclean]
    cases htext : decodeUtf8? front with
    | none => exact ⟨_, rfl⟩
    | some cs =>
      -- the bytes that are left are those of the characters that are left
      obtain rfl := eq_utf8_of_decodeUtf8? htext
      obtain ⟨more, hsplit⟩ := of_utf8_append hcut
      have hmissing : more ≠ [] := by
        rintro rfl
        rw [hsplit, List.append_nil] at hcut
        exact hmissing (List.append_right_eq_self.1 hcut)
      rw [Option.bind_some, Value.parse?_eq_none_of_truncated h.plain.isExact hsplit.symm hmissing]
      exact ⟨_, rfl⟩

namespace Reader

def feedAll (r : Reader) : List (List UInt8) → Reader × List Incoming
  | [] => (r, [])
  | chunk :: rest =>
    let (r, first) := r.feed chunk
    let (r, later) := feedAll r rest
    (r, first ++ later)

/-- What the reader makes of bytes and the end of the stream after them. -/
def drain (r : Reader) (bytes : List UInt8) : List Incoming :=
  let (r, seen) := r.feed bytes
  seen ++ r.finish

/-- What the reader makes of a stream that arrives in pieces. -/
def transcript (chunks : List (List UInt8)) : List Incoming :=
  let (r, seen) := start.feedAll chunks
  seen ++ r.finish

theorem feed_append (r : Reader) (front back : List UInt8) :
    r.feed (front ++ back) =
      (((r.feed front).1.feed back).1, (r.feed front).2 ++ ((r.feed front).1.feed back).2) := by
  induction front generalizing r with
  | nil => rfl
  | cons b front ih =>
    simp only [List.cons_append, feed, ih, List.append_assoc]

theorem feedAll_eq (r : Reader) (chunks : List (List UInt8)) :
    r.feedAll chunks = r.feed chunks.flatten := by
  induction chunks generalizing r with
  | nil => rfl
  | cons chunk chunks ih =>
    simp only [feedAll, ih, List.flatten_cons, feed_append]

theorem feed_open (p bytes : List UInt8) (h : delimiter ∉ bytes) :
    (⟨p, false⟩ : Reader).feed bytes = (⟨p ++ bytes, false⟩, []) := by
  induction bytes generalizing p with
  | nil => simp [feed]
  | cons b bytes ih =>
    obtain ⟨hfirst, hlater⟩ := not_or.1 (mt List.mem_cons.2 h)
    have hstep : (⟨p, false⟩ : Reader).feedByte b = (⟨p ++ [b], false⟩, []) := by
      rw [feedByte, if_neg Bool.false_ne_true, if_neg (Ne.symm hfirst)]
    simp only [feed, hstep, ih (p ++ [b]) hlater, List.append_assoc, List.cons_append,
      List.nil_append]

theorem feed_frame {m : Message} {body : List UInt8} (h : Framed m body) :
    start.feed (body ++ [delimiter]) = (start, [.ok m]) := by
  have hpending : start.feed body = (⟨body, false⟩, []) := feed_open [] body h.undelimited
  rw [feed_append, hpending]
  simp only [feed, feedByte, read, h.whole]
  rfl

theorem transcript_eq (chunks : List (List UInt8)) :
    transcript chunks = start.drain chunks.flatten := by
  rw [transcript, feedAll_eq]
  rfl

variable {m : Message} {body : List UInt8}

theorem drain_take_inside (h : Framed m body) (rest : List UInt8) {cut : Nat}
    (hinside : cut < body.length) :
    ∃ e, start.drain ((body ++ delimiter :: rest).take cut) = [.error e] := by
  rw [List.take_append_of_le_length (Nat.le_of_lt hinside)]
  have hmissing : body.drop cut ≠ [] := by
    rw [ne_eq, List.drop_eq_nil_iff]
    omega
  have hclean : delimiter ∉ body.take cut := mt List.mem_of_mem_take h.undelimited
  have hpending : start.feed (body.take cut) = (⟨body.take cut, false⟩, []) :=
    feed_open [] _ hclean
  cases hempty : (body.take cut).isEmpty with
  | true =>
    refine ⟨.closed, ?_⟩
    simp only [drain, hpending, finish, hempty]
    rfl
  | false =>
    obtain ⟨e, herror⟩ := h.truncated _ _ (List.take_append_drop cut body) hmissing
    refine ⟨.message e, ?_⟩
    simp only [drain, hpending, finish, hempty, read, herror]
    rfl

theorem drain_take_end (h : Framed m body) (rest : List UInt8) :
    start.drain ((body ++ delimiter :: rest).take body.length) = [.ok m, .error .closed] := by
  have hpending : start.feed body = (⟨body, false⟩, []) := feed_open [] body h.undelimited
  have hnonempty : body.isEmpty = false := by simpa using h.nonempty
  rw [List.take_left]
  simp only [drain, hpending, finish, hnonempty, read, h.whole]
  rfl

theorem drain_take_beyond (h : Framed m body) (rest : List UInt8) (n : Nat) :
    start.drain ((body ++ delimiter :: rest).take (body.length + n + 1)) =
      .ok m :: start.drain (rest.take n) := by
  have hsplit : (body ++ delimiter :: rest).take (body.length + n + 1) =
      (body ++ [delimiter]) ++ rest.take n := by
    rw [Nat.add_assoc, List.take_length_add_append, List.take_succ_cons]
    simp
  rw [hsplit, drain, feed_append, feed_frame h]
  rfl

end Reader

def frameOf (body : List UInt8) : List UInt8 := body ++ [delimiter]

theorem length_frameOf (body : List UInt8) : (frameOf body).length = body.length + 1 :=
  List.length_append

theorem exists_framed {ms : List Message} (htyped : ∀ m ∈ ms, m.Typed) :
    ∃ bodies, List.Forall₂ Framed ms bodies := by
  induction ms with
  | nil => exact ⟨[], .nil⟩
  | cons m ms ih =>
    obtain ⟨hfirst, hlater⟩ := List.forall_mem_cons.1 htyped
    obtain ⟨v, hwritten⟩ := hfirst.written
    obtain ⟨bodies, hframed⟩ := ih hlater
    exact ⟨_, .cons hwritten.framed hframed⟩

theorem mapM_toFrame {ms : List Message} {bodies : List (List UInt8)}
    (h : List.Forall₂ Framed ms bodies) : ms.mapM Message.toFrame = .ok (bodies.map frameOf) := by
  induction h with
  | nil => rfl
  | cons hfirst _ ih =>
    rw [List.mapM_cons, hfirst.toFrame, ih]
    rfl

theorem undelimited_of_framed {ms : List Message} {bodies : List (List UInt8)}
    (h : List.Forall₂ Framed ms bodies) : ∀ body ∈ bodies, delimiter ∉ body := by
  induction h with
  | nil => simp
  | cons hfirst _ ih => exact List.forall_mem_cons.2 ⟨hfirst.undelimited, ih⟩

theorem length_flatten_take_pos {ms : List Message} {bodies : List (List UInt8)}
    (h : List.Forall₂ Framed ms bodies) {i : Nat} (hpos : 0 < i) (hle : i ≤ ms.length) :
    0 < ((bodies.map frameOf).take i).flatten.length := by
  cases h with
  | nil => exact absurd hpos (Nat.not_lt.2 hle)
  | cons hfirst hlater =>
    obtain ⟨j, rfl⟩ := Nat.exists_eq_succ_of_ne_zero (Nat.pos_iff_ne_zero.1 hpos)
    rw [List.map_cons, List.take_succ_cons, List.flatten_cons, List.length_append, length_frameOf]
    omega

/-- The messages whose frames lie before the cut, but for a delimiter, and one error. -/
theorem drain_take {ms : List Message} {bodies : List (List UInt8)}
    (h : List.Forall₂ Framed ms bodies) (cut : Nat) :
    ∃ k e, Reader.start.drain ((bodies.map frameOf).flatten.take cut) =
        (ms.take k).map .ok ++ [.error e] ∧
      ∀ i < ms.length, i < k ↔ ((bodies.map frameOf).take (i + 1)).flatten.length ≤ cut + 1 := by
  induction h generalizing cut with
  | nil =>
    refine ⟨0, .closed, ?_, by simp⟩
    rw [List.map_nil, List.flatten_nil, List.take_nil]
    rfl
  | @cons m body ms bodies hfirst hlater ih =>
    have hsizes (i : Nat) : ((frameOf body :: bodies.map frameOf).take (i + 1)).flatten.length =
        body.length + 1 + ((bodies.map frameOf).take i).flatten.length := by
      rw [List.take_succ_cons, List.flatten_cons, List.length_append, length_frameOf]
    have hbytes : (frameOf body :: bodies.map frameOf).flatten =
        body ++ delimiter :: (bodies.map frameOf).flatten := by
      rw [List.flatten_cons, frameOf, List.append_assoc, List.singleton_append]
    simp only [List.map_cons, hbytes, hsizes, List.length_cons]
    rcases Nat.lt_trichotomy cut body.length with hinside | rfl | hbeyond
    · obtain ⟨e, herror⟩ := Reader.drain_take_inside hfirst (bodies.map frameOf).flatten hinside
      refine ⟨0, e, herror, ?_⟩
      intro i _
      omega
    · refine ⟨1, .closed, Reader.drain_take_end hfirst _, ?_⟩
      intro i hi
      rcases Nat.eq_zero_or_pos i with rfl | hpos
      · simp
      · have hroom := length_flatten_take_pos hlater hpos (by omega)
        omega
    · obtain ⟨n, rfl⟩ := Nat.exists_eq_add_of_lt hbeyond
      obtain ⟨k, e, hread, hcounted⟩ := ih n
      refine ⟨k + 1, e, ?_, ?_⟩
      · rw [Reader.drain_take_beyond hfirst, hread]
        rfl
      · intro i hi
        cases i with
        | zero =>
          have hempty : ((bodies.map frameOf).take 0).flatten.length = 0 := rfl
          omega
        | succ i =>
          have hlater := hcounted i (by omega)
          omega

/-- Each frame of a message with a fixed layout has one delimiter, at its end. When the stream of
frames is cut at any place and delivered in any pieces, the reader makes of it the messages whose
frames lie before the cut, but for a delimiter, and one error. -/
theorem stream_cut {ms : List Message} (htyped : ∀ m ∈ ms, m.Typed) :
    ∃ frames, ms.mapM Message.toFrame = .ok frames ∧
      (∀ frame ∈ frames, ∃ body, frame = body ++ [delimiter] ∧ delimiter ∉ body) ∧
      ∀ (cut : Nat) (chunks : List (List UInt8)), chunks.flatten = frames.flatten.take cut →
        ∃ k e, Reader.transcript chunks = (ms.take k).map .ok ++ [.error e] ∧
          ∀ i < ms.length, i < k ↔ (frames.take (i + 1)).flatten.length ≤ cut + 1 := by
  obtain ⟨bodies, hframed⟩ := exists_framed htyped
  refine ⟨bodies.map frameOf, mapM_toFrame hframed, ?_, ?_⟩
  · intro frame hmem
    obtain ⟨body, hinside, rfl⟩ := List.mem_map.1 hmem
    exact ⟨body, rfl, undelimited_of_framed hframed body hinside⟩
  · intro cut chunks hdelivered
    rw [Reader.transcript_eq, hdelivered]
    exact drain_take hframed cut

theorem stream_cut_two :
    (∀ m ∈ [Message.ping, .querySpeed], m.Typed) ∧
    ∃ frames, [Message.ping, .querySpeed].mapM Message.toFrame = .ok frames ∧
      (∀ frame ∈ frames, ∃ body, frame = body ++ [delimiter] ∧ delimiter ∉ body) ∧
      ∀ (cut : Nat) (chunks : List (List UInt8)), chunks.flatten = frames.flatten.take cut →
        ∃ k e, Reader.transcript chunks =
            ([Message.ping, .querySpeed].take k).map .ok ++ [.error e] ∧
          ∀ i < 2, i < k ↔ (frames.take (i + 1)).flatten.length ≤ cut + 1 := by
  have htyped : ∀ m ∈ [Message.ping, .querySpeed], m.Typed := by simp [Message.Typed]
  exact ⟨htyped, stream_cut htyped⟩

end PlotMiner.Timelord
