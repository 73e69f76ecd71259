import PlotMiner.Proofs.Timelord.Meaning
import PlotMiner.Proofs.Timelord.Passage
import PlotMiner.Proofs.Timelord.Stream

/-!
# Any stream of bytes

Whatever bytes a timelord sends, they are cut at the delimiters, and what is left when the
connection ends is a frame too unless it is empty. The frames give messages up to the first one that
is refused; then, or else when the stream ends, there is an error, and nothing behind it
(`Inflow.Comes`). This is what the reader makes of them (`Inflow.incoming_eq`), in whatever pieces
they arrive.
-/

namespace PlotMiner.Timelord

/-- The bytes are cut at the delimiters into frames, and `rest` is what is behind the last one. -/
structure Cut (bytes : List UInt8) (frames : List (List UInt8)) (rest : List UInt8) : Prop where
  bytes_eq : bytes = (frames.map frameOf).flatten ++ rest
  clean : ∀ frame ∈ frames, delimiter ∉ frame
  rest_clean : delimiter ∉ rest

theorem exists_cut (bytes : List UInt8) : ∃ frames rest, Cut bytes frames rest := by
  induction bytes with
  | nil => exact ⟨[], [], rfl, nofun, List.not_mem_nil⟩
  | cons b bytes ih =>
    obtain ⟨frames, rest, rfl, hclean, hrest_clean⟩ := ih
    by_cases hends : b = delimiter
    · subst hends
      exact ⟨[] :: frames, rest, rfl, List.forall_mem_cons.2 ⟨List.not_mem_nil, hclean⟩,
        hrest_clean⟩
    · -- the byte joins what comes next, which is a frame or the rest
      cases frames with
      | nil =>
        refine ⟨[], b :: rest, rfl, nofun, ?_⟩
        exact List.not_mem_cons_of_ne_of_not_mem (Ne.symm hends) hrest_clean
      | cons frame frames =>
        obtain ⟨hfirst, hlater⟩ := List.forall_mem_cons.1 hclean
        refine ⟨(b :: frame) :: frames, rest, rfl, List.forall_mem_cons.2 ⟨?_, hlater⟩, hrest_clean⟩
        exact List.not_mem_cons_of_ne_of_not_mem (Ne.symm hends) hfirst

/-- What some frames come to: messages, and the error of the first frame that is refused. -/
inductive Readout : List (List UInt8) → List Message → Option MessageError → Prop
  | done : Readout [] [] none
  | message {frame frames v m ms bad} (hspells : Spells frame v) (hmeans : Means v m)
      (hlater : Readout frames ms bad) : Readout (frame :: frames) (m :: ms) bad
  | refused {frame frames e} (hrefused : Refused frame)
      (herror : Message.ofFrame frame = .error e) :
      Readout (frame :: frames) [] (some e)

theorem exists_readout {frames : List (List UInt8)} (hclean : ∀ frame ∈ frames, delimiter ∉ frame) :
    ∃ ms bad, Readout frames ms bad := by
  induction frames with
  | nil => exact ⟨[], none, .done⟩
  | cons frame frames ih =>
    obtain ⟨hfirst, hlater⟩ := List.forall_mem_cons.1 hclean
    cases hread : Message.ofFrame frame with
    | ok m =>
      obtain ⟨v, hspells, hmeans⟩ := (Message.ofFrame_eq_ok_iff hfirst).1 hread
      obtain ⟨ms, bad, hreadout⟩ := ih hlater
      exact ⟨m :: ms, bad, .message hspells hmeans hreadout⟩
    | error e =>
      have hrefused := (Message.ofFrame_eq_error_iff hfirst).1 ⟨e, hread⟩
      exact ⟨[], some e, .refused hrefused hread⟩

theorem Readout.of_append {fs gs : List (List UInt8)} {ms : List Message}
    {bad : Option MessageError} (h : Readout (fs ++ gs) ms bad) :
    (∃ ms₁ ms₂, Readout fs ms₁ none ∧ Readout gs ms₂ bad ∧ ms = ms₁ ++ ms₂) ∨
      ∃ e, bad = some e ∧ Readout fs ms (some e) := by
  induction fs generalizing ms with
  | nil => exact .inl ⟨[], ms, .done, h, rfl⟩
  | cons f fs ih =>
    cases h with
    | message hspells hmeans hlater =>
      obtain ⟨ms₁, ms₂, hfirst, hsecond, rfl⟩ | ⟨e, rfl, hfirst⟩ := ih hlater
      · exact .inl ⟨_, ms₂, .message hspells hmeans hfirst, hsecond, rfl⟩
      · exact .inr ⟨e, rfl, .message hspells hmeans hfirst⟩
    | refused hrefused herror => exact .inr ⟨_, rfl, .refused hrefused herror⟩

/-- What is read of a stream: messages, and at last an error if there is one. -/
def outcome (ms : List Message) (error : Option ReadError) : List Incoming :=
  ms.map .ok ++ (error.map .error).toList

/-- What is read first is messages of the stream, and then comes what the others come to. -/
theorem exists_of_append_eq_outcome {ms handled : List Message} {error : Option ReadError}
    {rest : List Incoming} (h : handled.map .ok ++ rest = outcome ms error) :
    ∃ later, ms = handled ++ later ∧ rest = outcome later error := by
  induction handled generalizing ms with
  | nil => exact ⟨ms, rfl, h⟩
  | cons m handled ih =>
    cases ms with
    | nil => cases error <;> simp [outcome] at h
    | cons m' ms =>
      obtain ⟨⟨⟩, hothers⟩ := List.cons.inj h
      obtain ⟨later, rfl, hsame⟩ := ih hothers
      exact ⟨later, rfl, hsame⟩

theorem outcome_eq_nil_iff {ms : List Message} {error : Option ReadError} :
    outcome ms error = [] ↔ ms = [] ∧ error = none := by
  cases error <;> simp [outcome]

theorem outcome_eq_error {ms : List Message} {error : Option ReadError} {e : ReadError}
    {rest : List Incoming} (h : .error e :: rest = outcome ms error) :
    ms = [] ∧ error = some e := by
  cases ms with
  | cons m ms => cases h
  | nil => cases error <;> simp_all [outcome]

namespace Reader

theorem feed_stopped {r : Reader} (hstopped : r.stopped = true) (bytes : List UInt8) :
    r.feed bytes = (r, []) := by
  induction bytes with
  | nil => rfl
  | cons b bytes ih => simp [feed, feedByte, hstopped, ih]

theorem finish_stopped {r : Reader} (hstopped : r.stopped = true) : r.finish = [] := by
  rw [finish, if_pos hstopped]

/-- The reader behind some frames: it has stopped if one of them was refused. -/
def behind (rest : List UInt8) : Option MessageError → Reader
  | none => ⟨rest, false⟩
  | some _ => ⟨[], true⟩

theorem feed_frameOf {frame : List UInt8} (hclean : delimiter ∉ frame) :
    start.feed (frameOf frame) =
      match read frame with
      | .ok m => (start, [.ok m])
      | .error e => (⟨[], true⟩, [.error e]) := by
  have hpending : start.feed frame = (⟨frame, false⟩, []) := feed_open [] frame hclean
  rw [frameOf, feed_append, hpending]
  simp only [feed, feedByte]
  cases read frame <;> rfl

/-- The reader takes each frame for what it means and stops at the first one that is refused. -/
theorem feed_frames {frames : List (List UInt8)} {ms : List Message} {bad : Option MessageError}
    (h : Readout frames ms bad) (hclean : ∀ frame ∈ frames, delimiter ∉ frame) {rest : List UInt8}
    (hrest_clean : delimiter ∉ rest) :
    start.feed ((frames.map frameOf).flatten ++ rest) =
      (behind rest bad, outcome ms (bad.map .message)) := by
  induction h with
  | done => exact feed_open [] rest hrest_clean
  | @message frame frames v m ms bad hspells hmeans hlater ih =>
    obtain ⟨hfirst, hothers⟩ := List.forall_mem_cons.1 hclean
    have hmeant : read frame = .ok m := by
      rw [read, (Message.ofFrame_eq_ok_iff hfirst).2 ⟨v, hspells, hmeans⟩]
      rfl
    rw [List.map_cons, List.flatten_cons, List.append_assoc, feed_append, feed_frameOf hfirst,
      hmeant]
    simp only [ih hothers]
    rfl
  | @refused frame frames e hrefused herror =>
    have hfirst := (List.forall_mem_cons.1 hclean).1
    have hmeant : read frame = .error (.message e) := by
      rw [read, herror]
      rfl
    rw [List.map_cons, List.flatten_cons, List.append_assoc, feed_append, feed_frameOf hfirst,
      hmeant]
    simp only [feed_stopped (r := ⟨[], true⟩) rfl]
    rfl

/-- The bytes behind the last delimiter are a frame when the timelord closes the connection. -/
theorem finish_open {rest : List UInt8} {ms : List Message} {bad : Option MessageError}
    (h : Readout (if rest = [] then [] else [rest]) ms bad) (hclean : delimiter ∉ rest) :
    (⟨rest, false⟩ : Reader).finish = outcome ms ((bad.map .message).or (some .closed)) := by
  by_cases hempty : rest = []
  · rw [if_pos hempty] at h
    cases h
    rw [hempty]
    rfl
  · rw [if_neg hempty] at h
    have hnonempty : rest.isEmpty = false := by simpa using hempty
    simp only [finish, hnonempty, read]
    cases h with
    | message hspells hmeans hlater =>
      cases hlater
      rw [(Message.ofFrame_eq_ok_iff hclean).2 ⟨_, hspells, hmeans⟩]
      rfl
    | refused hrefused herror =>
      rw [herror]
      rfl

theorem hear_stopped (e : LinkEvent) : (⟨[], true⟩ : Reader).hear e = (⟨[], true⟩, []) := by
  cases e with
  | arrived bytes => exact feed_stopped rfl bytes
  | _ => rfl

end Reader

inductive Ending where
  | hungUp
  | broken (reason : String)

def Ending.error : Ending → ReadError
  | hungUp => .closed
  | broken reason => .broken reason

structure Inflow where
  bytes : List UInt8
  ending : Option Ending

namespace Inflow

def empty : Inflow := ⟨[], none⟩

/-- What happens to a link adds to what was sent, unless the stream has ended. -/
def after (i : Inflow) (e : LinkEvent) : Inflow :=
  match e, i.ending with
  | .arrived bytes, none => { i with bytes := i.bytes ++ bytes }
  | .hungUp, none => { i with ending := some .hungUp }
  | .broken reason, none => { i with ending := some (.broken reason) }
  | _, _ => i

/-- What is left when the timelord closes the connection is a frame, unless it is empty. -/
def lastFrame (i : Inflow) (rest : List UInt8) : List (List UInt8) :=
  match i.ending with
  | some .hungUp => if rest = [] then [] else [rest]
  | some (.broken _) | none => []

/-- The stream comes to these messages, and to an error if a frame is refused or the stream has
ended. -/
def Comes (i : Inflow) (ms : List Message) (error : Option ReadError) : Prop :=
  ∃ frames rest bad, Cut i.bytes frames rest ∧ Readout (frames ++ i.lastFrame rest) ms bad ∧
    error = (bad.map .message).or (i.ending.map Ending.error)

theorem exists_comes (i : Inflow) : ∃ ms error, i.Comes ms error := by
  obtain ⟨frames, rest, hcut⟩ := exists_cut i.bytes
  have hclean : ∀ frame ∈ frames ++ i.lastFrame rest, delimiter ∉ frame := by
    intro frame hmem
    obtain hmem | hmem := List.mem_append.1 hmem
    · exact hcut.clean frame hmem
    · have hsame : frame = rest := by
        unfold lastFrame at hmem
        split at hmem
        · split at hmem
          · cases hmem
          · exact List.mem_singleton.1 hmem
        · cases hmem
        · cases hmem
      exact hsame ▸ hcut.rest_clean
  obtain ⟨ms, bad, hreadout⟩ := exists_readout hclean
  exact ⟨ms, _, frames, rest, bad, hcut, hreadout, rfl⟩

def reader (i : Inflow) : Reader :=
  match i.ending with
  | none => (Reader.start.feed i.bytes).1
  | some _ => ⟨[], true⟩

/-- What the reader has made of the stream. -/
def incoming (i : Inflow) : List Incoming :=
  let (r, seen) := Reader.start.feed i.bytes
  match i.ending with
  | none => seen
  | some .hungUp => seen ++ r.finish
  | some (.broken reason) => seen ++ if r.stopped then [] else [.error (.broken reason)]

/-- The reader makes of the stream what it comes to, in whatever pieces it has arrived. -/
theorem incoming_eq {i : Inflow} {ms : List Message} {error : Option ReadError}
    (h : i.Comes ms error) : i.incoming = outcome ms error := by
  obtain ⟨frames, rest, bad, hcut, hreadout, rfl⟩ := h
  have hfeed {ms bad} (hreadout : Readout frames ms bad) :
      Reader.start.feed i.bytes = (Reader.behind rest bad, outcome ms (bad.map .message)) := by
    rw [hcut.bytes_eq]
    exact Reader.feed_frames hreadout hcut.clean hcut.rest_clean
  cases hending : i.ending with
  | none =>
    simp only [lastFrame, hending, List.append_nil] at hreadout
    simp only [incoming, hending, hfeed hreadout, Option.map_none, Option.or_none]
  | some ending' =>
    cases ending' with
    | broken reason =>
      simp only [lastFrame, hending, List.append_nil] at hreadout
      simp only [incoming, hending, hfeed hreadout]
      cases bad <;> simp [outcome, Reader.behind, Ending.error]
    | hungUp =>
      simp only [lastFrame, hending] at hreadout
      obtain ⟨ms₁, ms₂, hfirst, hlast, rfl⟩ | ⟨e, rfl, hfirst⟩ := hreadout.of_append
      · simp only [incoming, hending, hfeed hfirst]
        rw [Reader.behind, Reader.finish_open hlast hcut.rest_clean]
        simp [outcome, Ending.error]
      · simp only [incoming, hending, hfeed hfirst, Reader.behind, Reader.finish_stopped]
        simp [outcome]

theorem hear_after (i : Inflow) (e : LinkEvent) :
    (i.after e).reader = (i.reader.hear e).1 ∧
      (i.after e).incoming = i.incoming ++ (i.reader.hear e).2 := by
  obtain ⟨bytes, ending⟩ := i
  cases ending with
  | some ending =>
    have hsame : after ⟨bytes, some ending⟩ e = ⟨bytes, some ending⟩ := by cases e <;> rfl
    have hdeaf : (reader ⟨bytes, some ending⟩).hear e = (⟨[], true⟩, []) := Reader.hear_stopped e
    rw [hsame, hdeaf, List.append_nil]
    exact ⟨rfl, rfl⟩
  | none =>
    cases e with
    | arrived more =>
      have hfed := Reader.feed_append .start bytes more
      exact Prod.ext_iff.1 hfed
    | hungUp | broken reason => exact ⟨rfl, rfl⟩
    | _ => exact ⟨rfl, (List.append_nil _).symm⟩

end Inflow

end PlotMiner.Timelord
