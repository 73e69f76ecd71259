import Mathlib.Data.List.Induction
import PlotMiner.Proofs.Timelord.Inflow
import PlotMiner.Proofs.Timelord.Lifecycle
import PlotMiner.Proofs.Timelord.Receipt

/-!
# What is told of a stream

The session of a link handles what its reader makes of the stream, in order and in its own time. It
has then told the proofs of the messages that it has handled, and what it has not handled waits
(`Hears`). So the owner of the link is told the proofs that the stream delivers before it comes to
an error, in order and nothing else, and of that error once (`stream_told`).
-/

namespace PlotMiner.Timelord

/-- The message is a proof, or a reply that has a result; what the result lacks is empty or zero. -/
inductive Message.Delivers : Message → Bytes32 → ProofDetail → Prop
  | proof (m : ProofMessage) :
      Delivers (.proof m) m.challenge ⟨m.y, m.proof, m.witnessType, m.iters, m.duration⟩
  | calcReply (m : CalcReply) {y : Blob} (hresult : m.y = some y) :
      Delivers (.calcReply m) m.challenge ⟨y, m.proof.getD Blob.empty, m.witnessType.getD 0,
        m.iters.getD 0, m.duration.getD 0⟩

theorem Message.delivery?_eq_some_iff {m : Message} {challenge : Bytes32} {d : ProofDetail} :
    m.delivery? = some (challenge, d) ↔ m.Delivers challenge d := by
  constructor
  · intro h
    cases m with
    | proof m =>
      cases h
      exact .proof m
    | calcReply m =>
      obtain ⟨_, hdetail, ⟨⟩⟩ := Option.map_eq_some_iff.1 h
      obtain ⟨y, hresult, rfl⟩ := Option.map_eq_some_iff.1 hdetail
      exact .calcReply m hresult
    | _ => cases h
  · intro h
    cases h with
    | proof m => rfl
    | calcReply m hresult => simp only [delivery?, CalcReply.detail, hresult, Option.map_some]

def deliveries (ms : List Message) : List (Bytes32 × ProofDetail) := ms.filterMap Message.delivery?

theorem deliveries_concat (ms : List Message) (m : Message) :
    deliveries (ms ++ [m]) = deliveries ms ++ m.delivery?.toList := by
  have hone : deliveries [m] = m.delivery?.toList := by
    rw [deliveries, List.filterMap_cons]
    cases m.delivery? <;> rfl
  rw [← hone]
  exact List.filterMap_append

def proofsOf (told : List Notice) : List (Bytes32 × ProofDetail) := told.filterMap Notice.proof?

def errorsOf (told : List Notice) : List (LinkErrorKind × String) := told.filterMap Notice.error?

@[simp]
theorem proofsOf_append (told more : List Notice) :
    proofsOf (told ++ more) = proofsOf told ++ proofsOf more :=
  List.filterMap_append

@[simp]
theorem errorsOf_append (told more : List Notice) :
    errorsOf (told ++ more) = errorsOf told ++ errorsOf more :=
  List.filterMap_append

theorem errorsOf_eq_nil_of_quiet {told : List Notice} (hcalm : ∀ n ∈ told, n.Quiet) :
    errorsOf told = [] := by
  rw [errorsOf, List.filterMap_eq_nil_iff]
  intro n hmem
  have hquiet := hcalm n hmem
  cases n with
  | wrote | proof => rfl
  | connected | failed => cases hquiet

theorem proofsOf_noticesOf (m : Message) :
    proofsOf (Session.noticesOf m) = m.delivery?.toList := by
  unfold Session.noticesOf
  cases m.delivery? <;> rfl

namespace Session

variable (s : Session) (now : Nat)

@[simp]
theorem receive_reader (m : Message) : (s.receive m).1.reader = s.reader := by
  cases m <;> rfl

theorem proofsOf_applyAll (commands : List Command) :
    proofsOf (s.applyAll now commands).2 = [] := by
  rw [proofsOf, List.filterMap_eq_nil_iff]
  intro n hn
  obtain ⟨request, rfl⟩ := s.eq_wrote_of_mem_applyAll now hn
  rfl

end Session

/-- The owner of the link ends it, a ping has waited too long, or writing fails. -/
def LinkStep.Interrupts : LinkStep → Prop
  | .exit | .event _ .pongDue | .event _ (.writeFailed _) => True
  | _ => False

namespace Inflow

def next (i : Inflow) : LinkStep → Inflow
  | .event _ e => i.after e
  | .start | .send _ _ | .exit => i

def through (i : Inflow) (steps : List LinkStep) : Inflow := steps.foldl next i

theorem through_takeMessage (i : Inflow) (steps : List LinkStep) (now k : Nat) :
    i.through (steps ++ .replicate k (.event now .takeMessage)) = i.through steps := by
  rw [through, List.foldl_append]
  induction k with
  | zero => rfl
  | succ k ih => exact ih

end Inflow

/-- The session of a link has handled the first of what the stream comes to. `alone` says that
nothing else is the matter with the link. -/
inductive Hears (alone : Prop) (i : Inflow) : Stage → List Notice → Prop
  | opened {s handled told} (hreader : s.reader = i.reader)
      (hmet : handled.map .ok ++ s.inbox = i.incoming)
      (hproofs : proofsOf told = deliveries handled) (herrors : errorsOf told = []) :
      Hears alone i (.opened s) told
  | refused {handled e rest told} (hmet : handled.map .ok ++ .error e :: rest = i.incoming)
      (hproofs : proofsOf told = deliveries handled) (herrors : errorsOf told = [(.read, e.text)]) :
      Hears alone i .ended told
  | interrupted {handled rest told} (hother : ¬ alone) (hmet : handled.map .ok ++ rest = i.incoming)
      (hproofs : proofsOf told = deliveries handled) : Hears alone i .ended told

structure Mute (new : List Notice) : Prop where
  proofs : proofsOf new = []
  errors : errorsOf new = []

theorem mute_nil : Mute [] := ⟨rfl, rfl⟩

theorem mute_wrote (frame : List UInt8) : Mute [.wrote frame] := ⟨rfl, rfl⟩

theorem mute_begin (s : Session) (now : Nat) (queued : List Command) :
    Mute (.connected :: (s.applyAll now queued).2) := by
  have herrors := errorsOf_eq_nil_of_quiet (Link.quiet_applyAll s now queued)
  exact ⟨s.proofsOf_applyAll now queued, herrors⟩

namespace Hears

variable {alone : Prop} {i : Inflow} {s s' : Session} {told new : List Notice}

theorem begin {queued : List Command} (now : Nat) (t : LinkTimings) :
    Hears alone .empty (.opened ((Session.new t now).applyAll now queued).1)
      (.connected :: ((Session.new t now).applyAll now queued).2) := by
  obtain ⟨hproofs, herrors⟩ := mute_begin (Session.new t now) now queued
  refine @opened _ _ _ [] _ ?_ ?_ hproofs herrors
  · rw [Session.applyAll_reader]
    rfl
  · rw [Session.applyAll_inbox]
    rfl

/-- The session handles nothing, whatever arrives. -/
theorem goOn (h : Hears alone i (.opened s) told) (e : LinkEvent)
    (hreader : s'.reader = (s.reader.hear e).1) (hinbox : s'.inbox = s.inbox ++ (s.reader.hear e).2)
    (hmute : Mute new) : Hears alone (i.after e) (.opened s') (told ++ new) := by
  obtain @⟨_, handled, _, hsame, hmet, hproofs, herrors⟩ := h
  obtain ⟨hafter, hmore⟩ := i.hear_after e
  refine @opened _ _ _ handled _ ?_ ?_ ?_ ?_
  · rw [hreader, hafter, hsame]
  · rw [hinbox, hmore, ← hmet, hsame, List.append_assoc]
  · rw [proofsOf_append, hmute.proofs, List.append_nil, hproofs]
  · rw [errorsOf_append, hmute.errors, List.append_nil, herrors]

theorem receive {m : Message} {rest : List Incoming} (h : Hears alone i (.opened s) told)
    (hinbox : s.inbox = .ok m :: rest) :
    Hears alone i (.opened ({ s with inbox := rest }.receive m).1)
      (told ++ Session.noticesOf m) := by
  obtain @⟨_, handled, _, hreader, hmet, hproofs, herrors⟩ := h
  refine @opened _ _ _ (handled ++ [m]) _ ?_ ?_ ?_ ?_
  · rw [Session.receive_reader, hreader]
  · rw [Session.receive_inbox, ← hmet, hinbox, List.map_append, List.append_assoc]
    rfl
  · rw [proofsOf_append, proofsOf_noticesOf, hproofs, deliveries_concat]
  · rw [errorsOf_append, herrors, errorsOf_eq_nil_of_quiet (Link.quiet_noticesOf m)]
    rfl

theorem refuse {e : ReadError} {rest : List Incoming} (h : Hears alone i (.opened s) told)
    (hinbox : s.inbox = .error e :: rest) :
    Hears alone i .ended (told ++ [.failed .read e.text]) := by
  obtain ⟨hreader, hmet, hproofs, herrors⟩ := h
  refine .refused (hinbox ▸ hmet) ?_ ?_
  · rw [proofsOf_append, hproofs]
    exact List.append_nil _
  · rw [errorsOf_append, herrors]
    rfl

theorem interrupt (h : Hears alone i (.opened s) told) (hother : ¬ alone)
    (hproofs : proofsOf new = []) : Hears alone i .ended (told ++ new) := by
  obtain ⟨hreader, hmet, htold, herrors⟩ := h
  refine .interrupted hother hmet ?_
  rw [proofsOf_append, hproofs, List.append_nil, htold]

/-- Nothing more is told of a link that has ended, whatever arrives. -/
theorem stay (h : Hears alone i .ended told) (e : LinkEvent) :
    Hears alone (i.after e) .ended told := by
  have hmore := (i.hear_after e).2
  cases h with
  | @refused handled e' rest _ hmet hproofs herrors =>
    refine @refused _ _ handled e' (rest ++ (i.reader.hear e).2) _ ?_ hproofs herrors
    rw [hmore, ← hmet, List.append_assoc, List.cons_append]
  | @interrupted handled rest _ hother hmet hproofs =>
    refine @interrupted _ _ handled (rest ++ (i.reader.hear e).2) _ hother ?_ hproofs
    rw [hmore, ← hmet, List.append_assoc]

end Hears

namespace Link

variable {alone : Prop} {i : Inflow} {l : Link} {told : List Notice}

theorem hears_onOpened {s : Session} (h : Hears alone i (.opened s) told)
    (hstage : l.stage = .opened s) (hstaying : alone → .exit ∉ l.mailbox) (t : LinkTimings)
    (now : Nat) (e : LinkEvent) (hcalm : alone → ¬ (LinkStep.event now e).Interrupts) :
    Hears alone (i.after e) (l.onOpened t now s e).1.stage (told ++ (l.onOpened t now s e).2) := by
  have hunmoved : Hears alone i l.stage (told ++ []) := by
    rw [hstage, List.append_nil]
    exact h
  cases e with
  | arrived bytes | hungUp | broken reason => exact h.goOn _ rfl rfl mute_nil
  | connected | refused | announced => exact hunmoved
  | pingDue => exact h.goOn .pingDue rfl (List.append_nil _).symm (mute_wrote _)
  | resendDue =>
    simp only [onOpened]
    split
    case h_1 => exact h.goOn .resendDue rfl (List.append_nil _).symm (mute_wrote _)
    case h_2 => exact hunmoved
  | takeCommand =>
    simp only [onOpened]
    split
    case h_1 => exact hunmoved
    case h_2 hwaits => exact h.interrupt (fun halone => hstaying halone (hwaits ▸ .head _)) rfl
    case h_3 request interval rest hwaits =>
      refine h.goOn .takeCommand (s.apply_reader now request interval) ?_ (mute_wrote _)
      exact (s.apply_inbox now request interval).trans (List.append_nil _).symm
  | takeMessage =>
    simp only [onOpened]
    split
    case h_1 => exact hunmoved
    case h_2 hinbox => exact h.receive hinbox
    case h_3 hinbox => exact h.refuse hinbox
  | pongDue =>
    simp only [onOpened]
    split
    case h_1 => exact h.interrupt (fun halone => hcalm halone trivial) rfl
    case h_2 => exact hunmoved
  | writeFailed reason => exact h.interrupt (fun halone => hcalm halone trivial) rfl

theorem hears_handle (h : Hears alone i l.stage told) (hstaying : alone → .exit ∉ l.mailbox)
    (t : LinkTimings) (now : Nat) (e : LinkEvent)
    (hcalm : alone → ¬ (LinkStep.event now e).Interrupts) :
    Hears alone (i.after e) (l.handle t now e).1.stage (told ++ (l.handle t now e).2) := by
  cases hstage : l.stage with
  | opened s =>
    simp only [handle, hstage]
    exact hears_onOpened (hstage ▸ h) hstage hstaying t now e hcalm
  | ended =>
    simp only [handle, hstage, List.append_nil]
    exact (hstage ▸ h).stay e
  | idle | connecting | announcing =>
    rw [hstage] at h
    cases h

theorem start_of_hears (h : Hears alone i l.stage told) : l.start = l := by
  refine start_of_ne_idle fun hidle => ?_
  rw [hidle] at h
  cases h

theorem hears_step (h : Hears alone i l.stage told) (hstaying : alone → .exit ∉ l.mailbox)
    (t : LinkTimings) (s : LinkStep) (hcalm : alone → ¬ s.Interrupts) :
    Hears alone (i.next s) (l.step t s).1.stage (told ++ (l.step t s).2) := by
  cases s with
  | event now e => exact hears_handle h hstaying t now e hcalm
  | start =>
    rw [step, start_of_hears h, List.append_nil]
    exact h
  | send request interval =>
    rw [step, send_stage, List.append_nil]
    exact h
  | exit =>
    rw [step, exit_stage, List.append_nil]
    exact h

theorem exit_not_mem_step (hstaying : .exit ∉ l.mailbox) (t : LinkTimings) {s : LinkStep}
    (hother : s ≠ .exit) : .exit ∉ (l.step t s).1.mailbox := by
  cases s with
  | event now e => exact mt (l.handle_mailbox_suffix t now e).mem hstaying
  | start =>
    rw [step, start]
    split <;> exact hstaying
  | send request interval =>
    rw [step, send]
    split
    · exact hstaying
    · simpa using hstaying
  | exit => exact absurd rfl hother

theorem hears_run (h : Hears alone i l.stage told) (hstaying : alone → .exit ∉ l.mailbox)
    (t : LinkTimings) (steps : List LinkStep) (hcalm : alone → ∀ s ∈ steps, ¬ s.Interrupts) :
    Hears alone (i.through steps) (l.run t steps).1.stage (told ++ (l.run t steps).2) := by
  induction steps generalizing i l told with
  | nil =>
    rw [run, List.append_nil]
    exact h
  | cons s rest ih =>
    have hfirst (hok : alone) := (List.forall_mem_cons.1 (hcalm hok)).1
    have hlater (hok : alone) := (List.forall_mem_cons.1 (hcalm hok)).2
    have hstays (hok : alone) : .exit ∉ (l.step t s).1.mailbox := by
      refine exit_not_mem_step (hstaying hok) t ?_
      rintro rfl
      exact hfirst hok trivial
    have hwhole := ih (hears_step h hstaying t s hfirst) hstays hlater
    rwa [List.append_assoc] at hwhole

/-- A session that goes on has at most `k` things left to handle. -/
inductive Owes (k : Nat) : Stage → Prop
  | opened {s} (hfew : s.inbox.length ≤ k) : Owes k (.opened s)
  | ended : Owes k .ended

theorem owes_takeMessage {k : Nat} (h : Owes (k + 1) l.stage) (t : LinkTimings) (now : Nat) :
    Owes k (l.handle t now .takeMessage).1.stage := by
  cases hstage : l.stage with
  | ended =>
    simp only [handle, hstage]
    exact .ended
  | opened s =>
    rw [hstage] at h
    obtain ⟨hfew⟩ := h
    simp only [handle, hstage, onOpened]
    split
    case h_1 hinbox =>
      rw [hstage]
      exact .opened (by simp [hinbox])
    case h_2 m rest hinbox =>
      refine .opened ?_
      rw [Session.receive_inbox]
      simpa [hinbox] using hfew
    case h_3 => exact .ended
  | idle | connecting | announcing =>
    rw [hstage] at h
    cases h

theorem owes_run {k : Nat} (h : Owes k l.stage) (t : LinkTimings) (now : Nat) :
    Owes 0 (l.run t (.replicate k (.event now .takeMessage))).1.stage := by
  induction k generalizing l with
  | zero => exact h
  | succ k ih => exact ih (owes_takeMessage h t now)

theorem life_leaving {t : LinkTimings} {id : Nat} {endpoint : Endpoint} {steps : List LinkStep}
    (hleaving : .exit ∈ (life t id endpoint steps).1.mailbox) :
    (life t id endpoint steps).1.state = .closed := by
  induction steps using List.reverseRecOn with
  | nil => cases hleaving
  | append_singleton steps s ih =>
    by_cases hclosed : (life t id endpoint steps).1.state = .closed
    · exact life_closed hclosed
    have hstaying := mt ih hclosed
    rw [life_concat] at hleaving ⊢
    by_cases hexit : s = .exit
    · subst hexit
      refine exit_state_of_ne_ready fun hready => ?_
      rw [step, exit_of_ready hready] at hleaving
      exact hstaying hleaving
    · exact absurd hleaving (exit_not_mem_step hstaying t hexit)

variable {t : LinkTimings} {id : Nat} {endpoint : Endpoint} {opening : List LinkStep}
  {queued : List Command}

/-- The session begins to hear when the owner has been told of the connection. -/
theorem life_hears (hmade : (life t id endpoint opening).1.stage = .announcing queued) (now : Nat)
    (steps : List LinkStep) (halive : alone → (life t id endpoint opening).1.state ≠ .closed)
    (hcalm : alone → ∀ s ∈ steps, ¬ s.Interrupts) :
    Hears alone (Inflow.empty.through steps)
      (life t id endpoint (opening ++ .event now .announced :: steps)).1.stage
      (life t id endpoint (opening ++ .event now .announced :: steps)).2 := by
  have hsilent := (hmade ▸ lived t id endpoint opening).silent_of_announcing
  rw [life_append, hsilent, List.nil_append]
  have hstaying (hok : alone) := exit_not_mem_step (mt life_leaving (halive hok)) t
    (s := .event now .announced) nofun
  generalize (life t id endpoint opening).1 = l at hmade hstaying ⊢
  have hbegins : Hears alone .empty (l.step t (.event now .announced)).1.stage
      (l.step t (.event now .announced)).2 := by
    simp only [step, handle, hmade]
    exact .begin now t
  exact hears_run hbegins hstaying t steps hcalm

/-- All of a stream that comes to these messages has been handled. The link goes on, or it has met
the error. -/
inductive Heard (ms : List Message) : Option ReadError → Stage → List Notice → Prop
  | all {s told} (hproofs : proofsOf told = deliveries ms) (herrors : errorsOf told = []) :
      Heard ms none (.opened s) told
  | error {e told} (hproofs : proofsOf told = deliveries ms)
      (herrors : errorsOf told = [(.read, e.text)]) : Heard ms (some e) .ended told

theorem Heard.of_error {ms : List Message} {e : ReadError} {stage : Stage} {told : List Notice}
    (h : Heard ms (some e) stage told) :
    proofsOf told = deliveries ms ∧ errorsOf told = [(.read, e.text)] := by
  cases h with
  | error hproofs herrors => exact ⟨hproofs, herrors⟩

end Link

namespace Hears

variable {alone : Prop} {i : Inflow} {stage : Stage} {told : List Notice} {ms : List Message}
  {error : Option ReadError}

theorem exists_handled (h : Hears alone i stage told) :
    ∃ handled rest, handled.map .ok ++ rest = i.incoming ∧
      proofsOf told = deliveries handled := by
  cases h with
  | opened _ hmet hproofs => exact ⟨_, _, hmet, hproofs⟩
  | refused hmet hproofs => exact ⟨_, _, hmet, hproofs⟩
  | interrupted _ hmet hproofs => exact ⟨_, _, hmet, hproofs⟩

theorem proofs_told (h : Hears alone i stage told) (hcomes : i.Comes ms error) :
    proofsOf told <+: deliveries ms := by
  obtain ⟨handled, rest, hmet, hproofs⟩ := h.exists_handled
  rw [Inflow.incoming_eq hcomes] at hmet
  obtain ⟨later, rfl, -⟩ := exists_of_append_eq_outcome hmet
  rw [hproofs, deliveries, deliveries, List.filterMap_append]
  exact List.prefix_append ..

theorem owes (h : Hears alone i stage told) (hcomes : i.Comes ms error) {k : Nat}
    (henough : ms.length < k) : Link.Owes k stage := by
  cases h with
  | @opened s handled _ hreader hmet =>
    refine .opened ?_
    have hlength := congrArg List.length (hmet.trans (Inflow.incoming_eq hcomes))
    cases error <;> simp [outcome] at hlength <;> omega
  | refused | interrupted => exact .ended

/-- A link that nothing else is the matter with goes on until it meets the error. -/
theorem opened_or_heard (h : Hears alone i stage told) (hok : alone) (hcomes : i.Comes ms error) :
    ((∃ s, stage = .opened s) ∧ errorsOf told = []) ∨ Link.Heard ms error stage told := by
  cases h with
  | opened _ _ _ herrors => exact .inl ⟨⟨_, rfl⟩, herrors⟩
  | refused hmet hproofs herrors =>
    rw [Inflow.incoming_eq hcomes] at hmet
    obtain ⟨later, rfl, hrest⟩ := exists_of_append_eq_outcome hmet
    obtain ⟨rfl, rfl⟩ := outcome_eq_error hrest
    rw [List.append_nil]
    exact .inr (.error hproofs herrors)
  | interrupted hother => exact absurd hok hother

theorem heard (h : Hears alone i stage told) (hok : alone) (hcomes : i.Comes ms error)
    (hdone : Link.Owes 0 stage) : Link.Heard ms error stage told := by
  obtain ⟨⟨s, rfl⟩, -⟩ | hheard := h.opened_or_heard hok hcomes
  case inr => exact hheard
  obtain ⟨hfew⟩ := hdone
  obtain ⟨hreader, hmet, hproofs, herrors⟩ := h
  rw [Inflow.incoming_eq hcomes, List.eq_nil_of_length_eq_zero (Nat.le_zero.1 hfew)] at hmet
  obtain ⟨later, rfl, hrest⟩ := exists_of_append_eq_outcome hmet
  obtain ⟨rfl, rfl⟩ := outcome_eq_nil_iff.1 hrest.symm
  rw [List.append_nil]
  exact .all hproofs herrors

end Hears

namespace Link

variable {t : LinkTimings} {id : Nat} {endpoint : Endpoint} {opening : List LinkStep}
  {queued : List Command}

/-- Whatever bytes a timelord sends over a connection that was made, and in whatever pieces they
arrive, they come to some messages and maybe to an error. Only the proofs that these messages
deliver are told, in order. While nothing else is the matter with the link it goes on until it meets
the error, and when as many messages have been taken as there are, all the proofs have been told and
the error once, whatever else was sent behind it. -/
theorem stream_told (hmade : (life t id endpoint opening).1.stage = .announcing queued) (now : Nat)
    (steps : List LinkStep) :
    let before := opening ++ .event now .announced :: steps
    let i := Inflow.empty.through steps
    let l := (life t id endpoint before).1
    let told := (life t id endpoint before).2
    (∃ ms error, i.Comes ms error) ∧
    (∀ m challenge d, Message.delivery? m = some (challenge, d) ↔ m.Delivers challenge d) ∧
    ∀ ms error, i.Comes ms error →
      proofsOf told <+: deliveries ms ∧
      ((life t id endpoint opening).1.state ≠ .closed → (∀ s ∈ steps, ¬ s.Interrupts) →
        ((∃ s, l.stage = .opened s) ∧ errorsOf told = [] ∨ Heard ms error l.stage told) ∧
        ∀ later, ∀ k > ms.length,
          Heard ms error
            (life t id endpoint (before ++ .replicate k (.event later .takeMessage))).1.stage
            (life t id endpoint (before ++ .replicate k (.event later .takeMessage))).2) := by
  intro before i l told
  refine ⟨i.exists_comes, fun _ _ _ => Message.delivery?_eq_some_iff, ?_⟩
  intro ms error hcomes
  constructor
  · have hhears : Hears False i l.stage told := life_hears hmade now steps nofun nofun
    exact hhears.proofs_told hcomes
  intro halive hcalm
  have hhears : Hears True i l.stage told :=
    life_hears hmade now steps (fun _ => halive) (fun _ => hcalm)
  refine ⟨hhears.opened_or_heard trivial hcomes, fun later k henough => ?_⟩
  have htakes : ∀ s ∈ steps ++ .replicate k (.event later .takeMessage), ¬ s.Interrupts := by
    intro s hmem
    obtain hmem | hmem := List.mem_append.1 hmem
    · exact hcalm s hmem
    · rw [List.eq_of_mem_replicate hmem]
      exact not_false
  have hlast := life_hears hmade now _ (fun _ : True => halive) (fun _ => htakes)
  rw [Inflow.through_takeMessage, ← List.cons_append, ← List.append_assoc] at hlast
  refine hlast.heard trivial hcomes ?_
  rw [life_append]
  exact owes_run (hhears.owes hcomes henough) t later

/-- A timelord sends a reply that has no result, a proof, an empty frame and the proof again, and
then closes the connection. The owner is told the first proof and the error of the empty frame. -/
theorem stream_told_bad_frame :
    let m : ProofMessage := default
    let e : Endpoint := ⟨"timelord", 19191⟩
    ∃ reply body, (Message.calcReply default).toFrame = .ok (frameOf reply) ∧
      (Message.proof m).toFrame = .ok (frameOf body) ∧
      let bytes := ([reply, body, [], body].map frameOf).flatten
      let opening := [.start, .event 0 .connected]
      let steps := [.event 2 (.arrived bytes), .event 3 .hungUp]
      (life default 0 e opening).1.stage = .announcing [] ∧
        let before := opening ++ .event 1 .announced :: steps
        let told := (life default 0 e (before ++ .replicate 3 (.event 4 .takeMessage))).2
        proofsOf told = [(m.challenge, m.detail)] ∧
          errorsOf told = [(.read, (MessageError.notJson []).message)] := by
  intro m e
  obtain ⟨v, hwritten⟩ := Message.Typed.written (m := .calcReply default) trivial
  obtain ⟨w, hwritten'⟩ := Message.Typed.written (m := .proof m) trivial
  have hfirst := hwritten.framed
  have hsecond := hwritten'.framed
  generalize Text.utf8 v.render = reply at hfirst
  generalize Text.utf8 w.render = body at hsecond
  refine ⟨reply, body, hfirst.toFrame, hsecond.toFrame, ?_⟩
  intro bytes opening steps
  have hmade : (life default 0 e opening).1.stage = .announcing [] := rfl
  have halive : (life default 0 e opening).1.state ≠ .closed := by decide
  refine ⟨hmade, ?_⟩
  have hcomes : (Inflow.empty.through steps).Comes [.calcReply default, .proof m]
      (some (.message (.notJson []))) := by
    have hrefused := (Message.ofFrame_eq_error_iff List.not_mem_nil).1 ⟨_, Message.ofFrame_nil⟩
    obtain ⟨v, hspells, hmeans⟩ := (Message.ofFrame_eq_ok_iff hfirst.undelimited).1 hfirst.whole
    obtain ⟨w, hspells', hmeans'⟩ := (Message.ofFrame_eq_ok_iff hsecond.undelimited).1 hsecond.whole
    refine ⟨[reply, body, [], body], [], some (.notJson []), ⟨?_, ?_, ?_⟩, ?_, rfl⟩
    · exact (List.append_nil _).symm
    · simp [hfirst.undelimited, hsecond.undelimited]
    · exact List.not_mem_nil
    · exact .message hspells hmeans
        (.message hspells' hmeans' (.refused hrefused Message.ofFrame_nil))
  obtain ⟨-, -, htold⟩ := stream_told hmade 1 steps
  obtain ⟨-, halone⟩ := htold _ _ hcomes
  obtain ⟨-, hall⟩ := halone halive (by simp [steps, LinkStep.Interrupts])
  exact (hall 4 3 (by decide)).of_error

end Link

end PlotMiner.Timelord
