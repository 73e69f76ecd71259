import Mathlib.Logic.Relation
import PlotMiner.Proofs.Timelord.Passage

/-!
# The life of a link

Two parties write the state of a link: its owner, who starts it and ends it, and its session.
Whatever order their steps and the events of the connection come in, the state goes forward only,
and what the owner is told has one of a few shapes (`Story`): nothing, the failure to connect, or
the connection with proofs after it and at most one failure at the end. `Lived` ties the state and
the stage of a link to what has been told; every step keeps it, and from it follows that a link is
orderly (`link_orderly`).
-/

namespace PlotMiner.Timelord

inductive LinkState.Next : LinkState → LinkState → Prop
  | started : Next .ready .connecting
  | connected : Next .connecting .connected
  | refused : Next .connecting .closed
  | closed : Next .connected .closed

inductive LinkStep where
  | start
  | send (request : Calc) (interval : Nat)
  | exit
  | event (now : Nat) (event : LinkEvent)

namespace Link

def step (t : LinkTimings) (l : Link) : LinkStep → Link × List Notice
  | .start => (l.start, [])
  | .send request interval => (l.send request interval, [])
  | .exit => (l.exit, [])
  | .event now e => l.handle t now e

/-- The link after some steps, and what was noticed of it on the way. -/
def run (t : LinkTimings) (l : Link) : List LinkStep → Link × List Notice
  | [] => (l, [])
  | s :: rest =>
    let (l, first) := l.step t s
    let (l, later) := run t l rest
    (l, first ++ later)

theorem run_append (t : LinkTimings) (l : Link) (steps more : List LinkStep) :
    l.run t (steps ++ more) =
      (((l.run t steps).1.run t more).1,
        (l.run t steps).2 ++ ((l.run t steps).1.run t more).2) := by
  induction steps generalizing l with
  | nil => rfl
  | cons s rest ih => simp only [List.cons_append, run, ih, List.append_assoc]

end Link

namespace Link

variable {l : Link}

theorem exit_of_ready (h : l.state = .ready) : l.exit = l := by
  rw [exit, h]

theorem exit_of_closed (h : l.state = .closed) : l.exit = l := by
  rw [exit, h]

theorem send_of_closed (h : l.state = .closed) (request : Calc) (interval : Nat) :
    l.send request interval = l := by
  rw [send, if_pos h]

theorem start_of_ne_idle (h : l.stage ≠ .idle) : l.start = l := by
  unfold start
  split
  case h_1 hidle => exact absurd hidle h
  case h_2 => rfl

end Link

inductive Story : List Notice → Prop
  | silent : Story []
  | refused (message : String) : Story [.failed .connection message]
  | connected {quiet} (hcalm : ∀ n ∈ quiet, n.Quiet) : Story (.connected :: quiet)
  | lost {quiet kind} (hcalm : ∀ n ∈ quiet, n.Quiet) (hlater : kind ≠ .connection)
      (message : String) : Story (.connected :: (quiet ++ [.failed kind message]))

namespace Notice

def isFailed (n : Notice) : Bool := n.error?.isSome

theorem Quiet.isConnected {n : Notice} (h : n.Quiet) : n.isConnected = false := by
  cases n <;> simp_all [Quiet, Notice.isConnected]

theorem Quiet.isFailed {n : Notice} (h : n.Quiet) : n.isFailed = false := by
  cases n <;> simp_all [Quiet, Notice.isFailed, Notice.error?]

end Notice

theorem countP_eq_zero_of_quiet {quiet : List Notice} (hcalm : ∀ n ∈ quiet, n.Quiet) :
    quiet.countP Notice.isConnected = 0 ∧ quiet.countP Notice.isFailed = 0 := by
  simp only [List.countP_eq_zero]
  exact ⟨fun n hmem => by simp [(hcalm n hmem).isConnected],
    fun n hmem => by simp [(hcalm n hmem).isFailed]⟩

theorem failed_not_mem_of_quiet {quiet : List Notice} (hcalm : ∀ n ∈ quiet, n.Quiet)
    (kind : LinkErrorKind) (message : String) :
    .failed kind message ∉ Notice.connected :: quiet := by
  intro hmem
  obtain hwrong | hmem := List.mem_cons.1 hmem
  · cases hwrong
  · exact hcalm _ hmem

namespace Story

variable {seen before rest : List Notice}

theorem countP_isConnected_le (h : Story seen) : seen.countP Notice.isConnected ≤ 1 := by
  cases h with
  | silent | refused => simp [Notice.isConnected]
  | connected hcalm | lost hcalm =>
    simp [List.countP_cons, (countP_eq_zero_of_quiet hcalm).1, Notice.isConnected]

theorem countP_isFailed_le (h : Story seen) : seen.countP Notice.isFailed ≤ 1 := by
  cases h with
  | silent | refused => simp [Notice.isFailed, Notice.error?]
  | connected hcalm | lost hcalm =>
    simp [List.countP_cons, (countP_eq_zero_of_quiet hcalm).2, Notice.isFailed, Notice.error?]

theorem connected_mem {challenge : Bytes32} {d : ProofDetail} (h : Story seen)
    (hsplit : seen = before ++ .proof challenge d :: rest) : .connected ∈ before := by
  cases before with
  | nil => cases h <;> simp at hsplit
  | cons n before =>
    cases h with
    | silent | refused => simp at hsplit
    | connected | lost =>
      obtain ⟨rfl, -⟩ := List.cons.inj hsplit
      exact List.mem_cons_self

theorem not_refused (h : Story seen) (htold : .connected ∈ seen) (message : String) :
    .failed .connection message ∉ seen := by
  cases h with
  | silent | refused => simp at htold
  | connected hcalm => exact failed_not_mem_of_quiet hcalm _ _
  | lost hcalm hlater =>
    rw [← List.cons_append]
    refine List.not_mem_append (failed_not_mem_of_quiet hcalm _ _) ?_
    simp [hlater.symm]

theorem eq_nil_of_failed {kind : LinkErrorKind} {message : String} (h : Story seen)
    (hsplit : seen = before ++ .failed kind message :: rest) : rest = [] := by
  cases h with
  | silent => simp at hsplit
  | refused =>
    cases before <;> simp_all
  | connected hcalm =>
    exact absurd (hsplit ▸ by simp) (failed_not_mem_of_quiet hcalm kind message)
  | @lost quiet kind' hcalm hlater message' =>
    obtain rfl | ⟨rest, last, rfl⟩ := List.eq_nil_or_concat rest
    · rfl
    · have hshorter : .connected :: quiet = before ++ .failed kind message :: rest := by
        have hregroup : (.connected :: quiet) ++ [.failed kind' message'] =
            (before ++ .failed kind message :: rest) ++ [last] := by simpa using hsplit
        exact List.append_inj_left' hregroup rfl
      exact absurd (hshorter ▸ by simp) (failed_not_mem_of_quiet hcalm kind message)

end Story

/-- What has been told of a link goes with its state and stage. A link that its owner has ended may
still be at any stage after the start. -/
inductive Lived : LinkState → Stage → List Notice → Prop
  | unstarted : Lived .ready .idle []
  | connecting {state queued} (hleft : state = .connecting ∨ state = .closed) :
      Lived state (.connecting queued) []
  | announcing {state queued} (hleft : state = .connected ∨ state = .closed) :
      Lived state (.announcing queued) []
  | opened {state s quiet} (hleft : state = .connected ∨ state = .closed)
      (hcalm : ∀ n ∈ quiet, n.Quiet) : Lived state (.opened s) (.connected :: quiet)
  | ended {seen} (hstory : Story seen) : Lived .closed .ended seen

namespace Lived

variable {state : LinkState} {stage : Stage} {seen new : List Notice} {l : Link}

theorem story (h : Lived state stage seen) : Story seen := by
  cases h with
  | unstarted | connecting | announcing => exact .silent
  | opened hleft hcalm => exact .connected hcalm
  | ended hstory => exact hstory

theorem silent_of_idle (h : Lived state stage seen) (hidle : stage = .idle) : seen = [] := by
  cases h with
  | unstarted => rfl
  | _ => cases hidle

theorem silent_of_announcing {queued : List Command} (h : Lived state (.announcing queued) seen) :
    seen = [] := by
  cases h with
  | announcing => rfl

theorem leave (h : Lived state stage seen) (hbegun : state ≠ .ready) :
    Lived .closed stage seen := by
  cases h with
  | unstarted => exact absurd rfl hbegun
  | connecting => exact .connecting (.inr rfl)
  | announcing => exact .announcing (.inr rfl)
  | opened hleft hcalm => exact .opened (.inr rfl) hcalm
  | ended hstory => exact .ended hstory

theorem connecting_or_closed {queued : List Command} (h : Lived state (.connecting queued) seen) :
    state = .connecting ∨ state = .closed := by
  cases h with
  | connecting hleft => exact hleft

theorem setAside {queued queued' : List Command} (h : Lived state (.connecting queued) seen) :
    Lived state (.connecting queued') seen := by
  cases h with
  | connecting hleft => exact .connecting hleft

theorem announce {queued queued' : List Command} (h : Lived state (.connecting queued) seen) :
    Lived .connected (.announcing queued') seen := by
  cases h with
  | connecting => exact .announcing (.inl rfl)

theorem refuse {queued : List Command} (h : Lived state (.connecting queued) seen)
    (message : String) : Lived .closed .ended (seen ++ [.failed .connection message]) := by
  cases h with
  | connecting => exact .ended (.refused message)

theorem begin {queued : List Command} {s : Session} (h : Lived state (.announcing queued) seen)
    (hcalm : ∀ n ∈ new, n.Quiet) : Lived state (.opened s) (seen ++ .connected :: new) := by
  cases h with
  | announcing hleft => exact .opened hleft hcalm

theorem goOn {s s' : Session} (h : Lived state (.opened s) seen) (hcalm : ∀ n ∈ new, n.Quiet) :
    Lived state (.opened s') (seen ++ new) := by
  cases h with
  | opened hleft hbefore => exact .opened hleft (List.forall_mem_append.2 ⟨hbefore, hcalm⟩)

theorem lose {s : Session} {kind : LinkErrorKind} (h : Lived state (.opened s) seen)
    (hlater : kind ≠ .connection) (message : String) :
    Lived .closed .ended (seen ++ [.failed kind message]) := by
  cases h with
  | opened hleft hcalm => exact .ended (.lost hcalm hlater message)

theorem handle (h : Lived l.state l.stage seen) (t : LinkTimings) (now : Nat) (e : LinkEvent) :
    Lived (l.handle t now e).1.state (l.handle t now e).1.stage
      (seen ++ (l.handle t now e).2) := by
  have hway := l.handle_passage t now e
  generalize l.handle t now e = r at hway ⊢
  cases hway with
  | unmoved => simpa using h
  | setAside hstage => simpa using (hstage ▸ h).setAside
  | exited | late => simpa using .ended h.story
  | connected hstage => simpa using (hstage ▸ h).announce
  | announced hstage => exact (hstage ▸ h).begin (Link.quiet_applyAll _ _ _)
  | refused hstage => exact (hstage ▸ h).refuse _
  | failed hstage hlater => exact (hstage ▸ h).lose hlater _
  | applied hstage =>
    exact (hstage ▸ h).goOn (by simp [Link.withSession, Session.apply, Notice.Quiet])
  | read hstage => exact (hstage ▸ h).goOn (List.forall_mem_nil _)
  | received hstage => exact (hstage ▸ h).goOn (Link.quiet_noticesOf _)
  | pinged hstage =>
    exact (hstage ▸ h).goOn (by simp [Link.withSession, Session.ping, Notice.Quiet])
  | resent hstage => exact (hstage ▸ h).goOn (by simp [Link.withSession, Notice.Quiet])

theorem step (h : Lived l.state l.stage seen) (t : LinkTimings) (s : LinkStep) :
    Lived (l.step t s).1.state (l.step t s).1.stage (seen ++ (l.step t s).2) := by
  cases s with
  | start =>
    rw [Link.step, List.append_nil]
    unfold Link.start
    split
    case h_1 hidle =>
      rw [h.silent_of_idle hidle]
      exact .connecting (.inl rfl)
    case h_2 => exact h
  | send request interval => simpa [Link.step] using h
  | exit =>
    rw [Link.step, List.append_nil, Link.exit_stage]
    unfold Link.exit
    split
    case h_1 | h_2 => exact h
    all_goals exact h.leave (by simp [*])
  | event now e => exact h.handle t now e

theorem run (h : Lived l.state l.stage seen) (t : LinkTimings) (steps : List LinkStep) :
    Lived (l.run t steps).1.state (l.run t steps).1.stage (seen ++ (l.run t steps).2) := by
  induction steps generalizing l seen with
  | nil => simpa [Link.run] using h
  | cons s rest ih => simpa [Link.run] using ih (h.step t s)

theorem ready_iff (h : Lived state stage seen) : state = .ready ↔ stage = .idle := by
  cases h with
  | unstarted | ended => simp
  | connecting hleft | announcing hleft | opened hleft =>
    obtain rfl | rfl := hleft <;> simp

end Lived

namespace LinkState

theorem next_closed {state : LinkState} (hbegun : state ≠ .ready) :
    .closed = state ∨ state.Next .closed := by
  cases state with
  | ready => exact absurd rfl hbegun
  | connecting => exact .inr .refused
  | connected => exact .inr .closed
  | closed => exact .inl rfl

theorem eq_closed_of_closed {state : LinkState}
    (h : Relation.ReflTransGen Next .closed state) : state = .closed := by
  obtain rfl | ⟨next, hway, -⟩ := h.cases_head
  · rfl
  · cases hway

theorem eq_ready_of_ready {state : LinkState}
    (h : Relation.ReflTransGen Next state .ready) : state = .ready := by
  obtain hsame | ⟨last, -, hway⟩ := h.cases_tail
  · exact hsame.symm
  · cases hway

end LinkState

namespace Lived

variable {l : Link} {seen : List Notice}

theorem forward_handle (h : Lived l.state l.stage seen) (t : LinkTimings) (now : Nat)
    (e : LinkEvent) :
    (l.handle t now e).1.state = l.state ∨ l.state.Next (l.handle t now e).1.state := by
  have hbegun (hstage : l.stage ≠ .idle) : l.state ≠ .ready := mt h.ready_iff.1 hstage
  have hway := l.handle_passage t now e
  generalize l.handle t now e = r at hway ⊢
  cases hway with
  | exited hat_work =>
    refine LinkState.next_closed (hbegun ?_)
    obtain ⟨queued, hstage⟩ | ⟨s, hstage⟩ := hat_work <;> simp [hstage]
  | late hstage | refused hstage | failed hstage =>
    exact LinkState.next_closed (hbegun (by simp [hstage]))
  | connected hstage halive =>
    obtain hconnecting | hclosed := (hstage ▸ h).connecting_or_closed
    · exact .inr (hconnecting ▸ .connected)
    · exact absurd hclosed halive
  | _ => exact .inl rfl

/-- One step takes the state to the next one, if anywhere. -/
theorem forward (h : Lived l.state l.stage seen) (t : LinkTimings) (s : LinkStep) :
    (l.step t s).1.state = l.state ∨ l.state.Next (l.step t s).1.state := by
  cases s with
  | start =>
    by_cases hidle : l.stage = .idle
    · have hconnecting : l.start.state = .connecting := by rw [Link.start, hidle]
      rw [h.ready_iff.2 hidle, Link.step, hconnecting]
      exact .inr .started
    · exact .inl (congrArg Link.state (Link.start_of_ne_idle hidle))
  | send request interval => exact .inl (l.send_state request interval)
  | exit =>
    by_cases hready : l.state = .ready
    · exact .inl (congrArg Link.state (Link.exit_of_ready hready))
    · rw [Link.step, Link.exit_state_of_ne_ready hready]
      exact LinkState.next_closed hready
  | event now e => exact h.forward_handle t now e

theorem forward_run (h : Lived l.state l.stage seen) (t : LinkTimings) (steps : List LinkStep) :
    Relation.ReflTransGen LinkState.Next l.state (l.run t steps).1.state := by
  induction steps generalizing l seen with
  | nil => exact .refl
  | cons s rest ih =>
    have hlater := ih (h.step t s)
    obtain hsame | hnext := h.forward t s
    · rwa [hsame] at hlater
    · exact .head hnext hlater

end Lived

/-- Nothing is left to be done about the connection. -/
def Stage.Settled : Stage → Prop
  | idle | connecting _ => False
  | announcing _ | opened _ | ended => True

theorem Lived.settled {stage : Stage} {seen : List Notice} (h : Lived .connected stage seen)
    (message : String) : stage.Settled ∧ .failed .connection message ∉ seen := by
  cases h with
  | connecting hleft => simp at hleft
  | announcing => exact ⟨trivial, List.not_mem_nil⟩
  | opened hleft hcalm => exact ⟨trivial, failed_not_mem_of_quiet hcalm _ _⟩

namespace Link

variable {l : Link}

theorem settled_handle (h : l.stage.Settled) (t : LinkTimings) (now : Nat) (e : LinkEvent)
    (message : String) :
    (l.handle t now e).1.stage.Settled ∧ .failed .connection message ∉ (l.handle t now e).2 := by
  have hway := l.handle_passage t now e
  generalize l.handle t now e = r at hway ⊢
  cases hway with
  | unmoved => exact ⟨h, List.not_mem_nil⟩
  | exited => exact ⟨trivial, List.not_mem_nil⟩
  | setAside hstage | connected hstage | late hstage | refused hstage => exact (hstage ▸ h).elim
  | announced => exact ⟨trivial, failed_not_mem_of_quiet (quiet_applyAll _ _ _) _ _⟩
  | failed hstage hlater => exact ⟨trivial, by simp [fail, Ne.symm hlater]⟩
  | applied | read | pinged | resent =>
    exact ⟨trivial, by simp [withSession, Session.apply, Session.ping]⟩
  | received =>
    refine ⟨trivial, fun hmem => ?_⟩
    exact quiet_noticesOf _ _ hmem

theorem settled_step (h : l.stage.Settled) (t : LinkTimings) (s : LinkStep) (message : String) :
    (l.step t s).1.stage.Settled ∧ .failed .connection message ∉ (l.step t s).2 := by
  cases s with
  | start =>
    have hbegun : l.stage ≠ .idle := by
      intro hidle
      rw [hidle] at h
      exact h
    rw [step, start_of_ne_idle hbegun]
    exact ⟨h, List.not_mem_nil⟩
  | send request interval => exact ⟨(l.send_stage request interval).symm ▸ h, List.not_mem_nil⟩
  | exit => exact ⟨l.exit_stage.symm ▸ h, List.not_mem_nil⟩
  | event now e => exact settled_handle h t now e message

theorem settled_run (h : l.stage.Settled) (t : LinkTimings) (steps : List LinkStep)
    (message : String) : .failed .connection message ∉ (l.run t steps).2 := by
  induction steps generalizing l with
  | nil => exact List.not_mem_nil
  | cons s rest ih =>
    obtain ⟨hsettled, hfirst⟩ := settled_step h t s message
    exact List.not_mem_append hfirst (ih hsettled)

/-- The link that some steps were made of since it was made, and what has been noticed of it. -/
def life (t : LinkTimings) (id : Nat) (endpoint : Endpoint) (steps : List LinkStep) :
    Link × List Notice :=
  (new id endpoint).run t steps

variable {t : LinkTimings} {id : Nat} {endpoint : Endpoint} {steps : List LinkStep}

theorem lived (t : LinkTimings) (id : Nat) (endpoint : Endpoint) (steps : List LinkStep) :
    Lived (life t id endpoint steps).1.state (life t id endpoint steps).1.stage
      (life t id endpoint steps).2 := by
  simpa [life] using Lived.unstarted.run (l := new id endpoint) t steps

theorem life_append (more : List LinkStep) :
    life t id endpoint (steps ++ more) =
      (((life t id endpoint steps).1.run t more).1,
        (life t id endpoint steps).2 ++ ((life t id endpoint steps).1.run t more).2) :=
  run_append ..

theorem life_concat (s : LinkStep) :
    life t id endpoint (steps ++ [s]) =
      (((life t id endpoint steps).1.step t s).1,
        (life t id endpoint steps).2 ++ ((life t id endpoint steps).1.step t s).2) := by
  simp [life_append, run]

theorem life_forward (t : LinkTimings) (id : Nat) (endpoint : Endpoint)
    (steps more : List LinkStep) :
    Relation.ReflTransGen LinkState.Next (life t id endpoint steps).1.state
      (life t id endpoint (steps ++ more)).1.state := by
  rw [life_append]
  exact (lived t id endpoint steps).forward_run t more

theorem life_closed {more : List LinkStep}
    (hclosed : (life t id endpoint steps).1.state = .closed) :
    (life t id endpoint (steps ++ more)).1.state = .closed :=
  LinkState.eq_closed_of_closed (hclosed ▸ life_forward t id endpoint steps more)

theorem life_exit (hclosed : (life t id endpoint steps).1.state = .closed) :
    life t id endpoint (steps ++ [.exit]) = life t id endpoint steps := by
  simp [life_concat, step, exit_of_closed hclosed]

theorem life_exit_state (hbegun : (life t id endpoint steps).1.state ≠ .ready) :
    (life t id endpoint (steps ++ [.exit])).1.state = .closed := by
  simpa [life_concat, step] using exit_state_of_ne_ready hbegun

theorem life_start_ne_ready : (life t id endpoint (steps ++ [.start])).1.state ≠ .ready := by
  have hbegun : (life t id endpoint (steps ++ [.start])).1.stage ≠ .idle := by
    rw [life_concat, step, start]
    split
    case h_1 => simp
    case h_2 hbegun => exact hbegun
  exact mt (lived t id endpoint (steps ++ [.start])).ready_iff.1 hbegun

/-- A link keeps to the order of its states and of its notices, over the steps that it has been
through and those that may follow. -/
structure Orderly (t : LinkTimings) (id : Nat) (endpoint : Endpoint) (steps : List LinkStep) :
    Prop where
  forward (s : LinkStep) :
    (life t id endpoint (steps ++ [s])).1.state = (life t id endpoint steps).1.state ∨
      (life t id endpoint steps).1.state.Next (life t id endpoint (steps ++ [s])).1.state
  closed_final (more : List LinkStep) : (life t id endpoint steps).1.state = .closed →
    (life t id endpoint (steps ++ more)).1.state = .closed
  exit_ready : (life t id endpoint steps).1.state = .ready →
    life t id endpoint (steps ++ [.exit]) = life t id endpoint steps ∧
      (life t id endpoint (steps ++ [.exit, .start])).1.state = .connecting
  exit_begun : (life t id endpoint steps).1.state ≠ .ready →
    (life t id endpoint (steps ++ [.exit])).1.state = .closed
  exit_again (before rest : List LinkStep) : steps = before ++ .exit :: rest →
    (life t id endpoint before).1.state ≠ .ready →
    life t id endpoint (steps ++ [.exit]) = life t id endpoint steps
  start_again (before rest : List LinkStep) : steps = before ++ .start :: rest →
    life t id endpoint (steps ++ [.start]) = life t id endpoint steps
  connected_once : (life t id endpoint steps).2.countP Notice.isConnected ≤ 1
  failed_once : (life t id endpoint steps).2.countP Notice.isFailed ≤ 1
  proof_connected (before rest : List Notice) (challenge : Bytes32) (d : ProofDetail) :
    (life t id endpoint steps).2 = before ++ .proof challenge d :: rest → .connected ∈ before
  failed_last (before rest : List Notice) (kind : LinkErrorKind) (message : String) :
    (life t id endpoint steps).2 = before ++ .failed kind message :: rest → rest = []
  never_refused (before rest : List LinkStep) : steps = before ++ rest →
    (life t id endpoint before).1.state = .connected ∨ .connected ∈ (life t id endpoint before).2 →
    ∀ message, .failed .connection message ∉ (life t id endpoint steps).2

theorem life_exit_again {before rest : List LinkStep}
    (hbegun : (life t id endpoint before).1.state ≠ .ready) :
    life t id endpoint (before ++ [.exit] ++ rest ++ [.exit]) =
      life t id endpoint (before ++ [.exit] ++ rest) :=
  life_exit (life_closed (life_exit_state hbegun))

theorem life_start_again {before rest : List LinkStep} :
    life t id endpoint (before ++ [.start] ++ rest ++ [.start]) =
      life t id endpoint (before ++ [.start] ++ rest) := by
  have hbegun : (life t id endpoint (before ++ [.start] ++ rest)).1.stage ≠ .idle := by
    -- only a ready link is idle, and no state goes back to ready
    intro hidle
    have hway := life_forward t id endpoint (before ++ [.start]) rest
    rw [(lived ..).ready_iff.2 hidle] at hway
    exact life_start_ne_ready (LinkState.eq_ready_of_ready hway)
  rw [life_concat, step, start_of_ne_idle hbegun, List.append_nil]

theorem life_never_refused {before rest : List LinkStep}
    (hmade : (life t id endpoint before).1.state = .connected ∨
      .connected ∈ (life t id endpoint before).2) (message : String) :
    .failed .connection message ∉ (life t id endpoint (before ++ rest)).2 := by
  obtain hconnected | htold := hmade
  · obtain ⟨hsettled, hfirst⟩ := (hconnected ▸ lived t id endpoint before).settled message
    rw [life_append]
    exact List.not_mem_append hfirst (settled_run hsettled t rest message)
  · refine (lived t id endpoint (before ++ rest)).story.not_refused ?_ message
    rw [life_append]
    exact List.mem_append_left _ htold

/-- Every link is orderly, whatever its owner does and whatever happens to it. -/
theorem link_orderly (t : LinkTimings) (id : Nat) (endpoint : Endpoint) (steps : List LinkStep) :
    Orderly t id endpoint steps where
  forward s := by
    rw [life_concat]
    exact (lived t id endpoint steps).forward t s
  closed_final _ := life_closed
  exit_ready hready := by
    have hidle := (lived t id endpoint steps).ready_iff.1 hready
    constructor
    · simp [life_concat, step, exit_of_ready hready]
    · simp [life_append, run, step, exit_of_ready hready, start, hidle]
  exit_begun := life_exit_state
  exit_again := by
    rintro before rest rfl hbegun
    rw [List.append_cons before]
    exact life_exit_again hbegun
  start_again := by
    rintro before rest rfl
    rw [List.append_cons before]
    exact life_start_again
  connected_once := (lived t id endpoint steps).story.countP_isConnected_le
  failed_once := (lived t id endpoint steps).story.countP_isFailed_le
  proof_connected _ _ _ _ := (lived t id endpoint steps).story.connected_mem
  failed_last _ _ _ _ := (lived t id endpoint steps).story.eq_nil_of_failed
  never_refused := by
    rintro before rest rfl hmade
    exact life_never_refused hmade

/-- A connection that is made after the owner has left does not revive the link. -/
example (t : LinkTimings) (id now : Nat) (endpoint : Endpoint) :
    let (l, seen) := life t id endpoint [.start, .exit, .event now .connected]
    l.state = .closed ∧ seen = [] :=
  ⟨rfl, rfl⟩

end Link

end PlotMiner.Timelord
