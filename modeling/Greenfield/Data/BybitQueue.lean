import Greenfield.Lib.Run

/-!
# The queue of the Bybit collector

The event queue of `src/data/bybit_raw_collector.py` between the WebSocket callbacks, which the
main thread runs, and the writer thread. What one thread does between two accesses to what both
share is one step. `_background_stop` is never cleared, so that flag and the emptiness of the queue
are as good as read at once.

A run that returns normally, and whose writer thread has ended, has written all that was put on the
queue exactly if no write has raised and nothing was put after the writer had left its loop
(`written_iff`). Where `stop` waits for the writer and only `run_forever` calls it, it has.
-/

namespace Greenfield.Data

open Runs

/-- Where the writer thread is. -/
inductive WriterPhase where
  /-- At the condition of its loop. -/
  | condition
  /-- In `self._queue.get`. -/
  | taking
  /-- At the condition of the flush. -/
  | deciding
  /-- In `self._raw_writer.write`. -/
  | writing
  /-- At the handler of an exception, and after it has set the failure flag. -/
  | failing
  | leaving
  | ended
  deriving DecidableEq

/-- Where the main thread is in `run_forever`. -/
inductive RunPhase where
  /-- At the condition of the loop. -/
  | looping
  /-- In `ws.run_forever()`. -/
  | connected
  /-- In `stop`, before and after the background flag is set. -/
  | stopping
  | joining
  /-- At the tests of the two failure flags. -/
  | checkingWriter
  | checkingTerminal
  | ended (raised : Bool)
  deriving DecidableEq

structure EventQueue (α : Type) where
  queue : List α := []
  /-- The variable `batch` of the writer. -/
  batch : List α := []
  /-- All events that were put on the queue. -/
  accepted : List α := []
  /-- The batches that were passed to `write`, and those of which it returned. -/
  passed : List (List α) := []
  written : List (List α) := []
  shutdown : Bool := false
  backgroundStop : Bool := false
  writerFailure : Bool := false
  terminalFailure : Bool := false
  writer : WriterPhase := .condition
  phase : RunPhase := .looping
  /-- An exception is on its way through `run_forever`. -/
  crashed : Bool := false
  deriving DecidableEq

inductive MainEvent (α : Type) where
  /-- The condition of the loop. -/
  | loop
  /-- A message that is enveloped as an event. -/
  | message (event : α)
  /-- `ws.run_forever()` returns, or raises. -/
  | returned (raised : Bool)
  | setBackgroundStop
  /-- The joins of `stop` return. -/
  | joined (timedOut : Bool)
  | testWriterFailure
  | testTerminalFailure
  deriving DecidableEq

inductive WriterEvent where
  /-- The condition of the loop. -/
  | condition
  /-- `self._queue.get` returns, or its time is over. -/
  | get
  /-- The condition of the flush; `due` compares the clock with the deadline. -/
  | decide (due : Bool)
  /-- `self._raw_writer.write` returns, or raises. -/
  | wrote
  | raised
  | setWriterFailure
  | leave
  deriving DecidableEq

inductive QueueEvent (α : Type) where
  | main (event : MainEvent α)
  | writer (event : WriterEvent)
  /-- A stop signal, or `_fail_closed` of a message that is no event. -/
  | shutdown
  /-- The storage guard of any thread. -/
  | reserveBreached
  /-- A health publication of any thread fails. -/
  | publicationFails
  /-- `stop`, called by another thread. -/
  | stopped
  deriving DecidableEq

/-- `max_batch_events` and `queue_capacity`. -/
structure QueueLimits where
  maxBatchEvents : ℕ
  queueCapacity : ℕ

namespace EventQueue

variable {α : Type} (limits : QueueLimits)

/-- The conditions of the writer's loop and of its flush read the flag and the queue. -/
def drained (s : EventQueue α) : Bool := s.backgroundStop && s.queue.isEmpty

/-- An event of the main thread. -/
def mainStep (s : EventQueue α) : MainEvent α → EventQueue α
  | .loop =>
    match s.phase with
    | .looping => { s with phase := if s.shutdown then .stopping else .connected }
    | _ => s
  | .message event =>
    match s.phase with
    | .connected =>
      if s.queue.length < limits.queueCapacity then
        { s with queue := s.queue ++ [event], accepted := s.accepted ++ [event] }
      else { s with shutdown := true }
    | _ => s
  | .returned raised =>
    match s.phase with
    | .connected => { s with phase := if raised then .stopping else .looping, crashed := raised }
    | _ => s
  | .setBackgroundStop =>
    match s.phase with
    | .stopping => { s with phase := .joining, shutdown := true, backgroundStop := true }
    | _ => s
  | .joined timedOut =>
    match s.phase with
    | .joining =>
      if timedOut || s.writer = .ended then
        { s with phase := if s.crashed then .ended true else .checkingWriter }
      else s
    | _ => s
  | .testWriterFailure =>
    match s.phase with
    | .checkingWriter =>
      { s with phase := if s.writerFailure then .ended true else .checkingTerminal }
    | _ => s
  | .testTerminalFailure =>
    match s.phase with
    | .checkingTerminal => { s with phase := .ended s.terminalFailure }
    | _ => s

/-- An event of the writer thread. -/
def writerStep (s : EventQueue α) : WriterEvent → EventQueue α
  | .condition =>
    match s.writer with
    | .condition => { s with writer := if s.drained && s.batch.isEmpty then .ended else .taking }
    | _ => s
  | .get =>
    match s.writer with
    | .taking =>
      match s.queue with
      | event :: rest =>
        { s with queue := rest, batch := s.batch ++ [event], writer := .deciding }
      | [] => { s with writer := .deciding }
    | _ => s
  | .decide due =>
    match s.writer with
    | .deciding =>
      if !s.batch.isEmpty && (due || limits.maxBatchEvents ≤ s.batch.length || s.drained) then
        { s with passed := s.passed ++ [s.batch], writer := .writing }
      else { s with writer := .condition }
    | _ => s
  | .wrote =>
    match s.writer with
    | .writing => { s with written := s.written ++ [s.batch], batch := [], writer := .condition }
    | _ => s
  | .raised =>
    match s.writer with
    | .writing => { s with writer := .failing }
    | _ => s
  | .setWriterFailure =>
    match s.writer with
    | .failing => { s with writerFailure := true, writer := .leaving }
    | _ => s
  | .leave =>
    match s.writer with
    | .leaving => { s with shutdown := true, writer := .ended }
    | _ => s

/-- An event. One that cannot happen in a state leaves the state as it is. -/
def step (s : EventQueue α) : QueueEvent α → EventQueue α
  | .main event => s.mainStep limits event
  | .writer event => s.writerStep limits event
  | .shutdown => { s with shutdown := true }
  | .reserveBreached => { s with terminalFailure := true, shutdown := true }
  | .publicationFails => { s with writerFailure := true, shutdown := true }
  | .stopped => { s with shutdown := true, backgroundStop := true }

/-- Every event that was put on the queue was passed to `write` in one batch, in their order, and
every write returned. -/
structure Delivered (s : EventQueue α) : Prop where
  returned : s.passed = s.written
  events : s.accepted = s.written.flatten

/-- No write raises, and no event is put after the writer has ended. -/
def InTime (s : EventQueue α) : QueueEvent α → Prop
  | .writer .raised => s.writer ≠ .writing
  | .main (.message _) => s.phase = .connected → s.queue.length < limits.queueCapacity → s.writer ≠ .ended
  | _ => True

/-- No other thread calls `stop`, and no join is timed out. -/
def Undisturbed : QueueEvent α → Prop
  | .stopped => False
  | .main (.joined timedOut) => timedOut = false
  | _ => True

/-! ## What a step does -/

section

variable {limits} {s : EventQueue α}

/-- A step of the main thread. -/
inductive MainMove (limits : QueueLimits) (s : EventQueue α) : MainEvent α → EventQueue α → Prop
  | same (event : MainEvent α) : MainMove limits s event s
  | loop (hphase : s.phase = .looping) :
      MainMove limits s .loop { s with phase := if s.shutdown then .stopping else .connected }
  | put (event : α) (hphase : s.phase = .connected)
      (hroom : s.queue.length < limits.queueCapacity) : MainMove limits s (.message event)
        { s with queue := s.queue ++ [event], accepted := s.accepted ++ [event] }
  | full (event : α) : MainMove limits s (.message event) { s with shutdown := true }
  | returned (raised : Bool) (hphase : s.phase = .connected) : MainMove limits s (.returned raised)
      { s with phase := if raised then .stopping else .looping, crashed := raised }
  | stop (hphase : s.phase = .stopping) : MainMove limits s .setBackgroundStop
      { s with phase := .joining, shutdown := true, backgroundStop := true }
  | joined (timedOut : Bool) (hdone : timedOut = true ∨ s.writer = .ended) :
      MainMove limits s (.joined timedOut)
        { s with phase := if s.crashed then .ended true else .checkingWriter }
  | testedWriter (hphase : s.phase = .checkingWriter) : MainMove limits s .testWriterFailure
      { s with phase := if s.writerFailure then .ended true else .checkingTerminal }
  | testedTerminal (hphase : s.phase = .checkingTerminal) : MainMove limits s .testTerminalFailure
      { s with phase := .ended s.terminalFailure }

variable (limits s) in
theorem mainStep_move (event : MainEvent α) :
    MainMove limits s event (s.mainStep limits event) := by
  cases event with
  | loop =>
    unfold mainStep
    dsimp only
    split
    · next hphase => exact .loop hphase
    · exact .same _
  | message event =>
    unfold mainStep
    dsimp only
    split
    · next hphase =>
      split
      · next hroom => exact .put event hphase hroom
      · exact .full event
    · exact .same _
  | returned raised =>
    unfold mainStep
    dsimp only
    split
    · next hphase => exact .returned raised hphase
    · exact .same _
  | setBackgroundStop =>
    unfold mainStep
    dsimp only
    split
    · next hphase => exact .stop hphase
    · exact .same _
  | joined timedOut =>
    unfold mainStep
    dsimp only
    split
    · split
      · next hdone => exact .joined timedOut (by simpa using hdone)
      · exact .same _
    · exact .same _
  | testWriterFailure =>
    unfold mainStep
    dsimp only
    split
    · next hphase => exact .testedWriter hphase
    · exact .same _
  | testTerminalFailure =>
    unfold mainStep
    dsimp only
    split
    · next hphase => exact .testedTerminal hphase
    · exact .same _

/-- A step of the writer thread. -/
inductive WriterMove (s : EventQueue α) : WriterEvent → EventQueue α → Prop
  | same (event : WriterEvent) : WriterMove s event s
  | exit (hwriter : s.writer = .condition) (hstop : s.backgroundStop = true)
      (hqueue : s.queue = []) (hbatch : s.batch = []) :
      WriterMove s .condition { s with writer := .ended }
  | again (hwriter : s.writer = .condition) : WriterMove s .condition { s with writer := .taking }
  | taken (event : α) (rest : List α) (hwriter : s.writer = .taking)
      (hqueue : s.queue = event :: rest) : WriterMove s .get
        { s with queue := rest, batch := s.batch ++ [event], writer := .deciding }
  | timedOut (hwriter : s.writer = .taking) : WriterMove s .get { s with writer := .deciding }
  | flush (due : Bool) (hwriter : s.writer = .deciding) : WriterMove s (.decide due)
      { s with passed := s.passed ++ [s.batch], writer := .writing }
  | hold (due : Bool) (hwriter : s.writer = .deciding) :
      WriterMove s (.decide due) { s with writer := .condition }
  | wrote (hwriter : s.writer = .writing) : WriterMove s .wrote
      { s with written := s.written ++ [s.batch], batch := [], writer := .condition }
  | raised (hwriter : s.writer = .writing) : WriterMove s .raised { s with writer := .failing }
  | flagged (hwriter : s.writer = .failing) : WriterMove s .setWriterFailure
      { s with writerFailure := true, writer := .leaving }
  | left (hwriter : s.writer = .leaving) : WriterMove s .leave
      { s with shutdown := true, writer := .ended }

variable (limits s) in
theorem writerStep_move (event : WriterEvent) :
    WriterMove s event (s.writerStep limits event) := by
  cases event with
  | condition =>
    unfold writerStep
    dsimp only
    split
    · next hwriter =>
      split
      · next hdone =>
        simp only [drained, Bool.and_eq_true, List.isEmpty_iff] at hdone
        exact .exit hwriter hdone.1.1 hdone.1.2 hdone.2
      · exact .again hwriter
    · exact .same _
  | get =>
    unfold writerStep
    dsimp only
    split
    · next hwriter =>
      split
      · next event rest hqueue => exact .taken event rest hwriter hqueue
      · exact .timedOut hwriter
    · exact .same _
  | decide due =>
    unfold writerStep
    dsimp only
    split
    · next hwriter =>
      split
      · exact .flush due hwriter
      · exact .hold due hwriter
    · exact .same _
  | wrote =>
    unfold writerStep
    dsimp only
    split
    · next hwriter => exact .wrote hwriter
    · exact .same _
  | raised =>
    unfold writerStep
    dsimp only
    split
    · next hwriter => exact .raised hwriter
    · exact .same _
  | setWriterFailure =>
    unfold writerStep
    dsimp only
    split
    · next hwriter => exact .flagged hwriter
    · exact .same _
  | leave =>
    unfold writerStep
    dsimp only
    split
    · next hwriter => exact .left hwriter
    · exact .same _

/-! ## Events in time -/

/-- What was put on the queue has been written, or is in the batch or on the queue. -/
structure Flow (s : EventQueue α) : Prop where
  accepted : s.accepted = s.written.flatten ++ s.batch ++ s.queue
  passed : s.passed = s.written ++ if s.writer = .writing then [s.batch] else []
  ended : s.writer = .ended → s.batch = [] ∧ s.queue = []
  going : s.writer ≠ .failing ∧ s.writer ≠ .leaving

theorem Flow.passed_written (h : Flow s) (hwriter : s.writer ≠ .writing) : s.passed = s.written := by
  rw [h.passed, if_neg hwriter, List.append_nil]

theorem Flow.delivered (h : Flow s) (hended : s.writer = .ended) : Delivered s where
  returned := h.passed_written (by rw [hended]; decide)
  events := by
    obtain ⟨hbatch, hqueue⟩ := h.ended hended
    rw [h.accepted, hbatch, hqueue, List.append_nil, List.append_nil]

theorem Flow.mainStep (h : Flow s) {event : MainEvent α} (hok : InTime limits s (.main event)) :
    Flow (s.mainStep limits event) := by
  have hmove := mainStep_move limits s event
  generalize s.mainStep limits event = next at hmove
  cases hmove with
  | same => exact h
  | put event hphase hroom =>
    refine ⟨?_, h.passed, fun hwriter => absurd hwriter (hok hphase hroom), h.going⟩
    dsimp only
    rw [h.accepted, List.append_assoc]
  | _ => exact ⟨h.accepted, h.passed, h.ended, h.going⟩

theorem Flow.writerStep (h : Flow s) {event : WriterEvent}
    (hok : InTime limits s (.writer event)) : Flow (s.writerStep limits event) := by
  have hmove := writerStep_move limits s event
  generalize s.writerStep limits event = next at hmove
  cases hmove with
  | same => exact h
  | exit hwriter hstop hqueue hbatch =>
    have hpassed := h.passed_written (by rw [hwriter]; decide)
    exact ⟨h.accepted, by simp [hpassed], fun _ => ⟨hbatch, hqueue⟩, by simp⟩
  | again hwriter =>
    have hpassed := h.passed_written (by rw [hwriter]; decide)
    exact ⟨h.accepted, by simp [hpassed], by simp, by simp⟩
  | taken event rest hwriter hqueue =>
    have hpassed := h.passed_written (by rw [hwriter]; decide)
    refine ⟨?_, by simp [hpassed], by simp, by simp⟩
    dsimp only
    rw [h.accepted, hqueue]
    simp
  | timedOut hwriter =>
    have hpassed := h.passed_written (by rw [hwriter]; decide)
    exact ⟨h.accepted, by simp [hpassed], by simp, by simp⟩
  | flush due hwriter =>
    have hpassed := h.passed_written (by rw [hwriter]; decide)
    exact ⟨h.accepted, by simp [hpassed], by simp, by simp⟩
  | hold due hwriter =>
    have hpassed := h.passed_written (by rw [hwriter]; decide)
    exact ⟨h.accepted, by simp [hpassed], by simp, by simp⟩
  | wrote hwriter =>
    have hpassed := h.passed
    rw [hwriter, if_pos rfl] at hpassed
    refine ⟨?_, by simp [hpassed], by simp, by simp⟩
    dsimp only
    rw [h.accepted]
    simp
  | raised hwriter => exact absurd hwriter hok
  | flagged hwriter => exact absurd hwriter h.going.1
  | left hwriter => exact absurd hwriter h.going.2

variable {event : QueueEvent α}

/-- **Steps in time** lose nothing. -/
theorem Flow.step (h : Flow s) (hok : InTime limits s event) :
    Flow (s.step limits event) := by
  cases event with
  | main event => exact h.mainStep hok
  | writer event => exact h.writerStep hok
  | _ => exact ⟨h.accepted, h.passed, h.ended, h.going⟩

theorem flow_start : Flow ({} : EventQueue α) := ⟨rfl, rfl, by simp, by simp⟩

/-! ## Events that are lost -/

/-- A write has raised, or an event was put on the queue after the writer had ended. -/
inductive Lost (s : EventQueue α) : Prop where
  | raised (hpassed : s.written.length < s.passed.length)
      (hwriter : s.writer = .failing ∨ s.writer = .leaving ∨ s.writer = .ended)
  | late (haccepted : s.written.flatten.length < s.accepted.length) (hwriter : s.writer = .ended)

theorem Lost.not_delivered (h : Lost s) : ¬ Delivered s := by
  intro hdelivered
  cases h with
  | raised hpassed _ =>
    rw [hdelivered.returned] at hpassed
    omega
  | late haccepted _ =>
    rw [hdelivered.events] at haccepted
    omega

theorem lost_of_late (h : Flow s) (hlate : ¬ InTime limits s event) :
    Lost (s.step limits event) := by
  cases event with
  | writer event =>
    cases event with
    | raised =>
      have hwriter : s.writer = .writing := not_not.mp hlate
      have hpassed := h.passed
      rw [hwriter, if_pos rfl] at hpassed
      unfold EventQueue.step EventQueue.writerStep
      simp only [hwriter]
      refine .raised ?_ (.inl rfl)
      rw [hpassed, List.length_append, List.length_singleton]
      exact Nat.lt_succ_self _
    | _ => exact absurd trivial hlate
  | main event =>
    cases event with
    | message event =>
      simp only [InTime, ne_eq, not_forall, not_not] at hlate
      obtain ⟨hphase, hroom, hwriter⟩ := hlate
      unfold EventQueue.step EventQueue.mainStep
      simp only [hphase, if_pos hroom]
      refine .late ?_ hwriter
      rw [(h.delivered hwriter).events, List.length_append, List.length_singleton]
      exact Nat.lt_succ_self _
    | _ => exact absurd trivial hlate
  | _ => exact absurd trivial hlate

theorem Lost.step (h : Lost s) (event : QueueEvent α) : Lost (s.step limits event) := by
  cases event with
  | main event =>
    have hmove := mainStep_move limits s event
    show Lost (s.mainStep limits event)
    generalize s.mainStep limits event = next at hmove
    cases h with
    | raised hlt hw => cases hmove <;> exact .raised hlt hw
    | late hlt hw =>
      cases hmove with
      | put event _ _ =>
        refine .late ?_ hw
        rw [List.length_append]
        exact Nat.lt_of_lt_of_le hlt (Nat.le_add_right _ _)
      | _ => exact .late hlt hw
  | writer event =>
    have hmove := writerStep_move limits s event
    show Lost (s.writerStep limits event)
    generalize s.writerStep limits event = next at hmove
    cases h with
    | raised hlt hw =>
      cases hmove with
      | same => exact .raised hlt hw
      | flagged => exact .raised hlt (.inr (.inl rfl))
      | left => exact .raised hlt (.inr (.inr rfl))
      | _ => simp_all
    | late hlt hw =>
      cases hmove with
      | same => exact .late hlt hw
      | _ => simp_all
  | _ =>
    cases h with
    | raised hlt hw => exact .raised hlt hw
    | late hlt hw => exact .late hlt hw

theorem meets_of_delivered : ∀ {s : EventQueue α} (events : List (QueueEvent α)), Flow s →
    Delivered (run (step limits) s events) → Meets (step limits) (InTime limits) s events
  | _, [], _, _ => trivial
  | s, event :: events, h, hdelivered => by
    have hok : InTime limits s event := by
      by_contra hlate
      have hkeep : ∀ (s : EventQueue α) event, Lost s → Lost (step limits s event) :=
        fun _ event h => h.step event
      exact (run_invariant hkeep events (lost_of_late h hlate)).not_delivered hdelivered
    exact ⟨hok, meets_of_delivered events (h.step hok) hdelivered⟩

/-! ## Runs without timed-out joins -/

/-- `stop` has set the background flag. -/
def Stopped : RunPhase → Prop
  | .looping | .connected | .stopping => False
  | _ => True

/-- The joins of `stop` have returned. -/
def Joined : RunPhase → Prop
  | .looping | .connected | .stopping | .joining => False
  | _ => True

/-- Only `stop` lets the writer end, and it waits for it. -/
structure Awaited (s : EventQueue α) : Prop where
  stopped : s.backgroundStop = true → Stopped s.phase
  ended : s.writer = .ended → Stopped s.phase
  joined : Joined s.phase → s.writer = .ended

/-- A write has raised, which the main thread sees once the writer has ended. -/
inductive Seen (s : EventQueue α) : Prop where
  | failing (hwriter : s.writer = .failing) (hphase : ¬ Joined s.phase)
  | leaving (hwriter : s.writer = .leaving) (hphase : ¬ Joined s.phase)
      (hfailure : s.writerFailure = true)
  | ended (hwriter : s.writer = .ended) (hfailure : s.writerFailure = true)
      (hphase : s.phase ≠ .checkingTerminal ∧ s.phase ≠ .ended false)

variable {phase : RunPhase}

/-- A phase before `stop` goes on to one before `stop`. -/
theorem Awaited.early (h : Awaited s) (hphase : ¬ Stopped s.phase)
    (hnext : ¬ Joined phase) : Awaited { s with phase } :=
  ⟨fun hb => (hphase (h.stopped hb)).elim, fun hw => (hphase (h.ended hw)).elim,
    fun hj => (hnext hj).elim⟩

/-- A phase after the joins goes on to one after the joins. -/
theorem Awaited.late (hwriter : s.writer = .ended) (hstopped : Stopped phase) :
    Awaited { s with phase } := ⟨fun _ => hstopped, fun _ => hstopped, fun _ => hwriter⟩

theorem Awaited.mainStep (h : Awaited s) {event : MainEvent α}
    (hcalm : Undisturbed (.main event)) : Awaited (s.mainStep limits event) := by
  have hmove := mainStep_move limits s event
  generalize s.mainStep limits event = next at hmove
  cases hmove with
  | same => exact h
  | loop hphase =>
    refine h.early (by rw [hphase]; exact id) ?_
    split
    · exact id
    · exact id
  | put => exact ⟨h.stopped, h.ended, h.joined⟩
  | full => exact ⟨h.stopped, h.ended, h.joined⟩
  | returned raised hphase =>
    have hnext : ¬ Joined (if raised = true then .stopping else .looping) := by
      split
      · exact id
      · exact id
    obtain ⟨hstopped, hended, hjoined⟩ := h.early (by rw [hphase]; exact id) hnext
    exact ⟨hstopped, hended, hjoined⟩
  | stop => exact ⟨fun _ => trivial, fun _ => trivial, fun hj => hj.elim⟩
  | joined timedOut hdone =>
    have htimedOut : timedOut = false := hcalm
    refine Awaited.late (hdone.resolve_left (by rw [htimedOut]; decide)) ?_
    split <;> trivial
  | testedWriter hphase =>
    refine Awaited.late (h.joined (by rw [hphase]; trivial)) ?_
    split <;> trivial
  | testedTerminal hphase => exact Awaited.late (h.joined (by rw [hphase]; trivial)) trivial

theorem Awaited.writerStep (h : Awaited s) {event : WriterEvent}
    (hok : InTime limits s (.writer event)) (hgoing : s.writer ≠ .leaving) :
    Awaited (s.writerStep limits event) := by
  -- a writer that goes on has not been joined
  have hnot {writer : WriterPhase} (hw : s.writer = writer) (hne : writer ≠ .ended) :
      Joined s.phase → False := fun hj => hne (hw.symm.trans (h.joined hj))
  have hmove := writerStep_move limits s event
  generalize s.writerStep limits event = next at hmove
  cases hmove with
  | same => exact h
  | exit hwriter hstop _ _ =>
    exact ⟨h.stopped, fun _ => h.stopped hstop, fun hj => (hnot hwriter (by decide) hj).elim⟩
  | raised hwriter => exact absurd hwriter hok
  | left hwriter => exact absurd hwriter hgoing
  | again hwriter | taken _ _ hwriter _ | timedOut hwriter | flush _ hwriter | hold _ hwriter
  | wrote hwriter | flagged hwriter =>
    exact ⟨h.stopped, by simp, fun hj => (hnot hwriter (by decide) hj).elim⟩

/-- While the writer goes on, its join does not return. -/
theorem not_joined_mainStep (hphase : ¬ Joined s.phase) (hwriter : s.writer ≠ .ended)
    {event : MainEvent α} (hcalm : Undisturbed (.main event)) :
    ¬ Joined (s.mainStep limits event).phase := by
  have hmove := mainStep_move limits s event
  generalize s.mainStep limits event = next at hmove
  cases hmove with
  | loop =>
    dsimp only
    split
    · exact id
    · exact id
  | returned =>
    dsimp only
    split
    · exact id
    · exact id
  | stop => exact id
  | joined timedOut hdone =>
    have htimedOut : timedOut = false := hcalm
    exact absurd (hdone.resolve_left (by rw [htimedOut]; decide)) hwriter
  | testedWriter hp =>
    rw [hp] at hphase
    exact absurd trivial hphase
  | testedTerminal hp =>
    rw [hp] at hphase
    exact absurd trivial hphase
  | _ => exact hphase

/-- A failure flag that is set is seen. -/
theorem mainStep_checked (hfailure : s.writerFailure = true)
    (hphase : s.phase ≠ .checkingTerminal ∧ s.phase ≠ .ended false) (event : MainEvent α) :
    (s.mainStep limits event).phase ≠ .checkingTerminal ∧
      (s.mainStep limits event).phase ≠ .ended false := by
  have hmove := mainStep_move limits s event
  generalize s.mainStep limits event = next at hmove
  cases hmove with
  | testedWriter =>
    rw [hfailure]
    exact ⟨by simp, by simp⟩
  | testedTerminal hp => exact absurd hp hphase.1
  | stop => exact ⟨by simp, by simp⟩
  | loop | returned | joined =>
    dsimp only
    split
    · exact ⟨by simp, by simp⟩
    · exact ⟨by simp, by simp⟩
  | _ => exact hphase

variable (limits) in
theorem mainStep_frame (s : EventQueue α) (event : MainEvent α) :
    (s.mainStep limits event).writer = s.writer ∧
      (s.mainStep limits event).writerFailure = s.writerFailure := by
  have hmove := mainStep_move limits s event
  generalize s.mainStep limits event = next at hmove
  cases hmove <;> exact ⟨rfl, rfl⟩

theorem Seen.step (h : Seen s) (hcalm : Undisturbed event) :
    Seen (s.step limits event) := by
  cases event with
  | main event =>
    show Seen (s.mainStep limits event)
    obtain ⟨hwriter, hfailure⟩ := mainStep_frame limits s event
    cases h with
    | failing hw hphase =>
      exact .failing (hwriter.trans hw) (not_joined_mainStep hphase (by rw [hw]; decide) hcalm)
    | leaving hw hphase hf =>
      exact .leaving (hwriter.trans hw) (not_joined_mainStep hphase (by rw [hw]; decide) hcalm)
        (hfailure.trans hf)
    | ended hw hf hphase =>
      exact .ended (hwriter.trans hw) (hfailure.trans hf) (mainStep_checked hf hphase event)
  | writer event =>
    have hmove := writerStep_move limits s event
    show Seen (s.writerStep limits event)
    generalize s.writerStep limits event = next at hmove
    cases h with
    | failing hw hphase =>
      cases hmove with
      | same => exact .failing hw hphase
      | flagged => exact .leaving rfl hphase rfl
      | _ => simp_all
    | leaving hw hphase hf =>
      cases hmove with
      | same => exact .leaving hw hphase hf
      | left =>
        refine .ended rfl hf ⟨fun h => ?_, fun h => ?_⟩
        · exact hphase (by rw [show s.phase = .checkingTerminal from h]; trivial)
        · exact hphase (by rw [show s.phase = .ended false from h]; trivial)
      | _ => simp_all
    | ended hw hf hphase =>
      cases hmove with
      | same => exact .ended hw hf hphase
      | _ => simp_all
  | stopped => exact hcalm.elim
  | publicationFails =>
    cases h with
    | failing hw hphase => exact .failing hw hphase
    | leaving hw hphase _ => exact .leaving hw hphase rfl
    | ended hw _ hphase => exact .ended hw rfl hphase
  | _ =>
    cases h with
    | failing hw hphase => exact .failing hw hphase
    | leaving hw hphase hf => exact .leaving hw hphase hf
    | ended hw hf hphase => exact .ended hw hf hphase

/-- Either nothing is lost so far, or a failure is seen. -/
theorem undisturbed_step (hcalm : Undisturbed event)
    (h : (Flow s ∧ Awaited s) ∨ Seen s) :
    (Flow (s.step limits event) ∧ Awaited (s.step limits event)) ∨ Seen (s.step limits event) := by
  rcases h with ⟨hflow, hawaited⟩ | hseen
  · by_cases hok : InTime limits s event
    · left
      refine ⟨hflow.step hok, ?_⟩
      cases event with
      | main event => exact hawaited.mainStep hcalm
      | writer event => exact hawaited.writerStep hok hflow.going.2
      | stopped => exact hcalm.elim
      | _ => exact ⟨hawaited.stopped, hawaited.ended, hawaited.joined⟩
    · right
      cases event with
      | main event =>
        cases event with
        | message event =>
          -- the callbacks are over before the writer ends
          simp only [InTime, ne_eq, not_forall, not_not] at hok
          obtain ⟨hphase, -, hwriter⟩ := hok
          have hstopped := hawaited.ended hwriter
          rw [hphase] at hstopped
          exact hstopped.elim
        | _ => exact absurd trivial hok
      | writer event =>
        cases event with
        | raised =>
          have hwriter : s.writer = .writing := not_not.mp hok
          have hphase : ¬ Joined s.phase := fun hj => by
            cases hwriter.symm.trans (hawaited.joined hj)
          show Seen (s.writerStep limits .raised)
          unfold EventQueue.writerStep
          simp only [hwriter]
          exact .failing rfl hphase
        | _ => exact absurd trivial hok
      | _ => exact absurd trivial hok
  · exact .inr (hseen.step hcalm)

end

end EventQueue

open EventQueue

/-- **Shutdown.** If `run_forever` has returned normally and the writer thread has ended, all that
was put on the queue has been written, once and in order, exactly if no write raised and no event
was put after the writer had ended. So it has if no join is timed out and only `run_forever` calls
`stop`. -/
theorem written_iff {α : Type} (limits : QueueLimits) {events : List (QueueEvent α)}
    (hreturned : (run (EventQueue.step limits) {} events).phase = .ended false)
    (hwriter : (run (EventQueue.step limits) {} events).writer = .ended) :
    (Delivered (run (EventQueue.step limits) {} events) ↔
      Meets (EventQueue.step limits) (InTime limits) {} events) ∧
    (Meets (EventQueue.step limits) (fun _ event => Undisturbed event) {} events →
      Delivered (run (EventQueue.step limits) {} events)) := by
  refine ⟨⟨meets_of_delivered events flow_start, fun hok => ?_⟩, fun hcalm => ?_⟩
  · have hflow := hok.invariant (I := Flow) (fun s event h hs => hs.step h) events flow_start
    exact hflow.delivered hwriter
  · have hstart : Awaited ({} : EventQueue α) := ⟨by simp, by simp, fun h => h.elim⟩
    have hend := hcalm.invariant (I := fun s => (Flow s ∧ Awaited s) ∨ Seen s)
      (fun s event h hs => undisturbed_step h hs) events (.inl ⟨flow_start, hstart⟩)
    rcases hend with ⟨hflow, -⟩ | hseen
    · exact hflow.delivered hwriter
    · cases hseen with
      | failing hw _ => cases hwriter.symm.trans hw
      | leaving hw _ _ => cases hwriter.symm.trans hw
      | ended _ _ hphase => exact absurd hreturned hphase.2

/-- One event, which the writer takes and passes to `write` before the collector is stopped. -/
def oneEventRun : List (QueueEvent ℕ) :=
  [.main .loop, .main (.message 7), .writer .condition, .writer .get, .writer (.decide true)]

/-- The main thread from a stop signal on. -/
def stopRun (timedOut : Bool) : List (QueueEvent ℕ) :=
  [.main (.joined timedOut), .main .testWriterFailure, .main .testTerminalFailure]

def signalled : List (QueueEvent ℕ) :=
  [.shutdown, .main (.returned false), .main .loop, .main .setBackgroundStop]

def sampleLimits : QueueLimits := ⟨10, 10⟩

theorem written_iff_oneEvent :
    (Delivered (run (EventQueue.step sampleLimits) {} (oneEventRun ++ signalled ++
        [.writer .wrote, .writer .condition] ++ stopRun false)) ↔
      Meets (EventQueue.step sampleLimits) (InTime sampleLimits) {} (oneEventRun ++ signalled ++
        [.writer .wrote, .writer .condition] ++ stopRun false)) ∧
    (Meets (EventQueue.step sampleLimits) (fun _ event => Undisturbed event) {}
        (oneEventRun ++ signalled ++ [.writer .wrote, .writer .condition] ++ stopRun false) →
      Delivered (run (EventQueue.step sampleLimits) {} (oneEventRun ++ signalled ++
        [.writer .wrote, .writer .condition] ++ stopRun false))) :=
  written_iff sampleLimits (by decide) (by decide)

/-- A write that outlasts its join and then raises: `run_forever` has returned normally. -/
theorem late_write_lost : ¬ ∀ (limits : QueueLimits) (events : List (QueueEvent ℕ)),
    (run (EventQueue.step limits) {} events).phase = .ended false →
    (run (EventQueue.step limits) {} events).writer = .ended →
    Delivered (run (EventQueue.step limits) {} events) := by
  intro hclaim
  have hdelivered := hclaim sampleLimits (oneEventRun ++ signalled ++ stopRun true ++
    [.writer .raised, .writer .setWriterFailure, .writer .leave]) (by decide) (by decide)
  exact absurd hdelivered.events (by decide)

end Greenfield.Data
