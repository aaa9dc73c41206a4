import Mathlib.Data.List.Basic
import HttpSocksProxy.Foundation.Transition
import HttpSocksProxy.Server.Exceptions

/-! `tcp_forward`: two `forwarder_loop` tasks and the handler that waits for
them, in every interleaving. Each task runs without a break between two awaits.
`gatherEager` tells the interpreters apart: up to CPython 3.11 `gather` suspends
once even when all its tasks have finished, from 3.12 on it does not. -/
namespace HttpSocksProxy.Relay
open Transition

/-- The await a `forwarder_loop` task is suspended in, or how it ended. -/
inductive Loop where
  | reading
  | draining
  | drainingEof
  | returned
  | raised (e : Exn)
  | cancelled
  deriving DecidableEq, Repr

namespace Loop

def done : Loop → Bool
  | returned | raised _ | cancelled => true
  | reading | draining | drainingEof => false

def failure : Loop → Option Exn
  | raised e => some e
  | _ => none

end Loop

/-- One direction: what its source sent, what its destination was handed. -/
structure Direction where
  received : List UInt8
  buffer : List UInt8
  sourceEof : Bool
  written : List UInt8
  counted : Nat
  eofWritten : Bool
  loop : Loop
  cancelRequested : Bool
  deriving DecidableEq, Repr

/-- `can_write_eof` and `write_eof` on the destination. -/
inductive WriteEof where
  | unsupported
  | wrote
  | raises (e : Exn)
  deriving DecidableEq, Repr

inductive Signal where
  | receive (bytes : List UInt8)
  | receiveEof
  | forward (n : Nat)
  | writeFails (n : Nat) (e : Exn)
  | readFails (e : Exn)
  | readEof (outcome : WriteEof)
  | drained (raised : Option Exn)
  | cancelled
  deriving DecidableEq, Repr

/-- `except (AttributeError, ConnectionError, OSError)` around `write_eof`. -/
def eofErrorCaught (e : Exn) : Bool := e.isOSError || e = .attributeError

namespace Direction

def init : Direction := ⟨[], [], false, [], 0, false, .reading, false⟩

/-- The task is suspended in this await and the await may complete. -/
def resumes (d : Direction) (await : Loop) : Bool := d.loop = await && !d.cancelRequested

/-- `buf = await reader.read(65536)` may return these many bytes. -/
def readable (d : Direction) (n : Nat) : Bool :=
  d.resumes .reading && 0 < n && n ≤ 65536 && n ≤ d.buffer.length

/-- `stat_fn(len(buf))`, which comes before the write. -/
def take (d : Direction) (n : Nat) : Direction :=
  { d with buffer := d.buffer.drop n, counted := d.counted + n }

def endEof (d : Direction) (e : Exn) : Direction :=
  { d with loop := if eofErrorCaught e then .returned else .raised e }

def step (d : Direction) : Signal → Option Direction
  | .receive bytes =>
    if d.sourceEof then none
    else some { d with received := d.received ++ bytes, buffer := d.buffer ++ bytes }
  | .receiveEof => some { d with sourceEof := true }
  | .forward n =>
    if d.readable n then
      some { d.take n with written := d.written ++ d.buffer.take n, loop := .draining }
    else none
  | .writeFails n e =>
    if d.readable n && e ≠ .cancelledError then some { d.take n with loop := .raised e }
    else none
  | .readFails e =>
    if d.resumes .reading && e ≠ .cancelledError then some { d with loop := .raised e } else none
  | .readEof outcome =>
    if d.resumes .reading && d.sourceEof && d.buffer.isEmpty then
      match outcome with
      | .unsupported => some { d with loop := .returned }
      | .wrote => some { d with eofWritten := true, loop := .drainingEof }
      | .raises e => if e = .cancelledError then none else some (d.endEof e)
    else none
  | .drained none =>
    if d.resumes .draining then some { d with loop := .reading }
    else if d.resumes .drainingEof then some { d with loop := .returned }
    else none
  | .drained (some e) =>
    if e = .cancelledError then none
    else if d.resumes .draining then some { d with loop := .raised e }
    else if d.resumes .drainingEof then some (d.endEof e)
    else none
  | .cancelled =>
    if d.cancelRequested && !d.loop.done then some { d with loop := .cancelled } else none

/-- `task.cancel()` unless the task is done. -/
def cancel (d : Direction) : Direction :=
  if d.loop.done then d else { d with cancelRequested := true }

end Direction

inductive Side where
  | inbound
  | outbound
  deriving DecidableEq, Repr

def Side.other : Side → Side
  | inbound => outbound
  | outbound => inbound

/-- The await `tcp_forward` is suspended in; `left` is how it left the `try`. -/
inductive Handler where
  | waiting
  | gatheringPending (failure : Exn)
  | gatheringRelays
  | gatheringFinally (left : Option Exn)
  | closingUpstream (left : Option Exn)
  | closingClient (left : Option Exn)
  | exited (left : Option Exn)
  deriving DecidableEq, Repr

/-- At most one `cancel()` of the handler task. -/
inductive Cancellation where
  | absent
  | requested
  | delivered
  deriving DecidableEq, Repr

structure State where
  relay : Side → Direction
  handler : Handler
  cancellation : Cancellation
  upstreamClosed : Bool
  clientClosed : Bool

inductive Event where
  | relay (side : Side) (signal : Signal)
  | resume (first : Side)
  | waitClosed (raised : Option Exn)
  | cancel
  deriving DecidableEq, Repr

def init : State := ⟨fun _ => .init, .waiting, .absent, false, false⟩

namespace State

def allDone (s : State) : Bool :=
  (s.relay .inbound).loop.done && (s.relay .outbound).loop.done

def cancelRelays (s : State) : State := { s with relay := fun side => (s.relay side).cancel }

def deliver (s : State) : State := { s with cancellation := .delivered }

/-- The first failure among the finished tasks; a set has no order of its own. -/
def failure (s : State) (first : Side) : Option Exn :=
  (s.relay first).loop.failure.or (s.relay first.other).loop.failure

def closeUpstream (s : State) (left : Option Exn) : State :=
  { s with upstreamClosed := true, handler := .closingUpstream left }

def closeClient (s : State) (left : Option Exn) : State :=
  { s with clientClosed := true, handler := .closingClient left }

attribute [simp] deliver closeUpstream closeClient

/-- The `finally` block up to its first suspension. -/
def enterFinally (gatherEager : Bool) (s : State) (left : Option Exn) : State :=
  if gatherEager && s.allDone then s.cancelRelays.closeUpstream left
  else { s.cancelRelays with handler := .gatheringFinally left }

/-- The `try` block after `asyncio.wait` has returned. -/
def afterWait (gatherEager : Bool) (s : State) (first : Side) : State :=
  match s.failure first with
  | some e =>
    -- `gather()` of no pending task does not suspend on any interpreter
    if s.allDone then s.enterFinally gatherEager (some e)
    else { s.cancelRelays with handler := .gatheringPending e }
  | none =>
    if gatherEager then s.enterFinally gatherEager none
    else { s with handler := .gatheringRelays }

end State

/-- The handler task runs: a requested cancellation is raised at the await. -/
def resume (gatherEager : Bool) (s : State) (first : Side) : Option State :=
  match s.handler, s.cancellation with
  | .waiting, .requested => some (s.deliver.enterFinally gatherEager (some .cancelledError))
  | .waiting, _ =>
    if (s.failure first).isSome || s.allDone then some (s.afterWait gatherEager first) else none
  | .gatheringPending _, .requested | .gatheringRelays, .requested =>
    if s.allDone then some (s.deliver.enterFinally gatherEager (some .cancelledError)) else none
  | .gatheringPending e, _ =>
    if s.allDone then some (s.enterFinally gatherEager (some e)) else none
  | .gatheringRelays, _ => if s.allDone then some (s.enterFinally gatherEager none) else none
  | .gatheringFinally _, .requested =>
    -- the exception leaves the `finally` block before the writers are closed
    if s.allDone then some { s.deliver with handler := .exited (some .cancelledError) } else none
  | .gatheringFinally left, _ => if s.allDone then some (s.closeUpstream left) else none
  | _, _ => none

/-- `wait_closed` ends; a transport is lost with an `OSError` if at all, and
that or a cancellation is caught. -/
def waitClosed (s : State) (raised : Option Exn) : Option State :=
  if raised.all Exn.isOSError then
    let s' := if s.cancellation = .requested then s.deliver else s
    match s.handler with
    | .closingUpstream left => some (s'.closeClient left)
    | .closingClient left => some { s' with handler := .exited left }
    | _ => none
  else none

def step (gatherEager : Bool) (s : State) : Event → Option State
  | .relay side signal =>
    ((s.relay side).step signal).map fun d => { s with relay := Function.update s.relay side d }
  | .resume first => resume gatherEager s first
  | .waitClosed raised => waitClosed s raised
  | .cancel =>
    match s.handler, s.cancellation with
    | .exited _, _ => none
    | _, .absent => some { s with cancellation := .requested }
    | _, _ => none

/-- What a direction has handed over, against what it was sent. -/
structure Direction.Faithful (d : Direction) : Prop where
  conserved : d.loop.failure = none → d.received = d.written ++ d.buffer
  inOrder : d.written <+: d.received
  eofLast : d.eofWritten → d.sourceEof ∧ d.written = d.received
  ended : d.loop = .returned ∨ d.loop = .drainingEof → d.sourceEof ∧ d.written = d.received

namespace Direction
variable {d d' : Direction}

theorem faithful_init : init.Faithful := by
  constructor <;> simp [init]

theorem resumes_iff : d.resumes await = true ↔ d.loop = await ∧ d.cancelRequested = false := by
  simp [resumes]

theorem readable_iff : d.readable n = true ↔
    d.resumes .reading ∧ 0 < n ∧ n ≤ 65536 ∧ n ≤ d.buffer.length := by
  simp [readable, and_assoc]

theorem faithful_receive (faithful : Faithful d) (open_ : d.sourceEof = false) :
    Faithful { d with received := d.received ++ bytes, buffer := d.buffer ++ bytes } := by
  constructor
  · intro live
    rw [faithful.conserved live, List.append_assoc]
  · exact faithful.inOrder.trans (List.prefix_append _ _)
  · intro sent
    simp [(faithful.eofLast sent).1] at open_
  · intro ended
    simp [(faithful.ended ended).1] at open_

theorem faithful_forward (faithful : Faithful d) (reading : d.loop = .reading) :
    Faithful { d.take n with written := d.written ++ d.buffer.take n, loop := .draining } := by
  have conserved := faithful.conserved (by rw [reading]; rfl)
  have same : d.received = (d.written ++ d.buffer.take n) ++ d.buffer.drop n := by
    rw [List.append_assoc, List.take_append_drop, conserved]
  refine ⟨fun _ => same, ⟨_, same.symm⟩, fun sent => ?_, by simp⟩
  obtain ⟨eof, all⟩ := faithful.eofLast sent
  have drained : d.buffer = [] := by simpa [all] using conserved
  exact ⟨eof, by simp [drained, take, all]⟩

theorem faithful_fails (faithful : Faithful d) : Faithful { d.take n with loop := .raised e } :=
  ⟨by simp [Loop.failure], faithful.inOrder, faithful.eofLast, by simp⟩

/-- The loop may move on without touching the data, unless it claims to have
ended by EOF. -/
theorem faithful_loop {next : Loop} (faithful : Faithful d) (live : d.loop.failure = none)
    (ended : next = .returned ∨ next = .drainingEof → d.sourceEof ∧ d.written = d.received) :
    Faithful { d with loop := next } :=
  ⟨fun _ => faithful.conserved live, faithful.inOrder, faithful.eofLast, ended⟩

theorem faithful_eof {next : Loop} (faithful : Faithful d) (live : d.loop.failure = none)
    (eof : d.sourceEof ∧ d.written = d.received) : Faithful { d with loop := next } :=
  faithful_loop faithful live fun _ => eof

theorem faithful_cancel (faithful : Faithful d) : d.cancel.Faithful := by
  simp only [cancel]
  split
  · exact faithful
  · exact ⟨faithful.conserved, faithful.inOrder, faithful.eofLast, faithful.ended⟩

/-- Everything one signal can do. -/
inductive Turns (d : Direction) : Signal → Direction → Prop where
  | received : d.sourceEof = false →
      Turns d (.receive bytes) { d with received := d.received ++ bytes, buffer := d.buffer ++ bytes }
  | sourceEnded : Turns d .receiveEof { d with sourceEof := true }
  | forwarded : d.readable n → Turns d (.forward n)
      { d.take n with written := d.written ++ d.buffer.take n, loop := .draining }
  | unwritten : d.readable n → e ≠ .cancelledError →
      Turns d (.writeFails n e) { d.take n with loop := .raised e }
  | unread : d.resumes .reading → e ≠ .cancelledError →
      Turns d (.readFails e) { d with loop := .raised e }
  | ended : d.resumes .reading → d.sourceEof → d.buffer = [] →
      Turns d (.readEof .unsupported) { d with loop := .returned }
  | eofWritten : d.resumes .reading → d.sourceEof → d.buffer = [] →
      Turns d (.readEof .wrote) { d with eofWritten := true, loop := .drainingEof }
  | eofFails : d.resumes .reading → d.sourceEof → d.buffer = [] → e ≠ .cancelledError →
      Turns d (.readEof (.raises e)) (d.endEof e)
  | drained : d.resumes .draining → Turns d (.drained none) { d with loop := .reading }
  | drainFails : d.resumes .draining → e ≠ .cancelledError →
      Turns d (.drained (some e)) { d with loop := .raised e }
  | eofDrained : d.resumes .drainingEof → Turns d (.drained none) { d with loop := .returned }
  | eofDrainFails : d.resumes .drainingEof → e ≠ .cancelledError →
      Turns d (.drained (some e)) (d.endEof e)
  | cancelled : d.cancelRequested → d.loop.done = false →
      Turns d .cancelled { d with loop := .cancelled }

theorem step_turns (stepped : d.step signal = some d') : Turns d signal d' := by
  cases signal with
  | receive bytes =>
    simp only [step, Option.ite_none_left_eq_some, Option.some.injEq] at stepped
    obtain ⟨open_, rfl⟩ := stepped
    exact .received (by simpa using open_)
  | receiveEof =>
    cases Option.some.inj stepped
    exact .sourceEnded
  | forward n =>
    simp only [step, Option.ite_none_right_eq_some, Option.some.injEq] at stepped
    obtain ⟨readable, rfl⟩ := stepped
    exact .forwarded readable
  | writeFails n e =>
    simp only [step, Option.ite_none_right_eq_some, Option.some.injEq, Bool.and_eq_true,
      decide_eq_true_eq] at stepped
    obtain ⟨⟨readable, plain⟩, rfl⟩ := stepped
    exact .unwritten readable plain
  | readFails e =>
    simp only [step, Option.ite_none_right_eq_some, Option.some.injEq, Bool.and_eq_true,
      decide_eq_true_eq] at stepped
    obtain ⟨⟨reading, plain⟩, rfl⟩ := stepped
    exact .unread reading plain
  | readEof outcome =>
    simp only [step, Option.ite_none_right_eq_some, Bool.and_eq_true, List.isEmpty_iff] at stepped
    obtain ⟨⟨⟨reading, eof⟩, empty⟩, stepped⟩ := stepped
    cases outcome with
    | unsupported =>
      cases Option.some.inj stepped
      exact .ended reading eof empty
    | wrote =>
      cases Option.some.inj stepped
      exact .eofWritten reading eof empty
    | raises e =>
      simp only [Option.ite_none_left_eq_some, Option.some.injEq] at stepped
      obtain ⟨plain, rfl⟩ := stepped
      exact .eofFails reading eof empty plain
  | drained raised =>
    cases raised with
    | none =>
      simp only [step] at stepped
      split at stepped
      case isTrue draining =>
        cases Option.some.inj stepped
        exact .drained draining
      case isFalse =>
        simp only [Option.ite_none_right_eq_some, Option.some.injEq] at stepped
        obtain ⟨draining, rfl⟩ := stepped
        exact .eofDrained draining
    | some e =>
      simp only [step, Option.ite_none_left_eq_some] at stepped
      obtain ⟨plain, stepped⟩ := stepped
      split at stepped
      case isTrue draining =>
        cases Option.some.inj stepped
        exact .drainFails draining plain
      case isFalse =>
        simp only [Option.ite_none_right_eq_some, Option.some.injEq] at stepped
        obtain ⟨draining, rfl⟩ := stepped
        exact .eofDrainFails draining plain
  | cancelled =>
    simp only [step, Option.ite_none_right_eq_some, Option.some.injEq, Bool.and_eq_true,
      Bool.not_eq_true'] at stepped
    obtain ⟨⟨requested, unfinished⟩, rfl⟩ := stepped
    exact .cancelled requested unfinished

theorem readable_resumes (readable : d.readable n = true) : d.resumes .reading := (readable_iff.mp readable).1

/-- A task that resumes at an await has not failed. -/
theorem resumes_live (resumed : d.resumes await = true) (unfinished : await.failure = none) :
    d.loop.failure = none := by
  rw [(resumes_iff.mp resumed).1, unfinished]

theorem faithful_step (faithful : Faithful d) (stepped : d.step signal = some d') :
    Faithful d' := by
  -- the end of the source has been read: everything was written
  have all (reading : d.resumes .reading) (eof : d.sourceEof) (empty : d.buffer = []) :
      d.sourceEof ∧ d.written = d.received :=
    ⟨eof, by simp [faithful.conserved (resumes_live reading rfl), empty]⟩
  have drained (draining : d.resumes .drainingEof) : d.sourceEof ∧ d.written = d.received :=
    faithful.ended (.inr (resumes_iff.mp draining).1)
  cases step_turns stepped with
  | received open_ => exact faithful_receive faithful open_
  | sourceEnded =>
    exact ⟨faithful.conserved, faithful.inOrder, fun sent => ⟨rfl, (faithful.eofLast sent).2⟩,
      fun ended => ⟨rfl, (faithful.ended ended).2⟩⟩
  | forwarded readable =>
    exact faithful_forward faithful (resumes_iff.mp (readable_resumes readable)).1
  | unwritten => exact faithful_fails faithful
  | @unread e => simpa [take] using faithful_fails (n := 0) (e := e) faithful
  | ended reading eof empty | eofFails reading eof empty =>
    exact faithful_eof faithful (resumes_live reading rfl) (all reading eof empty)
  | eofWritten reading eof empty =>
    have written := all reading eof empty
    exact ⟨fun _ => faithful.conserved (resumes_live reading rfl), faithful.inOrder,
      fun _ => written, fun _ => written⟩
  | drained draining | drainFails draining =>
    exact faithful_loop faithful (resumes_live draining rfl) (by simp)
  | eofDrained draining | eofDrainFails draining =>
    exact faithful_eof faithful (resumes_live draining rfl) (drained draining)
  | cancelled _ unfinished =>
    refine faithful_loop faithful ?_ (by simp)
    cases loop : d.loop <;> simp_all [Loop.done, Loop.failure]

theorem step_done (stepped : d.step signal = some d') (done : d.loop.done) : d'.loop = d.loop := by
  have stuck {await : Loop} (resumed : d.resumes await) (unfinished : await.done = false) : False := by
    rw [(resumes_iff.mp resumed).1, unfinished] at done
    contradiction
  cases step_turns stepped with
  | received | sourceEnded => rfl
  | forwarded readable | unwritten readable => exact (stuck (readable_resumes readable) rfl).elim
  | unread resumed | ended resumed | eofWritten resumed | eofFails resumed | drained resumed
  | drainFails resumed | eofDrained resumed | eofDrainFails resumed => exact (stuck resumed rfl).elim
  | cancelled _ unfinished => simp [unfinished] at done

theorem step_cancelRequested (stepped : d.step signal = some d') :
    d'.cancelRequested = d.cancelRequested ∧
      (d'.loop = .cancelled → d.loop = .cancelled ∨ d.cancelRequested) := by
  have ended {e : Exn} : (d.endEof e).loop ≠ .cancelled := by
    simp only [endEof]
    split <;> simp
  cases step_turns stepped with
  | received | sourceEnded => exact ⟨rfl, .inl⟩
  | cancelled requested => exact ⟨rfl, fun _ => .inr requested⟩
  | eofFails | eofDrainFails => exact ⟨rfl, fun same => absurd same ended⟩
  | _ => exact ⟨rfl, nofun⟩

end Direction

namespace Handler

/-- Suspended inside the `try` block. -/
def inTry : Handler → Bool
  | waiting | gatheringPending _ | gatheringRelays => true
  | gatheringFinally _ | closingUpstream _ | closingClient _ | exited _ => false

/-- Suspended before the first `close`. -/
def beforeClose : Handler → Bool
  | gatheringFinally _ => true
  | h => h.inTry

def hasExited : Handler → Bool
  | exited _ => true
  | _ => false

attribute [simp] inTry beforeClose hasExited

end Handler

/-- Both directions ended by EOF, or one failed, or the handler was cancelled. -/
def State.Released (s : State) : Prop :=
  (∀ side, (s.relay side).loop = .returned) ∨ (∃ side e, (s.relay side).loop = .raised e) ∨
    s.cancellation ≠ .absent

/-- Everything one event can do. -/
inductive Moves (gatherEager : Bool) (s : State) : Event → State → Prop where
  | relayed : (s.relay side).step signal = some d →
      Moves gatherEager s (.relay side signal) { s with relay := Function.update s.relay side d }
  | requested : s.handler.hasExited = false → s.cancellation = .absent →
      Moves gatherEager s .cancel { s with cancellation := .requested }
  | cancelledTry : s.handler.inTry → s.cancellation = .requested →
      Moves gatherEager s (.resume first)
        (s.deliver.enterFinally gatherEager (some .cancelledError))
  | gathersPending : s.handler = .waiting → s.failure first = some e →
      Moves gatherEager s (.resume first) { s.cancelRelays with handler := .gatheringPending e }
  | gathersRelays : s.handler = .waiting → s.failure first = none → s.allDone →
      Moves gatherEager s (.resume first) { s with handler := .gatheringRelays }
  | leavesWait : s.handler = .waiting → s.cancellation ≠ .requested → s.allDone →
      Moves gatherEager s (.resume first) (s.enterFinally gatherEager left)
  | leavesTry : s.handler.inTry → s.handler ≠ .waiting → s.cancellation ≠ .requested →
      s.allDone → Moves gatherEager s (.resume first) (s.enterFinally gatherEager left)
  | closes : s.handler = .gatheringFinally left → s.cancellation ≠ .requested → s.allDone →
      Moves gatherEager s (.resume first) (s.closeUpstream left)
  | interrupted : s.handler = .gatheringFinally left → s.cancellation = .requested → s.allDone →
      Moves gatherEager s (.resume first)
        { s.deliver with handler := .exited (some .cancelledError) }
  | upstreamGone : s.handler = .closingUpstream left → s' = s ∨ s' = s.deliver →
      Moves gatherEager s (.waitClosed raised) (s'.closeClient left)
  | clientGone : s.handler = .closingClient left → s' = s ∨ s' = s.deliver →
      Moves gatherEager s (.waitClosed raised) { s' with handler := .exited left }

variable {s s' t : State} {d : Direction}

theorem resume_moves (resumed : resume gatherEager s first = some t) :
    Moves gatherEager s (.resume first) t := by
  simp only [resume] at resumed
  split at resumed
  case h_1 waiting requested =>
    cases Option.some.inj resumed
    exact .cancelledTry (by simp [waiting, Handler.inTry]) requested
  case h_2 waiting notRequested =>
    simp only [Option.ite_none_right_eq_some, Option.some.injEq, Bool.or_eq_true] at resumed
    obtain ⟨ready, rfl⟩ := resumed
    simp only [State.afterWait]
    split
    case h_1 e failed =>
      split
      case isTrue done => exact .leavesWait waiting (notRequested ·) done
      case isFalse => exact .gathersPending waiting failed
    case h_2 clean =>
      have done : s.allDone := by simpa [clean] using ready
      split
      · exact .leavesWait waiting (notRequested ·) done
      · exact .gathersRelays waiting clean done
  case h_9 => contradiction
  all_goals
    simp only [Option.ite_none_right_eq_some, Option.some.injEq] at resumed
    obtain ⟨done, rfl⟩ := resumed
  case h_3 gathering requested | h_4 gathering requested =>
    exact .cancelledTry (by simp [gathering, Handler.inTry]) requested
  case h_5 gathering notRequested | h_6 gathering notRequested =>
    exact .leavesTry (by simp [gathering, Handler.inTry]) (by simp [gathering])
      (notRequested ·) done
  case h_7 gathering requested => exact .interrupted gathering requested done
  case h_8 gathering notRequested => exact .closes gathering (notRequested ·) done

theorem step_moves (stepped : step gatherEager s event = some t) : Moves gatherEager s event t := by
  cases event with
  | relay side signal =>
    obtain ⟨d, moved, rfl⟩ := Option.map_eq_some_iff.mp stepped
    exact .relayed moved
  | resume first => exact resume_moves stepped
  | waitClosed raised =>
    simp only [step, waitClosed, Option.ite_none_right_eq_some] at stepped
    obtain ⟨_, stepped⟩ := stepped
    have delivered : ∀ s' : State, s' = (if s.cancellation = .requested then s.deliver else s) →
        s' = s ∨ s' = s.deliver := by
      rintro _ rfl
      split <;> simp
    split at stepped
    case h_1 closing =>
      cases Option.some.inj stepped
      exact .upstreamGone closing (delivered _ rfl)
    case h_2 closing =>
      cases Option.some.inj stepped
      exact .clientGone closing (delivered _ rfl)
    case h_3 => contradiction
  | cancel =>
    simp only [step] at stepped
    split at stepped
    case h_2 absent inside =>
      cases Option.some.inj stepped
      refine .requested ?_ absent
      cases h : s.handler <;> simp_all [Handler.hasExited]
    all_goals contradiction

theorem enterFinally_relay (gatherEager : Bool) (s : State) (left : Option Exn) :
    (s.enterFinally gatherEager left).relay = s.cancelRelays.relay := by
  simp only [State.enterFinally]
  split <;> rfl

/-- A direction takes its own step, is cancelled or stays as it is. -/
theorem moves_direction (moved : Moves gatherEager s event t) (side : Side) :
    (∃ signal, event = .relay side signal ∧ (s.relay side).step signal = some (t.relay side)) ∨
      t.relay side = s.relay side ∨ t.relay side = (s.relay side).cancel := by
  cases moved with
  | @relayed moving signal d stepped =>
    by_cases same : side = moving
    · subst same
      exact .inl ⟨signal, rfl, by simpa using stepped⟩
    · exact .inr (.inl (Function.update_of_ne same _ _))
  | cancelledTry | leavesWait | leavesTry =>
    rw [enterFinally_relay]
    exact .inr (.inr rfl)
  | gathersPending => exact .inr (.inr rfl)
  | upstreamGone _ choice | clientGone _ choice =>
    rcases choice with rfl | rfl <;> exact .inr (.inl rfl)
  | requested | gathersRelays | closes | interrupted => exact .inr (.inl rfl)

theorem allDone_iff : s.allDone = true ↔ ∀ side, (s.relay side).loop.done = true := by
  rw [State.allDone, Bool.and_eq_true]
  exact ⟨fun done side => by cases side <;> simp [done], fun done => ⟨done _, done _⟩⟩

theorem failure_raised (failed : s.failure first = some e) :
    ∃ side, (s.relay side).loop = .raised e := by
  have raised : ∀ loop : Loop, loop.failure = some e → loop = .raised e := by
    intro loop failed
    cases loop <;> simp_all [Loop.failure]
  rcases Option.or_eq_some_iff.mp failed with here | ⟨_, there⟩
  · exact ⟨_, raised _ here⟩
  · exact ⟨_, raised _ there⟩

theorem not_raised (clean : s.failure first = none) (side : Side) :
    (s.relay side).loop.failure = none := by
  obtain ⟨here, there⟩ := Option.or_eq_none_iff.mp clean
  cases first <;> cases side <;> assumption

/-- What every reachable state satisfies, by the await the handler is in. -/
structure Inv (s : State) : Prop where
  faithful : ∀ side, (s.relay side).Faithful
  fresh : s.handler = .waiting → ∀ side, (s.relay side).cancelRequested = false ∧
    (s.relay side).loop ≠ .cancelled
  released : s.handler ≠ .waiting → s.Released
  unclosed : s.handler.beforeClose → s.upstreamClosed = false ∧ s.clientClosed = false
  done : s.handler.beforeClose = false → s.allDone
  closing : ∀ left, s.handler = .closingUpstream left ∨ s.handler = .closingClient left →
    s.upstreamClosed
  closingBoth : ∀ left, s.handler = .closingClient left → s.clientClosed
  exited : s.handler.hasExited → s.upstreamClosed = s.clientClosed

theorem inv_init : Inv init := by
  constructor <;> simp [init, Direction.faithful_init]
  all_goals simp [Direction.init]

theorem relayed_done (stepped : (s.relay side).step signal = some d) (other : Side)
    (done : (s.relay other).loop.done) :
    (Function.update s.relay side d other).loop = (s.relay other).loop := by
  by_cases same : other = side
  · subst same
    simpa using Direction.step_done stepped done
  · simp [same]

theorem inv_relayed (inv : Inv s) (stepped : (s.relay side).step signal = some d) :
    Inv { s with relay := Function.update s.relay side d } := by
  have frame := relayed_done stepped
  constructor
  case faithful =>
    rw [Function.forall_update_iff s.relay fun _ d => d.Faithful]
    exact ⟨Direction.faithful_step (inv.faithful side) stepped, fun other _ => inv.faithful other⟩
  case fresh =>
    intro waiting
    rw [Function.forall_update_iff s.relay fun _ d => d.cancelRequested = false ∧ d.loop ≠ .cancelled]
    obtain ⟨unrequested, uncancelled⟩ := inv.fresh waiting side
    obtain ⟨same, cancelled⟩ := Direction.step_cancelRequested stepped
    refine ⟨⟨same.trans unrequested, fun now => ?_⟩, fun other _ => inv.fresh waiting other⟩
    rcases cancelled now with before | requested
    · exact uncancelled before
    · simp [unrequested] at requested
  case released =>
    intro inside
    rcases inv.released inside with eof | ⟨failed, e, raised⟩ | cancelled
    · exact .inl fun other => (frame other (by rw [eof]; rfl)).trans (eof other)
    · exact .inr (.inl ⟨failed, e, (frame failed (by rw [raised]; rfl)).trans raised⟩)
    · exact .inr (.inr cancelled)
  case unclosed => exact inv.unclosed
  case done =>
    intro closed
    have done := allDone_iff.mp (inv.done closed)
    apply allDone_iff.mpr
    intro other
    rw [frame other (done other)]
    exact done other
  case closing => exact inv.closing
  case closingBoth => exact inv.closingBoth
  case exited => exact inv.exited

theorem cancelRelays_loop (s : State) (side : Side) :
    (s.cancelRelays.relay side).loop = (s.relay side).loop := by
  simp only [State.cancelRelays, Direction.cancel]
  split <;> rfl

theorem cancelRelays_allDone (s : State) : s.cancelRelays.allDone = s.allDone := by
  simp only [State.allDone, cancelRelays_loop]

theorem cancelRelays_faithful (faithful : ∀ side, (s.relay side).Faithful) (side : Side) :
    (s.cancelRelays.relay side).Faithful :=
  Direction.faithful_cancel (faithful side)

theorem cancelRelays_released (released : s.Released) : s.cancelRelays.Released := by
  simpa only [State.Released, cancelRelays_loop]

theorem inv_gathering {h : Handler} (inside : h.beforeClose) (left : h ≠ .waiting)
    (faithful : ∀ side, (s.relay side).Faithful) (released : s.Released)
    (unclosed : s.upstreamClosed = false ∧ s.clientClosed = false) : Inv { s with handler := h } where
  faithful := faithful
  fresh waiting := absurd waiting left
  released _ := released
  unclosed _ := unclosed
  done outside := absurd (inside.symm.trans outside) (by decide)
  closing := by rintro _ (rfl | rfl) <;> cases inside
  closingBoth := by rintro _ rfl; cases inside
  exited := by cases h <;> simp_all

theorem inv_closeUpstream (faithful : ∀ side, (s.relay side).Faithful) (released : s.Released)
    (done : s.allDone) : Inv (s.closeUpstream left) where
  faithful := faithful
  fresh := by simp
  released _ := released
  unclosed := by simp
  done _ := done
  closing := by simp
  closingBoth := by simp
  exited := by simp

/-- Leaving the `try` block with a reason keeps the invariant. -/
theorem inv_enterFinally (faithful : ∀ side, (s.relay side).Faithful) (released : s.Released)
    (unclosed : s.upstreamClosed = false ∧ s.clientClosed = false) :
    Inv (s.enterFinally gatherEager left) := by
  have kept := cancelRelays_released released
  have relays := cancelRelays_faithful faithful
  simp only [State.enterFinally]
  split
  case isTrue eager =>
    have done : s.cancelRelays.allDone := by
      rw [cancelRelays_allDone]
      simp_all
    exact inv_closeUpstream relays kept done
  case isFalse =>
    exact inv_gathering rfl (by simp) relays kept unclosed

theorem inv_faithful_deliver (inv : Inv s) (choice : s' = s ∨ s' = s.deliver) :
    (∀ side, (s'.relay side).Faithful) ∧ (s.Released → s'.Released) ∧
      s'.allDone = s.allDone ∧ s'.upstreamClosed = s.upstreamClosed ∧
      s'.clientClosed = s.clientClosed := by
  rcases choice with rfl | rfl
  · exact ⟨inv.faithful, id, rfl, rfl, rfl⟩
  · exact ⟨inv.faithful, fun _ => .inr (.inr (by simp)), rfl, rfl, rfl⟩

theorem inTry_beforeClose {h : Handler} (inside : h.inTry) : h.beforeClose := by
  cases h <;> simp_all

/-- All relay tasks ended without a failure or a cancellation: by EOF. -/
theorem all_returned (inv : Inv s) (waiting : s.handler = .waiting)
    (clean : s.failure first = none) (done : s.allDone) (side : Side) :
    (s.relay side).loop = .returned := by
  have ended := allDone_iff.mp done side
  have unfailed := not_raised clean side
  have uncancelled := (inv.fresh waiting side).2
  cases loop : (s.relay side).loop <;> simp_all [Loop.done, Loop.failure]

theorem released_wait (inv : Inv s) (waiting : s.handler = .waiting) (done : s.allDone) :
    s.Released := by
  cases failed : s.failure .inbound with
  | none => exact .inl (all_returned inv waiting failed done)
  | some e =>
    obtain ⟨side, raised⟩ := failure_raised failed
    exact .inr (.inl ⟨side, e, raised⟩)

theorem inv_moves (inv : Inv s) (moved : Moves gatherEager s event t) : Inv t := by
  cases moved with
  | relayed stepped => exact inv_relayed inv stepped
  | requested inside absent => exact { inv with released := fun _ => .inr (.inr (by simp)) }
  | cancelledTry inside requested =>
    have unclosed := inv.unclosed (inTry_beforeClose inside)
    exact inv_enterFinally inv.faithful (.inr (.inr (by simp))) unclosed
  | gathersPending waiting failed =>
    obtain ⟨side, raised⟩ := failure_raised failed
    have unclosed := inv.unclosed (by simp [waiting])
    have released : s.cancelRelays.Released := cancelRelays_released (.inr (.inl ⟨side, _, raised⟩))
    exact inv_gathering (s := s.cancelRelays) rfl (by simp) (cancelRelays_faithful inv.faithful)
      released unclosed
  | gathersRelays waiting clean done =>
    have returned := all_returned inv waiting clean done
    have unclosed := inv.unclosed (by simp [waiting])
    exact inv_gathering rfl (by simp) inv.faithful (.inl returned) unclosed
  | leavesWait waiting _ done =>
    have unclosed := inv.unclosed (by simp [waiting])
    exact inv_enterFinally inv.faithful (released_wait inv waiting done) unclosed
  | leavesTry inside gathering _ done =>
    have unclosed := inv.unclosed (inTry_beforeClose inside)
    exact inv_enterFinally inv.faithful (inv.released gathering) unclosed
  | closes gathering _ done =>
    exact inv_closeUpstream inv.faithful (inv.released (by simp [gathering])) done
  | interrupted gathering _ done =>
    have unclosed := inv.unclosed (by simp [gathering])
    exact {
      faithful := inv.faithful
      fresh := by simp
      released := fun _ => .inr (.inr (by simp))
      unclosed := by simp
      done := fun _ => done
      closing := by simp
      closingBoth := by simp
      exited := by simp [unclosed] }
  | upstreamGone closing choice =>
    obtain ⟨faithful, released, done, upstream, _⟩ := inv_faithful_deliver inv choice
    have wasReleased := inv.released (by simp [closing])
    have wasDone := inv.done (by simp [closing])
    have wasClosed := inv.closing _ (.inl closing)
    exact {
      faithful := faithful
      fresh := by simp
      released := fun _ => released wasReleased
      unclosed := by simp
      done := fun _ => done.trans wasDone
      closing := fun _ _ => upstream.trans wasClosed
      closingBoth := by simp
      exited := by simp }
  | clientGone closing choice =>
    obtain ⟨faithful, released, done, upstream, client⟩ := inv_faithful_deliver inv choice
    have wasReleased := inv.released (by simp [closing])
    have wasDone := inv.done (by simp [closing])
    have wasClosed := inv.closing _ (.inr closing)
    have clientClosed := inv.closingBoth _ closing
    exact {
      faithful := faithful
      fresh := by simp
      released := fun _ => released wasReleased
      unclosed := by simp
      done := fun _ => done.trans wasDone
      closing := by simp
      closingBoth := by simp
      exited := fun _ => (upstream.trans wasClosed).trans (client.trans clientClosed).symm }

theorem inv_run (run : Run (byStep (step gatherEager)) init past s) : Inv s :=
  run.invariant inv_init fun inv stepped => inv_moves inv (step_moves stepped)

/-- The handler is not cancelled while it waits in the `finally` block for the
relay tasks, before it has closed the writers. -/
def cancelSpares (s : State) : Event → Bool
  | .cancel =>
    match s.handler with
    | .gatheringFinally _ => false
    | _ => true
  | _ => true

/-- The writers will not be closed any more. -/
def State.abandoned (s : State) : Prop :=
  s.upstreamClosed = false ∧
    ((∃ left, s.handler = .gatheringFinally left) ∧ s.cancellation = .requested ∨
      s.handler.hasExited)

theorem enterFinally_spared (settled : s.cancellation ≠ .requested) :
    ¬ (s.enterFinally gatherEager left).abandoned := by
  simp only [State.enterFinally, State.abandoned]
  split
  · simp
  · simpa [State.cancelRelays] using fun _ => settled

/-- Only a cancellation inside the `finally` block makes the handler abandon its
writers, and it always does. -/
theorem abandoned_moves (inv : Inv s) (moved : Moves gatherEager s event t) :
    ¬ t.abandoned ↔ ¬ s.abandoned ∧ cancelSpares s event := by
  have trying : s.handler.inTry → ¬ s.abandoned := by
    simp only [State.abandoned]
    cases handler : s.handler <;> simp
  cases moved with
  | relayed _ => simp [State.abandoned, cancelSpares]
  | requested inside absent =>
    have unclosed := inv.unclosed
    cases handler : s.handler <;>
      simp_all [State.abandoned, cancelSpares]
  | cancelledTry inside _ =>
    simp [cancelSpares, trying inside, enterFinally_spared]
  | gathersPending waiting _ =>
    have inside : s.handler.inTry := by rw [waiting]; rfl
    simpa [cancelSpares, trying inside] using by simp [State.abandoned]
  | gathersRelays waiting _ _ =>
    have inside : s.handler.inTry := by rw [waiting]; rfl
    simpa [cancelSpares, trying inside] using by simp [State.abandoned]
  | leavesWait waiting settled _ =>
    have inside : s.handler.inTry := by rw [waiting]; rfl
    simp [cancelSpares, trying inside, enterFinally_spared settled]
  | leavesTry inside _ settled _ =>
    simp [cancelSpares, trying inside, enterFinally_spared settled]
  | closes gathering settled _ =>
    simp [State.abandoned, cancelSpares, gathering, settled]
  | interrupted gathering requested _ =>
    have unclosed := inv.unclosed (by rw [gathering]; rfl)
    simp [State.abandoned, cancelSpares, gathering, requested, unclosed]
  | upstreamGone closing choice =>
    have closed := inv.closing _ (.inl closing)
    have kept := (inv_faithful_deliver inv choice).2.2.2.1
    simp [State.abandoned, cancelSpares, closed, kept]
  | clientGone closing choice =>
    have closed := inv.closing _ (.inr closing)
    have kept := (inv_faithful_deliver inv choice).2.2.2.1
    simp [State.abandoned, cancelSpares, closed, kept]

theorem abandoned_run (run : Run (byStep (step gatherEager)) init past s) :
    ¬ s.abandoned ↔ Run (guarded (byStep (step gatherEager)) (cancelSpares · ·)) init past s :=
  Run.guarded_iff (P := fun s => ¬ s.abandoned) (by simp [State.abandoned, init]) inv_run
    (fun inv stepped => abandoned_moves inv (step_moves stepped)) run

/-- Faithful relaying with half-close, and a clean exit. -/
structure RelaySafe (s : State) : Prop where
  inOrder : ∀ side, (s.relay side).written <+: (s.relay side).received
  eofLast : ∀ side, (s.relay side).eofWritten →
    (s.relay side).sourceEof ∧ (s.relay side).written = (s.relay side).received
  closedLate : s.upstreamClosed ∨ s.clientClosed → s.Released
  exitDone : s.handler.hasExited → ∀ side, (s.relay side).loop.done
  exitClosed : s.handler.hasExited → s.upstreamClosed ∧ s.clientClosed

theorem safe_iff_spared (inv : Inv s) : RelaySafe s ↔ (s.handler.hasExited → ¬ s.abandoned) := by
  constructor
  · intro safe exited
    simp [State.abandoned, (safe.exitClosed exited).1]
  · intro spared
    constructor
    case inOrder => exact fun side => (inv.faithful side).inOrder
    case eofLast => exact fun side => (inv.faithful side).eofLast
    case closedLate =>
      intro closed
      apply inv.released
      intro waiting
      have unclosed := inv.unclosed (by simp [waiting])
      simp [unclosed] at closed
    case exitDone =>
      intro exited
      apply allDone_iff.mp
      apply inv.done
      cases handler : s.handler <;> simp_all
    case exitClosed =>
      intro exited
      have upstream : s.upstreamClosed := by
        by_contra unclosed
        exact spared exited ⟨by simpa using unclosed, .inr exited⟩
      exact ⟨upstream, inv.exited exited ▸ upstream⟩

/-- A run of `tcp_forward` is safe at every state, except that it ends without
closing its writers when it is cancelled while the `finally` block waits for the
relay tasks. -/
theorem relay_safe_iff (run : Run (byStep (step gatherEager)) init past s) :
    RelaySafe s ↔ (s.handler.hasExited →
      Run (guarded (byStep (step gatherEager)) (cancelSpares · ·)) init past s) := by
  rw [← abandoned_run run]
  exact safe_iff_spared (inv_run run)

/-- The client half-closes first and still gets the delayed response; the
handler is cancelled while it closes, and closes both writers all the same. -/
theorem half_close_safe :
    ∃ s, RelaySafe s ∧ s.handler = .exited none ∧ (s.relay .inbound).written = [7, 8] := by
  obtain ⟨s, replayed⟩ : ∃ s, replay
      (fun s e => if cancelSpares s e then step false s e else none) init
      [.relay .outbound (.receive [1, 2, 3]), .relay .outbound (.forward 2),
        .relay .outbound (.drained none), .relay .outbound .receiveEof,
        .relay .outbound (.forward 1), .relay .outbound (.drained none),
        .relay .outbound (.readEof .wrote), .relay .outbound (.drained none),
        .relay .inbound (.receive [7, 8]), .relay .inbound (.forward 2),
        .relay .inbound .receiveEof, .relay .inbound (.drained none),
        .relay .inbound (.readEof (.raises .connectionError)),
        .resume .inbound, .resume .inbound, .resume .inbound,
        .cancel, .waitClosed none, .waitClosed (some .timeoutError)] = some s := ⟨_, rfl⟩
  have run := Run.of_replay_guarded replayed
  refine ⟨s, (relay_safe_iff run.unguarded).mpr fun _ => run, ?_⟩
  cases Option.some.inj replayed
  decide

/-- Both directions end by EOF and the handler is cancelled one loop iteration
later, inside the `finally` block: it exits with both writers open. -/
theorem late_cancel_abandons :
    ∃ s, Run (byStep (step false)) init
        [.resume .inbound, .cancel, .resume .inbound, .resume .inbound,
          .relay .outbound (.readEof .unsupported), .relay .outbound .receiveEof,
          .relay .inbound (.readEof .unsupported), .relay .inbound .receiveEof] s ∧
      s.handler = .exited (some .cancelledError) ∧ s.upstreamClosed = false ∧
      s.clientClosed = false ∧ ¬ RelaySafe s := by
  obtain ⟨s, replayed⟩ : ∃ s, replay (step false) init
      [.relay .inbound .receiveEof, .relay .inbound (.readEof .unsupported),
        .relay .outbound .receiveEof, .relay .outbound (.readEof .unsupported),
        .resume .inbound, .resume .inbound, .cancel, .resume .inbound] = some s := ⟨_, rfl⟩
  have run := Run.of_replay replayed
  cases Option.some.inj replayed
  exact ⟨_, run, rfl, rfl, rfl, fun safe => absurd (safe.exitClosed rfl).1 (by decide)⟩

/-- From CPython 3.12 on the handler only waits in the `finally` block when it
has been cancelled before. -/
theorem eager_cancelled (run : Run (byStep (step true)) init past s)
    (gathering : s.handler = .gatheringFinally left) : s.cancellation = .delivered := by
  have kept : ∀ left, s.handler = .gatheringFinally left → s.cancellation = .delivered := by
    clear gathering
    refine run.invariant (P := fun s => ∀ left, s.handler = .gatheringFinally left →
      s.cancellation = .delivered) (by simp [init]) fun {s _ t} old stepped left gathering => ?_
    have entered : ∀ {s : State} {left'}, s.allDone →
        (s.enterFinally true left').handler ≠ .gatheringFinally left := by
      intro s left' done
      simp [State.enterFinally, done]
    cases step_moves stepped with
    | relayed _ => exact old left gathering
    | requested _ absent => simp [old left gathering] at absent
    | cancelledTry _ _ =>
      simp only [State.enterFinally]
      split <;> rfl
    | leavesWait _ _ done | leavesTry _ _ _ done => exact absurd gathering (entered done)
    | upstreamGone _ _ | clientGone _ _ | closes _ _ _ | interrupted _ _ _ | gathersPending _ _
    | gathersRelays _ _ _ => simp at gathering
  exact kept left gathering

/-- From CPython 3.12 on every run of `tcp_forward` is safe. -/
theorem relay_safe_eager (run : Run (byStep (step true)) init past s) : RelaySafe s := by
  suffices spares : Run (guarded (byStep (step true)) (cancelSpares · ·)) init past s from
    (safe_iff_spared (inv_run run)).mpr fun _ => (abandoned_run run).mpr spares
  induction run with
  | start => exact .start
  | @next past s event t earlier stepped ih =>
    refine .next ih ⟨?_, stepped⟩
    cases step_moves stepped with
    | requested _ absent =>
      simp only [cancelSpares]
      cases handler : s.handler with
      | gatheringFinally left => simp [eager_cancelled earlier handler] at absent
      | _ => rfl
    | _ => rfl

end HttpSocksProxy.Relay
