import Mathlib.Logic.Function.Basic
import HttpSocksProxy.Stable.Interfaces
import HttpSocksProxy.Stable.Supervisor

/-! `StableServerManager` around its supervisor: `start`, `stop`, `recover` and
`set_outbound_selection` on any threads against the runtime thread of each
session, one step for each read or write that another thread can see. -/
namespace HttpSocksProxy.Lifecycle
open Transition
open Supervisor (Config Output)

/-- The `set` of an event, as `call_soon_threadsafe` hands it to a loop. The
number is that of the session that made the event. -/
inductive Callback where
  | setStop (event : Nat)
  | setRecover (event : Nat)
  deriving DecidableEq, Repr

/-- Where the runtime thread of a session is in `_thread_main`, and in
`_supervise` before its loop. -/
inductive Point where
  | absent
  | created
  | started
  | looped
  | entered
  | stopMade
  | made
  | supervising (sup : Supervisor.State)
  | failing (text : Str)
  | failTold
  | closing
  | closed
  | unlooped
  | dead

/-- `is_alive` of the thread. -/
def Point.alive : Point → Bool
  | absent | created | dead => false
  | _ => true

/-- `_supervise` has not looked at `_stop_requested` yet. -/
def Point.unchecked : Point → Bool
  | absent | created | started | looped | entered | stopMade | made => true
  | _ => false

/-- In `run_until_complete` of `_supervise`. -/
def Point.runs : Point → Bool
  | entered | stopMade | made | supervising _ => true
  | _ => false

/-- `is_running` of the loop; while it closes it may be either. -/
def Point.mayShow : Point → Bool → Bool
  | closing, _ => true
  | p, running => p.runs == running

def Point.loopClosed : Point → Bool
  | closed | unlooped | dead => true
  | _ => false

/-- How far `start` has come under the lock. -/
inductive StartPoint where
  | checked
  | selected
  | eventCleared
  | errorCleared
  | flagCleared
  | made
  deriving DecidableEq, Repr

/-- Why `stop` runs: it was called, or `start` gives its session up. -/
inductive Why where
  | asked
  | timedOut (session : Nat)
  | failed (session : Nat)
  deriving DecidableEq, Repr

/-- How far `stop` has come. `session` is the newest one whose `start` had
cleared the flag when this call set it. -/
inductive StopPoint where
  | flagging
  | flagged (session : Nat)
  | loopRead (session : Nat) (loop : Option Nat)
  | eventRead (session : Nat) (loop event : Option Nat)
  | checked (session loop event : Nat)
  | passed
  | joining (thread : Option Nat)
  | joined (thread : Option Nat)
  | clearing (thread : Option Nat)
  deriving DecidableEq, Repr

inductive RecoverPoint where
  | checking
  | runningSeen
  | loopSeen
  | eventSeen
  | loopRead (loop : Nat)
  | eventRead (loop event : Nat)
  deriving DecidableEq, Repr

/-- One call of the manager. `stopped` and `ended` keep what it returned, or
`none` when it raised. -/
inductive Call where
  | idle
  | starting (p : StartPoint) (selection : Str)
  | awaiting (session since : Nat)
  | signalled (session : Nat)
  | started (session : Nat)
  | stopping (why : Why) (p : StopPoint)
  | stopped (why : Why) (result : Option Bool)
  | updated (changed recoverIfRunning : Bool)
  | recovering (p : RecoverPoint)
  | ended (result : Option Bool)
  deriving DecidableEq, Repr

/-- `sessions` counts the `start` calls that have cleared the stop flag, and
`signals` how often the startup event was set, which wakes those who wait for
it even if it is cleared again. `passed` and `succeeded` record what has
happened in a session: a `stop` has come past its scheduling, the first
`_start_generation` has returned. -/
structure State where
  loop : Option Nat
  thread : Option Nat
  stopAsync : Option Nat
  recoverAsync : Option Nat
  startupEvent : Bool
  startupError : Option Str
  stopRequested : Bool
  outboundSelection : Str
  lock : Option Nat
  counter : Nat
  sessions : Nat
  signals : Nat
  points : Nat → Point
  callbacks : Nat → List Callback
  calls : Nat → Call
  passed : Nat → Bool
  succeeded : Nat → Bool

/-- Session 0 stands for the time before the first one. -/
def init : State where
  loop := none
  thread := none
  stopAsync := none
  recoverAsync := none
  startupEvent := false
  startupError := none
  stopRequested := false
  outboundSelection := Interfaces.auto
  lock := none
  counter := 0
  sessions := 0
  signals := 0
  points n := if n = 0 then .dead else .absent
  callbacks _ := []
  calls _ := .idle
  passed _ := false
  succeeded _ := false

inductive Request where
  | start (selection : Str)
  | stop
  | recover
  | setOutboundSelection (selection : Str) (recoverIfRunning : Bool)
  deriving DecidableEq, Repr

inductive Act where
  | onward
  | callback
  | supervises (e : Supervisor.Event)
  | raises (text : Str)

/-- `answer` is what a call meets where the state leaves it open: whether the
startup event was set in time, or what `is_running` said. -/
inductive Event where
  | enters (call : Nat) (request : Request)
  | goesOn (call : Nat) (answer : Bool)
  | runtime (session : Nat) (act : Act)

def State.running (s : State) : Bool := s.thread.any fun n => (s.points n).alive

def State.call (s : State) (k : Nat) (c : Call) : State :=
  { s with calls := Function.update s.calls k c }

def State.point (s : State) (n : Nat) (p : Point) : State :=
  { s with points := Function.update s.points n p }

def State.pass (s : State) (session : Nat) : State :=
  { s with passed := Function.update s.passed session true }

def State.callSoon (s : State) (loop : Nat) (c : Callback) : State :=
  { s with callbacks := Function.update s.callbacks loop (s.callbacks loop ++ [c]) }

def State.setStartupEvent (s : State) : State :=
  { s with startupEvent := true, signals := s.signals + 1 }

def orAuto (selection : Str) : Str := if selection.isEmpty then Interfaces.auto else selection

/-- A call begins; `start` and `set_outbound_selection` take the lock. -/
def enter (s : State) (k : Nat) : Request → Option State
  | .start selection =>
    if s.lock.isSome then none
    else if s.running then some (s.call k (.ended none))
    else some ({ s with lock := some k }.call k (.starting .checked (orAuto selection)))
  | .stop => some (s.call k (.stopping .asked .flagging))
  | .recover => some (s.call k (.recovering .checking))
  | .setOutboundSelection selection recoverIfRunning =>
    if s.lock.isSome then none
    else
      let changed := decide (orAuto selection ≠ s.outboundSelection)
      some ({ s with lock := some k, outboundSelection := orAuto selection }.call k
        (.updated changed recoverIfRunning))

def startNext (s : State) (k : Nat) (selection : Str) : StartPoint → State
  | .checked => { s with outboundSelection := selection }.call k (.starting .selected selection)
  | .selected => { s with startupEvent := false }.call k (.starting .eventCleared selection)
  | .eventCleared => { s with startupError := none }.call k (.starting .errorCleared selection)
  | .errorCleared =>
    { s with stopRequested := false, sessions := s.sessions + 1 }.call k (.starting .flagCleared selection)
  | .flagCleared =>
    ({ s with thread := some s.sessions }.point s.sessions .created).call k (.starting .made selection)
  | .made =>
    ({ s with lock := none }.point s.sessions .started).call k (.awaiting s.sessions s.signals)

def stopNext (s : State) (k : Nat) (why : Why) (answer : Bool) : StopPoint → Option State
  | .flagging => some ({ s with stopRequested := true }.call k (.stopping why (.flagged s.sessions)))
  | .flagged session => some (s.call k (.stopping why (.loopRead session s.loop)))
  | .loopRead session loop => some (s.call k (.stopping why (.eventRead session loop s.stopAsync)))
  | .eventRead session (some loop) (some event) =>
    if (s.points loop).mayShow answer then
      if answer then some (s.call k (.stopping why (.checked session loop event)))
      else some ((s.pass session).call k (.stopping why .passed))
    else none
  | .eventRead session _ _ => some ((s.pass session).call k (.stopping why .passed))
  -- `call_soon_threadsafe` of a closed loop raises
  | .checked session loop event =>
    if (s.points loop).loopClosed then some ((s.pass session).call k (.stopped why none))
    else some (((s.callSoon loop (.setStop event)).pass session).call k (.stopping why .passed))
  | .passed => some (s.call k (.stopping why (.joining s.thread)))
  -- a thread that was not started cannot be joined; otherwise the join ends or times out
  | .joining thread =>
    if thread.any fun n => s.points n matches .created then some (s.call k (.stopped why none))
    else some (s.call k (.stopping why (.joined thread)))
  | .joined thread =>
    if thread.any fun n => (s.points n).alive then some (s.call k (.stopped why (some false)))
    else some (s.call k (.stopping why (.clearing thread)))
  | .clearing thread =>
    if s.lock.isSome then none
    else some ({ s with thread := if s.thread = thread then none else s.thread }.call k
      (.stopped why (some true)))

/-- `recover`, which `set_outbound_selection` calls after its update too. -/
def recoverNext (s : State) (k : Nat) : RecoverPoint → State
  | .checking => s.call k (if s.running then .recovering .runningSeen else .ended none)
  | .runningSeen => s.call k (if s.loop.isSome then .recovering .loopSeen else .ended none)
  | .loopSeen => s.call k (if s.recoverAsync.isSome then .recovering .eventSeen else .ended none)
  | .eventSeen => s.call k (match s.loop with
    | some loop => .recovering (.loopRead loop)
    | none => .ended none)
  | .loopRead loop => s.call k (match s.recoverAsync with
    | some event => .recovering (.eventRead loop event)
    | none => .ended none)
  | .eventRead loop event =>
    if (s.points loop).loopClosed then s.call k (.ended none)
    else (s.callSoon loop (.setRecover event)).call k (.ended (some true))

def callNext (s : State) (k : Nat) (answer : Bool) : Call → Option State
  | .starting p selection => some (startNext s k selection p)
  | .awaiting session since =>
    if answer then
      if s.startupEvent || since < s.signals then some (s.call k (.signalled session)) else none
    else some (s.call k (.stopping (.timedOut session) .flagging))
  -- the text decides: an empty one is no error
  | .signalled session =>
    if (s.startupError.getD []).isEmpty then some (s.call k (.started session))
    else some (s.call k (.stopping (.failed session) .flagging))
  | .stopping why p => stopNext s k why answer p
  | .updated changed recoverIfRunning =>
    some ({ s with lock := none }.call k
      (if changed && recoverIfRunning && s.running then .recovering .checking else .ended (some changed)))
  | .recovering p => some (recoverNext s k p)
  | _ => none

/-- What the supervisor shows to the threads that call the manager. -/
def State.shown (s : State) (session : Nat) (firstStart : Bool) : Output → State
  | .startReturned =>
    { s with succeeded := Function.update s.succeeded session (s.succeeded session || firstStart) }
  | .startupError text => { s with startupError := some text }
  | .startupEvent => s.setStartupEvent
  | _ => s

/-- The events of the supervisor that do not come from another thread, with
the selection that is there to be read. -/
def ownEvent (outboundSelection : Str) : Supervisor.Event → Bool
  | .stopSet | .recoverSet => false
  | .goesOn (.selected selection) => selection == outboundSelection
  | _ => true

/-- A `set` reaches the supervisor when the event is the one it waits for. -/
def heed (n : Nat) (sup : Supervisor.State) : Callback → Supervisor.State
  | .setStop event => if event = n then { sup with stopAsync := true } else sup
  | .setRecover event => if event = n then { sup with recoverAsync := true } else sup

def runCallback (s : State) (n : Nat) : Option State :=
  match s.callbacks n with
  | [] => none
  | c :: later =>
    let s := { s with callbacks := Function.update s.callbacks n later }
    match s.points n with
    | .supervising sup => some (s.point n (.supervising (heed n sup c)))
    | .entered | .closing => some s
    | _ => none

def runtimeOnward (config : Config) (s : State) (n : Nat) : Point → Option State
  | .started => some ({ s with loop := some n }.point n .looped)
  | .looped => some (s.point n .entered)
  | .entered => some ({ s with stopAsync := some n }.point n .stopMade)
  | .stopMade => some ({ s with recoverAsync := some n }.point n .made)
  | .made => some (s.point n (.supervising (Supervisor.init config s.counter s.stopRequested)))
  | .supervising sup => if sup.phase = .returned then some (s.point n .closing) else none
  | .failing text => some ({ s with startupError := some text }.point n .failTold)
  | .failTold => some (s.setStartupEvent.point n .closing)
  | .closing => some (s.point n .closed)
  | .closed => some ({ s with loop := none }.point n .unlooped)
  | .unlooped => some (s.point n .dead)
  | _ => none

/-- An exception that leaves `_supervise`, or the thread before its `try`. -/
def runtimeRaises (s : State) (n : Nat) (text : Str) : Point → Option State
  | .started => some (s.point n .dead)
  | .entered | .stopMade | .made => some (s.point n (.failing text))
  | .supervising sup => if sup.phase = .returned then none else some (s.point n (.failing text))
  | _ => none

def runtimeNext (config : Config) (s : State) (n : Nat) : Act → Option (Output × State)
  | .onward => (runtimeOnward config s n (s.points n)).map (.quiet, ·)
  | .callback => (runCallback s n).map (.quiet, ·)
  | .raises text => (runtimeRaises s n text (s.points n)).map (.quiet, ·)
  | .supervises e =>
    match s.points n with
    | .supervising sup =>
      if ownEvent s.outboundSelection e then
        (Supervisor.step config sup e).map fun (out, sup') =>
          (out, ({ s with counter := sup'.counter }.shown n sup.firstStart out).point n (.supervising sup'))
      else none
    | _ => none

def step (config : Config) (s : State) : Event → Option (Output × State)
  | .enters k request => if s.calls k = .idle then (enter s k request).map (.quiet, ·) else none
  | .goesOn k answer => (callNext s k answer (s.calls k)).map (.quiet, ·)
  | .runtime n act => runtimeNext config s n act

def moves (config : Config) (s : State) (l : Event × Output) (t : State) : Prop :=
  step config s l.1 = some (l.2, t)

/-- Inside the `try` of `_thread_main`. -/
def Point.tried : Point → Bool
  | entered | stopMade | made => true
  | supervising sup => sup.phase ≠ .returned
  | _ => false

/-- Everything the runtime thread of a session can do. -/
inductive Lives (config : Config) (s : State) (n : Nat) : Act → Output → State → Prop where
  | loops : s.points n = .started →
      Lives config s n .onward .quiet ({ s with loop := some n }.point n .looped)
  | enters : s.points n = .looped → Lives config s n .onward .quiet (s.point n .entered)
  | makesStop : s.points n = .entered →
      Lives config s n .onward .quiet ({ s with stopAsync := some n }.point n .stopMade)
  | makesRecover : s.points n = .stopMade →
      Lives config s n .onward .quiet ({ s with recoverAsync := some n }.point n .made)
  | checks : s.points n = .made → Lives config s n .onward .quiet
      (s.point n (.supervising (Supervisor.init config s.counter s.stopRequested)))
  | returns : s.points n = .supervising sup → sup.phase = .returned →
      Lives config s n .onward .quiet (s.point n .closing)
  | tells : s.points n = .failing text →
      Lives config s n .onward .quiet ({ s with startupError := some text }.point n .failTold)
  | told : s.points n = .failTold →
      Lives config s n .onward .quiet (s.setStartupEvent.point n .closing)
  | closes : s.points n = .closing → Lives config s n .onward .quiet (s.point n .closed)
  | unloops : s.points n = .closed →
      Lives config s n .onward .quiet ({ s with loop := none }.point n .unlooped)
  | dies : s.points n = .unlooped → Lives config s n .onward .quiet (s.point n .dead)
  | breaks : s.points n = .started → Lives config s n (.raises text) .quiet (s.point n .dead)
  | fails : (s.points n).tried = true →
      Lives config s n (.raises text) .quiet (s.point n (.failing text))
  | heeds : s.callbacks n = c :: later → s.points n = .supervising sup →
      Lives config s n .callback .quiet
        ({ s with callbacks := Function.update s.callbacks n later }.point n (.supervising (heed n sup c)))
  | drops : s.callbacks n = c :: later → s.points n = .entered ∨ s.points n = .closing →
      Lives config s n .callback .quiet { s with callbacks := Function.update s.callbacks n later }
  | supervises : s.points n = .supervising sup → ownEvent s.outboundSelection e = true →
      Supervisor.step config sup e = some (out, sup') → Lives config s n (.supervises e) out
        (({ s with counter := sup'.counter }.shown n sup.firstStart out).point n (.supervising sup'))

theorem onward_lives (moved : runtimeOnward config s n (s.points n) = some t) :
    Lives config s n .onward .quiet t := by
  cases point : s.points n with
  | absent | created | dead => rw [point] at moved; contradiction
  | started => rw [point] at moved; cases Option.some.inj moved; exact .loops point
  | looped => rw [point] at moved; cases Option.some.inj moved; exact .enters point
  | entered => rw [point] at moved; cases Option.some.inj moved; exact .makesStop point
  | stopMade => rw [point] at moved; cases Option.some.inj moved; exact .makesRecover point
  | made => rw [point] at moved; cases Option.some.inj moved; exact .checks point
  | supervising sup =>
    rw [point] at moved
    simp only [runtimeOnward, Option.ite_none_right_eq_some, Option.some.injEq] at moved
    obtain ⟨returned, rfl⟩ := moved
    exact .returns point returned
  | failing text => rw [point] at moved; cases Option.some.inj moved; exact .tells point
  | failTold => rw [point] at moved; cases Option.some.inj moved; exact .told point
  | closing => rw [point] at moved; cases Option.some.inj moved; exact .closes point
  | closed => rw [point] at moved; cases Option.some.inj moved; exact .unloops point
  | unlooped => rw [point] at moved; cases Option.some.inj moved; exact .dies point

theorem raises_lives (moved : runtimeRaises s n text (s.points n) = some t) :
    Lives config s n (.raises text) .quiet t := by
  cases point : s.points n with
  | started => rw [point] at moved; cases Option.some.inj moved; exact .breaks point
  | entered | stopMade | made =>
    rw [point] at moved
    cases Option.some.inj moved
    exact .fails (by rw [point]; rfl)
  | supervising sup =>
    rw [point] at moved
    simp only [runtimeRaises] at moved
    split at moved
    case isTrue => contradiction
    case isFalse going =>
      cases Option.some.inj moved
      exact .fails (by rw [point]; simpa [Point.tried] using going)
  | _ => rw [point] at moved; contradiction

theorem callback_lives (moved : runCallback s n = some t) : Lives config s n .callback .quiet t := by
  simp only [runCallback] at moved
  split at moved
  case h_1 => contradiction
  case h_2 c later queued =>
    split at moved
    case h_1 sup point => cases Option.some.inj moved; exact .heeds queued point
    case h_2 point => cases Option.some.inj moved; exact .drops queued (.inl point)
    case h_3 point => cases Option.some.inj moved; exact .drops queued (.inr point)
    case h_4 => contradiction

theorem runtime_lives (moved : runtimeNext config s n act = some (out, t)) :
    Lives config s n act out t := by
  cases act with
  | onward =>
    obtain ⟨_, onward, made⟩ := Option.map_eq_some_iff.mp moved
    cases made
    exact onward_lives onward
  | callback =>
    obtain ⟨_, called, made⟩ := Option.map_eq_some_iff.mp moved
    cases made
    exact callback_lives called
  | raises text =>
    obtain ⟨_, raised, made⟩ := Option.map_eq_some_iff.mp moved
    cases made
    exact raises_lives raised
  | supervises e =>
    simp only [runtimeNext] at moved
    split at moved
    case h_1 sup point =>
      rw [Option.ite_none_right_eq_some] at moved
      obtain ⟨own, mapped⟩ := moved
      obtain ⟨⟨out, sup'⟩, stepped, made⟩ := Option.map_eq_some_iff.mp mapped
      cases made
      exact .supervises point own stepped
    case h_2 => contradiction

/-- What a step of a call leaves as it was when it is not `start` under the
lock. -/
structure Aside (s : State) (k : Nat) (t : State) : Prop where
  points : t.points = s.points
  sessions : t.sessions = s.sessions
  startupEvent : t.startupEvent = s.startupEvent
  startupError : t.startupError = s.startupError
  signals : t.signals = s.signals
  succeeded : t.succeeded = s.succeeded
  stopRequested : s.stopRequested = true → t.stopRequested = true
  callbacks : ∀ m, s.callbacks m ⊆ t.callbacks m
  others : ∀ k' ≠ k, t.calls k' = s.calls k'

theorem Aside.call (aside : Aside s k t) (c : Call) : Aside s k (t.call k c) :=
  { aside with others := fun k' other => (Function.update_of_ne other ..).trans (aside.others k' other) }

theorem Aside.refl (s : State) (k : Nat) : Aside s k s :=
  ⟨rfl, rfl, rfl, rfl, rfl, rfl, id, fun _ => List.Subset.refl _, fun _ _ => rfl⟩

theorem subset_callSoon (s : State) (loop : Nat) (c : Callback) (m : Nat) :
    s.callbacks m ⊆ (s.callSoon loop c).callbacks m := by
  by_cases same : m = loop
  · subst same
    simp [State.callSoon]
  · simp [State.callSoon, Function.update_of_ne same]

theorem Aside.callSoon (s : State) (k loop : Nat) (c : Callback) : Aside s k (s.callSoon loop c) :=
  { Aside.refl s k with callbacks := subset_callSoon s loop c }

theorem aside_enter (moved : enter s k request = some t) : Aside s k t := by
  cases request with
  | start selection =>
    simp only [enter] at moved
    split at moved
    · contradiction
    · split at moved <;> cases Option.some.inj moved
      · exact (Aside.refl s k).call _
      · exact { (Aside.refl s k).call _ with }
  | stop | recover =>
    cases Option.some.inj moved
    exact (Aside.refl s k).call _
  | setOutboundSelection selection recoverIfRunning =>
    simp only [enter] at moved
    split at moved
    · contradiction
    · cases Option.some.inj moved
      exact { (Aside.refl s k).call _ with }

/-- `stop` schedules its event only where the loop shows that it runs. -/
theorem stopNext_eventRead (moved : stopNext s k why answer (.eventRead session loop event) = some t) :
    (∃ l e, loop = some l ∧ event = some e ∧ t = s.call k (.stopping why (.checked session l e))) ∨
      t = (s.pass session).call k (.stopping why .passed) ∧
        ∀ l, loop = some l → event.isSome → (s.points l).mayShow false = true := by
  cases loop with
  | none => exact .inr ⟨(Option.some.inj moved).symm, by simp⟩
  | some l =>
    cases event with
    | none => exact .inr ⟨(Option.some.inj moved).symm, by simp⟩
    | some e =>
      simp only [stopNext, Option.ite_none_right_eq_some] at moved
      obtain ⟨shown, moved⟩ := moved
      cases answer with
      | true => exact .inl ⟨l, e, rfl, rfl, (Option.some.inj moved).symm⟩
      | false =>
        refine .inr ⟨(Option.some.inj moved).symm, ?_⟩
        rintro _ ⟨⟩ _
        exact shown

/-- `stop` goes on with why it runs, and does not touch the selection. -/
theorem stopNext_keeps (moved : stopNext s k why answer p = some t) :
    Aside s k t ∧ t.outboundSelection = s.outboundSelection ∧
      ((∃ p', t.calls k = .stopping why p') ∨ ∃ result, t.calls k = .stopped why result) := by
  have going {u : State} (aside : Aside s k u) (selection : u.outboundSelection = s.outboundSelection)
      (p' : StopPoint) : Aside s k (u.call k (.stopping why p')) ∧ u.outboundSelection = s.outboundSelection ∧
        ((∃ p'', (u.call k (.stopping why p')).calls k = .stopping why p'') ∨
          ∃ result, (u.call k (.stopping why p')).calls k = .stopped why result) :=
    ⟨aside.call _, selection, .inl ⟨p', Function.update_self ..⟩⟩
  have done {u : State} (aside : Aside s k u) (selection : u.outboundSelection = s.outboundSelection)
      (result : Option Bool) :
      Aside s k (u.call k (.stopped why result)) ∧ u.outboundSelection = s.outboundSelection ∧
        ((∃ p', (u.call k (.stopped why result)).calls k = .stopping why p') ∨
          ∃ result', (u.call k (.stopped why result)).calls k = .stopped why result') :=
    ⟨aside.call _, selection, .inr ⟨result, Function.update_self ..⟩⟩
  have same := Aside.refl s k
  have pass (session : Nat) : Aside s k (s.pass session) := { same with }
  cases p with
  | flagging =>
    cases Option.some.inj moved
    exact going (u := { s with stopRequested := true }) { same with stopRequested := fun _ => rfl } rfl _
  | flagged | loopRead | passed => cases Option.some.inj moved; exact going same rfl _
  | eventRead session loop event =>
    rcases stopNext_eventRead moved with ⟨l, e, _, _, rfl⟩ | ⟨rfl, _⟩
    · exact going same rfl _
    · exact going (pass session) rfl _
  | checked session loop event =>
    simp only [stopNext] at moved
    split at moved <;> cases Option.some.inj moved
    · exact done (pass session) rfl _
    · have queued := Aside.callSoon s k loop (.setStop event)
      exact going (u := (s.callSoon loop (.setStop event)).pass session) { queued with } rfl _
  | joining thread | joined thread =>
    simp only [stopNext] at moved
    split at moved <;> cases Option.some.inj moved
    · exact done same rfl _
    · exact going same rfl _
  | clearing thread =>
    simp only [stopNext] at moved
    split at moved
    · contradiction
    · cases Option.some.inj moved
      exact done (u := { s with thread := if s.thread = thread then none else s.thread }) { same with } rfl _

theorem recoverNext_keeps (s : State) (k : Nat) (p : RecoverPoint) :
    Aside s k (recoverNext s k p) ∧ (recoverNext s k p).outboundSelection = s.outboundSelection ∧
      ((∃ p', (recoverNext s k p).calls k = .recovering p') ∨
        ∃ result, (recoverNext s k p).calls k = .ended result) := by
  have on := (Aside.refl s k).call
  cases p with
  | checking | runningSeen | loopSeen =>
    refine ⟨on _, rfl, ?_⟩
    simp only [recoverNext]
    split <;> simp [State.call]
  | eventSeen =>
    refine ⟨on _, rfl, ?_⟩
    cases loop : s.loop <;> simp [recoverNext, State.call, loop]
  | loopRead loop =>
    refine ⟨on _, rfl, ?_⟩
    cases event : s.recoverAsync <;> simp [recoverNext, State.call, event]
  | eventRead loop event =>
    simp only [recoverNext]
    split
    · exact ⟨on _, rfl, by simp [State.call]⟩
    · exact ⟨(Aside.callSoon s k loop (.setRecover event)).call _, rfl, by simp [State.call]⟩

theorem aside_callNext (outside : ∀ p selection, c ≠ .starting p selection)
    (moved : callNext s k answer c = some t) : Aside s k t := by
  have on := (Aside.refl s k).call
  cases c with
  | starting p selection => exact absurd rfl (outside p selection)
  | awaiting session since =>
    simp only [callNext] at moved
    split at moved
    · split at moved
      · cases Option.some.inj moved; exact on _
      · contradiction
    · cases Option.some.inj moved; exact on _
  | signalled session =>
    simp only [callNext] at moved
    split at moved <;> cases Option.some.inj moved <;> exact on _
  | stopping why p => exact (stopNext_keeps moved).1
  | updated changed recoverIfRunning => cases Option.some.inj moved; exact { on _ with }
  | recovering p => cases Option.some.inj moved; exact (recoverNext_keeps s k p).1
  | _ => contradiction

/-- What no output of a supervisor touches. -/
structure Beside (s t : State) : Prop where
  loop : t.loop = s.loop
  thread : t.thread = s.thread
  stopAsync : t.stopAsync = s.stopAsync
  recoverAsync : t.recoverAsync = s.recoverAsync
  stopRequested : t.stopRequested = s.stopRequested
  outboundSelection : t.outboundSelection = s.outboundSelection
  lock : t.lock = s.lock
  sessions : t.sessions = s.sessions
  points : t.points = s.points
  callbacks : t.callbacks = s.callbacks
  calls : t.calls = s.calls
  passed : t.passed = s.passed

theorem shown_beside (s : State) (n counter : Nat) (firstStart : Bool) (out : Output) :
    Beside s ({ s with counter }.shown n firstStart out) := by
  cases out <;> constructor <;> rfl

theorem Beside.point (beside : Beside s u) (n : Nat) (p : Point) :
    (u.point n p).points = Function.update s.points n p := by
  simp only [State.point, beside.points]

theorem heed_keeps (n : Nat) (sup : Supervisor.State) (c : Callback) :
    (heed n sup c).phase = sup.phase ∧ (heed n sup c).firstStart = sup.firstStart ∧
      (sup.stopAsync = true → (heed n sup c).stopAsync = true) ∧
      (sup.recoverAsync = true → (heed n sup c).recoverAsync = true) := by
  cases c <;> simp only [heed] <;> split <;> simp_all

/-- A step is one of a call that begins, of a call that goes on or of a
runtime thread. -/
theorem moves_cases (moved : moves config s l t) :
    (∃ k request, l = (.enters k request, .quiet) ∧ s.calls k = .idle ∧ enter s k request = some t) ∨
      (∃ k answer, l = (.goesOn k answer, .quiet) ∧ callNext s k answer (s.calls k) = some t) ∨
      ∃ n act out, l = (.runtime n act, out) ∧ Lives config s n act out t := by
  obtain ⟨event, out⟩ := l
  cases event with
  | enters k request =>
    simp only [moves, step, Option.ite_none_right_eq_some, Option.map_eq_some_iff, Prod.mk.injEq] at moved
    obtain ⟨idle, _, entered, rfl, rfl⟩ := moved
    exact .inl ⟨k, request, rfl, idle, entered⟩
  | goesOn k answer =>
    obtain ⟨_, called, made⟩ := Option.map_eq_some_iff.mp moved
    cases made
    exact .inr (.inl ⟨k, answer, rfl, called⟩)
  | runtime n act => exact .inr (.inr ⟨n, act, out, rfl, runtime_lives moved⟩)

end HttpSocksProxy.Lifecycle
