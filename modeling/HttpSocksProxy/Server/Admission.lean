import Mathlib.Data.Finset.Card
import HttpSocksProxy.Foundation.Transition
import HttpSocksProxy.Server.Exceptions

/-! Admission slots of `AsyncProxyServer.client_connected`, under every
interleaving of its calls. A call runs without a break between two awaits, so
one event is one stretch of one call. -/
namespace HttpSocksProxy.Admission
open Transition

/-- Where the `client_connected` call of a task stands. -/
inductive Phase where
  | absent
  | rejecting
  | handling
  | closing (left : Option Exn)
  | finished (raised : Option Exn)
  deriving DecidableEq, Repr

/-- An admitted call that has not finished. -/
def Phase.running : Phase → Bool
  | handling | closing _ => true
  | absent | rejecting | finished _ => false

/-- An admitted call, finished or not. -/
def Phase.admitted : Phase → Bool
  | handling | closing _ | finished _ => true
  | absent | rejecting => false

structure Server where
  maxClientConnections : Nat
  clientTasks : Finset Nat
  connections : Nat
  phase : Nat → Phase

/-- `None` as an outcome is a normal return. -/
inductive Event where
  | arrive (task : Nat)
  | handled (task : Nat) (left : Option Exn)
  | waitClosed (task : Nat) (raised : Option Exn)
  deriving DecidableEq, Repr

def init (maxClientConnections : Nat) : Server :=
  ⟨max 1 maxClientConnections, ∅, 0, fun _ => .absent⟩

def connectionLimitReached (s : Server) : Bool :=
  s.maxClientConnections ≤ s.clientTasks.card

def Server.enter (s : Server) (task : Nat) (phase : Phase) : Server :=
  { s with phase := Function.update s.phase task phase }

/-- `client_connected` up to its first await. -/
def clientConnected (s : Server) (task : Nat) : Server :=
  if connectionLimitReached s then s.enter task .rejecting
  else { s.enter task .handling with
    clientTasks := insert task s.clientTasks, connections := s.connections + 1 }

/-- The `finally` block up to `wait_closed`, whatever way the handler ended. -/
def leaveHandler (s : Server) (task : Nat) (left : Option Exn) : Server :=
  { s.enter task (.closing left) with connections := s.connections - 1 }

/-- After `wait_closed` of a rejected client. -/
def finishRejected (s : Server) (task : Nat) (raised : Option Exn) : Server :=
  s.enter task (.finished (raised.filter (!·.isOSErrorOrCancelled)))

def discard (s : Server) (task : Nat) (left : Option Exn) : Server :=
  { s.enter task (.finished left) with clientTasks := s.clientTasks.erase task }

/-- After `wait_closed` of an admitted client. -/
def finishAdmitted (s : Server) (task : Nat) (left : Option Exn) : Option Exn → Server
  | none => discard s task left
  | some e =>
    if e.isConnectionOrCancelled then discard s task left
    -- the exception leaves the `finally` block before `_client_tasks.discard`
    else s.enter task (.finished (some e))

def step (s : Server) : Event → Option Server
  | .arrive task => if s.phase task = .absent then some (clientConnected s task) else none
  | .handled task left =>
    if s.phase task = .handling then some (leaveHandler s task left) else none
  | .waitClosed task raised =>
    match s.phase task with
    | .rejecting => some (finishRejected s task raised)
    | .closing left => some (finishAdmitted s task left raised)
    | _ => none

/-- Closing an admitted client's socket succeeds, or fails with an exception
that the `finally` block of `client_connected` names. -/
def closeCaught (s : Server) : Event → Bool
  | .waitClosed task (some e) => !(s.phase task).running || e.isConnectionOrCancelled
  | _ => true

/-- Everything one event can do. -/
inductive Moves (s : Server) : Event → Server → Prop where
  | rejected : s.phase k = .absent → s.maxClientConnections ≤ s.clientTasks.card →
      Moves s (.arrive k) (s.enter k .rejecting)
  | admitted : s.phase k = .absent → s.clientTasks.card < s.maxClientConnections →
      Moves s (.arrive k) { s.enter k .handling with
        clientTasks := insert k s.clientTasks, connections := s.connections + 1 }
  | left : s.phase k = .handling → Moves s (.handled k outcome) (leaveHandler s k outcome)
  | turnedAway : s.phase k = .rejecting →
      Moves s (.waitClosed k raised) (finishRejected s k raised)
  | released : s.phase k = .closing outcome → (∀ e, raised = some e → e.isConnectionOrCancelled) →
      Moves s (.waitClosed k raised) (discard s k outcome)
  | leaked : s.phase k = .closing outcome → e.isConnectionOrCancelled = false →
      Moves s (.waitClosed k (some e)) (s.enter k (.finished (some e)))

theorem step_moves (stepped : step s event = some t) : Moves s event t := by
  cases event with
  | arrive k =>
    simp only [step, Option.ite_none_right_eq_some, Option.some.injEq] at stepped
    obtain ⟨fresh, rfl⟩ := stepped
    unfold clientConnected connectionLimitReached
    by_cases full : s.maxClientConnections ≤ s.clientTasks.card
    · simpa only [decide_eq_true full, if_true] using Moves.rejected fresh full
    · simpa only [decide_eq_false full, Bool.false_eq_true, if_false] using
        Moves.admitted fresh (Nat.lt_of_not_le full)
  | handled k outcome =>
    simp only [step, Option.ite_none_right_eq_some, Option.some.injEq] at stepped
    obtain ⟨inside, rfl⟩ := stepped
    exact .left inside
  | waitClosed k raised =>
    simp only [step] at stepped
    split at stepped
    case h_1 waiting =>
      cases Option.some.inj stepped
      exact .turnedAway waiting
    case h_2 outcome waiting =>
      cases Option.some.inj stepped
      cases raised with
      | none => exact .released waiting (by simp)
      | some e =>
        cases caught : e.isConnectionOrCancelled with
        | true =>
          rw [finishAdmitted, if_pos caught]
          exact .released waiting (by simpa using caught)
        | false =>
          rw [finishAdmitted, if_neg (by simp [caught])]
          exact .leaked waiting caught
    case h_3 => contradiction

def Event.task : Event → Nat
  | .arrive k | .handled k _ | .waitClosed k _ => k

/-- The slot of one task agrees with its call. -/
def SlotExact (s : Server) (k : Nat) : Prop := k ∈ s.clientTasks ↔ (s.phase k).running

/-- What holds in every run: a running call keeps its slot and only admitted
calls ever had one, and the limit is never exceeded. -/
structure Tracked (s : Server) : Prop where
  held : ∀ k, (s.phase k).running → k ∈ s.clientTasks
  owned : ∀ k, k ∈ s.clientTasks → (s.phase k).admitted
  bounded : s.clientTasks.card ≤ s.maxClientConnections

@[simp] theorem enter_self (s : Server) (k : Nat) (p : Phase) : (s.enter k p).phase k = p := by
  simp [Server.enter]

theorem enter_other (s : Server) (p : Phase) (other : j ≠ k) :
    (s.enter k p).phase j = s.phase j := by
  simp [Server.enter, other]

@[simp] theorem enter_clientTasks (s : Server) (k : Nat) (p : Phase) :
    (s.enter k p).clientTasks = s.clientTasks := rfl

@[simp] theorem enter_maxClientConnections (s : Server) (k : Nat) (p : Phase) :
    (s.enter k p).maxClientConnections = s.maxClientConnections := rfl

/-- An event touches one task only. -/
theorem moves_frame (moved : Moves s event t) (other : j ≠ event.task) :
    t.phase j = s.phase j ∧ (j ∈ t.clientTasks ↔ j ∈ s.clientTasks) := by
  cases moved <;> simp only [Event.task, ne_eq] at other <;>
    simp [leaveHandler, finishRejected, discard, enter_other, other]

theorem slot_frame (moved : Moves s event t) (other : j ≠ event.task) :
    SlotExact t j ↔ SlotExact s j := by
  obtain ⟨phase, slot⟩ := moves_frame moved other
  rw [SlotExact, SlotExact, phase, slot]

theorem tracked_init (n : Nat) : Tracked (init n) := by
  constructor <;> simp [init, Phase.running]

theorem tracked_moves (tracked : Tracked s) (moved : Moves s event t) : Tracked t := by
  have frame := fun j => moves_frame (j := j) moved
  have bounded : t.clientTasks.card ≤ t.maxClientConnections := by
    have old := tracked.bounded
    cases moved with
    | admitted _ room =>
      exact (Finset.card_insert_le _ _).trans room
    | released _ _ => exact (Finset.card_erase_le).trans old
    | _ => exact old
  have self : ((t.phase event.task).running → event.task ∈ t.clientTasks) ∧
      (event.task ∈ t.clientTasks → (t.phase event.task).admitted) := by
    have held := tracked.held event.task
    have owned := tracked.owned event.task
    cases moved <;> simp only [Event.task] at held owned ⊢ <;>
      simp_all [leaveHandler, finishRejected, discard, Phase.running, Phase.admitted]
  refine ⟨fun j => ?_, fun j => ?_, bounded⟩ <;> by_cases other : j = event.task
  · exact other ▸ self.1
  · rw [(frame j other).1, (frame j other).2]
    exact tracked.held j
  · exact other ▸ self.2
  · rw [(frame j other).1, (frame j other).2]
    exact tracked.owned j

/-- Before an event the slot of its task is exact; after it the slot is exact
just when the event did not leak it. -/
theorem slot_moves (tracked : Tracked s) (moved : Moves s event t) :
    SlotExact s event.task ∧ (SlotExact t event.task ↔ closeCaught s event) := by
  have held := tracked.held event.task
  have owned := tracked.owned event.task
  cases moved with
  | rejected fresh _ | admitted fresh _ =>
    simp_all [SlotExact, closeCaught, Event.task, Phase.running, Phase.admitted]
  | left inside =>
    simp_all [SlotExact, closeCaught, Event.task, leaveHandler, Phase.running]
  | @turnedAway k raised waiting =>
    simp only [Event.task, waiting, Phase.admitted] at owned
    cases raised <;>
      simp_all [SlotExact, closeCaught, Event.task, finishRejected, Phase.running]
  | @released k outcome raised waiting caught =>
    simp only [Event.task, waiting, Phase.running, true_implies] at held
    cases raised <;>
      simp_all [SlotExact, closeCaught, Event.task, discard, Phase.running]
  | leaked waiting uncaught =>
    simp only [Event.task, waiting, Phase.running, true_implies] at held
    simp [SlotExact, closeCaught, Event.task, waiting, Phase.running, held, uncaught]

theorem exact_moves (tracked : Tracked s) (moved : Moves s event t) :
    (∀ k, SlotExact t k) ↔ (∀ k, SlotExact s k) ∧ closeCaught s event := by
  obtain ⟨before, after⟩ := slot_moves tracked moved
  constructor
  · intro agree
    refine ⟨fun k => ?_, after.mp (agree _)⟩
    by_cases other : k = event.task
    · exact other ▸ before
    · exact (slot_frame moved other).mp (agree k)
  · rintro ⟨agree, caught⟩ k
    by_cases other : k = event.task
    · exact other ▸ after.mpr caught
    · exact (slot_frame moved other).mpr (agree k)

theorem tracked_run (run : Run (byStep step) (init n) past s) : Tracked s :=
  run.invariant (tracked_init n) fun tracked stepped => tracked_moves tracked (step_moves stepped)

/-- The slots are exact after a run just when every close of an admitted
client in it was caught: a leaked slot never comes back. -/
theorem exact_run (run : Run (byStep step) (init n) past s) :
    (∀ k, SlotExact s k) ↔ Run (guarded (byStep step) (closeCaught · ·)) (init n) past s :=
  Run.guarded_iff (P := fun s => ∀ k, SlotExact s k) (by simp [SlotExact, init, Phase.running])
    tracked_run (fun tracked stepped => exact_moves tracked (step_moves stepped)) run

/-- Admission as the limit is meant: the slots are the running admitted calls,
and a client is turned away only while all slots are taken by such calls. -/
structure SlotsConserved (s : Server) : Prop where
  slots : ∀ k, k ∈ s.clientTasks ↔ (s.phase k).running
  bounded : s.clientTasks.card ≤ s.maxClientConnections
  rejects : ∀ k t, step s (.arrive k) = some t → t.phase k = .rejecting →
    ∃ calls : Finset Nat, calls.card = s.maxClientConnections ∧
      ∀ j, j ∈ calls ↔ (s.phase j).running

/-- The proxy conserves its admission slots in exactly those runs in which
every admitted client's socket closes without an exception, or with one that
the `finally` block of `client_connected` names. -/
theorem slots_conserved_iff (run : Run (byStep step) (init n) past s) :
    SlotsConserved s ↔ Run (guarded (byStep step) (closeCaught · ·)) (init n) past s := by
  rw [← exact_run run]
  constructor
  · exact fun conserved => conserved.slots
  · intro agree
    have bounded := (tracked_run run).bounded
    refine ⟨agree, bounded, fun k t arrived turned => ?_⟩
    cases step_moves arrived with
    | rejected _ full => exact ⟨s.clientTasks, Nat.le_antisymm bounded full, agree⟩
    | admitted _ _ => simp at turned

/-- A full server turns a client away, and releases its only slot although the
admitted client's connection was reset. -/
theorem reset_close_conserves :
    ∃ s, SlotsConserved s ∧ s.phase 1 = .finished none ∧ s.clientTasks = ∅ := by
  obtain ⟨s, replayed⟩ : ∃ s, replay (fun s e => if closeCaught s e then step s e else none)
      (init 1) [.arrive 0, .arrive 1, .handled 0 (some .exception),
        .waitClosed 1 (some .timeoutError), .waitClosed 0 (some .connectionError)] = some s :=
    ⟨_, rfl⟩
  have run := Run.of_replay_guarded replayed
  refine ⟨s, (slots_conserved_iff run.unguarded).mpr run, ?_⟩
  cases Option.some.inj replayed
  decide

/-- One connection lost by `TimeoutError` keeps its slot for ever: nothing runs
any more, and the next client is turned away. -/
theorem timed_out_close_leaks :
    ∃ s t, Run (byStep step) (init 1)
        [.waitClosed 0 (some .timeoutError), .handled 0 none, .arrive 0] s ∧
      (∀ k, (s.phase k).running = false) ∧
      step s (.arrive 1) = some t ∧ t.phase 1 = .rejecting ∧ ¬ SlotsConserved s := by
  obtain ⟨s, replayed⟩ : ∃ s, replay step (init 1)
      [.arrive 0, .handled 0 none, .waitClosed 0 (some .timeoutError)] = some s := ⟨_, rfl⟩
  have run := Run.of_replay replayed
  have held := (tracked_run run).held
  cases Option.some.inj replayed
  refine ⟨_, _, run, ?_, rfl, rfl, fun conserved => ?_⟩
  · intro k
    rw [Bool.eq_false_iff]
    intro running
    -- only task 0 holds a slot, and its call is finished
    obtain rfl : k = 0 := Finset.mem_singleton.mp (held k running)
    contradiction
  · have running := (conserved.slots 0).mp (by decide)
    contradiction

end HttpSocksProxy.Admission
