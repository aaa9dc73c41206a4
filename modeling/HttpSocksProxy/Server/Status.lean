import Mathlib.Algebra.Order.Field.Rat
import Mathlib.Data.List.DropRight
import Mathlib.Tactic.Linarith
import Mathlib.Tactic.Ring
import HttpSocksProxy.Foundation.History
import HttpSocksProxy.Foundation.OrderedDict

/-! `StatusMonitor`: what its counters, its log and its throughput tell of the calls
that the threads of the proxy have made, one at a time under its lock. -/
namespace HttpSocksProxy.Status

/-- The arithmetic is exact: what the code computes in floats are rational numbers here. -/
structure ThroughputTracker where
  window : Nat
  average : ℚ
  total : Nat
  lastUpdate : ℚ

namespace ThroughputTracker

def reset (now : ℚ) : ThroughputTracker := ⟨0, 0, 0, now⟩

def add (amount : Nat) (t : ThroughputTracker) : ThroughputTracker :=
  { t with window := t.window + amount, total := t.total + amount }

/-- `decay d` is `smoothing ** d`. -/
def update (decay : ℚ → ℚ) (now : ℚ) (t : ThroughputTracker) : (ℚ × Nat) × ThroughputTracker :=
  let duration := now - t.lastUpdate
  if duration < 1 / 10 then ((t.average, t.total), t)
  else
    let newSpeed := t.window / duration
    let smoothing := decay duration
    let average := smoothing * t.average + (1 - smoothing) * newSpeed
    ((average, t.total), { t with lastUpdate := now, average := average, window := 0 })

end ThroughputTracker

inductive Value where
  | none
  | text (s : String)
  | number (q : ℚ)
  deriving DecidableEq

structure StatusEvent where
  timestamp : String
  component : String
  severity : String
  message : String
  deriving DecidableEq, Repr

/-- The components of `_runtime` are kept apart from its other values. -/
structure StatusMonitor where
  inbound : ThroughputTracker
  outbound : ThroughputTracker
  numConnections : Nat
  messages : List String
  numErrors : Nat
  events : List StatusEvent
  runtime : OrderedDict String Value
  components : OrderedDict String String

structure Snapshot where
  inboundSpeed : ℚ
  inboundTotal : Nat
  outboundSpeed : ℚ
  outboundTotal : Nat
  connections : Nat
  errors : Nat
  messages : List String
  events : List StatusEvent
  runtime : OrderedDict String Value
  components : OrderedDict String String

/-- The times are what the clock reads for the two trackers. -/
inductive Call where
  | addInbound (nbytes : Nat)
  | addOutbound (nbytes : Nat)
  | addConnection
  | removeConnection
  | resetTraffic (times : ℚ × ℚ)
  | resetSession (times : ℚ × ℚ)
  | emit (message : String) (levelno : Nat) (structuredEvent : Bool)
  | addEvent (event : StatusEvent)
  | updateRuntime (values : OrderedDict String Value)
  | setComponent (name value : String)
  | getSnapshot (times : ℚ × ℚ)

def errorLevel : Nat := 40

namespace StatusMonitor

def initialRuntime : OrderedDict String Value :=
  [("state", .text "Stopped"), ("started_at", .none), ("stopped_at", .none), ("recovery_count", .number 0),
    ("last_recovery_reason", .text ""), ("last_error", .text ""), ("recovery_level", .number 0),
    ("proxy_interface", .text ""), ("inbound_state", .text ""), ("inbound_recovery_state", .text "IDLE"),
    ("inbound_no_ipv4_seconds", .number 0), ("inbound_deep_reset_count", .number 0),
    ("outbound_interface", .text ""), ("listener_bind", .text ""), ("local_addresses", .text ""),
    ("proxy_selection", .text "Auto"), ("outbound_selection", .text "Auto"),
    ("en2_diagnostic_log", .text "")].foldl (fun d e => d.set e.1 e.2) .empty

def init (times : ℚ × ℚ) : StatusMonitor where
  inbound := .reset times.1
  outbound := .reset times.2
  numConnections := 0
  messages := []
  numErrors := 0
  events := []
  runtime := initialRuntime
  components := .empty

def addEvent (e : StatusEvent) (s : StatusMonitor) : StatusMonitor :=
  -- a deque of 40 events drops the oldest
  let s := { s with events := (s.events ++ [e]).rtake 40 }
  if e.severity.toLower = "error" then
    { s with numErrors := s.numErrors + 1, runtime := s.runtime.set "last_error" (.text e.message) }
  else s

def emit (message : String) (levelno : Nat) (structuredEvent : Bool) (s : StatusMonitor) : StatusMonitor :=
  let messages := s.messages ++ [message]
  let s := { s with messages := if 5 < messages.length then messages.rtake 5 else messages }
  if errorLevel ≤ levelno ∧ !structuredEvent then { s with numErrors := s.numErrors + 1 } else s

def resetTraffic (times : ℚ × ℚ) (s : StatusMonitor) : StatusMonitor :=
  { s with inbound := .reset times.1, outbound := .reset times.2, numConnections := 0 }

def resetSession (times : ℚ × ℚ) (s : StatusMonitor) : StatusMonitor :=
  { s with
    inbound := .reset times.1, outbound := .reset times.2, numConnections := 0
    numErrors := 0, messages := [], events := []
    runtime := [("stopped_at", .none), ("recovery_count", .number 0), ("last_recovery_reason", .text ""),
      ("last_error", .text ""), ("recovery_level", .number 0)].foldl (fun d e => d.set e.1 e.2) s.runtime
    components := .empty }

def getSnapshot (decay : ℚ → ℚ) (times : ℚ × ℚ) (s : StatusMonitor) : Snapshot × StatusMonitor :=
  let ((inboundAverage, inboundTotal), inbound) := s.inbound.update decay times.1
  let ((outboundAverage, outboundTotal), outbound) := s.outbound.update decay times.2
  (⟨inboundAverage, inboundTotal, outboundAverage, outboundTotal, s.numConnections, s.numErrors, s.messages,
    s.events, s.runtime, s.components⟩, { s with inbound := inbound, outbound := outbound })

def handle (decay : ℚ → ℚ) (s : StatusMonitor) : Call → StatusMonitor
  | .addInbound nbytes => { s with inbound := s.inbound.add nbytes }
  | .addOutbound nbytes => { s with outbound := s.outbound.add nbytes }
  | .addConnection => { s with numConnections := s.numConnections + 1 }
  | .removeConnection => { s with numConnections := s.numConnections - 1 }
  | .resetTraffic times => s.resetTraffic times
  | .resetSession times => s.resetSession times
  | .emit message levelno structuredEvent => s.emit message levelno structuredEvent
  | .addEvent e => s.addEvent e
  | .updateRuntime values => { s with runtime := s.runtime.update values }
  | .setComponent name value => { s with components := s.components.set name value }
  | .getSnapshot times => (s.getSnapshot decay times).2

/-- After these calls, the newest first. -/
def after (decay : ℚ → ℚ) (start : ℚ × ℚ) : List Call → StatusMonitor
  | [] => init start
  | call :: earlier => (after decay start earlier).handle decay call

end StatusMonitor

namespace Call

def endsTraffic : Call → Bool
  | .resetTraffic _ | .resetSession _ => true
  | _ => false

def endsSession : Call → Bool
  | .resetSession _ => true
  | _ => false

def inboundBytes : Call → Nat
  | .addInbound nbytes => nbytes
  | _ => 0

def outboundBytes : Call → Nat
  | .addOutbound nbytes => nbytes
  | _ => 0

def isError : Call → Bool
  | .emit _ levelno structuredEvent => errorLevel ≤ levelno ∧ !structuredEvent
  | .addEvent e => e.severity.toLower = "error"
  | _ => false

def message : Call → Option String
  | .emit message _ _ => some message
  | _ => none

def event : Call → Option StatusEvent
  | .addEvent e => some e
  | _ => none

/-- What a call makes of the last error. -/
def lastError : Call → Option Value
  | .resetSession _ => some (.text "")
  | .addEvent e => if e.severity.toLower = "error" then some (.text e.message) else none
  | .updateRuntime values => values.get? "last_error"
  | _ => none

end Call

/-- The newest `n` things that a session has brought, oldest first. -/
def newest (n : Nat) (thing : Call → Option A) (calls : List Call) : List A :=
  (((History.episode Call.endsSession calls).filterMap thing).take n).reverse

def transferred (bytes : Call → Nat) (calls : List Call) : Nat :=
  ((History.episode Call.endsTraffic calls).map bytes).sum

theorem transferred_cons (bytes : Call → Nat) (call : Call) (calls : List Call) :
    transferred bytes (call :: calls) =
      if call.endsTraffic then 0 else bytes call + transferred bytes calls := by
  rw [transferred, History.episode_cons]
  split
  · rfl
  · exact List.sum_cons

theorem length_newest (n : Nat) (thing : Call → Option A) (calls : List Call) :
    (newest n thing calls).length ≤ n := by
  rw [newest, List.length_reverse]
  exact List.length_take_le _ _

theorem rtake_all {l : List A} (short : l.length ≤ n) : l.rtake n = l := by
  rw [List.rtake, Nat.sub_eq_zero_of_le short, List.drop_zero]

theorem newest_cons (n : Nat) (thing : Call → Option A) (call : Call) (calls : List Call) :
    newest n thing (call :: calls) =
      if call.endsSession then [] else (newest n thing calls ++ (thing call).toList).rtake n := by
  by_cases ends : call.endsSession = true
  · rw [newest, History.episode_cons, if_pos ends, if_pos ends, List.filterMap_nil, List.take_nil, List.reverse_nil]
  · rw [if_neg ends]
    cases brought : thing call with
    | none =>
      have same : newest n thing (call :: calls) = newest n thing calls := by
        rw [newest, History.episode_cons, if_neg ends, List.filterMap_cons, brought]
        rfl
      rw [same, Option.toList_none, List.append_nil, rtake_all (length_newest n thing calls)]
    | some x =>
      rw [newest, History.episode_cons, if_neg ends, List.filterMap_cons, brought,
        List.rtake_eq_reverse_take_reverse, newest, Option.toList_some, List.reverse_append, List.reverse_reverse,
        List.reverse_singleton, List.singleton_append]
      cases n with
      | zero => rfl
      | succ n => rw [List.take_succ_cons, List.take_succ_cons, List.take_take, Nat.min_eq_left (Nat.le_succ n)]

@[simp] theorem emit_frame (s : StatusMonitor) (message : String) (levelno : Nat) (structuredEvent : Bool) :
    (s.emit message levelno structuredEvent).inbound = s.inbound ∧
      (s.emit message levelno structuredEvent).outbound = s.outbound ∧
      (s.emit message levelno structuredEvent).numConnections = s.numConnections ∧
      (s.emit message levelno structuredEvent).events = s.events ∧
      (s.emit message levelno structuredEvent).runtime = s.runtime := by
  simp only [StatusMonitor.emit]
  split <;> exact ⟨rfl, rfl, rfl, rfl, rfl⟩

@[simp] theorem addEvent_frame (s : StatusMonitor) (e : StatusEvent) :
    (s.addEvent e).inbound = s.inbound ∧ (s.addEvent e).outbound = s.outbound ∧
      (s.addEvent e).numConnections = s.numConnections ∧ (s.addEvent e).messages = s.messages := by
  simp only [StatusMonitor.addEvent]
  split <;> exact ⟨rfl, rfl, rfl, rfl⟩

variable {decay : ℚ → ℚ} {start : ℚ × ℚ}

theorem update_total (now : ℚ) (t : ThroughputTracker) :
    (t.update decay now).1.2 = t.total ∧ (t.update decay now).2.total = t.total := by
  simp only [ThroughputTracker.update]
  split <;> exact ⟨rfl, rfl⟩

theorem messages_after (calls : List Call) :
    (StatusMonitor.after decay start calls).messages = newest 5 Call.message calls := by
  induction calls with
  | nil => rfl
  | cons call calls ih =>
    have short := rtake_all (length_newest 5 Call.message calls)
    rw [newest_cons, StatusMonitor.after]
    cases call with
    | emit message levelno structuredEvent =>
      have appended : ∀ l : List String, (if 5 < l.length then l.rtake 5 else l) = l.rtake 5 := by
        intro l
        split
        · rfl
        · exact (rtake_all (Nat.le_of_not_lt ‹_›)).symm
      simp only [StatusMonitor.handle, StatusMonitor.emit, appended, ih]
      split <;> rfl
    | resetSession times => rfl
    | resetTraffic times =>
      simpa [StatusMonitor.handle, StatusMonitor.resetTraffic, Call.message, Call.endsSession, short] using ih
    | getSnapshot times =>
      simpa [StatusMonitor.handle, StatusMonitor.getSnapshot, Call.message, Call.endsSession, short] using ih
    | _ => simpa [StatusMonitor.handle, Call.message, Call.endsSession, short] using ih

theorem events_after (calls : List Call) :
    (StatusMonitor.after decay start calls).events = newest 40 Call.event calls := by
  induction calls with
  | nil => rfl
  | cons call calls ih =>
    have short := rtake_all (length_newest 40 Call.event calls)
    rw [newest_cons, StatusMonitor.after]
    cases call with
    | addEvent e =>
      simp only [StatusMonitor.handle, StatusMonitor.addEvent, ih]
      split <;> rfl
    | resetSession times => rfl
    | resetTraffic times =>
      simpa [StatusMonitor.handle, StatusMonitor.resetTraffic, Call.event, Call.endsSession, short] using ih
    | getSnapshot times =>
      simpa [StatusMonitor.handle, StatusMonitor.getSnapshot, Call.event, Call.endsSession, short] using ih
    | _ => simpa [StatusMonitor.handle, Call.event, Call.endsSession, short] using ih

theorem errors_after (calls : List Call) : (StatusMonitor.after decay start calls).numErrors =
    History.tally Call.endsSession Call.isError calls := by
  induction calls with
  | nil => rfl
  | cons call calls ih =>
    rw [History.tally_cons, StatusMonitor.after, ← ih]
    cases call with
    | emit message levelno structuredEvent =>
      simp only [StatusMonitor.handle, StatusMonitor.emit, Call.endsSession, Call.isError]
      split <;> simp_all
    | addEvent e =>
      simp only [StatusMonitor.handle, StatusMonitor.addEvent, Call.endsSession, Call.isError]
      split <;> simp_all
    | _ => rfl

theorem transferred_after (calls : List Call) :
    (StatusMonitor.after decay start calls).inbound.total = transferred Call.inboundBytes calls ∧
      (StatusMonitor.after decay start calls).outbound.total = transferred Call.outboundBytes calls := by
  induction calls with
  | nil => exact ⟨rfl, rfl⟩
  | cons call calls ih =>
    obtain ⟨inbound, outbound⟩ := ih
    rw [transferred_cons, transferred_cons, StatusMonitor.after, ← inbound, ← outbound]
    cases call with
    | addInbound nbytes => exact ⟨Nat.add_comm _ _, (Nat.zero_add _).symm⟩
    | addOutbound nbytes => exact ⟨(Nat.zero_add _).symm, Nat.add_comm _ _⟩
    | resetTraffic times => exact ⟨rfl, rfl⟩
    | resetSession times => exact ⟨rfl, rfl⟩
    | emit message levelno structuredEvent =>
      simp [StatusMonitor.handle, Call.endsTraffic, Call.inboundBytes, Call.outboundBytes]
    | addEvent e => simp [StatusMonitor.handle, Call.endsTraffic, Call.inboundBytes, Call.outboundBytes]
    | getSnapshot times =>
      simp only [StatusMonitor.handle, StatusMonitor.getSnapshot, update_total]
      exact ⟨(Nat.zero_add _).symm, (Nat.zero_add _).symm⟩
    | _ => exact ⟨(Nat.zero_add _).symm, (Nat.zero_add _).symm⟩

theorem lastError_after (calls : List Call) :
    (StatusMonitor.after decay start calls).runtime.get? "last_error" =
      some ((calls.findSome? Call.lastError).getD (.text "")) := by
  induction calls with
  | nil =>
    change StatusMonitor.initialRuntime.get? "last_error" = some (.text "")
    decide +kernel
  | cons call calls ih =>
    rw [List.findSome?_cons, StatusMonitor.after]
    cases call with
    | addEvent e =>
      simp only [StatusMonitor.handle, StatusMonitor.addEvent, Call.lastError]
      split
      · simp [OrderedDict.get?_set]
      · exact ih
    | resetSession times =>
      simp [StatusMonitor.handle, StatusMonitor.resetSession, Call.lastError, OrderedDict.get?_set]
    | updateRuntime values =>
      simp only [StatusMonitor.handle, OrderedDict.get?_update, Call.lastError]
      cases values.get? "last_error" with
      | none => exact ih
      | some value => rfl
    | emit message levelno structuredEvent => simpa [StatusMonitor.handle, Call.lastError] using ih
    | _ => exact ih

/-- What a snapshot shows of the log and the totals is what the calls of the session
have brought: the newest messages and events, every error once, every byte since
the last reset. -/
theorem snapshot_reflects (calls : List Call) (times : ℚ × ℚ) :
    let snapshot := ((StatusMonitor.after decay start calls).getSnapshot decay times).1
    snapshot.messages = newest 5 Call.message calls ∧
      snapshot.events = newest 40 Call.event calls ∧
      snapshot.errors = History.tally Call.endsSession Call.isError calls ∧
      snapshot.inboundTotal = transferred Call.inboundBytes calls ∧
      snapshot.outboundTotal = transferred Call.outboundBytes calls ∧
      snapshot.runtime.get? "last_error" = some ((calls.findSome? Call.lastError).getD (.text "")) := by
  obtain ⟨inbound, outbound⟩ : (StatusMonitor.after decay start calls).inbound.total = _ ∧
    (StatusMonitor.after decay start calls).outbound.total = _ := transferred_after calls
  refine ⟨messages_after calls, events_after calls, errors_after calls, ?_, ?_, lastError_after calls⟩
  · exact (update_total times.1 _).1.trans inbound
  · exact (update_total times.2 _).1.trans outbound

namespace Call

def opens : Call → Bool
  | .addConnection => true
  | _ => false

def closes : Call → Bool
  | .removeConnection => true
  | _ => false

end Call

def opened (calls : List Call) : Nat := calls.countP Call.opens

def closed (calls : List Call) : Nat := calls.countP Call.closes

/-- A connection is removed only after it was added. -/
def Paired : List Call → Prop := History.Each fun call earlier => call.closes = true → closed earlier < opened earlier

/-- The counters are reset only while no connection is open. -/
def ResetIdle : List Call → Prop :=
  History.Each fun call earlier => call.endsTraffic = true → closed earlier = opened earlier

theorem opened_cons (call : Call) (calls : List Call) :
    opened (call :: calls) = opened calls + if call.opens then 1 else 0 := List.countP_cons

theorem closed_cons (call : Call) (calls : List Call) :
    closed (call :: calls) = closed calls + if call.closes then 1 else 0 := List.countP_cons

theorem Paired.closed_le (paired : Paired calls) : closed calls ≤ opened calls := by
  induction calls with
  | nil => exact Nat.le_refl 0
  | cons call calls ih =>
    obtain ⟨pairs, paired⟩ := History.each_cons.mp paired
    have := ih paired
    rw [opened_cons, closed_cons]
    cases closes : call.closes with
    | true =>
      have := pairs closes
      rw [if_pos rfl]
      omega
    | false =>
      rw [if_neg Bool.false_ne_true]
      omega

/-- The number of connections is never more than are open, and it is exact unless
the counters are reset under an open connection. -/
theorem connections_shown (calls : List Call) (paired : Paired calls) :
    (StatusMonitor.after decay start calls).numConnections ≤ opened calls - closed calls ∧
      (ResetIdle calls → (StatusMonitor.after decay start calls).numConnections + closed calls = opened calls) := by
  induction calls with
  | nil => exact ⟨Nat.le_refl 0, fun _ => rfl⟩
  | cons call calls ih =>
    obtain ⟨pairs, earlier⟩ := History.each_cons.mp paired
    obtain ⟨below, exact⟩ := ih earlier
    have order : closed calls ≤ opened calls := Paired.closed_le earlier
    rw [opened_cons, closed_cons, StatusMonitor.after]
    simp only [ResetIdle, History.each_cons] at exact ⊢
    cases call with
    | addConnection =>
      simp only [StatusMonitor.handle, Call.opens, Call.closes, Bool.false_eq_true, if_true, if_false]
      exact ⟨by omega, fun idle => by have := exact idle.2; omega⟩
    | removeConnection =>
      have := pairs rfl
      simp only [StatusMonitor.handle, Call.opens, Call.closes, Bool.false_eq_true, if_true, if_false]
      exact ⟨by omega, fun idle => by have := exact idle.2; omega⟩
    | resetTraffic times => exact ⟨Nat.zero_le _, fun idle => (Nat.zero_add _).trans (idle.1 rfl)⟩
    | resetSession times => exact ⟨Nat.zero_le _, fun idle => (Nat.zero_add _).trans (idle.1 rfl)⟩
    | emit message levelno structuredEvent =>
      rw [StatusMonitor.handle, (emit_frame _ _ _ _).2.2.1]
      exact ⟨below, fun idle => exact idle.2⟩
    | addEvent e =>
      rw [StatusMonitor.handle, (addEvent_frame _ _).2.2.1]
      exact ⟨below, fun idle => exact idle.2⟩
    | _ => exact ⟨below, fun idle => exact idle.2⟩

/-- One of two connections has been closed. -/
theorem connections_shown_one :
    let s := StatusMonitor.after (fun _ => 1) (0, 0) [.removeConnection, .addConnection, .addConnection]
    s.numConnections ≤ 1 ∧ s.numConnections + 1 = 2 :=
  have paired : Paired [.removeConnection, .addConnection, .addConnection] := by
    simp [Paired, Call.closes, closed, opened, Call.opens]
  have idle : ResetIdle [.removeConnection, .addConnection, .addConnection] := by
    simp [ResetIdle, Call.endsTraffic]
  ⟨(connections_shown _ paired).1, (connections_shown _ paired).2 idle⟩

/-- The average over windows of so many bytes in so many seconds, newest first. -/
def smooth (decay : ℚ → ℚ) : List (Nat × ℚ) → ℚ
  | [] => 0
  | (bytes, seconds) :: earlier =>
    decay seconds * smooth decay earlier + (1 - decay seconds) * (bytes / seconds)

/-- The windows into which a tracker has divided the bytes since its reset at `start`. -/
structure Windowed (decay : ℚ → ℚ) (bytes : Nat) (windows : List (Nat × ℚ)) (t : ThroughputTracker) : Prop where
  long : ∀ w ∈ windows, 1 / 10 ≤ w.2
  conserved : (windows.map Prod.fst).sum + t.window = bytes
  total : t.total = bytes
  average : t.average = smooth decay windows

theorem Windowed.update (windowed : Windowed decay bytes windows t) (now : ℚ) :
    ∃ windows, Windowed decay bytes windows (t.update decay now).2 ∧
      (t.update decay now).1 = ((t.update decay now).2.average, bytes) := by
  obtain ⟨long, conserved, total, average⟩ := windowed
  simp only [ThroughputTracker.update]
  split
  case isTrue => exact ⟨windows, ⟨long, conserved, total, average⟩, by rw [total]⟩
  case isFalse enough =>
    refine ⟨(t.window, now - t.lastUpdate) :: windows, ⟨?_, ?_, total, ?_⟩, by rw [total]⟩
    · exact List.forall_mem_cons.mpr ⟨not_lt.mp enough, long⟩
    · simp only [List.map_cons, List.sum_cons, ← conserved]
      omega
    · rw [smooth, average]

theorem Windowed.add (windowed : Windowed decay bytes windows t) (amount : Nat) :
    Windowed decay (amount + bytes) windows (t.add amount) := by
  obtain ⟨long, conserved, total, average⟩ := windowed
  refine ⟨long, ?_, ?_, average⟩
  · simp only [ThroughputTracker.add]
    omega
  · simp only [ThroughputTracker.add]
    omega

end HttpSocksProxy.Status
