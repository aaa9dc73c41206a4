import HttpSocksProxy.Foundation.Transition
import HttpSocksProxy.Socks.Association
import HttpSocksProxy.Socks.Endpoints

/-! The end of a UDP association, callback by callback: the tasks that
`UdpForwarderProtocol` makes of datagrams, their cancellation by `connection_lost`,
and `UdpForwarder.close` among them. Every step refines one of the forwarder. -/
namespace HttpSocksProxy.Closing
open AgingTable InetText Udp Transition
open Endpoints (Endpoint)

/-- Where the task of a datagram stands. -/
inductive Phase where
  | absent
  | created (endpoint : Endpoint) (data : List UInt8) (sender : SocketAddress)
  | resolving (endpoint : Endpoint)
  | done (endpoint : Endpoint)
  deriving DecidableEq

/-- `resolving` are the tasks that wait for DNS, in the order of the forwarder's own
list; `tasks` are the sets `_tasks`, and `lost` says where `connection_lost` has run. -/
structure State where
  forwarder : Udp.State
  phase : Nat → Phase
  resolving : List Nat
  tasks : Endpoint → Finset Nat
  cancelled : Finset Nat
  opened : Endpoint → Bool
  lost : Endpoint → Bool

def State.init (now : ℚ) : State where
  forwarder := .init now
  phase _ := .absent
  resolving := []
  tasks _ := ∅
  cancelled := ∅
  opened _ := false
  lost _ := false

/-- A task that was cancelled is resumed with a `CancelledError`, or with the answer if
that was there already. -/
inductive Event where
  | opened (endpoint : Endpoint)
  | datagramReceived (endpoint : Endpoint) (task : Nat) (data : List UInt8) (sender : SocketAddress)
  | firstRun (task : Nat)
  | resolved (task : Nat) (answers : Option DnsAnswers)
  | cancelled (task : Nat)
  | doneCallback (task : Nat)
  | connectionLost (endpoint : Endpoint)
  | passed (seconds : ℚ)
  | close

def opening : Endpoint → Udp.Event
  | .client => .openedClient
  | .server f => .openedServer f

def State.enter (s : State) (task : Nat) (phase : Phase) : State :=
  { s with phase := Function.update s.phase task phase }

/-- The coroutine of a datagram, up to its first await or its end. -/
def method (data : List UInt8) (sender : SocketAddress) : Endpoint → Udp.Event
  | .client => .clientDatagram data sender
  | .server f => .serverDatagram f data sender

/-- A coroutine that waits for DNS has left its call with the forwarder. -/
def afterRun (s : State) (task : Nat) (endpoint : Endpoint) (forwarder : Udp.State) : State :=
  if s.forwarder.pending.length < forwarder.pending.length then
    { s.enter task (.resolving endpoint) with forwarder, resolving := s.resolving ++ [task] }
  else { s.enter task (.done endpoint) with forwarder }

/-- A coroutine that has waited for DNS ends. -/
def afterWait (s : State) (task : Nat) (endpoint : Endpoint) (forwarder : Udp.State) : State :=
  { s.enter task (.done endpoint) with
    forwarder, resolving := s.resolving.erase task }

/-- `UdpForwarderProtocol.datagram_received`. -/
def datagramReceived (maxPendingTasks : Nat) (s : State) (endpoint : Endpoint) (task : Nat)
    (data : List UInt8) (sender : SocketAddress) : State :=
  if maxPendingTasks ≤ (s.tasks endpoint).card then s
  else { s.enter task (.created endpoint data sender) with
    tasks := Function.update s.tasks endpoint (insert task (s.tasks endpoint)) }

/-- `UdpForwarderProtocol.connection_lost`. -/
def connectionLost (s : State) (endpoint : Endpoint) : State :=
  { s with
    cancelled := s.cancelled ∪ s.tasks endpoint
    tasks := Function.update s.tasks endpoint ∅
    lost := Function.update s.lost endpoint true }

/-- The done callback `_tasks.discard`. -/
def discard (s : State) (endpoint : Endpoint) (task : Nat) : State :=
  { s with tasks := Function.update s.tasks endpoint ((s.tasks endpoint).erase task) }

/-- `UdpForwarder.close`. -/
def close (s : State) : State := { s with forwarder := closeAll s.forwarder }

/-- The forwarder takes a step. -/
def act (cfg : Config) (s : State) (event : Udp.Event) (after : Udp.State → State) :
    Option (List Output × State) :=
  (handle cfg s.forwarder event).map fun (outputs, forwarder) => (outputs, after forwarder)

def step (cfg : Config) (maxPendingTasks : Nat) (s : State) : Event → Option (List Output × State)
  | .opened endpoint =>
    if s.opened endpoint then none
    else act cfg s (opening endpoint) fun forwarder =>
      { s with forwarder, opened := Function.update s.opened endpoint true }
  | .datagramReceived endpoint task data sender =>
    if s.opened endpoint ∧ s.lost endpoint = false ∧ s.phase task = .absent then
      some ([], datagramReceived maxPendingTasks s endpoint task data sender)
    else none
  | .firstRun task =>
    match s.phase task with
    | .created endpoint data sender =>
      -- the coroutine of a task that is cancelled before its first run never runs
      if task ∈ s.cancelled then some ([], s.enter task (.done endpoint))
      else act cfg s (method data sender endpoint) (afterRun s task endpoint)
    | _ => none
  | .resolved task answers =>
    match s.phase task with
    | .resolving endpoint =>
      act cfg s (.resolved (s.resolving.idxOf task) answers) (afterWait s task endpoint)
    | _ => none
  | .cancelled task =>
    match s.phase task with
    | .resolving endpoint =>
      if task ∈ s.cancelled then
        act cfg s (.cancelled (s.resolving.idxOf task)) (afterWait s task endpoint)
      else none
    | _ => none
  | .doneCallback task =>
    match s.phase task with
    | .done endpoint => some ([], discard s endpoint task)
    | _ => none
  | .connectionLost endpoint =>
    if s.opened endpoint ∧ s.lost endpoint = false then some ([], connectionLost s endpoint) else none
  | .passed seconds => act cfg s (.passed seconds) fun forwarder => { s with forwarder }
  | .close => some ([], close s)

/-- A datagram goes out on an endpoint. -/
def sends : Output → Bool
  | .upstream _ _ _ | .client _ _ => true
  | .mapped _ | .evicted _ | .outbound _ | .inbound _ => false

/-- What `close` leaves of a forwarder. -/
structure Inert (s : Udp.State) : Prop where
  connections : s.connections = []
  clientConn : s.clientConn = false
  serverConn : ∀ f, s.serverConn f = false
  closed : s.closed = true

section Forwarder
variable {cfg : Config} {s t : Udp.State}

theorem inert_closeAll (s : Udp.State) : Inert (closeAll s) where
  connections := rfl
  clientConn := rfl
  serverConn f := by cases f <;> rfl
  closed := rfl

theorem inert_prelude (inert : Inert s) (moved : Prelude cfg s event u) : Inert u := by
  obtain ⟨connections, client, server, closed⟩ := inert
  have expired : expire cfg.mappingTtl s.now s.connections = [] := by rw [connections]; rfl
  cases moved with
  | openedClient opened => simp [closed] at opened
  | openedServer there => simp [client] at there
  | admitted | waiting | expired => exact ⟨expired, client, server, closed⟩
  | _ => exact ⟨connections, client, server, closed⟩

/-- Whatever a task does after `close`, the forwarder stays inert and sends nothing. -/
theorem inert_handle (inert : Inert s) (handled : handle cfg s event = some (outputs, t)) :
    Inert t ∧ ∀ o ∈ outputs, sends o = false := by
  have within : s.connections.length ≤ cfg.maxMappings := by simp [inert.connections]
  rcases handle_effect within handled with ⟨_, rfl, rfl⟩ | ⟨u, moved, finish⟩
  · exact ⟨inert_closeAll s, by simp⟩
  · have inert := inert_prelude inert moved
    cases finish with
    | quiet plain =>
      refine ⟨inert, fun o member => ?_⟩
      obtain ⟨n, rfl⟩ := plain o member
      rfl
    | forwarded _ _ there =>
      rw [inert.serverConn] at there
      cases there
    | replied _ present => simp [inert.connections] at present

theorem opening_pending (handled : handle cfg s (opening endpoint) = some (outputs, t)) :
    t.pending = s.pending := by
  cases endpoint with
  | client =>
    simp only [opening, handle, Option.ite_none_left_eq_some, Option.some.injEq, Prod.mk.injEq] at handled
    rw [← handled.2.2]
  | server f =>
    simp only [opening, handle, Option.ite_none_right_eq_some, Option.some.injEq, Prod.mk.injEq] at handled
    rw [← handled.2.2]
    cases f <;> rfl

theorem forward_pending : (forward cfg s payload client resolved).2.pending = s.pending := by
  unfold forward
  split <;> rfl

/-- A client's datagram makes one call wait at most. -/
theorem onClientDatagram_pending (cfg : Config) (s : Udp.State) (data : List UInt8)
    (sender : SocketAddress) : (onClientDatagram cfg s data sender).2.pending = s.pending ∨
    ∃ call, (onClientDatagram cfg s data sender).2.pending = s.pending ++ [call] := by
  unfold onClientDatagram
  split
  case h_1 => exact .inl rfl
  case h_2 u allowed =>
    obtain ⟨_, _, rfl⟩ := clientAllowed_some allowed
    dsimp only
    split
    case h_1 => exact .inl rfl
    case h_2 =>
      split
      case h_1 => exact .inr ⟨_, rfl⟩
      case h_2 => exact .inl forward_pending

theorem onServerDatagram_pending (cfg : Config) (s : Udp.State) (f : Family) (data : List UInt8)
    (sender : SocketAddress) : (onServerDatagram cfg s f data sender).2.pending = s.pending := by
  unfold onServerDatagram
  dsimp only
  split <;> rfl

end Forwarder

section Steps
variable {cfg : Config} {maxPendingTasks : Nat} {s t : State}

theorem act_some (acted : act cfg s event after = some (outputs, t)) :
    ∃ forwarder, handle cfg s.forwarder event = some (outputs, forwarder) ∧ t = after forwarder := by
  obtain ⟨⟨_, forwarder⟩, handled, same⟩ := Option.map_eq_some_iff.mp acted
  cases same
  exact ⟨forwarder, handled, rfl⟩

theorem act_handle (acted : act cfg s event after = some (outputs, t))
    (keeps : ∀ forwarder, (after forwarder).forwarder = forwarder) :
    handle cfg s.forwarder event = some (outputs, t.forwarder) := by
  obtain ⟨forwarder, handled, rfl⟩ := act_some acted
  rw [handled, keeps]

theorem afterRun_forwarder (s : State) (task : Nat) (endpoint : Endpoint) (forwarder : Udp.State) :
    (afterRun s task endpoint forwarder).forwarder = forwarder := by
  unfold afterRun
  split <;> rfl

/-- A callback does what one event of the forwarder does, or nothing to it. -/
theorem step_refines (stepped : step cfg maxPendingTasks s event = some (outputs, t)) :
    outputs = [] ∧ t.forwarder = s.forwarder ∨
      ∃ moved, handle cfg s.forwarder moved = some (outputs, t.forwarder) := by
  cases event with
  | opened endpoint =>
    simp only [step] at stepped
    split at stepped
    case isTrue => cases stepped
    case isFalse => exact .inr ⟨_, act_handle stepped fun _ => rfl⟩
  | datagramReceived endpoint task data sender =>
    simp only [step, Option.ite_none_right_eq_some, Option.some.injEq, Prod.mk.injEq] at stepped
    obtain ⟨_, rfl, rfl⟩ := stepped
    refine .inl ⟨rfl, ?_⟩
    unfold datagramReceived
    split <;> rfl
  | firstRun task =>
    simp only [step] at stepped
    split at stepped
    case h_1 endpoint data sender _ =>
      split at stepped
      case isTrue =>
        cases stepped
        exact .inl ⟨rfl, rfl⟩
      case isFalse => exact .inr ⟨_, act_handle stepped (afterRun_forwarder s task endpoint)⟩
    case h_2 => cases stepped
  | resolved task answers =>
    simp only [step] at stepped
    split at stepped
    case h_1 => exact .inr ⟨_, act_handle stepped fun _ => rfl⟩
    case h_2 => cases stepped
  | cancelled task =>
    simp only [step] at stepped
    split at stepped
    case h_1 =>
      split at stepped
      case isTrue => exact .inr ⟨_, act_handle stepped fun _ => rfl⟩
      case isFalse => cases stepped
    case h_2 => cases stepped
  | doneCallback task =>
    simp only [step] at stepped
    split at stepped
    case h_1 =>
      cases stepped
      exact .inl ⟨rfl, rfl⟩
    case h_2 => cases stepped
  | connectionLost endpoint =>
    simp only [step, Option.ite_none_right_eq_some, Option.some.injEq, Prod.mk.injEq] at stepped
    obtain ⟨_, rfl, rfl⟩ := stepped
    exact .inl ⟨rfl, rfl⟩
  | passed seconds =>
    simp only [step] at stepped
    exact .inr ⟨_, act_handle stepped fun _ => rfl⟩
  | close =>
    cases stepped
    exact .inr ⟨.close, rfl⟩

/-- The tasks that wait for DNS are those whose call the forwarder holds. -/
structure Parallel (s : State) : Prop where
  same : s.resolving.length = s.forwarder.pending.length
  known : ∀ task endpoint, s.phase task = .resolving endpoint → task ∈ s.resolving

theorem Parallel.enter (parallel : Parallel s) (task : Nat) (phase : Phase)
    (other : ∀ endpoint, phase ≠ .resolving endpoint) : Parallel (s.enter task phase) where
  same := parallel.same
  known k endpoint waits := by
    by_cases this : k = task
    · subst this
      simp only [State.enter, Function.update_self] at waits
      exact absurd waits (other endpoint)
    · simp only [State.enter, Function.update_of_ne this] at waits
      exact parallel.known k endpoint waits

theorem parallel_afterWait (parallel : Parallel s) (waits : s.phase task = .resolving endpoint)
    (taken : forwarder.pending = s.forwarder.pending.eraseIdx (s.resolving.idxOf task)) :
    Parallel (afterWait s task endpoint forwarder) := by
  have member := parallel.known task endpoint waits
  have entered := parallel.enter task (.done endpoint) nofun
  refine ⟨?_, fun k other resolving => ?_⟩
  · have inside := List.idxOf_lt_length_of_mem member
    simp only [afterWait, taken, List.length_erase_of_mem member, List.length_eraseIdx]
    rw [if_pos (parallel.same ▸ inside), parallel.same]
  · have apart : k ≠ task := by
      rintro rfl
      simp [afterWait, State.enter] at resolving
    exact (List.mem_erase_of_ne apart).mpr (entered.known k other resolving)

theorem parallel_afterRun (parallel : Parallel s) (grown : forwarder.pending = s.forwarder.pending ∨
      ∃ call, forwarder.pending = s.forwarder.pending ++ [call]) :
    Parallel (afterRun s task endpoint forwarder) := by
  have entered := parallel.enter task (.done endpoint) nofun
  rcases grown with same | ⟨call, same⟩
  · rw [afterRun, if_neg (by simp [same])]
    exact ⟨by rw [same]; exact parallel.same, entered.known⟩
  · rw [afterRun, if_pos (by simp [same])]
    refine ⟨by simp [same, parallel.same], fun k other resolving => ?_⟩
    by_cases this : k = task
    · simp [this]
    · simp only [State.enter, Function.update_of_ne this] at resolving
      exact List.mem_append_left _ (parallel.known k other resolving)

theorem method_pending
    (ran : handle cfg s.forwarder (method data sender endpoint) = some (outputs, forwarder)) :
    forwarder.pending = s.forwarder.pending ∨
      ∃ call, forwarder.pending = s.forwarder.pending ++ [call] := by
  cases endpoint with
  | client =>
    have result : onClientDatagram cfg s.forwarder data sender = (outputs, forwarder) := Option.some.inj ran
    simpa only [result] using onClientDatagram_pending cfg s.forwarder data sender
  | server f =>
    have result : onServerDatagram cfg s.forwarder f data sender = (outputs, forwarder) := Option.some.inj ran
    have kept := onServerDatagram_pending cfg s.forwarder f data sender
    rw [result] at kept
    exact .inl kept

theorem parallel_step (parallel : Parallel s)
    (stepped : step cfg maxPendingTasks s event = some (outputs, t)) : Parallel t := by
  cases event with
  | opened endpoint =>
    simp only [step] at stepped
    split at stepped
    case isTrue => cases stepped
    case isFalse =>
      obtain ⟨forwarder, handled, rfl⟩ := act_some stepped
      exact ⟨(opening_pending handled).symm ▸ parallel.same, parallel.known⟩
  | datagramReceived endpoint task data sender =>
    simp only [step, Option.ite_none_right_eq_some, Option.some.injEq, Prod.mk.injEq] at stepped
    obtain ⟨_, _, rfl⟩ := stepped
    have entered := parallel.enter task (.created endpoint data sender) nofun
    unfold datagramReceived
    split
    case isTrue => exact parallel
    case isFalse => exact ⟨entered.same, entered.known⟩
  | firstRun task =>
    simp only [step] at stepped
    split at stepped
    case h_1 endpoint data sender _ =>
      split at stepped
      case isTrue =>
        cases stepped
        exact parallel.enter task _ nofun
      case isFalse =>
        obtain ⟨forwarder, handled, rfl⟩ := act_some stepped
        exact parallel_afterRun parallel (method_pending handled)
    case h_2 => cases stepped
  | resolved task answers =>
    simp only [step] at stepped
    split at stepped
    case h_1 endpoint waits =>
      obtain ⟨forwarder, handled, rfl⟩ := act_some stepped
      simp only [handle, Option.map_eq_some_iff] at handled
      obtain ⟨call, _, same⟩ := handled
      refine parallel_afterWait parallel waits ?_
      split at same
      · cases same
        rfl
      · have kept := congrArg (fun r => r.2.pending) same
        rw [← kept]
        exact forward_pending
    case h_2 => cases stepped
  | cancelled task =>
    simp only [step] at stepped
    split at stepped
    case h_1 endpoint waits =>
      split at stepped
      case isTrue =>
        obtain ⟨forwarder, handled, rfl⟩ := act_some stepped
        simp only [handle, Option.ite_none_right_eq_some, Option.some.injEq, Prod.mk.injEq] at handled
        obtain ⟨_, _, rfl⟩ := handled
        exact parallel_afterWait parallel waits rfl
      case isFalse => cases stepped
    case h_2 => cases stepped
  | doneCallback task =>
    simp only [step] at stepped
    split at stepped
    case h_1 =>
      cases stepped
      exact ⟨parallel.same, parallel.known⟩
    case h_2 => cases stepped
  | connectionLost endpoint =>
    simp only [step, Option.ite_none_right_eq_some, Option.some.injEq, Prod.mk.injEq] at stepped
    obtain ⟨_, _, rfl⟩ := stepped
    exact ⟨parallel.same, parallel.known⟩
  | passed seconds =>
    simp only [step] at stepped
    obtain ⟨forwarder, handled, rfl⟩ := act_some stepped
    simp only [handle, Option.ite_none_right_eq_some, Option.some.injEq, Prod.mk.injEq] at handled
    obtain ⟨_, _, rfl⟩ := handled
    exact ⟨parallel.same, parallel.known⟩
  | close =>
    cases stepped
    exact ⟨parallel.same, parallel.known⟩

theorem parallel_run (run : Run (byOutput (step cfg maxPendingTasks)) (.init now) past s) :
    Parallel s := by
  have start : Parallel (.init now) := ⟨rfl, fun _ _ waits => by cases waits⟩
  exact run.invariant start fun parallel stepped => parallel_step parallel stepped

/-- A task that waits for DNS can be resumed at any time, also after `close`. -/
theorem resumable (run : Run (byOutput (step cfg maxPendingTasks)) (.init now) past s)
    (waits : s.phase task = .resolving endpoint) (answers : Option DnsAnswers) :
    (step cfg maxPendingTasks s (.resolved task answers)).isSome = true := by
  have parallel := parallel_run run
  have inside : s.resolving.idxOf task < s.forwarder.pending.length :=
    parallel.same ▸ List.idxOf_lt_length_of_mem (parallel.known task endpoint waits)
  simp [step, waits, act, handle, inside]

theorem inert_step (inert : Inert s.forwarder)
    (stepped : step cfg maxPendingTasks s event = some (outputs, t)) :
    Inert t.forwarder ∧ ∀ o ∈ outputs, sends o = false := by
  rcases step_refines stepped with ⟨rfl, same⟩ | ⟨moved, handled⟩
  · exact ⟨same ▸ inert, by simp⟩
  · exact inert_handle inert handled

/-- A closed association is inert. Whatever state its tasks are in when `close` returns
and in whatever order they and the callbacks of the endpoints run then, no datagram is
sent, the table of mappings is empty and the three connections are gone. -/
theorem closed_inert (s : State)
    (later : Run (byOutput (step cfg maxPendingTasks)) (close s) after t) :
    Inert t.forwarder ∧ ∀ l ∈ after, ∀ o ∈ l.2, sends o = false := by
  apply later.record
    (P := fun after t => Inert t.forwarder ∧ ∀ l ∈ after, ∀ o ∈ l.2, sends o = false)
  · exact ⟨inert_closeAll _, by simp⟩
  · rintro past u l v ⟨inert, silent⟩ stepped
    obtain ⟨inert, quiet⟩ := inert_step inert stepped
    exact ⟨inert, List.forall_mem_cons.mpr ⟨quiet, silent⟩⟩

end Steps

/-- The client's datagram to a host name waits for DNS, and one of an upstream peer has
not been looked at when the association is closed. -/
def beforeClose : List Event :=
  [.opened .client, .opened (.server .inet), .opened (.server .inet6),
    .datagramReceived .client 0 (domainDatagram "example" 53 [1]) ("192.168.1.7".toList, 5000), .firstRun 0,
    .datagramReceived (.server .inet) 1 [9] ("192.0.2.1".toList, 53)]

/-- The answer comes when the tasks of the client's endpoint are already cancelled. -/
def afterClose : List Event :=
  [.firstRun 1, .connectionLost .client,
    .resolved 0 (some { a := ["192.0.2.1".toList], aaaa := [], draw4 := 0, draw6 := 0 }), .doneCallback 1]

def play : State → List Event → Option (List (Event × List Output) × State) :=
  execute (step lan 128) fun _ event outputs => (event, outputs)

theorem late_answer_unsent : ∃ past s after t, Run (byOutput (step lan 128)) (.init 0) past s ∧
    s.phase 0 = .resolving .client ∧ t.phase 0 = .done .client ∧ t.phase 1 = .done (.server .inet) ∧
    Run (byOutput (step lan 128)) (close s) after t ∧
    Inert t.forwarder ∧ ∀ l ∈ after, ∀ o ∈ l.2, sends o = false := by
  have played : ((play (.init 0) beforeClose).bind fun (_, s) => (play (close s) afterClose).map
      fun (_, t) => (s.phase 0, t.phase 0, t.phase 1)) =
      some (.resolving .client, .done .client, .done (.server .inet)) := by decide +kernel
  obtain ⟨⟨past, s⟩, before, played⟩ := Option.bind_eq_some_iff.mp played
  obtain ⟨⟨after, t⟩, behind, phases⟩ := Option.map_eq_some_iff.mp played
  obtain ⟨waits, first, second⟩ : s.phase 0 = _ ∧ t.phase 0 = _ ∧ t.phase 1 = _ := by
    simpa using phases
  have later := Run.of_outputs behind
  exact ⟨past, s, after, t, Run.of_outputs before, waits, first, second, later, closed_inert s later⟩

end HttpSocksProxy.Closing
