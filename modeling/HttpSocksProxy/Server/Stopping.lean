import HttpSocksProxy.Server.Admission

/-! `AsyncProxyServer.stop` against the calls of its clients: a connection is
accepted, the task of its call runs for the first time later, and a stop waits for
the tasks that have registered by then. -/
namespace HttpSocksProxy.Stopping
open Transition

/-- Where a call of `stop` stands, with the tasks that it waits for. -/
inductive StopPhase where
  | absent
  | closed
  | waiting (tasks : Finset Nat)
  | gathering (tasks : Finset Nat)
  | returned
  | raised
  deriving DecidableEq

/-- `accepted` are the connections whose task has not run yet; `hasServer` says that
`_server` is not `None`, and `cancelled` are the tasks that a stop has cancelled. -/
structure Server where
  admission : Admission.Server
  accepted : Finset Nat
  listening : Bool
  hasServer : Bool
  cancelled : Finset Nat
  stops : Nat → StopPhase

/-- `yields` says whether `wait_closed` suspends. -/
inductive Event where
  | accept (task : Nat)
  | firstRun (task : Nat)
  | call (event : Admission.Event)
  | stop (caller : Nat) (yields : Bool)
  | waitClosed (caller : Nat)
  | waited (caller : Nat)
  | gathered (caller : Nat)
  | interrupt (caller : Nat)
  deriving DecidableEq, Repr

/-- A server that has started. -/
def init (maxClientConnections : Nat) : Server :=
  ⟨Admission.init maxClientConnections, ∅, true, true, ∅, fun _ => .absent⟩

def Server.enter (s : Server) (caller : Nat) (phase : StopPhase) : Server :=
  { s with stops := Function.update s.stops caller phase }

def Server.cancel (s : Server) (tasks : Finset Nat) : Server :=
  { s with cancelled := s.cancelled ∪ tasks }

def Server.done (s : Server) (task : Nat) : Bool :=
  match s.admission.phase task with
  | .finished _ => true
  | .absent | .rejecting | .handling | .closing _ => false

/-- The end of `stop`. -/
def finish (s : Server) (caller : Nat) : Server := { s.enter caller .returned with hasServer := false }

/-- `stop` from the snapshot of `_client_tasks` to the next await. -/
def cancelTasks (s : Server) (caller : Nat) : Server :=
  let tasks := s.admission.clientTasks
  if tasks = ∅ then finish s caller else (s.cancel tasks).enter caller (.waiting tasks)

/-- `stop` up to its first await. -/
def stop (s : Server) (caller : Nat) (yields : Bool) : Server :=
  if s.hasServer then
    let s := { s with listening := false }
    if yields then s.enter caller .closed else cancelTasks s caller
  else s.enter caller .returned

/-- The wait is over, since the tasks are done or three seconds have passed. -/
def afterWait (s : Server) (caller : Nat) (tasks : Finset Nat) : Server :=
  (s.cancel (tasks.filter fun task => s.done task = false)).enter caller (.gathering tasks)

def step (s : Server) : Event → Option Server
  | .accept task =>
    if s.listening ∧ s.admission.phase task = .absent ∧ task ∉ s.accepted then
      some { s with accepted := insert task s.accepted }
    else none
  | .firstRun task =>
    if task ∈ s.accepted then
      some { s with
        accepted := s.accepted.erase task, admission := Admission.clientConnected s.admission task }
    else none
  | .call (.arrive _) => none
  | .call event => (Admission.step s.admission event).map fun admission => { s with admission }
  | .stop caller yields => if s.stops caller = .absent then some (stop s caller yields) else none
  | .waitClosed caller => if s.stops caller = .closed then some (cancelTasks s caller) else none
  | .waited caller =>
    match s.stops caller with
    | .waiting tasks => some (afterWait s caller tasks)
    | _ => none
  | .gathered caller =>
    match s.stops caller with
    -- every task that was waited for has ended
    | .gathering tasks => if ∀ task ∈ tasks, s.done task then some (finish s caller) else none
    | _ => none
  | .interrupt caller =>
    match s.stops caller with
    | .closed | .waiting _ => some (s.enter caller .raised)
    -- a cancelled `gather` cancels what it waits for
    | .gathering tasks => some ((s.cancel tasks).enter caller .raised)
    | _ => none

/-- A stop takes its snapshot of the tasks only when no accepted connection is left
whose task has not run yet. -/
def registered (s : Server) : Event → Bool
  | .stop _ false => !s.hasServer || s.accepted = ∅
  | .waitClosed _ => s.accepted = ∅
  | _ => true

/-- No call is inside its handler. -/
def Idle (s : Server) : Prop := ∀ task, s.admission.phase task ≠ .handling

/-- The stop is suspended at an await. -/
def StopPhase.suspended : StopPhase → Bool
  | closed | waiting _ | gathering _ => true
  | absent | returned | raised => false

/-- Everything one event can do: to the calls, or to one stop. -/
inductive Moves (s : Server) : Event → Server → Prop where
  | accepted : s.listening = true → s.admission.phase k = .absent → k ∉ s.accepted →
      Moves s (.accept k) { s with accepted := insert k s.accepted }
  | started : k ∈ s.accepted → Moves s (.firstRun k)
      { s with accepted := s.accepted.erase k, admission := Admission.clientConnected s.admission k }
  | called : (∀ k, event ≠ .arrive k) → Admission.Moves s.admission event admission →
      Moves s (.call event) { s with admission }
  | down : s.stops i = .absent → s.hasServer = false → Moves s (.stop i yields) (s.enter i .returned)
  | closes : s.stops i = .absent →
      Moves s (.stop i true) ({ s with listening := false }.enter i .closed)
  | closesAndCancels : s.stops i = .absent → s.hasServer = true →
      Moves s (.stop i false) (cancelTasks { s with listening := false } i)
  | cancels : s.stops i = .closed → Moves s (.waitClosed i) (cancelTasks s i)
  | waited : s.stops i = .waiting tasks → Moves s (.waited i) (afterWait s i tasks)
  | gathered : s.stops i = .gathering tasks → (∀ k ∈ tasks, s.done k) →
      Moves s (.gathered i) (finish s i)
  | interrupted : (s.stops i).suspended = true → Moves s (.interrupt i) ((s.cancel tasks).enter i .raised)

theorem cancel_empty (s : Server) : s.cancel ∅ = s := by simp [Server.cancel]

theorem step_moves (stepped : step s event = some t) : Moves s event t := by
  cases event with
  | accept k =>
    simp only [step, Option.ite_none_right_eq_some, Option.some.injEq] at stepped
    obtain ⟨⟨open_, fresh, new⟩, rfl⟩ := stepped
    exact .accepted open_ fresh new
  | firstRun k =>
    simp only [step, Option.ite_none_right_eq_some, Option.some.injEq] at stepped
    obtain ⟨known, rfl⟩ := stepped
    exact .started known
  | call event =>
    cases event with
    | arrive k => contradiction
    | handled k left =>
      obtain ⟨admission, moved, rfl⟩ := Option.map_eq_some_iff.mp stepped
      exact .called nofun (Admission.step_moves moved)
    | waitClosed k raised =>
      obtain ⟨admission, moved, rfl⟩ := Option.map_eq_some_iff.mp stepped
      exact .called nofun (Admission.step_moves moved)
  | stop i yields =>
    simp only [step, Option.ite_none_right_eq_some, Option.some.injEq] at stepped
    obtain ⟨fresh, rfl⟩ := stepped
    by_cases up : s.hasServer = true
    · rw [stop, if_pos up]
      cases yields with
      | true => exact .closes fresh
      | false => exact .closesAndCancels fresh up
    · rw [stop, if_neg up]
      exact .down fresh (by simpa using up)
  | waitClosed i =>
    simp only [step, Option.ite_none_right_eq_some, Option.some.injEq] at stepped
    obtain ⟨closed, rfl⟩ := stepped
    exact .cancels closed
  | waited i =>
    simp only [step] at stepped
    split at stepped
    case h_1 tasks waiting =>
      cases Option.some.inj stepped
      exact .waited waiting
    case h_2 => contradiction
  | gathered i =>
    simp only [step] at stepped
    split at stepped
    case h_1 tasks gathering =>
      simp only [Option.ite_none_right_eq_some, Option.some.injEq] at stepped
      obtain ⟨ended, rfl⟩ := stepped
      exact .gathered gathering ended
    case h_2 => contradiction
  | interrupt i =>
    have moved (suspended : (s.stops i).suspended = true) (tasks : Finset Nat) :
        Moves s (.interrupt i) ((s.cancel tasks).enter i .raised) := .interrupted suspended
    simp only [step] at stepped
    split at stepped
    case h_1 phase | h_2 phase =>
      cases Option.some.inj stepped
      have plain := moved (by rw [phase]; rfl) ∅
      rwa [cancel_empty] at plain
    case h_3 tasks phase =>
      cases Option.some.inj stepped
      exact moved (by rw [phase]; rfl) tasks
    case h_4 => contradiction

/-- The calls inside their handlers are among these tasks, and no others can come. -/
structure Covered (s : Server) (tasks : Finset Nat) : Prop where
  registered : s.accepted = ∅
  deaf : s.listening = false
  handled : ∀ k, s.admission.phase k = .handling → k ∈ tasks

/-- What a stop knows where it stands. -/
def Covers (s : Server) : StopPhase → Prop
  | .absent | .raised => True
  | .closed => s.listening = false
  | .waiting tasks | .gathering tasks => Covered s tasks
  | .returned => Covered s ∅

structure Inv (s : Server) : Prop where
  tracked : Admission.Tracked s.admission
  fresh : ∀ k ∈ s.accepted, s.admission.phase k = .absent
  stops : ∀ i, Covers s (s.stops i)
  down : s.hasServer = false → ∃ i, s.stops i = .returned

@[simp] theorem enter_stops (s : Server) (i : Nat) (p : StopPhase) :
    (s.enter i p).stops = Function.update s.stops i p := rfl

@[simp] theorem cancelTasks_admission (s : Server) (i : Nat) : (cancelTasks s i).admission = s.admission := by
  simp only [cancelTasks]
  split <;> rfl

@[simp] theorem cancelTasks_accepted (s : Server) (i : Nat) : (cancelTasks s i).accepted = s.accepted := by
  simp only [cancelTasks]
  split <;> rfl

@[simp] theorem cancelTasks_listening (s : Server) (i : Nat) : (cancelTasks s i).listening = s.listening := by
  simp only [cancelTasks]
  split <;> rfl

/-- A call never comes back into its handler. -/
theorem call_handling (moved : Admission.Moves a event b) (inside : b.phase k = .handling)
    (call : ∀ k, event ≠ .arrive k) : a.phase k = .handling := by
  by_cases other : k = event.task
  · subst other
    cases moved with
    | rejected | admitted => exact absurd rfl (call _)
    | _ =>
      simp [Admission.Event.task, Admission.leaveHandler, Admission.finishRejected, Admission.discard] at inside
  · rw [← (Admission.moves_frame moved other).1]
    exact inside

/-- What a stop does to the calls is that it cancels them. -/
theorem Covered.same (covered : Covered s tasks) (admission : t.admission = s.admission)
    (accepted : t.accepted = s.accepted) (listening : t.listening = s.listening) : Covered t tasks where
  registered := accepted.trans covered.registered
  deaf := listening.trans covered.deaf
  handled k inside := covered.handled k (by rwa [admission] at inside)

/-- Without a listener and connections that wait for their first run, the calls in
their handlers can only become fewer. -/
theorem covered_moves (covered : Covered s tasks) (moved : Moves s event t) : Covered t tasks := by
  cases moved with
  | accepted listening =>
    rw [covered.deaf] at listening
    cases listening
  | started known => simp [covered.registered] at known
  | called call moved =>
    refine ⟨covered.registered, covered.deaf, fun k inside => ?_⟩
    exact covered.handled k (call_handling moved inside call)
  | closes => exact covered.same rfl rfl covered.deaf.symm
  | closesAndCancels => exact covered.same (by simp) (by simp) (by simp [covered.deaf])
  | cancels => exact covered.same (by simp) (by simp) (by simp)
  | _ => exact covered.same rfl rfl rfl

theorem deaf_moves (deaf : s.listening = false) (moved : Moves s event t) : t.listening = false := by
  cases moved with
  | closes => rfl
  | closesAndCancels | cancels => simp [deaf]
  | _ => exact deaf

theorem covers_moves (covers : Covers s phase) (moved : Moves s event t) : Covers t phase := by
  cases phase with
  | absent | raised => trivial
  | closed => exact deaf_moves covers moved
  | waiting tasks | gathering tasks => exact covered_moves covers moved
  | returned => exact covered_moves covers moved

/-- The stop that an event is about. -/
def Event.caller : Event → Option Nat
  | .accept _ | .firstRun _ | .call _ => none
  | .stop i _ | .waitClosed i | .waited i | .gathered i | .interrupt i => some i

theorem cancelTasks_stops (s : Server) (other : j ≠ i) : (cancelTasks s i).stops j = s.stops j := by
  simp only [cancelTasks]
  split <;> simp [finish, Server.cancel, other]

theorem stops_frame (moved : Moves s event t) (other : event.caller ≠ some j) : t.stops j = s.stops j := by
  have apart {i : Nat} (acts : event.caller = some i) : j ≠ i := by
    rintro rfl
    exact other acts
  cases moved with
  | accepted | started | called => rfl
  | closesAndCancels | cancels => exact cancelTasks_stops _ (apart rfl)
  | _ => simp [finish, afterWait, Server.cancel, apart rfl]

/-- A snapshot covers the calls in their handlers, since they have registered. -/
theorem cancelTasks_covers (tracked : Admission.Tracked s.admission) (registered : s.accepted = ∅)
    (deaf : s.listening = false) (i : Nat) : Covers (cancelTasks s i) ((cancelTasks s i).stops i) := by
  have held (k : Nat) (inside : s.admission.phase k = .handling) : k ∈ s.admission.clientTasks :=
    tracked.held k (by simp [inside, Admission.Phase.running])
  simp only [cancelTasks]
  split
  case isTrue none =>
    have covered : Covered (finish s i) ∅ := ⟨registered, deaf, fun k inside => none ▸ held k inside⟩
    simpa [finish, Covers] using covered
  case isFalse =>
    have covered : Covered ((s.cancel s.admission.clientTasks).enter i (.waiting s.admission.clientTasks))
      s.admission.clientTasks := ⟨registered, deaf, held⟩
    simpa [Covers] using covered

/-- Once all the tasks have ended, no call is in its handler. -/
theorem Covered.ended (covered : Covered s tasks) (ended : ∀ k ∈ tasks, s.done k) : Covered s ∅ := by
  refine ⟨covered.registered, covered.deaf, fun k inside => ?_⟩
  have done := ended k (covered.handled k inside)
  simp [Server.done, inside] at done

theorem covers_self (inv : Inv s) (moved : Moves s event t) (ready : registered s event = true)
    (acts : event.caller = some i) : Covers t (t.stops i) := by
  have covers := inv.stops i
  cases moved with
  | accepted | started | called => cases acts
  | down _ down =>
    cases acts
    obtain ⟨j, returned⟩ := inv.down down
    have known := inv.stops j
    rw [returned] at known
    have covered : Covered (s.enter i .returned) ∅ := Covered.same known rfl rfl rfl
    simpa [Covers] using covered
  | closes =>
    cases acts
    simp [Covers, Server.enter]
  | closesAndCancels _ up =>
    cases acts
    exact cancelTasks_covers (s := { s with listening := false }) inv.tracked
      (by simpa [registered, up] using ready) rfl i
  | cancels closed =>
    cases acts
    rw [closed] at covers
    exact cancelTasks_covers inv.tracked (by simpa [registered] using ready) covers i
  | @waited _ tasks waiting =>
    cases acts
    rw [waiting] at covers
    have covered : Covered (afterWait s i tasks) tasks := Covered.same covers rfl rfl rfl
    simpa [afterWait, Covers] using covered
  | gathered gathering ended =>
    cases acts
    rw [gathering] at covers
    have covered : Covered (finish s i) ∅ := (Covered.ended covers ended).same rfl rfl rfl
    simpa [finish, Covers] using covered
  | interrupted =>
    cases acts
    simp [Covers]

/-- A stop that has returned stays so. -/
theorem returned_moves (moved : Moves s event t) (returned : s.stops i = .returned) :
    t.stops i = .returned := by
  by_cases acts : event.caller = some i
  · cases moved with
    | accepted | started | called => cases acts
    | interrupted suspended =>
      cases acts
      rw [returned] at suspended
      cases suspended
    | down here | closes here | closesAndCancels here | cancels here | waited here | gathered here =>
      cases acts
      rw [returned] at here
      cases here
  · rw [stops_frame moved acts, returned]

/-- The server is given up by a stop that returns. -/
theorem down_moves (known : s.hasServer = false → ∃ i, s.stops i = .returned) (moved : Moves s event t)
    (down : t.hasServer = false) : ∃ i, t.stops i = .returned := by
  by_cases before : s.hasServer = false
  · obtain ⟨i, returned⟩ := known before
    exact ⟨i, returned_moves moved returned⟩
  · have snapshot {u : Server} {i : Nat} (up : u.hasServer = s.hasServer)
        (down : (cancelTasks u i).hasServer = false) : (cancelTasks u i).stops i = .returned := by
      simp only [cancelTasks] at down ⊢
      split at down
      case isTrue none => simp [none, finish]
      case isFalse => exact absurd (up.symm.trans down) before
    cases moved with
    | @closesAndCancels i => exact ⟨i, snapshot rfl down⟩
    | @cancels i => exact ⟨i, snapshot rfl down⟩
    | @gathered i => exact ⟨i, by simp [finish]⟩
    | _ => exact absurd down before

/-- The first run of a call is its arrival. -/
theorem arrives (fresh : a.phase k = .absent) :
    Admission.Moves a (.arrive k) (Admission.clientConnected a k) :=
  Admission.step_moves (if_pos fresh)

theorem tracked_moves (inv : Inv s) (moved : Moves s event t) : Admission.Tracked t.admission := by
  cases moved with
  | started known => exact Admission.tracked_moves inv.tracked (arrives (inv.fresh _ known))
  | called _ moved => exact Admission.tracked_moves inv.tracked moved
  | closesAndCancels | cancels => simpa using inv.tracked
  | _ => exact inv.tracked

/-- Before its first run the call of a connection has no phase. -/
theorem fresh_moves (inv : Inv s) (moved : Moves s event t) :
    ∀ k ∈ t.accepted, t.admission.phase k = .absent := by
  cases moved with
  | accepted _ absent =>
    intro j member
    rcases Finset.mem_insert.mp member with rfl | before
    · exact absent
    · exact inv.fresh j before
  | @started k known =>
    intro j member
    obtain ⟨other, before⟩ := Finset.mem_erase.mp member
    rw [(Admission.moves_frame (arrives (inv.fresh k known)) other).1]
    exact inv.fresh j before
  | @called event admission call moved =>
    intro j member
    have absent := inv.fresh j member
    have other : j ≠ event.task := by
      rintro rfl
      cases moved with
      | rejected | admitted => exact absurd rfl (call _)
      | left phase | turnedAway phase | released phase | leaked phase =>
        rw [Admission.Event.task, phase] at absent
        cases absent
    rw [(Admission.moves_frame moved other).1]
    exact absent
  | closesAndCancels | cancels => simpa using inv.fresh
  | _ => exact inv.fresh

theorem inv_init (n : Nat) : Inv (init n) :=
  ⟨Admission.tracked_init n, by simp [init], fun _ => trivial, nofun⟩

theorem inv_moves (inv : Inv s) (moved : Moves s event t) (ready : registered s event = true) : Inv t where
  tracked := tracked_moves inv moved
  fresh := fresh_moves inv moved
  stops i := by
    by_cases acts : event.caller = some i
    · exact covers_self inv moved ready acts
    · rw [stops_frame moved acts]
      exact covers_moves (inv.stops i) moved
  down := down_moves inv.down moved

theorem inv_run (run : Run (guarded (byStep step) (registered · ·)) (init n) past s) : Inv s :=
  run.invariant (inv_init n) fun inv stepped => inv_moves inv (step_moves stepped.2) stepped.1

/-- A stopped server serves nobody. If every call has run for the first time by the
time that a stop takes its snapshot, no call is in its handler once a stop has
returned, and none is later, whatever happens then. -/
theorem stopped_serves_nobody (run : Run (guarded (byStep step) (registered · ·)) (init n) past s)
    (stopped : s.stops caller = .returned) (later : Run (byStep step) s after t) : Idle s ∧ Idle t := by
  have covers := (inv_run run).stops caller
  rw [stopped] at covers
  have idle {u : Server} (covered : Covered u ∅) : Idle u := by
    intro k inside
    simpa using covered.handled k inside
  have kept {u v : Server} {event : Event} (covered : Covered u ∅) (stepped : byStep step u event v) :
      Covered v ∅ := covered_moves covered (step_moves stepped)
  exact ⟨idle covers, idle (later.invariant (P := fun u => Covered u ∅) covers kept)⟩

/-- A stop that waits for a handler in vain, cancels it once more and then sees it
end, and another stop after it. -/
theorem slow_handler_stopped : ∃ s t, s.stops 7 = .returned ∧
    s.admission.phase 0 = .finished (some .cancelledError) ∧ t.stops 8 = .returned ∧ Idle s ∧ Idle t := by
  obtain ⟨s, t, replayed, stepped⟩ : ∃ s t,
      replay (fun s e => if registered s e then step s e else none) (init 5)
        [.accept 0, .firstRun 0, .stop 7 true, .waitClosed 7, .waited 7,
          .call (.handled 0 (some .cancelledError)), .call (.waitClosed 0 none),
          .gathered 7] = some s ∧
      step s (.stop 8 true) = some t := ⟨_, _, rfl, rfl⟩
  have stopped : s.stops 7 = .returned := by
    cases Option.some.inj replayed
    rfl
  have served := stopped_serves_nobody (Run.of_replay_guarded replayed) stopped (.next .start stepped)
  cases Option.some.inj replayed
  cases Option.some.inj stepped
  exact ⟨_, _, rfl, rfl, rfl, served⟩

/-- A connection that is accepted right before the stop is in no snapshot: its call
enters the handler after the stop has returned. -/
theorem accepted_before_stop_served :
    (∃ s, Run (byStep step) (init 5) [.firstRun 0, .stop 7 false, .accept 0] s ∧
      s.stops 7 = .returned ∧ s.admission.phase 0 = .handling) ∧
    ¬ ∀ n past s caller, Run (byStep step) (init n) past s → s.stops caller = .returned → Idle s := by
  obtain ⟨s, replayed⟩ : ∃ s, replay step (init 5) [.accept 0, .stop 7 false, .firstRun 0] = some s :=
    ⟨_, rfl⟩
  have run := Run.of_replay replayed
  cases Option.some.inj replayed
  refine ⟨⟨_, run, rfl, rfl⟩, fun all => ?_⟩
  exact all 5 _ _ 7 run rfl 0 rfl

end HttpSocksProxy.Stopping
