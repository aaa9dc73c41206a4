import Mathlib.Data.Finset.Basic
import Mathlib.Algebra.Order.Field.Rat
import HttpSocksProxy.Foundation.Transition
import HttpSocksProxy.Server.Resolve

/-! `_supervise`, `_start_generation` and `_stop_generation` of one session, one
step for each stretch up to an await or to a write that other threads see. What
a step meets outside is part of its event. -/
namespace HttpSocksProxy.Supervisor
open Transition

inductive Task where
  | socksListener
  | httpListener
  | watchdog
  | health
  | scheduler
  deriving DecidableEq, Repr

/-- What a generation opens. -/
inductive Resource where
  | socks
  | http
  | wpad
  | wpadThread
  | task (t : Task)
  deriving DecidableEq, Repr

def Task.all : List Task := [.socksListener, .httpListener, .watchdog, .health, .scheduler]

/-- The dictionary of a generation: the servers are in it from the beginning,
the rest once it is made. -/
structure Generation where
  id : Nat
  selection : Str
  wpad : Bool := false
  wpadThread : Bool := false
  tasks : Bool := false
  deriving DecidableEq, Repr

def Generation.records (g : Generation) : Resource → Bool
  | .socks | .http => true
  | .wpad => g.wpad
  | .wpadThread => g.wpadThread
  | .task _ => g.tasks

/-- The next thing `_start_generation` opens, or its verification. -/
inductive Part where
  | socks
  | http
  | wpad
  | thread
  | tasks
  | verify
  deriving DecidableEq, Repr

/-- What `_stop_generation` waits for next. -/
inductive Cleanup where
  | tasks
  | socks
  | http
  | wpad
  | thread
  deriving DecidableEq, Repr

inductive Phase where
  | head
  | refreshing
  | resolvingProxy
  | resolvingFallback
  | choosingRoute
  | resolvingOutbound (selection : Str)
  | constructing (selection : Str)
  | opening (g : Generation) (part : Part)
  | undoing (g : Generation) (text : Str) (c : Cleanup)
  | healthy (g : Generation)
  | announcing (g : Generation) (since : ℚ)
  | waiting (g : Generation) (since : ℚ)
  | stopping (g : Generation) (since : ℚ) (leaving : Bool) (c : Cleanup)
  | settling (since : Option ℚ)
  | backingOff (delay : ℚ) (pausing : Bool)
  | firstFailed (text : Str)
  | firstTold
  | leftLoop
  | cancelled
  | returned
  deriving DecidableEq

/-- The fields of `StableConfig` that the supervisor reads. -/
structure Config where
  socksPort : Nat := 9876
  httpPort : Nat := 9877
  wpadPort : Nat := 8088
  restartInitialDelay : ℚ := 1
  restartBackoff : ℚ := 2
  restartMaxDelay : ℚ := 8
  healthyBackoffReset : ℚ := 60
  maxConsecutiveRestarts : Int := 6
  restartPause : ℚ := 60

/-- `opened` is what the world holds open, by generation. -/
structure State where
  stopAsync : Bool
  recoverAsync : Bool
  firstStart : Bool
  counter : Nat
  consecutive : Nat
  delay : ℚ
  opened : Finset (Nat × Resource)
  phase : Phase

/-- The outcome of `_wait_for_change`: which of the watched tasks it found done. -/
inductive Change where
  | stop
  | recover
  | task (t : Task)
  deriving DecidableEq, Repr

inductive Outcome where
  | done
  | raised (text : Str)
  | unavailable (text : Str)
  | selected (selection : Str)
  | time (now : ℚ)
  | change (c : Change)
  | waited (recovery : Bool)

inductive Event where
  | stopSet
  | recoverSet
  | gone (p : Nat × Resource)
  | goesOn (o : Outcome)

/-- What others see of a step. -/
inductive Output where
  | quiet
  | begins
  | opens
  | startReturned
  | startRaised (text : Str)
  | startupError (text : Str)
  | startupEvent
  deriving DecidableEq, Repr

def init (config : Config) (counter : Nat) (stopRequested : Bool) : State :=
  ⟨stopRequested, false, true, counter, 0, config.restartInitialDelay, ∅, .head⟩

def State.to (s : State) (phase : Phase) : Output × State := (.quiet, { s with phase })

/-- `_start_generation` has raised; the `except` block of `_supervise`. -/
def startRaised (s : State) (text : Str) : Output × State :=
  if s.firstStart then (.startRaised text, { s with phase := .firstFailed text })
  else (.startRaised text, { s with consecutive := s.consecutive + 1, phase := .settling none })

def bindFailed (server : String) (port : Nat) (text : Str) : Str :=
  (server ++ " failed to bind :" ++ toString port ++ " — ").toList ++ text

def tasksOf (g : Generation) : Finset (Nat × Resource) :=
  (Task.all.map fun t => (g.id, Resource.task t)).toFinset

def openNext (config : Config) (s : State) (g : Generation) : Part → Outcome → Option (Output × State)
  | .socks, .done => some (.quiet,
      { s with opened := insert (g.id, .socks) s.opened, phase := .opening g .http })
  | .socks, .raised e => some (s.to (.undoing g (bindFailed "SOCKS" config.socksPort e) .tasks))
  | .http, .done => some (.quiet,
      { s with opened := insert (g.id, .http) s.opened, phase := .opening g .wpad })
  | .http, .raised e => some (s.to (.undoing g (bindFailed "HTTP" config.httpPort e) .tasks))
  | .wpad, .done => some (.quiet, { s with
      opened := insert (g.id, .wpad) s.opened, phase := .opening { g with wpad := true } .thread })
  | .wpad, .raised e => some (s.to (.undoing g (bindFailed "WPAD" config.wpadPort e) .tasks))
  | .thread, .done => some (.quiet, { s with
      opened := insert (g.id, .wpadThread) s.opened
      phase := .opening { g with wpadThread := true } .tasks })
  -- the cleanup joins a thread that never started, which raises in its turn
  | .thread, .raised _ => some (s.to (.undoing { g with wpadThread := true }
      "cannot join thread before it is started".toList .tasks))
  | .tasks, .done => some (.quiet, { s with
      opened := s.opened ∪ tasksOf g, phase := .opening { g with tasks := true } .verify })
  | .verify, .done => some (.startReturned, { s with phase := .healthy g })
  | .verify, .raised e => some (s.to (.undoing g e .tasks))
  | _, _ => none

/-- One wait of `_stop_generation`, with the next one if there is one. -/
def cleanNext (opened : Finset (Nat × Resource)) (g : Generation) :
    Cleanup → Option (Finset (Nat × Resource) × Option Cleanup)
  | .tasks => if g.tasks = true → Disjoint opened (tasksOf g) then some (opened, some .socks) else none
  | .socks => some (opened.erase (g.id, .socks), some .http)
  | .http => some (opened.erase (g.id, .http), some .wpad)
  | .wpad => some (if g.wpad then opened.erase (g.id, .wpad) else opened, some .thread)
  | .thread =>
    if g.wpadThread = true → (g.id, .wpadThread) ∉ opened then some (opened, none) else none

/-- The wait that follows a restart, or a pause after too many of them. -/
def settle (config : Config) (s : State) (since : Option ℚ) (now : ℚ) : State :=
  if s.stopAsync then { s with phase := .leftLoop }
  else
    -- the monotonic clock never reads zero, so `healthy_since` counts as set when it is
    let reset := since.any fun since => config.healthyBackoffReset ≤ now - since
    let delay := if reset then config.restartInitialDelay else s.delay
    let consecutive := if reset then 0 else s.consecutive
    if config.maxConsecutiveRestarts ≤ consecutive then
      { s with delay, consecutive, phase := .backingOff config.restartPause true }
    else { s with delay, consecutive, phase := .backingOff delay false }

/-- After `_wait_or_stop`. -/
def waited (config : Config) (s : State) (pausing recovery : Bool) : State :=
  { s with
    recoverAsync := s.recoverAsync && !recovery
    consecutive := if pausing then 0 else s.consecutive
    delay := if pausing then config.restartInitialDelay
      else min (s.delay * config.restartBackoff) config.restartMaxDelay
    phase := .head }

/-- After `_wait_for_change`: `None` leaves the loop, a reason is raised as
`RecoveryRequired`. -/
def changed (s : State) (g : Generation) (since : ℚ) : Change → Option State
  | .stop => if s.stopAsync then some { s with phase := .stopping g since true .tasks } else none
  | .recover =>
    if s.recoverAsync then some { s with
      recoverAsync := false
      consecutive := s.consecutive + 1
      phase := .stopping g since false .tasks }
    else none
  | .task t =>
    if (g.id, .task t) ∉ s.opened then some { s with
      consecutive := s.consecutive + 1, phase := .stopping g since false .tasks }
    else none

def goOn (config : Config) (s : State) (o : Outcome) : Option (Output × State) :=
  match s.phase, o with
  | .head, .done =>
    if s.stopAsync then some (s.to .leftLoop)
    else some (.begins, { s with counter := s.counter + 1, phase := .refreshing })
  | .refreshing, .done => some (s.to .resolvingProxy)
  | .refreshing, .raised e => some (startRaised s e)
  | .resolvingProxy, .done => some (s.to .choosingRoute)
  | .resolvingProxy, .unavailable _ => some (s.to .resolvingFallback)
  | .resolvingProxy, .raised e => some (startRaised s e)
  | .resolvingFallback, .done => some (s.to .choosingRoute)
  | .resolvingFallback, .unavailable e | .resolvingFallback, .raised e => some (startRaised s e)
  | .choosingRoute, .selected selection => some (s.to (.resolvingOutbound selection))
  | .resolvingOutbound selection, .done => some (s.to (.constructing selection))
  | .resolvingOutbound _, .unavailable e | .resolvingOutbound _, .raised e => some (startRaised s e)
  | .constructing selection, .done =>
    some (.opens, { s with phase := .opening { id := s.counter, selection } .socks })
  | .constructing _, .raised e => some (startRaised s e)
  | .opening g part, o => openNext config s g part o
  | .undoing g e c, .done => (cleanNext s.opened g c).map fun r =>
      match r.2 with
      | some later => { s with opened := r.1 }.to (.undoing g e later)
      | none => startRaised { s with opened := r.1 } e
  | .healthy g, .time now => some (s.to (if s.firstStart then .announcing g now else .waiting g now))
  | .announcing g since, .done =>
    some (.startupEvent, { s with firstStart := false, phase := .waiting g since })
  | .waiting g since, .change c => (changed s g since c).map (.quiet, ·)
  | .stopping g since leaving c, .done => (cleanNext s.opened g c).map fun r =>
      { s with opened := r.1 }.to (match r.2 with
        | some later => .stopping g since leaving later
        | none => if leaving then .leftLoop else .settling (some since))
  | .settling since, .time now => some (.quiet, settle config s since now)
  | .backingOff _ pausing, .waited recovery =>
    if recovery = true → s.recoverAsync = true then some (.quiet, waited config s pausing recovery) else none
  | .firstFailed e, .done => some (.startupError e, { s with phase := .firstTold })
  | .firstTold, .done => some (.startupEvent, { s with phase := .returned })
  | .leftLoop, .done =>
    if s.firstStart then
      some (.startupError "Stable Mode startup cancelled".toList, { s with phase := .cancelled })
    else some (s.to .returned)
  | .cancelled, .done => some (.startupEvent, { s with phase := .returned })
  | _, _ => none

def step (config : Config) (s : State) : Event → Option (Output × State)
  | .stopSet => some (.quiet, { s with stopAsync := true })
  | .recoverSet => some (.quiet, { s with recoverAsync := true })
  | .gone p => if p ∈ s.opened then some (.quiet, { s with opened := s.opened.erase p }) else none
  | .goesOn o => goOn config s o

/-- A label keeps the event with what others see of its step. -/
def moves (config : Config) (s : State) (l : Event × Output) (t : State) : Prop :=
  step config s l.1 = some (l.2, t)

/-- In `_start_generation`, before it reads the outbound selection. -/
def Phase.beforeRoute : Phase → Bool
  | refreshing | resolvingProxy | resolvingFallback | choosingRoute => true
  | _ => false

/-- In `_start_generation`, before its `try` block. -/
def Phase.unopened : Phase → Bool
  | refreshing | resolvingProxy | resolvingFallback | resolvingOutbound _ | constructing _ => true
  | _ => false

/-- Everything the coroutine can do from one await to the next. -/
inductive Goes (config : Config) (s : State) : Outcome → Output → State → Prop where
  | leaves : s.phase = .head → s.stopAsync = true → Goes config s .done .quiet { s with phase := .leftLoop }
  | begins : s.phase = .head → s.stopAsync = false →
      Goes config s .done .begins { s with counter := s.counter + 1, phase := .refreshing }
  | looks : s.phase.beforeRoute = true → phase.beforeRoute = true → Goes config s o .quiet { s with phase }
  | routes : s.phase = .choosingRoute →
      Goes config s (.selected selection) .quiet { s with phase := .resolvingOutbound selection }
  | resolves : s.phase = .resolvingOutbound selection →
      Goes config s .done .quiet { s with phase := .constructing selection }
  | constructs : s.phase = .constructing selection →
      Goes config s .done .opens { s with phase := .opening { id := s.counter, selection } .socks }
  | raises : s.phase.unopened = true → startRaised s e = (out, t) → Goes config s o out t
  | opens : s.phase = .opening g part → openNext config s g part o = some (out, t) → Goes config s o out t
  | undoes : s.phase = .undoing g e c → cleanNext s.opened g c = some (opened, some later) →
      Goes config s .done .quiet { s with opened, phase := .undoing g e later }
  | undone : s.phase = .undoing g e c → cleanNext s.opened g c = some (opened, none) →
      startRaised { s with opened } e = (out, t) → Goes config s .done out t
  | first : s.phase = .healthy g → s.firstStart = true →
      Goes config s (.time now) .quiet { s with phase := .announcing g now }
  | again : s.phase = .healthy g → s.firstStart = false →
      Goes config s (.time now) .quiet { s with phase := .waiting g now }
  | announces : s.phase = .announcing g since →
      Goes config s .done .startupEvent { s with firstStart := false, phase := .waiting g since }
  | changes : s.phase = .waiting g since → changed s g since c = some t →
      Goes config s (.change c) .quiet t
  | cleans : s.phase = .stopping g since leaving c → cleanNext s.opened g c = some (opened, some later) →
      Goes config s .done .quiet { s with opened, phase := .stopping g since leaving later }
  | cleaned : s.phase = .stopping g since leaving c → cleanNext s.opened g c = some (opened, none) →
      Goes config s .done .quiet
        { s with opened, phase := if leaving then .leftLoop else .settling (some since) }
  | settles : s.phase = .settling since → Goes config s (.time now) .quiet (settle config s since now)
  | waits : s.phase = .backingOff delay pausing → (recovery = true → s.recoverAsync = true) →
      Goes config s (.waited recovery) .quiet (waited config s pausing recovery)
  | tells : s.phase = .firstFailed e →
      Goes config s .done (.startupError e) { s with phase := .firstTold }
  | told : s.phase = .firstTold → Goes config s .done .startupEvent { s with phase := .returned }
  | cancels : s.phase = .leftLoop → s.firstStart = true →
      Goes config s .done (.startupError "Stable Mode startup cancelled".toList)
        { s with phase := .cancelled }
  | returns : s.phase = .leftLoop → s.firstStart = false →
      Goes config s .done .quiet { s with phase := .returned }
  | cancelTold : s.phase = .cancelled → Goes config s .done .startupEvent { s with phase := .returned }

theorem goOn_goes (moved : goOn config s o = some (out, t)) : Goes config s o out t := by
  simp only [goOn] at moved
  cases phase : s.phase with
  | head =>
    rw [phase] at moved
    cases o with
    | done =>
      dsimp only at moved
      split at moved
      case isTrue set => cases Option.some.inj moved; exact .leaves phase set
      case isFalse clear =>
        cases Option.some.inj moved
        exact .begins phase (Bool.not_eq_true _ ▸ clear)
    | _ => contradiction
  | refreshing =>
    rw [phase] at moved
    cases o with
    | done => cases Option.some.inj moved; exact .looks (by rw [phase]; rfl) rfl
    | raised e => exact .raises (by rw [phase]; rfl) (Option.some.inj moved)
    | _ => contradiction
  | resolvingProxy =>
    rw [phase] at moved
    cases o with
    | done | unavailable _ => cases Option.some.inj moved; exact .looks (by rw [phase]; rfl) rfl
    | raised e => exact .raises (by rw [phase]; rfl) (Option.some.inj moved)
    | _ => contradiction
  | resolvingFallback =>
    rw [phase] at moved
    cases o with
    | done => cases Option.some.inj moved; exact .looks (by rw [phase]; rfl) rfl
    | raised e | unavailable e => exact .raises (by rw [phase]; rfl) (Option.some.inj moved)
    | _ => contradiction
  | choosingRoute =>
    rw [phase] at moved
    cases o with
    | selected selection => cases Option.some.inj moved; exact .routes phase
    | _ => contradiction
  | resolvingOutbound selection =>
    rw [phase] at moved
    cases o with
    | done => cases Option.some.inj moved; exact .resolves phase
    | raised e | unavailable e => exact .raises (by rw [phase]; rfl) (Option.some.inj moved)
    | _ => contradiction
  | constructing selection =>
    rw [phase] at moved
    cases o with
    | done => cases Option.some.inj moved; exact .constructs phase
    | raised e => exact .raises (by rw [phase]; rfl) (Option.some.inj moved)
    | _ => contradiction
  | opening g part =>
    rw [phase] at moved
    exact .opens phase moved
  | undoing g e c =>
    rw [phase] at moved
    cases o with
    | done =>
      obtain ⟨⟨opened, later⟩, cleaned, made⟩ := Option.map_eq_some_iff.mp moved
      cases later with
      | some later => cases made; exact .undoes phase cleaned
      | none => exact .undone phase cleaned made
    | _ => contradiction
  | healthy g =>
    rw [phase] at moved
    cases o with
    | time now =>
      dsimp only at moved
      split at moved
      case isTrue start => cases Option.some.inj moved; exact .first phase start
      case isFalse later =>
        cases Option.some.inj moved
        exact .again phase (Bool.not_eq_true _ ▸ later)
    | _ => contradiction
  | announcing g since =>
    rw [phase] at moved
    cases o with
    | done => cases Option.some.inj moved; exact .announces phase
    | _ => contradiction
  | waiting g since =>
    rw [phase] at moved
    cases o with
    | change c =>
      obtain ⟨t, ends, made⟩ := Option.map_eq_some_iff.mp moved
      cases made
      exact .changes phase ends
    | _ => contradiction
  | stopping g since leaving c =>
    rw [phase] at moved
    cases o with
    | done =>
      obtain ⟨⟨opened, later⟩, cleaned, made⟩ := Option.map_eq_some_iff.mp moved
      cases later with
      | some later => cases made; exact .cleans phase cleaned
      | none => cases made; exact .cleaned phase cleaned
    | _ => contradiction
  | settling since =>
    rw [phase] at moved
    cases o with
    | time now => cases Option.some.inj moved; exact .settles phase
    | _ => contradiction
  | backingOff delay pausing =>
    rw [phase] at moved
    cases o with
    | waited recovery =>
      simp only [Option.ite_none_right_eq_some, Option.some.injEq] at moved
      obtain ⟨allowed, made⟩ := moved
      cases made
      exact .waits phase allowed
    | _ => contradiction
  | firstFailed e =>
    rw [phase] at moved
    cases o with
    | done => cases Option.some.inj moved; exact .tells phase
    | _ => contradiction
  | firstTold =>
    rw [phase] at moved
    cases o with
    | done => cases Option.some.inj moved; exact .told phase
    | _ => contradiction
  | leftLoop =>
    rw [phase] at moved
    cases o with
    | done =>
      dsimp only at moved
      split at moved
      case isTrue start => cases Option.some.inj moved; exact .cancels phase start
      case isFalse later =>
        cases Option.some.inj moved
        exact .returns phase (Bool.not_eq_true _ ▸ later)
    | _ => contradiction
  | cancelled =>
    rw [phase] at moved
    cases o with
    | done => cases Option.some.inj moved; exact .cancelTold phase
    | _ => contradiction
  | returned =>
    rw [phase] at moved
    contradiction

/-- What is opened before a part. -/
def Part.after : Part → Resource → Bool
  | .socks, _ => false
  | .http, .socks | .wpad, .socks | .wpad, .http => true
  | .thread, .socks | .thread, .http | .thread, .wpad => true
  | .tasks, .task _ => false
  | .tasks, _ | .verify, _ => true
  | _, _ => false

/-- What `_stop_generation` still has to close. -/
def Cleanup.left : Cleanup → Resource → Bool
  | .tasks, _ => true
  | .socks, .task _ | .http, .task _ | .http, .socks => false
  | .socks, _ | .http, _ => true
  | .wpad, .wpad | .wpad, .wpadThread | .thread, .wpadThread => true
  | .wpad, _ | .thread, _ => false

/-- The generation a phase holds, and which of its resources may be open. -/
def Phase.holds : Phase → Option (Generation × (Resource → Bool))
  | .opening g part => some (g, part.after)
  | .undoing g _ c | .stopping g _ _ c => some (g, c.left)
  | .healthy g | .announcing g _ | .waiting g _ => some (g, fun _ => true)
  | _ => none

/-- What is open belongs to the generation in hand and stands in its
dictionary. -/
structure Owned (s : State) : Prop where
  newest : ∀ g left, s.phase.holds = some (g, left) → g.id = s.counter
  held : ∀ p ∈ s.opened, ∃ g left, s.phase.holds = some (g, left) ∧
    p.1 = g.id ∧ g.records p.2 = true ∧ left p.2 = true

theorem Owned.nothing (owned : Owned s) (none_held : s.phase.holds = none) : s.opened = ∅ := by
  apply Finset.eq_empty_of_forall_notMem
  intro p open_
  obtain ⟨g, left, holds, _⟩ := owned.held p open_
  rw [none_held] at holds
  contradiction

/-- A phase without a generation is reached with nothing open. -/
theorem owned_empty (empty : t.opened = ∅) (none_held : t.phase.holds = none) : Owned t := by
  constructor
  · simp [none_held]
  · simp [empty]

theorem mem_tasksOf : p ∈ tasksOf g ↔ ∃ t, p = (g.id, .task t) := by
  simp only [tasksOf, List.mem_toFinset, List.mem_map]
  constructor
  · rintro ⟨t, _, rfl⟩
    exact ⟨t, rfl⟩
  · rintro ⟨t, rfl⟩
    exact ⟨t, by cases t <;> decide, rfl⟩

theorem erased_left {g : Generation} {opened : Finset (Nat × Resource)} {left left' : Resource → Bool}
    (held : ∀ p ∈ opened, p.1 = g.id ∧ g.records p.2 = true ∧ left p.2 = true)
    (others : ∀ r, r ≠ closed → left r = true → left' r = true) :
    ∀ p ∈ opened.erase (g.id, closed), left' p.2 = true := by
  rintro ⟨n, r⟩ here
  obtain ⟨other, here⟩ := Finset.mem_erase.mp here
  obtain ⟨rfl, _, before⟩ := held _ here
  exact others r (fun same => other (by rw [same])) before

/-- A wait of the cleanup leaves one thing less. -/
theorem left_next {r : Resource} :
    (r ≠ .socks → Cleanup.socks.left r = true → Cleanup.http.left r = true) ∧
      (r ≠ .http → Cleanup.http.left r = true → Cleanup.wpad.left r = true) ∧
      (r ≠ .wpad → Cleanup.wpad.left r = true → Cleanup.thread.left r = true) := by
  cases r <;> simp [Cleanup.left]

/-- What the last waits of the cleanup may find open. -/
theorem left_last {r : Resource} (left : Cleanup.thread.left r = true) : r = .wpadThread := by
  cases r <;> first | rfl | contradiction

/-- Each wait of the cleanup closes what it is for. -/
theorem cleanNext_held {opened opened' : Finset (Nat × Resource)}
    (held : ∀ p ∈ opened, p.1 = g.id ∧ g.records p.2 = true ∧ c.left p.2 = true)
    (cleaned : cleanNext opened g c = some (opened', later)) :
    opened' ⊆ opened ∧ match later with
      | some later => ∀ p ∈ opened', later.left p.2 = true
      | none => opened' = ∅ := by
  cases c with
  | tasks =>
    simp only [cleanNext, Option.ite_none_right_eq_some, Option.some.injEq, Prod.mk.injEq] at cleaned
    obtain ⟨ended, rfl, rfl⟩ := cleaned
    refine ⟨subset_rfl, fun p here => ?_⟩
    obtain ⟨id, recorded, _⟩ := held p here
    obtain ⟨n, r⟩ := p
    cases r with
    | task t =>
      cases id
      exact absurd (mem_tasksOf.mpr ⟨t, rfl⟩) (Finset.disjoint_left.mp (ended recorded) here)
    | _ => rfl
  | socks =>
    cases Option.some.inj cleaned
    exact ⟨Finset.erase_subset .., erased_left held fun r => left_next.1⟩
  | http =>
    cases Option.some.inj cleaned
    exact ⟨Finset.erase_subset .., erased_left held fun r => left_next.2.1⟩
  | wpad =>
    cases Option.some.inj cleaned
    split
    case isTrue => exact ⟨Finset.erase_subset .., erased_left held fun r => left_next.2.2⟩
    case isFalse unmade =>
      refine ⟨subset_rfl, fun p here => ?_⟩
      obtain ⟨_, recorded, left⟩ := held p here
      apply left_next.2.2 _ left
      intro same
      rw [same] at recorded
      exact unmade recorded
  | thread =>
    simp only [cleanNext, Option.ite_none_right_eq_some, Option.some.injEq, Prod.mk.injEq] at cleaned
    obtain ⟨joined, rfl, rfl⟩ := cleaned
    refine ⟨subset_rfl, Finset.eq_empty_of_forall_notMem fun p here => ?_⟩
    obtain ⟨n, r⟩ := p
    obtain ⟨rfl, recorded, left⟩ := held _ here
    obtain rfl := left_last left
    exact joined recorded here

theorem Owned.of_held (holds : t.phase.holds = some (g, left)) (newest : g.id = t.counter)
    (held : ∀ p ∈ t.opened, p.1 = g.id ∧ g.records p.2 = true ∧ left p.2 = true) : Owned t := by
  constructor
  · rintro g' left' holds'
    cases Option.some.inj (holds.symm.trans holds')
    exact newest
  · exact fun p here => ⟨g, left, holds, held p here⟩

theorem Owned.held_by (owned : Owned s) (holds : s.phase.holds = some (g, left)) :
    ∀ p ∈ s.opened, p.1 = g.id ∧ g.records p.2 = true ∧ left p.2 = true := by
  intro p here
  obtain ⟨g', left', holds', held⟩ := owned.held p here
  cases Option.some.inj (holds.symm.trans holds')
  exact held

/-- A part that fails, or the verification, goes on with what was opened. -/
theorem owned_keeps (owned : Owned s) (holds : s.phase.holds = some (g, left))
    (next : t.phase.holds = some (g', left')) (same : g'.id = g.id) (counter : t.counter = s.counter)
    (smaller : t.opened ⊆ s.opened)
    (weaker : ∀ r, g.records r = true → left r = true → (g.id, r) ∈ t.opened →
      g'.records r = true ∧ left' r = true) : Owned t := by
  apply Owned.of_held next
  · rw [same, counter, owned.newest g left holds]
  · intro p here
    obtain ⟨id, recorded, there⟩ := owned.held_by holds p (smaller here)
    obtain ⟨n, r⟩ := p
    cases id
    exact ⟨same.symm, weaker r recorded there here⟩

/-- A part that is opened is written into the dictionary with the same step. -/
theorem owned_opens (owned : Owned s) (holds : s.phase.holds = some (g, left))
    (next : t.phase.holds = some (g', left')) (same : g'.id = g.id) (counter : t.counter = s.counter)
    (opened : ∀ p ∈ t.opened, p ∈ s.opened ∨ p.1 = g.id ∧ g'.records p.2 = true ∧ left' p.2 = true)
    (weaker : ∀ r, g.records r = true → left r = true → g'.records r = true ∧ left' r = true) :
    Owned t := by
  apply Owned.of_held next
  · rw [same, counter, owned.newest g left holds]
  · intro p here
    rw [same]
    rcases opened p here with old | new
    · obtain ⟨id, recorded, there⟩ := owned.held_by holds p old
      exact ⟨id, weaker p.2 recorded there⟩
    · exact new

theorem owned_inserts (owned : Owned s) (holds : s.phase.holds = some (g, left))
    (next : t.phase.holds = some (g', left')) (same : g'.id = g.id) (counter : t.counter = s.counter)
    (opened : t.opened = insert (g.id, made) s.opened) (written : g'.records made = true)
    (open_ : left' made = true)
    (weaker : ∀ r, g.records r = true → left r = true → g'.records r = true ∧ left' r = true) :
    Owned t := by
  refine owned_opens owned holds next same counter ?_ weaker
  intro p here
  rw [opened] at here
  rcases Finset.mem_insert.mp here with new | old
  · subst new
    exact .inr ⟨rfl, written, open_⟩
  · exact .inl old

/-- What a part may find open the next one may find open too. -/
theorem after_next {r : Resource} :
    (Part.http.after r = true → Part.wpad.after r = true) ∧
      (Part.wpad.after r = true → Part.thread.after r = true) ∧
      (Part.thread.after r = true → Part.tasks.after r = true) ∧ Part.verify.after r = true := by
  cases r <;> simp [Part.after]

/-- Entries are only added to the dictionary of a generation. -/
theorem records_added {g : Generation} {r : Resource} (recorded : g.records r = true) :
    Generation.records { g with wpad := true } r = true ∧
      Generation.records { g with wpadThread := true } r = true ∧
      Generation.records { g with tasks := true } r = true := by
  revert recorded
  cases r <;> simp [Generation.records]

theorem openNext_owned (owned : Owned s) (at_part : s.phase = .opening g part)
    (moved : openNext config s g part o = some (out, t)) : Owned t ∧ ∀ e, out ≠ .startRaised e := by
  have holds : s.phase.holds = some (g, part.after) := by rw [at_part]; rfl
  have undo {e : Str} {g' : Generation} (same : g'.id = g.id)
      (weaker : ∀ r, g.records r = true → g'.records r = true) :
      Owned { s with phase := .undoing g' e .tasks } :=
    owned_keeps owned holds rfl same rfl subset_rfl fun r recorded _ _ => ⟨weaker r recorded, rfl⟩
  cases part with
  | socks =>
    cases o with
    | done =>
      cases Option.some.inj moved
      exact ⟨owned_inserts owned holds rfl rfl rfl rfl rfl rfl (by simp [Part.after]), by simp⟩
    | raised e => cases Option.some.inj moved; exact ⟨undo rfl fun _ => id, by simp⟩
    | _ => contradiction
  | http =>
    cases o with
    | done =>
      cases Option.some.inj moved
      refine ⟨owned_inserts owned holds rfl rfl rfl rfl rfl rfl fun r recorded before => ?_, by simp⟩
      exact ⟨recorded, after_next.1 before⟩
    | raised e => cases Option.some.inj moved; exact ⟨undo rfl fun _ => id, by simp⟩
    | _ => contradiction
  | wpad =>
    cases o with
    | done =>
      cases Option.some.inj moved
      refine ⟨owned_inserts owned holds rfl rfl rfl rfl rfl rfl fun r recorded before => ?_, by simp⟩
      exact ⟨(records_added recorded).1, after_next.2.1 before⟩
    | raised e => cases Option.some.inj moved; exact ⟨undo rfl fun _ => id, by simp⟩
    | _ => contradiction
  | thread =>
    cases o with
    | done =>
      cases Option.some.inj moved
      refine ⟨owned_inserts owned holds rfl rfl rfl rfl rfl rfl fun r recorded before => ?_, by simp⟩
      exact ⟨(records_added recorded).2.1, after_next.2.2.1 before⟩
    | raised e =>
      cases Option.some.inj moved
      exact ⟨undo rfl fun r recorded => (records_added recorded).2.1, by simp⟩
    | _ => contradiction
  | tasks =>
    cases o with
    | done =>
      cases Option.some.inj moved
      refine ⟨owned_opens owned holds rfl rfl rfl ?_ ?_, by simp⟩
      · intro p here
        refine (Finset.mem_union.mp here).imp_right fun new => ?_
        obtain ⟨t, rfl⟩ := mem_tasksOf.mp new
        exact ⟨rfl, rfl, rfl⟩
      · intro r recorded before
        exact ⟨(records_added recorded).2.2, after_next.2.2.2⟩
    | _ => contradiction
  | verify =>
    cases o with
    | done =>
      cases Option.some.inj moved
      exact ⟨owned_keeps owned holds rfl rfl rfl subset_rfl fun _ recorded _ _ => ⟨recorded, rfl⟩, by simp⟩
    | raised e => cases Option.some.inj moved; exact ⟨undo rfl fun _ => id, by simp⟩
    | _ => contradiction

theorem startRaised_owned (empty : s.opened = ∅) (raised : startRaised s e = (out, t)) :
    Owned t ∧ t.opened = ∅ := by
  simp only [startRaised] at raised
  split at raised <;> cases raised <;> exact ⟨owned_empty empty rfl, empty⟩

theorem settle_empty (config : Config) (since : Option ℚ) (now : ℚ) (empty : s.opened = ∅) :
    Owned (settle config s since now) := by
  simp only [settle]
  split
  · exact owned_empty empty rfl
  · split <;> split <;> exact owned_empty empty rfl

theorem holds_in {s : State} {phase : Phase} (here : s.phase = phase) (holds : phase.holds = some held) :
    s.phase.holds = some held :=
  here ▸ holds

theorem beforeRoute_holds {phase : Phase} (before : phase.beforeRoute = true) : phase.holds = none := by
  cases phase <;> simp_all [Phase.beforeRoute, Phase.holds]

theorem unopened_holds {phase : Phase} (early : phase.unopened = true) : phase.holds = none := by
  cases phase <;> simp_all [Phase.unopened, Phase.holds]

/-- A step of the coroutine keeps the ownership, and leaves nothing open when
it is `_start_generation` raising. -/
theorem owned_goes (owned : Owned s) (goes : Goes config s o out t) :
    Owned t ∧ ∀ e, out = .startRaised e → t.opened = ∅ := by
  have idle {u : State} (none_held : s.phase.holds = none) (same : u.opened = s.opened)
      (next : u.phase.holds = none) : Owned u :=
    owned_empty (same.trans (owned.nothing none_held)) next
  cases goes with
  | leaves phase _ | begins phase _ | routes phase | resolves phase | tells phase | told phase
  | cancels phase _ | returns phase _ | cancelTold phase =>
    exact ⟨idle (by rw [phase]; rfl) rfl rfl, by simp⟩
  | looks before after =>
    exact ⟨idle (beforeRoute_holds before) rfl (beforeRoute_holds after), by simp⟩
  | @constructs selection phase =>
    have empty := owned.nothing (by rw [phase]; rfl)
    refine ⟨Owned.of_held (g := { id := s.counter, selection }) rfl rfl ?_, by simp⟩
    simp [empty]
  | raises early raised =>
    have after := startRaised_owned (owned.nothing (unopened_holds early)) raised
    exact ⟨after.1, fun _ _ => after.2⟩
  | opens phase moved =>
    have after := openNext_owned owned phase moved
    exact ⟨after.1, fun e raised => absurd raised (after.2 e)⟩
  | undoes phase cleaned =>
    have holds := holds_in phase rfl
    obtain ⟨smaller, left⟩ := cleanNext_held (owned.held_by holds) cleaned
    exact ⟨owned_keeps owned holds rfl rfl rfl smaller fun r recorded _ here => ⟨recorded, left _ here⟩,
      by simp⟩
  | undone phase cleaned raised =>
    have holds := holds_in phase rfl
    obtain ⟨_, empty⟩ := cleanNext_held (owned.held_by holds) cleaned
    have after := startRaised_owned (by exact empty) raised
    exact ⟨after.1, fun _ _ => after.2⟩
  | first phase _ | again phase _ | announces phase =>
    have holds := holds_in phase rfl
    exact ⟨owned_keeps owned holds rfl rfl rfl subset_rfl fun _ recorded _ _ => ⟨recorded, rfl⟩, by simp⟩
  | @changes _ _ c _ phase ended =>
    have holds := holds_in phase rfl
    refine ⟨?_, by simp⟩
    cases c <;> simp only [changed, Option.ite_none_right_eq_some, Option.some.injEq] at ended <;>
      obtain ⟨_, rfl⟩ := ended <;>
      exact owned_keeps owned holds rfl rfl rfl subset_rfl fun _ recorded _ _ => ⟨recorded, rfl⟩
  | cleans phase cleaned =>
    have holds := holds_in phase rfl
    obtain ⟨smaller, left⟩ := cleanNext_held (owned.held_by holds) cleaned
    exact ⟨owned_keeps owned holds rfl rfl rfl smaller fun r recorded _ here => ⟨recorded, left _ here⟩,
      by simp⟩
  | cleaned phase cleaned =>
    have holds := holds_in phase rfl
    obtain ⟨_, empty⟩ := cleanNext_held (owned.held_by holds) cleaned
    refine ⟨owned_empty empty ?_, by simp⟩
    dsimp only
    split <;> rfl
  | settles phase => exact ⟨settle_empty config _ _ (owned.nothing (by rw [phase]; rfl)), by simp⟩
  | waits phase _ => exact ⟨idle (by rw [phase]; rfl) rfl rfl, by simp⟩

theorem owned_moves (owned : Owned s) (moved : moves config s l t) :
    Owned t ∧ ∀ e, l.2 = .startRaised e → t.opened = ∅ := by
  obtain ⟨event, out⟩ := l
  cases event with
  | stopSet | recoverSet =>
    cases Option.some.inj moved
    exact ⟨⟨owned.newest, owned.held⟩, by simp⟩
  | gone p =>
    simp only [moves, step, Option.ite_none_right_eq_some, Option.some.injEq, Prod.mk.injEq] at moved
    obtain ⟨_, rfl, rfl⟩ := moved
    exact ⟨⟨owned.newest, fun q here => owned.held q (Finset.mem_of_mem_erase here)⟩, by simp⟩
  | goesOn o => exact owned_goes owned (goOn_goes moved)

theorem owned_run (run : Run (moves config) (init config counter stopRequested) past s) : Owned s :=
  run.invariant (owned_empty rfl rfl) fun owned moved => (owned_moves owned moved).1

/-- In every run of the supervisor all that is open belongs to the newest
generation; nothing at all is open when listeners begin to open, after a start
that raised, and when the supervisor has returned. -/
theorem one_generation_live (run : Run (moves config) (init config counter stopRequested) past s) :
    (∀ p ∈ s.opened, p.1 = s.counter) ∧
    (∀ g, s.phase = .opening g .socks → s.opened = ∅) ∧
    (∀ event e t, moves config s (event, .startRaised e) t → t.opened = ∅) ∧
    (s.phase = .returned → s.opened = ∅) := by
  have owned := owned_run run
  refine ⟨fun p here => ?_, fun g phase => ?_, fun event e t moved => ?_, fun phase => ?_⟩
  · obtain ⟨g, left, holds, id, _⟩ := owned.held p here
    exact id.trans (owned.newest g left holds)
  · apply Finset.eq_empty_of_forall_notMem
    intro p here
    have holds : s.phase.holds = some (g, Part.socks.after) := by rw [phase]; rfl
    exact Bool.false_ne_true (owned.held_by holds p here).2.2
  · exact (owned_moves owned moved).2 e rfl
  · exact owned.nothing (by rw [phase]; rfl)

/-- HTTP fails to bind in the first generation, after SOCKS was bound. -/
theorem failed_bind_leaves_nothing : ∃ past s, Run (moves {}) (init {} 0 false) past s ∧
    s.phase = .returned ∧ s.opened = ∅ := by
  obtain ⟨past, s, executed, phase⟩ : ∃ past s, execute (step {}) (fun _ event out => (event, out))
      (init {} 0 false) ([.done, .done, .done, .selected "Auto".toList, .done, .done, .done,
        .raised "address in use".toList, .done, .done, .done, .done, .done, .done, .done].map
          Event.goesOn) = some (past, s) ∧ s.phase = .returned := ⟨_, _, rfl, rfl⟩
  have run : Run (moves {}) (init {} 0 false) past s := Run.of_outputs executed
  exact ⟨past, s, run, phase, (one_generation_live run).2.2.2 phase⟩

end HttpSocksProxy.Supervisor
