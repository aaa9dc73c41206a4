import HttpSocksProxy.Legacy.Tasks
import HttpSocksProxy.Server.Binding

/-! `ServerManager` of the legacy mode, one call of `start` with the `stop` it makes: the
calling thread against the tasks of the loop thread, and what each exit leaves open. -/
namespace HttpSocksProxy.Legacy
open Transition
open InetText (Family)

/-- What makes `start` call `stop`. -/
inductive Fault where
  | timedOut
  | failed (text : Str)
  deriving DecidableEq, Repr

def Fault.text : Fault → Str
  | timedOut => "Legacy Mode startup timed out".toList
  | failed text => text

/-- What `start` raises: the interface lookup, the WPAD bind, a constructor, or what
came after a `stop`. -/
inductive Raised where
  | lookup (text : Str)
  | wpad (text : Str)
  | unbuilt (p : Proxy)
  | stopped (fault : Fault)
  deriving DecidableEq, Repr

/-- The thread that calls `start`, from `checking` on in `stop`: before `is_running`, in
`future.result`, in `join` with the loop told to stop, before the WPAD shutdown. -/
inductive Caller where
  | called
  | looked (hosts : ConnectHosts)
  | wpadBound (hosts : ConnectHosts)
  | wpadServing (hosts : ConnectHosts)
  | looped (hosts : ConnectHosts)
  | socksMade (hosts : ConnectHosts)
  | httpMade
  | waiting
  | checking (fault : Fault)
  | awaiting (fault : Fault)
  | joining (fault : Fault)
  | closingWpad (fault : Fault)
  | raised (why : Raised)
  | returned
  deriving DecidableEq, Repr

def Caller.finished : Caller → Bool
  | raised _ | returned => true
  | _ => false

/-- The event loop, from `unstarted` on with its thread. -/
inductive Loop where
  | absent
  | made
  | unstarted
  | running
  | closed
  deriving DecidableEq, Repr

structure State where
  nameservers : List Str
  caller : Caller
  wpadServer : Bool
  wpadThread : Bool
  loop : Loop
  tasks : Tasks

def init (nameservers : List Str) : State := ⟨nameservers, .called, false, false, .absent, .init⟩

inductive Event where
  | looksUp (result : Except Str ConnectHosts)
  | bindsWpad (failed : Option Str)
  | onward
  | timesOut
  | launches
  | moves (m : Move)
  | closes

section Code
variable (afForAddress : Str → Option Family)

/-- The calling thread up to what may fail outside it or what it waits for. -/
def onward (s : State) : Option State :=
  match s.caller with
  | .wpadBound hosts => some { s with wpadThread := true, caller := .wpadServing hosts }
  | .wpadServing hosts => some { s with loop := .made, caller := .looped hosts }
  | .looped hosts => match Binding.construct afForAddress s.nameservers hosts with
    | some (_, nameservers) => some { s with nameservers, caller := .socksMade hosts }
    | none => some { s with caller := .raised (.unbuilt .socks) }
  | .socksMade hosts => match Binding.construct afForAddress s.nameservers hosts with
    | some (_, nameservers) => some { s with nameservers, caller := .httpMade }
    | none => some { s with caller := .raised (.unbuilt .http) }
  | .httpMade => some { s with loop := .unstarted, caller := .waiting }
  | .waiting =>
    if s.tasks.startupEvent then match s.tasks.startupError with
      | none => some { s with caller := .returned }
      | some text => some { s with caller := .checking (.failed text) }
    else none
  | .checking fault =>
    if s.loop = .running then some { s with
      tasks := { s.tasks with stopAll := .looking .socks }
      caller := .awaiting fault }
    else some { s with caller := .closingWpad fault }
  | .awaiting fault =>
    if s.tasks.stopAll = .done then some { s with caller := .joining fault } else none
  | .joining fault => if s.loop = .closed then some { s with caller := .closingWpad fault } else none
  | .closingWpad fault => some { s with
      wpadServer := false
      wpadThread := false
      caller := .raised (.stopped fault) }
  | .called | .looked _ | .raised _ | .returned => none

/-- The threads and tasks take turns in any way; `timesOut` is the end of the wait for
the startup event, `launches` the loop thread at `run_forever`. -/
def step (s : State) (e : Event) : Option State :=
  if s.caller.finished then none else
  match e with
  | .looksUp result => match s.caller, result with
    | .called, .ok hosts => some { s with caller := .looked hosts }
    | .called, .error text => some { s with caller := .raised (.lookup text) }
    | _, _ => none
  | .bindsWpad failed => match s.caller, failed with
    | .looked hosts, none => some { s with wpadServer := true, caller := .wpadBound hosts }
    | .looked _, some text => some { s with
        caller := .raised (.wpad ("WPAD failed to bind :8088 — ".toList ++ text)) }
    | _, _ => none
  | .onward => onward afForAddress s
  | .timesOut =>
    if s.caller = .waiting ∧ s.tasks.startupEvent = false then
      some { s with caller := .checking .timedOut }
    else none
  | .launches => if s.loop = .unstarted then some { s with loop := .running } else none
  | .moves m => if s.loop = .running then (s.tasks.move m).map ({ s with tasks := · }) else none
  | .closes => match s.caller, s.loop with
    | .joining _, .running => some { s with loop := .closed, tasks := s.tasks.close }
    | _, _ => none

/-- The resolver suits the hosts; and a `stop` that is called for a timeout finds the loop
in `run_forever`, and ends it with each open listener in a `serve_forever`. -/
def orderly (s : State) : Event → Bool
  | .onward => match s.caller with
    | .looped hosts => (Binding.construct afForAddress s.nameservers hosts).isSome
    | .checking .timedOut => s.loop = .running
    | _ => true
  | .closes => match s.caller with
    | .joining .timedOut => decide (∀ l ∈ s.tasks.opened, s.tasks.run l.1 = .serving l.2)
    | _ => true
  | _ => true

/-- What a step can do. -/
inductive Goes (s : State) : Event → State → Prop where
  | looked (called : s.caller = .called) (hosts : ConnectHosts) :
    Goes s (.looksUp (.ok hosts)) { s with caller := .looked hosts }
  | lost (called : s.caller = .called) (text : Str) :
    Goes s (.looksUp (.error text)) { s with caller := .raised (.lookup text) }
  | bound (looked : s.caller = .looked hosts) :
    Goes s (.bindsWpad none) { s with wpadServer := true, caller := .wpadBound hosts }
  | unbound (looked : s.caller = .looked hosts) (text : Str) : Goes s (.bindsWpad (some text))
      { s with caller := .raised (.wpad ("WPAD failed to bind :8088 — ".toList ++ text)) }
  | onward (moved : onward afForAddress s = some t) : Goes s .onward t
  | timesOut (waiting : s.caller = .waiting) : Goes s .timesOut { s with caller := .checking .timedOut }
  | launches (unstarted : s.loop = .unstarted) : Goes s .launches { s with loop := .running }
  | moves (running : s.loop = .running) (moved : s.tasks.move m = some k) :
    Goes s (.moves m) { s with tasks := k }
  | closes (joining : s.caller = .joining fault) (running : s.loop = .running) :
    Goes s .closes { s with loop := .closed, tasks := s.tasks.close }

/-- What is known at each point of the calling thread. -/
def At (s : State) : Prop :=
  match s.caller with
  | .called | .looked _ | .raised (.lookup _) | .raised (.wpad _) =>
    s.wpadServer = false ∧ s.wpadThread = false ∧ s.loop = .absent ∧ s.tasks = .init
  | .wpadBound _ | .wpadServing _ => s.loop = .absent ∧ s.tasks = .init
  | .looped _ | .httpMade => s.loop = .made ∧ s.tasks = .init
  | .raised (.unbuilt _) => s.loop = .made
  | .socksMade hosts => (∃ nameservers server,
      Binding.construct afForAddress nameservers hosts = some (server, s.nameservers)) ∧
      s.loop = .made ∧ s.tasks = .init
  | .waiting | .checking .timedOut => s.loop = .unstarted ∧ s.tasks = .init ∨
      s.loop = .running ∧ s.tasks.stopAll = .absent ∧ Kept s.tasks
  | .checking (.failed _) | .awaiting (.failed _) => s.loop = .running ∧ Failed s.tasks
  | .awaiting .timedOut => s.loop = .running
  | .joining (.failed _) => Failed s.tasks
  | .closingWpad _ => s.loop ≠ .absent
  | .raised (.stopped _) => s.wpadServer = false ∧ s.wpadThread = false ∧ s.loop ≠ .absent
  | .joining .timedOut | .returned => True

end Code

/-- Nothing that the call of `start` has made is open: no WPAD server with its thread, no
loop with its thread, no SOCKS or HTTP listener. -/
structure Clean (s : State) : Prop where
  wpadServer : s.wpadServer = false
  wpadThread : s.wpadThread = false
  loop : s.loop = .absent ∨ s.loop = .closed
  opened : s.tasks.opened = ∅

/-- The rest of `start` can still leave nothing open. -/
def Sound (s : State) : Prop :=
  match s.caller with
  | .raised (.unbuilt _) => False
  | .joining _ => s.loop = .closed → s.tasks.opened = ∅
  | .closingWpad _ | .raised (.stopped _) => s.loop = .closed ∧ s.tasks.opened = ∅
  | _ => True

variable {afForAddress : Str → Option Family} {s t : State}

theorem step_goes (stepped : step afForAddress s e = some t) : Goes afForAddress s e t := by
  unfold step at stepped
  split at stepped
  case isTrue => cases stepped
  cases e with
  | looksUp result =>
    simp only at stepped
    split at stepped <;> cases stepped
    case h_1 hosts called => exact .looked called hosts
    case h_2 text called => exact .lost called text
  | bindsWpad failed =>
    simp only at stepped
    split at stepped <;> cases stepped
    case h_1 looked => exact .bound looked
    case h_2 text looked => exact .unbound looked text
  | onward => exact .onward stepped
  | timesOut =>
    simp only [Option.ite_none_right_eq_some, Option.some.injEq] at stepped
    obtain ⟨⟨waiting, _⟩, rfl⟩ := stepped
    exact .timesOut waiting
  | launches =>
    simp only [Option.ite_none_right_eq_some, Option.some.injEq] at stepped
    obtain ⟨unstarted, rfl⟩ := stepped
    exact .launches unstarted
  | moves m =>
    simp only [Option.ite_none_right_eq_some, Option.map_eq_some_iff] at stepped
    obtain ⟨running, k, moved, rfl⟩ := stepped
    exact .moves running moved
  | closes =>
    simp only at stepped
    split at stepped <;> cases stepped
    case h_1 joining running => exact .closes joining running

theorem at_onward (here : At afForAddress s) (stepped : onward afForAddress s = some t) :
    At afForAddress t := by
  obtain ⟨nameservers, caller, wpadServer, wpadThread, loop, tasks⟩ := s
  cases caller with
  | wpadBound hosts =>
    cases stepped
    exact here
  | wpadServing hosts =>
    cases stepped
    exact ⟨rfl, here.2⟩
  | looped hosts =>
    simp only [onward] at stepped
    split at stepped
    case h_1 server left built =>
      cases stepped
      exact ⟨⟨nameservers, server, built⟩, here⟩
    case h_2 =>
      cases stepped
      exact here.1
  | socksMade hosts =>
    obtain ⟨⟨earlier, server, built⟩, made⟩ := here
    simp only [onward, Binding.construct_again built] at stepped
    cases stepped
    exact made
  | httpMade =>
    cases stepped
    exact .inl ⟨rfl, here.2⟩
  | waiting =>
    simp only [onward] at stepped
    split at stepped
    case isTrue event =>
      split at stepped
      case h_1 =>
        cases stepped
        trivial
      case h_2 text error =>
        cases stepped
        rcases here with ⟨_, rfl⟩ | ⟨running, _, kept⟩
        · cases event
        · exact ⟨running, kept.failed event error⟩
    case isFalse => cases stepped
  | checking fault =>
    simp only [onward] at stepped
    split at stepped
    case isTrue running =>
      cases stepped
      cases fault with
      | timedOut => exact running
      | failed text => exact ⟨running, here.2.1, here.2.2.opened, here.2.2.run⟩
    case isFalse stopped =>
      cases stepped
      cases fault with
      | timedOut =>
        rcases here with ⟨rfl, _⟩ | ⟨running, _⟩
        · exact Loop.noConfusion
        · exact absurd running stopped
      | failed text => exact absurd here.1 stopped
  | awaiting fault =>
    simp only [onward, Option.ite_none_right_eq_some, Option.some.injEq] at stepped
    obtain ⟨_, rfl⟩ := stepped
    cases fault with
    | timedOut => trivial
    | failed text => exact here.2
  | joining fault =>
    simp only [onward, Option.ite_none_right_eq_some, Option.some.injEq] at stepped
    obtain ⟨rfl, rfl⟩ := stepped
    exact Loop.noConfusion
  | closingWpad fault =>
    cases stepped
    exact ⟨rfl, rfl, here⟩
  | called | looked | raised | returned => cases stepped

theorem at_launches (here : At afForAddress s) (unstarted : s.loop = .unstarted) :
    At afForAddress { s with loop := .running } := by
  obtain ⟨nameservers, caller, wpadServer, wpadThread, loop, tasks⟩ := s
  subst unstarted
  have begun {k : Tasks} (before : Loop.unstarted = .unstarted ∧ k = .init ∨
      Loop.unstarted = .running ∧ k.stopAll = .absent ∧ Kept k) : k.stopAll = .absent ∧ Kept k := by
    rcases before with ⟨_, rfl⟩ | ⟨running, _⟩
    · exact ⟨rfl, kept_init⟩
    · cases running
  cases caller with
  | called | looked => cases here.2.2.1
  | wpadBound | wpadServing | looped | httpMade => cases here.1
  | socksMade => cases here.2.1
  | waiting => exact .inr ⟨rfl, begun here⟩
  | checking fault =>
    cases fault with
    | timedOut => exact .inr ⟨rfl, begun here⟩
    | failed => cases here.1
  | awaiting fault =>
    cases fault with
    | timedOut => cases here
    | failed => cases here.1
  | joining fault => cases fault <;> exact here
  | closingWpad => exact Loop.noConfusion
  | raised why =>
    cases why with
    | lookup | wpad => cases here.2.2.1
    | unbuilt => cases here
    | stopped => exact ⟨here.1, here.2.1, Loop.noConfusion⟩
  | returned => trivial

theorem at_moves (here : At afForAddress s) (running : s.loop = .running)
    (moved : s.tasks.move m = some k) : At afForAddress { s with tasks := k } := by
  obtain ⟨nameservers, caller, wpadServer, wpadThread, loop, tasks⟩ := s
  subst running
  have kept (before : Loop.running = .unstarted ∧ tasks = .init ∨
      Loop.running = .running ∧ tasks.stopAll = .absent ∧ Kept tasks) : k.stopAll = .absent ∧ Kept k := by
    rcases before with ⟨unstarted, _⟩ | ⟨_, unstopped, kept⟩
    · cases unstarted
    · exact kept_move unstopped kept moved
  cases caller with
  | called | looked => cases here.2.2.1
  | wpadBound | wpadServing | looped | httpMade => cases here.1
  | socksMade => cases here.2.1
  | waiting => exact .inr ⟨rfl, kept here⟩
  | checking fault =>
    cases fault with
    | timedOut => exact .inr ⟨rfl, kept here⟩
    | failed => exact ⟨rfl, failed_move here.2 moved⟩
  | awaiting fault =>
    cases fault with
    | timedOut => rfl
    | failed => exact ⟨rfl, failed_move here.2 moved⟩
  | joining fault =>
    cases fault with
    | timedOut => trivial
    | failed => exact failed_move here moved
  | closingWpad => exact here
  | raised why =>
    cases why with
    | lookup | wpad => cases here.2.2.1
    | unbuilt => cases here
    | stopped => exact here
  | returned => trivial

theorem at_step (here : At afForAddress s) (stepped : step afForAddress s e = some t) :
    At afForAddress t := by
  cases step_goes stepped with
  | looked called | lost called => simpa [At, called] using here
  | bound looked =>
    simp only [At, looked] at here
    exact here.2.2
  | unbound looked => simpa [At, looked] using here
  | onward moved => exact at_onward here moved
  | timesOut waiting => simpa [At, waiting] using here
  | launches unstarted => exact at_launches here unstarted
  | moves running moved => exact at_moves here running moved
  | @closes fault joining =>
    simp only [At, joining] at here ⊢
    cases fault with
    | timedOut => trivial
    | failed => exact failed_close here

theorem sound_onward (here : At afForAddress s) (stepped : onward afForAddress s = some t) :
    Sound t ↔ Sound s ∧ orderly afForAddress s .onward := by
  obtain ⟨nameservers, caller, wpadServer, wpadThread, loop, tasks⟩ := s
  cases caller with
  | wpadBound | wpadServing | httpMade =>
    cases stepped
    simp [Sound, orderly]
  | looped hosts =>
    simp only [onward] at stepped
    split at stepped <;> cases stepped
    case h_1 built => simp [Sound, orderly, built]
    case h_2 built => simp [Sound, orderly, built]
  | socksMade hosts =>
    obtain ⟨⟨earlier, server, built⟩, made⟩ := here
    simp only [onward, Binding.construct_again built] at stepped
    cases stepped
    simp [Sound, orderly]
  | waiting =>
    simp only [onward] at stepped
    split at stepped
    case isTrue => split at stepped <;> cases stepped <;> simp [Sound, orderly]
    case isFalse => cases stepped
  | checking fault =>
    simp only [onward] at stepped
    split at stepped
    case isTrue running =>
      cases stepped
      cases fault <;> simp [Sound, orderly, running]
    case isFalse stopped =>
      cases stepped
      cases fault with
      | timedOut =>
        rcases here with ⟨rfl, _⟩ | ⟨running, _⟩
        · simp [Sound, orderly]
        · exact absurd running stopped
      | failed text => exact absurd here.1 stopped
  | awaiting fault =>
    simp only [onward, Option.ite_none_right_eq_some, Option.some.injEq] at stepped
    obtain ⟨_, rfl⟩ := stepped
    have running : loop = .running := by
      cases fault with
      | timedOut => exact here
      | failed text => exact here.1
    simp [Sound, orderly, running]
  | joining fault =>
    simp only [onward, Option.ite_none_right_eq_some, Option.some.injEq] at stepped
    obtain ⟨rfl, rfl⟩ := stepped
    cases fault <;> simp [Sound, orderly]
  | closingWpad fault =>
    cases stepped
    simp [Sound, orderly]
  | called | looked | raised | returned => cases stepped

/-- What the tasks do does not show before the loop is closed. -/
theorem sound_open (before : s.loop ≠ .closed) (after : t.loop ≠ .closed) (same : t.caller = s.caller) :
    Sound t ↔ Sound s := by
  unfold Sound
  rw [same]
  split <;> simp [before, after]

theorem sound_step (here : At afForAddress s) (stepped : step afForAddress s e = some t) :
    Sound t ↔ Sound s ∧ orderly afForAddress s e := by
  cases step_goes stepped with
  | looked called | lost called => simp [Sound, called, orderly]
  | bound looked | unbound looked => simp [Sound, looked, orderly]
  | onward moved => exact sound_onward here moved
  | timesOut waiting => simp [Sound, waiting, orderly]
  | launches unstarted =>
    have before : s.loop ≠ .closed := by simp [unstarted]
    simpa only [orderly, and_true] using
      sound_open before (t := { s with loop := .running }) Loop.noConfusion rfl
  | @moves m k running =>
    have before : s.loop ≠ .closed := by simp [running]
    simpa only [orderly, and_true] using sound_open before (t := { s with tasks := k }) before rfl
  | @closes fault joining running =>
    simp only [Sound, joining, running, orderly]
    cases fault with
    | timedOut => simp [close_opened]
    | failed =>
      simp only [At, joining] at here
      simp [(failed_close here).2.opened]

theorem clean_iff (here : At afForAddress s) (raised : s.caller = .raised why) : Clean s ↔ Sound s := by
  simp only [At, Sound, raised] at here ⊢
  cases why with
  | lookup | wpad =>
    obtain ⟨server, thread, absent, idle⟩ := here
    exact iff_of_true ⟨server, thread, .inl absent, by rw [idle]; rfl⟩ trivial
  | unbuilt =>
    refine iff_of_false (fun clean => ?_) id
    rcases clean.loop with absent | closed
    · rw [here] at absent
      cases absent
    · rw [here] at closed
      cases closed
  | stopped =>
    obtain ⟨server, thread, present⟩ := here
    exact ⟨fun clean => ⟨clean.loop.resolve_left present, clean.opened⟩,
      fun ⟨closed, opened⟩ => ⟨server, thread, .inr closed, opened⟩⟩

theorem at_run (run : Run (byStep (step afForAddress)) (init nameservers) past s) : At afForAddress s := by
  have start : At afForAddress (init nameservers) := ⟨rfl, rfl, rfl, rfl⟩
  exact run.invariant start at_step

/-- A `start` that raises leaves nothing open exactly when the resolver suited the hosts
and, after a timeout, `stop` met the loop and its listeners in order. -/
theorem start_clean_iff (run : Run (byStep (step afForAddress)) (init nameservers) past s)
    (raised : s.caller = .raised why) : Clean s ↔
      Run (guarded (byStep (step afForAddress)) fun s e => orderly afForAddress s e)
        (init nameservers) past s := by
  have start : Sound (init nameservers) := trivial
  rw [clean_iff (at_run run) raised]
  exact run.guarded_iff start at_run sound_step

/-- A taken HTTP port: `_serve` closes the SOCKS listener, and `stop` the rest. -/
theorem http_bind_failure_clean : ∃ afForAddress nameservers past s fault,
    Run (byStep (step afForAddress)) (init nameservers) past s ∧ s.caller = .raised (.stopped fault) ∧
    fault.text = "HTTP failed to bind :9877 — address already in use".toList ∧ Clean s := by
  have replayed := show replay (fun s e =>
      if orderly (if · = Binding.router then some .inet else none) s e then
        step (if · = Binding.router then some .inet else none) s e
      else none) (init [Binding.router])
    ([.looksUp (.ok Binding.wifi), .bindsWpad none] ++ .replicate 5 .onward ++
      [.launches, .moves (.serves none), .moves (.serves none), .moves (.serves none),
        .moves (.serves (some "address already in use".toList)), .moves (.serves none),
        .onward, .onward] ++ .replicate 5 (.moves .stops) ++ [.onward, .closes, .onward, .onward]) =
    some _ from rfl
  have run := Run.of_replay_guarded replayed
  exact ⟨_, _, _, _, _, run.unguarded, rfl, rfl, (start_clean_iff run.unguarded rfl).mpr run⟩

/-- A resolver that is a URL: the first constructor raises with the WPAD server, its
thread and the loop there. -/
theorem unsuited_resolver_leaks :
    (∃ afForAddress nameservers past s,
      Run (byStep (step afForAddress)) (init nameservers) past s ∧ s.caller = .raised (.unbuilt .socks) ∧
      s.wpadServer = true ∧ s.wpadThread = true ∧ s.loop = .made) ∧
    ¬ ∀ afForAddress nameservers past s why,
      Run (byStep (step afForAddress)) (init nameservers) past s → s.caller = .raised why → Clean s := by
  have replayed := show replay (step (if · = Binding.router then some .inet else none))
    (init ["https://1.1.1.1/dns-query".toList])
    [.looksUp (.ok Binding.wifi), .bindsWpad none, .onward, .onward, .onward] = some _ from rfl
  have run := Run.of_replay replayed
  refine ⟨⟨_, _, _, _, run, rfl, rfl, rfl, rfl⟩, fun all => ?_⟩
  have clean := all _ _ _ _ _ run rfl
  cases clean.wpadServer

end HttpSocksProxy.Legacy
