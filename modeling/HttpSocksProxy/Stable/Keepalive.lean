import Mathlib.Logic.Function.Basic
import HttpSocksProxy.Stable.Health

/-! `KeepaliveManager`, one step for each section under its lock: `start`,
`start_supervisor` and `stop` of the manager against the repairs of supervisor
threads and of the runtime's scheduler task. -/
namespace HttpSocksProxy.Keepalive
open Transition
open Health (Severity)

/-- How far an attempt of `start` has come when it raises. -/
inductive Reach where
  | file
  | session
  | player
  | play
  deriving DecidableEq, Repr

def Reach.hasSession : Reach → Bool
  | file => false
  | session | player | play => true

def Reach.hasPlayer : Reach → Bool
  | file | session => false
  | player | play => true

/-- What an attempt of `start` meets: `objc_util` or the `sound` module, and where it
raises. -/
structure Attempt where
  objc : Bool
  raises : Option (Reach × Str)
  deriving DecidableEq, Repr

/-- How the restart of a player ends: `result is not False`, or an exception after or
before the call of `play`. -/
inductive Repair where
  | returns (playing : Bool)
  | raises (played : Bool) (text : Str)
  deriving DecidableEq, Repr

/-- What `ensure_active` meets; `playing` is what `_player_is_playing_unlocked` returns. -/
structure Mend where
  playing : Option Bool
  repair : Repair
  attempt : Attempt
  deriving DecidableEq, Repr

inductive Output where
  | plays
  | stops
  | event (severity : Severity) (message : Str)
  | component (status : Str)
  deriving DecidableEq, Repr

/-- `player` and `session` say that the field is not `None`. -/
structure Audio where
  player : Bool
  session : Bool
  active : Bool
  deriving DecidableEq, Repr

/-- `active` -/
def Audio.showsActive (a : Audio) (playing : Option Bool) : Bool :=
  if !a.active || !a.player then false else playing.getD a.active

/-- `start` -/
def Audio.start (enabled : Bool) (a : Audio) (attempt : Attempt) : Bool × List Output × Audio :=
  if a.active then (true, [], a)
  else if !enabled then (false, [.event .info "background keepalive disabled".toList], a)
  else match attempt.raises with
    | none => (true, [.plays, .event .info "background audio active".toList],
        ⟨true, a.session || attempt.objc, true⟩)
    | some (reach, text) => (false, (if reach = .play then [.plays] else []) ++
          [.event .warning ("background audio unavailable: ".toList ++ text)],
        ⟨a.player || reach.hasPlayer, a.session || (attempt.objc && reach.hasSession), false⟩)

/-- `ensure_active` from where it gives its player up. -/
def Audio.restart (enabled : Bool) (a : Audio) (before : List Output) (attempt : Attempt) :
    Bool × List Output × Audio :=
  let (okay, outputs, a) := Audio.start enabled { a with active := false } attempt
  (okay, before ++ outputs, a)

/-- `ensure_active` -/
def Audio.ensureActive (enabled : Bool) (a : Audio) (m : Mend) : Bool × List Output × Audio :=
  if !enabled then (false, [], a)
  else if a.active && a.player then
    if m.playing ≠ some false then (true, [], a)
    else match m.repair with
      | .returns true => (true, [.plays, .event .info "background audio restarted".toList], a)
      | .returns false => a.restart enabled [.plays] m.attempt
      | .raises played text => a.restart enabled ((if played then [.plays] else []) ++
          [.event .warning ("background audio restart failed: ".toList ++ text)]) m.attempt
  else a.start enabled m.attempt

/-- A supervisor thread: waiting for its next check, between the check and the
section of its repair, or behind its loop. -/
inductive Thread where
  | absent
  | waiting (lastOk : Option Bool)
  | repairing (lastOk : Option Bool)
  | left
  | ended
  deriving DecidableEq, Repr

def Thread.looping : Thread → Bool
  | waiting _ | repairing _ => true
  | absent | left | ended => false

/-- `is_alive` -/
def Thread.alive : Thread → Bool
  | waiting _ | repairing _ | left => true
  | absent | ended => false

/-- The runtime thread with the scheduler task. `launching` is a `start` of the manager
that has called `start_supervisor`, `checked` a scheduler that has read `active`. -/
inductive Runtime where
  | ended
  | launching
  | alive
  | checked (wasActive : Bool)
  deriving DecidableEq, Repr

/-- A call of `stop`: before the first section, after one that has seen this thread,
after the second, and after the last. -/
inductive StopPoint where
  | absent
  | joining (thread : Option Nat)
  | cleared
  | returned
  deriving DecidableEq, Repr

/-- `made` counts the supervisor threads. -/
structure State where
  enabled : Bool
  audio : Audio
  supervisorThread : Option Nat
  supervisorStop : Bool
  made : Nat
  threads : Nat → Thread
  runtime : Runtime
  stops : Nat → StopPoint

def init (enabled : Bool) : State :=
  ⟨enabled, ⟨false, false, false⟩, none, false, 0, fun _ => .absent, .ended, fun _ => .absent⟩

inductive Event where
  | start (attempt : Attempt)
  | startSupervisor
  | launch
  | retire
  | looks (playing : Option Bool)
  | ensures (m : Mend)
  | checks (thread : Nat)
  | repairs (thread : Nat) (m : Mend)
  | ends (thread : Nat)
  | stop (caller : Nat)
  | clears (caller : Nat)
  | silences (caller : Nat)
  deriving DecidableEq, Repr

/-- The calls of the manager that turn the keepalive on. -/
def Event.explicit : Event → Bool
  | start _ | startSupervisor => true
  | _ => false

def State.thread (s : State) (k : Nat) (p : Thread) : State :=
  { s with threads := Function.update s.threads k p }

@[simp] theorem thread_self (s : State) (k : Nat) (p : Thread) : (s.thread k p).threads k = p :=
  Function.update_self ..

theorem thread_other (s : State) (p : Thread) (other : j ≠ k) : (s.thread k p).threads j = s.threads j :=
  Function.update_of_ne other ..

def State.stopAt (s : State) (caller : Nat) (p : StopPoint) : State :=
  { s with stops := Function.update s.stops caller p }

/-- The supervisor thread of the field is alive. -/
def State.supervising (s : State) : Bool := s.supervisorThread.any fun k => (s.threads k).alive

def Runtime.expected : Runtime → Runtime
  | ended => launching
  | other => other

/-- `start_supervisor`, which the manager calls before it makes its runtime thread. -/
def startSupervisor (s : State) : State :=
  let s := { s with runtime := s.runtime.expected }
  if s.supervising then s
  else { s with
    supervisorStop := false
    supervisorThread := some s.made
    made := s.made + 1
    threads := Function.update s.threads s.made (.waiting none) }

/-- What `_supervisor_main` tells about a repair. -/
def supervised (lastOk : Option Bool) (okay : Bool) : List Output :=
  if lastOk = some true ∧ okay = false then
    [.event .warning "background audio keepalive became unavailable".toList]
  else if lastOk = some false ∧ okay = true then
    [.event .info "background audio keepalive supervisor recovered playback".toList]
  else []

/-- What the scheduler tells about a repair. -/
def scheduled (wasActive okay : Bool) : List Output :=
  .component (if okay then "healthy" else "optional/off").toList ::
    if !wasActive && okay then
      [.event .info "background audio keepalive was not playing and was restarted".toList]
    else []

/-- The last section of `stop`. -/
def silence (s : State) : List Output × State :=
  ((if s.audio.player then [.stops] else []) ++ [.event .info "background audio stopped".toList],
    { s with audio := ⟨false, false, false⟩ })

def step (s : State) : Event → Option (List Output × State)
  | .start attempt =>
    let (_, outputs, audio) := s.audio.start s.enabled attempt
    some (outputs, { s with audio })
  | .startSupervisor => some ([], startSupervisor s)
  | .launch => if s.runtime = .launching then some ([], { s with runtime := .alive }) else none
  | .retire =>
    if s.runtime = .launching ∨ s.runtime = .alive then some ([], { s with runtime := .ended }) else none
  | .looks playing =>
    if s.runtime = .alive then some ([], { s with runtime := .checked (s.audio.showsActive playing) }) else none
  | .ensures m =>
    match s.runtime with
    | .checked wasActive =>
      let (okay, outputs, audio) := s.audio.ensureActive s.enabled m
      some (outputs ++ scheduled wasActive okay, { s with audio, runtime := .alive })
    | _ => none
  | .checks k =>
    match s.threads k with
    | .waiting lastOk => some ([], s.thread k (if s.supervisorStop then .left else .repairing lastOk))
    | _ => none
  | .repairs k m =>
    match s.threads k with
    | .repairing lastOk =>
      let (okay, outputs, audio) := s.audio.ensureActive s.enabled m
      some (outputs ++ supervised lastOk okay, { s with audio }.thread k (.waiting (some okay)))
    | _ => none
  | .ends k => if s.threads k = .left then some ([], s.thread k .ended) else none
  | .stop caller =>
    if s.stops caller = .absent then
      some ([], { s with supervisorStop := true }.stopAt caller (.joining s.supervisorThread))
    else none
  -- the join has ended or timed out
  | .clears caller =>
    match s.stops caller with
    | .joining thread => some ([], { s with
        supervisorThread := if s.supervisorThread = thread then none else s.supervisorThread }.stopAt
          caller .cleared)
    | _ => none
  | .silences caller =>
    if s.stops caller = .cleared then
      let (outputs, t) := silence s
      some (outputs, t.stopAt caller .returned)
    else none

/-- While the stop flag is clear, at most one supervisor thread is in its loop. -/
def AtMostOne (s : State) : Prop := s.supervisorStop = false →
  ∀ j k, (s.threads j).looping = true → (s.threads k).looping = true → j = k

/-- A supervisor thread is made only when no other is still in its loop. -/
def sole (s : State) (l : Event × List Output) : Prop :=
  l.1 = .startSupervisor → s.supervising = true ∨ ∀ k, (s.threads k).looping = false

/-- No repair is under way, and none can begin. -/
structure Settled (s : State) : Prop where
  runtime : s.runtime = .ended
  checked : ∀ k lastOk, s.threads k ≠ .repairing lastOk
  told : s.supervisorStop = true ∨ ∀ k, (s.threads k).looping = false

/-- The player is not started until the manager turns the keepalive on again. -/
def Silent (s : State) : Prop := ∀ after t, Run (byOutput step) s after t →
  (∀ l ∈ after, l.1.explicit = false) → ∀ l ∈ after, .plays ∉ l.2

/-- What every event but `start_supervisor` keeps. -/
structure Kept (s t : State) : Prop where
  enabled : t.enabled = s.enabled
  made : t.made = s.made
  told : s.supervisorStop = true → t.supervisorStop = true
  loops : ∀ k, (t.threads k).looping = true → (s.threads k).looping = true

theorem kept_thread (known : p.looping = true → (s.threads k).looping = true) : Kept s (s.thread k p) := by
  refine ⟨rfl, rfl, id, fun j loops => ?_⟩
  by_cases this : j = k
  · subst this
    exact known (by simpa using loops)
  · rwa [thread_other s p this] at loops

theorem step_kept (stepped : step s event = some (outputs, t)) (other : event ≠ .startSupervisor) :
    Kept s t := by
  cases event with
  | startSupervisor => contradiction
  | start attempt =>
    cases stepped
    exact ⟨rfl, rfl, id, fun _ => id⟩
  | launch | retire | looks playing =>
    simp only [step, Option.ite_none_right_eq_some, Option.some.injEq, Prod.mk.injEq] at stepped
    obtain ⟨_, _, rfl⟩ := stepped
    exact ⟨rfl, rfl, id, fun _ => id⟩
  | ensures m =>
    simp only [step] at stepped
    split at stepped
    case h_1 =>
      cases stepped
      exact ⟨rfl, rfl, id, fun _ => id⟩
    case h_2 => cases stepped
  | checks k =>
    simp only [step] at stepped
    split at stepped
    case h_1 lastOk waits =>
      cases stepped
      exact kept_thread fun _ => by rw [waits]; rfl
    case h_2 => cases stepped
  | repairs k m =>
    simp only [step] at stepped
    split at stepped
    case h_1 lastOk repairs =>
      cases stepped
      have kept : Kept s (s.thread k (.waiting (some (s.audio.ensureActive s.enabled m).1))) :=
        kept_thread fun _ => by rw [repairs]; rfl
      exact ⟨rfl, rfl, id, kept.loops⟩
    case h_2 => cases stepped
  | ends k =>
    simp only [step, Option.ite_none_right_eq_some, Option.some.injEq, Prod.mk.injEq] at stepped
    obtain ⟨left, _, rfl⟩ := stepped
    exact kept_thread nofun
  | stop caller =>
    simp only [step, Option.ite_none_right_eq_some, Option.some.injEq, Prod.mk.injEq] at stepped
    obtain ⟨_, _, rfl⟩ := stepped
    exact ⟨rfl, rfl, fun _ => rfl, fun _ => id⟩
  | clears caller =>
    simp only [step] at stepped
    split at stepped
    case h_1 =>
      cases stepped
      exact ⟨rfl, rfl, id, fun _ => id⟩
    case h_2 => cases stepped
  | silences caller =>
    simp only [step, Option.ite_none_right_eq_some, Option.some.injEq, Prod.mk.injEq] at stepped
    obtain ⟨_, _, rfl⟩ := stepped
    exact ⟨rfl, rfl, id, fun _ => id⟩

theorem startSupervisor_alive (alive : s.supervising = true) :
    startSupervisor s = { s with runtime := s.runtime.expected } := if_pos alive

/-- A new thread begins its loop, and the flag is cleared for it. -/
theorem startSupervisor_made (dead : ¬ s.supervising = true) :
    (startSupervisor s).supervisorStop = false ∧ (startSupervisor s).made = s.made + 1 ∧
      (startSupervisor s).threads = Function.update s.threads s.made (.waiting none) := by
  have made : startSupervisor s = { s with
      runtime := s.runtime.expected
      supervisorStop := false
      supervisorThread := some s.made
      made := s.made + 1
      threads := Function.update s.threads s.made (.waiting none) } := if_neg dead
  rw [made]
  exact ⟨rfl, rfl, rfl⟩

/-- The threads that are still to be made are in no loop. -/
def Fresh (s : State) : Prop := ∀ k, s.made ≤ k → (s.threads k).looping = false

theorem fresh_step (fresh : Fresh s) (stepped : step s event = some (outputs, t)) : Fresh t := by
  intro k later
  by_cases call : event = .startSupervisor
  · subst call
    cases stepped
    by_cases alive : s.supervising = true
    · rw [startSupervisor_alive alive] at later ⊢
      exact fresh k later
    · obtain ⟨_, made, threads⟩ := startSupervisor_made alive
      rw [made] at later
      rw [threads, Function.update_of_ne (by omega)]
      exact fresh k (by omega)
  · have kept := step_kept stepped call
    rw [kept.made] at later
    by_contra loops
    exact Bool.eq_false_iff.mp (fresh k later) (kept.loops k (by simpa using loops))

theorem fresh_run (run : Run (byOutput step) (init enabled) past s) : Fresh s := by
  have start : Fresh (init enabled) := fun _ _ => rfl
  exact run.invariant start fun fresh stepped => fresh_step fresh stepped

/-- A step keeps one supervisor at most exactly when it makes no second one. -/
theorem atMostOne_step (fresh : Fresh s) (one : AtMostOne s) (stepped : byOutput step s l t) :
    AtMostOne t ↔ sole s l := by
  obtain ⟨event, outputs⟩ := l
  by_cases call : event = .startSupervisor
  · subst call
    cases stepped
    by_cases alive : s.supervising = true
    · rw [startSupervisor_alive alive]
      exact iff_of_true one fun _ => .inl alive
    · obtain ⟨told, _, threads⟩ := startSupervisor_made alive
      simp only [AtMostOne, sole, told, threads, alive, forall_const, Bool.false_eq_true, false_or]
      constructor
      · intro one k
        by_contra loops
        have loops : (s.threads k).looping = true := by simpa using loops
        have old : k ≠ s.made := by
          rintro rfl
          exact Bool.eq_false_iff.mp (fresh _ le_rfl) loops
        exact old (one k s.made (by rwa [Function.update_of_ne old]) (by rw [Function.update_self]; rfl))
      · intro quiet j k first second
        have new {i : Nat} (loops : (Function.update s.threads s.made (.waiting none) i).looping = true) :
            i = s.made := by
          by_contra old
          rw [Function.update_of_ne old, quiet] at loops
          cases loops
        exact (new first).trans (new second).symm
  · have kept := step_kept stepped call
    refine iff_of_true (fun clear j k first second => ?_) fun same => absurd same call
    refine one ?_ j k (kept.loops j first) (kept.loops k second)
    by_contra told
    rw [kept.told (by simpa using told)] at clear
    cases clear

theorem supervised_plays (lastOk : Option Bool) (okay : Bool) : .plays ∉ supervised lastOk okay := by
  unfold supervised
  split
  · simp
  · split <;> simp

theorem scheduled_plays (wasActive okay : Bool) : .plays ∉ scheduled wasActive okay := by
  cases wasActive <;> cases okay <;> simp [scheduled]

theorem silence_plays (s : State) : .plays ∉ (silence s).1 := by
  simp only [silence]
  split <;> simp

theorem ensureActive_disabled (a : Audio) (m : Mend) : a.ensureActive false m = (false, [], a) := rfl

theorem ensureActive_plays {a : Audio} (plays : .plays ∈ (a.ensureActive enabled m).2.1) :
    enabled = true := by
  cases enabled with
  | true => rfl
  | false =>
    rw [ensureActive_disabled] at plays
    cases plays

/-- Apart from the calls of the manager, a player is started by a repair only, which is
under way when it gets the lock. -/
theorem plays_repair (quiet : event.explicit = false) (stepped : step s event = some (outputs, t))
    (plays : .plays ∈ outputs) : s.enabled = true ∧
      ((∃ wasActive, s.runtime = .checked wasActive) ∨ ∃ k lastOk, s.threads k = .repairing lastOk) := by
  cases event with
  | start | startSupervisor => cases quiet
  | ensures m =>
    simp only [step] at stepped
    split at stepped
    case h_1 wasActive checked =>
      cases stepped
      have plays := (List.mem_append.mp plays).resolve_right (scheduled_plays _ _)
      exact ⟨ensureActive_plays plays, .inl ⟨wasActive, checked⟩⟩
    case h_2 => cases stepped
  | repairs k m =>
    simp only [step] at stepped
    split at stepped
    case h_1 lastOk repairs =>
      cases stepped
      have plays := (List.mem_append.mp plays).resolve_right (supervised_plays _ _)
      exact ⟨ensureActive_plays plays, .inr ⟨k, lastOk, repairs⟩⟩
    case h_2 => cases stepped
  | checks k | clears caller =>
    simp only [step] at stepped
    split at stepped
    · cases stepped
      cases plays
    · cases stepped
  | silences caller =>
    simp only [step, Option.ite_none_right_eq_some, Option.some.injEq, Prod.mk.injEq] at stepped
    obtain ⟨_, rfl, _⟩ := stepped
    exact absurd plays (silence_plays s)
  | _ =>
    simp only [step, Option.ite_none_right_eq_some, Option.some.injEq, Prod.mk.injEq] at stepped
    obtain ⟨_, rfl, _⟩ := stepped
    cases plays

theorem Settled.told_of (settled : Settled s) (kept : Kept s t) :
    t.supervisorStop = true ∨ ∀ k, (t.threads k).looping = false := by
  refine settled.told.imp kept.told fun none k => ?_
  by_contra loops
  exact Bool.eq_false_iff.mp (none k) (kept.loops k (by simpa using loops))

theorem settled_thread (settled : Settled s) (done : p.looping = false) : Settled (s.thread k p) := by
  refine ⟨settled.runtime, fun j lastOk repairs => ?_, settled.told_of (kept_thread fun loops => ?_)⟩
  · by_cases this : j = k
    · subst this
      rw [thread_self] at repairs
      rw [repairs] at done
      cases done
    · rw [thread_other s p this] at repairs
      exact settled.checked j lastOk repairs
  · rw [done] at loops
    cases loops

/-- Only a call of the manager can bring a repair about. -/
theorem settled_step (settled : Settled s) (quiet : event.explicit = false)
    (stepped : step s event = some (outputs, t)) : Settled t := by
  have ended := settled.runtime
  cases event with
  | start | startSupervisor => cases quiet
  | launch | retire | looks | ensures => simp [step, ended] at stepped
  | checks k =>
    simp only [step] at stepped
    split at stepped
    case h_1 lastOk waits =>
      cases stepped
      have loops : (s.threads k).looping = true := by rw [waits]; rfl
      have told : s.supervisorStop = true := settled.told.resolve_right fun none => by
        rw [none k] at loops
        cases loops
      rw [if_pos told]
      exact settled_thread settled rfl
    case h_2 => cases stepped
  | repairs k m =>
    simp only [step] at stepped
    split at stepped
    case h_1 lastOk repairs => exact absurd repairs (settled.checked k lastOk)
    case h_2 => cases stepped
  | ends k =>
    simp only [step, Option.ite_none_right_eq_some, Option.some.injEq, Prod.mk.injEq] at stepped
    obtain ⟨_, _, rfl⟩ := stepped
    exact settled_thread settled rfl
  | stop caller =>
    simp only [step, Option.ite_none_right_eq_some, Option.some.injEq, Prod.mk.injEq] at stepped
    obtain ⟨_, _, rfl⟩ := stepped
    exact ⟨ended, settled.checked, .inl rfl⟩
  | clears caller =>
    simp only [step] at stepped
    split at stepped
    case h_1 =>
      cases stepped
      exact ⟨ended, settled.checked, settled.told⟩
    case h_2 => cases stepped
  | silences caller =>
    simp only [step, Option.ite_none_right_eq_some, Option.some.injEq, Prod.mk.injEq] at stepped
    obtain ⟨_, _, rfl⟩ := stepped
    exact ⟨ended, settled.checked, settled.told⟩

/-- No repair can start the player: it is off, or there is none. -/
def Harmless (s : State) : Prop := s.enabled = false ∨ Settled s

theorem harmless_step (harmless : Harmless s) (quiet : event.explicit = false)
    (stepped : step s event = some (outputs, t)) : .plays ∉ outputs ∧ Harmless t := by
  constructor
  · intro plays
    obtain ⟨on, repair⟩ := plays_repair quiet stepped plays
    have settled := harmless.resolve_left (by simp [on])
    rcases repair with ⟨wasActive, checked⟩ | ⟨k, lastOk, repairs⟩
    · rw [settled.runtime] at checked
      cases checked
    · exact settled.checked k lastOk repairs
  · refine harmless.imp (fun off => ?_) fun settled => settled_step settled quiet stepped
    have kept := step_kept stepped (by rintro rfl; cases quiet)
    exact kept.enabled.trans off

theorem harmless_silent (harmless : Harmless s) : Silent s := by
  intro after t run quiet
  suffices Harmless t ∧ ∀ l ∈ after, .plays ∉ l.2 from this.2
  induction run with
  | start => exact ⟨harmless, nofun⟩
  | @next past b l c _ stepped ih =>
    obtain ⟨before, silent⟩ := ih fun l' member => quiet l' (List.mem_cons_of_mem _ member)
    obtain ⟨now, kept⟩ := harmless_step before (quiet l List.mem_cons_self) stepped
    exact ⟨kept, List.forall_mem_cons.mpr ⟨now, silent⟩⟩

/-- An attempt that works. -/
def works : Mend := ⟨some true, .returns true, ⟨true, none⟩⟩

theorem ensureActive_works {a : Audio} (idle : a.active = false) :
    .plays ∈ (a.ensureActive true works).2.1 := by
  have result : a.ensureActive true works =
      (true, [.plays, .event .info "background audio active".toList], ⟨true, a.session || true, true⟩) := by
    simp only [Audio.ensureActive, Audio.start, idle]
    rfl
  rw [result]
  exact List.mem_cons_self

theorem Silent.step (silent : Silent s) (quiet : event.explicit = false)
    (stepped : step s event = some (outputs, t)) : .plays ∉ outputs ∧ Silent t := by
  have first : Run (byOutput Keepalive.step) s [(event, outputs)] t := .next .start stepped
  refine ⟨silent _ t first (by simpa using quiet) _ List.mem_cons_self, fun after u run later l member => ?_⟩
  refine silent _ u (first.trans run) (fun l' member' => ?_) l (List.mem_append_left _ member)
  rcases List.mem_append.mp member' with behind | only
  · exact later l' behind
  · rw [List.mem_singleton.mp only]
    exact quiet

section Loud
variable (silent : Silent s) (on : s.enabled = true) (idle : s.audio.active = false)
include silent on idle

theorem not_repairing (k : Nat) (lastOk : Option Bool) : s.threads k ≠ .repairing lastOk := by
  intro repairs
  have stepped := show Keepalive.step s (.repairs k works) = some _ by
    simp only [Keepalive.step, repairs, on]
    rfl
  exact (silent.step rfl stepped).1 (List.mem_append_left _ (ensureActive_works idle))

theorem not_checked (wasActive : Bool) : s.runtime ≠ .checked wasActive := by
  intro checked
  have stepped := show Keepalive.step s (.ensures works) = some _ by
    simp only [Keepalive.step, checked, on]
    rfl
  exact (silent.step rfl stepped).1 (List.mem_append_left _ (ensureActive_works idle))

theorem not_alive : s.runtime ≠ .alive := by
  intro alive
  have stepped := show Keepalive.step s (.looks none) = some _ from if_pos alive
  exact not_checked (silent.step rfl stepped).2 on idle _ rfl

theorem not_launching : s.runtime ≠ .launching := by
  intro launching
  have stepped := show Keepalive.step s .launch = some _ from if_pos launching
  exact not_alive (silent.step rfl stepped).2 on idle rfl

theorem not_looping (clear : s.supervisorStop = false) (k : Nat) : (s.threads k).looping = false := by
  cases here : s.threads k with
  | absent | left | ended => rfl
  | repairing lastOk => exact absurd here (not_repairing silent on idle k lastOk)
  | waiting lastOk =>
    have stepped : Keepalive.step s (.checks k) = some ([], s.thread k (.repairing lastOk)) := by
      simp only [Keepalive.step, here, clear]
      rfl
    exact absurd (thread_self s k _) (not_repairing (silent.step rfl stepped).2 on idle k lastOk)

theorem silent_settled : Settled s := by
  refine ⟨?_, not_repairing silent on idle, ?_⟩
  · cases here : s.runtime with
    | ended => rfl
    | launching => exact absurd here (not_launching silent on idle)
    | alive => exact absurd here (not_alive silent on idle)
    | checked wasActive => exact absurd here (not_checked silent on idle wasActive)
  · cases clear : s.supervisorStop with
    | true => exact .inl rfl
    | false => exact .inr (not_looping silent on idle clear)

end Loud

theorem enabled_run (run : Run (byOutput step) (init enabled) past s) : s.enabled = enabled := by
  have kept {b c : State} {l : Event × List Output} (before : b.enabled = enabled)
      (stepped : byOutput step b l c) : c.enabled = enabled := by
    obtain ⟨event, outputs⟩ := l
    by_cases call : event = .startSupervisor
    · subst call
      cases stepped
      simp only [startSupervisor]
      split <;> exact before
    · exact (step_kept stepped call).enabled.trans before
  exact run.invariant (P := fun s => s.enabled = enabled) rfl kept

/-- A run never has a second supervisor beside one whose flag is clear exactly when it
makes none; and a `stop` leaves the player alone for good exactly when the keepalive is
off or, at its last section, no repair is under way and none can begin. -/
theorem stays_stopped_iff (run : Run (byOutput step) (init enabled) past s) :
    (Run (into (byOutput step) AtMostOne) (init enabled) past s ↔
      Run (guarded (byOutput step) sole) (init enabled) past s) ∧
    ∀ caller outputs t, step s (.silences caller) = some (outputs, t) →
      (Silent t ↔ enabled = false ∨ Settled s) := by
  constructor
  · have one : AtMostOne (init enabled) := nofun
    exact Run.into_iff one fresh_run atMostOne_step
  · intro caller outputs t stepped
    simp only [step, Option.ite_none_right_eq_some, Option.some.injEq, Prod.mk.injEq] at stepped
    obtain ⟨_, _, rfl⟩ := stepped
    constructor
    · intro silent
      cases on : enabled with
      | false => exact .inl rfl
      | true =>
        have settled := silent_settled silent ((enabled_run run).trans on) rfl
        exact .inr ⟨settled.runtime, settled.checked, settled.told⟩
    · rintro (off | settled)
      · exact harmless_silent (.inl ((enabled_run run).trans off))
      · exact harmless_silent (.inr ⟨settled.runtime, settled.checked, settled.told⟩)

/-- The supervisor sees the flag and ends during the join, and the runtime has ended too. -/
theorem orderly_stop_silent : ∃ past s t, Run (byOutput step) (init true) past s ∧
    step s (.silences 0) = some ([.stops, .event .info "background audio stopped".toList], t) ∧
    s.threads 0 = .ended ∧ Silent t := by
  obtain ⟨past, s, executed⟩ : ∃ past s, execute step (fun _ e output => (e, output)) (init true)
      [.start works.attempt, .startSupervisor, .launch, .stop 0, .checks 0, .ends 0, .retire, .clears 0] =
      some (past, s) := ⟨_, _, rfl⟩
  have run := Run.of_outputs executed
  cases Option.some.inj executed
  refine ⟨_, _, _, run, rfl, rfl, ((stays_stopped_iff run).2 0 _ _ rfl).mpr (.inr ⟨rfl, ?_, .inl rfl⟩)⟩
  intro k lastOk repairs
  rcases Nat.eq_zero_or_pos k with rfl | later
  · cases repairs
  · have quiet := fresh_run run k later
    rw [repairs] at quiet
    cases quiet

/-- The join times out while the supervisor is past its check: its repair starts the
player again after the stop, and the next `start_supervisor` makes a second thread. -/
theorem slow_repair_restarts :
    (∃ past s t, Run (byOutput step) (init true) past s ∧
      step s (.silences 0) = some ([.stops, .event .info "background audio stopped".toList], t) ∧
      ¬ Silent t ∧ ¬ AtMostOne (startSupervisor t)) ∧
    ¬ ∀ enabled past s, Run (byOutput step) (init enabled) past s → AtMostOne s ∧
      ∀ caller outputs t, step s (.silences caller) = some (outputs, t) → Silent t := by
  obtain ⟨past, s, t, executed, stopped, on, idle, repairs, dead, made⟩ : ∃ past s t,
      execute step (fun _ e output => (e, output)) (init true)
        [.start works.attempt, .startSupervisor, .checks 0, .stop 0, .clears 0] = some (past, s) ∧
      step s (.silences 0) = some ([.stops, .event .info "background audio stopped".toList], t) ∧
      t.enabled = true ∧ t.audio.active = false ∧ t.threads 0 = .repairing none ∧
      t.supervising = false ∧ t.made = 1 := ⟨_, _, _, rfl, rfl, rfl, rfl, rfl, rfl, rfl⟩
  have run := Run.of_outputs executed
  have loud : ¬ Silent t := fun silent => not_repairing silent on idle 0 none repairs
  have two : ¬ AtMostOne (startSupervisor t) := by
    obtain ⟨clear, _, threads⟩ := startSupervisor_made (Bool.eq_false_iff.mp dead)
    intro one
    have same := one clear 0 1 (by simp [threads, made, repairs, Thread.looping])
      (by simp [threads, made, Thread.looping])
    cases same
  exact ⟨⟨past, s, t, run, stopped, loud, two⟩, fun all => loud ((all true past s run).2 0 _ t stopped)⟩

end HttpSocksProxy.Keepalive
