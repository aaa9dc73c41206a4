import HttpSocksProxy.Stable.Lifecycle

/-! One runtime thread at a time: who holds the lock, which threads the calls
refer to, and what the thread of the newest session has made. -/
namespace HttpSocksProxy.Lifecycle
open Transition
open Supervisor (Config Output)

/-- A call that is under the lock across steps. -/
def Call.locks : Call → Bool
  | starting .. | updated .. => true
  | _ => false

/-- Where the newest session is when `start` has come this far. -/
def StartPoint.stage : StartPoint → Point
  | checked | selected | eventCleared | errorCleared => .dead
  | flagCleared => .absent
  | made => .created

def StopPoint.Refers (points : Nat → Point) : StopPoint → Prop
  | joining (some n) => points n ≠ .absent
  | joined (some n) => points n ≠ .absent ∧ points n ≠ .created
  | clearing (some n) => points n = .dead
  | _ => True

def Call.Refers (points : Nat → Point) : Call → Prop
  | stopping _ p => p.Refers points
  | _ => True

/-- The references that a session at this point has left in the manager. -/
def Point.Owns (s : State) (n : Nat) : Point → Prop
  | looped | entered => s.loop = some n
  | stopMade => s.loop = some n ∧ s.stopAsync = some n
  | made | supervising _ => s.loop = some n ∧ s.stopAsync = some n ∧ s.recoverAsync = some n
  | _ => True

structure Sound (s : State) : Prop where
  past : ∀ n < s.sessions, s.points n = .dead
  future : ∀ n, s.sessions < n → s.points n = .absent
  locks : ∀ k, (s.calls k).locks = true → s.lock = some k
  stage : ∀ k p selection, s.calls k = .starting p selection → s.points s.sessions = p.stage
  begun : s.points s.sessions = .absent ∨ s.points s.sessions = .created →
    ∃ k p selection, s.calls k = .starting p selection
  thread : s.points s.sessions = .absent ∨ s.points s.sessions = .dead ∨ s.thread = some s.sessions
  existing : ∀ n, s.thread = some n → s.points n ≠ .absent
  refers : ∀ k, (s.calls k).Refers s.points
  owns : (s.points s.sessions).Owns s s.sessions

/-- What `Sound` speaks of beside the calls and the lock. -/
def State.core (s : State) : Option Nat × Nat × (Nat → Point) × Option Nat × Option Nat × Option Nat :=
  (s.thread, s.sessions, s.points, s.loop, s.stopAsync, s.recoverAsync)

theorem Point.Owns.of_eq {p : Point} (owns : p.Owns s n) (loop : t.loop = s.loop)
    (stopAsync : t.stopAsync = s.stopAsync) (recoverAsync : t.recoverAsync = s.recoverAsync) :
    p.Owns t n := by
  cases p <;> simp_all [Point.Owns]

/-- One call goes on, and the lock changes only if no other call has it. -/
theorem Sound.of_call (sound : Sound s) (core : t.core = s.core)
    (calls : t.calls = Function.update s.calls k c)
    (others : ∀ k' ≠ k, (s.calls k').locks = true → t.lock = s.lock)
    (locks : c.locks = true → t.lock = some k)
    (stage : ∀ p selection, c = .starting p selection → s.points s.sessions = p.stage)
    (keeps : ∀ p selection, s.calls k = .starting p selection → ∃ p selection, c = .starting p selection)
    (refers : c.Refers s.points) : Sound t := by
  simp only [State.core, Prod.mk.injEq] at core
  obtain ⟨thread, sessions, points, loop, stopAsync, recoverAsync⟩ := core
  have here : t.calls k = c := by rw [calls, Function.update_self]
  have there {k' : Nat} (other : k' ≠ k) : t.calls k' = s.calls k' := by
    rw [calls, Function.update_of_ne other]
  constructor
  · rw [sessions, points]; exact sound.past
  · rw [sessions, points]; exact sound.future
  · intro k' holds
    by_cases same : k' = k
    · subst same
      exact locks (here ▸ holds)
    · rw [there same] at holds
      exact (others k' same holds).trans (sound.locks k' holds)
  · intro k' p selection at_point
    rw [sessions, points]
    by_cases same : k' = k
    · subst same
      exact stage p selection (here.symm.trans at_point)
    · exact sound.stage k' p selection ((there same).symm.trans at_point)
  · intro early
    rw [sessions, points] at early
    obtain ⟨k', p, selection, at_point⟩ := sound.begun early
    by_cases same : k' = k
    · subst same
      obtain ⟨p', selection', next⟩ := keeps p selection at_point
      exact ⟨k', p', selection', here.trans next⟩
    · exact ⟨k', p, selection, (there same).trans at_point⟩
  · rw [sessions, points, thread]; exact sound.thread
  · rw [points, thread]; exact sound.existing
  · intro k'
    rw [points]
    by_cases same : k' = k
    · subst same
      rwa [here]
    · rw [there same]
      exact sound.refers k'
  · rw [sessions, points]
    exact sound.owns.of_eq loop stopAsync recoverAsync

/-- Only the call that has the lock is under it. -/
theorem Sound.alone (sound : Sound s) (held : s.lock = some k) : ∀ k' ≠ k, (s.calls k').locks = false := by
  intro k' other
  rw [← Bool.not_eq_true]
  intro holds
  exact other (Option.some.inj ((sound.locks k' holds).symm.trans held))

theorem Sound.unlocked (sound : Sound s) (free : s.lock = none) (k : Nat) : (s.calls k).locks = false := by
  rw [← Bool.not_eq_true]
  intro holds
  exact absurd ((sound.locks k holds).symm.trans free) (by simp)

/-- With the lock free and no thread running the newest session is over. -/
theorem Sound.ended (sound : Sound s) (free : s.lock = none) (still : s.running = false) :
    s.points s.sessions = .dead := by
  have none_begun : ¬ (s.points s.sessions = .absent ∨ s.points s.sessions = .created) := by
    intro early
    obtain ⟨k, p, selection, at_point⟩ := sound.begun early
    have unlocked := sound.unlocked free k
    rw [at_point] at unlocked
    contradiction
  rcases sound.thread with absent | dead | thread
  · exact absurd (.inl absent) none_begun
  · exact dead
  · simp only [State.running, thread, Option.any_some] at still
    cases point : s.points s.sessions <;> simp_all [Point.alive]

theorem sound_init : Sound init := by
  constructor <;> simp [init, Call.locks, Call.Refers, Point.Owns]
  intro n positive zero
  omega

theorem sound_enter (sound : Sound s) (idle : s.calls k = .idle) (moved : enter s k request = some t) :
    Sound t := by
  have never (p selection) : s.calls k ≠ .starting p selection := by rw [idle]; simp
  cases request with
  | start selection =>
    simp only [enter] at moved
    split at moved
    case isTrue => contradiction
    case isFalse free =>
      have free : s.lock = none := by simpa using free
      split at moved
      case isTrue =>
        cases Option.some.inj moved
        exact sound.of_call rfl rfl (fun _ _ _ => rfl) (by simp [Call.locks]) (by simp)
          (fun p selection here => absurd here (never p selection)) trivial
      case isFalse still =>
        cases Option.some.inj moved
        refine sound.of_call rfl rfl (fun k' _ holds => ?_) (fun _ => rfl) ?_
          (fun p selection here => absurd here (never p selection)) trivial
        · rw [sound.unlocked free k'] at holds
          contradiction
        · intro p selection same
          cases same
          exact sound.ended free (Bool.not_eq_true _ ▸ still)
  | stop | recover =>
    cases Option.some.inj moved
    exact sound.of_call rfl rfl (fun _ _ _ => rfl) (by simp [Call.locks]) (by simp)
      (fun p selection here => absurd here (never p selection)) trivial
  | setOutboundSelection selection recoverIfRunning =>
    simp only [enter] at moved
    split at moved
    case isTrue => contradiction
    case isFalse free =>
      have free : s.lock = none := by simpa using free
      cases Option.some.inj moved
      refine sound.of_call rfl rfl (fun k' _ holds => ?_) (fun _ => rfl) (by simp)
        (fun p selection here => absurd here (never p selection)) trivial
      rw [sound.unlocked free k'] at holds
      contradiction

/-- A reference stays good while threads only go forward. -/
theorem Call.Refers.forward {c : Call} {points points' : Nat → Point} (refers : c.Refers points)
    (made : ∀ n, points n ≠ .absent → points' n ≠ .absent)
    (begun : ∀ n, points n ≠ .absent → points n ≠ .created → points' n ≠ .created)
    (dead : ∀ n, points n = .dead → points' n = .dead) : c.Refers points' := by
  cases c with
  | stopping why p =>
    cases p with
    | joining thread =>
      cases thread with
      | some n => exact made n refers
      | none => trivial
    | joined thread =>
      cases thread with
      | some n => exact ⟨made n refers.1, begun n refers.1 refers.2⟩
      | none => trivial
    | clearing thread =>
      cases thread with
      | some n => exact dead n refers
      | none => trivial
    | _ => trivial
  | _ => trivial

/-- `start` moves the thread of its session on, under the lock or leaving it. -/
theorem Sound.of_launch (sound : Sound s) (held : s.lock = some k)
    (before : s.points s.sessions = .absent ∨ s.points s.sessions = .created)
    (points : t.points = Function.update s.points s.sessions p) (sessions : t.sessions = s.sessions)
    (thread : t.thread = some s.sessions) (calls : t.calls = Function.update s.calls k c)
    (locks : c.locks = true → t.lock = some k)
    (stage : ∀ p' selection, c = .starting p' selection → p = p'.stage)
    (begun : p = .created → ∃ p' selection, c = .starting p' selection)
    (later : p ≠ .absent) (refers : ∀ points, c.Refers points) (owns : p.Owns t s.sessions) : Sound t := by
  have alone := sound.alone held
  have newest : t.points s.sessions = p := by rw [points, Function.update_self]
  have older {n : Nat} (other : n ≠ s.sessions) : t.points n = s.points n := by
    rw [points, Function.update_of_ne other]
  have here : t.calls k = c := by rw [calls, Function.update_self]
  have there {k' : Nat} (other : k' ≠ k) : t.calls k' = s.calls k' := by
    rw [calls, Function.update_of_ne other]
  constructor
  · intro n before
    rw [sessions] at before
    exact (older (Nat.ne_of_lt before)).trans (sound.past n before)
  · intro n after
    rw [sessions] at after
    exact (older (Nat.ne_of_gt after)).trans (sound.future n after)
  · intro k' holds
    by_cases same : k' = k
    · subst same
      exact locks (here ▸ holds)
    · rw [there same, alone k' same] at holds
      contradiction
  · intro k' p' selection at_point
    rw [sessions, newest]
    by_cases same : k' = k
    · subst same
      exact stage p' selection (here.symm.trans at_point)
    · have unlocked := alone k' same
      rw [← there same, at_point] at unlocked
      contradiction
  · intro early
    rw [sessions, newest] at early
    obtain ⟨p', selection, next⟩ := begun (early.resolve_left later)
    exact ⟨k, p', selection, here.trans next⟩
  · rw [sessions]
    exact .inr (.inr thread)
  · intro n same
    cases Option.some.inj (thread.symm.trans same)
    rwa [newest]
  · intro k'
    by_cases same : k' = k
    · subst same
      rw [here]
      exact refers _
    · rw [there same]
      apply (sound.refers k').forward
      · intro n exists_
        by_cases same : n = s.sessions
        · subst same; rwa [newest]
        · rwa [older same]
      · intro n exists_ not_created
        by_cases same : n = s.sessions
        · subst same
          rcases before with absent | created
          · exact absurd absent exists_
          · exact absurd created not_created
        · rwa [older same]
      · intro n dead
        have other : n ≠ s.sessions := by
          rintro rfl
          rcases before with absent | created
          · exact absurd (absent.symm.trans dead) (by simp)
          · exact absurd (created.symm.trans dead) (by simp)
        rwa [older other]
  · rwa [sessions, newest]

theorem sound_startNext (sound : Sound s) (here : s.calls k = .starting p selection) :
    Sound (startNext s k selection p) := by
  have held : s.lock = some k := sound.locks k (by rw [here]; rfl)
  have stage := sound.stage k p selection here
  have alone := sound.alone held
  cases p with
  | checked | selected | eventCleared =>
    refine sound.of_call rfl rfl (fun _ _ _ => rfl) (fun _ => held) ?_ (fun _ _ _ => ⟨_, _, rfl⟩) trivial
    intro p' selection' same
    cases same
    exact stage
  | errorCleared =>
    have next : s.points (s.sessions + 1) = .absent := sound.future _ (Nat.lt_succ_self _)
    constructor
    · intro n before
      rcases Nat.lt_succ_iff_lt_or_eq.mp before with earlier | rfl
      · exact sound.past n earlier
      · exact stage
    · exact fun n after => sound.future n (Nat.lt_of_succ_lt after)
    · intro k' holds
      by_cases same : k' = k
      · exact same ▸ held
      · simp only [startNext, State.call, Function.update_of_ne same] at holds
        exact sound.locks k' holds
    · intro k' p selection' at_point
      by_cases same : k' = k
      · subst same
        simp only [startNext, State.call, Function.update_self, Call.starting.injEq] at at_point
        obtain ⟨rfl, rfl⟩ := at_point
        exact next
      · simp only [startNext, State.call, Function.update_of_ne same] at at_point
        have unlocked := alone k' same
        rw [at_point] at unlocked
        contradiction
    · exact fun _ => ⟨k, .flagCleared, selection, Function.update_self ..⟩
    · exact .inl next
    · exact sound.existing
    · intro k'
      by_cases same : k' = k
      · subst same
        simp only [startNext, State.call, Function.update_self]
        trivial
      · simp only [startNext, State.call, Function.update_of_ne same]
        exact sound.refers k'
    · simp only [startNext, State.call, next]
      trivial
  | flagCleared =>
    refine sound.of_launch held (.inl stage) rfl rfl rfl rfl (fun _ => held) ?_
      (fun _ => ⟨_, _, rfl⟩) (by simp) (fun _ => trivial) trivial
    intro p' selection' same
    cases same
    rfl
  | made =>
    have thread : s.thread = some s.sessions := by
      rcases sound.thread with absent | dead | thread
      · exact absurd (stage.symm.trans absent) (by simp [StartPoint.stage])
      · exact absurd (stage.symm.trans dead) (by simp [StartPoint.stage])
      · exact thread
    exact sound.of_launch held (.inr stage) rfl rfl thread rfl (by simp [Call.locks]) (by simp)
      (by simp) (by simp) (fun _ => trivial) trivial

/-- A call that never has the lock goes on. -/
theorem Sound.of_free (sound : Sound s) (core : t.core = s.core) (lock : t.lock = s.lock)
    (calls : t.calls = Function.update s.calls k c) (before : (s.calls k).locks = false)
    (after : c.locks = false) (refers : c.Refers s.points) : Sound t := by
  apply sound.of_call core calls (fun _ _ _ => lock) _ _ _ refers
  · intro holds
    rw [after] at holds
    contradiction
  · rintro p selection rfl
    contradiction
  · intro p selection at_point
    rw [at_point] at before
    contradiction

/-- The reference to a thread that is over may go. -/
theorem Sound.forget (sound : Sound s) (dead : ∀ n, s.thread = some n → s.points n = .dead) :
    Sound { s with thread := none } := by
  refine ⟨sound.past, sound.future, sound.locks, sound.stage, sound.begun, ?_, by simp, sound.refers,
    sound.owns.of_eq rfl rfl rfl⟩
  rcases sound.thread with absent | finished | thread
  · exact .inl absent
  · exact .inr (.inl finished)
  · exact .inr (.inl (dead _ thread))

theorem sound_stopNext (sound : Sound s) (here : s.calls k = .stopping why p)
    (moved : stopNext s k why answer p = some t) : Sound t := by
  have before : (s.calls k).locks = false := by rw [here]; rfl
  have refers := sound.refers k
  rw [here] at refers
  cases p with
  | flagging | flagged _ | loopRead _ _ =>
    cases Option.some.inj moved
    exact sound.of_free rfl rfl rfl before rfl trivial
  | eventRead session loop event =>
    rcases stopNext_eventRead moved with ⟨l, e, _, _, rfl⟩ | ⟨rfl, _⟩
    · exact sound.of_free rfl rfl rfl before rfl trivial
    · exact sound.of_free rfl rfl rfl before rfl trivial
  | checked session loop event =>
    simp only [stopNext] at moved
    split at moved <;> cases Option.some.inj moved <;>
      exact sound.of_free rfl rfl rfl before rfl trivial
  | passed =>
    cases Option.some.inj moved
    refine sound.of_free rfl rfl rfl before rfl ?_
    cases thread : s.thread with
    | none => trivial
    | some n => exact sound.existing n thread
  | joining thread =>
    simp only [stopNext] at moved
    split at moved
    case isTrue =>
      cases Option.some.inj moved
      exact sound.of_free rfl rfl rfl before rfl trivial
    case isFalse begun =>
      cases Option.some.inj moved
      refine sound.of_free rfl rfl rfl before rfl ?_
      cases thread with
      | none => trivial
      | some n =>
        refine ⟨refers, fun created => begun ?_⟩
        simp [created]
  | joined thread =>
    simp only [stopNext] at moved
    split at moved
    case isTrue =>
      cases Option.some.inj moved
      exact sound.of_free rfl rfl rfl before rfl trivial
    case isFalse still =>
      cases Option.some.inj moved
      refine sound.of_free rfl rfl rfl before rfl ?_
      cases thread with
      | none => trivial
      | some n =>
        obtain ⟨exists_, begun⟩ := refers
        cases point : s.points n <;> simp_all [Point.alive, Call.Refers, StopPoint.Refers]
  | clearing thread =>
    simp only [stopNext] at moved
    split at moved
    case isTrue => contradiction
    case isFalse free =>
      cases Option.some.inj moved
      have stopped : Sound (s.call k (.stopped why (some true))) :=
        sound.of_free rfl rfl rfl before rfl trivial
      by_cases same : s.thread = thread
      · rw [if_pos same]
        refine stopped.forget fun n current => ?_
        have : thread = some n := same.symm.trans current
        subst this
        exact refers
      · rw [if_neg same]
        exact stopped

theorem sound_recoverNext (sound : Sound s) (here : s.calls k = .recovering p) :
    Sound (recoverNext s k p) := by
  have before : (s.calls k).locks = false := by rw [here]; rfl
  cases p with
  | checking | runningSeen | loopSeen =>
    refine sound.of_free rfl rfl rfl before ?_ ?_ <;> split <;> trivial
  | eventSeen =>
    refine sound.of_free rfl rfl rfl before ?_ ?_ <;> cases s.loop <;> trivial
  | loopRead loop =>
    refine sound.of_free rfl rfl rfl before ?_ ?_ <;> cases s.recoverAsync <;> trivial
  | eventRead loop event =>
    simp only [recoverNext]
    split <;> exact sound.of_free rfl rfl rfl before rfl trivial

theorem sound_callNext (sound : Sound s) (moved : callNext s k answer (s.calls k) = some t) : Sound t := by
  cases here : s.calls k with
  | starting p selection =>
    rw [here] at moved
    cases Option.some.inj moved
    exact sound_startNext sound here
  | awaiting session since =>
    rw [here] at moved
    have before : (s.calls k).locks = false := by rw [here]; rfl
    simp only [callNext] at moved
    split at moved
    · split at moved
      · cases Option.some.inj moved
        exact sound.of_free rfl rfl rfl before rfl trivial
      · contradiction
    · cases Option.some.inj moved
      exact sound.of_free rfl rfl rfl before rfl trivial
  | signalled session =>
    rw [here] at moved
    have before : (s.calls k).locks = false := by rw [here]; rfl
    simp only [callNext] at moved
    split at moved <;> cases Option.some.inj moved <;>
      exact sound.of_free rfl rfl rfl before rfl trivial
  | stopping why p => rw [here] at moved; exact sound_stopNext sound here moved
  | updated changed recoverIfRunning =>
    rw [here] at moved
    have held : s.lock = some k := sound.locks k (by rw [here]; rfl)
    cases Option.some.inj moved
    refine sound.of_call rfl rfl ?_ ?_ ?_ ?_ ?_
    · intro k' other holds
      rw [sound.alone held k' other] at holds
      contradiction
    · split <;> simp [Call.locks]
    · split <;> simp
    · simp [here]
    · split <;> trivial
  | recovering p =>
    rw [here] at moved
    cases Option.some.inj moved
    exact sound_recoverNext sound here
  | _ => rw [here] at moved; contradiction

/-- A session that is past its thread's start and not over is the newest, and
the manager refers to its thread. -/
theorem Sound.newest (sound : Sound s) (absent : s.points n ≠ .absent) (dead : s.points n ≠ .dead) :
    n = s.sessions := by
  rcases Nat.lt_trichotomy n s.sessions with earlier | same | later
  · exact absurd (sound.past n earlier) dead
  · exact same
  · exact absurd (sound.future n later) absent

theorem Sound.of_alive (sound : Sound s) (alive : (s.points n).alive = true) :
    n = s.sessions ∧ s.thread = some n := by
  have newest : n = s.sessions := by
    apply sound.newest <;> intro point <;> rw [point] at alive <;> contradiction
  subst newest
  refine ⟨rfl, ?_⟩
  rcases sound.thread with absent | dead | thread
  · rw [absent] at alive; contradiction
  · rw [dead] at alive; contradiction
  · exact thread

/-- The runtime thread goes on. -/
theorem Sound.of_runtime (sound : Sound s) (alive : (s.points n).alive = true)
    (points : t.points = Function.update s.points n p) (sessions : t.sessions = s.sessions)
    (lock : t.lock = s.lock) (calls : t.calls = s.calls) (thread : t.thread = s.thread)
    (begun : p ≠ .absent ∧ p ≠ .created) (owns : p.Owns t n) : Sound t := by
  obtain ⟨rfl, refers⟩ := sound.of_alive alive
  have newest : t.points s.sessions = p := by rw [points, Function.update_self]
  have older {n : Nat} (other : n ≠ s.sessions) : t.points n = s.points n := by
    rw [points, Function.update_of_ne other]
  constructor
  · intro n before
    rw [sessions] at before
    exact (older (Nat.ne_of_lt before)).trans (sound.past n before)
  · intro n after
    rw [sessions] at after
    exact (older (Nat.ne_of_gt after)).trans (sound.future n after)
  · rw [calls, lock]; exact sound.locks
  · intro k p' selection at_point
    rw [calls] at at_point
    have stage := sound.stage k p' selection at_point
    cases p' <;> rw [stage] at alive <;> contradiction
  · intro early
    rw [sessions, newest] at early
    rcases early with absent | created
    · exact absurd absent begun.1
    · exact absurd created begun.2
  · rw [sessions, thread]
    exact .inr (.inr refers)
  · intro n current
    rw [thread, refers] at current
    cases Option.some.inj current
    rw [newest]
    exact begun.1
  · intro k
    rw [calls]
    apply (sound.refers k).forward
    · intro n exists_
      by_cases same : n = s.sessions
      · subst same; rw [newest]; exact begun.1
      · rwa [older same]
    · intro n exists_ not_created
      by_cases same : n = s.sessions
      · subst same; rw [newest]; exact begun.2
      · rwa [older same]
    · intro n dead
      have other : n ≠ s.sessions := by
        rintro rfl
        rw [dead] at alive
        contradiction
      rwa [older other]
  · rwa [sessions, newest]

theorem Sound.owns_at (sound : Sound s) (alive : (s.points n).alive = true) (point : s.points n = p) :
    p.Owns s n := by
  obtain ⟨rfl, _⟩ := sound.of_alive alive
  exact point ▸ sound.owns

theorem sound_lives (sound : Sound s) (lives : Lives config s n act out t) : Sound t := by
  have owns_at {p : Point} (point : s.points n = p) (alive : p.alive = true) : p.Owns s n :=
    sound.owns_at (by rwa [point]) point
  cases lives with
  | loops point =>
    exact sound.of_runtime (by rw [point]; rfl) rfl rfl rfl rfl rfl (by simp) rfl
  | enters point =>
    exact sound.of_runtime (by rw [point]; rfl) rfl rfl rfl rfl rfl (by simp) (owns_at point rfl)
  | makesStop point =>
    exact sound.of_runtime (by rw [point]; rfl) rfl rfl rfl rfl rfl (by simp) ⟨owns_at point rfl, rfl⟩
  | makesRecover point =>
    have owns := owns_at point rfl
    exact sound.of_runtime (by rw [point]; rfl) rfl rfl rfl rfl rfl (by simp) ⟨owns.1, owns.2, rfl⟩
  | checks point =>
    exact sound.of_runtime (by rw [point]; rfl) rfl rfl rfl rfl rfl (by simp) (owns_at point rfl)
  | returns point _ | tells point | told point | closes point | unloops point | dies point
  | breaks point =>
    exact sound.of_runtime (by rw [point]; rfl) rfl rfl rfl rfl rfl (by simp) trivial
  | fails tried =>
    refine sound.of_runtime ?_ rfl rfl rfl rfl rfl (by simp) trivial
    cases point : s.points n <;> simp_all [Point.tried, Point.alive]
  | heeds _ point =>
    exact sound.of_runtime (by rw [point]; rfl) rfl rfl rfl rfl rfl (by simp) (owns_at point rfl)
  | drops _ _ =>
    exact ⟨sound.past, sound.future, sound.locks, sound.stage, sound.begun, sound.thread,
      sound.existing, sound.refers, sound.owns.of_eq rfl rfl rfl⟩
  | @supervises sup e _ sup' point _ _ =>
    have beside := shown_beside s n sup'.counter sup.firstStart out
    have owns : Point.Owns s n (.supervising sup') := (owns_at point rfl : Point.Owns s n (.supervising sup))
    exact sound.of_runtime (by rw [point]; rfl) (beside.point n _) beside.sessions beside.lock beside.calls
      beside.thread (by simp) (owns.of_eq beside.loop beside.stopAsync beside.recoverAsync)

theorem sound_moves (sound : Sound s) (moved : moves config s l t) : Sound t := by
  rcases moves_cases moved with ⟨k, request, rfl, idle, entered⟩ | ⟨k, answer, rfl, called⟩ |
    ⟨n, act, out, rfl, lives⟩
  · exact sound_enter sound idle entered
  · exact sound_callNext sound called
  · exact sound_lives sound lives

theorem sound_run (run : Run (moves config) init past s) : Sound s :=
  run.invariant sound_init sound_moves

end HttpSocksProxy.Lifecycle
