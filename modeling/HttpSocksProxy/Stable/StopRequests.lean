import HttpSocksProxy.Stable.Ownership

/-! A stop request reaches the session it was made in, through the flag or
through the session's own event, and ends its generations. -/
namespace HttpSocksProxy.Supervisor
open Transition

theorem startRaised_keeps (raised : startRaised s e = (out, t)) :
    t.stopAsync = s.stopAsync ∧ t.recoverAsync = s.recoverAsync ∧ t.firstStart = s.firstStart ∧
      out = .startRaised e ∧
      t.phase = if s.firstStart then .firstFailed e else .settling none := by
  simp only [startRaised] at raised
  split at raised <;> cases raised <;> simp_all

/-- A generation is opened further, given up or complete. -/
theorem openNext_keeps (moved : openNext config s g part o = some (out, t)) :
    t.stopAsync = s.stopAsync ∧ t.recoverAsync = s.recoverAsync ∧ t.firstStart = s.firstStart ∧
      ((∃ g' part', g'.selection = g.selection ∧ t.phase = .opening g' part' ∧ out = .quiet) ∨
        (∃ g' e c, t.phase = .undoing g' e c ∧ out = .quiet) ∨
        (t.phase = .healthy g ∧ out = .startReturned)) := by
  cases part <;> cases o <;> first | contradiction | (cases Option.some.inj moved; simp)

theorem settle_keeps (config : Config) (s : State) (since : Option ℚ) (now : ℚ) :
    (settle config s since now).stopAsync = s.stopAsync ∧
      (settle config s since now).recoverAsync = s.recoverAsync ∧
      (settle config s since now).firstStart = s.firstStart ∧
      ((settle config s since now).phase = .leftLoop ∨
        ∃ delay pausing, (settle config s since now).phase = .backingOff delay pausing) := by
  simp only [settle]
  split
  · simp
  · split <;> split <;> simp

/-- Nothing takes a stop request back, and no generation begins after it. -/
theorem goes_stopAsync (goes : Goes config s o out t) :
    t.stopAsync = s.stopAsync ∧ (out = .begins → s.stopAsync = false) := by
  cases goes with
  | begins _ clear => exact ⟨rfl, fun _ => clear⟩
  | raises _ raised | undone _ _ raised =>
    obtain ⟨stop, _, _, shown, _⟩ := startRaised_keeps raised
    exact ⟨stop, by simp [shown]⟩
  | opens _ moved =>
    obtain ⟨stop, _, _, opened⟩ := openNext_keeps moved
    refine ⟨stop, ?_⟩
    rcases opened with ⟨_, _, _, _, shown⟩ | ⟨_, _, _, _, shown⟩ | ⟨_, shown⟩ <;> simp [shown]
  | @changes _ _ c _ _ ended =>
    refine ⟨?_, by simp⟩
    cases c <;> simp only [changed, Option.ite_none_right_eq_some, Option.some.injEq] at ended <;>
      obtain ⟨_, rfl⟩ := ended <;> rfl
  | settles _ => exact ⟨(settle_keeps ..).1, by simp⟩
  | _ => exact ⟨rfl, by simp⟩

theorem step_stopAsync (stepped : step config s e = some (out, t)) :
    (s.stopAsync = true → t.stopAsync = true) ∧ (out = .begins → s.stopAsync = false) := by
  cases e with
  | stopSet => cases Option.some.inj stepped; simp
  | recoverSet => cases Option.some.inj stepped; simp
  | gone p =>
    simp only [step, Option.ite_none_right_eq_some, Option.some.injEq, Prod.mk.injEq] at stepped
    obtain ⟨_, rfl, rfl⟩ := stepped
    simp
  | goesOn o =>
    obtain ⟨stop, begins⟩ := goes_stopAsync (goOn_goes stepped)
    exact ⟨fun set => stop.trans set, begins⟩

end HttpSocksProxy.Supervisor

namespace HttpSocksProxy.Lifecycle
open Transition
open Supervisor (Config Output)

/-- A stop request of session `m` is on its way: the flag waits for
`_supervise`, and a running supervisor has its event set or will have it
`handled`. -/
structure Reached (s : State) (m : Nat) (handled : Prop) : Prop where
  known : m ≤ s.sessions
  flag : (s.points m).unchecked = true → s.stopRequested = true
  event : ∀ sup, s.points m = .supervising sup → sup.stopAsync = true ∨ handled

def StopPoint.Latched (s : State) : StopPoint → Prop
  | flagged m => Reached s m True
  | loopRead m loop => Reached s m (loop = some m)
  | eventRead m loop event => Reached s m (loop = some m ∧ event = some m)
  | checked m loop event => Reached s m (loop = m ∧ event = m)
  | _ => True

structure Latched (s : State) : Prop where
  stops : ∀ k why p, s.calls k = .stopping why p → p.Latched s
  passed : ∀ m, s.passed m = true → Reached s m (.setStop m ∈ s.callbacks m)

/-- A step does not lose the flag of a session before `_supervise` sees it,
nor a set event. -/
structure Forward (s t : State) : Prop where
  sessions : s.sessions ≤ t.sessions
  unchecked : ∀ m ≤ s.sessions, (t.points m).unchecked = true →
    (s.points m).unchecked = true ∧ (s.stopRequested = true → t.stopRequested = true)
  supervising : ∀ m ≤ s.sessions, ∀ sup', t.points m = .supervising sup' →
    (∃ sup, s.points m = .supervising sup ∧ (sup.stopAsync = true → sup'.stopAsync = true)) ∨
      (s.points m).unchecked = true ∧ (s.stopRequested = true → sup'.stopAsync = true)

theorem Reached.forward (reached : Reached s m handled) (forward : Forward s t)
    (later : handled → handled') : Reached t m handled' := by
  constructor
  · exact reached.known.trans forward.sessions
  · intro unchecked
    obtain ⟨before, kept⟩ := forward.unchecked m reached.known unchecked
    exact kept (reached.flag before)
  · intro sup' point
    rcases forward.supervising m reached.known sup' point with ⟨sup, before, kept⟩ | ⟨before, kept⟩
    · exact (reached.event sup before).imp kept later
    · exact .inl (kept (reached.flag before))

theorem StopPoint.Latched.forward {p : StopPoint} (latched : p.Latched s) (forward : Forward s t) :
    p.Latched t := by
  cases p with
  | flagged | loopRead | eventRead | checked => exact Reached.forward latched forward id
  | _ => trivial

theorem Forward.of_same (points : t.points = s.points) (sessions : t.sessions = s.sessions)
    (flag : s.stopRequested = true → t.stopRequested = true) : Forward s t := by
  constructor
  · rw [sessions]
  · intro m _ unchecked
    rw [points] at unchecked
    exact ⟨unchecked, flag⟩
  · intro m _ sup point
    rw [points] at point
    exact .inl ⟨sup, point, id⟩

theorem Forward.of_aside (aside : Aside s k t) : Forward s t :=
  .of_same aside.points aside.sessions aside.stopRequested

/-- A step in which one call goes on, by what it asks of that call. -/
theorem Latched.of_call (latched : Latched s) (forward : Forward s t)
    (calls : t.calls = Function.update s.calls k c)
    (next : ∀ why p, c = .stopping why p → p.Latched t)
    (passed : ∀ m, t.passed m = true →
      s.passed m = true ∨ Reached t m (.setStop m ∈ t.callbacks m))
    (callbacks : ∀ m, .setStop m ∈ s.callbacks m → .setStop m ∈ t.callbacks m) : Latched t := by
  constructor
  · intro k' why p stopping
    rw [calls] at stopping
    by_cases same : k' = k
    · subst same
      rw [Function.update_self] at stopping
      exact next why p stopping
    · rw [Function.update_of_ne same] at stopping
      exact (latched.stops k' why p stopping).forward forward
  · intro m here
    rcases passed m here with before | reached
    · exact (latched.passed m before).forward forward (callbacks m)
    · exact reached

theorem latched_enter (latched : Latched s) (moved : enter s k request = some t) : Latched t := by
  have quiet {c : Call} (calls : t.calls = Function.update s.calls k c) (points : t.points = s.points)
      (sessions : t.sessions = s.sessions) (flag : t.stopRequested = s.stopRequested)
      (passed : t.passed = s.passed) (callbacks : t.callbacks = s.callbacks)
      (next : ∀ why p, c = .stopping why p → p = .flagging) : Latched t := by
    apply latched.of_call (.of_same points sessions (flag ▸ id)) calls
    · intro why p stopping
      rw [next why p stopping]
      trivial
    · intro m here
      exact .inl (passed ▸ here)
    · intro m here
      exact callbacks ▸ here
  cases request with
  | start selection =>
    simp only [enter] at moved
    split at moved
    · contradiction
    · split at moved <;> cases Option.some.inj moved <;> exact quiet rfl rfl rfl rfl rfl rfl (by simp)
  | stop | recover =>
    cases Option.some.inj moved
    exact quiet rfl rfl rfl rfl rfl rfl (by simp)
  | setOutboundSelection selection recoverIfRunning =>
    simp only [enter] at moved
    split at moved
    · contradiction
    · cases Option.some.inj moved
      exact quiet rfl rfl rfl rfl rfl rfl (by simp)

/-- `start` clears the flag only when the sessions before are over. -/
theorem forward_startNext (sound : Sound s) (here : s.calls k = .starting p selection) :
    Forward s (startNext s k selection p) := by
  have stage := sound.stage k p selection here
  cases p with
  | checked | selected | eventCleared => exact .of_same rfl rfl id
  | errorCleared =>
    have spent : ∀ m ≤ s.sessions, s.points m = .dead := by
      intro m known
      rcases Nat.lt_or_eq_of_le known with earlier | rfl
      · exact sound.past m earlier
      · exact stage
    constructor
    · exact Nat.le_succ _
    · intro m known unchecked
      simp [startNext, State.call, spent m known, Point.unchecked] at unchecked
    · intro m known sup point
      simp [startNext, State.call, spent m known] at point
  | flagCleared | made =>
    constructor
    · exact Nat.le_refl _
    · intro m _ unchecked
      by_cases same : m = s.sessions
      · subst same
        exact ⟨by rw [stage]; rfl, id⟩
      · simp only [startNext, State.call, State.point, Function.update_of_ne same] at unchecked
        exact ⟨unchecked, id⟩
    · intro m _ sup point
      by_cases same : m = s.sessions
      · subst same
        simp [startNext, State.call, State.point] at point
      · simp only [startNext, State.call, State.point, Function.update_of_ne same] at point
        exact .inl ⟨sup, point, id⟩

theorem latched_startNext (sound : Sound s) (latched : Latched s)
    (here : s.calls k = .starting p selection) : Latched (startNext s k selection p) := by
  have forward := forward_startNext sound here
  cases p <;> exact latched.of_call forward rfl (by simp) (fun _ => .inl) fun _ => id

theorem mem_callSoon_self (s : State) (loop : Nat) (c : Callback) :
    c ∈ (s.callSoon loop c).callbacks loop := by
  simp [State.callSoon]

/-- A `stop` comes past its scheduling with the request reached. -/
theorem Latched.of_pass (latched : Latched s) (forward : Forward s t)
    (calls : t.calls = Function.update s.calls k c) (passing : t.passed = Function.update s.passed m true)
    (reached : Reached t m (.setStop m ∈ t.callbacks m))
    (callbacks : ∀ n, .setStop n ∈ s.callbacks n → .setStop n ∈ t.callbacks n)
    (next : ∀ why p, c = .stopping why p → p = .passed) : Latched t := by
  apply latched.of_call forward calls
  · intro why p stopping
    rw [next why p stopping]
    trivial
  · intro n here
    rw [passing] at here
    by_cases same : n = m
    · subst same
      exact .inr reached
    · rw [Function.update_of_ne same] at here
      exact .inl here
  · exact callbacks

/-- Past its scheduling a `stop` has had the request handled, or left it to
the flag, or come when the session is over. -/
theorem latched_stopNext (sound : Sound s) (latched : Latched s) (here : s.calls k = .stopping why p)
    (moved : stopNext s k why answer p = some t) : Latched t := by
  have before := latched.stops k why p here
  have owns_at {m : Nat} {sup : Supervisor.State} (point : s.points m = .supervising sup) :
      s.loop = some m ∧ s.stopAsync = some m :=
    have owns := sound.owns_at (by rw [point]; rfl) point
    ⟨owns.1, owns.2.1⟩
  have on {c : Call} (next : ∀ why p, c = .stopping why p → p.Latched s) : Latched (s.call k c) :=
    latched.of_call (.of_same rfl rfl id) rfl
      (fun why p stopping => (next why p stopping).forward (.of_same rfl rfl id)) (fun _ => .inl) fun _ => id
  cases p with
  | flagging =>
    cases Option.some.inj moved
    refine latched.of_call (.of_same rfl rfl fun _ => rfl) rfl ?_ (fun _ => .inl) fun _ => id
    intro _ _ stopping
    cases stopping
    exact ⟨Nat.le_refl _, fun _ => rfl, fun _ _ => .inr trivial⟩
  | flagged m =>
    cases Option.some.inj moved
    apply on
    intro _ _ stopping
    cases stopping
    exact ⟨before.known, before.flag, fun _ point => .inr (owns_at point).1⟩
  | loopRead m loop =>
    cases Option.some.inj moved
    apply on
    intro _ _ stopping
    cases stopping
    exact ⟨before.known, before.flag, fun sup point =>
      (before.event sup point).imp_right fun read => ⟨read, (owns_at point).2⟩⟩
  | eventRead m loop event =>
    rcases stopNext_eventRead moved with ⟨l, e, rfl, rfl, rfl⟩ | ⟨rfl, shown⟩
    · apply on
      intro _ _ stopping
      cases stopping
      exact Reached.forward before (.of_same rfl rfl id) (by simp)
    · refine latched.of_pass (.of_same rfl rfl id) rfl rfl ?_ (fun _ => id) (by simp)
      refine ⟨before.known, before.flag, fun sup point => .inl ((before.event sup point).resolve_right ?_)⟩
      -- a supervisor keeps its loop running
      rintro ⟨loop_read, event_read⟩
      have shown := shown m loop_read (by rw [event_read]; rfl)
      rw [show s.points m = .supervising sup from point] at shown
      contradiction
  | checked m loop event =>
    simp only [stopNext] at moved
    split at moved
    case isTrue closed =>
      cases Option.some.inj moved
      refine latched.of_pass (.of_same rfl rfl id) rfl rfl ?_ (fun _ => id) (by simp)
      refine ⟨before.known, before.flag, fun sup point => .inl ((before.event sup point).resolve_right ?_)⟩
      rintro ⟨rfl, _⟩
      rw [show s.points loop = .supervising sup from point] at closed
      contradiction
    case isFalse =>
      cases Option.some.inj moved
      refine latched.of_pass (.of_same rfl rfl id) rfl rfl ?_ (fun _ queued => subset_callSoon _ _ _ _ queued) (by simp)
      refine ⟨before.known, before.flag, fun sup point => (before.event sup point).imp_right ?_⟩
      rintro ⟨rfl, rfl⟩
      exact mem_callSoon_self ..
  | passed =>
    cases Option.some.inj moved
    exact on (by simp [StopPoint.Latched])
  | joining thread | joined thread =>
    simp only [stopNext] at moved
    split at moved <;> cases Option.some.inj moved <;> exact on (by simp [StopPoint.Latched])
  | clearing thread =>
    simp only [stopNext] at moved
    split at moved
    · contradiction
    · cases Option.some.inj moved
      exact latched.of_call (.of_same rfl rfl id) rfl (by simp) (fun _ => .inl) fun _ => id

theorem latched_recoverNext (latched : Latched s) : Latched (recoverNext s k p) := by
  have on {c : Call} (next : ∀ why p, c ≠ .stopping why p) : Latched (s.call k c) :=
    latched.of_call (.of_same rfl rfl id) rfl (fun why p stopping => absurd stopping (next why p))
      (fun _ => .inl) fun _ => id
  cases p with
  | checking | runningSeen | loopSeen => exact on (by split <;> simp)
  | eventSeen => exact on (by cases s.loop <;> simp)
  | loopRead loop => exact on (by cases s.recoverAsync <;> simp)
  | eventRead loop event =>
    simp only [recoverNext]
    split
    · exact on (by simp)
    · exact latched.of_call (.of_same rfl rfl id) rfl (by simp) (fun _ => .inl)
        fun _ queued => subset_callSoon _ _ _ _ queued

theorem latched_callNext (sound : Sound s) (latched : Latched s)
    (moved : callNext s k answer (s.calls k) = some t) : Latched t := by
  have on {c : Call} (next : ∀ why p, c = .stopping why p → p = .flagging) : Latched (s.call k c) := by
    refine latched.of_call (.of_same rfl rfl id) rfl ?_ (fun _ => .inl) fun _ => id
    intro why p stopping
    rw [next why p stopping]
    trivial
  cases here : s.calls k with
  | starting p selection =>
    rw [here] at moved
    cases Option.some.inj moved
    exact latched_startNext sound latched here
  | awaiting session since =>
    rw [here] at moved
    simp only [callNext] at moved
    split at moved
    · split at moved
      · cases Option.some.inj moved
        exact on (by simp)
      · contradiction
    · cases Option.some.inj moved
      exact on (by simp)
  | signalled session =>
    rw [here] at moved
    simp only [callNext] at moved
    split at moved <;> cases Option.some.inj moved <;> exact on (by simp)
  | stopping why p => rw [here] at moved; exact latched_stopNext sound latched here moved
  | updated changed recoverIfRunning =>
    rw [here] at moved
    cases Option.some.inj moved
    refine latched.of_call (.of_same rfl rfl id) rfl (fun why p stopping => ?_) (fun _ => .inl) fun _ => id
    split at stopping <;> contradiction
  | recovering p =>
    rw [here] at moved
    cases Option.some.inj moved
    exact latched_recoverNext latched
  | _ => rw [here] at moved; contradiction

theorem Forward.of_point (points : t.points = Function.update s.points n p)
    (sessions : t.sessions = s.sessions) (flag : t.stopRequested = s.stopRequested)
    (unchecked : p.unchecked = true → (s.points n).unchecked = true)
    (supervising : ∀ sup', p = .supervising sup' →
      (∃ sup, s.points n = .supervising sup ∧ (sup.stopAsync = true → sup'.stopAsync = true)) ∨
        (s.points n).unchecked = true ∧ (s.stopRequested = true → sup'.stopAsync = true)) :
    Forward s t := by
  constructor
  · rw [sessions]
  · intro m _ early
    rw [points] at early
    by_cases same : m = n
    · subst same
      rw [Function.update_self] at early
      exact ⟨unchecked early, flag ▸ id⟩
    · rw [Function.update_of_ne same] at early
      exact ⟨early, flag ▸ id⟩
  · intro m _ sup' point
    rw [points] at point
    by_cases same : m = n
    · subst same
      rw [Function.update_self] at point
      exact supervising sup' point
    · rw [Function.update_of_ne same] at point
      exact .inl ⟨sup', point, id⟩

theorem Latched.of_runtime (latched : Latched s) (forward : Forward s t) (calls : t.calls = s.calls)
    (passed : t.passed = s.passed) (callbacks : t.callbacks = s.callbacks) : Latched t := by
  constructor
  · intro k why p stopping
    rw [calls] at stopping
    exact (latched.stops k why p stopping).forward forward
  · intro m here
    rw [passed] at here
    rw [callbacks]
    exact (latched.passed m here).forward forward id

/-- A callback leaves the queue: when it was the request of a session, the
supervisor has heeded it or runs no more. -/
theorem Latched.of_callback (latched : Latched s) (forward : Forward s t) (calls : t.calls = s.calls)
    (passed : t.passed = s.passed) (queued : s.callbacks n = c :: later)
    (callbacks : t.callbacks = Function.update s.callbacks n later)
    (heeded : c = .setStop n → ∀ sup, t.points n = .supervising sup → sup.stopAsync = true) : Latched t := by
  constructor
  · intro k why p stopping
    rw [calls] at stopping
    exact (latched.stops k why p stopping).forward forward
  · intro m here
    rw [passed] at here
    by_cases same : m = n
    · subst same
      have reached : Reached t m (.setStop m ∈ s.callbacks m) := (latched.passed m here).forward forward id
      refine ⟨reached.known, reached.flag, fun sup point => ?_⟩
      rcases reached.event sup point with set | waiting
      · exact .inl set
      · rw [queued] at waiting
        rcases List.mem_cons.mp waiting with first | rest
        · exact .inl (heeded first.symm sup point)
        · rw [callbacks, Function.update_self]
          exact .inr rest
    · rw [callbacks, Function.update_of_ne same]
      exact (latched.passed m here).forward forward id

theorem heed_setStop (sup : Supervisor.State) (n : Nat) : (heed n sup (.setStop n)).stopAsync = true := by
  simp [heed]

theorem forward_lives (lives : Lives config s n act out t) : Forward s t := by
  cases lives with
  | loops point | enters point | makesStop point | makesRecover point =>
    exact .of_point rfl rfl rfl (by rw [point]; exact id) (by simp)
  | checks point =>
    refine .of_point rfl rfl rfl (by simp [Point.unchecked]) ?_
    intro sup' made
    cases made
    exact .inr ⟨by rw [point]; rfl, id⟩
  | returns | tells | told | closes | unloops | dies | breaks | fails =>
    exact .of_point rfl rfl rfl (by simp [Point.unchecked]) (by simp)
  | @heeds c _ sup _ point =>
    refine .of_point rfl rfl rfl (by simp [Point.unchecked]) ?_
    intro sup' made
    cases made
    exact .inl ⟨sup, point, (heed_keeps n sup c).2.2.1⟩
  | drops => exact .of_same rfl rfl id
  | @supervises sup e _ sup' point _ stepped =>
    have beside := shown_beside s n sup'.counter sup.firstStart out
    refine .of_point (beside.point n _) beside.sessions beside.stopRequested (by simp [Point.unchecked]) ?_
    intro _ made
    cases made
    exact .inl ⟨sup, point, (Supervisor.step_stopAsync stepped).1⟩

theorem latched_lives (latched : Latched s) (lives : Lives config s n act out t) : Latched t := by
  have forward := forward_lives lives
  cases lives with
  | @heeds c later sup queued point =>
    refine latched.of_callback forward rfl rfl queued rfl ?_
    rintro rfl sup' made
    simp only [State.point, Function.update_self, Point.supervising.injEq] at made
    subst made
    exact heed_setStop sup n
  | drops queued point =>
    refine latched.of_callback forward rfl rfl queued rfl fun _ sup supervising => ?_
    rcases point with entered | closing
    · exact absurd (entered.symm.trans supervising) (by simp)
    · exact absurd (closing.symm.trans supervising) (by simp)
  | @supervises sup _ _ sup' =>
    have beside := shown_beside s n sup'.counter sup.firstStart out
    exact latched.of_runtime forward beside.calls beside.passed beside.callbacks
  | _ => exact latched.of_runtime forward rfl rfl rfl

theorem latched_moves (sound : Sound s) (latched : Latched s) (moved : moves config s l t) : Latched t := by
  rcases moves_cases moved with ⟨k, request, rfl, idle, entered⟩ | ⟨k, answer, rfl, called⟩ |
    ⟨n, act, out, rfl, lives⟩
  · exact latched_enter latched entered
  · exact latched_callNext sound latched called
  · exact latched_lives latched lives

theorem latched_run (run : Run (moves config) init past s) : Latched s := by
  apply run.invariant_under sound_run
  · constructor <;> simp [init]
  · exact latched_moves

theorem forward_moves (sound : Sound s) (moved : moves config s l t) : Forward s t := by
  rcases moves_cases moved with ⟨k, request, rfl, idle, entered⟩ | ⟨k, answer, rfl, called⟩ |
    ⟨n, act, out, rfl, lives⟩
  · exact .of_aside (aside_enter entered)
  · by_cases starting : ∃ p selection, s.calls k = .starting p selection
    · obtain ⟨p, selection, here⟩ := starting
      rw [here] at called
      cases Option.some.inj called
      exact forward_startNext sound here
    · exact .of_aside (aside_callNext (fun p selection here => starting ⟨p, selection, here⟩) called)
  · exact forward_lives lives

/-- The session is past its look at the flag, with the event of its
supervisor set if that runs. -/
def Stopped (n : Nat) (s : State) : Prop :=
  n ≤ s.sessions ∧ (s.points n).unchecked = false ∧
    ∀ sup, s.points n = .supervising sup → sup.stopAsync = true

theorem stopped_forward (stopped : Stopped n s) (forward : Forward s t) : Stopped n t := by
  obtain ⟨known, checked, event⟩ := stopped
  refine ⟨known.trans forward.sessions, ?_, ?_⟩
  · rw [← Bool.not_eq_true]
    intro unchecked
    rw [(forward.unchecked n known unchecked).1] at checked
    contradiction
  · intro sup' point
    rcases forward.supervising n known sup' point with ⟨sup, before, kept⟩ | ⟨unchecked, _⟩
    · exact kept (event sup before)
    · rw [unchecked] at checked
      contradiction

theorem stopped_begins (stopped : Stopped n s) (moved : moves config s (.runtime n act, out) t) :
    out ≠ .begins := by
  cases runtime_lives moved with
  | @supervises sup _ _ _ point _ stepped =>
    rintro rfl
    have clear := (Supervisor.step_stopAsync stepped).2 rfl
    rw [stopped.2.2 sup point] at clear
    contradiction
  | _ => simp

theorem stopped_run (sound : Sound s) (stopped : Stopped n s) (run : Run (moves config) s later t) :
    ∀ act, (.runtime n act, .begins) ∉ later := by
  have kept : (Sound t ∧ Stopped n t) ∧ ∀ act, (.runtime n act, .begins) ∉ later := by
    apply run.record (P := fun past t => (Sound t ∧ Stopped n t) ∧ ∀ act, (.runtime n act, .begins) ∉ past)
    · exact ⟨⟨sound, stopped⟩, by simp⟩
    · intro past s l t before moved
      obtain ⟨⟨sound, stopped⟩, none_begun⟩ := before
      refine ⟨⟨sound_moves sound moved, stopped_forward stopped (forward_moves sound moved)⟩, ?_⟩
      intro act here
      rcases List.mem_cons.mp here with same | earlier
      · subst same
        exact stopped_begins stopped moved rfl
      · exact none_begun act earlier
  exact kept.2

/-- At most one runtime thread is alive, the manager refers to it, a stop
request made in a session reaches its supervisor by the flag or by its own
event, and no generation begins once that is set. -/
theorem lifecycle_safe (run : Run (moves config) init past s) :
    (∀ m n, (s.points m).alive = true → (s.points n).alive = true → m = n) ∧
    (∀ n, (s.points n).alive = true → s.thread = some n) ∧
    (∀ n, s.passed n = true →
      ((s.points n).unchecked = true → s.stopRequested = true) ∧
        ∀ sup, s.points n = .supervising sup → sup.stopAsync = true ∨ .setStop n ∈ s.callbacks n) ∧
    (∀ n sup, s.points n = .supervising sup → sup.stopAsync = true →
      ∀ later t, Run (moves config) s later t → ∀ act, (.runtime n act, .begins) ∉ later) := by
  have sound := sound_run run
  have latched := latched_run run
  refine ⟨fun m n m_alive n_alive => ?_, fun n alive => (sound.of_alive alive).2, fun n here => ?_,
    fun n sup point set later t onward => ?_⟩
  · exact (sound.of_alive m_alive).1.trans (sound.of_alive n_alive).1.symm
  · have reached := latched.passed n here
    exact ⟨reached.flag, reached.event⟩
  · have newest : n = s.sessions := (sound.of_alive (by rw [point]; rfl)).1
    refine stopped_run sound ⟨newest.le, by rw [point]; rfl, ?_⟩ onward
    intro sup' same
    cases point.symm.trans same
    exact set

/-- A session of call 0 whose runtime thread has come into its loop. -/
def entering (selection : Str) : List Event :=
  .enters 0 (.start selection) :: List.replicate 6 (.goesOn 0 true) ++ List.replicate 2 (.runtime 1 .onward)

/-- Call 1 stops the session before it has made its events; no generation
begins. -/
theorem early_stop_heeded : ∃ past s sup, Run (moves {}) init past s ∧ s.passed 1 = true ∧
    s.points 1 = .supervising sup ∧ s.thread = some 1 ∧
    ∀ later t, Run (moves {}) s later t → ∀ act, (.runtime 1 act, .begins) ∉ later := by
  obtain ⟨past, s, sup, executed, passed, point, set⟩ : ∃ past s sup,
      execute (step {}) (fun _ event out => (event, out)) init (entering [] ++ [.enters 1 .stop] ++
        List.replicate 4 (.goesOn 1 true) ++ List.replicate 3 (.runtime 1 .onward)) = some (past, s) ∧
      s.passed 1 = true ∧ s.points 1 = .supervising sup ∧ sup.stopAsync = true :=
    ⟨_, _, _, rfl, rfl, rfl, rfl⟩
  have run : Run (moves {}) init past s := Run.of_outputs executed
  obtain ⟨_, refers, _, ended⟩ := lifecycle_safe run
  exact ⟨past, s, sup, run, passed, point, refers 1 (by rw [point]; rfl), ended 1 sup point set⟩

end HttpSocksProxy.Lifecycle
