import HttpSocksProxy.Stable.Selection

/-! What `start` learns about its session: when the startup event is set, the
text of the startup error tells whether the first generation came up, unless
that text is empty, the thread fails late or another `start` comes between. -/
namespace HttpSocksProxy.Supervisor
open Transition

/-- What `start` can see of a session: whether its first `_start_generation`
has succeeded, whether the error is unset or empty, whether the event is set. -/
structure Facts where
  succeeded : Bool
  silent : Bool
  event : Bool
  deriving DecidableEq, Repr

/-- The facts that go with a phase, by `first_start`; the rest is not reached. -/
def factsAt : Bool → Phase → Option Facts
  | true, .healthy _ | true, .announcing .. => some ⟨true, true, false⟩
  | true, .firstFailed _ => some ⟨false, true, false⟩
  | true, .firstTold | true, .cancelled => some ⟨false, false, false⟩
  | true, .returned => some ⟨false, false, true⟩
  | true, .waiting .. | true, .stopping .. | true, .settling _ | true, .backingOff .. => none
  | true, _ => some ⟨false, true, false⟩
  | false, .announcing .. | false, .firstFailed _ | false, .firstTold | false, .cancelled => none
  | false, _ => some ⟨true, true, true⟩

/-- A step shows itself in the facts by its output. -/
def Facts.after (firstStart : Bool) (facts : Facts) : Output → Facts
  | .startReturned => { facts with succeeded := facts.succeeded || firstStart }
  | .startupError text => { facts with silent := text.isEmpty }
  | .startupEvent => { facts with event := true }
  | _ => facts

/-- The facts are those that the supervisor has made so far. -/
def Told (s : State) (facts : Facts) : Prop := factsAt s.firstStart s.phase = some facts

theorem factsAt_beforeRoute {phase phase' : Phase} (before : phase.beforeRoute = true)
    (after : phase'.beforeRoute = true) (first : Bool) : factsAt first phase' = factsAt first phase := by
  cases phase <;> cases phase' <;> first | contradiction | (cases first <;> rfl)

/-- A phase follows that goes with the same facts. -/
theorem Told.quiet (told : Told s facts) (first : t.firstStart = s.firstStart)
    (same : factsAt s.firstStart t.phase = factsAt s.firstStart s.phase) : Told t facts := by
  rw [Told, first, same]
  exact told

theorem factsAt_unopened {phase : Phase} (early : phase.unopened = true) (first : Bool) :
    factsAt first phase = factsAt first .refreshing := by
  cases phase <;> first | contradiction | (cases first <;> rfl)

theorem told_startRaised {facts : Facts} (told : Told s facts) (raised : startRaised s e = (out, t))
    (here : ∀ first, factsAt first s.phase = factsAt first .refreshing) :
    Told t (facts.after s.firstStart out) := by
  obtain ⟨_, _, first, rfl, phase⟩ := startRaised_keeps raised
  apply told.quiet first
  rw [phase, here]
  cases s.firstStart <;> rfl

theorem told_goes {facts : Facts} (told : Told s facts) (goes : Goes config s o out t)
    (spoken : ∀ text, out = .startupError text → text ≠ []) : Told t (facts.after s.firstStart out) := by
  have expects := told
  rw [Told] at expects
  cases goes with
  | leaves phase _ | begins phase _ | routes phase | resolves phase | constructs phase
  | undoes phase _ | cleans phase _ =>
    refine told.quiet rfl ?_
    rw [phase]
    cases s.firstStart <;> rfl
  | looks before after => exact told.quiet rfl (factsAt_beforeRoute before after _)
  | raises early raised => exact told_startRaised told raised (factsAt_unopened early)
  | opens phase moved =>
    obtain ⟨_, _, first, opened⟩ := openNext_keeps moved
    rcases opened with ⟨_, _, _, next, rfl⟩ | ⟨_, _, _, next, rfl⟩ | ⟨next, rfl⟩
    · apply told.quiet first
      rw [phase, next]
      cases s.firstStart <;> rfl
    · apply told.quiet first
      rw [phase, next]
      cases s.firstStart <;> rfl
    · rw [phase] at expects
      rw [Told, first, next]
      cases start : s.firstStart <;> rw [start] at expects <;> cases Option.some.inj expects <;> rfl
  | @undone _ _ _ opened _ _ phase _ raised =>
    refine told_startRaised (s := { s with opened }) told raised ?_
    intro first
    dsimp only
    rw [phase]
    cases first <;> rfl
  | first phase start | again phase start | returns phase start =>
    refine told.quiet rfl ?_
    rw [phase, start]
    rfl
  | announces phase | told phase | cancelTold phase =>
    rw [phase] at expects
    rw [Told]
    cases start : s.firstStart <;> rw [start] at expects
    · contradiction
    · cases Option.some.inj expects
      rfl
  | @changes _ _ c _ phase ended =>
    rw [phase] at expects
    cases start : s.firstStart with
    | true => rw [start] at expects; contradiction
    | false =>
      rw [start] at expects
      cases c <;> simp only [changed, Option.ite_none_right_eq_some, Option.some.injEq] at ended <;>
        obtain ⟨_, rfl⟩ := ended <;> rw [Told, start] <;> exact expects
  | cleaned phase cleaned =>
    rw [phase] at expects
    cases start : s.firstStart with
    | true => rw [start] at expects; contradiction
    | false =>
      rw [start] at expects
      rw [Told]
      dsimp only
      split <;> exact expects
  | @settles since now phase =>
    rw [phase] at expects
    obtain ⟨_, _, first, left | ⟨_, _, waits⟩⟩ := settle_keeps config s since now
    · rw [Told, first, left]
      cases start : s.firstStart <;> rw [start] at expects <;> first | contradiction | exact expects
    · rw [Told, first, waits]
      cases start : s.firstStart <;> rw [start] at expects <;> first | contradiction | exact expects
  | waits phase _ =>
    rw [phase] at expects
    cases start : s.firstStart <;> rw [start] at expects
    · rw [Told]
      simp only [waited, start]
      exact expects
    · contradiction
  | @tells e phase =>
    rw [phase] at expects
    rw [Told]
    cases start : s.firstStart <;> rw [start] at expects
    · contradiction
    · cases Option.some.inj expects
      simp [factsAt, Facts.after, spoken e rfl]
  | cancels phase start =>
    rw [phase, start] at expects
    cases Option.some.inj expects
    rw [Told, start]
    rfl

theorem told_step {facts : Facts} (told : Told s facts) (stepped : step config s e = some (out, t))
    (spoken : ∀ text, out = .startupError text → text ≠ []) : Told t (facts.after s.firstStart out) := by
  cases e with
  | stopSet | recoverSet =>
    cases Option.some.inj stepped
    exact told
  | gone p =>
    simp only [step, Option.ite_none_right_eq_some, Option.some.injEq, Prod.mk.injEq] at stepped
    obtain ⟨_, rfl, rfl⟩ := stepped
    exact told
  | goesOn o => exact told_goes told (goOn_goes stepped) spoken

/-- Once the event is set the text and the success agree, and a failure is
the end of the supervisor. -/
theorem factsAt_event {facts : Facts} (shows : factsAt first phase = some facts) (event : facts.event = true) :
    facts.succeeded = facts.silent ∧ (facts.silent = false → phase = .returned) := by
  cases first <;> cases phase <;> first | contradiction | (cases Option.some.inj shows; simp_all)

theorem factsAt_untold {facts : Facts} (shows : factsAt first phase = some facts) (going : phase ≠ .returned)
    (failed : facts.succeeded = false) : facts.event = false := by
  cases first <;> cases phase <;> first | contradiction | (cases Option.some.inj shows; simp_all)

/-- A supervisor that has returned shows nothing more. -/
theorem returned_step (stepped : step config s e = some (out, t)) (returned : s.phase = .returned) :
    out = .quiet ∧ t.phase = .returned := by
  cases e with
  | stopSet | recoverSet =>
    cases Option.some.inj stepped
    exact ⟨rfl, returned⟩
  | gone p =>
    simp only [step, Option.ite_none_right_eq_some, Option.some.injEq, Prod.mk.injEq] at stepped
    obtain ⟨_, rfl, rfl⟩ := stepped
    exact ⟨rfl, returned⟩
  | goesOn o =>
    simp only [step, goOn, returned] at stepped
    contradiction

end HttpSocksProxy.Supervisor

namespace HttpSocksProxy.Lifecycle
open Transition
open Supervisor (Config Output Facts Told)

/-- The facts of a session, with whether the event was set for it. -/
def State.facts (s : State) (n : Nat) (event : Bool) : Facts :=
  ⟨s.succeeded n, (s.startupError.getD []).isEmpty, event⟩

/-- The facts that go with the point of the session a `start` waits for. -/
def Point.Tells (facts : Facts) : Point → Prop
  | absent | created => False
  | started | looped | entered | stopMade | made => facts = ⟨false, true, false⟩
  | supervising sup => Told sup facts
  | failing _ =>
    (facts.succeeded = false → facts.event = false) ∧ (facts.event = true → facts.succeeded = facts.silent)
  | failTold => facts = ⟨false, false, false⟩
  | closing | closed | unlooped | dead => facts.event = true → facts.succeeded = facts.silent

/-- The first `_start_generation` will not succeed any more if it has not. -/
def Point.spent : Point → Bool
  | supervising sup => sup.phase = .returned
  | closing | closed | unlooped | dead => true
  | _ => false

structure Finished (s : State) (n : Nat) : Prop where
  known : n ≤ s.sessions
  failed : s.succeeded n = false
  spent : (s.points n).spent = true

structure Waited (s : State) (n : Nat) (event : Bool) : Prop where
  newest : n = s.sessions
  tells : (s.points n).Tells (s.facts n event)

/-- What `start` has cleared so far. -/
def StartPoint.Cleared (s : State) : StartPoint → Prop
  | checked | selected => True
  | eventCleared => s.startupEvent = false
  | errorCleared => s.startupEvent = false ∧ s.startupError = none
  | flagCleared | made =>
    s.startupEvent = false ∧ s.startupError = none ∧ s.succeeded s.sessions = false

/-- A call of `start` is right about its session. -/
def Call.Honest (s : State) : Call → Prop
  | starting p _ => p.Cleared s
  | awaiting n since => Waited s n (since < s.signals) ∧ since ≤ s.signals ∧
      (s.startupEvent = true → since < s.signals)
  | signalled n => Waited s n true
  | started n => s.succeeded n = true
  | stopping (.failed n) _ | stopped (.failed n) _ => Finished s n
  | _ => True

/-- A `start` that waits for its session, or has the outcome to read. -/
def Call.waits : Call → Bool
  | awaiting .. | signalled _ => true
  | _ => false

/-- A `start` that has cleared the error for its session. -/
def Call.cleared : Call → Bool
  | starting .errorCleared _ | starting .flagCleared _ | starting .made _ => true
  | _ => false

structure Honest (s : State) : Prop where
  alone : ∀ k k', (s.calls k).cleared = true → (s.calls k').waits = false
  fresh : ∀ n, s.sessions < n → s.succeeded n = false
  calls : ∀ k, (s.calls k).Honest s

/-- What is done to `_startup_error` while a `start` waits for its session or
has the outcome to read: no other `start` clears it, a text put there is not
empty, and it is not that of a thread failing after the first success. -/
def Truthful (s : State) : Event × Output → Prop
  | (.goesOn k _, _) => ∀ selection, s.calls k = .starting .eventCleared selection →
      ∀ k', (s.calls k').waits = false
  | (.runtime n .onward, _) => ∀ text, s.points n = .failing text →
      ∀ k, (s.calls k).waits = true → text ≠ [] ∧ s.succeeded n = false
  | (.runtime _ (.supervises _), .startupError text) => ∀ k, (s.calls k).waits = true → text ≠ []
  | _ => True

/-- Once the event is set the text and the first generation agree. -/
theorem Point.Tells.agree {p : Point} {facts : Facts} (tells : p.Tells facts) (event : facts.event = true) :
    facts.succeeded = facts.silent ∧ (facts.silent = false → p.spent = true) := by
  cases p with
  | absent | created => contradiction
  | started | looped | entered | stopMade | made | failTold =>
    rw [tells] at event
    contradiction
  | failing text =>
    refine ⟨tells.2 event, fun spoken => ?_⟩
    rw [tells.1 ((tells.2 event).trans spoken)] at event
    contradiction
  | supervising sup =>
    obtain ⟨agree, ended⟩ := Supervisor.factsAt_event tells event
    exact ⟨agree, fun failed => decide_eq_true (ended failed)⟩
  | closing | closed | unlooped | dead => exact ⟨tells event, fun _ => rfl⟩

theorem Finished.of_eq (finished : Finished s n) (points : t.points n = s.points n)
    (sessions : s.sessions ≤ t.sessions) (succeeded : t.succeeded n = s.succeeded n) : Finished t n :=
  ⟨finished.known.trans sessions, succeeded.trans finished.failed, points ▸ finished.spent⟩

theorem Aside.waited (aside : Aside s k t) (waited : Waited s n event) : Waited t n event := by
  refine ⟨waited.newest.trans aside.sessions.symm, ?_⟩
  rw [State.facts, aside.points, aside.succeeded, aside.startupError]
  exact waited.tells

theorem Call.Honest.of_aside {c : Call} (honest : c.Honest s) (aside : Aside s k t) : c.Honest t := by
  cases c with
  | starting p selection =>
    cases p <;> simp only [Call.Honest, StartPoint.Cleared, aside.startupEvent, aside.startupError,
      aside.succeeded, aside.sessions] <;> exact honest
  | awaiting n since =>
    simp only [Call.Honest, aside.signals, aside.startupEvent]
    exact ⟨aside.waited honest.1, honest.2⟩
  | signalled n => exact aside.waited honest
  | started n => exact (congrFun aside.succeeded n).trans honest
  | stopping why p | stopped why result =>
    cases why with
    | failed n =>
      exact Finished.of_eq honest (by rw [aside.points]) aside.sessions.ge (by rw [aside.succeeded])
    | _ => trivial
  | _ => trivial

/-- A call goes on outside the lock of `start`. -/
theorem Honest.of_aside (honest : Honest s) (aside : Aside s k t)
    (waits : (t.calls k).waits = true → (s.calls k).waits = true)
    (early : (t.calls k).cleared = false) (next : (t.calls k).Honest s) : Honest t := by
  constructor
  · intro a b a_cleared
    rw [← Bool.not_eq_true]
    intro b_waits
    by_cases a_same : a = k
    · rw [a_same, early] at a_cleared
      contradiction
    · rw [aside.others a a_same] at a_cleared
      have none_waits := honest.alone a b a_cleared
      by_cases b_same : b = k
      · subst b_same
        rw [waits b_waits] at none_waits
        contradiction
      · rw [aside.others b b_same, none_waits] at b_waits
        contradiction
  · rw [aside.sessions, aside.succeeded]
    exact honest.fresh
  · intro k'
    by_cases same : k' = k
    · subst same
      exact next.of_aside aside
    · rw [aside.others k' same]
      exact (honest.calls k').of_aside aside

theorem honest_enter (honest : Honest s) (moved : enter s k request = some t) : Honest t := by
  have aside := aside_enter moved
  cases request with
  | start selection =>
    simp only [enter] at moved
    split at moved
    · contradiction
    · split at moved <;> cases Option.some.inj moved <;>
        exact honest.of_aside aside (by simp [State.call, Call.waits]) (by simp [State.call, Call.cleared])
          (by simp [State.call, Call.Honest, StartPoint.Cleared])
  | stop | recover =>
    cases Option.some.inj moved
    exact honest.of_aside aside (by simp [State.call, Call.waits]) (by simp [State.call, Call.cleared])
      (by simp [State.call, Call.Honest])
  | setOutboundSelection selection recoverIfRunning =>
    simp only [enter] at moved
    split at moved
    · contradiction
    · cases Option.some.inj moved
      exact honest.of_aside aside (by simp [State.call, Call.waits]) (by simp [State.call, Call.cleared])
        (by simp [State.call, Call.Honest])

/-- What is right about a call that is not `start` under the lock or waiting. -/
theorem Call.Honest.of_settled {c : Call} (honest : c.Honest s)
    (outside : ∀ p selection, c ≠ .starting p selection) (settled : c.waits = false)
    (succeeded : ∀ n, s.succeeded n = true → t.succeeded n = true)
    (finished : ∀ n, Finished s n → Finished t n) : c.Honest t := by
  cases c with
  | starting p selection => exact absurd rfl (outside p selection)
  | awaiting | signalled => contradiction
  | started n => exact succeeded n honest
  | stopping why p | stopped why result =>
    cases why with
    | failed n => exact finished n honest
    | _ => trivial
  | _ => trivial

/-- A waiting call does not see the selection change, nor the event cleared. -/
theorem Call.Honest.of_waits {c : Call} (honest : c.Honest s) (waits : c.waits = true)
    (sessions : t.sessions = s.sessions) (points : t.points = s.points)
    (succeeded : t.succeeded = s.succeeded) (startupError : t.startupError = s.startupError)
    (signals : t.signals = s.signals) (event : t.startupEvent = true → s.startupEvent = true) :
    c.Honest t := by
  have waited {n event} (waited : Waited s n event) : Waited t n event := by
    refine ⟨waited.newest.trans sessions.symm, ?_⟩
    rw [State.facts, points, succeeded, startupError]
    exact waited.tells
  cases c with
  | awaiting n since =>
    simp only [Call.Honest, signals]
    exact ⟨waited honest.1, honest.2.1, fun set => honest.2.2 (event set)⟩
  | signalled n => exact waited honest
  | _ => contradiction

/-- `start` goes on under the lock, or leaves it. -/
theorem Honest.of_launch (honest : Honest s) (sound : Sound s) (here : s.calls k = .starting p selection)
    (others : ∀ k' ≠ k, t.calls k' = s.calls k') (sessions : s.sessions ≤ t.sessions)
    (succeeded : t.succeeded = s.succeeded)
    (spent : ∀ n, (s.points n).spent = true → t.points n = s.points n)
    (waiting : ∀ k' ≠ k, (s.calls k').waits = true → (s.calls k').Honest t)
    (alone : (t.calls k).cleared = true → (t.calls k).waits = false ∧ ∀ k', (s.calls k').waits = false)
    (next : (t.calls k).Honest t) : Honest t := by
  have unlocked := sound.alone (sound.locks k (by rw [here]; rfl))
  constructor
  · intro a b cleared
    by_cases a_same : a = k
    · subst a_same
      obtain ⟨self, rest⟩ := alone cleared
      by_cases b_same : b = a
      · exact b_same ▸ self
      · exact (others b b_same) ▸ rest b
    · have locked := unlocked a a_same
      rw [others a a_same] at cleared
      cases call : s.calls a <;> rw [call] at cleared locked <;> contradiction
  · intro n later
    rw [succeeded]
    exact honest.fresh n (Nat.lt_of_le_of_lt sessions later)
  · intro k'
    by_cases same : k' = k
    · rw [same]
      exact next
    · rw [others k' same]
      by_cases waits : (s.calls k').waits = true
      · exact waiting k' same waits
      · have outside (p selection) : s.calls k' ≠ .starting p selection := by
          intro starting
          have locked := unlocked k' same
          rw [starting] at locked
          contradiction
        apply (honest.calls k').of_settled outside (Bool.not_eq_true _ ▸ waits)
        · rw [succeeded]
          exact fun _ => id
        · exact fun n finished => finished.of_eq (spent n finished.spent) sessions (by rw [succeeded])

/-- While `start` is under the lock the sessions before it are over and
nothing sets the event. -/
theorem honest_startNext (sound : Sound s) (honest : Honest s) (here : s.calls k = .starting p selection)
    (truthful : ∀ selection, s.calls k = .starting .eventCleared selection →
      ∀ k', (s.calls k').waits = false) : Honest (startNext s k selection p) := by
  have stage := sound.stage k p selection here
  have cleared := honest.calls k
  rw [here] at cleared
  have others {u : State} {c : Call} (calls : u.calls = s.calls) :
      ∀ k' ≠ k, (u.call k c).calls k' = s.calls k' := by
    intro k' other
    simp only [State.call, Function.update_of_ne other, calls]
  have unstarted {p' : Point} (early : (s.points s.sessions).spent = false) (n : Nat)
      (spent : (s.points n).spent = true) : Function.update s.points s.sessions p' n = s.points n := by
    apply Function.update_of_ne
    rintro rfl
    rw [early] at spent
    contradiction
  have none_wait (after : (s.calls k).cleared = true) : ∀ k', (s.calls k').waits = false :=
    fun k' => honest.alone k k' after
  have vacuous {t : State} (none_wait : ∀ k', (s.calls k').waits = false) :
      ∀ k' ≠ k, (s.calls k').waits = true → (s.calls k').Honest t := by
    intro k' _ waits
    rw [none_wait k'] at waits
    contradiction
  cases p with
  | checked =>
    refine honest.of_launch sound here (others rfl) le_rfl rfl (fun _ _ => rfl) ?_ ?_ ?_
    · exact fun k' _ waits => (honest.calls k').of_waits waits rfl rfl rfl rfl rfl id
    · simp [startNext, State.call, Call.cleared]
    · simp [startNext, State.call, Call.Honest, StartPoint.Cleared]
  | selected =>
    refine honest.of_launch sound here (others rfl) le_rfl rfl (fun _ _ => rfl) ?_ ?_ ?_
    · exact fun k' _ waits => (honest.calls k').of_waits waits rfl rfl rfl rfl rfl
        (by simp [startNext, State.call])
    · simp [startNext, State.call, Call.cleared]
    · simp [startNext, State.call, Call.Honest, StartPoint.Cleared]
  | eventCleared =>
    have none_wait := truthful selection here
    refine honest.of_launch sound here (others rfl) le_rfl rfl (fun _ _ => rfl) (vacuous none_wait) ?_ ?_
    · exact fun _ => ⟨by simp [startNext, State.call, Call.waits], none_wait⟩
    · simp only [startNext, State.call, Function.update_self]
      exact ⟨cleared, rfl⟩
  | errorCleared =>
    have none_wait := none_wait (by rw [here]; rfl)
    refine honest.of_launch sound here (others rfl) (Nat.le_succ _) rfl (fun _ _ => rfl)
      (vacuous none_wait) ?_ ?_
    · exact fun _ => ⟨by simp [startNext, State.call, Call.waits], none_wait⟩
    · simp only [startNext, State.call, Function.update_self]
      exact ⟨cleared.1, cleared.2, honest.fresh _ (Nat.lt_succ_self _)⟩
  | flagCleared =>
    have none_wait := none_wait (by rw [here]; rfl)
    refine honest.of_launch sound here (others rfl) le_rfl rfl (unstarted (by rw [stage]; rfl))
      (vacuous none_wait) ?_ ?_
    · exact fun _ => ⟨by simp [startNext, State.call, Call.waits], none_wait⟩
    · simp only [startNext, State.call, Function.update_self]
      exact cleared
  | made =>
    have none_wait := none_wait (by rw [here]; rfl)
    obtain ⟨event, error, failed⟩ := cleared
    refine honest.of_launch sound here (others rfl) le_rfl rfl (unstarted (by rw [stage]; rfl))
      (vacuous none_wait) ?_ ?_
    · simp [startNext, State.call, Call.cleared]
    · simp only [startNext, State.call, Function.update_self]
      refine ⟨⟨rfl, ?_⟩, le_rfl, by simp [State.point, event]⟩
      simp [State.point, State.facts, Point.Tells, failed, error]

theorem honest_callNext (sound : Sound s) (honest : Honest s)
    (truthful : ∀ selection, s.calls k = .starting .eventCleared selection →
      ∀ k', (s.calls k').waits = false)
    (moved : callNext s k answer (s.calls k) = some t) : Honest t := by
  have was := honest.calls k
  cases here : s.calls k with
  | starting p selection =>
    rw [here] at moved
    cases Option.some.inj moved
    exact honest_startNext sound honest here truthful
  | awaiting session since =>
    have aside := aside_callNext (by simp [here]) moved
    rw [here] at moved was
    obtain ⟨waited, _, unseen⟩ := was
    simp only [callNext] at moved
    split at moved
    · split at moved
      case isTrue told =>
        cases Option.some.inj moved
        have woken : since < s.signals :=
          (Bool.or_eq_true _ _ ▸ told).elim unseen of_decide_eq_true
        refine honest.of_aside aside (fun _ => by rw [here]; rfl) (by simp [State.call, Call.cleared]) ?_
        simp only [State.call, Function.update_self]
        rw [decide_eq_true woken] at waited
        exact waited
      case isFalse => contradiction
    · cases Option.some.inj moved
      exact honest.of_aside aside (by simp [State.call, Call.waits]) (by simp [State.call, Call.cleared])
        (by simp [State.call, Call.Honest])
  | signalled session =>
    have aside := aside_callNext (by simp [here]) moved
    rw [here] at moved was
    obtain ⟨agree, ended⟩ := was.tells.agree rfl
    simp only [callNext] at moved
    split at moved
    case isTrue silent =>
      cases Option.some.inj moved
      refine honest.of_aside aside (by simp [State.call, Call.waits]) (by simp [State.call, Call.cleared]) ?_
      simp only [State.call, Function.update_self]
      exact agree.trans silent
    case isFalse spoken =>
      cases Option.some.inj moved
      refine honest.of_aside aside (by simp [State.call, Call.waits]) (by simp [State.call, Call.cleared]) ?_
      simp only [State.call, Function.update_self]
      have spoken : (s.facts session true).silent = false := Bool.not_eq_true _ ▸ spoken
      exact ⟨was.newest.le, agree.trans spoken, ended spoken⟩
  | stopping why p =>
    have aside := aside_callNext (by simp [here]) moved
    rw [here] at moved was
    rcases (stopNext_keeps moved).2.2 with ⟨p', next⟩ | ⟨result, next⟩ <;>
      refine honest.of_aside aside (by simp [next, Call.waits]) (by simp [next, Call.cleared]) ?_ <;>
      rw [next] <;> cases why <;> exact was
  | updated changed recoverIfRunning =>
    have aside := aside_callNext (by simp [here]) moved
    rw [here] at moved
    cases Option.some.inj moved
    refine honest.of_aside aside ?_ ?_ ?_ <;> simp only [State.call, Function.update_self] <;> split <;>
      simp [Call.waits, Call.cleared, Call.Honest]
  | recovering p =>
    have aside := aside_callNext (by simp [here]) moved
    rw [here] at moved
    cases Option.some.inj moved
    rcases (recoverNext_keeps s k p).2.2 with ⟨p', next⟩ | ⟨result, next⟩ <;>
      exact honest.of_aside aside (by simp [next, Call.waits]) (by simp [next, Call.cleared])
        (by simp [next, Call.Honest])
  | _ => rw [here] at moved; contradiction

/-- The runtime thread goes on, `rang` when it sets the startup event; the
calls that wait for it see the facts change with its point. -/
theorem Honest.of_runtime (honest : Honest s) (sound : Sound s) (alive : (s.points n).alive = true)
    (rang : Bool) (points : t.points = Function.update s.points n p) (sessions : t.sessions = s.sessions)
    (calls : t.calls = s.calls) (older : ∀ m ≠ n, t.succeeded m = s.succeeded m)
    (succeeded : s.succeeded n = true → t.succeeded n = true)
    (event : t.startupEvent = (s.startupEvent || rang))
    (signals : t.signals = if rang then s.signals + 1 else s.signals)
    (finished : Finished s n → Finished t n)
    (tells : ∀ k event, (s.calls k).waits = true →
      (s.points n).Tells (s.facts n event) → p.Tells (t.facts n (event || rang))) : Honest t := by
  obtain ⟨rfl, _⟩ := sound.of_alive alive
  have waited {k m event} (waiting : (s.calls k).waits = true) (waits : Waited s m event) :
      Waited t m (event || rang) := by
    obtain ⟨rfl, told⟩ := waits
    refine ⟨sessions.symm, ?_⟩
    rw [points, Function.update_self]
    exact tells k event waiting told
  constructor
  · rw [calls]
    exact honest.alone
  · intro m later
    rw [sessions] at later
    exact (older m (Nat.ne_of_gt later)).trans (honest.fresh m later)
  · intro k
    rw [calls]
    have was := honest.calls k
    cases here : s.calls k with
    | starting p' selection =>
      have stage := sound.stage k p' selection here
      cases p' <;> rw [stage] at alive <;> contradiction
    | awaiting m since =>
      rw [here] at was
      obtain ⟨waits, since_le, unseen⟩ := was
      have later : decide (since < t.signals) = (decide (since < s.signals) || rang) := by
        rw [signals]
        cases rang
        · simp
        · simpa using Nat.lt_succ_of_le since_le
      refine ⟨later ▸ waited (k := k) (by rw [here]; rfl) waits, ?_, fun set => ?_⟩
      · rw [signals]
        split
        · exact Nat.le_succ_of_le since_le
        · exact since_le
      · apply of_decide_eq_true
        rw [later]
        rw [event] at set
        rcases Bool.or_eq_true _ _ ▸ set with before | now
        · simp [unseen before]
        · simp [now]
    | signalled m =>
      rw [here] at was
      have after : Waited t m (true || rang) := waited (k := k) (by rw [here]; rfl) was
      exact after
    | _ =>
      rw [here] at was
      apply was.of_settled (by simp) rfl
      · intro m held
        by_cases same : m = s.sessions
        · subst same
          exact succeeded held
        · rw [older m same]
          exact held
      · intro m ended
        by_cases same : m = s.sessions
        · subst same
          exact finished ended
        · exact ended.of_eq (by rw [points, Function.update_of_ne same]) sessions.ge (older m same)

theorem finished_lives (finished : Finished s n) (lives : Lives config s n act out t) : Finished t n := by
  have spent := finished.spent
  have ends {u : State} {p : Point} (sessions : u.sessions = s.sessions)
      (succeeded : u.succeeded = s.succeeded) (spent : p.spent = true) : Finished (u.point n p) n := by
    refine ⟨finished.known.trans sessions.ge, (congrFun succeeded n).trans finished.failed, ?_⟩
    simpa only [State.point, Function.update_self] using spent
  cases lives with
  | loops point | enters point | makesStop point | makesRecover point | checks point | tells point
  | told point | breaks point =>
    rw [point] at spent
    contradiction
  | returns _ _ | closes _ | unloops _ | dies _ => exact ends rfl rfl rfl
  | fails tried => cases point : s.points n <;> simp_all [Point.tried, Point.spent]
  | @heeds c later sup queued point =>
    rw [point] at spent
    refine ends rfl rfl (decide_eq_true ?_)
    exact (heed_keeps n sup c).1.trans (of_decide_eq_true spent)
  | drops _ _ => exact ⟨finished.known, finished.failed, spent⟩
  | @supervises sup _ _ sup' point _ stepped =>
    rw [point] at spent
    obtain ⟨rfl, returned⟩ := Supervisor.returned_step stepped (of_decide_eq_true spent)
    exact ends rfl rfl (decide_eq_true returned)

/-- The output of a supervisor that sets the startup event. -/
def rings : Output → Bool
  | .startupEvent => true
  | _ => false

theorem shown_startup (s : State) (n : Nat) (firstStart : Bool) (out : Output) :
    (∀ m ≠ n, (s.shown n firstStart out).succeeded m = s.succeeded m) ∧
      (s.succeeded n = true → (s.shown n firstStart out).succeeded n = true) ∧
      (s.shown n firstStart out).startupEvent = (s.startupEvent || rings out) ∧
      (s.shown n firstStart out).signals = (if rings out then s.signals + 1 else s.signals) ∧
      ∀ event, (s.shown n firstStart out).facts n (event || rings out) =
        (s.facts n event).after firstStart out := by
  cases out with
  | startReturned =>
    refine ⟨fun m other => Function.update_of_ne other .., fun held => ?_, ?_, rfl, fun event => ?_⟩ <;>
      simp_all [State.shown, State.facts, Facts.after, rings]
  | _ => simp [State.shown, State.setStartupEvent, State.facts, Facts.after, rings]

theorem honest_lives (sound : Sound s) (honest : Honest s) (truthful : Truthful s (.runtime n act, out))
    (lives : Lives config s n act out t) : Honest t := by
  have finished : Finished s n → Finished t n := fun finished => finished_lives finished lives
  have unchanged : ∀ event, (event || false) = event := Bool.or_false
  cases lives with
  | loops point | enters point | makesStop point | makesRecover point | closes point | unloops point
  | dies point =>
    refine honest.of_runtime sound (by rw [point]; rfl) false rfl rfl rfl (fun _ _ => rfl) id
      (Bool.or_false _).symm rfl finished fun _ event _ told => ?_
    rw [point] at told
    rw [unchanged]
    exact told
  | checks point =>
    refine honest.of_runtime sound (by rw [point]; rfl) false rfl rfl rfl (fun _ _ => rfl) id
      (Bool.or_false _).symm rfl finished fun _ event _ told => ?_
    rw [point] at told
    rw [unchanged]
    exact congrArg some (Eq.symm told)
  | returns point _ | breaks point =>
    refine honest.of_runtime sound (by rw [point]; rfl) false rfl rfl rfl (fun _ _ => rfl) id
      (Bool.or_false _).symm rfl finished fun _ event _ told => ?_
    rw [unchanged]
    exact fun set => (told.agree set).1
  | @tells text point =>
    refine honest.of_runtime sound (by rw [point]; rfl) false rfl rfl rfl (fun _ _ => rfl) id
      (Bool.or_false _).symm rfl finished fun k event waits told => ?_
    rw [point] at told
    obtain ⟨spoken, failed⟩ := truthful text point k waits
    have untold : event = false := told.1 failed
    simp [Point.Tells, State.facts, State.point, failed, untold, spoken]
  | told point =>
    refine honest.of_runtime sound (by rw [point]; rfl) true rfl rfl rfl (fun _ _ => rfl) id
      (Bool.or_true _).symm rfl finished fun _ _ _ told _ => ?_
    rw [point] at told
    simp only [Point.Tells, State.facts, Facts.mk.injEq] at told
    exact told.1.trans told.2.1.symm
  | fails tried =>
    have alive : (s.points n).alive = true := by
      cases point : s.points n <;> simp_all [Point.tried, Point.alive]
    refine honest.of_runtime sound alive false rfl rfl rfl (fun _ _ => rfl) id (Bool.or_false _).symm rfl
      finished fun _ event _ told => ?_
    rw [unchanged]
    refine ⟨fun failed => ?_, fun set => (told.agree set).1⟩
    cases point : s.points n with
    | entered | stopMade | made =>
      rw [point] at told
      exact congrArg Facts.event told
    | supervising sup =>
      rw [point] at told tried
      exact Supervisor.factsAt_untold told (of_decide_eq_true tried) failed
    | _ => rw [point] at tried; contradiction
  | @heeds c later sup queued point =>
    refine honest.of_runtime sound (by rw [point]; rfl) false rfl rfl rfl (fun _ _ => rfl) id
      (Bool.or_false _).symm rfl finished fun _ event _ told => ?_
    rw [point] at told
    rw [unchanged]
    obtain ⟨phase, first, _⟩ := heed_keeps n sup c
    refine Told.quiet told first ?_
    rw [phase]
  | drops _ point =>
    refine honest.of_runtime (p := s.points n) sound ?_ false (Function.update_eq_self ..).symm rfl rfl
      (fun _ _ => rfl) id (Bool.or_false _).symm rfl finished fun _ event _ told => ?_
    · rcases point with entered | closing
      · rw [entered]; rfl
      · rw [closing]; rfl
    · rw [unchanged]
      exact told
  | @supervises sup e _ sup' point own stepped =>
    have beside := shown_beside s n sup'.counter sup.firstStart out
    obtain ⟨older, succeeded, event, signals, facts⟩ :=
      shown_startup { s with counter := sup'.counter } n sup.firstStart out
    refine honest.of_runtime sound (by rw [point]; rfl) (rings out) (beside.point n _) beside.sessions
      beside.calls older succeeded event signals finished fun k set waits told => ?_
    rw [point] at told
    rw [show (State.point _ n _).facts n _ = _ from facts set]
    refine Supervisor.told_step told stepped fun text shown => ?_
    subst shown
    exact truthful k waits

theorem honest_moves (sound : Sound s) (honest : Honest s) (truthful : Truthful s l)
    (moved : moves config s l t) : Honest t := by
  rcases moves_cases moved with ⟨k, request, rfl, _, entered⟩ | ⟨k, answer, rfl, called⟩ |
    ⟨n, act, out, rfl, lives⟩
  · exact honest_enter honest entered
  · exact honest_callNext sound honest truthful called
  · exact honest_lives sound honest truthful lives

theorem honest_run (run : Run (guarded (moves config) Truthful) init past s) : Honest s := by
  apply run.invariant_under fun earlier => sound_run earlier.unguarded
  · constructor <;> simp [init, Call.waits, Call.Honest]
  · intro s l t sound honest moved
    exact honest_moves sound honest moved.1 moved.2

/-- `start` has read the outcome of its session as a failure and raises. -/
def Call.failedStart (n : Nat) : Call → Bool
  | stopping (.failed session) _ | stopped (.failed session) _ => session = n
  | _ => false

/-- When the outcome of the session is told, `start` returns if the first
`_start_generation` succeeded and raises if it did not and never will. -/
theorem start_truthful (run : Run (guarded (moves config) Truthful) init past s) :
    (∀ k n answer out t, s.calls k = .signalled n → moves config s (.goesOn k answer, out) t →
      t.calls k = if s.succeeded n then .started n else .stopping (.failed n) .flagging) ∧
    (∀ k n, s.calls k = .started n → s.succeeded n = true) ∧
    ∀ k n, (s.calls k).failedStart n = true → s.succeeded n = false := by
  have honest := (honest_run run).calls
  refine ⟨fun k n answer out t signalled moved => ?_, fun k n started => ?_, fun k n failed => ?_⟩
  · have was := honest k
    rw [signalled] at was
    obtain ⟨agree, _⟩ := was.tells.agree rfl
    rw [show s.succeeded n = (s.startupError.getD []).isEmpty from agree]
    obtain ⟨_, called, made⟩ := Option.map_eq_some_iff.mp moved
    cases made
    rw [signalled] at called
    simp only [callNext] at called
    split at called
    case isTrue silent =>
      cases Option.some.inj called
      rw [if_pos silent]
      exact Function.update_self ..
    case isFalse spoken =>
      cases Option.some.inj called
      rw [if_neg spoken]
      exact Function.update_self ..
  · have was := honest k
    rw [started] at was
    exact was
  · have was := honest k
    cases call : s.calls k with
    | stopping why p | stopped why result =>
      rw [call] at was failed
      cases why with
      | failed session =>
        cases of_decide_eq_true failed
        exact was.failed
      | _ => contradiction
    | _ => rw [call] at failed; contradiction

/-- The startup error stays as it is. -/
def plain (s : State) : Event × Output → Bool
  | (.goesOn k _, _) => match s.calls k with
    | .starting .eventCleared _ => false
    | _ => true
  | (.runtime n .onward, _) => match s.points n with
    | .failing _ => false
    | _ => true
  | (_, .startupError _) => false
  | _ => true

theorem truthful_of_plain (calm : plain s l = true) : Truthful s l := by
  obtain ⟨event, out⟩ := l
  cases event with
  | enters => trivial
  | goesOn k answer =>
    intro selection here
    simp only [plain, here] at calm
    contradiction
  | runtime n act =>
    cases act with
    | onward =>
      intro text point
      simp only [plain, point] at calm
      contradiction
    | supervises e => cases out <;> first | contradiction | trivial
    | _ => trivial

theorem healthy_start_returns : ∃ past s, Run (guarded (moves {}) Truthful) init past s ∧
    s.calls 0 = .started 1 ∧ s.succeeded 1 = true := by
  obtain ⟨past₁, s₁, s₂, past, s, entered, none_wait, cleared, executed, started⟩ : ∃ past₁ s₁ s₂ past s,
      execute (fun s e => (step {} s e).filter fun r => plain s (e, r.1)) (fun _ event out => (event, out))
        init ((entering []).take 3) = some (past₁, s₁) ∧
      (∀ k, (s₁.calls k).waits = false) ∧ step {} s₁ (.goesOn 0 true) = some (.quiet, s₂) ∧
      execute (fun s e => (step {} s e).filter fun r => plain s (e, r.1)) (fun _ event out => (event, out))
        s₂ ((entering []).drop 4 ++ healthyStart Interfaces.auto ++ List.replicate 2 (.goesOn 0 true)) =
          some (past, s) ∧
      s.calls 0 = .started 1 := ⟨_, _, _, _, _, rfl, by rintro (_ | k) <;> rfl, rfl, rfl, rfl⟩
  have calm {s past t} (run : Run (guarded (moves {}) (plain · ·)) s past t) :
      Run (guarded (moves {}) Truthful) s past t :=
    run.mono fun stepped => ⟨truthful_of_plain stepped.1, stepped.2⟩
  have first : Run (guarded (moves {}) Truthful) init past₁ s₁ := calm (Run.of_outputs_guarded entered)
  have next : Run (guarded (moves {}) Truthful) init ((.goesOn 0 true, .quiet) :: past₁) s₂ :=
    .next first ⟨fun _ _ => none_wait, cleared⟩
  have run := next.trans (calm (Run.of_outputs_guarded executed))
  exact ⟨_, s, run, started, (start_truthful run).2.1 0 1 started⟩

/-- The first generation fails with an empty text. -/
def silentFailure : List Event :=
  entering [] ++ List.replicate 3 (.runtime 1 .onward) ++ supervised [.done, .raised [], .done, .done] ++
    List.replicate 2 (.goesOn 0 true)

/-- A stop cancels the session of call 0; the event wakes it, but call 2
starts the next session before it reads the error. -/
def startBetween : List Event :=
  entering [] ++ [.enters 1 .stop, .goesOn 1 true] ++ List.replicate 3 (.runtime 1 .onward) ++
    supervised [.done, .done, .done] ++ List.replicate 4 (.runtime 1 .onward) ++
    .enters 2 (.start []) :: List.replicate 3 (.goesOn 2 true) ++ List.replicate 2 (.goesOn 0 true)

/-- The runtime thread fails after the first generation has come up. -/
def lateFailure : List Event :=
  entering [] ++ healthyStart Interfaces.auto ++
    [.runtime 1 (.raises "cannot join thread".toList), .runtime 1 .onward] ++
    List.replicate 2 (.goesOn 0 true)

theorem run_through {events : List Event} {P : State → Prop}
    (ends : ∃ past s, execute (step {}) (fun _ event out => (event, out)) init events = some (past, s) ∧
      past.reverse.map Prod.fst = events ∧ P s) :
    ∃ past s, Run (moves {}) init past s ∧ past.reverse.map Prod.fst = events ∧ P s := by
  obtain ⟨past, s, executed, rest⟩ := ends
  exact ⟨past, s, Run.of_outputs executed, rest⟩

/-- Each part of the condition is needed: `start` returns after a failure with
an empty text and when another one clears the error, and raises after a
success when the thread fails before it looks. -/
theorem outcome_misread :
    (∃ past s, Run (moves {}) init past s ∧ past.reverse.map Prod.fst = silentFailure ∧
      s.calls 0 = .started 1 ∧ s.succeeded 1 = false) ∧
    (∃ past s, Run (moves {}) init past s ∧ past.reverse.map Prod.fst = startBetween ∧
      s.calls 0 = .started 1 ∧ s.succeeded 1 = false) ∧
    ∃ past s, Run (moves {}) init past s ∧ past.reverse.map Prod.fst = lateFailure ∧
      (s.calls 0).failedStart 1 = true ∧ s.succeeded 1 = true :=
  ⟨run_through ⟨_, _, rfl, rfl, rfl, rfl⟩, run_through ⟨_, _, rfl, rfl, rfl, rfl⟩,
    run_through ⟨_, _, rfl, rfl, rfl, rfl⟩⟩

end HttpSocksProxy.Lifecycle
