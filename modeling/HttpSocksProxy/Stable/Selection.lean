import HttpSocksProxy.Stable.StopRequests

/-! A change of the outbound selection reaches the running generation: either
it was resolved with the newest selection, or a recovery is due. -/
namespace HttpSocksProxy.Supervisor
open Transition

/-- The selection that the outbound interface of the generation in hand was
resolved with, until the generation is given up. -/
def Phase.route : Phase → Option Str
  | resolvingOutbound selection | constructing selection => some selection
  | opening g _ | healthy g | announcing g _ | waiting g _ => some g.selection
  | _ => none

theorem beforeRoute_route {phase : Phase} (before : phase.beforeRoute = true) : phase.route = none := by
  cases phase <;> simp_all [Phase.beforeRoute, Phase.route]

theorem startRaised_route (raised : startRaised s e = (out, t)) : t.phase.route = none := by
  obtain ⟨_, _, _, _, phase⟩ := startRaised_keeps raised
  rw [phase]
  split <;> rfl

/-- A route is the one the supervisor reads now, or it had it before and keeps
a recovery request that was set. -/
theorem goes_route (goes : Goes config s o out t) (routed : t.phase.route = some selection) :
    o = .selected selection ∨
      s.phase.route = some selection ∧ (s.recoverAsync = true → t.recoverAsync = true) := by
  cases goes with
  | routes _ =>
    cases Option.some.inj routed
    exact .inl rfl
  | looks _ after =>
    rw [beforeRoute_route after] at routed
    contradiction
  | raises _ raised | undone _ _ raised =>
    rw [startRaised_route raised] at routed
    contradiction
  | resolves phase | constructs phase | first phase _ | again phase _ | announces phase =>
    refine .inr ⟨?_, id⟩
    rw [phase]
    exact routed
  | opens phase moved =>
    obtain ⟨_, recover, _, opened⟩ := openNext_keeps moved
    refine .inr ⟨?_, fun set => recover.trans set⟩
    rw [phase]
    rcases opened with ⟨_, _, same, next, _⟩ | ⟨_, _, _, next, _⟩ | ⟨next, _⟩
    · rw [next] at routed
      exact (congrArg some same).symm.trans routed
    · rw [next] at routed
      contradiction
    · rw [next] at routed
      exact routed
  | @changes _ _ c _ _ ended =>
    cases c <;> simp only [changed, Option.ite_none_right_eq_some, Option.some.injEq] at ended <;>
      obtain ⟨_, rfl⟩ := ended <;> contradiction
  | cleaned _ _ =>
    dsimp only at routed
    split at routed <;> contradiction
  | @settles since now _ =>
    obtain ⟨_, _, _, left | ⟨_, _, waits⟩⟩ := settle_keeps config s since now
    · rw [left] at routed; contradiction
    · rw [waits] at routed; contradiction
  | _ => contradiction

theorem step_route (stepped : step config s e = some (out, t)) (routed : t.phase.route = some selection) :
    e = .goesOn (.selected selection) ∨
      s.phase.route = some selection ∧ (s.recoverAsync = true → t.recoverAsync = true) := by
  cases e with
  | stopSet =>
    cases Option.some.inj stepped
    exact .inr ⟨routed, id⟩
  | recoverSet =>
    cases Option.some.inj stepped
    exact .inr ⟨routed, fun _ => rfl⟩
  | gone p =>
    simp only [step, Option.ite_none_right_eq_some, Option.some.injEq, Prod.mk.injEq] at stepped
    obtain ⟨_, _, rfl⟩ := stepped
    exact .inr ⟨routed, id⟩
  | goesOn o =>
    rcases goes_route (goOn_goes stepped) routed with rfl | kept
    · exact .inl rfl
    · exact .inr kept

end HttpSocksProxy.Supervisor

namespace HttpSocksProxy.Lifecycle
open Transition
open Supervisor (Config Output)

/-- Such a `recover` will reach the supervisor of the session, as far as it
has read the references. -/
def RecoverPoint.Serves (n : Nat) : RecoverPoint → Prop
  | loopRead loop => loop = n
  | eventRead loop event => loop = n ∧ event = n
  | _ => True

def Call.Serves (n : Nat) : Call → Prop
  | updated changed recoverIfRunning => changed = true ∧ recoverIfRunning = true
  | recovering p => p.Serves n
  | _ => False

/-- A supervisor that is past its read has read the newest selection, or will
be told to recover. -/
def Routed (s : State) : Prop :=
  ∀ n sup selection, s.points n = .supervising sup → sup.phase.route = some selection →
    selection = s.outboundSelection ∨ sup.recoverAsync = true ∨ .setRecover n ∈ s.callbacks n ∨
      ∃ k, (s.calls k).Serves n

/-- Every call of `set_outbound_selection` asks for a recovery. -/
def recovers (_ : State) : Event × Output → Bool
  | (.enters _ (.setOutboundSelection _ false), _) => false
  | _ => true

/-- A call goes on and serves a running supervisor as before, or has queued
its request. -/
theorem Routed.of_aside (routed : Routed s) (aside : Aside s k t)
    (selection : t.outboundSelection = s.outboundSelection)
    (serves : ∀ n sup, s.points n = .supervising sup → (s.calls k).Serves n →
      (t.calls k).Serves n ∨ .setRecover n ∈ t.callbacks n) : Routed t := by
  intro n sup route point routed_at
  rw [aside.points] at point
  rw [selection]
  rcases routed n sup route point routed_at with same | set | queued | ⟨k', serving⟩
  · exact .inl same
  · exact .inr (.inl set)
  · exact .inr (.inr (.inl (aside.callbacks n queued)))
  · by_cases same : k' = k
    · subst same
      rcases serves n sup point serving with later | queued
      · exact .inr (.inr (.inr ⟨k', later⟩))
      · exact .inr (.inr (.inl queued))
    · exact .inr (.inr (.inr ⟨k', (aside.others k' same).symm ▸ serving⟩))

theorem routed_enter (routed : Routed s) (idle : s.calls k = .idle)
    (asks : ∀ selection, request ≠ .setOutboundSelection selection false)
    (moved : enter s k request = some t) : Routed t := by
  have aside := aside_enter moved
  have idle_serves : ∀ n sup, s.points n = .supervising sup → (s.calls k).Serves n →
      (t.calls k).Serves n ∨ .setRecover n ∈ t.callbacks n := by
    intro n _ _ serving
    rw [idle] at serving
    contradiction
  cases request with
  | start selection =>
    refine routed.of_aside aside ?_ idle_serves
    simp only [enter] at moved
    split at moved
    · contradiction
    · split at moved <;> cases Option.some.inj moved <;> rfl
  | stop | recover =>
    cases Option.some.inj moved
    exact routed.of_aside aside rfl idle_serves
  | setOutboundSelection selection recoverIfRunning =>
    have asked : recoverIfRunning = true := by
      rw [← Bool.not_eq_false]
      rintro rfl
      exact asks selection rfl
    simp only [enter] at moved
    split at moved
    · contradiction
    · cases Option.some.inj moved
      by_cases same : orAuto selection = s.outboundSelection
      · exact routed.of_aside aside same idle_serves
      · intro n sup _ _ _
        refine .inr (.inr (.inr ⟨k, ?_⟩))
        simp only [State.call, Function.update_self]
        exact ⟨decide_eq_true same, asked⟩

/-- While `start` is under the lock no supervisor runs. -/
theorem routed_startNext (sound : Sound s) (here : s.calls k = .starting p selection) :
    Routed (startNext s k selection p) := by
  intro n sup _ point
  have sound' := sound_startNext sound here
  have newest := (sound'.of_alive (by rw [point]; rfl)).1
  subst newest
  cases p with
  | flagCleared | made => simp [startNext, State.call, State.point] at point
  | _ =>
    have stage := sound'.stage k _ selection (Function.update_self ..)
    rw [stage] at point
    contradiction

theorem routed_recoverNext (sound : Sound s) (routed : Routed s) (here : s.calls k = .recovering p) :
    Routed (recoverNext s k p) := by
  have aside := (recoverNext_keeps s k p).1
  have owns_at {n : Nat} {sup : Supervisor.State} (point : s.points n = .supervising sup) :
      s.loop = some n ∧ s.recoverAsync = some n ∧ s.running = true := by
    have alive : (s.points n).alive = true := by rw [point]; rfl
    obtain ⟨loop, _, recover⟩ := sound.owns_at alive point
    exact ⟨loop, recover, by rw [State.running, (sound.of_alive alive).2]; exact alive⟩
  have on {c : Call} (serves : ∀ n sup, s.points n = .supervising sup → p.Serves n → c.Serves n) :
      Routed (s.call k c) := by
    refine routed.of_aside ((Aside.refl s k).call c) rfl fun n sup point serving => .inl ?_
    rw [here] at serving
    simp only [State.call, Function.update_self]
    exact serves n sup point serving
  cases p with
  | checking | runningSeen | loopSeen =>
    refine on fun n sup point _ => ?_
    obtain ⟨loop, recover, running⟩ := owns_at point
    simp only [loop, recover, running, Option.isSome_some, ite_true]
    trivial
  | eventSeen =>
    refine on fun n sup point _ => ?_
    rw [(owns_at point).1]
    rfl
  | loopRead loop =>
    refine on fun n sup point same => ?_
    rw [(owns_at point).2.1]
    exact ⟨same, rfl⟩
  | eventRead loop event =>
    refine routed.of_aside aside (by simp only [recoverNext]; split <;> rfl) ?_
    intro n sup point serving
    rw [here] at serving
    obtain ⟨rfl, rfl⟩ := serving
    have running : ¬ (s.points event).loopClosed = true := by
      rw [point]
      exact Bool.false_ne_true
    simp only [recoverNext]
    rw [if_neg running]
    exact .inr (mem_callSoon_self ..)

theorem routed_callNext (sound : Sound s) (routed : Routed s)
    (moved : callNext s k answer (s.calls k) = some t) : Routed t := by
  cases here : s.calls k with
  | starting p selection =>
    rw [here] at moved
    cases Option.some.inj moved
    exact routed_startNext sound here
  | recovering p =>
    rw [here] at moved
    cases Option.some.inj moved
    exact routed_recoverNext sound routed here
  | updated changed recoverIfRunning =>
    have aside := aside_callNext (by simp [here]) moved
    rw [here] at moved
    cases Option.some.inj moved
    refine routed.of_aside aside rfl fun n sup point serving => .inl ?_
    rw [here] at serving
    obtain ⟨rfl, rfl⟩ := serving
    have alive : (s.points n).alive = true := by rw [point]; rfl
    have running : s.running = true := by rw [State.running, (sound.of_alive alive).2]; exact alive
    simp only [State.call, Function.update_self, running]
    trivial
  | stopping why p =>
    have aside := aside_callNext (by simp [here]) moved
    rw [here] at moved
    refine routed.of_aside aside (stopNext_keeps moved).2.1 fun n sup point serving => ?_
    rw [here] at serving
    contradiction
  | awaiting session since =>
    have aside := aside_callNext (by simp [here]) moved
    rw [here] at moved
    refine routed.of_aside aside ?_ fun n sup point serving => ?_
    · simp only [callNext] at moved
      split at moved
      · split at moved
        · cases Option.some.inj moved; rfl
        · contradiction
      · cases Option.some.inj moved; rfl
    · rw [here] at serving
      contradiction
  | signalled session =>
    have aside := aside_callNext (by simp [here]) moved
    rw [here] at moved
    refine routed.of_aside aside ?_ fun n sup point serving => ?_
    · simp only [callNext] at moved
      split at moved <;> cases Option.some.inj moved <;> rfl
    · rw [here] at serving
      contradiction
  | _ => rw [here] at moved; contradiction

theorem heed_setRecover (sup : Supervisor.State) (n : Nat) :
    (heed n sup (.setRecover n)).recoverAsync = true := by
  simp [heed]

/-- The runtime thread of the only session that can have a supervisor goes on. -/
theorem routed_of_runtime (sound : Sound s) (alive : (s.points n).alive = true)
    (points : t.points = Function.update s.points n p)
    (selection : t.outboundSelection = s.outboundSelection) (calls : t.calls = s.calls)
    (next : ∀ sup' route, p = .supervising sup' → sup'.phase.route = some route →
      route = s.outboundSelection ∨ sup'.recoverAsync = true ∨ .setRecover n ∈ t.callbacks n ∨
        ∃ k, (s.calls k).Serves n) : Routed t := by
  intro m sup' route point routed_at
  rw [points] at point
  rw [selection, calls]
  by_cases same : m = n
  · subst same
    rw [Function.update_self] at point
    exact next sup' route point routed_at
  · rw [Function.update_of_ne same] at point
    have newest := (sound.of_alive (n := m) (by rw [point]; rfl)).1
    exact absurd (newest.trans (sound.of_alive alive).1.symm) same

theorem routed_lives (sound : Sound s) (routed : Routed s) (lives : Lives config s n act out t) :
    Routed t := by
  cases lives with
  | loops point | enters point | makesStop point | makesRecover point | returns point _ | tells point
  | told point | closes point | unloops point | dies point | breaks point =>
    exact routed_of_runtime sound (by rw [point]; rfl) rfl rfl rfl (by simp)
  | fails tried =>
    refine routed_of_runtime sound ?_ rfl rfl rfl (by simp)
    cases point : s.points n <;> simp_all [Point.tried, Point.alive]
  | checks point =>
    refine routed_of_runtime sound (by rw [point]; rfl) rfl rfl rfl ?_
    intro sup' route made at_head
    cases made
    contradiction
  | @heeds c later sup queued point =>
    obtain ⟨phase, _, _, set_before⟩ := heed_keeps n sup c
    refine routed_of_runtime sound (by rw [point]; rfl) rfl rfl rfl ?_
    intro sup' route made routed_at
    cases made
    rw [phase] at routed_at
    rcases routed n sup route point routed_at with same | set | waiting | serving
    · exact .inl same
    · exact .inr (.inl (set_before set))
    · rw [queued] at waiting
      rcases List.mem_cons.mp waiting with first | rest
      · subst first
        exact .inr (.inl (heed_setRecover sup n))
      · simp only [State.point, Function.update_self]
        exact .inr (.inr (.inl rest))
    · exact .inr (.inr (.inr serving))
  | @drops c later queued point =>
    intro m sup route supervising routed_at
    have other : m ≠ n := by
      rintro rfl
      rcases point with entered | closing
      · exact absurd (entered.symm.trans supervising) (by simp)
      · exact absurd (closing.symm.trans supervising) (by simp)
    simp only [Function.update_of_ne other]
    exact routed m sup route supervising routed_at
  | @supervises sup e _ sup' point own stepped =>
    have beside := shown_beside s n sup'.counter sup.firstStart out
    refine routed_of_runtime sound (by rw [point]; rfl) (beside.point n _) beside.outboundSelection
      beside.calls ?_
    intro _ route made routed_at
    cases made
    rcases Supervisor.step_route stepped routed_at with rfl | ⟨before, kept⟩
    · exact .inl (beq_iff_eq.mp own)
    · simp only [State.point, beside.callbacks]
      exact (routed n sup route point before).imp_right (Or.imp_left kept)

theorem routed_moves (sound : Sound s) (routed : Routed s) (asks : recovers s l = true)
    (moved : moves config s l t) : Routed t := by
  rcases moves_cases moved with ⟨k, request, rfl, idle, entered⟩ | ⟨k, answer, rfl, called⟩ |
    ⟨n, act, out, rfl, lives⟩
  · refine routed_enter routed idle (fun selection same => ?_) entered
    subst same
    contradiction
  · exact routed_callNext sound routed called
  · exact routed_lives sound routed lives

theorem routed_run (run : Run (guarded (moves config) (recovers · ·)) init past s) : Routed s := by
  apply run.invariant_under fun earlier => sound_run earlier.unguarded
  · intro n sup _ point
    simp only [init] at point
    split at point <;> contradiction
  · intro s l t sound routed moved
    exact routed_moves sound routed moved.1 moved.2

/-- A call that may still ask the supervisor to recover. -/
def Call.unsettled : Call → Bool
  | updated changed recoverIfRunning => changed && recoverIfRunning
  | recovering _ => true
  | _ => false

/-- While the supervisor waits for a change with no recovery requested or on
its way, the running generation was resolved with the newest selection. -/
theorem selection_not_lost (run : Run (guarded (moves config) (recovers · ·)) init past s)
    (point : s.points n = .supervising sup) (waits : sup.phase = .waiting g since)
    (unset : sup.recoverAsync = false) (unqueued : .setRecover n ∉ s.callbacks n)
    (settled : ∀ k, (s.calls k).unsettled = false) : g.selection = s.outboundSelection := by
  rcases routed_run run n sup g.selection point (by rw [waits]; rfl) with same | set | queued | serving
  · exact same
  · rw [unset] at set
    contradiction
  · exact absurd queued unqueued
  · obtain ⟨k, serves⟩ := serving
    have settled := settled k
    cases call : s.calls k with
    | updated changed recoverIfRunning =>
      rw [call] at serves settled
      obtain ⟨rfl, rfl⟩ := serves
      contradiction
    | recovering p => rw [call] at settled; contradiction
    | _ => rw [call] at serves; contradiction

def supervised (outcomes : List Supervisor.Outcome) : List Event :=
  outcomes.map fun o => .runtime 1 (.supervises (.goesOn o))

/-- The first generation of session 1 becomes healthy. -/
def healthyStart (selection : Str) : List Event :=
  List.replicate 3 (.runtime 1 .onward) ++ supervised [.done, .done, .done, .selected selection, .done, .done,
    .done, .done, .done, .done, .done, .done, .time 0, .done]

/-- Call 1 changes the selection before the session has made its events, and
raises; the generation is resolved with the change all the same. -/
theorem early_selection_used : ∃ past s sup g since,
    Run (guarded (moves {}) (recovers · ·)) init past s ∧ s.points 1 = .supervising sup ∧
      sup.phase = .waiting g since ∧ s.calls 1 = .ended none ∧ g.selection = s.outboundSelection := by
  obtain ⟨past, s, sup, g, since, executed, point, waits, raised, unset, unqueued, settled⟩ :
      ∃ past s sup g since, execute (fun s e => (step {} s e).filter fun r => recovers s (e, r.1))
          (fun _ event out => (event, out)) init (entering [] ++
            .enters 1 (.setOutboundSelection "pdp_ip0".toList true) :: List.replicate 4 (.goesOn 1 true) ++
            healthyStart "pdp_ip0".toList) = some (past, s) ∧
        s.points 1 = .supervising sup ∧ sup.phase = .waiting g since ∧ s.calls 1 = .ended none ∧
        sup.recoverAsync = false ∧ s.callbacks 1 = [] ∧
        ∀ k, s.calls k = if k = 1 then .ended none else if k = 0 then .awaiting 1 0 else .idle :=
    ⟨_, _, _, _, _, rfl, rfl, rfl, rfl, rfl, rfl, by rintro (_ | _ | k) <;> rfl⟩
  have run : Run (guarded (moves {}) (recovers · ·)) init past s := Run.of_outputs_guarded executed
  refine ⟨past, s, sup, g, since, run, point, waits, raised, ?_⟩
  apply selection_not_lost run point waits unset (by simp [unqueued])
  intro k
  rw [settled k]
  split
  · rfl
  · split <;> rfl

end HttpSocksProxy.Lifecycle
