import HttpSocksProxy.Server.Admission
import HttpSocksProxy.Stable.Health

/-! `_health_monitor` together with the SOCKS server it probes, one event for
each stretch between two awaits. Clients come and go, and tasks and sockets
change, between any two of its steps. -/
namespace HttpSocksProxy.Saturation
open Transition Health Admission

/-- What `_listener_structural_health` looks at in a generation. -/
structure Generation where
  socksListening : Bool
  socksRunning : Bool
  httpListening : Bool
  httpRunning : Bool
  wpadSocketOpen : Bool
  wpadThreadAlive : Bool
  deriving DecidableEq, Repr

def listenerStructuralHealth (g : Generation) : Listener → Bool
  | .socks => g.socksListening && g.socksRunning
  | .http => g.httpListening && g.httpRunning
  | .wpad => g.wpadSocketOpen && g.wpadThreadAlive

/-- An ended probe. `full` is an observation of the model: whether the SOCKS
server was at its connection limit at that moment. -/
structure Ended where
  probe : Probe
  full : Bool
  deriving DecidableEq, Repr

abbrev Pending := Listener → Option Ended

/-- `asyncio.gather` returns when the three probes have ended. -/
def gather (probes : Pending) : Option (Listener → Ended) :=
  match probes .socks, probes .http, probes .wpad with
  | some socks, some http, some wpad => some fun
    | .socks => socks
    | .http => http
    | .wpad => wpad
  | _, _, _ => none

def detailedOf (ended : Listener → Ended) : Detailed := fun l => (ended l).probe

/-- Where `_health_monitor` stands. A monitor that raised keeps the last
confirmation attempt and the structural health it was judged by. -/
inductive Phase where
  | sleeping (w : Watch)
  | probing (w : Watch) (probes : Pending)
  | confirming (counted : Watch) (attempt : Nat) (probes : Pending)
  | delaying (counted : Watch) (attempt : Nat)
  | raised (reason : Str) (last : Listener → Ended) (structural : Listener → Bool)

structure System where
  socks : Server
  generation : Generation
  phase : Phase

inductive Event where
  | client (e : Admission.Event)
  | changed (g : Generation)
  | woke (backgrounded : Bool)
  | delayed
  | probed (l : Listener) (p : Probe)
  | gathered

def init (maxClientConnections : Nat) (g : Generation) : System :=
  ⟨Admission.init maxClientConnections, g, .sleeping {}⟩

/-- The override of a failed SOCKS probe at the connection limit. -/
def saturationOverride (s : System) (detailed : Detailed) : Detailed :=
  if !(detailed .socks).okay && connectionLimitReached s.socks &&
      listenerStructuralHealth s.generation .socks then
    Function.update detailed .socks ⟨true, "connection capacity reached".toList⟩
  else detailed

def afterProbes (config : Config) (s : System) (w : Watch) (ended : Listener → Ended) : Phase :=
  if allOkay (saturationOverride s (detailedOf ended)) then .sleeping {}
  else if reached config (w.failures + 1) then .confirming ⟨w.failures + 1, true⟩ 0 fun _ => none
  else .sleeping ⟨w.failures + 1, true⟩

def afterAttempt (config : Config) (s : System) (counted : Watch) (attempt : Nat)
    (ended : Listener → Ended) : Phase :=
  let structural := listenerStructuralHealth s.generation
  if !allOkay (detailedOf ended) && attempt + 1 < config.attempts then .delaying counted (attempt + 1)
  else match judge structural (detailedOf ended) with
    | .recovery reason => .raised reason ended structural
    | .recovered | .degraded => .sleeping {}

def Pending.record (probes : Pending) (s : System) (l : Listener) (p : Probe) : Option Pending :=
  if probes l = none then
    some (Function.update probes l (some ⟨p, connectionLimitReached s.socks⟩))
  else none

def stepPhase (config : Config) (s : System) : Event → Option Phase
  | .client _ | .changed _ => some s.phase
  | .woke backgrounded =>
    match s.phase with
    | .sleeping w => some (if paused config backgrounded then .sleeping {} else .probing w fun _ => none)
    | _ => none
  | .delayed =>
    match s.phase with
    | .delaying counted attempt => some (.confirming counted attempt fun _ => none)
    | _ => none
  | .probed l p =>
    match s.phase with
    | .probing w probes => (probes.record s l p).map (.probing w)
    | .confirming counted attempt probes => (probes.record s l p).map (.confirming counted attempt)
    | _ => none
  | .gathered =>
    match s.phase with
    | .probing w probes => (gather probes).map (afterProbes config s w)
    | .confirming counted attempt probes => (gather probes).map (afterAttempt config s counted attempt)
    | _ => none

def step (config : Config) (s : System) (event : Event) : Option System := do
  let phase ← stepPhase config s event
  match event with
  | .client e => return { s with socks := ← Admission.step s.socks e }
  | .changed g => return { s with generation := g }
  | _ => return { s with phase }

/-- Everything one event can do to the monitor. -/
inductive Moves (config : Config) (s : System) : Event → Phase → Prop where
  | client : Moves config s (.client e) s.phase
  | changed : Moves config s (.changed g) s.phase
  | paused : s.phase = .sleeping w → paused config b = true → Moves config s (.woke b) (.sleeping {})
  | woke : s.phase = .sleeping w → Moves config s (.woke b) (.probing w fun _ => none)
  | delayed : s.phase = .delaying counted attempt →
      Moves config s .delayed (.confirming counted attempt fun _ => none)
  | probed : s.phase = .probing w probes → Moves config s (.probed l p) (.probing w probes')
  | confirmed : s.phase = .confirming counted attempt probes →
      Moves config s (.probed l p) (.confirming counted attempt probes')
  | probesEnded : s.phase = .probing w probes → gather probes = some ended →
      Moves config s .gathered (afterProbes config s w ended)
  | attemptEnded : s.phase = .confirming counted attempt probes → gather probes = some ended →
      Moves config s .gathered (afterAttempt config s counted attempt ended)

theorem stepPhase_moves (moved : stepPhase config s event = some phase) :
    Moves config s event phase := by
  cases event with
  | client e =>
    cases Option.some.inj moved
    exact .client
  | changed g =>
    cases Option.some.inj moved
    exact .changed
  | woke b =>
    simp only [stepPhase] at moved
    split at moved
    case h_1 w at_sleep =>
      cases Option.some.inj moved
      split
      case isTrue quiet => exact .paused at_sleep quiet
      case isFalse => exact .woke at_sleep
    case h_2 => contradiction
  | delayed =>
    simp only [stepPhase] at moved
    split at moved
    case h_1 counted attempt at_delay =>
      cases Option.some.inj moved
      exact .delayed at_delay
    case h_2 => contradiction
  | probed l p =>
    simp only [stepPhase] at moved
    split at moved
    case h_1 w probes at_probes =>
      obtain ⟨probes', _, rfl⟩ := Option.map_eq_some_iff.mp moved
      exact .probed at_probes
    case h_2 counted attempt probes at_attempt =>
      obtain ⟨probes', _, rfl⟩ := Option.map_eq_some_iff.mp moved
      exact .confirmed at_attempt
    case h_3 => contradiction
  | gathered =>
    simp only [stepPhase] at moved
    split at moved
    case h_1 w probes at_probes =>
      obtain ⟨ended, all, rfl⟩ := Option.map_eq_some_iff.mp moved
      exact .probesEnded at_probes all
    case h_2 counted attempt probes at_attempt =>
      obtain ⟨ended, all, rfl⟩ := Option.map_eq_some_iff.mp moved
      exact .attemptEnded at_attempt all
    case h_3 => contradiction

theorem step_moves (stepped : step config s event = some t) : Moves config s event t.phase := by
  simp only [step] at stepped
  obtain ⟨phase, moved, stepped⟩ := Option.bind_eq_some_iff.mp stepped
  have moved := stepPhase_moves moved
  cases event with
  | client e =>
    obtain ⟨socks, _, made⟩ := Option.bind_eq_some_iff.mp stepped
    cases Option.some.inj made
    exact .client
  | changed g =>
    cases Option.some.inj stepped
    exact .changed
  | woke _ | delayed | probed _ _ | gathered =>
    cases Option.some.inj stepped
    exact moved

/-- The accepted rounds of the round model that bring its monitor to where the
monitor of the system stands. -/
def Follows (config : Config) : Phase → Prop
  | .sleeping w | .probing w _ => ∃ past, Run (monitorStep config) (.running {}) past (.running w)
  | .confirming counted attempt _ | .delaying counted attempt =>
    attempt < config.attempts ∧ ∃ past w probed, ∃ earlier : Nat → Detailed,
      Run (monitorStep config) (.running {}) past (.running w) ∧
      counted = ⟨w.failures + 1, true⟩ ∧ reached config counted.failures = true ∧
      allOkay probed = false ∧ ∀ k < attempt, allOkay (earlier k) = false
  | .raised reason _ _ => ∃ past, Run (monitorStep config) (.running {}) past (.raised reason)

theorem healthRound_accepted (run : Run (monitorStep config) (.running {}) past (.running w))
    (r : Round) : Run (monitorStep config) (.running {})
      ((r, (healthRound config w r).outcome) :: past) (healthRound config w r).monitor :=
  .next run ⟨w, rfl, rfl, rfl⟩

theorem afterProbes_follows (run : Run (monitorStep config) (.running {}) past (.running w)) :
    Follows config (afterProbes config s w ended) := by
  simp only [afterProbes]
  have foreground : paused config false = false := Bool.and_false _
  have accept := healthRound_accepted run
    ⟨false, saturationOverride s (detailedOf ended), fun _ => httpDown, fun _ => true⟩
  cases okay : allOkay (saturationOverride s (detailedOf ended)) with
  | true =>
    simp only [healthRound, foreground, okay, Bool.false_eq_true, if_false, if_true] at accept
    exact ⟨_, accept⟩
  | false =>
    cases enough : reached config (w.failures + 1) with
    | false =>
      simp only [healthRound, foreground, okay, enough, Bool.false_eq_true, if_false] at accept
      exact ⟨_, accept⟩
    | true =>
      exact ⟨config.attempts_pos, past, w, _, fun _ => httpDown, run, rfl, enough, okay, by simp⟩

theorem afterAttempt_follows (standing : Follows config (.confirming counted attempt probes)) :
    Follows config (afterAttempt config s counted attempt ended) := by
  obtain ⟨inside, past, w, probed, earlier, run, rfl, enough, failing, before⟩ := standing
  simp only [afterAttempt]
  split
  case isTrue again =>
    rw [Bool.and_eq_true, Bool.not_eq_true', decide_eq_true_iff] at again
    refine ⟨again.2, past, w, probed, Function.update earlier attempt (detailedOf ended), run, rfl,
      enough, failing, fun k small => ?_⟩
    obtain rfl | other := eq_or_ne k attempt
    · simpa using again.1
    · rw [Function.update_of_ne other]
      exact before k (by omega)
  case isFalse last =>
    rw [Bool.and_eq_true, Bool.not_eq_true', decide_eq_true_iff, not_and_or, Bool.not_eq_false] at last
    have confirmed : confirmListenerHealth config
        (Function.update earlier attempt (detailedOf ended)) = detailedOf ended := by
      rw [confirm_ends inside]
      · exact Function.update_self ..
      · intro k small
        rw [Function.update_of_ne small.ne]
        exact before k small
      · rwa [Function.update_self]
    have foreground : Round.failing config ⟨false, probed,
        Function.update earlier attempt (detailedOf ended), listenerStructuralHealth s.generation⟩ =
          true := by
      simp [Round.failing, paused, failing]
    have accept := healthRound_accepted run ⟨false, probed,
      Function.update earlier attempt (detailedOf ended), listenerStructuralHealth s.generation⟩
    rw [healthRound_judged foreground enough, confirmed] at accept
    cases verdict : judge (listenerStructuralHealth s.generation) (detailedOf ended) with
    | recovered | degraded | recovery reason =>
      rw [verdict] at accept
      exact ⟨_, accept⟩

theorem follows_moves (standing : Follows config s.phase) (moved : Moves config s event phase) :
    Follows config phase := by
  cases moved with
  | client | changed => exact standing
  | @paused w b asleep quiet =>
    rw [asleep] at standing
    obtain ⟨past, run⟩ := standing
    have accept := healthRound_accepted run ⟨b, httpDown, fun _ => httpDown, fun _ => true⟩
    rw [healthRound, if_pos quiet] at accept
    exact ⟨_, accept⟩
  | woke asleep => rw [asleep] at standing; exact standing
  | delayed waiting => rw [waiting] at standing; exact standing
  | probed waiting => rw [waiting] at standing; exact standing
  | confirmed waiting => rw [waiting] at standing; exact standing
  | probesEnded waiting _ =>
    rw [waiting] at standing
    obtain ⟨past, run⟩ := standing
    exact afterProbes_follows run
  | attemptEnded waiting _ =>
    rw [waiting] at standing
    exact afterAttempt_follows standing

theorem follows_run (run : Run (byStep (step config)) (init n g) past s) :
    Follows config s.phase := by
  apply run.invariant (P := fun s => Follows config s.phase)
  · exact ⟨[], .start⟩
  · exact fun standing stepped => follows_moves standing (step_moves stepped)

/-- The monitor of the system raises only what a run of the round model
raises. -/
theorem raised_by_rounds (run : Run (byStep (step config)) (init n g) past s)
    (raised : s.phase = .raised reason last structural) :
    ∃ rounds, Run (monitorStep config) (.running {}) rounds (.raised reason) := by
  have standing := follows_run run
  rwa [raised] at standing

/-- Some listener other than SOCKS failed in the last confirmation attempt or
is structurally dead. -/
def ExplainedElsewhere (last : Listener → Ended) (structural : Listener → Bool) : Prop :=
  ∃ l, l ≠ .socks ∧ ((last l).probe.okay = false ∨ structural l = false)

/-- SOCKS is structurally dead, or its last confirmation probe failed while it
was below its connection limit. -/
def SocksFailed (last : Listener → Ended) (structural : Listener → Bool) : Prop :=
  structural .socks = false ∨ (last .socks).probe.okay = false ∧ (last .socks).full = false

/-- A full SOCKS listener never by itself tears the generation down. -/
def SaturationTolerated (s : System) : Prop :=
  ∀ reason last structural, s.phase = .raised reason last structural →
    ExplainedElsewhere last structural ∨ SocksFailed last structural

/-- The probes of a last confirmation attempt in which SOCKS alone failed, at
its connection limit, with all three listeners structurally alive. -/
def fullSocksAlone (structural : Listener → Bool) (last : Listener → Ended) : Bool :=
  !(last .socks).probe.okay && (last .socks).full && (last .http).probe.okay &&
    (last .wpad).probe.okay && Listener.all.all structural

def saturationSeen (config : Config) (s : System) : Event → Bool
  | .gathered =>
    match s.phase with
    | .confirming _ attempt probes =>
      match gather probes with
      | some last => attempt + 1 < config.attempts ||
          !fullSocksAlone (listenerStructuralHealth s.generation) last
      | none => true
    | _ => true
  | _ => true

theorem fullSocksAlone_iff {structural : Listener → Bool} {last : Listener → Ended}
    (failing : ∃ l, (last l).probe.okay = false) :
    ExplainedElsewhere last structural ∨ SocksFailed last structural ↔
      fullSocksAlone structural last = false := by
  constructor
  · rintro (⟨l, other, bad⟩ | bad)
    · cases l with
      | socks => contradiction
      | http | wpad => rcases bad with bad | bad <;> simp [fullSocksAlone, Listener.all, bad]
    · rcases bad with bad | ⟨_, bad⟩ <;> simp [fullSocksAlone, Listener.all, bad]
  · intro spared
    by_contra blamed
    obtain ⟨nobody, able⟩ := not_or.mp blamed
    have fine (l : Listener) (other : l ≠ .socks) :
        (last l).probe.okay = true ∧ structural l = true := by
      simpa using fun bad => nobody ⟨l, other, bad⟩
    have alive : structural .socks = true := by
      simpa using fun dead => able (.inl dead)
    have down : (last .socks).probe.okay = false := by
      obtain ⟨l, down⟩ := failing
      by_cases other : l = .socks
      · exact other ▸ down
      · simp [(fine l other).1] at down
    have full : (last .socks).full = true := by
      simpa using fun room => able (.inr ⟨down, room⟩)
    simp [fullSocksAlone, Listener.all, fine, alive, down, full] at spared

theorem tolerated_of_not_raised (going : ∀ reason last structural,
    s.phase ≠ .raised reason last structural) : SaturationTolerated s :=
  fun reason last structural raised => absurd raised (going reason last structural)

theorem afterProbes_goes_on (config : Config) (s : System) (w : Watch) (ended : Listener → Ended) :
    afterProbes config s w ended ≠ .raised reason last structural := by
  simp only [afterProbes]
  split
  · simp
  · split <;> simp

theorem afterAttempt_tolerated {t : System}
    (ends : t.phase = afterAttempt config s counted attempt ended) : SaturationTolerated t ↔
      attempt + 1 < config.attempts ∨
        fullSocksAlone (listenerStructuralHealth s.generation) ended = false := by
  have fails_of_alone (alone : fullSocksAlone (listenerStructuralHealth s.generation) ended = true) :
      allOkay (detailedOf ended) = false := by
    simp only [fullSocksAlone, Bool.and_eq_true, Bool.not_eq_true'] at alone
    exact allOkay_eq_false.mpr ⟨.socks, alone.1.1.1.1⟩
  simp only [afterAttempt] at ends
  split at ends
  case isTrue again =>
    rw [Bool.and_eq_true, Bool.not_eq_true', decide_eq_true_iff] at again
    have : SaturationTolerated t := tolerated_of_not_raised (by simp [ends])
    simp [this, again.2]
  case isFalse last =>
    rw [Bool.and_eq_true, Bool.not_eq_true', decide_eq_true_iff, not_and] at last
    have judged : (∃ reason, judge (listenerStructuralHealth s.generation) (detailedOf ended) =
        .recovery reason) ↔ _ := judge_recovery
    cases verdict : judge (listenerStructuralHealth s.generation) (detailedOf ended) with
    | recovery reason =>
      rw [verdict] at ends judged
      obtain ⟨failing, _⟩ := judged.mp ⟨reason, rfl⟩
      have ended_last := last failing
      simp only [ended_last, false_or]
      rw [← fullSocksAlone_iff (allOkay_eq_false.mp failing)]
      simp [SaturationTolerated, ends]
    | recovered | degraded =>
      rw [verdict] at ends judged
      have spared : fullSocksAlone (listenerStructuralHealth s.generation) ended = false := by
        rw [← Bool.not_eq_true]
        intro alone
        have none := mt judged.mpr (by simp)
        simp only [fullSocksAlone, Bool.and_eq_true] at alone
        exact none ⟨fails_of_alone (by simp [fullSocksAlone, alone]), .inr ⟨.http, alone.1.1.2⟩⟩
      have : SaturationTolerated t := tolerated_of_not_raised (by simp [ends])
      simp [this, spared]

/-- A step keeps the tolerance unless it ends a last attempt in which a full
SOCKS server alone failed. -/
theorem tolerated_step (stepped : step config s event = some t) :
    SaturationTolerated t ↔ SaturationTolerated s ∧ saturationSeen config s event = true := by
  have moved := step_moves stepped
  generalize phase_eq : t.phase = phase at moved
  have going (phase_ne : ∀ reason last structural, phase ≠ .raised reason last structural)
      (before : ∀ reason last structural, s.phase ≠ .raised reason last structural)
      (seen : saturationSeen config s event = true) :
      SaturationTolerated t ↔ SaturationTolerated s ∧ saturationSeen config s event = true := by
    have after : SaturationTolerated t := tolerated_of_not_raised (by simpa [phase_eq] using phase_ne)
    simp [after, tolerated_of_not_raised before, seen]
  cases moved with
  | client | changed => simp [SaturationTolerated, phase_eq, saturationSeen]
  | paused asleep _ => exact going (by simp) (by simp [asleep]) rfl
  | woke asleep => exact going (by simp) (by simp [asleep]) rfl
  | delayed waiting => exact going (by simp) (by simp [waiting]) rfl
  | probed waiting => exact going (by simp) (by simp [waiting]) rfl
  | confirmed waiting => exact going (by simp) (by simp [waiting]) rfl
  | probesEnded waiting _ =>
    exact going (fun _ _ _ => afterProbes_goes_on _ _ _ _) (by simp [waiting])
      (by simp [saturationSeen, waiting])
  | attemptEnded waiting all =>
    have before : SaturationTolerated s := tolerated_of_not_raised (by simp [waiting])
    rw [afterAttempt_tolerated phase_eq]
    simp [before, saturationSeen, waiting, all]

/-- A full SOCKS listener never by itself tears the generation down in exactly
those runs in which no last confirmation attempt ends with SOCKS as the only
failing probe, at its limit, and all listeners structurally alive. -/
theorem saturation_tolerated_iff (run : Run (byStep (step config)) (init n g) past s) :
    SaturationTolerated s ↔
      Run (guarded (byStep (step config)) (saturationSeen config · ·)) (init n g) past s :=
  Run.guarded_iff (I := fun _ => True) (tolerated_of_not_raised (by simp [init]))
    (fun _ => trivial) (fun _ stepped => tolerated_step stepped) run

def alive : Generation := ⟨true, true, true, true, true, true⟩

/-- One round of three probes, or one confirmation attempt. -/
def attemptOf (socks http : Bool) : List Event :=
  [.probed .socks ⟨socks, "handshake timeout".toList⟩, .probed .http ⟨http, "connect timeout".toList⟩,
    .probed .wpad ⟨true, "ok".toList⟩, .gathered]

def httpOutage : List Event := .client (.arrive 0) :: .woke false :: attemptOf false false ++
  .woke false :: attemptOf false false

/-- HTTP stays down while SOCKS is full. -/
theorem http_outage_tolerated : ∃ past s, Run (byStep (step {})) (init 1 alive) past s ∧
    SaturationTolerated s ∧ ∃ reason last structural, s.phase = .raised reason last structural := by
  obtain ⟨s, replayed⟩ : ∃ s, replay (fun s e => if saturationSeen {} s e then step {} s e else none)
      (init 1 alive) (httpOutage ++ attemptOf false false ++ .delayed :: attemptOf false false ++
        .delayed :: attemptOf false false) = some s := ⟨_, rfl⟩
  have run := Run.of_replay_guarded replayed
  refine ⟨_, s, run.unguarded, (saturation_tolerated_iff run.unguarded).mpr run, ?_⟩
  cases Option.some.inj replayed
  exact ⟨_, _, _, rfl⟩

/-- HTTP fails two rounds and is back for the confirmation, which the full
SOCKS server alone fails. -/
theorem full_socks_torn_down : ∃ past s, Run (byStep (step {})) (init 1 alive) past s ∧
    ¬ SaturationTolerated s := by
  obtain ⟨s, reason, last, structural, replayed, raised, down, alone⟩ :
      ∃ s reason last structural, replay (step {}) (init 1 alive) (httpOutage ++
        attemptOf false true ++ .delayed :: attemptOf false true ++ .delayed :: attemptOf false true) =
          some s ∧ s.phase = .raised reason last structural ∧
        (last .socks).probe.okay = false ∧ fullSocksAlone structural last = true :=
    ⟨_, _, _, _, rfl, rfl, rfl, rfl⟩
  refine ⟨_, s, Run.of_replay replayed, fun tolerated => ?_⟩
  have spared := (fullSocksAlone_iff ⟨.socks, down⟩).mp (tolerated reason last structural raised)
  rw [alone] at spared
  contradiction

end HttpSocksProxy.Saturation
