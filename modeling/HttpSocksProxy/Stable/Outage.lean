import HttpSocksProxy.Foundation.History
import HttpSocksProxy.Foundation.Transition
import HttpSocksProxy.Stable.Isolation

/-! The clock of the inbound interface without IPv4, which the ticks of the
watchdog and the starts of generations share. -/
namespace HttpSocksProxy.Watchdog
open Interfaces Transition History

/-- What `_start_generation` meets up to its inbound status: refreshes of other
threads before each of its reads of the registry, its own refresh, its reads of
the selections, and its two readings of the clock. -/
structure Start where
  before : List Refresh
  scans : List Scan
  now : ℚ
  beforeProxy : List Refresh
  beforeAdvisory : List Refresh
  beforeFallback : List Refresh
  beforeOutbound : List Refresh
  beforeState : List Refresh
  selections : Str × Str × Str
  outboundSelection : Str
  outboundCurrent : Option Str
  probe : Str → Bool
  noticed : ℚ
  clock : ℚ

/-- `_name_from_status` -/
def nameFromStatus (value : Str) : Option Str :=
  if value = [] then none else some (value.takeWhile (· ≠ ' '))

/-- The inbound interface of a new generation, which need not have an address. -/
def startProxy (config : Config) (t : Start) (current : Option Str) (s : State) :
    Except Str (ResolvedInterface × State) :=
  let s := absorb config t.beforeProxy s
  match resolve s.records t.probe t.selections.1 .proxy current config.preferVpn with
  | .ok proxy => .ok (proxy, s)
  | .error _ =>
    let s := absorb config t.beforeAdvisory s
    let advisory := advisoryInbound s.records t.selections.2.2
    let s := absorb config t.beforeFallback s
    -- an explicit selection stays, and the fallback only serves WPAD
    match resolve s.records t.probe auto .proxy current config.preferVpn with
    | .ok fallback => .ok (if t.selections.2.1 ≠ auto then advisory else fallback, s)
    | .error e => .error e

/-- How a new generation finds its inbound interface, and what it publishes. -/
def startInbound (t : Start) (proxy outbound : ResolvedInterface) (s : State) : State :=
  let state := currentState s.records proxy.name
  let since := s.inboundNoIpv4Since.getD t.noticed
  { s with
    proxy
    proxyState := state
    outbound
    inboundNoIpv4Since := match state with
      | .ready => none
      | .presentNoIpv4 => some since
      | .absent => s.inboundNoIpv4Since
    inboundWarned := match state with
      | .ready => false
      | _ => s.inboundWarned
    published := some ⟨formatProxyInterface proxy state, state, recoveryState state,
      if state = .presentNoIpv4 then max 0 (t.clock - since) else 0, localAddresses s.records⟩ }

/-- `_start_generation` up to its inbound status, which it may not reach. -/
def startGeneration (config : Config) (t : Start) (s : State) : Except Str State :=
  let s := absorb config t.before s
  match refresh config.registry s.records t.scans t.now with
  | .error e => .error e
  | .ok records =>
    match startProxy config t (s.published.bind (nameFromStatus ·.proxyInterface)) { s with records } with
    | .error e => .error e
    | .ok (proxy, s) =>
      let s := absorb config t.beforeOutbound s
      match resolve s.records t.probe t.outboundSelection .outbound t.outboundCurrent config.preferVpn with
      | .error e => .error e
      | .ok outbound => .ok (startInbound t proxy outbound (absorb config t.beforeState s))

/-- One look at the inbound target: when it was made and published, and what
was published with it. -/
structure Observation where
  ticked : Bool
  target : Str
  state : InboundState
  seen : ℚ
  told : ℚ
  seconds : ℚ
  warned : Bool
  deriving DecidableEq

def Notice.warns : Notice → Bool
  | withoutIpv4 _ _ => true
  | _ => false

/-- The observation that led from one state to the next. -/
def observed (ticked : Bool) (target : Str) (seen told : ℚ) (s t : State) : Observation where
  ticked
  target
  state := t.proxyState
  seen
  told
  seconds := (t.published.map (·.inboundNoIpv4Seconds)).getD 0
  warned := (t.notices.drop s.notices.length).any Notice.warns

/-- `clock` is the last reading of the monotonic clock. -/
structure Session where
  inbound : State
  clock : ℚ

inductive Event where
  | tick (t : Tick)
  | start (t : Start)

/-- A start that ends before its inbound status is no event: its refreshes are
among those before the next. A watchdog that its outbound side ends has made
its observation. -/
def attend (config : Config) (s : Session) : Event → Option (Option Observation × Session)
  | .tick t =>
    let before := absorb config t.before s.inbound
    if t.clock < s.clock then none
    else if paused config t then some (none, { s with inbound := before })
    else match refresh config.registry before.records [t.scan] t.now with
      | .error _ => some (none, { s with inbound := before })
      | .ok records =>
        let before := { before with records }
        let after := inboundSide config t before
        some (some (observed true (inboundTarget before t) t.clock t.clock before after), ⟨after, t.clock⟩)
  | .start t =>
    if t.noticed < s.clock ∨ t.clock < t.noticed then none
    else match startGeneration config t s.inbound with
      | .error _ => none
      | .ok after =>
        some (some (observed false after.proxy.name t.noticed t.clock s.inbound after), ⟨after, t.clock⟩)

/-- A session whose tracking was reset, before any observation. -/
def Session.opened (inbound : State) (clock : ℚ) : Session where
  inbound := { inbound with proxyState := .absent, inboundNoIpv4Since := none, inboundWarned := false }
  clock

/-- All observations of a run, newest first. -/
def observations (past : List (Event × Option Observation)) : List Observation := past.filterMap (·.2)

/-- What an observation does to the clock and to the flag of its warning. -/
structure Keeps (config : Config) (s : State) (o : Observation) (t : State) : Prop where
  state : t.proxyState = o.state
  present : o.state = .presentNoIpv4 → t.proxy.name = o.target ∧
    t.inboundNoIpv4Since = some (s.inboundNoIpv4Since.getD o.seen) ∧
    o.seconds = max 0 (o.told - s.inboundNoIpv4Since.getD o.seen) ∧
    o.warned = (o.ticked && (config.inboundIpv4WarnAfter ≤ o.seconds) && !s.inboundWarned) ∧
    t.inboundWarned = (s.inboundWarned || o.warned)
  other : o.state ≠ .presentNoIpv4 → o.seconds = 0 ∧ o.warned = false ∧
    (t.inboundNoIpv4Since = none → s.inboundNoIpv4Since = none ∧ t.inboundWarned = s.inboundWarned ∨
      t.inboundWarned = false)

theorem transition_quiet (proxy : ResolvedInterface) (previous state : InboundState) :
    (transition proxy previous state).any Notice.warns = false := by
  simp only [transition]
  split
  · rfl
  · cases state <;> rfl

/-- The state a tick finds its target in. -/
def found (config : Config) (t : Tick) (s : State) : InboundState :=
  currentState (absorb config t.beforeInbound s).records (inboundTarget s t)

def overdue (config : Config) (t : Tick) (s : State) (state : InboundState) : Bool :=
  state = .presentNoIpv4 && config.inboundIpv4WarnAfter ≤ noIpv4Seconds s t state && !s.inboundWarned

theorem inboundSide_notices (config : Config) (t : Tick) (s : State) : ∃ name proxy,
    (inboundSide config t s).notices = s.notices ++
      ((if overdue config t s (found config t s) then
        [.withoutIpv4 name (noIpv4Seconds s t (found config t s))] else []) ++
      transition proxy s.proxyState (found config t s)) :=
  ⟨_, _, List.append_assoc ..⟩

theorem inboundSide_warned (config : Config) (t : Tick) (s : State) :
    ((inboundSide config t s).notices.drop s.notices.length).any Notice.warns =
      overdue config t s (found config t s) := by
  obtain ⟨name, proxy, notices⟩ := inboundSide_notices config t s
  rw [notices, List.drop_left, List.any_append, transition_quiet, Bool.or_false]
  cases overdue config t s (found config t s) <;> rfl

theorem advisoryInbound_name (records : Records) (name : Str) : (advisoryInbound records name).name = name := by
  simp only [advisoryInbound]
  split <;> rfl

theorem inboundSide_proxy (present : found config t s = .presentNoIpv4) :
    (inboundSide config t s).proxy.name = inboundTarget s t := by
  change (inboundProxy config _ t (inboundTarget s t) (found config t s)).name = _
  rw [present, inboundProxy, if_neg (by decide)]
  exact advisoryInbound_name _ _

theorem inboundSide_keeps (config : Config) (t : Tick) (s : State) :
    Keeps config s (observed true (inboundTarget s t) t.clock t.clock s (inboundSide config t s))
      (inboundSide config t s) := by
  have since : (inboundSide config t s).inboundNoIpv4Since = if found config t s = .presentNoIpv4
      then some (s.inboundNoIpv4Since.getD t.clock) else none := rfl
  have warned : (inboundSide config t s).inboundWarned = (found config t s = .presentNoIpv4 &&
      (s.inboundWarned || overdue config t s (found config t s))) := rfl
  have seconds : (observed true (inboundTarget s t) t.clock t.clock s (inboundSide config t s)).seconds =
      noIpv4Seconds s t (found config t s) := rfl
  have told : (observed true (inboundTarget s t) t.clock t.clock s (inboundSide config t s)).warned =
      overdue config t s (found config t s) := inboundSide_warned config t s
  constructor
  · rfl
  · intro present
    change found config t s = _ at present
    rw [present] at since warned seconds told
    refine ⟨inboundSide_proxy present, since, seconds, ?_, ?_⟩
    · rw [told, seconds]
      rfl
    · rw [told]
      exact warned
  · intro other
    change found config t s ≠ _ at other
    refine ⟨?_, ?_, fun _ => .inr ?_⟩
    · rw [seconds, noIpv4Seconds, if_neg other]
    · rw [told, overdue, decide_eq_false other]
      rfl
    · rw [warned, decide_eq_false other]
      rfl

theorem startInbound_keeps (t : Start) (proxy outbound : ResolvedInterface) (s : State) (records : Records) :
    Keeps config s
      (observed false proxy.name t.noticed t.clock s (startInbound t proxy outbound { s with records }))
      (startInbound t proxy outbound { s with records }) := by
  have told : (observed false proxy.name t.noticed t.clock s
      (startInbound t proxy outbound { s with records })).warned = false := by
    simp only [observed, startInbound, List.drop_length, List.any_nil]
  constructor
  · rfl
  · intro present
    change currentState records proxy.name = _ at present
    rw [told]
    simp only [observed, startInbound, present, Option.map_some, Option.getD_some, Bool.false_and, Bool.or_false,
      if_true, and_self]
  · intro other
    change currentState records proxy.name ≠ _ at other
    refine ⟨if_neg other, told, ?_⟩
    simp only [startInbound]
    cases here : currentState records proxy.name with
    | ready => exact fun _ => .inr rfl
    | presentNoIpv4 => exact absurd here other
    | absent => exact fun unset => .inl ⟨unset, rfl⟩

theorem startProxy_records (found : startProxy config t current s = .ok (proxy, s')) :
    ∃ records, s' = { s with records } := by
  simp only [startProxy] at found
  split at found
  · cases found
    exact ⟨_, rfl⟩
  · split at found
    · cases found
      exact ⟨_, rfl⟩
    · contradiction

theorem startGeneration_cases (started : startGeneration config t s = .ok s') :
    ∃ proxy outbound records, s' = startInbound t proxy outbound { s with records } := by
  simp only [startGeneration] at started
  split at started
  case h_1 => contradiction
  case h_2 =>
    split at started
    case h_1 => contradiction
    case h_2 proxy s₁ found =>
      obtain ⟨records, rfl⟩ := startProxy_records found
      split at started
      case h_1 => contradiction
      case h_2 outbound _ =>
        cases started
        exact ⟨proxy, outbound, _, rfl⟩

theorem startGeneration_keeps (started : startGeneration config t s = .ok s') :
    Keeps config s (observed false s'.proxy.name t.noticed t.clock s s') s' := by
  obtain ⟨proxy, outbound, records, rfl⟩ := startGeneration_cases started
  exact startInbound_keeps t proxy outbound s records

/-- A step keeps the clock and the flag, or does to them what its observation
does; the readings of the clock never go back. -/
theorem attend_cases (attended : attend config s event = some (o, s')) :
    (o = none ∧ s'.clock = s.clock ∧ ∃ records, s'.inbound = { s.inbound with records }) ∨
    ∃ seen, o = some seen ∧ s.clock ≤ seen.seen ∧ seen.seen ≤ seen.told ∧ s'.clock = seen.told ∧
      Keeps config s.inbound seen s'.inbound := by
  cases event with
  | tick t =>
    simp only [attend] at attended
    split at attended
    case isTrue => contradiction
    case isFalse forth =>
      split at attended
      case isTrue =>
        cases attended
        exact .inl ⟨rfl, rfl, _, rfl⟩
      case isFalse =>
        split at attended
        case h_1 =>
          cases attended
          exact .inl ⟨rfl, rfl, _, rfl⟩
        case h_2 records _ =>
          cases attended
          have keeps := inboundSide_keeps config t { s.inbound with records }
          exact .inr ⟨_, rfl, not_lt.mp forth, le_rfl, rfl, keeps.state, keeps.present, keeps.other⟩
  | start t =>
    simp only [attend] at attended
    split at attended
    case isTrue => contradiction
    case isFalse forth =>
      rw [not_or, not_lt, not_lt] at forth
      split at attended
      case h_1 => contradiction
      case h_2 after started =>
        cases attended
        exact .inr ⟨_, rfl, forth.1, forth.2, rfl, startGeneration_keeps started⟩

def Observation.without (name : Str) (o : Observation) : Bool := o.state = .presentNoIpv4 && o.target = name

/-- Whether an observation ends the stretch of an interface without IPv4. -/
def Observation.ends (name : Str) (o : Observation) : Bool := !o.without name

/-- The stretch in which the interface has been without IPv4. -/
def stretch (name : Str) (history : List Observation) : List Observation := episode (Observation.ends name) history

/-- When it began. -/
def began (name : Str) (history : List Observation) : Option ℚ :=
  (opening (Observation.ends name) history).map (·.seen)

/-- Some tick of the stretch observed that it had lasted long enough. -/
def lasted (config : Config) (name : Str) (history : List Observation) : Bool :=
  (began name history).any fun since =>
    (stretch name history).any fun o => o.ticked && config.inboundIpv4WarnAfter ≤ o.told - since

/-- The published seconds go back to the observation that began the stretch of the
interface, and nothing else has been observed since. -/
structure Current (o : Observation) (earlier : List Observation) : Prop where
  began : o.state = .presentNoIpv4 → began o.target (o :: earlier) = some (o.told - o.seconds)
  only : ∀ e ∈ o :: earlier, o.told - o.seconds < e.seen → e.without o.target = true

def warnings (name : Str) (history : List Observation) : Nat := (stretch name history).countP (·.warned)

/-- A stretch has one warning once it has lasted long enough, and none before. -/
def WarnsOnce (config : Config) (o : Observation) (earlier : List Observation) : Prop :=
  if o.state = .presentNoIpv4 then
    warnings o.target (o :: earlier) = if lasted config o.target (o :: earlier) then 1 else 0
  else o.warned = false

/-- What the clock and the flag say of the observations of the run. -/
structure Timed (config : Config) (history : List Observation) (s : Session) : Prop where
  past : ∀ e ∈ history, e.seen ≤ s.clock
  idle : s.inbound.inboundNoIpv4Since = none →
    s.inbound.proxyState ≠ .presentNoIpv4 ∧ s.inbound.inboundWarned = false
  apart : s.inbound.proxyState ≠ .presentNoIpv4 → ∀ name, stretch name history = []
  running : s.inbound.inboundNoIpv4Since = some since → s.inbound.proxyState = .presentNoIpv4 →
    began s.inbound.proxy.name history = some since ∧
    (∀ e ∈ history, since < e.seen → e.without s.inbound.proxy.name = true) ∧
    warnings s.inbound.proxy.name history = s.inbound.inboundWarned.toNat ∧
    s.inbound.inboundWarned = lasted config s.inbound.proxy.name history

/-- An observation without IPv4 while the clock runs follows one of the same
interface without IPv4. -/
def steady (s : Session) (l : Event × Option Observation) : Bool :=
  l.2.all fun o => o.state ≠ .presentNoIpv4 || s.inbound.inboundNoIpv4Since.isNone ||
    s.inbound.proxyState = .presentNoIpv4 && o.target = s.inbound.proxy.name

theorem steady_some (kept : steady s (event, some o) = true) (present : o.state = .presentNoIpv4)
    (running : s.inbound.inboundNoIpv4Since.isSome) :
    s.inbound.proxyState = .presentNoIpv4 ∧ o.target = s.inbound.proxy.name := by
  obtain ⟨since, running⟩ := Option.isSome_iff_exists.mp running
  simpa [steady, present, running] using kept

theorem stretch_without (here : o.without name = true) :
    stretch name (o :: history) = o :: stretch name history := by
  rw [stretch, episode_cons, Observation.ends, here]
  rfl

theorem stretch_ended (here : o.without name = false) : stretch name (o :: history) = [] := by
  rw [stretch, episode_cons, Observation.ends, here]
  rfl

theorem began_first (here : o.without name = true) (fresh : stretch name history = []) :
    began name (o :: history) = some o.seen := by
  have unopened : opening (Observation.ends name) history = none := List.getLast?_eq_none_iff.mpr fresh
  rw [began, opening_cons, unopened, Observation.ends, here]
  rfl

theorem began_next (here : o.without name = true) (since : began name history = some c) :
    began name (o :: history) = some c := by
  obtain ⟨first, opened, seen⟩ := Option.map_eq_some_iff.mp since
  rw [began, opening_cons, opened, Observation.ends, here]
  exact congrArg some seen

theorem lasted_first (config : Config) (here : o.without name = true) (fresh : stretch name history = []) :
    lasted config name (o :: history) = (o.ticked && config.inboundIpv4WarnAfter ≤ o.told - o.seen) := by
  rw [lasted, began_first here fresh, stretch_without here, fresh, Option.any_some, List.any_cons, List.any_nil,
    Bool.or_false]

theorem lasted_next (config : Config) (here : o.without name = true) (since : began name history = some c) :
    lasted config name (o :: history) =
      (o.ticked && config.inboundIpv4WarnAfter ≤ o.told - c || lasted config name history) := by
  rw [lasted, lasted, began_next here since, since, stretch_without here, Option.any_some, Option.any_some,
    List.any_cons]

theorem warnings_without (here : o.without name = true) :
    warnings name (o :: history) = warnings name history + o.warned.toNat := by
  rw [warnings, warnings, stretch_without here, List.countP_cons]
  cases o.warned <;> rfl

theorem began_past (since : began name history = some c) : ∃ e ∈ history, e.seen = c := by
  obtain ⟨first, opened, seen⟩ := Option.map_eq_some_iff.mp since
  exact ⟨first, opening_mem opened, seen⟩

/-- What an observation without IPv4 continues, whether or not it is the first
of its stretch. -/
theorem stretch_continues (timed : Timed config history s) (here : o.without o.target = true)
    (steady : s.inbound.inboundNoIpv4Since.isSome →
      s.inbound.proxyState = .presentNoIpv4 ∧ o.target = s.inbound.proxy.name)
    (after : s.clock ≤ o.seen) (since : s.inbound.inboundNoIpv4Since.getD o.seen = c) :
    began o.target (o :: history) = some c ∧ c ≤ o.seen ∧
    (∀ e ∈ history, c < e.seen → e.without o.target = true) ∧
    warnings o.target (o :: history) = s.inbound.inboundWarned.toNat + o.warned.toNat ∧
    lasted config o.target (o :: history) =
      (o.ticked && config.inboundIpv4WarnAfter ≤ o.told - c || s.inbound.inboundWarned) := by
  rw [warnings_without here]
  cases running : s.inbound.inboundNoIpv4Since with
  | none =>
    obtain ⟨apart, unwarned⟩ := timed.idle running
    have fresh := timed.apart apart o.target
    rw [running, Option.getD_none] at since
    subst since
    refine ⟨began_first here fresh, le_rfl, ?_, ?_, ?_⟩
    · intro e there newer
      exact absurd (timed.past e there) (not_le.mpr (after.trans_lt newer))
    · rw [warnings, fresh, unwarned]
      rfl
    · rw [lasted_first config here fresh, unwarned, Bool.or_false]
  | some old =>
    rw [running, Option.getD_some] at since
    subst since
    obtain ⟨present, same⟩ := steady (by rw [running]; rfl)
    obtain ⟨began_then, only, count, flag⟩ := timed.running running present
    rw [← same] at began_then only count flag
    obtain ⟨first, there, seen⟩ := began_past began_then
    refine ⟨began_next here began_then, ?_, only, ?_, ?_⟩
    · rw [← seen]
      exact (timed.past first there).trans after
    · rw [count]
    · rw [lasted_next config here began_then, ← flag]

theorem timed_present (timed : Timed config history s) (keeps : Keeps config s.inbound o t.inbound)
    (after : s.clock ≤ o.seen) (in_order : o.seen ≤ o.told) (clock : t.clock = o.told)
    (present : o.state = .presentNoIpv4)
    (steady : s.inbound.inboundNoIpv4Since.isSome →
      s.inbound.proxyState = .presentNoIpv4 ∧ o.target = s.inbound.proxy.name) :
    Current o history ∧ WarnsOnce config o history ∧ Timed config (o :: history) t := by
  obtain ⟨name, since, seconds, warned, flag⟩ := keeps.present present
  have here : o.without o.target = true := by simp [Observation.without, present]
  obtain ⟨begins, early, only, count, long⟩ := stretch_continues timed here steady after rfl
  generalize s.inbound.inboundNoIpv4Since.getD o.seen = c at *
  have lasting : 0 ≤ o.told - c := sub_nonneg.mpr (early.trans in_order)
  rw [max_eq_right lasting] at seconds
  rw [seconds] at warned
  have counted : warnings o.target (o :: history) = t.inbound.inboundWarned.toNat := by
    rw [count, flag, warned]
    cases s.inbound.inboundWarned <;> simp
  have flagged : t.inbound.inboundWarned = lasted config o.target (o :: history) := by
    rw [long, flag, warned]
    cases s.inbound.inboundWarned <;> simp
  refine ⟨⟨fun _ => ?_, ?_⟩, ?_, ?_, ?_, ?_, ?_⟩
  · rw [seconds, sub_sub_cancel]
    exact begins
  · intro e there newer
    rw [seconds, sub_sub_cancel] at newer
    rcases List.mem_cons.mp there with rfl | there
    · exact here
    · exact only e there newer
  · rw [WarnsOnce, if_pos present, counted, flagged]
    cases lasted config o.target (o :: history) <;> rfl
  · intro e there
    rw [clock]
    rcases List.mem_cons.mp there with rfl | there
    · exact in_order
    · exact (timed.past e there).trans (after.trans in_order)
  · intro unset
    rw [since] at unset
    contradiction
  · intro apart
    exact absurd (keeps.state.trans present) apart
  · intro since' running _
    rw [name]
    refine ⟨begins.trans (since.symm.trans running), ?_, counted, flagged⟩
    rw [Option.some.inj (running.symm.trans since)]
    intro e there newer
    rcases List.mem_cons.mp there with rfl | there
    · exact here
    · exact only e there newer

theorem timed_other (timed : Timed config history s) (keeps : Keeps config s.inbound o t.inbound)
    (after : s.clock ≤ o.seen) (in_order : o.seen ≤ o.told) (clock : t.clock = o.told)
    (other : o.state ≠ .presentNoIpv4) :
    Current o history ∧ WarnsOnce config o history ∧ Timed config (o :: history) t := by
  obtain ⟨seconds, warned, unset⟩ := keeps.other other
  have before : ∀ e ∈ o :: history, e.seen ≤ o.told := by
    intro e there
    rcases List.mem_cons.mp there with rfl | there
    · exact in_order
    · exact (timed.past e there).trans (after.trans in_order)
  refine ⟨⟨fun present => absurd present other, ?_⟩, ?_, ?_, ?_, ?_, ?_⟩
  · intro e there newer
    rw [seconds, sub_zero] at newer
    exact absurd (before e there) (not_le.mpr newer)
  · rw [WarnsOnce, if_neg other, warned]
  · rw [clock]
    exact before
  · intro none_left
    refine ⟨by rw [keeps.state]; exact other, ?_⟩
    rcases unset none_left with ⟨idle, same⟩ | cleared
    · rw [same, (timed.idle idle).2]
    · exact cleared
  · intro _ name
    apply stretch_ended
    simp [Observation.without, other]
  · intro _ _ present
    exact absurd (keeps.state.symm.trans present) other

theorem observations_cons (l : Event × Option Observation) (past : List (Event × Option Observation)) :
    observations (l :: past) = l.2.toList ++ observations past := by
  rw [observations, List.filterMap_cons]
  cases l.2 <;> rfl

theorem timed_run
    (run : Run (guarded (byOutput (attend config)) (steady · · = true)) (.opened inbound clock) past s) :
    Each (fun o earlier => Current o earlier ∧ WarnsOnce config o earlier) (observations past) ∧
      Timed config (observations past) s := by
  apply run.record
  · refine ⟨each_nil, ?_, ?_, ?_, ?_⟩
    · exact fun e there => absurd there List.not_mem_nil
    · exact fun _ => ⟨by simp [Session.opened], rfl⟩
    · exact fun _ _ => rfl
    · intro since running
      contradiction
  · rintro past s ⟨event, found⟩ t ⟨each, timed⟩ ⟨kept, attended⟩
    rw [observations_cons]
    obtain ⟨nothing, clock, records, same⟩ | ⟨o, seen, after, in_order, clock, keeps⟩ := attend_cases attended
    · dsimp only at nothing
      rw [nothing]
      refine ⟨each, ?_, ?_, ?_, ?_⟩
      · rw [clock]
        exact timed.past
      · rw [same]
        exact timed.idle
      · rw [same]
        exact timed.apart
      · rw [same]
        exact timed.running
    · dsimp only at seen
      subst seen
      rw [Option.toList_some, List.singleton_append, each_cons]
      by_cases present : o.state = .presentNoIpv4
      · obtain ⟨current, warns, timed⟩ :=
          timed_present timed keeps after in_order clock present (steady_some kept present)
        exact ⟨⟨⟨current, warns⟩, each⟩, timed⟩
      · obtain ⟨current, warns, timed⟩ := timed_other timed keeps after in_order clock present
        exact ⟨⟨⟨current, warns⟩, each⟩, timed⟩

/-- In every run in which an observation without IPv4, made while the clock
runs, follows one of the same interface without IPv4: the published seconds
are those of the current outage of that interface, and each stretch gets its
warning once it has lasted long enough, and only one. -/
theorem clock_of_outage (config : Config)
    (run : Run (guarded (byOutput (attend config)) (steady · · = true)) (.opened inbound clock) past s)
    (made : (o :: earlier) <:+ observations past) : Current o earlier ∧ WarnsOnce config o earlier :=
  (timed_run run).1 o earlier made

/-- An interface that is there without an IP address. -/
def bare (name : String) : Entry := ⟨name.toList, some ⟨.other, []⟩⟩

def wiredTick (now : ℚ) (inbound : String) : Event :=
  .tick (quiet (.ok [bare "en2", bare "en3", en0]) now inbound.toList)

/-- `en2` is warned of once, at the third tick. -/
theorem en2_warned : ∃ past s,
    Run (guarded (byOutput (attend {})) (steady · · = true)) (.opened started 0) past s ∧
    ∃ o earlier, observations past = o :: earlier ∧ o.seconds = 35 ∧ Current o earlier ∧ WarnsOnce {} o earlier := by
  have executed : (execute (fun s e => (attend {} s e).filter fun r => steady s (e, r.1)) (fun _ e o => (e, o))
      (.opened started 0) [wiredTick 10 "en2", wiredTick 20 "en2", wiredTick 45 "en2"]).map
        (fun r => (observations r.1).map fun o => (o.seconds, o.warned)) =
      some [(35, true), (10, false), (0, false)] := by decide +kernel
  obtain ⟨⟨past, s⟩, executed, seen⟩ := Option.map_eq_some_iff.mp executed
  have run := Run.of_outputs_guarded executed
  obtain ⟨o, earlier, made, same, _⟩ := List.map_eq_cons_iff.mp seen
  have kept := clock_of_outage {} run (by rw [made])
  exact ⟨past, s, run, o, earlier, made, (Prod.mk.inj same).1, kept⟩

def en2Bare (now : ℚ) : Observation := ⟨true, "en2".toList, .presentNoIpv4, now, now, now - 10, false⟩

/-- The selection moves to `en3` between the second and the third tick: `en3`
is said, and warned, to have been without IPv4 for the time that `en2` has been. -/
theorem en3_inherits : ∃ past s, Run (byOutput (attend {})) (.opened started 0) past s ∧
    ∃ o earlier, observations past = o :: earlier ∧ o.target = "en3".toList ∧ o.seconds = 35 ∧
      ¬ Current o earlier ∧ ¬ WarnsOnce {} o earlier := by
  have executed : (execute (attend {}) (fun _ e o => (e, o))
      (.opened started 0) [wiredTick 10 "en2", wiredTick 20 "en2", wiredTick 45 "en3"]).map
        (fun r => observations r.1) =
      some [⟨true, "en3".toList, .presentNoIpv4, 45, 45, 35, true⟩, en2Bare 20, en2Bare 10] := by decide +kernel
  obtain ⟨⟨past, s⟩, executed, seen⟩ := Option.map_eq_some_iff.mp executed
  refine ⟨past, s, Run.of_outputs executed, _, _, seen, rfl, rfl, ?_, ?_⟩
  · intro current
    have same := current.only (en2Bare 20) (by simp) (by decide +kernel)
    contradiction
  · rw [WarnsOnce, if_pos rfl]
    decide +kernel

end HttpSocksProxy.Watchdog
