import Mathlib.Data.List.Forall2
import HttpSocksProxy.Stable.Watchdog

/-! Two runs of the watchdog under one explicit outbound selection. They see
the same entries of that interface; all else, the inbound side above all, may
differ. The records of an interface depend on its own entries only. -/
namespace HttpSocksProxy.Interfaces

def entriesOf (name : Str) (entries : List Entry) : List Entry := entries.filter (·.name = name)

/-- One entry of an interface, as `_snapshot` takes it. -/
def sight (name : Str) (found : Option Sighting) (e : Entry) : Option Sighting :=
  match e.addr with
  | none => found
  | some address =>
    if name = [] ∨ excluded name then found
    else some ((found.getD ⟨classifyInterface name, none, none⟩).assign name address)

theorem get?_observe (found : OrderedDict Str Sighting) (e : Entry) (name : Str) :
    (observe found e).get? name =
      if e.name = name then sight name (found.get? name) e else found.get? name := by
  simp only [observe, sight]
  cases e.addr with
  | none => simp
  | some address =>
    by_cases same : e.name = name
    · subst same
      by_cases skipped : e.name = [] ∨ excluded e.name = true <;>
        simp [skipped, OrderedDict.get?_set]
    · dsimp only
      split
      · rfl
      · rw [OrderedDict.get?_set, if_neg (Ne.symm same)]

theorem get?_foldl_observe (entries : List Entry) (found : OrderedDict Str Sighting) (name : Str) :
    (entries.foldl observe found).get? name =
      (entriesOf name entries).foldl (sight name) (found.get? name) := by
  induction entries generalizing found with
  | nil => rfl
  | cons e rest ih =>
    rw [List.foldl_cons, ih, get?_observe]
    by_cases same : e.name = name <;> simp [same, entriesOf]

/-- What a snapshot says of an interface comes from its entries alone. -/
theorem get?_snapshot (entries : List Entry) (name : Str) : (snapshot entries).get? name =
    ((entriesOf name entries).foldl (sight name) none).bind fun s => if s.kept then some s else none := by
  rw [snapshot, OrderedDict.get?_filterMap, get?_foldl_observe]
  rfl

/-- Two scans that return and list the same entries of an interface. -/
def AgreeScan (name : Str) (a b : Scan) : Prop :=
  ∃ as bs, a = .ok as ∧ b = .ok bs ∧ entriesOf name as = entriesOf name bs

structure AgreeRefresh (name : Str) (a b : Refresh) : Prop where
  now : a.now = b.now
  scans : List.Forall₂ (AgreeScan name) a.scans b.scans

theorem agree_returns (agree : List.Forall₂ (AgreeScan name) a b) :
    scanErrors a = [] ∧ scanErrors b = [] := by
  induction agree with
  | nil => exact ⟨rfl, rfl⟩
  | cons head _ ih =>
    obtain ⟨as, bs, rfl, rfl, _⟩ := head
    exact ih

theorem agree_foldl_merge (agree : List.Forall₂ (AgreeScan name) a b)
    (same : found.get? name = found'.get? name) :
    (a.foldl merge found).get? name = (b.foldl merge found').get? name := by
  induction agree generalizing found found' with
  | nil => exact same
  | cons head _ ih =>
    obtain ⟨as, bs, rfl, rfl, entries⟩ := head
    apply ih
    simp only [merge, OrderedDict.get?_update, get?_snapshot, entries, same]

theorem agree_mergeScans (agree : List.Forall₂ (AgreeScan name) a b) :
    (mergeScans a).get? name = (mergeScans b).get? name :=
  agree_foldl_merge agree rfl

theorem AgreeRefresh.completes (agree : AgreeRefresh name a b) :
    a.completes = true ∧ b.completes = true := by
  obtain ⟨left, right⟩ := agree_returns agree.scans
  simp [Refresh.completes, scanFailure, left, right]

/-- Refreshes that agree on an interface keep its records the same. -/
theorem agree_refreshed (config : Config) (same : r.get? name = r'.get? name)
    (agree : AgreeRefresh name a b) :
    (refreshed config r a).get? name = (refreshed config r' b).get? name := by
  obtain ⟨left, right⟩ := agree.completes
  rw [get?_refreshed, get?_refreshed, left, right, agree_mergeScans agree.scans, agree.now, same]

theorem agree_window (config : Config) (same : r.get? name = r'.get? name)
    (agree : List.Forall₂ (AgreeRefresh name) a b) :
    (a.foldl (refreshed config) r).get? name = (b.foldl (refreshed config) r').get? name := by
  induction agree generalizing r r' with
  | nil => exact same
  | cons head _ ih => exact ih (agree_refreshed config same head)

end HttpSocksProxy.Interfaces

namespace HttpSocksProxy.Watchdog
open Interfaces

/-- Two passes at the same times that see the same entries of an interface. -/
structure AgreeTick (name : Str) (a b : Tick) : Prop where
  backgrounded : a.backgrounded = b.backgrounded
  before : List.Forall₂ (AgreeRefresh name) a.before b.before
  own : AgreeRefresh name ⟨[a.scan], a.now⟩ ⟨[b.scan], b.now⟩
  beforeInbound : List.Forall₂ (AgreeRefresh name) a.beforeInbound b.beforeInbound
  beforeResolve : List.Forall₂ (AgreeRefresh name) a.beforeResolve b.beforeResolve
  beforeOutbound : List.Forall₂ (AgreeRefresh name) a.beforeOutbound b.beforeOutbound
  beforeRoute : List.Forall₂ (AgreeRefresh name) a.beforeRoute b.beforeRoute

/-- Generations bound to the same outbound interface, with the same record of
it. Nothing is asked of the inbound side. -/
structure AgreeState (name : Str) (s u : State) : Prop where
  outbound : s.outbound = u.outbound
  bound : s.outbound.name = name
  record : s.records.get? name = u.records.get? name

theorem agree_absorb (config : Config) (agree : AgreeState name s u)
    (window : List.Forall₂ (AgreeRefresh name) a b) :
    AgreeState name (absorb config a s) (absorb config b u) :=
  ⟨agree.outbound, agree.bound, agree_window config.registry agree.record window⟩

theorem agree_inboundSide (config : Config) (agree : AgreeState name s u) (ticks : AgreeTick name a b) :
    AgreeState name (inboundSide config a s) (inboundSide config b u) := by
  have read := agree_absorb config agree ticks.beforeInbound
  have resolved := agree_absorb config read ticks.beforeResolve
  exact ⟨resolved.outbound, resolved.bound, resolved.record⟩

/-- Passes that agree end alike or go on alike. -/
def AgreeResult (name : Str) : Except Ending State → Except Ending State → Prop
  | .error e, .error f => e = f
  | .ok s, .ok u => AgreeState name s u
  | _, _ => False

theorem agree_outboundSide (config : Config) (explicit : name ≠ auto) (agree : AgreeState name s u)
    (ticks : AgreeTick name a b) :
    AgreeResult name (outboundSide config name a s) (outboundSide config name b u) := by
  have read := agree_absorb config agree ticks.beforeOutbound
  have routed := agree_absorb config read ticks.beforeRoute
  have waits : temporarilyUnavailable ((absorb config a.beforeOutbound s).records.get? s.outbound.name) =
      temporarilyUnavailable ((absorb config b.beforeOutbound u).records.get? u.outbound.name) := by
    rw [← agree.outbound, agree.bound, read.record]
  have found : resolveNamed (absorb config a.beforeRoute (absorb config a.beforeOutbound s)).records name =
      resolveNamed (absorb config b.beforeRoute (absorb config b.beforeOutbound u)).records name := by
    simp only [resolveNamed]
    rw [routed.record]
  simp only [outboundSide]
  simp only [resolve, if_neg explicit]
  rw [found, show (absorb config a.beforeOutbound s).outbound = s.outbound from rfl,
    show (absorb config b.beforeOutbound u).outbound = u.outbound from rfl, waits]
  split
  case isTrue => exact routed
  case isFalse =>
    cases resolveNamed (absorb config b.beforeRoute (absorb config b.beforeOutbound u)).records name with
    | error reason => rfl
    | ok route =>
      dsimp only
      rw [show (absorb config a.beforeRoute (absorb config a.beforeOutbound s)).outbound =
          (absorb config b.beforeRoute (absorb config b.beforeOutbound u)).outbound from agree.outbound]
      split
      · rfl
      · exact routed

theorem agree_tick (config : Config) (explicit : name ≠ auto) (agree : AgreeState name s u)
    (ticks : AgreeTick name a b) :
    AgreeResult name (tick config name s a) (tick config name u b) := by
  have start := agree_absorb config agree ticks.before
  simp only [tick]
  rw [show paused config a = paused config b by rw [paused, ticks.backgrounded, paused]]
  split
  case isTrue => exact start
  case isFalse =>
    obtain ⟨left, right⟩ := ticks.own.completes
    have scanned := agree_refreshed config.registry start.record ticks.own
    simp only [refreshed] at scanned
    simp only [refresh] at scanned ⊢
    simp only [Refresh.completes, Option.isNone_iff_eq_none] at left right
    rw [left, right] at scanned ⊢
    apply agree_outboundSide config explicit _ ticks
    apply agree_inboundSide config _ ticks
    exact ⟨start.outbound, start.bound, scanned⟩

/-- For an explicit outbound selection, two runs of the watchdog at the same
times that see the same entries of that interface, and whose scans all return,
end at the same tick and for the same reason, or neither ends. The inbound
selections and all other interfaces are arbitrary. -/
theorem inbound_isolated (config : Config) {selection : Str} (explicit : selection ≠ auto)
    (agree : AgreeState selection s u) (ticks : List.Forall₂ (AgreeTick selection) a b) :
    watch config selection s a = watch config selection u b := by
  induction ticks generalizing s u with
  | nil => rfl
  | @cons t t' _ _ head _ ih =>
    have result := agree_tick config explicit agree head
    simp only [watch]
    cases first : tick config selection s t with
    | error e =>
      cases second : tick config selection u t' with
      | error f =>
        rw [first, second] at result
        exact congrArg (fun e => some (0, e)) result
      | ok u' =>
        rw [first, second] at result
        exact result.elim
    | ok s' =>
      cases second : tick config selection u t' with
      | error f =>
        rw [first, second] at result
        exact result.elim
      | ok u' =>
        rw [first, second] at result
        dsimp only
        rw [ih result]

def en0Bound : ResolvedInterface := ⟨en0.name, en0.name, .localLink, some "192.168.1.2".toList, none⟩

/-- A generation bound to `en0` that has just started. -/
def started : State where
  records := recordsAfter {} [⟨[.ok [en0]], 0⟩]
  proxy := en0Bound
  proxyState := .ready
  outbound := en0Bound
  inboundNoIpv4Since := none
  inboundWarned := false
  published := none
  notices := []

/-- A pass in the foreground with no refresh by another thread. -/
def quiet (scan : Scan) (now : ℚ) (inbound : Str) : Tick where
  backgrounded := false
  before := []
  scan
  now
  beforeInbound := []
  beforeResolve := []
  beforeOutbound := []
  beforeRoute := []
  selections := (inbound, inbound, inbound)
  clock := now
  probe := fun _ => true

def en2 : Entry := ⟨"en2".toList, some ⟨.inet, "169.254.10.1".toList⟩⟩

/-- In one run the inbound `en2` comes and goes, in the other the inbound
interface is always the outbound one. -/
theorem en2_isolated : watch {} en0.name started
      [quiet (.ok [en2, en0]) 5 en2.name, quiet (.ok [en0]) 10 en2.name] =
    watch {} en0.name started [quiet (.ok [en0]) 5 auto, quiet (.ok [en0]) 10 auto] := by
  have pass (now : ℚ) (inbound inbound' : Str) {entries entries' : List Entry}
      (same : entriesOf en0.name entries = entriesOf en0.name entries') :
      AgreeTick en0.name (quiet (.ok entries) now inbound) (quiet (.ok entries') now inbound') :=
    ⟨rfl, .nil, ⟨rfl, .cons ⟨_, _, rfl, rfl, same⟩ .nil⟩, .nil, .nil, .nil, .nil⟩
  exact inbound_isolated {} (by decide) ⟨rfl, rfl, rfl⟩
    (.cons (pass 5 _ _ (by decide)) (.cons (pass 10 _ _ rfl) .nil))

end HttpSocksProxy.Watchdog
