import HttpSocksProxy.Foundation.Transition
import HttpSocksProxy.Stable.Isolation

/-! When the watchdog of a generation with an explicit outbound selection ends,
read off the refreshes since the generation was bound. Runs and histories have
the newest pass and refresh first. -/
namespace HttpSocksProxy.Interfaces

theorem foldl_refreshed (config : Config) (window history : List Refresh) :
    window.foldl (refreshed config) (recordsAfter config history) =
      recordsAfter config (window.reverse ++ history) := by
  induction window generalizing history with
  | nil => rfl
  | cons r later ih =>
    rw [List.foldl_cons, ← recordsAfter, ih, List.reverse_cons, List.append_assoc]
    rfl

/-- Missing from the newest refresh, for not long yet, and still cached. -/
structure Waiting (config : Config) (looks : Reports) : Prop where
  missing : absences looks ≠ []
  cached : ∃ last s, lastReport looks = some (last, s) ∧ ∀ t ∈ absences looks, t - last ≤ config.ttl
  briefly : ¬ LongAbsent config looks

theorem recordFrom_waiting {config : Config} {looks : Reports} :
    (∃ r, recordFrom config looks = some r ∧ r.missCount ≠ 0 ∧ r.available = true) ↔
      Waiting config looks := by
  rw [recordFrom_eq]
  constructor
  · rintro ⟨r, found, missing, available⟩
    obtain ⟨⟨last, s⟩, reported, kept⟩ := Option.bind_eq_some_iff.mp found
    dsimp only at kept
    split at kept
    case isTrue cached =>
      cases Option.some.inj kept
      exact ⟨fun none_missing => missing (by simp [aged, none_missing]), ⟨last, s, reported, cached⟩,
        aged_available_iff.mp available⟩
    case isFalse => contradiction
  · rintro ⟨missing, ⟨last, s, reported, cached⟩, briefly⟩
    refine ⟨aged config last s (absences looks), ?_, ?_, aged_available_iff.mpr briefly⟩
    · rw [reported, Option.bind_some]
      exact if_pos cached
    · simpa [aged] using missing

/-- An interface is present when the newest refresh reported it. -/
theorem recordFrom_present (config : Config) {looks : Reports} {P : Sighting → Prop} :
    (∃ r, recordFrom config looks = some r ∧ r.present = true ∧ P r.toSighting) ↔
      ∃ now s, looks.head? = some (now, some s) ∧ P s := by
  cases looks with
  | nil => simp [recordFrom]
  | cons look past =>
    obtain ⟨now, seen⟩ := look
    cases seen with
    | some s => simp [recordFrom, Record.present, Sighting.seen]
    | none =>
      simp only [List.head?_cons, Option.some.injEq, Prod.mk.injEq, reduceCtorEq, and_false,
        false_and, exists_false, iff_false]
      rintro ⟨r, found, present, _⟩
      obtain ⟨old, _, aged⟩ := Option.bind_eq_some_iff.mp found
      rw [Record.present, Bool.and_eq_true, decide_eq_true_iff] at present
      exact missed_missCount aged present.2

end HttpSocksProxy.Interfaces

namespace HttpSocksProxy.Watchdog
open Interfaces Transition

/-- The refreshes up to the outbound read of a pass. -/
def Tick.looked (t : Tick) : List Refresh :=
  (t.before ++ ⟨[t.scan], t.now⟩ :: (t.beforeInbound ++ t.beforeResolve ++ t.beforeOutbound)).reverse

/-- The refreshes up to the end of a pass, or of the watchdog. -/
def Tick.refreshes (config : Config) (t : Tick) : List Refresh :=
  if paused config t then t.before.reverse
  else match t.scan with
    | .error _ => ⟨[t.scan], t.now⟩ :: t.before.reverse
    | .ok _ => t.beforeRoute.reverse ++ t.looked

def refreshesOf (config : Config) (past : List Tick) : List Refresh :=
  past.flatMap (Tick.refreshes config)

/-- The newest refresh reported the interface with the bound addresses: each
the last usable one of its family, and no IPv6 where none is bound. -/
def Fits (bound : ResolvedInterface) (looks : Reports) : Prop :=
  ∃ now s, looks.head? = some (now, some s) ∧ s.ipv4 = bound.ipv4 ∧ s.ipv6 = bound.ipv6

/-- A pass, after a history, that meets nothing to end the watchdog. -/
def Calm (config : Config) (bound : ResolvedInterface) (history : List Refresh) (t : Tick) : Prop :=
  paused config t = true ∨ (∃ entries, t.scan = .ok entries) ∧
    (Waiting config.registry (reports bound.name (t.looked ++ history)) ∨
      Fits bound (reports bound.name (t.beforeRoute.reverse ++ t.looked ++ history)))

theorem compareOutbound_eq_none {active found : ResolvedInterface} :
    compareOutbound active found = none ↔
      found.name = active.name ∧ found.ipv4 = active.ipv4 ∧ found.ipv6 = active.ipv6 := by
  simp only [compareOutbound]
  split
  case isTrue other => simp [other]
  case isFalse same =>
    split
    case isTrue other => simp [other]
    case isFalse same4 =>
      split
      case isTrue other => simp [other]
      case isFalse same6 => simp [not_not.mp same, not_not.mp same4, not_not.mp same6]

/-- The state after a history of refreshes, bound to an interface. -/
structure Stands (config : Config) (bound : ResolvedInterface) (history : List Refresh) (s : State) :
    Prop where
  records : s.records = recordsAfter config.registry history
  outbound : s.outbound = bound

theorem Stands.absorb (stands : Stands config bound history s) (window : List Refresh) :
    Stands config bound (window.reverse ++ history) (absorb config window s) where
  records := by rw [← foldl_refreshed, ← stands.records]; rfl
  outbound := stands.outbound

theorem Stands.inboundSide (stands : Stands config bound history s) (t : Tick) :
    Stands config bound (t.beforeResolve.reverse ++ (t.beforeInbound.reverse ++ history))
      (inboundSide config t s) where
  records := ((stands.absorb t.beforeInbound).absorb t.beforeResolve).records
  outbound := stands.outbound

theorem Stands.waits (stands : Stands config bound history s) :
    temporarilyUnavailable (s.records.get? s.outbound.name) = true ↔
      Waiting config.registry (reports bound.name history) := by
  rw [stands.outbound, stands.records, get?_recordsAfter, ← recordFrom_waiting]
  simp [temporarilyUnavailable, Option.any_eq_true]

/-- The outbound interface resolves to what is bound just when the newest
refresh reported it so. -/
theorem Stands.fits (stands : Stands config bound history s) (addressed : bound.ipv4.isSome) :
    (∃ found, resolveNamed s.records bound.name = .ok found ∧ compareOutbound bound found = none) ↔
      Fits bound (reports bound.name history) := by
  rw [Fits, ← recordFrom_present config.registry
    (P := fun s => s.ipv4 = bound.ipv4 ∧ s.ipv6 = bound.ipv6), stands.records, ← get?_recordsAfter]
  constructor
  · rintro ⟨found, chosen, same⟩
    obtain ⟨r, here, fit, rfl⟩ := resolveNamed_eq_ok.mp chosen
    obtain ⟨_, ipv4, ipv6⟩ := compareOutbound_eq_none.mp same
    exact ⟨r, here, (Bool.and_eq_true _ _ ▸ fit).1, ipv4, ipv6⟩
  · rintro ⟨r, here, present, ipv4, ipv6⟩
    refine ⟨resolved bound.name (bound.name, r), resolveNamed_eq_ok.mpr ⟨r, here, ?_, rfl⟩,
      compareOutbound_eq_none.mpr ⟨rfl, ipv4, ipv6⟩⟩
    rw [candidate, present, ipv4, addressed]
    rfl

theorem Stands.outboundSide (stands : Stands config bound history s) (explicit : bound.name ≠ auto)
    (addressed : bound.ipv4.isSome) (t : Tick) :
    ((∃ s', outboundSide config bound.name t s = .ok s') ↔
      Waiting config.registry (reports bound.name (t.beforeOutbound.reverse ++ history)) ∨
      Fits bound (reports bound.name (t.beforeRoute.reverse ++ (t.beforeOutbound.reverse ++ history)))) ∧
    ∀ s', outboundSide config bound.name t s = .ok s' →
      Stands config bound (t.beforeRoute.reverse ++ (t.beforeOutbound.reverse ++ history)) s' := by
  have read := stands.absorb t.beforeOutbound
  have routed := read.absorb t.beforeRoute
  have waits := read.waits
  have fits := routed.fits addressed
  simp only [Watchdog.outboundSide]
  simp only [resolve, if_neg explicit]
  generalize Watchdog.absorb config t.beforeRoute (Watchdog.absorb config t.beforeOutbound s) = route
    at routed fits ⊢
  cases wait : temporarilyUnavailable ((Watchdog.absorb config t.beforeOutbound s).records.get?
      (Watchdog.absorb config t.beforeOutbound s).outbound.name) with
  | true =>
    simp only [if_true, Except.ok.injEq, exists_eq', true_iff]
    refine ⟨.inl (waits.mp wait), ?_⟩
    rintro s' rfl
    exact routed
  | false =>
    have busy : ¬ Waiting config.registry (reports bound.name (t.beforeOutbound.reverse ++ history)) :=
      fun waiting => by simp [waits.mpr waiting] at wait
    simp only [Bool.false_eq_true, if_false, ← fits, busy, false_or]
    cases chosen : resolveNamed route.records bound.name with
    | error reason => simp
    | ok found =>
      simp only [routed.outbound, Except.ok.injEq, exists_eq_left']
      cases compareOutbound bound found with
      | some reason => simp
      | none =>
        simp only [Except.ok.injEq, exists_eq', true_and]
        rintro s' rfl
        exact routed

/-- A pass goes on exactly when it meets nothing to end the watchdog, and then
the state stands for the longer history. -/
theorem Stands.tick (stands : Stands config bound history s) (explicit : bound.name ≠ auto)
    (addressed : bound.ipv4.isSome) (t : Tick) :
    ((∃ s', tick config bound.name s t = .ok s') ↔ Calm config bound history t) ∧
    ∀ s', tick config bound.name s t = .ok s' → Stands config bound (t.refreshes config ++ history) s' := by
  have start := stands.absorb t.before
  simp only [Watchdog.tick, Calm, Tick.refreshes]
  cases pause : paused config t with
  | true =>
    simp only [if_true, Except.ok.injEq, exists_eq', true_or, true_and]
    rintro s' rfl
    exact start
  | false =>
    cases scan : t.scan with
    | error e =>
      simp [refresh, scanFailure_single]
    | ok entries =>
      obtain ⟨records, returned⟩ : ∃ records, refresh config.registry
          (Watchdog.absorb config t.before s).records [.ok entries] t.now = .ok records := by
        simp [refresh, scanFailure_single]
      have own : Stands config bound (⟨[.ok entries], t.now⟩ :: (t.before.reverse ++ history))
          { Watchdog.absorb config t.before s with records } := by
        refine ⟨?_, start.outbound⟩
        rw [recordsAfter, ← start.records, refreshed, returned]
      have looked : t.looked ++ history = t.beforeOutbound.reverse ++ (t.beforeResolve.reverse ++
          (t.beforeInbound.reverse ++ ⟨[.ok entries], t.now⟩ :: (t.before.reverse ++ history))) := by
        simp [Tick.looked, scan]
      have outbound := (own.inboundSide t).outboundSide explicit addressed t
      simp only [returned, Bool.false_eq_true, if_false, false_or, Except.ok.injEq, exists_eq', true_and,
        List.append_assoc t.beforeRoute.reverse, looked]
      exact outbound

/-- One pass of the watchdog that goes on. -/
def passes (config : Config) (selection : Str) (s : State) (t : Tick) (s' : State) : Prop :=
  tick config selection s t = .ok s'

theorem Stands.run (stands : Stands config bound history s) (explicit : bound.name ≠ auto)
    (addressed : bound.ipv4.isSome) (run : Run (passes config bound.name) s past s') :
    Stands config bound (refreshesOf config past ++ history) s' := by
  apply run.record (P := fun past s' => Stands config bound (refreshesOf config past ++ history) s')
  · exact stands
  · intro past s t s' known passed
    have next := (known.tick explicit addressed t).2 s' passed
    rwa [← List.append_assoc] at next

/-- A scan shows the interface without an address the generation is bound to. -/
def ShowsWithout (bound : ResolvedInterface) (entries : List Entry) : Prop :=
  (∃ e ∈ entries, e.name = bound.name) ∧
    ((∃ a, bound.ipv4 = some a ∧ ⟨bound.name, some ⟨.inet, a⟩⟩ ∉ entries) ∨
      ∃ a, bound.ipv6 = some a ∧ ⟨bound.name, some ⟨.inet6, a⟩⟩ ∉ entries)

/-- What may end the generation: some scan since it was bound showed the
interface without a bound address, or the interface has been missing for long. -/
def RestartNeeded (config : Config) (bound : ResolvedInterface) (since history : List Refresh) : Prop :=
  (∃ r ∈ since, ∃ entries, .ok entries ∈ r.scans ∧ ShowsWithout bound entries) ∨
    LongAbsent config.registry (reports bound.name (since ++ history))

/-- In every run of the watchdog, the next pass ends it only for a reason that
needs a restart just when that pass is calm or such a reason is there. -/
theorem restart_needed_iff (config : Config) {selection : Str} (explicit : selection ≠ auto)
    (chosen : resolveNamed (recordsAfter config.registry history) selection = .ok bound)
    (stands : Stands config bound history s₀) (run : Run (passes config selection) s₀ past s) (t : Tick) :
    ((∃ ending, tick config selection s t = .error ending) →
        RestartNeeded config bound (refreshesOf config (t :: past)) history) ↔
      Calm config bound (refreshesOf config past ++ history) t ∨
        RestartNeeded config bound (refreshesOf config (t :: past)) history := by
  obtain ⟨record, _, fit, rfl⟩ := resolveNamed_eq_ok.mp chosen
  have addressed : (resolved selection (selection, record)).ipv4.isSome := (Bool.and_eq_true _ _ ▸ fit).2
  have goes_on := ((stands.run explicit addressed run).tick explicit addressed t).1
  have ends : (∃ ending, tick config selection s t = .error ending) ↔
      ¬ ∃ s', tick config selection s t = .ok s' := by
    cases tick config selection s t <;> simp
  rw [ends, show (∃ s', tick config selection s t = .ok s') ↔ _ from goes_on]
  exact or_iff_not_imp_left.symm

def en0History : List Refresh := [⟨[.ok [en0]], 0⟩]

theorem started_stands : Stands {} en0Bound en0History started := ⟨rfl, rfl⟩

/-- A pass that finds the interface as it was bound. -/
theorem unchanged_goes_on :
    Calm {} en0Bound en0History (quiet (.ok [en2, en0]) 5 auto) ∧
      ((∃ ending, tick {} en0.name started (quiet (.ok [en2, en0]) 5 auto) = .error ending) →
        RestartNeeded {} en0Bound (refreshesOf {} [quiet (.ok [en2, en0]) 5 auto]) en0History) := by
  have calm : Calm {} en0Bound en0History (quiet (.ok [en2, en0]) 5 auto) :=
    .inr ⟨⟨_, rfl⟩, .inr ⟨5, _, rfl, rfl, rfl⟩⟩
  exact ⟨calm, (restart_needed_iff {} (by decide) rfl started_stands .start _).mpr (.inl calm)⟩

/-- A further address of `en0`. -/
def en0Alias : Entry := ⟨en0.name, some ⟨.inet, "192.168.1.3".toList⟩⟩

/-- A further address listed after the bound one ends the generation, and so
does a scan that raises, although neither asks for a restart. -/
theorem needless_restarts :
    ((∃ ending, tick {} en0.name started (quiet (.ok [en0, en0Alias]) 5 auto) = .error ending) ∧
      ¬ RestartNeeded {} en0Bound (refreshesOf {} [quiet (.ok [en0, en0Alias]) 5 auto]) en0History) ∧
    (∃ ending, tick {} en0.name started (quiet (.error "getifaddrs failed".toList) 5 auto) =
        .error ending) ∧
      ¬ RestartNeeded {} en0Bound (refreshesOf {} [quiet (.error "getifaddrs failed".toList) 5 auto])
        en0History := by
  have present (scan : Scan) : absences (reports en0.name
      (refreshesOf {} [quiet scan 5 auto] ++ en0History)) = [] → ¬ LongAbsent {} (reports en0.name
      (refreshesOf {} [quiet scan 5 auto] ++ en0History)) := by
    rintro none_missing ⟨many, _⟩
    rw [none_missing] at many
    exact absurd many (by decide)
  refine ⟨⟨⟨_, rfl⟩, ?_⟩, ⟨_, rfl⟩, ?_⟩
  · rintro (⟨r, member, entries, returned, _, without⟩ | long)
    · cases List.mem_singleton.mp member
      cases List.mem_singleton.mp returned
      rcases without with ⟨a, bound, missing⟩ | ⟨a, bound, _⟩
      · cases bound
        exact missing List.mem_cons_self
      · contradiction
    · exact present _ rfl long
  · rintro (⟨r, member, entries, returned, _⟩ | long)
    · cases List.mem_singleton.mp member
      cases List.mem_singleton.mp returned
    · exact present _ rfl long

end HttpSocksProxy.Watchdog
