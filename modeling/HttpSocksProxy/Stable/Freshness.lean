import HttpSocksProxy.Foundation.Transition
import HttpSocksProxy.Stable.Grace

/-! The registry under any number of threads. `_refresh_lock` is held through
all scans of a refresh; the commit, a resolve and a read of the records each
hold the registry lock, so each is one step. -/
namespace HttpSocksProxy.Interfaces
open Transition

/-- What the entries of one scan bear out about an interface. -/
structure Backed (entries : List Entry) (name : Str) (s : Sighting) : Prop where
  allowed : name ≠ [] ∧ excluded name = false
  kind : s.kind = classifyInterface name
  ipv4 : ∀ a, s.ipv4 = some a → isUsableIpv4 a = true ∧ ⟨name, some ⟨.inet, a⟩⟩ ∈ entries
  ipv6 : ∀ a, s.ipv6 = some a → isUsableIpv6 a (startsWith name "utun") = true ∧
    ⟨name, some ⟨.inet6, a⟩⟩ ∈ entries

theorem Backed.assign (backed : Backed entries name s) (here : ⟨name, some address⟩ ∈ entries) :
    Backed entries name (s.assign name address) := by
  simp only [Sighting.assign]
  split
  case isTrue usable =>
    rw [Bool.and_eq_true, decide_eq_true_iff] at usable
    refine ⟨backed.allowed, backed.kind, ?_, backed.ipv6⟩
    rintro a ⟨⟩
    exact ⟨usable.2, usable.1 ▸ here⟩
  case isFalse =>
    split
    case isTrue usable =>
      rw [Bool.and_eq_true, decide_eq_true_iff] at usable
      refine ⟨backed.allowed, backed.kind, backed.ipv4, ?_⟩
      rintro a ⟨⟩
      exact ⟨usable.2, usable.1 ▸ here⟩
    case isFalse => exact backed

theorem observe_backed (known : ∀ name s, found.get? name = some s → Backed entries name s)
    (here : e ∈ entries) : ∀ name s, (observe found e).get? name = some s → Backed entries name s := by
  simp only [observe]
  split
  case h_1 => exact known
  case h_2 address at_address =>
    split
    case isTrue => exact known
    case isFalse allowed =>
      rw [not_or, Bool.not_eq_true] at allowed
      have start : Backed entries e.name
          ((found.get? e.name).getD ⟨classifyInterface e.name, none, none⟩) := by
        cases before : found.get? e.name with
        | some s => exact known _ _ before
        | none => exact ⟨allowed, rfl, by simp, by simp⟩
      intro name s seen
      rw [OrderedDict.get?_set] at seen
      split at seen
      case isTrue same =>
        cases Option.some.inj seen
        subst same
        apply start.assign
        rwa [← at_address]
      case isFalse => exact known name s seen

theorem foldl_observe_backed (known : ∀ name s, found.get? name = some s → Backed entries name s)
    (inside : rest ⊆ entries) :
    ∀ name s, (rest.foldl observe found).get? name = some s → Backed entries name s := by
  induction rest generalizing found with
  | nil => exact known
  | cons e rest ih =>
    obtain ⟨here, inside⟩ := List.cons_subset.mp inside
    exact ih (observe_backed known here) inside

theorem snapshot_backed (seen : (snapshot entries).get? name = some s) : Backed entries name s := by
  rw [snapshot, OrderedDict.get?_filterMap, Option.bind_eq_some_iff] at seen
  obtain ⟨found, observed, kept⟩ := seen
  split at kept
  · cases Option.some.inj kept
    exact foldl_observe_backed (by simp) (List.Subset.refl _) name s observed
  · contradiction

/-- The last non-raising scan whose snapshot has the interface says what its
record will be. -/
theorem mergeScans_last {scans : List Scan} (seen : (mergeScans scans).get? name = some s) :
    ∃ before entries after, scans = before ++ .ok entries :: after ∧
      (snapshot entries).get? name = some s ∧
      ∀ later, .ok later ∈ after → (snapshot later).get? name = none := by
  simp only [mergeScans] at seen
  induction scans using List.reverseRecOn with
  | nil => contradiction
  | append_singleton earlier scan ih =>
    rw [List.foldl_append, List.foldl_cons, List.foldl_nil] at seen
    have extend (missing : ∀ later, scan = .ok later → (snapshot later).get? name = none)
        (seen : (earlier.foldl merge .empty).get? name = some s) :
        ∃ before entries after, earlier ++ [scan] = before ++ .ok entries :: after ∧
          (snapshot entries).get? name = some s ∧
          ∀ later, .ok later ∈ after → (snapshot later).get? name = none := by
      obtain ⟨before, entries, after, rfl, here, none_after⟩ := ih seen
      refine ⟨before, entries, after ++ [scan], by simp, here, fun later member => ?_⟩
      rcases List.mem_append.mp member with old | new
      · exact none_after later old
      · exact missing later (List.mem_singleton.mp new).symm
    cases scan with
    | error e => exact extend (by simp) seen
    | ok entries =>
      rw [merge, OrderedDict.get?_update] at seen
      rcases Option.or_eq_some_iff.mp seen with here | ⟨missing, old⟩
      · exact ⟨earlier, entries, [], rfl, here, by simp⟩
      · exact extend (by rintro _ ⟨⟩; exact missing) old

/-- The refresh that holds `_refresh_lock`: scans to come, results so far. -/
structure Refreshing where
  thread : Nat
  left : Nat
  scans : List Scan

structure Registry where
  records : Records
  refreshing : Option Refreshing

inductive Event where
  | begins (thread : Nat) (retryDelays : List ℚ)
  | scans (thread : Nat) (scan : Scan)
  | ends (thread : Nat) (now : ℚ)
  | clears (thread : Nat)

def Registry.init : Registry := ⟨.empty, none⟩

def step (config : Config) (s : Registry) : Event → Option Registry
  | .begins thread retryDelays =>
    match s.refreshing with
    | none => some { s with refreshing := some ⟨thread, retryDelays.length, []⟩ }
    | some _ => none
  | .scans thread scan =>
    match s.refreshing with
    | some ⟨holder, left + 1, scans⟩ =>
      if holder = thread then some { s with refreshing := some ⟨holder, left, scans ++ [scan]⟩ }
      else none
    | _ => none
  | .ends thread now =>
    match s.refreshing with
    | some ⟨holder, 0, scans⟩ =>
      if holder = thread then some ⟨refreshed config s.records ⟨scans, now⟩, none⟩ else none
    | _ => none
  | .clears _ =>
    match s.refreshing with
    | none => some { s with records := .empty }
    | some _ => none

/-- The scans of a thread's refresh that is under way. -/
def scansOf (thread : Nat) : List Event → List Scan
  | .begins t _ :: past => if t = thread then [] else scansOf thread past
  | .scans t scan :: past => if t = thread then scansOf thread past ++ [scan] else scansOf thread past
  | .ends _ _ :: past | .clears _ :: past => scansOf thread past
  | [] => []

/-- The scans of the newest refresh that completed without raising. -/
def lastCompleted : List Event → Option (List Scan)
  | .ends thread now :: past =>
    if Refresh.completes ⟨scansOf thread past, now⟩ then some (scansOf thread past)
    else lastCompleted past
  | .begins _ _ :: past | .scans _ _ :: past | .clears _ :: past => lastCompleted past
  | [] => none

/-- Everything one event can do. -/
inductive Moves (config : Config) (s : Registry) : Event → Registry → Prop where
  | begins : s.refreshing = none →
      Moves config s (.begins thread delays) ⟨s.records, some ⟨thread, delays.length, []⟩⟩
  | scans : s.refreshing = some ⟨thread, left + 1, scans⟩ →
      Moves config s (.scans thread scan) ⟨s.records, some ⟨thread, left, scans ++ [scan]⟩⟩
  | ends : s.refreshing = some ⟨thread, 0, scans⟩ →
      Moves config s (.ends thread now) ⟨refreshed config s.records ⟨scans, now⟩, none⟩
  | clears : s.refreshing = none → Moves config s (.clears thread) ⟨.empty, none⟩

theorem step_moves (stepped : step config s event = some t) : Moves config s event t := by
  cases event with
  | begins thread delays =>
    simp only [step] at stepped
    split at stepped
    case h_1 free =>
      cases Option.some.inj stepped
      exact .begins free
    case h_2 => contradiction
  | clears thread =>
    simp only [step] at stepped
    split at stepped
    case h_1 free =>
      cases Option.some.inj stepped
      rw [free]
      exact .clears free
    case h_2 => contradiction
  | scans thread scan =>
    simp only [step] at stepped
    split at stepped
    case h_1 holder left scans held =>
      split at stepped
      case isTrue same =>
        cases Option.some.inj stepped
        subst same
        exact .scans held
      case isFalse => contradiction
    case h_2 => contradiction
  | ends thread now =>
    simp only [step] at stepped
    split at stepped
    case h_1 holder scans held =>
      split at stepped
      case isTrue same =>
        cases Option.some.inj stepped
        subst same
        exact .ends held
      case isFalse => contradiction
    case h_2 => contradiction

/-- The lock holder's results are those of its refresh, and every record of an
interface that is present comes from the newest completed refresh. -/
structure Consistent (past : List Event) (s : Registry) : Prop where
  scanned : ∀ r, s.refreshing = some r → r.scans = scansOf r.thread past
  fresh : ∀ name record, s.records.get? name = some record → record.missCount = 0 →
    ∃ scans, lastCompleted past = some scans ∧
      (mergeScans scans).get? name = some record.toSighting

theorem consistent_moves (known : Consistent past s) (moved : Moves config s event t) :
    Consistent (event :: past) t := by
  obtain ⟨scanned, fresh⟩ := known
  cases moved with
  | @begins thread delays free =>
    refine ⟨?_, fresh⟩
    rintro r ⟨⟩
    exact (if_pos rfl).symm
  | @scans thread left scans scan held =>
    refine ⟨?_, fresh⟩
    rintro r ⟨⟩
    rw [scansOf, if_pos rfl, ← scanned _ held]
  | clears free => exact ⟨by simp, by simp⟩
  | @ends thread scans now held =>
    have scans_eq : scans = scansOf thread past := scanned _ held
    refine ⟨by simp, fun name record found present => ?_⟩
    dsimp only at found
    rw [get?_refreshed] at found
    rw [lastCompleted, ← scans_eq]
    cases completes : Refresh.completes ⟨scans, now⟩ with
    | false =>
      rw [completes, if_neg (by simp)] at found
      exact fresh name record found present
    | true =>
      rw [completes, if_pos rfl] at found
      refine ⟨scans, rfl, ?_⟩
      dsimp only at found
      split at found
      case h_1 s seen =>
        cases Option.some.inj found
        exact seen
      case h_2 =>
        obtain ⟨old, _, aged⟩ := Option.bind_eq_some_iff.mp found
        exact absurd present (missed_missCount aged)

theorem consistent_run (run : Run (byStep (step config)) .init past s) : Consistent past s := by
  apply run.record
  · exact ⟨by simp [Registry.init], by simp [Registry.init]⟩
  · exact fun known stepped => consistent_moves known (step_moves stepped)

/-- While a thread refreshes nobody else changes the records. -/
theorem held_records (run : Run (byStep (step config)) s middle t)
    (held : s.refreshing = some ⟨thread, left, []⟩) (going : ∀ now, .ends thread now ∉ middle) :
    t.records = s.records ∧ ∃ left, t.refreshing = some ⟨thread, left, scansOf thread middle⟩ := by
  induction run with
  | start => exact ⟨rfl, left, held⟩
  | next earlier stepped ih =>
    obtain ⟨same, left, holding⟩ := ih fun now member => going now (List.mem_cons_of_mem _ member)
    cases step_moves stepped with
    | begins free | clears free => rw [free] at holding; contradiction
    | scans busy =>
      cases Option.some.inj (busy.symm.trans holding)
      exact ⟨same, _, by rw [scansOf, if_pos rfl]⟩
    | ends busy =>
      cases Option.some.inj (busy.symm.trans holding)
      exact absurd List.mem_cons_self (going _)

/-- The name and addresses were reported together by one scan of the newest
completed refresh, the last of its scans that has the interface. -/
def Reported (scans : List Scan) (r : ResolvedInterface) : Prop :=
  ∃ before entries after, scans = before ++ .ok entries :: after ∧
    (snapshot entries).get? r.name = some ⟨r.kind, r.ipv4, r.ipv6⟩ ∧
    Backed entries r.name ⟨r.kind, r.ipv4, r.ipv6⟩ ∧
    ∀ later, .ok later ∈ after → (snapshot later).get? r.name = none

/-- Whatever the threads do, a resolve returns what one scan of the newest
completed refresh reported, with a usable IPv4 address, and a refresh that
raises leaves the records as they were when it began. -/
theorem resolve_fresh (config : Config) :
    (∀ past s probe selection purpose currentName preferVpn r,
      Run (byStep (step config)) .init past s →
      resolve s.records probe selection purpose currentName preferVpn = .ok r →
      r.ipv4.any isUsableIpv4 = true ∧ ∃ scans, lastCompleted past = some scans ∧ Reported scans r) ∧
    ∀ past s₀ s thread delays middle now t, Run (byStep (step config)) .init past s₀ →
      Run (byStep (step config)) s₀ (middle ++ [.begins thread delays]) s →
      (∀ now, .ends thread now ∉ middle) → step config s (.ends thread now) = some t →
      (∃ e, scanFailure (scansOf thread middle) = some e) → t.records = s₀.records := by
  constructor
  · intro past s probe selection purpose currentName preferVpn r run chosen
    obtain ⟨record, found, fit, shape⟩ := resolve_candidate chosen
    rw [candidate, Record.present] at fit
    simp only [Bool.and_eq_true, decide_eq_true_iff] at fit
    obtain ⟨scans, completed, seen⟩ := (consistent_run run).fresh _ _ found fit.1.2
    obtain ⟨before, entries, after, split_, here, none_after⟩ := mergeScans_last seen
    have same : record.toSighting = ⟨r.kind, r.ipv4, r.ipv6⟩ := by rw [shape]; rfl
    rw [same] at here
    have backed := snapshot_backed here
    refine ⟨?_, scans, completed, before, entries, after, split_, here, backed, none_after⟩
    obtain ⟨a, address⟩ := Option.isSome_iff_exists.mp fit.2
    rw [show r.ipv4 = some a by rw [shape]; exact address]
    exact (backed.ipv4 a (by rw [shape]; exact address)).1
  · intro past s₀ s thread delays middle now t _ run going ended raised
    obtain ⟨s₁, began, inside⟩ := run.split
    obtain _ | ⟨_ | _, began⟩ := began
    obtain ⟨same, left, holding⟩ : s.records = s₀.records ∧
        ∃ left, s.refreshing = some ⟨thread, left, scansOf thread middle⟩ := by
      cases step_moves began with
      | begins free =>
        have unchanged := held_records inside rfl going
        exact unchanged
    cases step_moves ended with
    | ends busy =>
      cases Option.some.inj (busy.symm.trans holding)
      obtain ⟨e, raised⟩ := raised
      rw [← same]
      simp [refreshed, refresh, raised]

/-- Two scans of one refresh report an address, and the later one resolves; a
refresh whose only scan fails changes nothing. -/
theorem resolve_fresh_after_rescan :
    (∃ past s r, Run (byStep (step {})) .init past s ∧
      resolve s.records (fun _ => true) en0.name .outbound none true = .ok r ∧
      ∃ scans, lastCompleted past = some scans ∧ Reported scans r) ∧
    ∃ s t, step {} s (.ends 0 1) = some t ∧ t.records = Registry.init.records := by
  constructor
  · obtain ⟨s, r, replayed, chosen⟩ : ∃ s r, replay (step {}) .init [.begins 0 [0, 1 / 2],
        .scans 0 (.ok [⟨en0.name, some ⟨.inet, "192.168.1.3".toList⟩⟩]), .scans 0 (.ok [en0]),
        .ends 0 1] = some s ∧
        resolve s.records (fun _ => true) en0.name .outbound none true = .ok r := ⟨_, _, rfl, rfl⟩
    have run := Run.of_replay replayed
    exact ⟨_, s, r, run, chosen, ((resolve_fresh {}).1 _ s _ _ _ _ _ r run chosen).2⟩
  · let failing : Scan := .error "getifaddrs failed".toList
    obtain ⟨s, t, replayed, ended⟩ : ∃ s t, replay (step {}) .init [.begins 0 [0], .scans 0 failing] =
        some s ∧ step {} s (.ends 0 1) = some t := ⟨_, _, rfl, rfl⟩
    exact ⟨s, t, ended, (resolve_fresh {}).2 [] .init s 0 [0] [.scans 0 failing] 1 t .start
      (Run.of_replay replayed) (by simp) ended ⟨_, rfl⟩⟩

end HttpSocksProxy.Interfaces
