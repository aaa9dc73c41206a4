import Mathlib.Data.List.Perm.Basic
import HttpSocksProxy.Foundation.Transition
import HttpSocksProxy.Stable.Interfaces

/-! `StableProxyUIView`: its buttons, the operations that its background threads carry
out, and their completions, which the main thread runs in any order with the taps. -/
namespace HttpSocksProxy.Panel
open Interfaces

/-- `InterfaceRecord.display`. -/
def display (name : Str) (r : Record) : Str :=
  if r.available ∧ r.missCount = 0 then
    name ++ " — ".toList ++ r.kind.text ++ " — ".toList ++
      ((r.ipv4.orElse fun _ => r.ipv6).getD "present; waiting for IPv4".toList)
  else name ++ " — ".toList ++ r.kind.text ++ " — temporarily unavailable".toList

/-- `InterfaceRegistry.options`: labels and the selections they stand for. A selection
without a record is listed last. -/
def options (records : Records) (now : ℚ) (selected : Str) : List (Str × Str) :=
  let known := listed records
  let shown :=
    if selected ≠ [] ∧ selected ≠ auto ∧ !known.any (·.1 = selected) then
      known ++ [(selected,
        { kind := classifyInterface selected, available := false, lastSeen := now })]
    else known
  (auto, auto) :: shown.map fun e => (display e.1 e.2, e.1)

/-- The selection behind the label that was tapped, `options[labels.index(choice)][1]`. -/
def choose (options : List (Str × Str)) (choice : Str) : Option Str := (options.find? (·.1 = choice)).map Prod.snd

inductive Operation where
  | refreshInterfaces
  | start
  | stop
  deriving DecidableEq, Repr

inductive Completion where
  | interfacesRefreshed
  | started
  | stopped
  | exited
  deriving DecidableEq, Repr

/-- Whether the result is `False`, and the text of what was raised. -/
structure Outcome where
  isFalse : Bool
  error : Option String
  deriving DecidableEq, Repr

/-- A background thread: whether it has called its operation, and the outcome that its
completion waits to be given. -/
structure Worker where
  operation : Operation
  completion : Completion
  called : Bool := false
  outcome : Option Outcome := none
  deriving DecidableEq, Repr

/-- Which buttons are enabled. -/
structure Buttons where
  start : Bool
  recover : Bool
  refresh : Bool
  proxy : Bool
  outbound : Bool
  exit : Bool
  deriving DecidableEq, Repr

/-- What the view reads of its manager. -/
structure Manager where
  running : Bool
  proxySelection : Str
  outboundSelection : Str
  deriving DecidableEq, Repr

structure View where
  manager : Manager
  proxySelection : Str
  outboundSelection : Str
  busy : Bool
  refreshing : Bool
  enabled : Buttons
  startTitle : String
  refreshTitle : String
  closed : Bool
  workers : List Worker
  deriving DecidableEq, Repr

inductive Output where
  | alert (title text : String)
  | recover
  | setProxySelection (selection : Str)
  | setOutboundSelection (selection : Str)
  | refreshInterfaces
  | start (proxy outbound : Str)
  | stop
  | close
  deriving DecidableEq, Repr

inductive Event where
  | managed (manager : Manager)
  | called (worker : Nat)
  | finished (worker : Nat) (outcome : Outcome)
  | completed (worker : Nat)
  | toggle
  | recover (raised : Option String)
  | refresh
  | exit
  | chooseProxy (records : Records) (now : ℚ) (choice : Option Str)
  | chooseOutbound (records : Records) (now : ℚ) (choice : Option Str)
  | update
  | leave

namespace View

/-- `_run_background`. -/
def runBackground (operation : Operation) (completion : Completion) (v : View) : View :=
  { v with workers := v.workers ++ [{ operation, completion }] }

def init (manager : Manager) : View :=
  runBackground .refreshInterfaces .interfacesRefreshed
    { manager := manager
      proxySelection := if manager.proxySelection = [] then auto else manager.proxySelection
      outboundSelection := if manager.outboundSelection = [] then auto else manager.outboundSelection
      busy := false
      refreshing := true
      enabled := { start := true, recover := true, refresh := false, proxy := true, outbound := true, exit := true }
      startTitle := "Start"
      refreshTitle := "Refreshing…"
      closed := false
      workers := [] }

def setBusy (busy : Bool) (title : Option String) (v : View) : View :=
  { v with
    busy := busy
    enabled :=
      { start := !busy, recover := !busy
        refresh := if !busy && v.refreshing then false else !busy
        proxy := !busy, outbound := !busy, exit := !busy }
    startTitle := title.getD v.startTitle }

/-- `update`, as far as it changes what the buttons say and do. -/
def update (v : View) : View :=
  let v := { v with proxySelection := v.manager.proxySelection, outboundSelection := v.manager.outboundSelection }
  if v.busy then v else { v with startTitle := if v.manager.running then "Stop" else "Start" }

def refresh (v : View) : View :=
  if v.busy ∨ v.refreshing then v
  else
    runBackground .refreshInterfaces .interfacesRefreshed
      { v with refreshing := true, enabled := { v.enabled with refresh := false }, refreshTitle := "Refreshing…" }

def interfacesRefreshed (outcome : Outcome) (v : View) : List Output × View :=
  let v :=
    { v with refreshing := false, enabled := { v.enabled with refresh := !v.busy }, refreshTitle := "Refresh Interfaces" }
  match outcome.error with
  | some error => ([.alert "Refresh failed" error], v)
  | none =>
    ([], { v with proxySelection := v.manager.proxySelection, outboundSelection := v.manager.outboundSelection })

def toggle (v : View) : View :=
  if v.busy then v
  else if v.manager.running then runBackground .stop .stopped (v.setBusy true "Stopping…")
  else runBackground .start .started (v.setBusy true "Starting…")

/-- What a thread calls of the manager; a start takes the selections as it finds them. -/
def call (v : View) : Operation → Output
  | .refreshInterfaces => .refreshInterfaces
  | .start => .start v.proxySelection v.outboundSelection
  | .stop => .stop

def started (outcome : Outcome) (v : View) : List Output × View :=
  let v := v.setBusy false none
  match outcome.error with
  | some error => ([.alert "Stable Mode could not start" error], v.update)
  | none => ([], v.update)

/-- The text of an alert about a stop that failed. -/
def Outcome.failure (outcome : Outcome) : Option String :=
  match outcome.error with
  | some error => some error
  | none => if outcome.isFalse then some "Proxy shutdown timed out" else none

def stopped (outcome : Outcome) (v : View) : List Output × View :=
  let v := v.setBusy false none
  match Outcome.failure outcome with
  | some text => ([.alert "Stop failed" text], v.update)
  | none => ([], v.update)

def close (v : View) : List Output × View := ([.close], { v with closed := true })

def exit (v : View) : List Output × View :=
  if v.busy then ([], v)
  else if v.manager.running then ([], runBackground .stop .exited (v.setBusy true "Stopping…"))
  else v.close

def exited (outcome : Outcome) (v : View) : List Output × View :=
  match Outcome.failure outcome with
  | some text => ([.alert "Exit failed" text], (v.setBusy false none).update)
  | none => v.close

def recover (raised : Option String) (v : View) : List Output :=
  if !v.manager.running then [.alert "Recover" "Start Stable Mode first."]
  else match raised with
    | some error => [.alert "Recover failed" error]
    | none => [.recover]

def complete (completion : Completion) (outcome : Outcome) (v : View) : List Output × View :=
  match completion with
  | .interfacesRefreshed => v.interfacesRefreshed outcome
  | .started => v.started outcome
  | .stopped => v.stopped outcome
  | .exited => v.exited outcome

/-- `selection or AUTO`. -/
def orAuto (selection : Str) : Str := if selection = [] then auto else selection

def selectProxy (selection : Str) (v : View) : List Output × View :=
  ([.setProxySelection selection],
    { v with manager := { v.manager with proxySelection := orAuto selection }, proxySelection := orAuto selection })

def selectOutbound (selection : Str) (v : View) : List Output × View :=
  ([.setOutboundSelection selection],
    { v with
      manager := { v.manager with outboundSelection := orAuto selection }, outboundSelection := orAuto selection })

end View

/-- One event on the main thread, or of a thread. A view that is closed is not tapped
any more. -/
def step (v : View) : Event → Option (List Output × View)
  | .managed manager => some ([], { v with manager := manager })
  | .called k =>
    match v.workers[k]? with
    | some worker =>
      if worker.called then none
      else some ([v.call worker.operation], { v with workers := v.workers.set k { worker with called := true } })
    | none => none
  | .finished k outcome =>
    match v.workers[k]? with
    | some worker =>
      if worker.called ∧ worker.outcome.isNone then
        some ([], { v with workers := v.workers.set k { worker with outcome := some outcome } })
      else none
    | none => none
  | .completed k =>
    match v.workers[k]? with
    | some ⟨_, completion, _, some outcome⟩ =>
      some ({ v with workers := v.workers.eraseIdx k }.complete completion outcome)
    | _ => none
  | .leave => some ([], { v with closed := true })
  | e =>
    if v.closed then none
    else match e with
      | .toggle => some ([], v.toggle)
      | .recover raised => some (v.recover raised, v)
      | .refresh => some ([], v.refresh)
      | .exit => some v.exit
      | .chooseProxy records now (some choice) =>
        (choose (options records now v.proxySelection) choice).map v.selectProxy
      | .chooseOutbound records now (some choice) =>
        (choose (options records now v.outboundSelection) choice).map v.selectOutbound
      | .update => some ([], v.update)
      | _ => some ([], v)

/-- The manager is being started or stopped. -/
def Worker.lifecycle (w : Worker) : Bool := w.operation ≠ .refreshInterfaces

def Worker.refreshes (w : Worker) : Bool := w.operation = .refreshInterfaces

/-- What the start button says meanwhile. -/
def Operation.title : Operation → String
  | .start => "Starting…"
  | _ => "Stopping…"

/-- Each operation has its own completion. -/
def Worker.Fits (w : Worker) : Prop :=
  match w.operation with
  | .refreshInterfaces => w.completion = .interfacesRefreshed
  | .start => w.completion = .started
  | .stop => w.completion = .stopped ∨ w.completion = .exited

/-- What the flags and the buttons say of the threads that are under way. -/
structure Inv (v : View) : Prop where
  fitting : ∀ w ∈ v.workers, w.Fits
  once : v.workers.countP Worker.lifecycle ≤ v.busy.toNat
  settled : v.busy = true → v.closed = false → v.workers.countP Worker.lifecycle = 1
  refreshes : v.workers.countP Worker.refreshes = v.refreshing.toNat
  controls : v.enabled = ⟨!v.busy, !v.busy, !v.busy && !v.refreshing, !v.busy, !v.busy, !v.busy⟩
  refreshTitle : v.refreshTitle = if v.refreshing then "Refreshing…" else "Refresh Interfaces"
  startTitle : ∀ w ∈ v.workers, w.lifecycle = true → v.startTitle = w.operation.title

section Workers
variable {workers : List Worker} {w : Worker} {p : Worker → Bool}

theorem countP_eraseIdx (found : workers[k]? = some w) :
    workers.countP p = (workers.eraseIdx k).countP p + if p w then 1 else 0 := by
  obtain ⟨inside, rfl⟩ := List.getElem?_eq_some_iff.mp found
  rw [← (List.getElem_cons_eraseIdx_perm inside).countP_eq, List.countP_cons]

theorem countP_set (found : workers[k]? = some w) (same : p w' = p w) :
    (workers.set k w').countP p = workers.countP p := by
  obtain ⟨inside, _⟩ := List.getElem?_eq_some_iff.mp found
  rw [countP_eraseIdx found, (List.set_perm_cons_eraseIdx inside w').countP_eq, List.countP_cons, same]

theorem countP_append (w : Worker) :
    (workers ++ [w]).countP p = workers.countP p + if p w then 1 else 0 := by
  rw [List.countP_append, List.countP_singleton]

theorem none_of_countP (none : workers.countP p = 0) : ∀ w ∈ workers, p w = false := by
  intro w member
  exact Bool.eq_false_of_not_eq_true (List.countP_eq_zero.mp none w member)

end Workers

variable {v : View}

theorem inv_init (manager : Manager) : Inv (.init manager) where
  fitting := fun w member => by
    obtain rfl := List.mem_singleton.mp member
    rfl
  once := Nat.le_refl 0
  settled := fun busy => absurd busy Bool.false_ne_true
  refreshes := rfl
  controls := rfl
  refreshTitle := rfl
  startTitle := fun w member lifecycle => by
    obtain rfl := List.mem_singleton.mp member
    cases lifecycle

theorem Inv.idle (inv : Inv v) (idle : v.busy = false) : ∀ w ∈ v.workers, w.lifecycle = false := by
  have once := inv.once
  rw [idle] at once
  exact none_of_countP (Nat.le_zero.mp once)

/-- The selections and what the manager says do not matter. -/
theorem Inv.selected (inv : Inv v) (manager : Manager) (proxy outbound : Str) :
    Inv { v with manager := manager, proxySelection := proxy, outboundSelection := outbound } :=
  ⟨inv.fitting, inv.once, inv.settled, inv.refreshes, inv.controls, inv.refreshTitle, inv.startTitle⟩

theorem Inv.update (inv : Inv v) : Inv v.update := by
  simp only [View.update]
  split
  case isTrue => exact inv.selected _ _ _
  case isFalse idle =>
    refine ⟨inv.fitting, inv.once, inv.settled, inv.refreshes, inv.controls, inv.refreshTitle, fun w member lifecycle => ?_⟩
    rw [inv.idle (Bool.eq_false_of_not_eq_true idle) w member] at lifecycle
    cases lifecycle

theorem Inv.refresh (inv : Inv v) : Inv v.refresh := by
  simp only [View.refresh]
  split
  case isTrue => exact inv
  case isFalse free =>
    rw [not_or, Bool.not_eq_true, Bool.not_eq_true] at free
    obtain ⟨idle, still⟩ := free
    have quiet := inv.idle idle
    refine ⟨fun w member => ?_, ?_, ?_, ?_, ?_, rfl, fun w member lifecycle => ?_⟩
    · rcases List.mem_append.mp member with old | new
      · exact inv.fitting w old
      · obtain rfl := List.mem_singleton.mp new
        rfl
    · simp only [View.runBackground, countP_append]
      exact inv.once
    · intro busy
      cases idle.symm.trans busy
    · simp only [View.runBackground, countP_append, inv.refreshes, still]
      rfl
    · simp only [View.runBackground, inv.controls, idle, still, Bool.not_true, Bool.and_false]
    · rcases List.mem_append.mp member with old | new
      · rw [quiet w old] at lifecycle
        cases lifecycle
      · obtain rfl := List.mem_singleton.mp new
        cases lifecycle

/-- The manager is started or stopped, and the buttons are disabled. -/
theorem Inv.begins (inv : Inv v) (idle : v.busy = false) (operation : Operation) (completion : Completion)
    (manages : operation ≠ .refreshInterfaces) (fits : Worker.Fits { operation, completion }) :
    Inv (View.runBackground operation completion (v.setBusy true operation.title)) := by
  have quiet := inv.idle idle
  have lifecycle : Worker.lifecycle { operation, completion } = true := decide_eq_true manages
  have fresh : Worker.refreshes { operation, completion } = false := decide_eq_false manages
  have zero : v.workers.countP Worker.lifecycle = 0 := List.countP_eq_zero.mpr fun w member => by simp [quiet w member]
  have one : (v.workers ++ [({ operation, completion } : Worker)]).countP Worker.lifecycle = 1 := by
    rw [countP_append, zero, lifecycle]
    rfl
  refine ⟨fun w member => ?_, one.le, fun _ _ => one, ?_, rfl, inv.refreshTitle, fun w member manages => ?_⟩
  · rcases List.mem_append.mp member with old | new
    · exact inv.fitting w old
    · exact List.mem_singleton.mp new ▸ fits
  · simp only [View.runBackground, View.setBusy, countP_append, inv.refreshes, fresh]
    rfl
  · rcases List.mem_append.mp member with old | new
    · rw [quiet w old] at manages
      cases manages
    · obtain rfl := List.mem_singleton.mp new
      rfl

theorem Inv.toggle (inv : Inv v) : Inv v.toggle := by
  simp only [View.toggle]
  split
  case isTrue => exact inv
  case isFalse busy =>
    have idle := Bool.eq_false_of_not_eq_true busy
    split
    · exact inv.begins idle .stop .stopped (by decide) (.inl rfl)
    · exact inv.begins idle .start .started (by decide) rfl

theorem Inv.close (inv : Inv v) : Inv v.close.2 :=
  ⟨inv.fitting, inv.once, fun _ shown => (by cases shown), inv.refreshes, inv.controls, inv.refreshTitle, inv.startTitle⟩

theorem Inv.exit (inv : Inv v) : Inv v.exit.2 := by
  simp only [View.exit]
  split
  case isTrue => exact inv
  case isFalse busy =>
    split
    · exact inv.begins (Bool.eq_false_of_not_eq_true busy) .stop .exited (by decide) (.inr rfl)
    · exact inv.close

/-- The manager has been started or stopped. -/
theorem Inv.ends (inv : Inv v) (found : v.workers[k]? = some w) (lifecycle : w.lifecycle = true) :
    Inv (View.setBusy false none { v with workers := v.workers.eraseIdx k }) := by
  have kept : w.refreshes = false := by
    simpa [Worker.lifecycle, Worker.refreshes] using lifecycle
  have left := countP_eraseIdx (p := Worker.lifecycle) found
  have same := countP_eraseIdx (p := Worker.refreshes) found
  rw [if_pos lifecycle] at left
  rw [kept, if_neg Bool.false_ne_true, Nat.add_zero] at same
  have once := inv.once
  have zero : (v.workers.eraseIdx k).countP Worker.lifecycle = 0 := by
    have := Bool.toNat_le v.busy
    omega
  refine ⟨fun w member => inv.fitting w (List.mem_of_mem_eraseIdx member), zero.le, fun busy => (by cases busy),
    same.symm.trans inv.refreshes, ?_, inv.refreshTitle, fun w member manages => ?_⟩
  · cases v.refreshing <;> simp [View.setBusy]
  · rw [none_of_countP zero w member] at manages
    cases manages

theorem Inv.exits (inv : Inv v) (found : v.workers[k]? = some w) (lifecycle : w.lifecycle = true) :
    Inv (View.close { v with workers := v.workers.eraseIdx k }).2 := by
  have kept : w.refreshes = false := by
    simpa [Worker.lifecycle, Worker.refreshes] using lifecycle
  have left := countP_eraseIdx (p := Worker.lifecycle) found
  have same := countP_eraseIdx (p := Worker.refreshes) found
  rw [kept, if_neg Bool.false_ne_true, Nat.add_zero] at same
  refine ⟨fun w member => inv.fitting w (List.mem_of_mem_eraseIdx member), ?_, fun _ shown => (by cases shown),
    same.symm.trans inv.refreshes, inv.controls, inv.refreshTitle,
    fun w member => inv.startTitle w (List.mem_of_mem_eraseIdx member)⟩
  exact Nat.le_trans (left ▸ Nat.le_add_right _ _) inv.once

theorem Inv.interfacesRefreshed (inv : Inv v) (found : v.workers[k]? = some w) (refreshes : w.refreshes = true)
    (outcome : Outcome) : Inv (View.interfacesRefreshed outcome { v with workers := v.workers.eraseIdx k }).2 := by
  have kept : w.lifecycle = false := by
    simpa [Worker.lifecycle, Worker.refreshes] using refreshes
  have same := countP_eraseIdx (p := Worker.lifecycle) found
  have left := countP_eraseIdx (p := Worker.refreshes) found
  rw [kept, if_neg Bool.false_ne_true, Nat.add_zero] at same
  rw [if_pos refreshes, inv.refreshes] at left
  have zero : (v.workers.eraseIdx k).countP Worker.refreshes = 0 := by
    have := Bool.toNat_le v.refreshing
    omega
  have controls : ({ v.enabled with refresh := !v.busy } : Buttons) =
      ⟨!v.busy, !v.busy, !v.busy && !false, !v.busy, !v.busy, !v.busy⟩ := by
    rw [inv.controls, Bool.not_false, Bool.and_true]
  have once := inv.once
  have settled := inv.settled
  rw [same] at once settled
  simp only [View.interfacesRefreshed]
  split
  all_goals exact ⟨fun w member => inv.fitting w (List.mem_of_mem_eraseIdx member), once, settled, zero, controls, rfl,
    fun w member => inv.startTitle w (List.mem_of_mem_eraseIdx member)⟩

theorem Inv.complete (inv : Inv v) (found : v.workers[k]? = some ⟨operation, completion, called, some outcome⟩) :
    Inv (View.complete completion outcome { v with workers := v.workers.eraseIdx k }).2 := by
  have fits := inv.fitting _ (List.mem_of_getElem? found)
  cases operation with
  | refreshInterfaces =>
    obtain rfl : completion = .interfacesRefreshed := fits
    exact inv.interfacesRefreshed found rfl outcome
  | start =>
    obtain rfl : completion = .started := fits
    have ended := (inv.ends found rfl).update
    simp only [View.complete, View.started]
    split <;> exact ended
  | stop =>
    have ended := (inv.ends found rfl).update
    obtain rfl | rfl : completion = .stopped ∨ completion = .exited := fits
    · simp only [View.complete, View.stopped]
      split <;> exact ended
    · simp only [View.complete, View.exited]
      split
      · exact ended
      · exact inv.exits found rfl

/-- How far a thread has come does not matter. -/
theorem Inv.proceeds (inv : Inv v) (found : v.workers[k]? = some w) (called : Bool) (outcome : Option Outcome) :
    Inv { v with workers := v.workers.set k { w with called := called, outcome := outcome } } := by
  have same (p : Worker → Bool) (blind : p { w with called := called, outcome := outcome } = p w) :
      (v.workers.set k { w with called := called, outcome := outcome }).countP p = v.workers.countP p :=
    countP_set found blind
  have old {P : Worker → Prop} (all : ∀ w ∈ v.workers, P w)
      (blind : P w → P { w with called := called, outcome := outcome }) :
      ∀ w' ∈ v.workers.set k { w with called := called, outcome := outcome }, P w' := by
    intro w' member
    rcases List.mem_or_eq_of_mem_set member with old | rfl
    · exact all w' old
    · exact blind (all w (List.mem_of_getElem? found))
  refine ⟨old inv.fitting id, ?_, ?_, ?_, inv.controls, inv.refreshTitle, old inv.startTitle id⟩
  · exact (same _ rfl).trans_le inv.once
  · exact fun busy shown => (same _ rfl).trans (inv.settled busy shown)
  · exact (same _ rfl).trans inv.refreshes

theorem inv_step {t : View} (inv : Inv v) (stepped : step v e = some (o, t)) : Inv t := by
  unfold step at stepped
  split at stepped
  case h_1 => cases stepped; exact inv.selected _ _ _
  case h_2 k =>
    split at stepped
    case h_1 found =>
      split at stepped
      case isTrue => cases stepped
      case isFalse => cases stepped; exact inv.proceeds found true _
    case h_2 => cases stepped
  case h_3 k outcome =>
    split at stepped
    case h_1 found =>
      split at stepped
      case isTrue => cases stepped; exact inv.proceeds found _ (some outcome)
      case isFalse => cases stepped
    case h_2 => cases stepped
  case h_4 k =>
    split at stepped
    case h_1 found =>
      have completed := inv.complete found
      rw [Option.some.inj stepped] at completed
      exact completed
    case h_2 => cases stepped
  case h_5 => cases stepped; exact inv.close
  case h_6 =>
    split_ifs at stepped
    split at stepped
    case h_1 => cases stepped; exact inv.toggle
    case h_2 => cases stepped; exact inv
    case h_3 => cases stepped; exact inv.refresh
    case h_4 =>
      have exited := inv.exit
      rw [Option.some.inj stepped] at exited
      exact exited
    case h_5 =>
      obtain ⟨selection, _, chosen⟩ := Option.map_eq_some_iff.mp stepped
      cases chosen
      exact inv.selected _ _ _
    case h_6 =>
      obtain ⟨selection, _, chosen⟩ := Option.map_eq_some_iff.mp stepped
      cases chosen
      exact inv.selected _ _ _
    case h_7 => cases stepped; exact inv.update
    case h_8 => cases stepped; exact inv

/-- In any order of taps, updates and threads, the manager is started or stopped by one
thread at a time and its interfaces are refreshed by one, the flags say which are under
way, and the buttons are enabled and named accordingly. -/
theorem panel_consistent (manager : Manager)
    (run : Transition.Run (Transition.byOutput step) (.init manager) past v) : Inv v :=
  run.invariant (inv_init manager) inv_step

theorem panel_consistent_exit : ∃ past v,
    Transition.Run (Transition.byOutput step) (.init ⟨true, auto, auto⟩) past v ∧ v.workers.length = 2 ∧ Inv v := by
  have played : (Transition.execute step (fun _ e o => (e, o)) (.init ⟨true, auto, auto⟩)
      [.exit, .toggle, .refresh]).map (·.2.workers.length) = some 2 := by decide +kernel
  obtain ⟨⟨past, v⟩, played, two⟩ := Option.map_eq_some_iff.mp played
  have run := Transition.Run.of_outputs played
  exact ⟨past, v, run, two, panel_consistent _ run⟩

/-- The dash between the parts of a label, which no interface name has. -/
def dash : Char := '—'

theorem display_name (plain : dash ∉ name) (r : Record) :
    (display name r).takeWhile (· ≠ dash) = name ++ [' '] ∧ dash ∈ display name r := by
  have starts : ∃ rest, display name r = name ++ " — ".toList ++ rest := by
    unfold display
    split
    · refine ⟨r.kind.text ++ " — ".toList ++
        (r.ipv4.orElse fun _ => r.ipv6).getD "present; waiting for IPv4".toList, ?_⟩
      simp only [List.append_assoc]
    · refine ⟨r.kind.text ++ " — temporarily unavailable".toList, ?_⟩
      simp only [List.append_assoc]
  obtain ⟨rest, starts⟩ := starts
  have whole : name ++ " — ".toList ++ rest = (name ++ [' ']) ++ dash :: (' ' :: rest) := by
    simp [dash]
  rw [starts, whole]
  constructor
  · rw [List.takeWhile_append_of_pos]
    · simp
    · intro c member
      simp only [ne_eq, decide_eq_true_iff]
      rintro rfl
      rcases List.mem_append.mp member with inside | blank
      · exact plain inside
      · simp [dash] at blank
  · exact List.mem_append_right _ List.mem_cons_self

/-- Every label but the first is that of an interface. -/
theorem options_entry {records : Records} (plain : ∀ name r, records.get? name = some r → dash ∉ name)
    (selected : dash ∉ current) (listedHere : (label, value) ∈ options records now current) :
    label = auto ∧ value = auto ∨ dash ∉ value ∧ ∃ r, label = display value r := by
  have known {e : Str × Record} (member : e ∈ listed records) : dash ∉ e.1 := plain e.1 e.2 (mem_listed.mp member)
  rcases List.mem_cons.mp listedHere with first | shown
  · exact .inl ⟨congrArg Prod.fst first, congrArg Prod.snd first⟩
  · obtain ⟨⟨name, r⟩, member, same⟩ := List.mem_map.mp shown
    cases same
    refine .inr ⟨?_, r, rfl⟩
    split at member
    · rcases List.mem_append.mp member with old | new
      · exact known old
      · cases List.mem_singleton.mp new
        exact selected
    · exact known member

/-- A label stands for one selection. -/
theorem label_unique {records : Records} (plain : ∀ name r, records.get? name = some r → dash ∉ name)
    (selected : dash ∉ current) (first : (label, a) ∈ options records now current)
    (second : (label, b) ∈ options records now current) : a = b := by
  have undashed : dash ∉ auto := by decide
  rcases options_entry plain selected first with ⟨rfl, rfl⟩ | ⟨plainA, r, shownA⟩
  · rcases options_entry plain selected second with ⟨_, rfl⟩ | ⟨plainB, r, shownB⟩
    · rfl
    · exact absurd (shownB ▸ (display_name plainB r).2) undashed
  · rcases options_entry plain selected second with ⟨rfl, rfl⟩ | ⟨plainB, r', shownB⟩
    · exact absurd (shownA ▸ (display_name plainA r).2) undashed
    · have same := (display_name plainA r).1.symm.trans (shownA ▸ shownB ▸ (display_name plainB r').1)
      exact List.append_left_injective _ same

/-- Tapping a label of the list selects what it stands for. -/
theorem choose_tapped {records : Records} (plain : ∀ name r, records.get? name = some r → dash ∉ name)
    (selected : dash ∉ current) (tapped : (label, value) ∈ options records now current) :
    choose (options records now current) label = some value := by
  cases found : (options records now current).find? (·.1 = label) with
  | none => simpa using List.find?_eq_none.mp found _ tapped
  | some e =>
    obtain ⟨label', value'⟩ := e
    have same : label' = label := by simpa using List.find?_some found
    subst same
    rw [choose, found, Option.map_some, label_unique plain selected (List.mem_of_find?_eq_some found) tapped]

/-- The selection that an open view makes is the one whose label was tapped. -/
theorem choice_selects {records : Records} (plain : ∀ name r, records.get? name = some r → dash ∉ name)
    (shown : v.closed = false) :
    (∀ label value, dash ∉ v.proxySelection → (label, value) ∈ options records now v.proxySelection →
      step v (.chooseProxy records now (some label)) = some (v.selectProxy value)) ∧
    ∀ label value, dash ∉ v.outboundSelection → (label, value) ∈ options records now v.outboundSelection →
      step v (.chooseOutbound records now (some label)) = some (v.selectOutbound value) := by
  constructor
  · intro label value selected tapped
    simp only [step, shown, Bool.false_eq_true, if_false, choose_tapped plain selected tapped, Option.map_some]
  · intro label value selected tapped
    simp only [step, shown, Bool.false_eq_true, if_false, choose_tapped plain selected tapped, Option.map_some]

def wifi : Records := OrderedDict.empty.set "en0".toList { kind := .localLink, lastSeen := 0 }

/-- The bridge that was selected is gone, and is still listed. -/
theorem choice_selects_bridge :
    let v := View.init ⟨false, "bridge100".toList, auto⟩
    let label := "bridge100 — Personal Hotspot / bridge — temporarily unavailable".toList
    step v (.chooseProxy wifi 0 (some label)) = some (v.selectProxy "bridge100".toList) := by
  have plain : ∀ name r, wifi.get? name = some r → dash ∉ name := by
    intro name r found
    simp only [wifi, OrderedDict.get?_set, OrderedDict.get?_empty] at found
    split at found
    case isTrue same => subst same; decide
    case isFalse => cases found
  exact (choice_selects plain rfl).1 _ _ (by decide) (by decide +kernel)

end HttpSocksProxy.Panel
