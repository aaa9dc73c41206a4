import HttpSocksProxy.Foundation.Transition
import HttpSocksProxy.Server.Resolve

/-! Listener supervision of Stable Mode. One round of `_health_monitor` sees
the probes of the round, those of its confirmation attempts and the structural
health as inputs; a run is a sequence of rounds. -/
namespace HttpSocksProxy.Health
open Transition

inductive Listener where
  | socks
  | http
  | wpad
  deriving DecidableEq, Repr

namespace Listener

def name : Listener → Str
  | socks => "SOCKS listener".toList
  | http => "HTTP listener".toList
  | wpad => "WPAD listener".toList

/-- The order in which the dictionaries of results list the listeners. -/
def all : List Listener := [socks, http, wpad]

@[simp] theorem mem_all (l : Listener) : l ∈ all := by cases l <;> decide

end Listener

structure Probe where
  okay : Bool
  detail : Str
  deriving DecidableEq, Repr

/-- `_listener_health_detailed`. -/
abbrev Detailed := Listener → Probe

def allOkay (detailed : Detailed) : Bool := Listener.all.all fun l => (detailed l).okay

def failed (detailed : Detailed) : List Listener := Listener.all.filter fun l => !(detailed l).okay

theorem mem_failed {detailed : Detailed} : l ∈ failed detailed ↔ (detailed l).okay = false := by
  simp [failed]

theorem allOkay_eq_false {detailed : Detailed} :
    allOkay detailed = false ↔ ∃ l, (detailed l).okay = false := by
  simp [allOkay]

def commaList (parts : List Str) : Str := (", ".toList).intercalate parts

/-- `_format_health_failures`. -/
def formatHealthFailures (detailed : Detailed) : Str :=
  match (failed detailed).map fun l => l.name ++ " (".toList ++ (detailed l).detail ++ ")".toList with
  | [] => "none".toList
  | parts => commaList parts

/-- The fields of `StableConfig` that `_health_monitor` reads. -/
structure Config where
  healthFailuresBeforeRecovery : Int := 2
  healthConfirmationAttempts : Int := 3
  backgroundLiteMode : Bool := true

def Config.attempts (config : Config) : Nat := (max 1 config.healthConfirmationAttempts).toNat

def Config.threshold (config : Config) : Nat := (max 1 config.healthFailuresBeforeRecovery).toNat

theorem Config.attempts_pos (config : Config) : 0 < config.attempts := by
  simp only [attempts]
  omega

theorem Config.threshold_pos (config : Config) : 0 < config.threshold := by
  simp only [threshold]
  omega

structure Round where
  backgrounded : Bool
  probed : Detailed
  confirmation : Nat → Detailed
  structural : Listener → Bool

/-- The loop of `_confirm_listener_health` from one attempt, with the number of
attempts that may follow it. -/
def confirmFrom (probes : Nat → Detailed) (attempt : Nat) : Nat → Detailed
  | 0 => probes attempt
  | later + 1 =>
    if allOkay (probes attempt) then probes attempt else confirmFrom probes (attempt + 1) later

def confirmListenerHealth (config : Config) (probes : Nat → Detailed) : Detailed :=
  confirmFrom probes 0 (config.attempts - 1)

inductive Severity where
  | info
  | warning
  deriving DecidableEq, Repr

inductive Verdict where
  | recovered
  | degraded
  | recovery (reason : Str)
  deriving DecidableEq, Repr

/-- What `_health_monitor` concludes from the last confirmation attempt. -/
def judge (structural : Listener → Bool) (confirmed : Detailed) : Verdict :=
  if allOkay confirmed then .recovered
  else
    let persistent := failed confirmed
    let structurallyDead := persistent.filter (!structural ·)
    if structurallyDead ≠ [] then
      .recovery ("listener structurally unavailable after confirmation: ".toList ++
        commaList (structurallyDead.map Listener.name))
    else if persistent.length = Listener.all.length ∧ Listener.all.all structural then .degraded
    else .recovery ("confirmed listener health failure: ".toList ++ formatHealthFailures confirmed)

/-- How one round ends. -/
inductive Outcome where
  | paused
  | healthy
  | warned
  | suppressed
  | recovery (reason : Str)
  deriving DecidableEq, Repr

structure Watch where
  failures : Nat := 0
  warned : Bool := false
  deriving DecidableEq, Repr

structure Report where
  outcome : Outcome
  events : List (Severity × Str)
  next : Watch

def paused (config : Config) (backgrounded : Bool) : Bool := config.backgroundLiteMode && backgrounded

/-- Whether a failing round goes on to the confirmation attempts. -/
def reached (config : Config) (failures : Nat) : Bool :=
  config.healthFailuresBeforeRecovery ≤ failures

def warning (w : Watch) (probed : Detailed) : List (Severity × Str) :=
  if w.warned then []
  else [(.warning, "listener self-check warning: ".toList ++ formatHealthFailures probed ++
    "; confirming before any restart".toList)]

def concluded (counted : Watch) : Verdict → Report
  | .recovered => ⟨.suppressed,
      [(.info, "listener confirmation recovered; restart suppressed".toList)], {}⟩
  | .degraded => ⟨.suppressed, [(.warning, ("all loopback probes still failed, but SOCKS/HTTP/WPAD " ++
      "tasks and listening sockets are alive; restart suppressed").toList)], {}⟩
  | .recovery reason => ⟨.recovery reason, [], counted⟩

/-- One pass of the loop of `_health_monitor`. -/
def healthRound (config : Config) (w : Watch) (r : Round) : Report :=
  if paused config r.backgrounded then ⟨.paused, [], {}⟩
  else if allOkay r.probed then
    ⟨.healthy, if w.warned then [(.info, "listener self-check returned to healthy".toList)] else [], {}⟩
  else
    let counted : Watch := ⟨w.failures + 1, true⟩
    let told := warning w r.probed
    if reached config counted.failures then
      let report := concluded counted (judge r.structural (confirmListenerHealth config r.confirmation))
      { report with events := told ++ report.events }
    else ⟨.warned, told, counted⟩

inductive Monitor where
  | running (w : Watch)
  | raised (reason : Str)
  deriving DecidableEq, Repr

def Report.monitor (report : Report) : Monitor :=
  match report.outcome with
  | .recovery reason => .raised reason
  | _ => .running report.next

/-- A label keeps the round together with how it ended. -/
def monitorStep (config : Config) (s : Monitor) (l : Round × Outcome) (t : Monitor) : Prop :=
  ∃ w, s = .running w ∧ l.2 = (healthRound config w l.1).outcome ∧
    t = (healthRound config w l.1).monitor

theorem confirmFrom_okay {probes : Nat → Detailed} :
    allOkay (confirmFrom probes attempt later) = true ↔
      ∃ k ≤ later, allOkay (probes (attempt + k)) = true := by
  induction later generalizing attempt with
  | zero => simp [confirmFrom]
  | succ later ih =>
    rw [confirmFrom]
    split
    case isTrue okay => exact ⟨fun _ => ⟨0, by omega, okay⟩, fun _ => okay⟩
    case isFalse failing =>
      rw [ih]
      constructor
      · rintro ⟨k, small, okay⟩
        exact ⟨k + 1, by omega, by rwa [Nat.add_comm k, ← Nat.add_assoc]⟩
      · rintro ⟨k, small, okay⟩
        cases k with
        | zero => exact absurd okay failing
        | succ k => exact ⟨k, by omega, by rwa [Nat.add_assoc, Nat.add_comm 1]⟩

theorem confirmFrom_last {probes : Nat → Detailed}
    (failing : allOkay (confirmFrom probes attempt later) = false) :
    confirmFrom probes attempt later = probes (attempt + later) := by
  induction later generalizing attempt with
  | zero => rfl
  | succ later ih =>
    rw [confirmFrom] at failing ⊢
    split
    case isTrue okay => rw [if_pos okay, okay] at failing; contradiction
    case isFalse dead =>
      rw [if_neg dead] at failing
      rw [ih failing, Nat.add_assoc, Nat.add_comm 1]

theorem confirm_failing (config : Config) (probes : Nat → Detailed) :
    allOkay (confirmListenerHealth config probes) = false ↔
      ∀ k < config.attempts, ∃ l, (probes k l).okay = false := by
  have positive := config.attempts_pos
  rw [← Bool.not_eq_true, confirmListenerHealth, confirmFrom_okay, not_exists]
  apply forall_congr'
  intro k
  rw [Nat.zero_add, not_and, Bool.not_eq_true, allOkay_eq_false, Nat.le_sub_one_iff_lt positive]

theorem confirm_last {config : Config} {probes : Nat → Detailed}
    (failing : allOkay (confirmListenerHealth config probes) = false) :
    confirmListenerHealth config probes = probes (config.attempts - 1) := by
  rw [confirmListenerHealth, confirmFrom_last failing, Nat.zero_add]

theorem failed_length {detailed : Detailed} :
    (failed detailed).length = Listener.all.length ↔ ∀ l, (detailed l).okay = false := by
  rw [failed, List.length_filter_eq_length_iff]
  simp

/-- The verdict is a recovery when the attempt failed and either a failing
listener is structurally dead or some listener answered. -/
theorem judge_recovery {structural : Listener → Bool} {confirmed : Detailed} :
    (∃ reason, judge structural confirmed = .recovery reason) ↔
      allOkay confirmed = false ∧ ((∃ l, (confirmed l).okay = false ∧ structural l = false) ∨
        ∃ l, (confirmed l).okay = true) := by
  have dead : (failed confirmed).filter (!structural ·) ≠ [] ↔
      ∃ l, (confirmed l).okay = false ∧ structural l = false := by
    simp [List.filter_eq_nil_iff, mem_failed]
  simp only [judge]
  split
  case isTrue okay => simp [okay]
  case isFalse failing =>
    rw [Bool.not_eq_true] at failing
    split
    case isTrue found => simp [failing, dead.mp found]
    case isFalse alive =>
      have alive : ∀ l, (confirmed l).okay = false → structural l = true := by
        simpa using mt dead.mpr alive
      split
      case isTrue degraded =>
        have none := failed_length.mp degraded.1
        simp [none, alive]
      case isFalse mixed =>
        have answered : ∃ l, (confirmed l).okay = true := by
          by_contra missing
          have none : ∀ l, (confirmed l).okay = false := by simpa using missing
          exact mixed ⟨failed_length.mpr none, by simp [alive, none]⟩
        simp [failing, answered]

/-- A foreground round with a failing listener. -/
def Round.failing (config : Config) (r : Round) : Bool :=
  !paused config r.backgrounded && !allOkay r.probed

/-- A failing round that did not end in a suppressed restart. -/
def counts (config : Config) (x : Round × Outcome) : Bool :=
  x.1.failing config && x.2 != .suppressed

/-- What one round does to the failure counter. -/
theorem healthRound_cases (config : Config) (w : Watch) (r : Round) :
    (r.failing config = false ∧ (healthRound config w r).monitor = .running {}) ∨
    (r.failing config = true ∧
      ((reached config (w.failures + 1) = false ∧ (healthRound config w r).outcome = .warned ∧
          (healthRound config w r).monitor = .running ⟨w.failures + 1, true⟩) ∨
        (reached config (w.failures + 1) = true ∧
          ((healthRound config w r).outcome = .suppressed ∧
              (healthRound config w r).monitor = .running {} ∨
            ∃ reason, (healthRound config w r).outcome = .recovery reason ∧
              (healthRound config w r).monitor = .raised reason)))) := by
  simp only [healthRound, Round.failing]
  cases paused config r.backgrounded with
  | true => exact .inl ⟨rfl, rfl⟩
  | false =>
    cases allOkay r.probed with
    | true => exact .inl ⟨rfl, rfl⟩
    | false =>
      right
      refine ⟨rfl, ?_⟩
      cases reached config (w.failures + 1) with
      | false => exact .inl ⟨rfl, rfl, rfl⟩
      | true =>
        right
        refine ⟨rfl, ?_⟩
        cases judge r.structural (confirmListenerHealth config r.confirmation) with
        | recovered => exact .inl ⟨rfl, rfl⟩
        | degraded => exact .inl ⟨rfl, rfl⟩
        | recovery reason => exact .inr ⟨reason, rfl, rfl⟩

theorem concluded_recovery {counted : Watch} {verdict : Verdict} :
    (∃ reason, (concluded counted verdict).outcome = .recovery reason) ↔
      ∃ reason, verdict = .recovery reason := by
  cases verdict <;> simp only [concluded, reduceCtorEq, Outcome.recovery.injEq,
    Verdict.recovery.injEq, exists_eq', exists_false]

theorem healthRound_recovery {config : Config} {w : Watch} {r : Round} :
    (∃ reason, (healthRound config w r).outcome = .recovery reason) ↔
      r.failing config = true ∧ reached config (w.failures + 1) = true ∧
      ∃ reason, judge r.structural (confirmListenerHealth config r.confirmation) =
        .recovery reason := by
  simp only [healthRound, Round.failing]
  cases paused config r.backgrounded with
  | true => simp only [if_true, reduceCtorEq, exists_false, Bool.not_true, Bool.false_and,
      Bool.false_eq_true, false_and]
  | false =>
    cases allOkay r.probed with
    | true => simp only [Bool.false_eq_true, if_true, if_false, reduceCtorEq, exists_false,
        Bool.not_true, Bool.and_false, false_and]
    | false =>
      cases reached config (w.failures + 1) with
      | false => simp only [Bool.false_eq_true, if_false, reduceCtorEq, exists_false, false_and,
          and_false]
      | true => simp only [Bool.false_eq_true, if_false, if_true, Bool.not_false, Bool.and_self,
          true_and, concluded_recovery]

/-- A round that confirms ends by the verdict on its last attempt. -/
theorem healthRound_judged {config : Config} {w : Watch} {r : Round}
    (failing : r.failing config = true) (enough : reached config (w.failures + 1) = true) :
    (healthRound config w r).monitor = (concluded ⟨w.failures + 1, true⟩
      (judge r.structural (confirmListenerHealth config r.confirmation))).monitor := by
  simp only [Round.failing, Bool.and_eq_true, Bool.not_eq_true'] at failing
  simp only [healthRound, failing.1, failing.2, enough, Bool.false_eq_true, if_false, if_true]
  rfl

theorem reached_iff {config : Config} (below : n < config.threshold) :
    reached config (n + 1) = true ↔ n + 1 = config.threshold := by
  simp only [reached, Config.threshold] at *
  rw [decide_eq_true_iff]
  omega

/-- The counter is the length of the streak of counted rounds just past. -/
def Tallied (config : Config) (past : List (Round × Outcome)) (s : Monitor) : Prop :=
  ∀ w, s = .running w →
    w.failures = (past.takeWhile (counts config)).length ∧ w.failures < config.threshold

theorem tallied_step (known : Tallied config past s) (stepped : monitorStep config s l t) :
    Tallied config (l :: past) t := by
  obtain ⟨w, rfl, ended, rfl⟩ := stepped
  obtain ⟨tally, below⟩ := known w rfl
  intro w' running
  have reset (ignored : counts config l = false)
      (fresh : (healthRound config w l.1).monitor = .running {}) :
      w'.failures = ((l :: past).takeWhile (counts config)).length ∧
        w'.failures < config.threshold := by
    cases Monitor.running.inj (fresh.symm.trans running)
    rw [List.takeWhile_cons_of_neg (by simp [ignored])]
    exact ⟨rfl, config.threshold_pos⟩
  obtain ⟨fine, fresh⟩ | ⟨failing, ⟨early, warned, counted⟩ | ⟨late, ⟨suppressed, fresh⟩ | ⟨_, _, raised⟩⟩⟩ :=
    healthRound_cases config w l.1
  · exact reset (by simp [counts, fine]) fresh
  · cases Monitor.running.inj (counted.symm.trans running)
    have counted : counts config l = true := by simp [counts, failing, ended, warned]
    rw [List.takeWhile_cons_of_pos counted, List.length_cons, ← tally]
    refine ⟨rfl, ?_⟩
    have short := mt (reached_iff below).mpr (by simp [early])
    exact lt_of_le_of_ne below short
  · exact reset (by simp [counts, ended, suppressed]) fresh
  · cases raised.symm.trans running

theorem tallied_run (run : Run (monitorStep config) (.running {}) past s) :
    Tallied config past s := by
  apply run.record
  · rintro w ⟨⟩
    exact ⟨rfl, config.threshold_pos⟩
  · exact tallied_step

/-- A round raises `RecoveryRequired` when it is the last of exactly as many
counted rounds as the threshold asks for, every confirmation attempt had a
failing listener, and in the last one a failing listener was structurally dead
or some listener answered. -/
theorem recovery_iff_confirmed (config : Config) (r : Round)
    (run : Run (monitorStep config) (.running {}) past (.running w)) :
    (∃ reason, (healthRound config w r).outcome = .recovery reason) ↔
      r.failing config = true ∧
      (past.takeWhile (counts config)).length + 1 = config.threshold ∧
      (∀ k < config.attempts, ∃ l, (r.confirmation k l).okay = false) ∧
      ((∃ l, (r.confirmation (config.attempts - 1) l).okay = false ∧ r.structural l = false) ∨
        ∃ l, (r.confirmation (config.attempts - 1) l).okay = true) := by
  obtain ⟨tally, below⟩ := tallied_run run w rfl
  rw [healthRound_recovery, reached_iff below, ← tally, judge_recovery, ← confirm_failing config]
  apply and_congr_right
  intro
  apply and_congr_right
  intro
  apply and_congr_right
  intro failing
  rw [confirm_last failing]

/-- HTTP does not answer, and the other two listeners do. -/
def httpDown : Detailed := fun l => ⟨l != .http, "connect timeout".toList⟩

def httpDownRound : Round := ⟨false, httpDown, fun _ => httpDown, fun _ => true⟩

theorem recovery_of_http_down :
    ∃ reason, (healthRound {} ⟨1, true⟩ httpDownRound).outcome = .recovery reason := by
  have run : Run (monitorStep {}) (.running {}) [(httpDownRound, .warned)] (.running ⟨1, true⟩) :=
    .next .start ⟨{}, rfl, rfl, rfl⟩
  apply (recovery_iff_confirmed {} httpDownRound run).mpr
  exact ⟨rfl, rfl, fun _ _ => ⟨.http, rfl⟩, .inr ⟨.socks, rfl⟩⟩

/-- The attempts before the last one made all had a failing listener. -/
theorem confirm_ends {config : Config} {probes : Nat → Detailed} (inside : attempt < config.attempts)
    (failing : ∀ k < attempt, allOkay (probes k) = false)
    (last : allOkay (probes attempt) = true ∨ ¬ attempt + 1 < config.attempts) :
    confirmListenerHealth config probes = probes attempt := by
  have ends (start later : Nat) (total : start + later + 1 = config.attempts)
      (before : start ≤ attempt) : confirmFrom probes start later = probes attempt := by
    induction later generalizing start with
    | zero => rw [confirmFrom, show start = attempt by omega]
    | succ later ih =>
      rw [confirmFrom]
      split
      case isTrue okay =>
        obtain same | earlier := Nat.eq_or_lt_of_le before
        · rw [same]
        · rw [failing start earlier] at okay; contradiction
      case isFalse dead =>
        apply ih (start + 1) (by omega)
        obtain same | earlier := Nat.eq_or_lt_of_le before
        · subst same
          have := last.resolve_left dead
          omega
        · exact earlier
  exact ends 0 (config.attempts - 1) (by omega) (Nat.zero_le _)

end HttpSocksProxy.Health
