import Mathlib.Data.Finset.Basic
import HttpSocksProxy.Server.Resolve

/-! The tasks of the legacy mode's loop: `_serve`, the `run` task of each proxy and
`_stop_all`, and which listeners they leave open when the loop is closed. -/
namespace HttpSocksProxy.Legacy

inductive Proxy where
  | socks
  | http
  deriving DecidableEq, Repr

/-- The task whose `start` of the proxy opened a listener. -/
inductive Opener where
  | serve
  | run
  deriving DecidableEq, Repr

/-- `_serve`: in `start` of a proxy, before the bind or between it and the assignment of
`_server`; in `_socks_server.stop()`; in its `gather`. -/
inductive Serve where
  | absent
  | starting (p : Proxy) (bound : Bool)
  | undoing
  | gathering
  | ended
  deriving DecidableEq, Repr

/-- The task of `run`: in its `start`, or in `serve_forever` of this listener. -/
inductive RunTask where
  | absent
  | created
  | starting (bound : Bool)
  | serving (o : Opener)
  | ended
  deriving DecidableEq, Repr

/-- `_stop_all`: before `stop` of a proxy, in its `wait_closed`, before the cancellation
of a `run` task, in `sleep(0)`. -/
inductive StopAll where
  | absent
  | looking (p : Proxy)
  | closing (p : Proxy)
  | cancelling (p : Proxy)
  | flushing
  | done
  deriving DecidableEq, Repr

/-- What the tasks of the loop share; `server` is `_server` of a proxy, and `opened` has
the listeners that nothing has closed. -/
structure Tasks where
  startupEvent : Bool
  startupError : Option Str
  serve : Serve
  run : Proxy → RunTask
  server : Proxy → Option Opener
  opened : Finset (Proxy × Opener)
  stopAll : StopAll

/-- A step of a task; `failed` is what the bind raises. -/
inductive Move where
  | serves (failed : Option Str)
  | runs (p : Proxy) (failed : Bool)
  | stops
  deriving DecidableEq, Repr

namespace Tasks

def init : Tasks := ⟨false, none, .absent, fun _ => .absent, fun _ => none, ∅, .absent⟩

/-- `_serve` -/
def serves (k : Tasks) (failed : Option Str) : Option Tasks :=
  match k.serve with
  | .absent => some { k with serve := .starting .socks false }
  | .starting p false => match p, failed with
    | p, none => some { k with opened := insert (p, .serve) k.opened, serve := .starting p true }
    | .socks, some text => some { k with
        startupError := some ("SOCKS failed to bind :9876 — ".toList ++ text)
        startupEvent := true
        serve := .ended }
    | .http, some text =>
      let k := { k with startupError := some ("HTTP failed to bind :9877 — ".toList ++ text) }
      match k.server .socks with
      | some o => some { k with opened := k.opened.erase (.socks, o), serve := .undoing }
      | none => some { k with startupEvent := true, serve := .ended }
  | .starting .socks true => some { k with
      server := Function.update k.server .socks (some .serve)
      serve := .starting .http false }
  | .starting .http true => some { k with
      server := Function.update k.server .http (some .serve)
      run := fun _ => .created
      startupEvent := true
      serve := .gathering }
  | .undoing => some { k with
      server := Function.update k.server .socks none
      startupEvent := true
      serve := .ended }
  | .gathering | .ended => none

def runAt (k : Tasks) (p : Proxy) (point : RunTask) : Tasks :=
  { k with run := Function.update k.run p point }

/-- `AsyncProxyServer.run`; its `start` binds only where `_server` is unset, and
`serve_forever` of a closed server raises. -/
def runs (k : Tasks) (p : Proxy) (failed : Bool) : Option Tasks :=
  match k.run p with
  | .created => match k.server p with
    | none => some (k.runAt p (.starting false))
    | some o => some (k.runAt p (if (p, o) ∈ k.opened then .serving o else .ended))
  | .starting false =>
    if failed then some (k.runAt p .ended)
    else some { k.runAt p (.starting true) with opened := insert (p, .run) k.opened }
  | .starting true => some { k.runAt p (.serving .run) with
      server := Function.update k.server p (some .run) }
  | .serving o => if (p, o) ∈ k.opened then none else some (k.runAt p .ended)
  | .absent | .ended => none

/-- Cancels a `run` task: `serve_forever` closes its listener, a `start` does not. -/
def cancel (k : Tasks) (p : Proxy) : Tasks :=
  match k.run p with
  | .absent => k
  | .serving o => { k.runAt p .ended with opened := k.opened.erase (p, o) }
  | .created | .starting _ | .ended => k.runAt p .ended

def stopped : Proxy → StopAll
  | .socks => .looking .http
  | .http => .cancelling .socks

/-- `_stop_all` -/
def stops (k : Tasks) : Option Tasks :=
  match k.stopAll with
  | .looking p => match k.server p with
    | some o => some { k with opened := k.opened.erase (p, o), stopAll := .closing p }
    | none => some { k with stopAll := stopped p }
  | .closing p => some { k with server := Function.update k.server p none, stopAll := stopped p }
  | .cancelling .socks => some { k.cancel .socks with stopAll := .cancelling .http }
  | .cancelling .http => some { k.cancel .http with stopAll := .flushing }
  | .flushing => some { k with stopAll := .done }
  | .absent | .done => none

def move (k : Tasks) : Move → Option Tasks
  | .serves failed => k.serves failed
  | .runs p failed => k.runs p failed
  | .stops => k.stops

/-- The end of `_run_loop` cancels what is pending. -/
def close (k : Tasks) : Tasks := { (k.cancel .socks).cancel .http with serve := .ended }

end Tasks

/-- No listener is open, and no `run` task is there to open one. -/
structure Idle (k : Tasks) : Prop where
  opened : k.opened = ∅
  run : k.run = fun _ => .absent

def Unset (k : Tasks) : Prop := k.startupEvent = false ∧ k.startupError = none

/-- What the tasks hold at each point of `_serve` before a `_stop_all`. -/
def Kept (k : Tasks) : Prop :=
  match k.serve with
  | .absent | .starting .socks false => Idle k ∧ Unset k
  | .starting .socks true => (∀ l ∈ k.opened, l = (.socks, .serve)) ∧ k.run = (fun _ => .absent) ∧ Unset k
  | .starting .http false => (∀ l ∈ k.opened, l.1 = .socks ∧ k.server .socks = some l.2) ∧
      k.run = (fun _ => .absent) ∧ Unset k
  | .starting .http true => Unset k
  | .undoing => Idle k ∧ k.startupEvent = false
  | .gathering => k.startupError = none
  | .ended => Idle k

/-- `_serve` has ended without a listener. -/
def Failed (k : Tasks) : Prop := k.serve = .ended ∧ Idle k

variable {k k' : Tasks}

theorem kept_init : Kept .init := ⟨⟨rfl, rfl⟩, rfl, rfl⟩

theorem Kept.failed (kept : Kept k) (event : k.startupEvent = true) (error : k.startupError = some text) :
    Failed k := by
  cases here : k.serve with
  | absent =>
    simp only [Kept, here] at kept
    simp [kept.2.1] at event
  | starting p bound =>
    cases p <;> cases bound <;> simp [Kept, here, Unset, event] at kept
  | undoing => simp [Kept, here, event] at kept
  | gathering => simp [Kept, here, error] at kept
  | ended =>
    simp only [Kept, here] at kept
    exact ⟨here, kept⟩

theorem kept_serves (kept : Kept k) (moved : k.serves failed = some k') :
    k'.stopAll = k.stopAll ∧ Kept k' := by
  cases here : k.serve with
  | absent =>
    simp only [Kept, here] at kept
    simp only [Tasks.serves, here, Option.some.injEq] at moved
    subst moved
    exact ⟨rfl, ⟨kept.1.opened, kept.1.run⟩, kept.2⟩
  | starting p bound =>
    cases p <;> cases bound <;> simp only [Kept, here] at kept <;>
      simp only [Tasks.serves, here] at moved
    case socks.false =>
      cases failed with
      | none =>
        cases moved
        refine ⟨rfl, ?_, kept.1.run, kept.2⟩
        simp [kept.1.opened]
      | some text =>
        cases moved
        exact ⟨rfl, kept.1.opened, kept.1.run⟩
    case socks.true =>
      cases moved
      obtain ⟨only, run, unset⟩ := kept
      refine ⟨rfl, fun l member => ?_, run, unset⟩
      rw [only l member]
      exact ⟨rfl, Function.update_self Proxy.socks (some .serve) k.server⟩
    case http.false =>
      obtain ⟨only, run, unset⟩ := kept
      cases failed with
      | none =>
        cases moved
        exact ⟨rfl, unset⟩
      | some text =>
        cases assigned : k.server .socks with
        | some o =>
          simp only [assigned] at moved
          cases moved
          refine ⟨rfl, ⟨Finset.eq_empty_of_forall_notMem fun l member => ?_, run⟩, unset.1⟩
          obtain ⟨other, member⟩ := Finset.mem_erase.mp member
          obtain ⟨first, same⟩ := only l member
          rw [assigned] at same
          exact other (Prod.ext first (Option.some.inj same).symm)
        | none =>
          simp only [assigned] at moved
          cases moved
          refine ⟨rfl, Finset.eq_empty_of_forall_notMem fun l member => ?_, run⟩
          have same := (only l member).2
          rw [assigned] at same
          cases same
    case http.true =>
      cases moved
      exact ⟨rfl, kept.2⟩
  | undoing =>
    simp only [Kept, here] at kept
    simp only [Tasks.serves, here, Option.some.injEq] at moved
    subst moved
    exact ⟨rfl, kept.1.opened, kept.1.run⟩
  | gathering | ended => simp [Tasks.serves, here] at moved

theorem runs_spec (moved : k.runs p failed = some k') : k.run p ≠ .absent ∧ k'.serve = k.serve ∧
    k'.startupEvent = k.startupEvent ∧ k'.startupError = k.startupError ∧ k'.stopAll = k.stopAll := by
  unfold Tasks.runs at moved
  split at moved
  case h_1 here =>
    split at moved <;> cases moved <;> simp [here, Tasks.runAt]
  case h_2 here =>
    split at moved <;> cases moved <;> simp [here, Tasks.runAt]
  case h_3 here =>
    cases moved
    simp [here, Tasks.runAt]
  case h_4 here =>
    split at moved <;> cases moved
    simp [here, Tasks.runAt]
  all_goals cases moved

theorem kept_runs (kept : Kept k) (moved : k.runs p failed = some k') :
    k'.stopAll = k.stopAll ∧ Kept k' := by
  obtain ⟨present, serve, event, error, stops⟩ := runs_spec moved
  refine ⟨stops, ?_⟩
  have task : k.run ≠ fun _ => .absent := fun absent => present (congrFun absent p)
  cases here : k.serve with
  | absent =>
    simp only [Kept, here] at kept
    exact absurd kept.1.run task
  | starting p bound =>
    cases p <;> cases bound <;> simp only [Kept, here] at kept
    case socks.false => exact absurd kept.1.run task
    case socks.true | http.false => exact absurd kept.2.1 task
    case http.true =>
      simp only [Kept, serve, here, Unset, event, error]
      exact kept
  | undoing =>
    simp only [Kept, here] at kept
    exact absurd kept.1.run task
  | gathering =>
    simp only [Kept, here] at kept
    simp only [Kept, serve, here, error, kept]
  | ended =>
    simp only [Kept, here] at kept
    exact absurd kept.run task

theorem cancel_absent (absent : k.run p = .absent) : k.cancel p = k := by
  rw [Tasks.cancel, absent]

theorem cancel_run (other : q ≠ p) : (k.cancel p).run q = k.run q := by
  unfold Tasks.cancel
  split <;> simp [Tasks.runAt, other]

theorem mem_cancel : l ∈ (k.cancel p).opened ↔ l ∈ k.opened ∧ ¬ (l.1 = p ∧ k.run p = .serving l.2) := by
  obtain ⟨q, o⟩ := l
  unfold Tasks.cancel
  split
  case h_2 o' here =>
    simp only [Finset.mem_erase, ne_eq, Prod.mk.injEq, here, RunTask.serving.injEq]
    rw [and_comm, eq_comm (a := o)]
  all_goals
    rename_i here
    simp [Tasks.runAt, here]

/-- When the loop is closed, the listeners that no `serve_forever` has stay open. -/
theorem close_opened : k.close.opened = ∅ ↔ ∀ l ∈ k.opened, k.run l.1 = .serving l.2 := by
  have open_iff (l : Proxy × Opener) :
      l ∈ k.close.opened ↔ l ∈ k.opened ∧ k.run l.1 ≠ .serving l.2 := by
    obtain ⟨p, o⟩ := l
    simp only [Tasks.close, mem_cancel]
    rw [cancel_run (by decide)]
    cases p <;> simp
  rw [Finset.eq_empty_iff_forall_notMem]
  refine forall_congr' fun l => ?_
  rw [open_iff]
  simp

theorem failed_move (failed : Failed k) (moved : k.move m = some k') : Failed k' := by
  obtain ⟨ended, opened, run⟩ := failed
  cases m with
  | serves => simp [Tasks.move, Tasks.serves, ended] at moved
  | runs => simp [Tasks.move, Tasks.runs, run] at moved
  | stops =>
    have same (p : Proxy) : k.cancel p = k := cancel_absent (by rw [run])
    simp only [Tasks.move, Tasks.stops, same] at moved
    cases here : k.stopAll with
    | looking p =>
      simp only [here] at moved
      split at moved <;> cases moved
      · exact ⟨ended, by rw [opened, Finset.erase_empty], run⟩
      · exact ⟨ended, opened, run⟩
    | cancelling p =>
      cases p <;> simp only [here] at moved <;> cases moved <;> exact ⟨ended, opened, run⟩
    | closing | flushing =>
      simp only [here] at moved
      cases moved
      exact ⟨ended, opened, run⟩
    | absent | done => simp [here] at moved

theorem failed_close (failed : Failed k) : Failed k.close := by
  obtain ⟨ended, opened, run⟩ := failed
  have socks : k.cancel .socks = k := cancel_absent (by rw [run])
  have http : k.cancel .http = k := cancel_absent (by rw [run])
  rw [Tasks.close, socks, http]
  exact ⟨rfl, opened, run⟩

theorem kept_move (unstopped : k.stopAll = .absent) (kept : Kept k) (moved : k.move m = some k') :
    k'.stopAll = .absent ∧ Kept k' := by
  rw [← unstopped]
  cases m with
  | serves failed => exact kept_serves kept moved
  | runs p failed => exact kept_runs kept moved
  | stops => simp [Tasks.move, Tasks.stops, unstopped] at moved

end HttpSocksProxy.Legacy
