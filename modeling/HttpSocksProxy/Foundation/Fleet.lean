import Mathlib.Algebra.BigOperators.Group.List.Basic
import HttpSocksProxy.Foundation.Transition

/-! Many machines side by side, each started at some time and moving on its own.
What each of them keeps, all of them keep, and what balances for each balances for
the total. -/
namespace Fleet
open Transition
variable {I C E : Type}

inductive Move (I E : Type) where
  | start (i : I)
  | turn (n : Nat) (e : E)

/-- A new machine joins, or the `n`-th one takes a step. -/
def step (init : I → C) (move : C → E → Option C) (s : List C) : Move I E → Option (List C)
  | .start i => some (s ++ [init i])
  | .turn n e => s[n]?.bind fun c => (move c e).map (s.set n)

/-- The step of a machine meets its condition. -/
def allowed (ok : C → E → Bool) (s : List C) : Move I E → Bool
  | .start _ => true
  | .turn n e => s[n]?.all (ok · e)

section Runs
variable {init : I → C} {move : C → E → Option C} {ok : C → E → Bool} {P : C → Prop}

theorem kept_step (initial : ∀ i, P (init i))
    (kept : ∀ {c e d}, P c → ok c e = true → move c e = some d → P d)
    (before : ∀ c ∈ s, P c) (met : allowed ok s m = true) (stepped : step init move s m = some t) :
    ∀ c ∈ t, P c := by
  intro c member
  cases m with
  | start i =>
    cases Option.some.inj stepped
    rcases List.mem_append.mp member with old | new
    · exact before c old
    · exact List.mem_singleton.mp new ▸ initial i
  | turn n e =>
    obtain ⟨d, found, mapped⟩ := Option.bind_eq_some_iff.mp stepped
    obtain ⟨d', moved, rfl⟩ := Option.map_eq_some_iff.mp mapped
    rcases List.mem_or_eq_of_mem_set member with old | rfl
    · exact before c old
    · have allowed : ok d e = true := by simpa [Fleet.allowed, found] using met
      exact kept (before d (List.mem_of_getElem? found)) allowed moved

theorem kept_run (initial : ∀ i, P (init i))
    (kept : ∀ {c e d}, P c → ok c e = true → move c e = some d → P d)
    (run : Run (guarded (byStep (step init move)) (allowed ok · · = true)) [] past s) :
    ∀ c ∈ s, P c := by
  apply run.invariant (P := fun s => ∀ c ∈ s, P c) (by simp)
  intro s m t before stepped
  exact kept_step initial kept before stepped.1 stepped.2

/-- An equation between sums over each machine holds of the totals. -/
theorem total_add {M : Type} [AddCommMonoid M] {s : List C} {f g h : C → M}
    (each : ∀ c ∈ s, f c = g c + h c) :
    (s.map f).sum = (s.map g).sum + (s.map h).sum := by
  rw [← List.sum_map_add, List.map_congr_left each]

end Runs
end Fleet
