import Mathlib.Data.List.Basic

/-! Labelled runs of an arbitrary step relation. A run keeps its whole past,
newest label first, so an invariant may speak of what happened before. -/
namespace Transition
variable {S L : Type}

inductive Run (step : S → L → S → Prop) (s₀ : S) : List L → S → Prop where
  | start : Run step s₀ [] s₀
  | next : Run step s₀ past s → step s l t → Run step s₀ (l :: past) t

/-- Only the steps that meet a condition on the state before and the label. -/
def guarded (step : S → L → S → Prop) (ok : S → L → Prop) (s : S) (l : L) (t : S) : Prop :=
  ok s l ∧ step s l t

/-- Only the steps into states with `P`. -/
def into (step : S → L → S → Prop) (P : S → Prop) (s : S) (l : L) (t : S) : Prop :=
  step s l t ∧ P t

/-- The step relation of a computable step function. -/
def byStep (f : S → L → Option S) (s : S) (l : L) (t : S) : Prop := f s l = some t

/-- The step relation of a machine with an output, which the label keeps
beside the event. -/
def byOutput {E O : Type} (f : S → E → Option (O × S)) (s : S) (l : E × O) (t : S) : Prop :=
  f s l.1 = some (l.2, t)

/-- Evaluates a computable machine on labels, oldest first. -/
def replay (f : S → L → Option S) : S → List L → Option S
  | s, [] => some s
  | s, l :: later => (f s l).bind (replay f · later)

/-- Evaluates a machine whose steps are a function of an event and give an
output, and keeps the label of each step, newest first. -/
def execute {E O : Type} (f : S → E → Option (O × S)) (label : S → E → O → L) :
    S → List E → Option (List L × S)
  | s, [] => some ([], s)
  | s, e :: later => do
    let (output, t) ← f s e
    let (past, u) ← execute f label t later
    return (past ++ [label s e output], u)

namespace Run
variable {step step' : S → L → S → Prop}

theorem trans (first : Run step s past t) (last : Run step t later u) :
    Run step s (later ++ past) u := by
  induction last with
  | start => exact first
  | next _ head ih => exact .next ih head

theorem split (run : Run step s (later ++ past) u) : ∃ t, Run step s past t ∧ Run step t later u := by
  induction later generalizing u with
  | nil => exact ⟨u, run, .start⟩
  | cons l later ih =>
    obtain _ | ⟨earlier, head⟩ := run
    obtain ⟨t, first, last⟩ := ih earlier
    exact ⟨t, first, .next last head⟩

theorem invariant {P : S → Prop} (initial : P s₀)
    (preserves : ∀ {s l t}, P s → step s l t → P t) (run : Run step s₀ past s) : P s := by
  induction run with
  | start => exact initial
  | next _ head ih => exact preserves ih head

/-- An invariant whose step needs what is known of every reachable state. -/
theorem invariant_under {I P : S → Prop} (known : ∀ {past s}, Run step s₀ past s → I s) (initial : P s₀)
    (preserves : ∀ {s l t}, I s → P s → step s l t → P t) (run : Run step s₀ past s) : P s := by
  induction run with
  | start => exact initial
  | next earlier head ih => exact preserves (known earlier) ih head

/-- An invariant of the state together with the past that led to it. -/
theorem record {P : List L → S → Prop} (initial : P [] s₀)
    (preserves : ∀ {past s l t}, P past s → step s l t → P (l :: past) t)
    (run : Run step s₀ past s) : P past s := by
  induction run with
  | start => exact initial
  | next _ head ih => exact preserves ih head

theorem mono (weaker : ∀ {s l t}, step s l t → step' s l t) (run : Run step s₀ past s) :
    Run step' s₀ past s := by
  induction run with
  | start => exact .start
  | next _ head ih => exact .next ih (weaker head)

theorem unguarded {ok : S → L → Prop} (run : Run (guarded step ok) s₀ past s) :
    Run step s₀ past s :=
  run.mono And.right

/-- When a step keeps `P` exactly if it meets the condition, `P` holds after
exactly the runs whose steps all meet it. -/
theorem guarded_iff {P I : S → Prop} {ok : S → L → Prop} (initial : P s₀)
    (known : ∀ {past s}, Run step s₀ past s → I s)
    (kept : ∀ {s l t}, I s → step s l t → (P t ↔ P s ∧ ok s l))
    (run : Run step s₀ past s) : P s ↔ Run (guarded step ok) s₀ past s := by
  constructor
  · induction run with
    | start => exact fun _ => .start
    | next earlier stepped ih =>
      intro holds
      obtain ⟨before, met⟩ := (kept (known earlier) stepped).mp holds
      exact .next (ih before) ⟨met, stepped⟩
  · intro met
    apply met.invariant_under (fun earlier => known earlier.unguarded) initial
    intro s l t here before stepped
    exact (kept here stepped.2).mpr ⟨before, stepped.1⟩

/-- When a step from a state with `P` keeps it exactly if it meets the condition,
`P` holds all along exactly the runs whose steps all meet it. -/
theorem into_iff {P I : S → Prop} {ok : S → L → Prop} (initial : P s₀)
    (known : ∀ {past s}, Run step s₀ past s → I s)
    (kept : ∀ {s l t}, I s → P s → step s l t → (P t ↔ ok s l)) :
    Run (into step P) s₀ past s ↔ Run (guarded step ok) s₀ past s := by
  have last {past s} (run : Run (into step P) s₀ past s) : P s := by
    cases run with
    | start => exact initial
    | next _ stepped => exact stepped.2
  constructor
  · intro run
    induction run with
    | start => exact .start
    | next earlier stepped ih =>
      have here := known (earlier.mono And.left)
      exact .next ih ⟨(kept here (last earlier) stepped.1).mp stepped.2, stepped.1⟩
  · intro run
    induction run with
    | start => exact .start
    | next earlier stepped ih =>
      have here := known earlier.unguarded
      exact .next ih ⟨stepped.2, (kept here (last ih) stepped.2).mpr stepped.1⟩

theorem of_replay {f : S → L → Option S} (replayed : replay f s labels = some t) :
    Run (byStep f) s labels.reverse t := by
  induction labels generalizing s with
  | nil => cases Option.some.inj replayed; exact .start
  | cons l later ih =>
    obtain ⟨middle, stepped, rest⟩ := Option.bind_eq_some_iff.mp replayed
    rw [List.reverse_cons]
    exact trans (.next .start stepped) (ih rest)

theorem of_execute {E O : Type} {f : S → E → Option (O × S)} {label : S → E → O → L}
    {events : List E} (steps : ∀ {s e output t}, f s e = some (output, t) → step s (label s e output) t)
    (executed : execute f label s events = some (past, t)) : Run step s past t := by
  induction events generalizing s past with
  | nil => cases Option.some.inj executed; exact .start
  | cons e later ih =>
    simp only [execute, Option.bind_eq_bind, Option.bind_eq_some_iff, Option.pure_def,
      Option.some.injEq, Prod.mk.injEq] at executed
    obtain ⟨⟨output, middle⟩, first, ⟨inner, last⟩, rest, rfl, rfl⟩ := executed
    exact trans (.next .start (steps first)) (ih rest)

theorem of_outputs {E O : Type} {f : S → E → Option (O × S)} {events : List E} {past : List (E × O)}
    (executed : execute f (fun _ e output => (e, output)) s events = some (past, t)) :
    Run (byOutput f) s past t := by
  have stepped {s e output t} (moved : f s e = some (output, t)) :
      byOutput f s ((fun _ e output => (e, output) : S → E → O → E × O) s e output) t := moved
  exact of_execute stepped executed

theorem of_outputs_guarded {E O : Type} {f : S → E → Option (O × S)} {ok : S → E × O → Bool}
    {events : List E} {past : List (E × O)}
    (executed : execute (fun s e => (f s e).filter fun r => ok s (e, r.1))
      (fun _ e output => (e, output)) s events = some (past, t)) :
    Run (guarded (byOutput f) fun s l => ok s l = true) s past t :=
  (of_outputs executed).mono fun filtered =>
    have ⟨moved, allowed⟩ := Option.filter_eq_some_iff.mp filtered
    ⟨allowed, moved⟩

theorem of_replay_guarded {f : S → L → Option S} {ok : S → L → Bool}
    (replayed : replay (fun s l => if ok s l then f s l else none) s labels = some t) :
    Run (guarded (byStep f) fun s l => ok s l = true) s labels.reverse t :=
  (of_replay replayed).mono fun stepped => by
    simpa only [byStep, guarded, Option.ite_none_right_eq_some] using stepped

end Run
end Transition
