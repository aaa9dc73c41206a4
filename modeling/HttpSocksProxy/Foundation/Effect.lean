import Mathlib.Tactic.TypeStar

/-! Pre- and postconditions of computations that change a state and may raise:
what holds after a normal return and what holds after an exception. -/
namespace Effect

variable {E S α β : Type}

/-- Run in `s`, the computation returns with `ok` or raises with `fail`. -/
def After (x : EStateM E S α) (s : S) (ok : α → S → Prop) (fail : E → S → Prop) : Prop :=
  match x s with
  | .ok a t => ok a t
  | .error e t => fail e t

/-- Repeats `body` until it is done; `stuck` is raised when the fuel runs out. -/
def loop (stuck : E) (body : α → EStateM E S (α ⊕ β)) : Nat → α → EStateM E S β
  | 0, _ => throw stuck
  | fuel + 1, a => do
    match ← body a with
    | .inl next => loop stuck body fuel next
    | .inr b => pure b

/-- The state in which a computation ends, either way. -/
def final (x : EStateM E S α) (s : S) : S :=
  match x s with
  | .ok _ t => t
  | .error _ t => t

/-- Either way, the computation ends in a state where this holds. -/
abbrev Ends (x : EStateM E S α) (s : S) (holds : S → Prop) : Prop :=
  After x s (fun _ => holds) fun _ => holds

section Run
variable (x : EStateM E S α) (f : α → EStateM E S β) (s t : S)

theorem run_bind : (x >>= f) s =
    match x s with
    | .ok a t => f a t
    | .error e t => .error e t := rfl

theorem run_pure (a : α) : (pure a : EStateM E S α) s = .ok a s := rfl

theorem run_throw (e : E) : (throw e : EStateM E S α) s = .error e s := rfl

theorem run_get : (get : EStateM E S S) s = .ok s s := rfl

theorem run_set : (set t : EStateM E S PUnit) s = .ok ⟨⟩ t := rfl

theorem run_modify (g : S → S) : (modify g : EStateM E S PUnit) s = .ok ⟨⟩ (g s) := rfl

end Run

namespace After
variable {x : EStateM E S α} {s : S} {ok ok' : α → S → Prop} {fail fail' : E → S → Prop}

theorem pure_iff : After (pure a) s ok fail ↔ ok a s := Iff.rfl

theorem throw_iff : After (throw e : EStateM E S α) s ok fail ↔ fail e s := Iff.rfl

theorem modify_iff {ok : PUnit → S → Prop} {f : S → S} :
    After (modify f : EStateM E S PUnit) s ok fail ↔ ok ⟨⟩ (f s) := Iff.rfl

theorem get_iff {ok : S → S → Prop} : After (get : EStateM E S S) s ok fail ↔ ok s s := Iff.rfl

theorem bind_iff {f : α → EStateM E S β} {ok : β → S → Prop} : After (x >>= f) s ok fail ↔
    After x s (fun a t => After (f a) t ok fail) fail := by
  simp only [After, bind, EStateM.bind]
  cases x s <;> rfl

theorem tryCatch_iff {handler : E → EStateM E S α} : After (tryCatch x handler) s ok fail ↔
    After x s ok fun e t => After (handler e) t ok fail := by
  simp only [After, tryCatch, tryCatchThe, MonadExceptOf.tryCatch]
  delta EStateM.tryCatch
  cases x s <;> rfl

theorem mono (after : After x s ok fail) (okay : ∀ a t, ok a t → ok' a t)
    (failing : ∀ e t, fail e t → fail' e t) : After x s ok' fail' := by
  unfold After at after ⊢
  split at after
  · exact okay _ _ after
  · exact failing _ _ after

/-- The rule of conjunction. -/
theorem and (first : After x s ok fail) (second : After x s ok' fail') :
    After x s (fun a t => ok a t ∧ ok' a t) fun e t => fail e t ∧ fail' e t := by
  unfold After at *
  generalize x s = result at *
  cases result <;> exact ⟨first, second⟩

/-- The rule of sequences. -/
theorem bind {middle : α → S → Prop} {f : α → EStateM E S β} {ok : β → S → Prop}
    (first : After x s middle fail) (last : ∀ a t, middle a t → After (f a) t ok fail) :
    After (x >>= f) s ok fail :=
  bind_iff.mpr (first.mono last fun _ _ failed => failed)

theorem final {holds : S → Prop} (after : Ends x s holds) : holds (final x s) := by
  unfold Ends After at after
  unfold Effect.final
  split at after <;> simp_all

/-- The rule of loops: a body that keeps `inv` and decreases `measure` never runs
out of fuel. -/
theorem loop {body : α → EStateM E S (α ⊕ β)} {ok : β → S → Prop} (inv : α → S → Prop)
    (measure : α → S → Nat)
    (step : ∀ a s, inv a s → After (body a) s (fun next t => match next with
      | .inl b => inv b t ∧ measure b t < measure a s
      | .inr b => ok b t) fail)
    (start : inv a s) (enough : measure a s < fuel) : After (loop stuck body fuel a) s ok fail := by
  induction fuel generalizing a s with
  | zero => exact absurd enough (Nat.not_lt_zero _)
  | succ fuel ih =>
    refine bind_iff.mpr ((step a s start).mono (fun next t after => ?_) fun _ _ failed => failed)
    cases next with
    | inl b => exact ih after.1 (Nat.lt_of_lt_of_le after.2 (Nat.le_of_lt_succ enough))
    | inr b => exact after

end After

theorem Ends.mono {x : EStateM E S α} {holds holds' : S → Prop} (after : Ends x s holds)
    (weaker : ∀ t, holds t → holds' t) : Ends x s holds' :=
  After.mono after (fun _ => weaker) fun _ => weaker

/-- The rule of handlers. -/
theorem Ends.tryCatch {x : EStateM E S α} {holds : S → Prop} (first : Ends x s holds)
    {handler : E → EStateM E S α} (last : ∀ e t, holds t → Ends (handler e) t holds) :
    Ends (MonadExcept.tryCatch x handler) s holds :=
  After.tryCatch_iff.mpr (After.mono first (fun _ _ done => done) last)

/-- Either way, the computation ends in a state related to the one it starts in. -/
def Steps (R : S → S → Prop) (x : EStateM E S α) : Prop :=
  ∀ s, After x s (fun _ t => R s t) fun _ t => R s t

namespace Steps
variable {R : S → S → Prop} {x : EStateM E S α} {f : α → EStateM E S β}

theorem pure (refl : ∀ s, R s s) (a : α) : Steps R (Pure.pure a : EStateM E S α) := refl

theorem throw (refl : ∀ s, R s s) (e : E) : Steps R (MonadExcept.throw e : EStateM E S α) := refl

theorem bind (trans : ∀ {s t u}, R s t → R t u → R s u) (first : Steps R x)
    (last : ∀ a, Steps R (f a)) : Steps R (x >>= f) := by
  intro s
  refine After.bind_iff.mpr ((first s).mono (fun a t before => ?_) fun _ _ failed => failed)
  exact (last a t).mono (fun _ _ after => trans before after) fun _ _ after => trans before after

theorem tryCatch (trans : ∀ {s t u}, R s t → R t u → R s u) (first : Steps R x)
    {handler : E → EStateM E S α} (last : ∀ e, Steps R (handler e)) :
    Steps R (MonadExcept.tryCatch x handler) := by
  intro s
  refine After.tryCatch_iff.mpr ((first s).mono (fun _ _ done => done) fun e t before => ?_)
  exact (last e t).mono (fun _ _ after => trans before after) fun _ _ after => trans before after

theorem loop (refl : ∀ s, R s s) (trans : ∀ {s t u}, R s t → R t u → R s u)
    {body : α → EStateM E S (α ⊕ β)} (round : ∀ a, Steps R (body a)) (fuel : Nat) (a : α) :
    Steps R (Effect.loop stuck body fuel a) := by
  induction fuel generalizing a with
  | zero => exact refl
  | succ fuel ih =>
    refine bind trans (round a) fun next => ?_
    cases next with
    | inl b => exact ih b
    | inr b => exact refl

end Steps

/-- The computation takes from what is left of its input what the parser takes,
and raises an expected exception where the parser fails. -/
def Parses (left : S → List γ) (good : S → Prop) (expected : E → Prop) (x : EStateM E S α)
    (parser : List γ → Option (α × List γ)) : Prop :=
  ∀ s, good s → After x s (fun a t => good t ∧ parser (left s) = some (a, left t))
    fun e _ => expected e ∧ parser (left s) = none

namespace Parses
variable {left : S → List γ} {good : S → Prop} {expected : E → Prop}
  {x : EStateM E S α} {parser : List γ → Option (α × List γ)}

theorem pure (a : α) : Parses left good expected (Pure.pure a) fun input => some (a, input) :=
  fun _ here => ⟨here, rfl⟩

theorem throw {e : E} (raises : expected e) :
    Parses left good expected (MonadExcept.throw e : EStateM E S α) fun _ => none :=
  fun _ _ => ⟨raises, rfl⟩

theorem bind {f : α → EStateM E S β} {next : α → List γ → Option (β × List γ)}
    (first : Parses left good expected x parser) (last : ∀ a, Parses left good expected (f a) (next a)) :
    Parses left good expected (x >>= f) fun input =>
      (parser input).bind fun (a, rest) => next a rest := by
  intro s here
  refine After.bind_iff.mpr ((first s here).mono ?_ ?_)
  · rintro a t ⟨there, taken⟩
    refine (last a t there).mono ?_ ?_
    · rintro b u ⟨then_, more⟩
      exact ⟨then_, by simp [taken, more]⟩
    · rintro e u ⟨raises, fails⟩
      exact ⟨raises, by simp [taken, fails]⟩
  · rintro e t ⟨raises, fails⟩
    exact ⟨raises, by simp [fails]⟩

/-- Two computations that parse the same way from the same input return what that
gives with the same left, or both raise. -/
theorem agree {E' S' : Type} {s : S} {s' : S'} {left' : S' → List γ} {good' : S' → Prop}
    {expected' : E' → Prop} {y : EStateM E' S' β} {parser : List γ → Option (δ × List γ)}
    {f : δ → α} {g : δ → β}
    (first : Parses left good expected x fun input => (parser input).map (Prod.map f id))
    (second : Parses left' good' expected' y fun input => (parser input).map (Prod.map g id))
    (here : good s) (there : good' s') (same : left s = left' s') :
    (∃ d t t', x s = .ok (f d) t ∧ y s' = .ok (g d) t' ∧ left t = left' t') ∨
      ∃ e t e' t', x s = .error e t ∧ y s' = .error e' t' ∧ expected e ∧ expected' e' := by
  have one := first s here
  have two := second s' there
  simp only [After, ← same] at one two
  cases parsed : parser (left s) with
  | none =>
    simp only [parsed, Option.map_none, reduceCtorEq, and_false] at one two
    split at one
    case h_1 => contradiction
    case h_2 e t ran =>
      split at two
      case h_1 => contradiction
      case h_2 e' t' ran' => exact .inr ⟨e, t, e', t', ran, ran', one.1, two.1⟩
  | some result =>
    obtain ⟨d, rest⟩ := result
    simp only [parsed, Option.map_some, Prod.map, Option.some.injEq, Prod.mk.injEq, reduceCtorEq, and_false,
      id] at one two
    split at one
    case h_2 => contradiction
    case h_1 a t ran =>
      split at two
      case h_2 => contradiction
      case h_1 b t' ran' =>
        obtain ⟨_, rfl, rfl⟩ := one
        obtain ⟨_, rfl, same⟩ := two
        exact .inl ⟨d, t, t', ran, ran', same⟩

end Parses
end Effect
