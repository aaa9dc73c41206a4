import Mathlib.Data.List.Basic

/-! Histories, newest event first, and the episodes that some events end. -/
namespace History
variable {E : Type} {counts ends : E → Bool} {P Q : E → List E → Prop}

/-- Every event is as `P` asks of it and of what came before it. -/
def Each (P : E → List E → Prop) (history : List E) : Prop :=
  ∀ e earlier, (e :: earlier) <:+ history → P e earlier

@[simp] theorem each_nil : Each P [] := by
  intro e earlier before
  exact absurd (List.suffix_nil.mp before) (List.cons_ne_nil e earlier)

@[simp] theorem each_cons : Each P (e :: history) ↔ P e history ∧ Each P history := by
  constructor
  · intro each
    refine ⟨each e history List.suffix_rfl, fun e' earlier before => ?_⟩
    exact each e' earlier (before.trans (List.suffix_cons e history))
  · rintro ⟨newest, each⟩ e' earlier before
    rcases List.suffix_cons_iff.mp before with whole | before
    · obtain ⟨rfl, rfl⟩ := List.cons.inj whole
      exact newest
    · exact each e' earlier before

/-- What has happened since the last event that ends an episode. -/
def episode (ends : E → Bool) (history : List E) : List E := history.takeWhile fun e => !ends e

@[simp] theorem episode_nil : episode ends [] = [] := rfl

theorem episode_cons : episode ends (e :: history) = if ends e then [] else e :: episode ends history := by
  rw [episode, List.takeWhile_cons]
  cases ends e <;> rfl

theorem episode_append (within : ∀ e ∈ newer, ends e = false) :
    episode ends (newer ++ history) = newer ++ episode ends history := by
  apply List.takeWhile_append_of_pos
  intro e newer
  rw [within e newer, Bool.not_false]

/-- How many events of a kind the episode that goes on has had. -/
def tally (ends counts : E → Bool) (history : List E) : Nat := (episode ends history).countP counts

@[simp] theorem tally_nil : tally ends counts [] = 0 := rfl

@[simp] theorem tally_cons : tally ends counts (e :: history) =
    if ends e then 0 else tally ends counts history + if counts e then 1 else 0 := by
  rw [tally, episode_cons]
  cases ends e with
  | true => rfl
  | false => exact List.countP_cons

/-- Within an episode the tally only grows. -/
theorem tally_grows (within : ∀ e ∈ newer, ends e = false) :
    tally ends counts history ≤ tally ends counts (newer ++ history) := by
  rw [tally, tally, episode_append within, List.countP_append]
  exact Nat.le_add_left _ _

/-- The event an episode began with. -/
def opening (ends : E → Bool) (history : List E) : Option E := (episode ends history).getLast?

@[simp] theorem opening_nil : opening ends [] = none := rfl

theorem opening_cons : opening ends (e :: history) =
    if ends e then none else (opening ends history).or (some e) := by
  rw [opening, episode_cons]
  cases ends e with
  | true => rfl
  | false => exact List.getLast?_cons.trans (by cases found : opening ends history <;> simp_all [opening])

theorem opening_mem (opened : opening ends history = some e) : e ∈ history :=
  (List.takeWhile_sublist _).mem (List.mem_of_getLast? opened)

end History
