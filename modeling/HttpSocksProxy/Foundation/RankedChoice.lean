import Mathlib.Data.List.Nodup
import Mathlib.Data.List.Perm.Subperm

/-! Choosing from ranked items. The items are sorted by the weight of their
class, ties in the order in which they came; the first of every class goes
before the rest, and only so many are tried. -/
namespace RankedChoice
variable {A K : Type}

/-- Highest weight first. -/
def rank (key : A → K) (weight : K → Nat) (items : List A) : List A :=
  items.mergeSort fun a b => weight (key b) ≤ weight (key a)

theorem mem_rank {key : A → K} {weight : K → Nat} : a ∈ rank key weight items ↔ a ∈ items :=
  List.mem_mergeSort

theorem rank_nodup {key : A → K} {weight : K → Nat} (distinct : items.Nodup) :
    (rank key weight items).Nodup :=
  (List.mergeSort_perm items _).nodup_iff.mpr distinct

variable [DecidableEq A] [DecidableEq K] (key : A → K)

/-- The first item of its class. -/
def leads (items : List A) (a : A) : Bool := items.find? (key · = key a) = some a

/-- The first items of all classes, then the others. -/
def order (items : List A) : List A := items.filter (leads key items) ++ items.filter (!leads key items ·)

variable {key} {items : List A}

theorem mem_order : a ∈ order key items ↔ a ∈ items := by
  simp only [order, List.mem_append, List.mem_filter, ← and_or_left]
  cases leads key items a <;> simp

/-- Two first items of one class are the same. -/
theorem leads_unique (first : leads key items a = true) (second : leads key items b = true)
    (same : key a = key b) : a = b := by
  simp only [leads, decide_eq_true_eq] at first second
  rw [same] at first
  exact Option.some.inj (first.symm.trans second)

/-- There are no more first items than classes. -/
theorem leaders_length (distinct : items.Nodup) {classes : List K} (covered : ∀ a ∈ items, key a ∈ classes) :
    (items.filter (leads key items)).length ≤ classes.length := by
  have keyed : ((items.filter (leads key items)).map key).Nodup := by
    apply (distinct.filter _).map_on
    intro a first b second same
    exact leads_unique (List.mem_filter.mp first).2 (List.mem_filter.mp second).2 same
  have inside : (items.filter (leads key items)).map key ⊆ classes := by
    intro k member
    obtain ⟨a, first, rfl⟩ := List.mem_map.mp member
    exact covered a (List.mem_filter.mp first).1
  simpa using (List.subperm_of_subset keyed inside).length_le

/-- When the first item of some class passes, one of the items that are tried
does. -/
theorem leader_found (distinct : items.Nodup) {classes : List K}
    (covered : ∀ a ∈ items, key a ∈ classes) (enough : classes.length ≤ limit)
    (member : a ∈ items) (first : leads key items a = true) {test : A → Bool} (passes : test a = true) :
    ∃ b, ((order key items).take limit).find? test = some b := by
  have few := Nat.le_trans (leaders_length distinct covered) enough
  apply Option.isSome_iff_exists.mp
  rw [List.find?_isSome]
  refine ⟨a, ?_, passes⟩
  rw [order, List.take_append, List.take_of_length_le few]
  exact List.mem_append_left _ (List.mem_filter.mpr ⟨member, first⟩)

section Sorted
variable {weight : K → Nat}

omit [DecidableEq A] in
/-- Sorting keeps the order inside a class. -/
theorem filter_rank (k : K) :
    (rank key weight items).filter (key · = k) = items.filter (key · = k) := by
  have transitive (a b c : A) (ab : decide (weight (key b) ≤ weight (key a)) = true)
      (bc : decide (weight (key c) ≤ weight (key b)) = true) :
      decide (weight (key c) ≤ weight (key a)) = true := by
    simp only [decide_eq_true_eq] at *
    omega
  have total (a b : A) : (decide (weight (key b) ≤ weight (key a)) ||
      decide (weight (key a) ≤ weight (key b))) = true := by
    simpa using Nat.le_total _ _
  have tied : (items.filter (key · = k)).Pairwise fun a b => decide (weight (key b) ≤ weight (key a)) := by
    apply List.pairwise_of_forall_mem_list
    intro a first b second
    have first := (List.mem_filter.mp first).2
    have second := (List.mem_filter.mp second).2
    simp_all
  have kept := List.sublist_mergeSort transitive total tied List.filter_sublist
  have inside := kept.filter (key · = k)
  rw [List.filter_filter] at inside
  simp only [Bool.and_self] at inside
  apply (inside.eq_of_length _).symm
  exact ((List.mergeSort_perm items _).filter _).length_eq.symm

theorem leads_rank (a : A) : leads key (rank key weight items) a = leads key items a := by
  rw [leads, leads, ← List.head?_filter, ← List.head?_filter, filter_rank]

/-- Above all items of its class, ties going to the item that came first. -/
def HighestRanked (key : A → K) (weight : K → Nat) (items : List A) (a : A) : Prop :=
  ∃ before after, items = before ++ a :: after ∧
    (∀ b ∈ before, key b = key a → weight (key b) < weight (key a)) ∧
    ∀ b ∈ after, key b = key a → weight (key b) ≤ weight (key a)

theorem HighestRanked.leads (highest : HighestRanked key weight items a) : leads key items a = true := by
  obtain ⟨before, after, rfl, lower, _⟩ := highest
  have none_before : ∀ b ∈ before, ¬ key b = key a := by
    intro b member same
    have := lower b member same
    rw [same] at this
    omega
  simp only [RankedChoice.leads, List.find?_append]
  rw [List.find?_eq_none.mpr (by simpa using none_before)]
  simp

end Sorted
end RankedChoice
