import Mathlib.Data.List.Induction
import Mathlib.Data.List.Nodup

/-! Items are filed one after another into groups with their key. A group is built
from just the items with its key, in their order, and the groups stand in the order
in which their keys first came up. -/
namespace Grouping
universe u v w
variable {A : Type u} {G : Type v} {K : Type w} [DecidableEq K]
variable (key : A → K) (keyOf : G → K) (start : A → G) (add : (g : G) → (a : A) → keyOf g = key a → G)

def place : List G → A → List G
  | [], a => [start a]
  | g :: rest, a => if same : keyOf g = key a then add g a same :: rest else g :: place rest a

def gather (items : List A) : List G := items.foldl (place key keyOf start add) []

/-- A group that these items have built. -/
inductive Built : List A → G → Prop
  | start (a : A) : Built [a] (start a)
  | add (built : Built items g) (same : keyOf g = key a) : Built (items ++ [a]) (add g a same)

/-- Groups have the key of the items they were made from. -/
structure Keyed : Prop where
  start : ∀ a, keyOf (start a) = key a
  add : ∀ g a same, keyOf (add g a same) = keyOf g

structure Gathered (items : List A) (groups : List G) : Prop where
  order : groups.map keyOf = (items.map key).eraseDups
  distinct : (groups.map keyOf).Nodup
  built : ∀ g ∈ groups, Built key keyOf start add (items.filter (key · = keyOf g)) g

section Lemmas
variable {key keyOf start add} {items : List A} {groups : List G}

theorem place_new (missing : key a ∉ groups.map keyOf) :
    place key keyOf start add groups a = groups ++ [start a] := by
  induction groups with
  | nil => rfl
  | cons g rest ih =>
    rw [List.map_cons, List.mem_cons, not_or] at missing
    rw [place, dif_neg (Ne.symm missing.1), ih missing.2, List.cons_append]

theorem place_known (known : key a ∈ groups.map keyOf) :
    ∃ front g back, ∃ same : keyOf g = key a, groups = front ++ g :: back ∧
      place key keyOf start add groups a = front ++ add g a same :: back := by
  induction groups with
  | nil => cases known
  | cons g rest ih =>
    by_cases same : keyOf g = key a
    · exact ⟨[], g, rest, same, rfl, dif_pos same⟩
    · rw [List.map_cons, List.mem_cons] at known
      obtain ⟨front, g', back, here, rfl, placed⟩ := ih (known.resolve_left (Ne.symm same))
      refine ⟨g :: front, g', back, here, rfl, ?_⟩
      rw [place, dif_neg same, placed]
      rfl

/-- An item changes nothing about the items with other keys. -/
theorem filter_other (other : k ≠ key a) : (items ++ [a]).filter (key · = k) = items.filter (key · = k) := by
  simp [List.filter_append, Ne.symm other]

theorem filter_same (same : k = key a) :
    (items ++ [a]).filter (key · = k) = items.filter (key · = k) ++ [a] := by
  simp [List.filter_append, same]

theorem Gathered.place (keyed : Keyed key keyOf start add) (gathered : Gathered key keyOf start add items groups)
    (a : A) : Gathered key keyOf start add (items ++ [a]) (place key keyOf start add groups a) := by
  obtain ⟨order, distinct, built⟩ := gathered
  have keys : (List.map key (items ++ [a])).eraseDups =
      groups.map keyOf ++ ([key a].removeAll (items.map key)).eraseDups := by
    rw [List.map_append, List.eraseDups_append, order]
    rfl
  by_cases known : key a ∈ groups.map keyOf
  case neg =>
    have fresh : key a ∉ items.map key := by rwa [order, List.mem_eraseDups] at known
    have single : ([key a].removeAll (items.map key)).eraseDups = [key a] := by
      rw [List.removeAll, List.filter_cons_of_pos (by simpa using fresh)]
      rfl
    rw [place_new known]
    refine ⟨?_, ?_, fun g member => ?_⟩
    · rw [keys, single, List.map_append, List.map_cons, keyed.start, List.map_nil]
    · rw [List.map_append, List.map_cons, keyed.start, List.map_nil]
      refine List.nodup_append.mpr ⟨distinct, List.nodup_singleton _, fun k old k' new => ?_⟩
      rw [List.mem_singleton.mp new]
      exact ne_of_mem_of_not_mem old known
    · rcases List.mem_append.mp member with old | new
      · rw [filter_other (ne_of_mem_of_not_mem (List.mem_map_of_mem old) known)]
        exact built g old
      · cases List.mem_singleton.mp new
        have none : items.filter (key · = keyOf (start a)) = [] := by
          rw [keyed.start, List.filter_eq_nil_iff]
          exact fun b member same => fresh (List.mem_map.mpr ⟨b, member, by simpa using same⟩)
        rw [filter_same (keyed.start a), none]
        exact .start a
  case pos =>
    have stale : key a ∈ items.map key := by rwa [order, List.mem_eraseDups] at known
    have nothing : ([key a].removeAll (items.map key)).eraseDups = [] := by
      rw [List.removeAll, List.filter_cons_of_neg (by simpa using stale)]
      rfl
    obtain ⟨front, g, back, same, rfl, placed⟩ : ∃ front g back, ∃ same : keyOf g = key a, groups = front ++ g :: back ∧
        Grouping.place key keyOf start add groups a = front ++ add g a same :: back := place_known known
    have kept : (front ++ add g a same :: back).map keyOf = (front ++ g :: back).map keyOf := by
      simp [keyed.add]
    rw [placed]
    refine ⟨?_, ?_, fun g' member => ?_⟩
    · rw [keys, nothing, List.append_nil, kept]
    · rwa [kept]
    · have alone : keyOf g ∉ front.map keyOf ∧ keyOf g ∉ back.map keyOf := by
        rw [List.map_append, List.map_cons] at distinct
        have parts := List.nodup_middle.mp distinct
        rw [List.nodup_cons, List.mem_append, not_or] at parts
        exact parts.1
      have others {h : G} (inside : h ∈ front ∨ h ∈ back) : keyOf h ≠ key a := by
        rintro twice
        rcases inside with inside | inside
        · exact alone.1 (List.mem_map.mpr ⟨h, inside, twice.trans same.symm⟩)
        · exact alone.2 (List.mem_map.mpr ⟨h, inside, twice.trans same.symm⟩)
      rcases List.mem_append.mp member with inside | inside
      · rw [filter_other (others (.inl inside))]
        exact built g' (List.mem_append_left _ inside)
      · rcases List.mem_cons.mp inside with rfl | inside
        · rw [keyed.add, filter_same same]
          exact .add (built g (by simp)) same
        · rw [filter_other (others (.inr inside))]
          exact built g' (by simp [inside])

theorem gather_gathered (keyed : Keyed key keyOf start add) (items : List A) :
    Gathered key keyOf start add items (gather key keyOf start add items) := by
  induction items using List.reverseRecOn with
  | nil => exact ⟨rfl, List.nodup_nil, nofun⟩
  | append_singleton items a ih =>
    rw [gather, List.foldl_append]
    exact ih.place keyed a

/-- The first group that has a key is the group with that key. -/
theorem Gathered.find (gathered : Gathered key keyOf start add items groups) (k : K) :
    (groups.find? (keyOf · = k) = none ↔ ∀ a ∈ items, key a ≠ k) ∧
      ∀ g, groups.find? (keyOf · = k) = some g → keyOf g = k ∧
        Built key keyOf start add (items.filter (key · = k)) g := by
  refine ⟨?_, fun g found => ?_⟩
  · rw [List.find?_eq_none]
    constructor
    · intro none a member same
      have listed : k ∈ groups.map keyOf := by
        rw [gathered.order, List.mem_eraseDups]
        exact List.mem_map.mpr ⟨a, member, same⟩
      obtain ⟨g, inside, here⟩ := List.mem_map.mp listed
      exact none g inside (by simpa using here)
    · intro none g inside here
      have listed : k ∈ (items.map key).eraseDups := by
        rw [← gathered.order]
        exact List.mem_map.mpr ⟨g, inside, by simpa using here⟩
      obtain ⟨a, member, same⟩ := List.mem_map.mp (List.mem_eraseDups.mp listed)
      exact none a member same
  · have here : keyOf g = k := by simpa using List.find?_some found
    subst here
    exact ⟨rfl, gathered.built g (List.mem_of_find?_eq_some found)⟩

end Lemmas

end Grouping
