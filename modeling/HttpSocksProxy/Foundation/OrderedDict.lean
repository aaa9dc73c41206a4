import Mathlib.Data.List.Nodup

/-! Dictionaries that keep the order in which their keys were first set. The
keys are distinct by construction, so reading a key and finding its entry in
the order of iteration are the same. -/

structure OrderedDict (K V : Type) where
  entries : List (K × V)
  keyed : (entries.map Prod.fst).Nodup

namespace OrderedDict
variable {K V W : Type}

def empty : OrderedDict K V := ⟨[], List.nodup_nil⟩

def keys (d : OrderedDict K V) : List K := d.entries.map Prod.fst

/-- Changes or drops each value in place. -/
def filterMap (f : K → V → Option W) (d : OrderedDict K V) : OrderedDict K W where
  entries := d.entries.filterMap fun e => (f e.1 e.2).map (e.1, ·)
  keyed := by
    apply List.Sublist.nodup _ d.keyed
    generalize d.entries = entries
    induction entries with
    | nil => exact .slnil
    | cons e rest ih =>
      rw [List.filterMap_cons]
      cases f e.1 e.2 with
      | none => exact ih.cons e.1
      | some w => exact ih.cons_cons e.1

theorem mem_unique {d : OrderedDict K V} (first : (k, v) ∈ d.entries) (second : (k, w) ∈ d.entries) :
    v = w :=
  (Prod.mk.inj (List.inj_on_of_nodup_map d.keyed first second rfl)).2

variable [DecidableEq K]

def get? (d : OrderedDict K V) (k : K) : Option V := (d.entries.find? (·.1 = k)).map Prod.snd

theorem keys_put (entries : List (K × V)) (k : K) (v : V) :
    (entries.map fun e => if e.1 = k then (k, v) else e).map Prod.fst = entries.map Prod.fst := by
  rw [List.map_map]
  apply List.map_congr_left
  intro e _
  by_cases same : e.1 = k <;> simp [same]

/-- `d[k] = v`: a key that is there keeps its place, a new one comes last. -/
def set (d : OrderedDict K V) (k : K) (v : V) : OrderedDict K V :=
  if absent : k ∉ d.keys then
    ⟨d.entries ++ [(k, v)], by
      rw [List.map_append, List.nodup_append]
      refine ⟨d.keyed, List.nodup_singleton k, ?_⟩
      rintro j present _ new rfl
      cases List.mem_singleton.mp new
      exact absent present⟩
  else ⟨d.entries.map fun e => if e.1 = k then (k, v) else e, by rw [keys_put]; exact d.keyed⟩

def update (d e : OrderedDict K V) : OrderedDict K V :=
  e.entries.foldl (fun d entry => d.set entry.1 entry.2) d

theorem get?_eq_some {d : OrderedDict K V} : d.get? k = some v ↔ (k, v) ∈ d.entries := by
  constructor
  · intro found
    obtain ⟨⟨j, w⟩, member, rfl⟩ := Option.map_eq_some_iff.mp found
    have same : j = k := by simpa using List.find?_some member
    exact same ▸ List.mem_of_find?_eq_some member
  · intro member
    cases found : d.entries.find? (·.1 = k) with
    | none => simpa using List.find?_eq_none.mp found _ member
    | some entry =>
      obtain ⟨j, w⟩ := entry
      have same : j = k := by simpa using List.find?_some found
      subst same
      rw [get?, found, Option.map_some, mem_unique member (List.mem_of_find?_eq_some found)]

theorem get?_eq_none {d : OrderedDict K V} : d.get? k = none ↔ k ∉ d.keys := by
  simp only [Option.eq_none_iff_forall_ne_some, ne_eq, get?_eq_some, keys, List.mem_map, not_exists,
    not_and]
  exact ⟨fun missing e member same => missing e.2 (same ▸ member),
    fun missing v member => missing (k, v) member rfl⟩

@[simp] theorem get?_empty (k : K) : (empty : OrderedDict K V).get? k = none := rfl

@[simp] theorem get?_filterMap (f : K → V → Option W) (d : OrderedDict K V) (k : K) :
    (d.filterMap f).get? k = (d.get? k).bind (f k) := by
  ext w
  simp only [get?_eq_some, Option.bind_eq_some_iff, filterMap, List.mem_filterMap,
    Option.map_eq_some_iff, Prod.mk.injEq]
  constructor
  · rintro ⟨⟨j, v⟩, member, _, kept, rfl, rfl⟩
    exact ⟨v, member, kept⟩
  · rintro ⟨v, member, kept⟩
    exact ⟨(k, v), member, w, kept, rfl, rfl⟩

theorem mem_set {d : OrderedDict K V} :
    e ∈ (d.set k v).entries ↔ e = (k, v) ∨ e.1 ≠ k ∧ e ∈ d.entries := by
  unfold set
  split
  case isTrue absent =>
    have other (member : e ∈ d.entries) : e.1 ≠ k := by
      rintro rfl
      exact absent (List.mem_map_of_mem member)
    simp only [List.mem_append, List.mem_singleton]
    exact ⟨fun h => h.symm.imp_right fun member => ⟨other member, member⟩, fun h => h.symm.imp_left And.right⟩
  case isFalse present =>
    obtain ⟨old, member, same⟩ := List.mem_map.mp (not_not.mp present)
    simp only [List.mem_map]
    constructor
    · rintro ⟨entry, there, rfl⟩
      by_cases hit : entry.1 = k <;> simp [hit, there]
    · rintro (rfl | ⟨other, there⟩)
      · exact ⟨old, member, if_pos same⟩
      · exact ⟨e, there, if_neg other⟩

theorem get?_set (d : OrderedDict K V) (k : K) (v : V) (j : K) :
    (d.set k v).get? j = if j = k then some v else d.get? j := by
  ext w
  rw [get?_eq_some, mem_set, Prod.mk.injEq]
  split
  case isTrue same => simp [same, eq_comm]
  case isFalse other => simp [other, get?_eq_some]

theorem get?_foldl_set (f : W → V) (entries : List (K × W)) (keyed : (entries.map Prod.fst).Nodup)
    (d : OrderedDict K V) (k : K) :
    (entries.foldl (fun d entry => d.set entry.1 (f entry.2)) d).get? k =
      (((⟨entries, keyed⟩ : OrderedDict K W).get? k).map f).or (d.get? k) := by
  induction entries generalizing d with
  | nil => rfl
  | cons e rest ih =>
    obtain ⟨fresh, later⟩ := List.nodup_cons.mp keyed
    rw [List.foldl_cons, ih later, get?_set]
    split
    case isTrue same =>
      subst same
      rw [get?_eq_none.mpr fresh]
      simp [get?]
    case isFalse other => simp [get?, Ne.symm other]

@[simp] theorem get?_update (d e : OrderedDict K V) (k : K) :
    (d.update e).get? k = (e.get? k).or (d.get? k) := by
  have folded := get?_foldl_set id e.entries e.keyed d k
  rwa [Option.map_id_fun] at folded

end OrderedDict
