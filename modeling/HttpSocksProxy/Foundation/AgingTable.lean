import Mathlib.Algebra.Order.Group.Defs
import Mathlib.Algebra.Order.Group.Unbundled.Basic
import Mathlib.Data.List.Sort

/-! A table in insertion order whose entries carry the time of their last use:
assignment, expiry by age and eviction of the least recently used. Assigning to a
key that is present keeps the place of its entry. -/
namespace AgingTable

structure Entry (K V T : Type) where
  key : K
  value : V
  seen : T
  deriving DecidableEq, Repr

variable {K V T : Type} {t t' : List (Entry K V T)} {e old : Entry K V T}

/-- The keys of a table are pairwise different. -/
def Keyed (t : List (Entry K V T)) : Prop := (t.map Entry.key).Nodup

theorem mem_keys (member : e ∈ t) : e.key ∈ t.map Entry.key := List.mem_map_of_mem member

theorem Keyed.sublist (keyed : Keyed t) (smaller : t'.Sublist t) : Keyed t' :=
  List.Nodup.sublist (smaller.map Entry.key) keyed

theorem Keyed.unique (keyed : Keyed t) (first : e ∈ t) (second : old ∈ t)
    (same : e.key = old.key) : e = old :=
  List.inj_on_of_nodup_map keyed first second same

section Order
variable [LinearOrder T]

/-- Entries by last use, oldest first; the sort is stable. -/
def oldestFirst (t : List (Entry K V T)) : List (Entry K V T) :=
  t.insertionSort (·.seen ≤ ·.seen)

/-- The keys of the least recently used entries beyond the bound. -/
def surplus (limit : Nat) (t : List (Entry K V T)) : List K :=
  ((oldestFirst t).take (t.length - limit)).map Entry.key

theorem mem_oldestFirst : e ∈ oldestFirst t ↔ e ∈ t := List.mem_insertionSort _

theorem oldestFirst_sorted (t : List (Entry K V T)) :
    (oldestFirst t).Pairwise (·.seen ≤ ·.seen) := by
  have : Std.Total fun a b : Entry K V T => a.seen ≤ b.seen := ⟨fun a b => le_total _ _⟩
  have : IsTrans (Entry K V T) fun a b => a.seen ≤ b.seen := ⟨fun _ _ _ => le_trans⟩
  exact List.pairwise_insertionSort _ t

theorem orderedInsert_newest (newest : old.seen ≤ e.seen) (t : List (Entry K V T)) :
    (t ++ [e]).orderedInsert (·.seen ≤ ·.seen) old =
      t.orderedInsert (·.seen ≤ ·.seen) old ++ [e] := by
  induction t with
  | nil => simp [newest]
  | cons first rest ih =>
    simp only [List.cons_append, List.orderedInsert_cons, ih]
    split <;> simp

/-- Stability: a last entry that no other one is newer than stays the last. -/
theorem oldestFirst_append (newest : ∀ old ∈ t, old.seen ≤ e.seen) :
    oldestFirst (t ++ [e]) = oldestFirst t ++ [e] := by
  induction t with
  | nil => rfl
  | cons first rest ih =>
    have inner := ih fun old member => newest old (by simp [member])
    simp only [oldestFirst, List.cons_append, List.insertionSort_cons] at inner ⊢
    rw [inner, orderedInsert_newest (newest first (by simp))]

theorem surplus_nodup (keyed : Keyed t) (limit : Nat) : (surplus limit t).Nodup := by
  have sorted : ((oldestFirst t).map Entry.key).Nodup :=
    ((List.perm_insertionSort _ t).map Entry.key).nodup_iff.mpr keyed
  rw [surplus, List.map_take]
  exact sorted.sublist (List.take_sublist _ _)

theorem surplus_subset (limit : Nat) (t : List (Entry K V T)) :
    surplus limit t ⊆ t.map Entry.key := by
  intro k chosen
  obtain ⟨e, member, rfl⟩ := List.mem_map.mp chosen
  exact mem_keys (mem_oldestFirst.mp (List.mem_of_mem_take member))

end Order

variable [DecidableEq K]

def lookup (t : List (Entry K V T)) (k : K) : Option (Entry K V T) := t.find? (·.key = k)

def store (t : List (Entry K V T)) (e : Entry K V T) : List (Entry K V T) :=
  if e.key ∈ t.map Entry.key then t.map fun old => if old.key = e.key then e else old
  else t ++ [e]

def without (t : List (Entry K V T)) (keys : List K) : List (Entry K V T) :=
  t.filter (·.key ∉ keys)

theorem lookup_some (found : lookup t k = some e) : e ∈ t ∧ e.key = k :=
  ⟨List.mem_of_find?_eq_some found, by simpa using List.find?_some found⟩

theorem lookup_mem (keyed : Keyed t) (member : e ∈ t) : lookup t e.key = some e := by
  cases found : lookup t e.key with
  | none => simpa using List.find?_eq_none.mp found e member
  | some other =>
    obtain ⟨present, same⟩ := lookup_some found
    rw [keyed.unique present member same]

theorem mem_store (member : old ∈ store t e) : old = e ∨ old ∈ t ∧ old.key ≠ e.key := by
  simp only [store] at member
  split at member
  · obtain ⟨before, present, rfl⟩ := List.mem_map.mp member
    by_cases same : before.key = e.key
    · exact .inl (if_pos same)
    · simp [same, present]
  case isFalse absent =>
    rcases List.mem_append.mp member with present | new
    · exact .inr ⟨present, fun same => absent (same ▸ mem_keys present)⟩
    · exact .inl (List.mem_singleton.mp new)

theorem mem_store_self (t : List (Entry K V T)) (e : Entry K V T) : e ∈ store t e := by
  simp only [store]
  split
  case isTrue present =>
    obtain ⟨before, member, same⟩ := List.mem_map.mp present
    exact List.mem_map.mpr ⟨before, member, if_pos same⟩
  case isFalse => simp

theorem mem_store_other (member : old ∈ t) (other : old.key ≠ e.key) : old ∈ store t e := by
  simp only [store]
  split
  · exact List.mem_map.mpr ⟨old, member, if_neg other⟩
  · exact List.mem_append_left _ member

theorem store_keys (t : List (Entry K V T)) (e : Entry K V T) :
    (store t e).map Entry.key =
      if e.key ∈ t.map Entry.key then t.map Entry.key else t.map Entry.key ++ [e.key] := by
  simp only [store]
  split
  · rw [List.map_map]
    apply List.map_congr_left
    intro old _
    simp only [Function.comp_apply]
    split <;> simp_all
  · simp

theorem Keyed.store (keyed : Keyed t) (e : Entry K V T) : Keyed (store t e) := by
  rw [Keyed, store_keys]
  split
  · exact keyed
  case isFalse absent =>
    rw [List.nodup_append]
    refine ⟨keyed, by simp, ?_⟩
    rintro k present _ new rfl
    exact absent (List.mem_singleton.mp new ▸ present)

theorem length_store (t : List (Entry K V T)) (e : Entry K V T) :
    (store t e).length = if e.key ∈ t.map Entry.key then t.length else t.length + 1 := by
  have := congrArg List.length (store_keys t e)
  rw [List.length_map] at this
  rw [this]
  split <;> simp

theorem without_sublist (t : List (Entry K V T)) (keys : List K) : (without t keys).Sublist t :=
  List.filter_sublist

theorem mem_without : e ∈ without t keys ↔ e ∈ t ∧ e.key ∉ keys := by
  simp [without]

/-- Removing distinct keys of the table takes out one entry each. -/
theorem length_without (keyed : Keyed t) (distinct : keys.Nodup)
    (present : keys ⊆ t.map Entry.key) : (without t keys).length = t.length - keys.length := by
  have split_ : (t.map Entry.key).Perm (keys ++ (without t keys).map Entry.key) := by
    rw [List.perm_ext_iff_of_nodup keyed]
    · intro k
      by_cases chosen : k ∈ keys
      · simp [chosen, present chosen]
      · simp only [List.mem_append, chosen, false_or, List.mem_map, mem_without]
        constructor
        · rintro ⟨e, member, rfl⟩
          exact ⟨e, ⟨member, chosen⟩, rfl⟩
        · rintro ⟨e, ⟨member, _⟩, rfl⟩
          exact ⟨e, member, rfl⟩
    · refine List.nodup_append.mpr ⟨distinct, keyed.sublist (without_sublist t keys), ?_⟩
      rintro k chosen _ kept rfl
      obtain ⟨e, member, rfl⟩ := List.mem_map.mp kept
      exact (mem_without.mp member).2 chosen
  have := split_.length_eq
  simp only [List.length_map, List.length_append] at this
  omega

variable [LinearOrder T]

def evict (limit : Nat) (t : List (Entry K V T)) : List (Entry K V T) :=
  if limit < t.length then without t (surplus limit t) else t

theorem evict_sublist (limit : Nat) (t : List (Entry K V T)) : (evict limit t).Sublist t := by
  simp only [evict]
  split
  · exact without_sublist t _
  · exact List.Sublist.refl t

theorem length_evict (keyed : Keyed t) (limit : Nat) : (evict limit t).length ≤ limit := by
  simp only [evict]
  split
  case isTrue exceeds =>
    have size : (surplus limit t).length = t.length - limit := by
      simp [surplus, oldestFirst, List.length_insertionSort]
    rw [length_without keyed (surplus_nodup keyed limit) (surplus_subset limit t), size]
    omega
  case isFalse within => exact Nat.le_of_not_lt within

omit [DecidableEq K] in
theorem surplus_within (within : t.length ≤ limit) : surplus limit t = [] := by
  rw [surplus, Nat.sub_eq_zero_of_le within]
  rfl

theorem evict_eq (limit : Nat) (t : List (Entry K V T)) :
    evict limit t = without t (surplus limit t) := by
  simp only [evict]
  split
  · rfl
  case isFalse within => simp [surplus_within (Nat.le_of_not_lt within), without]

theorem evict_within (within : t.length ≤ limit) : evict limit t = t :=
  if_neg (Nat.not_lt.mpr within)

/-- An evicted entry was used no later than any entry that stays. -/
theorem evict_oldest (keyed : Keyed t) (gone : old ∈ t) (evicted : old ∉ evict limit t)
    (kept : e ∈ evict limit t) : old.seen ≤ e.seen := by
  simp only [evict] at evicted kept
  split at evicted
  case isFalse => contradiction
  case isTrue exceeds =>
    rw [if_pos exceeds] at kept
    obtain ⟨present, unchosen⟩ := mem_without.mp kept
    have chosen : old.key ∈ surplus limit t := by
      by_contra spared
      exact evicted (mem_without.mpr ⟨gone, spared⟩)
    obtain ⟨first, taken, same⟩ := List.mem_map.mp chosen
    obtain rfl := keyed.unique (mem_oldestFirst.mp (List.mem_of_mem_take taken)) gone same
    have sorted := oldestFirst_sorted t
    rw [← List.take_append_drop (t.length - limit) (oldestFirst t), List.pairwise_append] at sorted
    refine sorted.2.2 _ taken _ ?_
    have whole : e ∈ oldestFirst t := mem_oldestFirst.mpr present
    rw [← List.take_append_drop (t.length - limit) (oldestFirst t), List.mem_append] at whole
    rcases whole with first | last
    · exact absurd (List.mem_map_of_mem first) unchosen
    · exact last

/-- The entry just assigned survives, if no other one is newer and the table
was within its bound. -/
theorem store_survives (newest : ∀ old ∈ t, old.seen ≤ e.seen)
    (positive : 0 < limit) (within : t.length ≤ limit) : e ∈ evict limit (store t e) := by
  have member := mem_store_self t e
  by_cases exceeds : limit < (store t e).length
  · have fresh : e.key ∉ t.map Entry.key := by
      intro present
      rw [length_store, if_pos present] at exceeds
      omega
    rw [evict, if_pos exceeds]
    refine mem_without.mpr ⟨member, fun chosen => ?_⟩
    rw [length_store, if_neg fresh] at exceeds
    have surplusOne : (store t e).length - limit = 1 := by
      rw [length_store, if_neg fresh]
      omega
    have nonempty : 1 ≤ (oldestFirst t).length := by
      rw [oldestFirst, List.length_insertionSort]
      omega
    rw [surplus, surplusOne, store, if_neg fresh, oldestFirst_append newest,
      List.take_append_of_le_length nonempty] at chosen
    obtain ⟨first, taken, same⟩ := List.mem_map.mp chosen
    exact fresh (same ▸ mem_keys (mem_oldestFirst.mp (List.mem_of_mem_take taken)))
  · rwa [evict_within (Nat.le_of_not_lt exceeds)]

variable [AddCommGroup T]

/-- The entries whose last use is at most `ttl` old. -/
def expire (ttl now : T) (t : List (Entry K V T)) : List (Entry K V T) :=
  t.filter fun e => ¬ ttl < now - e.seen

def prune (ttl : T) (limit : Nat) (now : T) (t : List (Entry K V T)) : List (Entry K V T) :=
  evict limit (expire ttl now t)

omit [DecidableEq K] in
theorem mem_expire : e ∈ expire ttl now t ↔ e ∈ t ∧ now - e.seen ≤ ttl := by
  simp [expire]

omit [DecidableEq K] in
theorem expire_sublist (ttl now : T) (t : List (Entry K V T)) : (expire ttl now t).Sublist t :=
  List.filter_sublist

/-- An entry that pruning takes out although it is fresh was used no later than
any entry that stays. -/
theorem prune_oldest (keyed : Keyed t) (gone : old ∈ t) (fresh : now - old.seen ≤ ttl)
    (evicted : old ∉ prune ttl limit now t) (kept : e ∈ prune ttl limit now t) :
    old.seen ≤ e.seen :=
  evict_oldest (keyed.sublist (expire_sublist ttl now t)) (mem_expire.mpr ⟨gone, fresh⟩)
    evicted kept

/-- An entry assigned at the time of the pruning survives it. -/
theorem prune_store_survives (newest : ∀ old ∈ t, old.seen ≤ e.seen) (positive : 0 < limit)
    (within : t.length ≤ limit) (fresh : now - e.seen ≤ ttl) :
    e ∈ prune ttl limit now (store t e) := by
  by_cases present : e.key ∈ t.map Entry.key
  · have size : (expire ttl now (store t e)).length ≤ limit := by
      refine (expire_sublist ttl now _).length_le.trans ?_
      rwa [length_store, if_pos present]
    rw [prune, evict_within size]
    exact mem_expire.mpr ⟨mem_store_self t e, fresh⟩
  · have absent : e.key ∉ (expire ttl now t).map Entry.key :=
      fun kept => present ((expire_sublist ttl now t).map Entry.key |>.subset kept)
    have same : expire ttl now (store t e) = store (expire ttl now t) e := by
      rw [store, if_neg present, store, if_neg absent, expire, List.filter_append]
      simp [expire, fresh]
    rw [prune, same]
    exact store_survives (fun old kept => newest old (mem_expire.mp kept).1) positive
      ((expire_sublist ttl now t).length_le.trans within)

def forgotten (keys : List K) (last : K → Option T) (k : K) : Option T :=
  if k ∈ keys then none else last k

def touched (key : K) (time : T) (last : K → Option T) (k : K) : Option T :=
  if k = key then some time else last k

/-- `last` gives the time of last use of every entry, and every key whose last
use is fresh has its entry. -/
def Tracks (ttl now : T) (t : List (Entry K V T)) (last : K → Option T) : Prop :=
  (∀ e ∈ t, last e.key = some e.seen) ∧
    ∀ k seen, last k = some seen → now - seen ≤ ttl → ∃ e ∈ t, e.key = k ∧ e.seen = seen

namespace Tracks
variable {ttl now : T} {last : K → Option T} (tracks : Tracks ttl now t last)
include tracks

omit [DecidableEq K] in
theorem expire : Tracks ttl now (expire ttl now t) last := by
  refine ⟨fun e kept => tracks.1 e (mem_expire.mp kept).1, ?_⟩
  intro k seen used fresh
  obtain ⟨e, member, rfl, rfl⟩ := tracks.2 k seen used fresh
  exact ⟨e, mem_expire.mpr ⟨member, fresh⟩, rfl, rfl⟩

theorem without (keys : List K) : Tracks ttl now (without t keys) (forgotten keys last) := by
  constructor
  · intro e kept
    obtain ⟨member, spared⟩ := mem_without.mp kept
    exact (if_neg spared).trans (tracks.1 e member)
  · intro k seen used fresh
    obtain ⟨spared, used⟩ : k ∉ keys ∧ last k = some seen := by
      simpa [forgotten] using used
    obtain ⟨e, member, rfl, rfl⟩ := tracks.2 k seen used fresh
    exact ⟨e, mem_without.mpr ⟨member, spared⟩, rfl, rfl⟩

theorem evict (limit : Nat) :
    Tracks ttl now (evict limit t) (forgotten (surplus limit t) last) := by
  rw [evict_eq]
  exact tracks.without _

theorem store (e : Entry K V T) : Tracks ttl now (store t e) (touched e.key e.seen last) := by
  constructor
  · intro old member
    rcases mem_store member with rfl | ⟨present, other⟩
    · exact if_pos rfl
    · exact (if_neg other).trans (tracks.1 old present)
  · intro k seen used fresh
    by_cases same : k = e.key
    · exact ⟨e, mem_store_self t e, same.symm, Option.some.inj ((if_pos same).symm.trans used)⟩
    · replace used := (if_neg same).symm.trans used
      obtain ⟨old, present, rfl, rfl⟩ := tracks.2 k seen used fresh
      exact ⟨old, mem_store_other present same, rfl, rfl⟩

omit [DecidableEq K] in
theorem later [IsOrderedAddMonoid T] (passed : now ≤ now') : Tracks ttl now' t last :=
  ⟨tracks.1, fun k seen used fresh =>
    tracks.2 k seen used ((sub_le_sub_right passed seen).trans fresh)⟩

end Tracks

end AgingTable
