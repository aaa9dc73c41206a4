import Mathlib.Algebra.Order.Ring.Nat
import Mathlib.Data.List.Infix
import Mathlib.Data.List.Lex
import Mathlib.Data.Prod.Lex
import Mathlib.Order.Compare

/-! Domain names: the limits that a `Name` keeps, and `fullcompare`, from which
equality, the order and subdomains come. -/
namespace HttpSocksProxy.Dns

abbrev Label := List UInt8

scoped instance byteOrder : LinearOrder UInt8 where
  le_refl := Std.le_refl
  le_trans _ _ _ := Std.le_trans
  lt_iff_le_not_ge _ _ := Std.lt_iff_le_and_not_ge
  le_antisymm _ _ := Std.le_antisymm
  le_total _ _ := Std.le_total
  toDecidableLE := inferInstance

/-- `bytes.lower`. -/
def lowerByte (b : UInt8) : UInt8 := if 65 ≤ b ∧ b ≤ 90 then b + 32 else b

def lower (label : Label) : Label := label.map lowerByte

inductive NameError where
  | labelTooLong
  | nameTooLong
  | emptyLabel
  | absoluteConcatenation
  | noParent
  | needAbsoluteNameOrOrigin
  deriving DecidableEq, Repr

/-- The length of these labels in wire format. -/
def wireLength (labels : List Label) : Nat := (labels.map (·.length + 1)).sum

/-- `_validate_labels`. -/
def validateLabels (labels : List Label) : Except NameError Unit :=
  if labels.any (63 < ·.length) then .error .labelTooLong
  else if 255 < wireLength labels then .error .nameTooLong
  else if labels.contains [] ∧ labels.idxOf [] + 1 ≠ labels.length then .error .emptyLabel
  else .ok ()

structure Valid (labels : List Label) : Prop where
  short : ∀ label ∈ labels, label.length ≤ 63
  fits : wireLength labels ≤ 255
  rooted : [] ∉ labels.dropLast

theorem idxOf_last (labels : List Label) :
    (labels.contains [] ∧ labels.idxOf [] + 1 ≠ labels.length) ↔ [] ∈ labels.dropLast := by
  rw [List.contains_iff_mem]
  induction labels with
  | nil => simp
  | cons label labels ih =>
    rw [List.idxOf_cons]
    cases label with
    | nil => cases labels <;> simp
    | cons b label =>
      cases labels with
      | nil => simp
      | cons next labels => simpa using ih

theorem validateLabels_ok : validateLabels labels = .ok () ↔ Valid labels := by
  unfold validateLabels
  constructor
  · intro passed
    split_ifs at passed with long large empty
    refine ⟨fun label member => ?_, Nat.le_of_not_lt large, fun last => empty ((idxOf_last labels).mpr last)⟩
    by_contra over63
    exact long (List.any_eq_true.mpr ⟨label, member, by simpa using over63⟩)
  · rintro ⟨short, fits, rooted⟩
    have within : labels.any (63 < ·.length) = false := by simpa using short
    rw [if_neg (by simp [within]), if_neg (by omega), if_neg (mt (idxOf_last labels).mp rooted)]

instance (labels : List Label) : Decidable (Valid labels) :=
  decidable_of_iff (validateLabels labels = .ok ()) validateLabels_ok

theorem wireLength_append (labels more : List Label) :
    wireLength (labels ++ more) = wireLength labels + wireLength more := by
  simp [wireLength]

theorem Valid.of_append_left (valid : Valid (labels ++ more)) : Valid labels where
  short := fun label member => valid.short label (List.mem_append_left more member)
  fits := by
    have := valid.fits
    rw [wireLength_append] at this
    omega
  rooted := fun empty => by
    cases more with
    | nil => exact valid.rooted (by simpa using empty)
    | cons label more =>
      apply valid.rooted
      rw [List.dropLast_append_cons]
      exact List.mem_append_left _ (List.mem_of_mem_dropLast empty)

theorem Valid.of_append_right (valid : Valid (labels ++ more)) : Valid more where
  short := fun label member => valid.short label (List.mem_append_right labels member)
  fits := by
    have := valid.fits
    rw [wireLength_append] at this
    omega
  rooted := fun empty => by
    cases more with
    | nil => simp at empty
    | cons label more =>
      apply valid.rooted
      rw [List.dropLast_append_cons]
      exact List.mem_append_right _ empty

theorem Valid.tail (valid : Valid (label :: labels)) : Valid labels :=
  Valid.of_append_right (show Valid ([label] ++ labels) from valid)

theorem lower_eq_nil : lower label = [] ↔ label = [] := List.map_eq_nil_iff

theorem length_lower : (lower label).length = label.length := List.length_map _

theorem lower_lower (label : Label) : lower (lower label) = lower label := by
  simp only [lower, List.map_map]
  refine List.map_congr_left fun b _ => ?_
  simp only [Function.comp_apply, lowerByte]
  split_ifs with upper again
  · exfalso
    simp only [UInt8.le_iff_toNat_le] at upper again
    have : (b + 32).toNat = b.toNat + 32 := by
      rw [UInt8.toNat_add]
      have := upper.2
      simp at this ⊢
      omega
    simp at upper again
    omega
  · rfl
  · rfl

theorem wireLength_lower (labels : List Label) : wireLength (labels.map lower) = wireLength labels := by
  simp [wireLength, Function.comp_def, length_lower]

theorem valid_lower : Valid (labels.map lower) ↔ Valid labels := by
  have empty : [] ∈ (labels.map lower).dropLast ↔ [] ∈ labels.dropLast := by
    rw [← List.map_dropLast, List.mem_map]
    constructor
    · rintro ⟨label, member, nothing⟩
      exact lower_eq_nil.mp nothing ▸ member
    · exact fun member => ⟨[], member, rfl⟩
  constructor
  · intro ⟨short, fits, rooted⟩
    refine ⟨fun label member => ?_, wireLength_lower labels ▸ fits, mt empty.mpr rooted⟩
    exact length_lower ▸ short _ (List.mem_map_of_mem member)
  · intro ⟨short, fits, rooted⟩
    refine ⟨?_, (wireLength_lower labels).symm ▸ fits, mt empty.mp rooted⟩
    intro label member
    obtain ⟨original, from_labels, rfl⟩ := List.mem_map.mp member
    exact length_lower.trans_le (short original from_labels)

structure Name where
  labels : List Label
  valid : Valid labels
  deriving DecidableEq

/-- `Name.__init__`. -/
def make (labels : List Label) : Except NameError Name :=
  match checked : validateLabels labels with
  | .ok () => .ok ⟨labels, validateLabels_ok.mp checked⟩
  | .error e => .error e

theorem make_valid (valid : Valid labels) : make labels = .ok ⟨labels, valid⟩ := by
  unfold make
  split
  · rfl
  case h_2 e failed => rw [validateLabels_ok.mpr valid] at failed; cases failed

theorem make_ok (made : make labels = .ok n) : n.labels = labels := by
  unfold make at made
  split at made
  · cases made; rfl
  · cases made

/-- A name without regard to case, the most significant label first. -/
def fold (labels : List Label) : List Label := (labels.map lower).reverse

inductive NameRelation where
  | none
  | superdomain
  | subdomain
  | equal
  | commonAncestor
  deriving DecidableEq, Repr

structure Comparison where
  relation : NameRelation
  order : Int
  nlabels : Nat
  deriving DecidableEq, Repr

/-- The loop of `fullcompare`, over the labels from the last one on. -/
def compareLoop (ldiff : Int) : Nat → List Label → List Label → Comparison
  | nlabels, label1 :: l1, label2 :: l2 =>
    let namereln := if 0 < nlabels then NameRelation.commonAncestor else .none
    if lower label1 < lower label2 then ⟨namereln, -1, nlabels⟩
    else if lower label2 < lower label1 then ⟨namereln, 1, nlabels⟩
    else compareLoop ldiff (nlabels + 1) l1 l2
  | nlabels, _, _ =>
    ⟨if ldiff < 0 then .superdomain else if 0 < ldiff then .subdomain else .equal, ldiff, nlabels⟩

namespace Name

def isAbsolute (n : Name) : Bool := n.labels.getLast? = some []

def fullcompare (self other : Name) : Comparison :=
  if self.isAbsolute ≠ other.isAbsolute then
    if self.isAbsolute then ⟨.none, 1, 0⟩ else ⟨.none, -1, 0⟩
  else compareLoop (self.labels.length - other.labels.length) 0 self.labels.reverse other.labels.reverse

def isSubdomain (self other : Name) : Bool :=
  let nr := (self.fullcompare other).relation
  nr = .subdomain || nr = .equal

/-- `__eq__`. -/
def same (self other : Name) : Bool := (self.fullcompare other).order = 0

/-- `__lt__`. -/
def before (self other : Name) : Bool := (self.fullcompare other).order < 0

/-- `__hash__`. -/
def hash (n : Name) : Nat := (n.labels.flatMap lower).foldl (fun h c => h + (h <<< 3 + c.toNat)) 0

end Name

/-- What the loop says of two lists, after `n` labels that agree. -/
structure Describes (n : Nat) (xs ys : List Label) (c : Comparison) : Prop where
  before : c.order < 0 ↔ xs < ys
  same : c.order = 0 ↔ xs = ys
  past : n ≤ c.nlabels
  within : c.nlabels ≤ n + xs.length ∧ c.nlabels ≤ n + ys.length
  common : ∀ k, k ≤ xs.length → k ≤ ys.length → (n + k ≤ c.nlabels ↔ xs.take k = ys.take k)
  relation : c.relation =
    if xs = ys then .equal else if ys <+: xs then .subdomain else if xs <+: ys then .superdomain
    else if 0 < c.nlabels then .commonAncestor else .none

/-- At the first label that differs the loop ends. -/
theorem Describes.differ {a b : Label} (unlike : a ≠ b) (before : order < 0 ↔ a < b) (nonzero : order ≠ 0) :
    Describes n (a :: xs) (b :: ys) ⟨if 0 < n then .commonAncestor else .none, order, n⟩ where
  before := by simp [before, List.cons_lt_cons_iff, unlike]
  same := by simp [nonzero, unlike]
  past := Nat.le_refl n
  within := by simp
  common := fun k _ _ => by
    cases k with
    | zero => simp
    | succ k => simp [unlike]
  relation := by
    simp [List.cons_prefix_cons, unlike, Ne.symm unlike]

theorem Describes.agree (rest : Describes (n + 1) xs ys c) (a : Label) : Describes n (a :: xs) (a :: ys) c where
  before := by simp [rest.before]
  same := by simp [rest.same]
  past := Nat.le_of_succ_le rest.past
  within := by
    have := rest.within
    simp only [List.length_cons]
    omega
  common := fun k k1 k2 => by
    cases k with
    | zero => simpa using Nat.le_of_succ_le rest.past
    | succ k =>
      have deeper := rest.common k (Nat.le_of_succ_le_succ k1) (Nat.le_of_succ_le_succ k2)
      rw [Nat.add_assoc, Nat.add_comm 1 k] at deeper
      simpa using deeper
  relation := by simpa [List.cons_prefix_cons] using rest.relation

theorem compareLoop_describes (l1 l2 : List Label) (n : Nat) :
    Describes n (l1.map lower) (l2.map lower) (compareLoop (l1.length - l2.length) n l1 l2) := by
  induction l1 generalizing l2 n with
  | nil =>
    cases l2 with
    | nil => constructor <;> simp [compareLoop]
    | cons label2 l2 =>
      constructor <;> simp [compareLoop] <;> omega
  | cons label1 l1 ih =>
    cases l2 with
    | nil => constructor <;> simp [compareLoop] <;> omega
    | cons label2 l2 =>
      have ldiff : ((label1 :: l1).length - (label2 :: l2).length : Int) = l1.length - l2.length := by
        simp only [List.length_cons]
        omega
      rw [compareLoop, ldiff, List.map_cons, List.map_cons]
      rcases lt_trichotomy (lower label1) (lower label2) with less | same | more
      · rw [if_pos less]
        exact .differ (ne_of_lt less) (by simp [less]) (by decide)
      · rw [if_neg (by simp [same]), if_neg (by simp [same]), same]
        exact (ih l2 (n + 1)).agree _
      · rw [if_neg (not_lt_of_gt more), if_pos more]
        exact .differ (ne_of_gt more) (by simp [not_lt_of_gt more]) (by decide)

namespace Name
variable {a b : Name}

/-- What names are ordered by: a relative name before an absolute one, then by
the labels without regard to case, from the last one on. -/
def key (n : Name) : Bool ×ₗ List Label := toLex (n.isAbsolute, fold n.labels)

theorem fullcompare_differ (differ : a.isAbsolute ≠ b.isAbsolute) :
    a.fullcompare b = ⟨.none, if a.isAbsolute then 1 else -1, 0⟩ := by
  rw [fullcompare, if_pos differ]
  split <;> rfl

theorem fullcompare_describes (alike : a.isAbsolute = b.isAbsolute) :
    Describes 0 (fold a.labels) (fold b.labels) (a.fullcompare b) := by
  have loop := compareLoop_describes a.labels.reverse b.labels.reverse 0
  rw [fullcompare, if_neg (not_not.mpr alike)]
  simpa only [fold, List.map_reverse, List.length_reverse] using loop

theorem fullcompare_before : (a.fullcompare b).order < 0 ↔ a.key < b.key := by
  rw [key, key, Prod.Lex.toLex_lt_toLex]
  by_cases alike : a.isAbsolute = b.isAbsolute
  · simp [alike, (fullcompare_describes alike).before]
  · rw [fullcompare_differ alike]
    cases one : a.isAbsolute <;> cases other : b.isAbsolute <;> simp_all

theorem fullcompare_same : (a.fullcompare b).order = 0 ↔ a.key = b.key := by
  rw [key, key, toLex_inj, Prod.mk.injEq]
  by_cases alike : a.isAbsolute = b.isAbsolute
  · simp [alike, (fullcompare_describes alike).same]
  · rw [fullcompare_differ alike]
    cases one : a.isAbsolute <;> cases other : b.isAbsolute <;> simp_all

/-- Whether a name is absolute can be told without regard to case. -/
theorem isAbsolute_fold : a.isAbsolute = decide ((fold a.labels).head? = some []) := by
  rw [fold, List.head?_reverse, List.getLast?_map, isAbsolute]
  cases last : a.labels.getLast? with
  | none => rfl
  | some label => simp [lower]

theorem key_inj : a.key = b.key ↔ a.labels.map lower = b.labels.map lower := by
  rw [key, key, toLex_inj, Prod.mk.injEq, isAbsolute_fold, isAbsolute_fold]
  constructor
  · exact fun ⟨_, folded⟩ => List.reverse_injective folded
  · intro folded
    simp [fold, folded]

theorem same_iff : a.same b = true ↔ a.labels.map lower = b.labels.map lower := by
  rw [same, decide_eq_true_iff, fullcompare_same, key_inj]

theorem hash_same (equal : a.labels.map lower = b.labels.map lower) : a.hash = b.hash := by
  simp only [hash, List.flatMap, equal]

/-- The relation that `fullcompare` reports. -/
theorem fullcompare_relation : (a.fullcompare b).relation =
    if a.isAbsolute ≠ b.isAbsolute then .none
    else if fold a.labels = fold b.labels then .equal
    else if fold b.labels <+: fold a.labels then .subdomain
    else if fold a.labels <+: fold b.labels then .superdomain
    else if 0 < (a.fullcompare b).nlabels then .commonAncestor else .none := by
  by_cases alike : a.isAbsolute = b.isAbsolute
  · rw [if_neg (not_not.mpr alike)]
    exact (fullcompare_describes alike).relation
  · rw [if_pos alike, fullcompare_differ alike]

/-- The significant labels that two names have in common are the longest suffix
in which they agree. -/
theorem fullcompare_nlabels : k ≤ (a.fullcompare b).nlabels ↔
    k = 0 ∨ a.isAbsolute = b.isAbsolute ∧ k ≤ a.labels.length ∧ k ≤ b.labels.length ∧
      (fold a.labels).take k = (fold b.labels).take k := by
  by_cases alike : a.isAbsolute = b.isAbsolute
  · have described := fullcompare_describes alike
    have within := described.within
    have common := described.common k
    simp only [fold, List.length_reverse, List.length_map, Nat.zero_add] at within common
    constructor
    · intro below
      exact .inr ⟨alike, by omega, by omega, (common (by omega) (by omega)).mp below⟩
    · rintro (rfl | ⟨_, shortA, shortB, agree⟩)
      · exact Nat.zero_le _
      · exact (common shortA shortB).mpr agree
  · simp [fullcompare_differ alike, alike]

theorem isSubdomain_iff : a.isSubdomain b = true ↔
    a.isAbsolute = b.isAbsolute ∧ b.labels.map lower <:+ a.labels.map lower := by
  rw [← List.reverse_prefix]
  change _ ↔ _ ∧ fold b.labels <+: fold a.labels
  simp only [isSubdomain, Bool.or_eq_true, decide_eq_true_iff, fullcompare_relation]
  split_ifs with differ equal below above
  · simp [differ]
  · simp [not_not.mp differ, equal]
  · simp [not_not.mp differ, below]
  all_goals simp [below]

def concatenate (self other : Name) : Except NameError Name :=
  if self.isAbsolute ∧ 0 < other.labels.length then .error .absoluteConcatenation
  else make (self.labels ++ other.labels)

/-- `self[:-n]`, which is empty for `n = 0`. -/
def dropBack (labels : List Label) (n : Nat) : List Label :=
  if n = 0 then [] else labels.take (labels.length - n)

def relativize (self origin : Name) : Except NameError Name :=
  if self.isSubdomain origin then make (dropBack self.labels origin.labels.length) else .ok self

def derelativize (self origin : Name) : Except NameError Name :=
  if self.isAbsolute then .ok self else self.concatenate origin

def root : Name := ⟨[[]], by decide⟩

def empty : Name := ⟨[], by decide⟩

def parent (self : Name) : Except NameError Name :=
  if self.same root || self.same empty then .error .noParent else make self.labels.tail

/-- `fullcompare` is the canonical order of names, tells names apart without
regard to case as their hash does, and finds the longest suffix in common. -/
theorem fullcompare_canonical (a b : Name) :
    ((a.fullcompare b).order < 0 ↔ a.key < b.key) ∧
      ((a.fullcompare b).order = 0 ↔ a.labels.map lower = b.labels.map lower) ∧
      (a.same b = true → a.hash = b.hash) ∧
      (∀ k, k ≤ (a.fullcompare b).nlabels ↔
        k = 0 ∨ a.isAbsolute = b.isAbsolute ∧ k ≤ a.labels.length ∧ k ≤ b.labels.length ∧
          (fold a.labels).take k = (fold b.labels).take k) ∧
      (a.isSubdomain b = true ↔ a.isAbsolute = b.isAbsolute ∧ b.labels.map lower <:+ a.labels.map lower) := by
  refine ⟨fullcompare_before, fullcompare_same.trans key_inj, ?_, fun k => fullcompare_nlabels, isSubdomain_iff⟩
  exact fun equal => hash_same (same_iff.mp equal)

theorem dropBack_append (front : List Label) (nonempty : back ≠ []) :
    dropBack (front ++ back) back.length = front := by
  rw [dropBack, if_neg (mt List.length_eq_zero_iff.mp nonempty), List.length_append, Nat.add_sub_cancel,
    List.take_left]

theorem isAbsolute_ne_nil (absolute : a.isAbsolute = true) : a.labels ≠ [] := by
  intro empty
  simp [isAbsolute, empty] at absolute

/-- A subdomain is its relative part in front of the origin. -/
theorem relativize_subdomain (below : a.isSubdomain b = true) (nonempty : b.labels ≠ []) :
    ∃ relative : Name, ∃ back, a.relativize b = .ok relative ∧ a.labels = relative.labels ++ back ∧
      back.map lower = b.labels.map lower := by
  obtain ⟨front, whole⟩ := (isSubdomain_iff.mp below).2
  obtain ⟨relative, back, labels, rfl, folded⟩ := List.map_eq_append_iff.mp whole.symm
  have size : b.labels.length = back.length := by
    simpa using (congrArg List.length folded).symm
  have some : back ≠ [] := by
    rintro rfl
    exact nonempty (List.length_eq_zero_iff.mp size)
  have valid : Valid relative := (labels ▸ a.valid).of_append_left
  refine ⟨⟨relative, valid⟩, back, ?_, labels, folded⟩
  rw [relativize, if_pos below, labels, size, dropBack_append relative some, make_valid valid]

theorem isAbsolute_append (nonempty : more ≠ []) (valid : Valid (part ++ more)) :
    isAbsolute ⟨part ++ more, valid⟩ = decide (more.getLast? = some []) := by
  rw [isAbsolute, List.getLast?_append_of_ne_nil part nonempty]

/-- The root label is the last one. -/
theorem isAbsolute_iff : a.isAbsolute = true ↔ [] ∈ a.labels := by
  rw [isAbsolute, decide_eq_true_iff]
  constructor
  · exact List.mem_of_getLast?
  · intro member
    have some := List.ne_nil_of_mem member
    rw [← List.dropLast_append_getLast some, List.mem_append, List.mem_singleton] at member
    rcases member with inside | last
    · exact absurd inside a.valid.rooted
    · rw [List.getLast?_eq_some_getLast some, ← last]

/-- In front of other labels stands no root label. -/
theorem not_isAbsolute_front (nonempty : more ≠ []) (valid : Valid (part ++ more)) :
    isAbsolute ⟨part, valid.of_append_left⟩ = false := by
  simp only [isAbsolute, decide_eq_false_iff_not]
  intro last
  apply valid.rooted
  rw [List.dropLast_append_of_ne_nil nonempty]
  exact List.mem_append_left _ (List.mem_of_getLast? last)

theorem concatenate_ok (made : a.concatenate b = .ok full) : full.labels = a.labels ++ b.labels := by
  unfold concatenate at made
  split at made
  · cases made
  · exact make_ok made

/-- Relative to an origin and back is the same name, and a relative name that
fits under the origin comes back as it was. -/
theorem relativize_derelativize (name origin : Name) (absolute : origin.isAbsolute = true) :
    (name.isAbsolute = true → ∃ relative back, name.relativize origin = .ok relative ∧
      relative.derelativize origin = .ok back ∧ back.same name = true) ∧
    (name.isAbsolute = false → ∀ full, name.derelativize origin = .ok full →
      full.relativize origin = .ok name) := by
  have rooted := isAbsolute_ne_nil absolute
  constructor
  · intro rootedName
    by_cases below : name.isSubdomain origin = true
    · obtain ⟨relative, back, cut, labels, folded⟩ := relativize_subdomain below rooted
      have nonempty : back ≠ [] := by
        rintro rfl
        exact rooted (List.map_eq_nil_iff.mp folded.symm)
      have relativeName : relative.isAbsolute = false :=
        not_isAbsolute_front nonempty (labels ▸ name.valid)
      have agree : (relative.labels ++ origin.labels).map lower = name.labels.map lower := by
        rw [labels, List.map_append, List.map_append, folded]
      have valid : Valid (relative.labels ++ origin.labels) :=
        valid_lower.mp (agree ▸ valid_lower.mpr name.valid)
      refine ⟨relative, ⟨_, valid⟩, cut, ?_, same_iff.mpr agree⟩
      rw [derelativize, if_neg (by simp [relativeName]), concatenate, if_neg (by simp [relativeName]),
        make_valid valid]
    · refine ⟨name, name, ?_, ?_, same_iff.mpr rfl⟩
      · rw [relativize, if_neg below]
      · rw [derelativize, if_pos rootedName]
  · intro relativeName full made
    rw [derelativize, if_neg (by simp [relativeName])] at made
    obtain ⟨labels, valid⟩ := full
    obtain rfl : labels = name.labels ++ origin.labels := concatenate_ok made
    have below : isSubdomain ⟨_, valid⟩ origin = true := by
      refine isSubdomain_iff.mpr ⟨isAbsolute_append rooted valid, ?_⟩
      rw [List.map_append]
      exact List.suffix_append _ _
    rw [relativize, if_pos below, dropBack_append _ rooted, make_valid name.valid]

/-- `www.Example.org.` under `example.ORG.`. -/
theorem relativize_derelativize_www :
    let origin : Name := ⟨[[101, 120], [79, 82, 71], []], by decide⟩
    let name : Name := ⟨[[119], [69, 120], [111, 114, 103], []], by decide⟩
    ∃ relative back, name.relativize origin = .ok relative ∧
      relative.derelativize origin = .ok back ∧ back.same name = true :=
  (relativize_derelativize _ _ (by decide)).1 (by decide)

end Name
end HttpSocksProxy.Dns
