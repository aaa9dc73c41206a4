import HttpSocksProxy.Dns.Chaining
import HttpSocksProxy.Foundation.Grouping

/-! `_get_section`: the records of a section are filed into RRsets, each under its
owner, class, type and covered type. -/
namespace HttpSocksProxy.Dns
open Socks

/-- An rdata that its class could have been read from. -/
def Record.Fits (r : Record) : Prop := r.rdata.Fits (layout r.rdclass r.rdtype)

abbrev Entry := { r : Record // r.Fits }

def rrsigType : UInt16 := 46

/-- `Rdata.covers`: a signature begins with the type that it covers; only RRSIG is
such a type here. -/
def covered (rdtype : UInt16) (rd : Rdata) : UInt16 :=
  if rdtype = rrsigType then unpackPort (rd.tail.take 2) else 0

/-- `is_singleton`: SOA, NXT, DNAME, NSEC and CNAME. -/
def isSingleton (rdtype : UInt16) : Bool :=
  rdtype = soaType ∨ rdtype = 30 ∨ rdtype = 39 ∨ rdtype = 47 ∨ rdtype = cnameType

def Value.digest : Value → List UInt8
  | .bytes b => b
  | .name n => n.labels.flatMap (written true)

/-- `to_digestable`: rdatas are equal if it is; the names that are read are absolute.
Within the raw bytes of a type that is not laid out, names keep their case here. -/
def Rdata.digest (rd : Rdata) : List UInt8 := rd.values.flatMap Value.digest ++ rd.tail

/-- What `find_rrset` looks for in its index, in one section. -/
abbrev IndexKey := List Label × UInt16 × UInt16 × UInt16 × Option UInt16

def Entry.key (e : Entry) : IndexKey :=
  (e.1.name.labels.map lower, e.1.rdclass, e.1.rdtype, covered e.1.rdtype e.1.rdata, none)

namespace RRset

def key (r : RRset) : IndexKey := (r.name.labels.map lower, r.rdclass, r.rdtype, r.covers, r.deleting)

/-- The RRset that `find_rrset` creates, with its first record. -/
def create (e : Entry) : RRset where
  rdclass := e.1.rdclass
  rdtype := e.1.rdtype
  ttl := e.1.ttl
  rdatas := [e.1.rdata]
  fits := fun _ member => List.mem_singleton.mp member ▸ e.2
  name := e.1.name
  covers := covered e.1.rdtype e.1.rdata
  deleting := none
  nonempty := List.cons_ne_nil _ _

theorem layout_key {r : RRset} {e : Entry} (same : r.key = e.key) :
    layout r.rdclass r.rdtype = layout e.1.rdclass e.1.rdtype := by
  simp only [key, Entry.key, Prod.mk.injEq] at same
  rw [same.2.1, same.2.2.1]

/-- `add`, of a record that belongs here: neither its type nor its covered type differs. -/
def add (r : RRset) (e : Entry) (same : r.key = e.key) : RRset :=
  { r with
    ttl := if e.1.ttl < r.ttl then e.1.ttl else r.ttl
    rdatas := if isSingleton r.rdtype then [e.1.rdata]
      else if ∃ rd ∈ r.rdatas, rd.digest = e.1.rdata.digest then r.rdatas
      else r.rdatas ++ [e.1.rdata]
    fits := by
      intro rd member
      have own : e.1.rdata.Fits (layout r.rdclass r.rdtype) := layout_key same ▸ e.2
      split_ifs at member
      · exact List.mem_singleton.mp member ▸ own
      · exact r.fits rd member
      · rcases List.mem_append.mp member with old | new
        · exact r.fits rd old
        · exact List.mem_singleton.mp new ▸ own
    nonempty := by
      split_ifs
      · exact List.cons_ne_nil _ _
      · exact r.nonempty
      · simp }

end RRset

/-- The loop over the records of a section. -/
def fileRecords (entries : List Entry) : List RRset :=
  Grouping.gather Entry.key RRset.key RRset.create RRset.add entries

theorem keyed : Grouping.Keyed Entry.key RRset.key RRset.create RRset.add where
  start _ := rfl
  add _ _ _ := rfl

theorem fileRecords_gathered (entries : List Entry) :
    Grouping.Gathered Entry.key RRset.key RRset.create RRset.add entries (fileRecords entries) :=
  Grouping.gather_gathered keyed entries

/-- An RRset holds what these records of one key bring. -/
structure Collected (entries : List Entry) (r : RRset) : Prop where
  owner : entries.head?.map (·.1.name) = some r.name
  least : IsLeast { t | ∃ e ∈ entries, e.1.ttl.toNat = t } r.ttl.toNat
  single : isSingleton r.rdtype = true → entries.getLast?.map (fun e => [e.1.rdata]) = some r.rdatas
  whole : isSingleton r.rdtype = false → ∀ e ∈ entries, ∃ rd ∈ r.rdatas, rd.digest = e.1.rdata.digest
  once : r.rdatas.Pairwise fun a b => a.digest ≠ b.digest
  ordered : r.rdatas.Sublist (entries.map (·.1.rdata))

theorem collected_built (built : Grouping.Built Entry.key RRset.key RRset.create RRset.add entries r) :
    Collected entries r := by
  induction built with
  | start e =>
    refine ⟨rfl, ⟨⟨e, List.mem_singleton_self e, rfl⟩, ?_⟩, fun _ => rfl, ?_, List.pairwise_singleton _ _, ?_⟩
    · rintro _ ⟨e', member, rfl⟩
      rw [List.mem_singleton.mp member]
      exact Nat.le_refl _
    · intro _ e' member
      rw [List.mem_singleton.mp member]
      exact ⟨_, List.mem_singleton_self _, rfl⟩
    · exact List.Sublist.refl _
  | @add entries r e built same ih =>
    obtain ⟨owner, ⟨reached, least⟩, single, whole, once, ordered⟩ := ih
    have ttl : (r.add e same).ttl.toNat = min e.1.ttl.toNat r.ttl.toNat := by
      change (if e.1.ttl < r.ttl then e.1.ttl else r.ttl).toNat = _
      split
      case isTrue less => exact (min_eq_left (Nat.le_of_lt less)).symm
      case isFalse more => exact (min_eq_right (UInt32.le_iff_toNat_le.mp (UInt32.not_lt.mp more))).symm
    have added : (r.add e same).rdatas = if isSingleton r.rdtype then [e.1.rdata]
        else if ∃ rd ∈ r.rdatas, rd.digest = e.1.rdata.digest then r.rdatas
        else r.rdatas ++ [e.1.rdata] := rfl
    constructor
    case owner =>
      rw [List.head?_append]
      obtain ⟨first, here, named⟩ := Option.map_eq_some_iff.mp owner
      rw [here]
      exact congrArg some named
    case least =>
      rw [ttl]
      refine ⟨?_, ?_⟩
      · rcases min_choice e.1.ttl.toNat r.ttl.toNat with new | old
        · exact ⟨e, by simp, new.symm⟩
        · obtain ⟨e', member, here⟩ := reached
          exact ⟨e', List.mem_append_left _ member, here.trans old.symm⟩
      · rintro _ ⟨e', member, rfl⟩
        rcases List.mem_append.mp member with old | new
        · exact (min_le_right _ _).trans (least ⟨e', old, rfl⟩)
        · rw [List.mem_singleton.mp new]
          exact min_le_left _ _
    case single =>
      intro (one : isSingleton r.rdtype = true)
      rw [added, if_pos one, List.getLast?_concat]
      rfl
    case whole =>
      intro (many : isSingleton r.rdtype = false) e' member
      have many' : ¬ isSingleton r.rdtype = true := Bool.eq_false_iff.mp many
      rw [added, if_neg many']
      have grown (rd : Rdata) (old : rd ∈ r.rdatas) : rd ∈ if ∃ rd ∈ r.rdatas, rd.digest = e.1.rdata.digest
          then r.rdatas else r.rdatas ++ [e.1.rdata] := by
        split
        · exact old
        · exact List.mem_append_left _ old
      rcases List.mem_append.mp member with old | new
      · obtain ⟨rd, held, same⟩ := whole many e' old
        exact ⟨rd, grown rd held, same⟩
      · rw [List.mem_singleton.mp new]
        by_cases known : ∃ rd ∈ r.rdatas, rd.digest = e.1.rdata.digest
        · obtain ⟨rd, held, same⟩ := known
          exact ⟨rd, grown rd held, same⟩
        · exact ⟨e.1.rdata, by rw [if_neg known]; simp, rfl⟩
    case once =>
      rw [added]
      split_ifs with one known
      · exact List.pairwise_singleton _ _
      · exact once
      · refine List.pairwise_append.mpr ⟨once, List.pairwise_singleton _ _, fun a held b new => ?_⟩
        rw [List.mem_singleton.mp new]
        exact fun same => known ⟨a, held, same⟩
    case ordered =>
      rw [added, List.map_append]
      split_ifs with one known
      · exact List.sublist_append_right _ _
      · exact ordered.trans (List.sublist_append_left _ _)
      · exact ordered.append (List.Sublist.refl _)

theorem LaidOut.unsigned (kept : LaidOut rdclass rdtype) : rdtype ≠ rrsigType := by
  rintro rfl
  simp [LaidOut, layout, rrsigType] at kept

/-- The records of a name, class and type. -/
def Entry.matching (name : Name) (rdclass rdtype : UInt16) (e : Entry) : Bool :=
  e.1.rdclass = rdclass ∧ e.1.rdtype = rdtype ∧ e.1.name.same name

def searched (name : Name) (rdclass rdtype : UInt16) : IndexKey := (name.labels.map lower, rdclass, rdtype, 0, none)

theorem fullMatch_key (r : RRset) (name : Name) (rdclass rdtype : UInt16) :
    r.fullMatch name rdclass rdtype = decide (r.key = searched name rdclass rdtype) := by
  rw [RRset.fullMatch, decide_eq_decide, RRset.key]
  simp only [searched, Prod.mk.injEq, Name.same_iff]
  tauto

section
variable (unsigned : rdtype ≠ rrsigType)
include unsigned

/-- Records of a type other than RRSIG cover nothing. -/
theorem matching_key (e : Entry) (name : Name) (rdclass : UInt16) :
    e.matching name rdclass rdtype = decide (e.key = searched name rdclass rdtype) := by
  have covers (same : e.1.rdtype = rdtype) : covered e.1.rdtype e.1.rdata = 0 := if_neg (same ▸ unsigned)
  rw [Entry.matching, decide_eq_decide, Entry.key]
  simp only [searched, Prod.mk.injEq, Name.same_iff]
  tauto

theorem findRRset_missing (entries : List Entry) (name : Name) (rdclass : UInt16) :
    findRRset (fileRecords entries) name rdclass rdtype = none ↔
      entries.filter (·.matching name rdclass rdtype) = [] := by
  obtain ⟨missing, _⟩ := (fileRecords_gathered entries).find (searched name rdclass rdtype)
  simp only [findRRset, fullMatch_key, List.filter_eq_nil_iff, matching_key unsigned]
  exact missing.trans (by simp)

theorem findRRset_found (found : findRRset (fileRecords entries) name rdclass rdtype = some r) :
    r.fullMatch name rdclass rdtype = true ∧ Collected (entries.filter (·.matching name rdclass rdtype)) r := by
  obtain ⟨_, kept⟩ := (fileRecords_gathered entries).find (searched name rdclass rdtype)
  simp only [findRRset, fullMatch_key] at found
  simp only [fullMatch_key, matching_key unsigned]
  obtain ⟨same, built⟩ := kept r found
  exact ⟨by simpa using same, collected_built built⟩

end

/-- `find_rrset` finds the RRset that just the records of that name, class and type
have brought together, if there are any, for a type that is laid out: a signature
it would miss, and elsewhere rdatas are equal that differ as raw bytes. -/
theorem findRRset_fileRecords (entries : List Entry) (name : Name) {rdclass rdtype : UInt16}
    (kept : LaidOut rdclass rdtype) :
    (findRRset (fileRecords entries) name rdclass rdtype = none ↔
      ∀ e ∈ entries, e.matching name rdclass rdtype = false) ∧
    ∀ r, findRRset (fileRecords entries) name rdclass rdtype = some r →
      r.fullMatch name rdclass rdtype = true ∧ Collected (entries.filter (·.matching name rdclass rdtype)) r := by
  refine ⟨?_, fun r found => findRRset_found kept.unsigned found⟩
  simp only [findRRset_missing kept.unsigned, List.filter_eq_nil_iff, Bool.not_eq_true]

/-- Two addresses of `a.`, which one record spells `A.`. -/
theorem findRRset_fileRecords_spellings :
    let address (name : Name) (b : UInt8) : Entry :=
      ⟨⟨name, 1, 1, 60, ⟨[.bytes [192, 0, 2, b]], []⟩⟩, .cons rfl .nil, fun _ => rfl⟩
    let a : Name := ⟨[[97], []], by decide⟩
    let entries := [address ⟨[[65], []], by decide⟩ 1, address a 2]
    ∃ r, findRRset (fileRecords entries) a 1 1 = some r ∧ r.rdatas.length = 2 ∧
      Collected (entries.filter (·.matching a 1 1)) r := by
  intro address a entries
  have filed := findRRset_fileRecords entries a (show LaidOut 1 1 by decide)
  have two : (findRRset (fileRecords entries) a 1 1).map (·.rdatas.length) = some 2 := by decide +kernel
  obtain ⟨r, found, length⟩ := Option.map_eq_some_iff.mp two
  exact ⟨r, found, length, (filed.2 r found).2⟩

end HttpSocksProxy.Dns
