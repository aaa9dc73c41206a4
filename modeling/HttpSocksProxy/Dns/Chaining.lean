import Mathlib.Order.Bounds.Defs
import HttpSocksProxy.Dns.Message

/-! `QueryMessage.resolve_chaining`: the CNAME chain of a response, the RRset at its
end, and how long that may be kept. -/
namespace HttpSocksProxy.Dns
open Socks

/-- `dns.rrset.RRset`, with at least one rdata. -/
structure RRset extends Rdataset where
  name : Name
  covers : UInt16
  deleting : Option UInt16
  nonempty : rdatas ≠ []

def cnameType : UInt16 := 5

def soaType : UInt16 := 6

structure Response where
  flags : Nat
  ednsflags : Nat
  question : List Question
  answer : List RRset
  authority : List RRset

/-- `dns.rcode.from_flags`. -/
def Response.rcode (m : Response) : Nat := (m.flags &&& 0xF) ||| ((m.ednsflags >>> 20) &&& 0xFF0)

def noErrorCode : Nat := 0

def nxDomainCode : Nat := 3

/-- `full_match`, of an RRset that covers and deletes nothing; signatures cover a type,
and theirs is never found. -/
def RRset.fullMatch (r : RRset) (name : Name) (rdclass rdtype : UInt16) : Bool :=
  r.rdclass = rdclass ∧ r.rdtype = rdtype ∧ r.covers = 0 ∧ r.name.same name ∧ r.deleting = none

/-- `find_rrset` in one section. -/
def findRRset (rrsets : List RRset) (name : Name) (rdclass rdtype : UInt16) : Option RRset :=
  rrsets.find? (·.fullMatch name rdclass rdtype)

/-- The target of the first rdata of a CNAME. -/
def RRset.target (r : RRset) : Name :=
  match (r.rdatas.head r.nonempty).values with
  | .name n :: _ => n
  | _ => .empty

/-- The last number of the first rdata of an SOA. -/
def RRset.minimum (r : RRset) : Nat :=
  match (r.rdatas.head r.nonempty).values with
  | [_, _, .bytes b] => (unpackLong (b.drop 16)).toNat
  | _ => 0

structure ChainingResult where
  canonicalName : Name
  answer : Option RRset
  minimumTtl : Nat
  cnames : List RRset

inductive ChainError where
  | notQueryResponse
  | formError
  | chainTooLong
  | answerForNXDOMAIN
  deriving DecidableEq, Repr

def maxChain : Nat := 16

def maxTtl : Nat := 2 ^ 32 - 1

theorem Name.parent_ok {n p : Name} (up : n.parent = .ok p) : ∃ label, n.labels = label :: p.labels := by
  unfold parent at up
  split_ifs at up with last
  have labels := make_ok up
  cases whole : n.labels with
  | nil =>
    exfalso
    apply last
    rw [Bool.or_eq_true, same_iff, same_iff, whole]
    exact .inr rfl
  | cons label rest => exact ⟨label, by rw [labels, whole]; rfl⟩

namespace Response
variable (m : Response) (q : Question)

/-- The loop over the CNAMEs, with how often it may still turn. -/
def follow : Nat → Name → Nat → List RRset → Option ChainingResult
  | 0, _, _, _ => none
  | turns + 1, qname, minTtl, cnames =>
    match findRRset m.answer qname q.rdclass q.rdtype with
    | some answer => some ⟨qname, some answer, min minTtl answer.ttl.toNat, cnames⟩
    | none =>
      if q.rdtype ≠ cnameType then
        match findRRset m.answer qname q.rdclass cnameType with
        | some crrset => follow turns crrset.target (min minTtl crrset.ttl.toNat) (cnames ++ [crrset])
        | none => some ⟨qname, none, minTtl, cnames⟩
      else some ⟨qname, none, minTtl, cnames⟩

/-- The SOA of the nearest superdomain of a name. -/
def superdomainSoa (auname : Name) : Option RRset :=
  match findRRset m.authority auname q.rdclass soaType with
  | some srrset => some srrset
  | none =>
    match _up : auname.parent with
    | .ok parent => superdomainSoa parent
    | .error _ => none
termination_by auname.labels.length
decreasing_by
  obtain ⟨label, labels⟩ := Name.parent_ok _up
  rw [labels]
  exact Nat.lt_succ_self _

def resolveChaining : Except ChainError ChainingResult :=
  if m.flags &&& 0x8000 = 0 then .error .notQueryResponse
  else match m.question with
    | [q] =>
      match m.follow q maxChain q.name maxTtl [] with
      | none => .error .chainTooLong
      | some r =>
        if m.rcode = nxDomainCode ∧ r.answer.isSome then .error .answerForNXDOMAIN
        else if r.answer.isNone then
          match m.superdomainSoa q r.canonicalName with
          | some srrset =>
            .ok { r with minimumTtl := min (min r.minimumTtl srrset.ttl.toNat) srrset.minimum }
          | none => .ok r
        else .ok r
    | _ => .error .formError

/-- The CNAMEs that lead from one name to another. -/
inductive Aliases : Name → List RRset → Name → Prop where
  | nil (n : Name) : Aliases n [] n
  | cons (missing : findRRset m.answer n q.rdclass q.rdtype = none) (other : q.rdtype ≠ cnameType)
      (found : findRRset m.answer n q.rdclass cnameType = some c) (rest : Aliases c.target cs last) :
      Aliases n (c :: cs) last

/-- No CNAME leads further from here. -/
def Final (n : Name) : Prop :=
  findRRset m.answer n q.rdclass q.rdtype = none → q.rdtype = cnameType ∨
    findRRset m.answer n q.rdclass cnameType = none

/-- The numbers that bound how long the result may be kept. -/
def ttls (r : ChainingResult) : List Nat :=
  maxTtl :: r.cnames.map (·.ttl.toNat) ++
    match r.answer with
    | some answer => [answer.ttl.toNat]
    | none =>
      match m.superdomainSoa q r.canonicalName with
      | some srrset => [srrset.ttl.toNat, srrset.minimum]
      | none => []

/-- The chain from the question, as far as it goes, with what stands at its end. -/
structure Chained (r : ChainingResult) : Prop where
  aliases : m.Aliases q q.name r.cnames r.canonicalName
  short : r.cnames.length < maxChain
  final : m.Final q r.canonicalName
  answer : r.answer = findRRset m.answer r.canonicalName q.rdclass q.rdtype
  denied : m.rcode = nxDomainCode → r.answer = none
  ttl : IsLeast { t | t ∈ m.ttls q r } r.minimumTtl

variable {m q}

theorem follow_aliases (aliases : m.Aliases q n cs last) (final : m.Final q last) (enough : cs.length < turns)
    (minTtl : Nat) (cnames : List RRset) :
    m.follow q turns n minTtl cnames = some ⟨last, findRRset m.answer last q.rdclass q.rdtype,
      ((cs.map (·.ttl.toNat)) ++ (findRRset m.answer last q.rdclass q.rdtype).toList.map (·.ttl.toNat)).foldl min minTtl,
      cnames ++ cs⟩ := by
  induction aliases generalizing turns minTtl cnames with
  | nil n =>
    cases turns with
    | zero => exact absurd enough (Nat.not_lt_zero _)
    | succ turns =>
      rw [follow]
      cases answer : findRRset m.answer n q.rdclass q.rdtype with
      | some answer => simp
      | none =>
        rcases final answer with cname | missing
        · simp [cname]
        · simp [missing]
  | @cons n c cs last missing other found _ ih =>
    cases turns with
    | zero => exact absurd enough (Nat.not_lt_zero _)
    | succ turns =>
      have rest := ih final (Nat.lt_of_succ_lt_succ enough) (min minTtl c.ttl.toNat) (cnames ++ [c])
      rw [follow, missing]
      simp only [if_pos other, found, rest, List.append_assoc, List.cons_append, List.nil_append, List.map_cons,
        List.foldl_cons]

theorem follow_some (followed : m.follow q turns n minTtl cnames = some r) :
    ∃ cs, m.Aliases q n cs r.canonicalName ∧ m.Final q r.canonicalName ∧ cs.length < turns := by
  induction turns generalizing n minTtl cnames with
  | zero => cases followed
  | succ turns ih =>
    rw [follow] at followed
    cases answer : findRRset m.answer n q.rdclass q.rdtype with
    | some answer' =>
      rw [answer] at followed
      cases followed
      exact ⟨[], .nil n, fun missing => (by cases answer.symm.trans missing), Nat.succ_pos _⟩
    | none =>
      simp only [answer] at followed
      split_ifs at followed with other
      · cases found : findRRset m.answer n q.rdclass cnameType with
        | some c =>
          simp only [found] at followed
          obtain ⟨cs, aliases, final, enough⟩ := ih followed
          exact ⟨c :: cs, .cons answer other found aliases, final, Nat.succ_lt_succ enough⟩
        | none =>
          simp only [found] at followed
          cases followed
          exact ⟨[], .nil n, fun _ => .inr found, Nat.succ_pos _⟩
      · cases followed
        exact ⟨[], .nil n, fun _ => .inl (not_not.mp other), Nat.succ_pos _⟩

theorem follow_none :
    m.follow q turns n minTtl cnames = none ↔ ∃ cs last, m.Aliases q n cs last ∧ cs.length = turns := by
  induction turns generalizing n minTtl cnames with
  | zero => exact ⟨fun _ => ⟨[], n, .nil n, rfl⟩, fun _ => rfl⟩
  | succ turns ih =>
    rw [follow]
    constructor
    · intro endless
      cases missing : findRRset m.answer n q.rdclass q.rdtype with
      | some answer => simp [missing] at endless
      | none =>
        simp only [missing] at endless
        split_ifs at endless with other
        cases found : findRRset m.answer n q.rdclass cnameType with
        | none => simp [found] at endless
        | some c =>
          simp only [found] at endless
          obtain ⟨cs, last, aliases, length⟩ := ih.mp endless
          exact ⟨c :: cs, last, .cons missing other found aliases, congrArg Nat.succ length⟩
    · rintro ⟨cs, last, aliases, length⟩
      cases aliases with
      | nil => cases length
      | cons missing other found rest =>
        simp only [missing, if_pos other, found]
        exact ih.mpr ⟨_, last, rest, Nat.succ.inj length⟩

theorem foldl_min (ts : List Nat) (a : Nat) : IsLeast { t | t ∈ a :: ts } (ts.foldl min a) := by
  induction ts generalizing a with
  | nil => exact ⟨List.mem_singleton_self a, fun t member => (List.mem_singleton.mp member).ge⟩
  | cons b ts ih =>
    obtain ⟨member, least⟩ := ih (min a b)
    constructor
    · rcases List.mem_cons.mp member with first | later
      · rw [List.foldl_cons, first]
        rcases Nat.le_total a b with below | below
        · simp [Nat.min_eq_left below]
        · simp [Nat.min_eq_right below]
      · exact List.mem_cons_of_mem a (List.mem_cons_of_mem b later)
    · intro t inside
      have bound : ts.foldl min (min a b) ≤ min a b := least List.mem_cons_self
      rw [List.foldl_cons]
      rcases List.mem_cons.mp inside with rfl | inside
      · exact bound.trans (Nat.min_le_left _ _)
      · rcases List.mem_cons.mp inside with rfl | later
        · exact bound.trans (Nat.min_le_right _ _)
        · exact least (List.mem_cons_of_mem _ later)

theorem findRRset_congr {n n' : Name} (same : n.labels.map lower = n'.labels.map lower) (rrsets : List RRset)
    (rdclass rdtype : UInt16) : findRRset rrsets n rdclass rdtype = findRRset rrsets n' rdclass rdtype := by
  have agree (r : RRset) : r.name.same n = r.name.same n' := by
    rw [Bool.eq_iff_iff, Name.same_iff, Name.same_iff, same]
  simp only [findRRset, RRset.fullMatch, agree]

/-- Names that are equal up to case have the same chain. -/
theorem Aliases.unique (first : m.Aliases q n cs last) (second : m.Aliases q n' cs' last')
    (same : n.labels.map lower = n'.labels.map lower) (final : m.Final q last) (final' : m.Final q last') : cs = cs' := by
  induction first generalizing n' cs' last' with
  | nil n =>
    cases second with
    | nil => rfl
    | cons missing other found _ =>
      rw [← findRRset_congr same] at missing found
      rcases final missing with cname | none
      · exact absurd cname other
      · cases found.symm.trans none
  | cons missing other found _ ih =>
    rw [findRRset_congr same] at missing found
    cases second with
    | nil =>
      rcases final' missing with cname | none
      · exact absurd cname other
      · cases found.symm.trans none
    | cons _ _ found' rest =>
      obtain rfl := Option.some.inj (found.symm.trans found')
      rw [ih rest rfl final final']

/-- From every name on a chain leads the rest of it. -/
theorem Aliases.rest (aliases : m.Aliases q n cs last) (visited : b ∈ n :: cs.map RRset.target) :
    ∃ cs', cs'.length ≤ cs.length ∧ m.Aliases q b cs' last := by
  induction aliases with
  | nil n =>
    obtain rfl := List.mem_singleton.mp visited
    exact ⟨[], Nat.le_refl _, .nil b⟩
  | cons missing other found rest ih =>
    rcases List.mem_cons.mp visited with rfl | later
    · exact ⟨_, Nat.le_refl _, .cons missing other found rest⟩
    · obtain ⟨cs', shorter, leads⟩ := ih later
      exact ⟨cs', Nat.le_succ_of_le shorter, leads⟩

theorem Aliases.distinct (aliases : m.Aliases q n cs last) (final : m.Final q last) :
    (n :: cs.map RRset.target).Pairwise fun a b => a.same b = false := by
  induction aliases with
  | nil n => exact List.pairwise_singleton _ n
  | @cons n c cs last missing other found rest ih =>
    refine List.Pairwise.cons (fun b visited => ?_) (ih final)
    by_contra again
    obtain ⟨cs', shorter, leads⟩ := rest.rest visited
    have equal := Name.same_iff.mp (Bool.not_eq_false _ ▸ again)
    have whole := (Aliases.cons missing other found rest).unique leads equal final final
    rw [← whole] at shorter
    exact absurd shorter (Nat.not_succ_le_self _)

/-- What is answered where the chain ends. -/
def atEnd (last : Name) (cs : List RRset) : ChainingResult :=
  let r : ChainingResult := ⟨last, findRRset m.answer last q.rdclass q.rdtype, 0, cs⟩
  { r with minimumTtl := (m.ttls q r).tail.foldl min maxTtl }

theorem resolveChaining_end (qr : m.flags &&& 0x8000 ≠ 0) (one : m.question = [q])
    (aliases : m.Aliases q q.name cs last) (final : m.Final q last) (short : cs.length < maxChain) :
    m.resolveChaining =
      if m.rcode = nxDomainCode ∧ (findRRset m.answer last q.rdclass q.rdtype).isSome then .error .answerForNXDOMAIN
      else .ok (atEnd (m := m) (q := q) last cs) := by
  rw [resolveChaining, if_neg qr, one]
  simp only [follow_aliases aliases final short maxTtl [], List.nil_append]
  split_ifs with denied missing
  · rfl
  · rw [Option.isNone_iff_eq_none] at missing
    cases soa : m.superdomainSoa q last with
    | some srrset => simp [atEnd, ttls, missing, soa, List.foldl_append]
    | none => simp [atEnd, ttls, missing, soa]
  · obtain ⟨answer, found⟩ := Option.ne_none_iff_exists'.mp (mt Option.isNone_iff_eq_none.mpr missing)
    simp [atEnd, ttls, found]

theorem atEnd_ttl (last : Name) (cs : List RRset) :
    IsLeast { t | t ∈ m.ttls q (atEnd (m := m) (q := q) last cs) } (atEnd (m := m) (q := q) last cs).minimumTtl :=
  foldl_min _ maxTtl

theorem resolveChaining_ok : m.resolveChaining = .ok r ↔
    m.flags &&& 0x8000 ≠ 0 ∧ ∃ q, m.question = [q] ∧ m.Chained q r := by
  constructor
  · intro resolved
    have qr : m.flags &&& 0x8000 ≠ 0 := by
      intro query
      rw [resolveChaining, if_pos query] at resolved
      cases resolved
    have ⟨q, one⟩ : ∃ q, m.question = [q] := by
      rw [resolveChaining, if_neg qr] at resolved
      split at resolved
      case h_1 q one => exact ⟨q, one⟩
      case h_2 => cases resolved
    refine ⟨qr, q, one, ?_⟩
    cases followed : m.follow q maxChain q.name maxTtl [] with
    | none =>
      simp only [resolveChaining, if_neg qr, one, followed] at resolved
      cases resolved
    | some r' =>
      obtain ⟨cs, aliases, final, short⟩ := follow_some followed
      rw [resolveChaining_end qr one aliases final short] at resolved
      split_ifs at resolved with denied
      cases resolved
      refine ⟨aliases, short, final, rfl, fun nx => ?_, atEnd_ttl _ cs⟩
      by_contra found
      exact denied ⟨nx, Option.isSome_iff_ne_none.mpr found⟩
  · rintro ⟨qr, q, one, chained⟩
    obtain ⟨last, answer, ttl, cs⟩ := r
    obtain ⟨aliases, short, final, answered, denied, least⟩ := chained
    simp only at aliases short final answered denied least
    subst answered
    rw [resolveChaining_end qr one aliases final short, if_neg]
    · have same := (atEnd_ttl (m := m) (q := q) last cs).unique least
      rw [← same]
      rfl
    · rintro ⟨nx, found⟩
      rw [denied nx] at found
      cases found

theorem resolveChaining_tooLong : m.resolveChaining = .error .chainTooLong ↔
    m.flags &&& 0x8000 ≠ 0 ∧ ∃ q, m.question = [q] ∧
      ∃ cs last, m.Aliases q q.name cs last ∧ cs.length = maxChain := by
  constructor
  · intro failed
    have qr : m.flags &&& 0x8000 ≠ 0 := by
      intro query
      rw [resolveChaining, if_pos query] at failed
      cases failed
    rw [resolveChaining, if_neg qr] at failed
    split at failed
    case h_2 => cases failed
    case h_1 q one =>
      cases followed : m.follow q maxChain q.name maxTtl [] with
      | none => exact ⟨qr, q, one, follow_none.mp followed⟩
      | some r =>
        simp only [followed] at failed
        split at failed
        · cases failed
        · split at failed
          · split at failed <;> cases failed
          · cases failed
  · rintro ⟨qr, q, one, long⟩
    simp only [resolveChaining, if_neg qr, one, follow_none.mpr long]

/-- `resolve_chaining` answers what stands at the end of the CNAME chain of the one
question, if it takes less than 16 CNAMEs, and for as long as all of it may be kept;
the chain is too long exactly when 16 CNAMEs follow one another; and on a chain that
is answered no name comes twice, in any case of its letters. -/
theorem resolveChaining_spec (m : Response) :
    (∀ r, m.resolveChaining = .ok r ↔ m.flags &&& 0x8000 ≠ 0 ∧ ∃ q, m.question = [q] ∧ m.Chained q r) ∧
    (m.resolveChaining = .error .chainTooLong ↔ m.flags &&& 0x8000 ≠ 0 ∧ ∃ q, m.question = [q] ∧
      ∃ cs last, m.Aliases q q.name cs last ∧ cs.length = maxChain) ∧
    ∀ q r, m.Chained q r → (q.name :: r.cnames.map RRset.target).Pairwise fun a b => a.same b = false :=
  ⟨fun _ => resolveChaining_ok, resolveChaining_tooLong, fun _ _ chained => chained.aliases.distinct chained.final⟩

end Response

namespace Name
variable {n p z : Name}

theorem parent_isAbsolute (up : n.parent = .ok p) : p.isAbsolute = n.isAbsolute := by
  obtain ⟨label, labels⟩ := parent_ok up
  have unlike : label ≠ [] := by
    rintro rfl
    cases rest : p.labels with
    | nil =>
      have top : n.same root = true := same_iff.mpr (by rw [labels, rest]; rfl)
      simp [parent, top] at up
    | cons next rest =>
      apply n.valid.rooted
      rw [labels, rest]
      exact List.mem_cons_self
  rw [Bool.eq_iff_iff, isAbsolute_iff, isAbsolute_iff, labels, List.mem_cons]
  exact ⟨.inr, fun found => found.resolve_left (Ne.symm unlike)⟩

theorem isSubdomain_self (n : Name) : n.isSubdomain n = true :=
  isSubdomain_iff.mpr ⟨rfl, List.suffix_rfl⟩

/-- The superdomains of a name are the name itself and those of its parent. -/
theorem isSubdomain_parent (up : n.parent = .ok p) (below : n.isSubdomain z = true) (other : n.same z = false) :
    p.isSubdomain z = true := by
  obtain ⟨label, labels⟩ := parent_ok up
  obtain ⟨alike, suffix⟩ := isSubdomain_iff.mp below
  refine isSubdomain_iff.mpr ⟨(parent_isAbsolute up).trans alike, ?_⟩
  rw [labels, List.map_cons, List.suffix_cons_iff] at suffix
  rcases suffix with whole | proper
  · have equal : n.same z = true := same_iff.mpr (by rw [labels, List.map_cons, whole])
    exact absurd equal (by simp [other])
  · exact proper

theorem isSubdomain_of_parent (up : n.parent = .ok p) (below : p.isSubdomain z = true) : n.isSubdomain z = true := by
  obtain ⟨label, labels⟩ := parent_ok up
  obtain ⟨alike, suffix⟩ := isSubdomain_iff.mp below
  refine isSubdomain_iff.mpr ⟨(parent_isAbsolute up).symm.trans alike, ?_⟩
  rw [labels, List.map_cons]
  exact suffix.trans (List.suffix_cons _ _)

/-- Where there is no parent, there is no superdomain either. -/
theorem isSubdomain_top (top : n.parent = .error e) (below : n.isSubdomain z = true) : n.same z = true := by
  obtain ⟨alike, suffix⟩ := isSubdomain_iff.mp below
  have last : n.same root = true ∨ n.same empty = true := by
    unfold parent at top
    split_ifs at top with last
    · rw [Bool.or_eq_true] at last
      exact last
    · cases labels : n.labels with
      | nil => exact .inr (same_iff.mpr (by rw [labels]; rfl))
      | cons label rest =>
        have whole : Valid (label :: rest) := labels ▸ n.valid
        rw [labels, List.tail_cons, make_valid whole.tail] at top
        cases top
  simp only [same_iff] at last ⊢
  rcases last with rooted | empty
  · have absolute : n.isAbsolute = true := by simp [isAbsolute_fold, fold, rooted, root, lower]
    have nonempty : z.labels.map lower ≠ [] :=
      mt List.map_eq_nil_iff.mp (isAbsolute_ne_nil (alike ▸ absolute))
    rw [rooted] at suffix ⊢
    rcases List.suffix_cons_iff.mp suffix with whole | proper
    · exact whole.symm
    · exact absurd (List.suffix_nil.mp proper) nonempty
  · rw [empty] at suffix ⊢
    exact (List.suffix_nil.mp suffix).symm

end Name

namespace Response
variable {m : Response} {q : Question}

/-- The SOA that bounds how long a missing answer is kept is the one of the nearest
superdomain of the name that has one. -/
theorem superdomainSoa_nearest (m : Response) (q : Question) (n : Name) :
    match m.superdomainSoa q n with
    | some srrset => ∃ zone, n.isSubdomain zone = true ∧ findRRset m.authority zone q.rdclass soaType = some srrset ∧
        ∀ z, n.isSubdomain z = true → (findRRset m.authority z q.rdclass soaType).isSome → zone.isSubdomain z = true
    | none => ∀ z, n.isSubdomain z = true → findRRset m.authority z q.rdclass soaType = none := by
  fun_induction superdomainSoa m q n with
  | case1 n srrset found => exact ⟨n, n.isSubdomain_self, found, fun z below _ => below⟩
  | case2 n missing parent up ih =>
    have other {z : Name} (soa : findRRset m.authority z q.rdclass soaType ≠ none) : n.same z = false := by
      by_contra equal
      rw [Bool.not_eq_false, Name.same_iff] at equal
      exact soa (findRRset_congr equal _ _ _ ▸ missing)
    cases nearest : m.superdomainSoa q parent with
    | some srrset =>
      rw [nearest] at ih
      obtain ⟨zone, below, found, closest⟩ := ih
      refine ⟨zone, Name.isSubdomain_of_parent up below, found, fun z above soa => closest z ?_ soa⟩
      exact Name.isSubdomain_parent up above (other (Option.isSome_iff_ne_none.mp soa))
    | none =>
      rw [nearest] at ih
      intro z above
      by_contra soa
      exact soa (ih z (Name.isSubdomain_parent up above (other soa)))
  | case3 n missing e top =>
    intro z above
    exact findRRset_congr (Name.same_iff.mp (Name.isSubdomain_top top above)) _ _ _ ▸ missing

end Response
end HttpSocksProxy.Dns
