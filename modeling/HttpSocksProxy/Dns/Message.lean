import HttpSocksProxy.Dns.Renderer

/-! `_WireReader`: a message is read back from its wire format. -/
namespace HttpSocksProxy.Dns
open Socks

inductive ReadError where
  | wire (e : WireError)
  | shortHeader
  | trailingJunk
  | badEDNS
  | badTSIG
  | unknownTSIGKey
  deriving DecidableEq, Repr

structure Message where
  id : UInt16
  flags : UInt16
  question : List Question
  answer : List Record
  authority : List Record
  additional : List Record
  deriving DecidableEq

namespace Parser

/-- `restrict_to`: the body has to use the `size` bytes that it gets. -/
def restrictTo (size : Nat) (p : Parser) (body : Parser → Except WireError (A × Parser)) :
    Except WireError (A × Parser) :=
  if p.remaining < size then .error .formError
  else do
    let (a, q) ← body { p with limit := p.current + size }
    if q.current ≠ q.limit then .error .formError else .ok (a, { q with limit := p.limit })

/-- `get_struct("!HHIH")`. -/
def getRrHeader (p : Parser) : Except WireError ((UInt16 × UInt16 × UInt32 × UInt16) × Parser) := do
  let (bytes, p) ← p.getBytes 10
  return ((unpackPort (bytes.take 2), unpackPort ((bytes.drop 2).take 2),
    unpackLong ((bytes.drop 4).take 4), unpackPort (bytes.drop 8)), p)

/-- `get_struct("!HH")`. -/
def getTypes (p : Parser) : Except WireError ((UInt16 × UInt16) × Parser) := do
  let (bytes, p) ← p.getBytes 4
  return ((unpackPort (bytes.take 2), unpackPort (bytes.drop 2)), p)

end Parser

def readFields : List Field → Parser → Except WireError (List Value × Parser)
  | [], p => .ok ([], p)
  | .fixed n :: fields, p => do
    let (b, p) ← p.getBytes n
    let (values, p) ← readFields fields p
    return (.bytes b :: values, p)
  | .domain _ :: fields, p => do
    let (n, p) ← fromWireParser p
    let (values, p) ← readFields fields p
    return (.name n :: values, p)

/-- The `from_wire_parser` of an rdata class. Of a type that is not laid out it takes
whatever remains, where the class in the code may raise. -/
def readRdata (l : Layout) (p : Parser) : Except WireError (Rdata × Parser) := do
  let (values, p) ← readFields l.fields p
  if l.trailing then do
    let (tail, p) ← p.getBytes (p.limit - p.current)
    return (⟨values, tail⟩, p)
  return (⟨values, []⟩, p)

/-- `ExceptionWrapper(FormError)`. -/
def asFormError (x : Except WireError A) : Except WireError A :=
  match x with
  | .error (.name _) => .error .formError
  | x => x

def optType : UInt16 := 41

def tsigType : UInt16 := 250

/-- `_parse_special_rr_header`. -/
def parseSpecial (s : Section) (last opt : Bool) (name : Name) (rdclass rdtype : UInt16) : Except ReadError Unit :=
  if rdtype = optType then
    if s ≠ .additional ∨ opt ∨ !name.same .root then .error .badEDNS else .ok ()
  else if rdtype = tsigType then
    if s ≠ .additional ∨ rdclass ≠ 255 ∨ !last then .error .badTSIG else .ok ()
  else .ok ()

/-- A TTL with its sign bit set counts as zero. -/
def clampTtl (rdtype : UInt16) (ttl : UInt32) : UInt32 :=
  if rdtype ≠ optType ∧ 0x7FFFFFFF < ttl then 0 else ttl

/-- One turn of the loop in `_get_section`, without a keyring. -/
def readRecord (s : Section) (last opt : Bool) (p : Parser) : Except ReadError (Record × Parser) := do
  let (name, p) ← (fromWireParser p).mapError .wire
  let ((rdtype, rdclass, ttl, rdlen), p) ← p.getRrHeader.mapError .wire
  parseSpecial s last opt name rdclass rdtype
  let (rd, p) ← (p.restrictTo rdlen.toNat fun p => asFormError (readRdata (layout rdclass rdtype) p)).mapError .wire
  if rdtype = tsigType then .error .unknownTSIGKey
  return (⟨name, rdtype, rdclass, clampTtl rdtype ttl, rd⟩, p)

/-- `_get_section`, with whether an OPT record has been read. -/
def readRecords (s : Section) : Nat → Bool → Parser → Except ReadError (List Record × Bool × Parser)
  | 0, opt, p => .ok ([], opt, p)
  | n + 1, opt, p => do
    let (r, p) ← readRecord s (n = 0) opt p
    let (rs, opt, p) ← readRecords s n (opt || r.rdtype = optType) p
    return (r :: rs, opt, p)

/-- `_get_question`. -/
def readQuestions : Nat → Parser → Except ReadError (List Question × Parser)
  | 0, p => .ok ([], p)
  | n + 1, p => do
    let (name, p) ← (fromWireParser p).mapError .wire
    let ((rdtype, rdclass), p) ← p.getTypes.mapError .wire
    let (qs, p) ← readQuestions n p
    return (⟨name, rdtype, rdclass⟩ :: qs, p)

/-- `_WireReader.read`. -/
def readMessage (wire : List UInt8) : Except ReadError Message := do
  let p : Parser := ⟨wire, wire.length, 0, 0⟩
  if p.remaining < 12 then .error .shortHeader
  let (header, p) ← (p.getBytes 12).mapError .wire
  let number (i : Nat) : UInt16 := unpackPort ((header.drop (2 * i)).take 2)
  let (question, p) ← readQuestions (number 2).toNat p
  let (answer, opt, p) ← readRecords .answer (number 3).toNat false p
  let (authority, opt, p) ← readRecords .authority (number 4).toNat opt p
  let (additional, _, p) ← readRecords .additional (number 5).toNat opt p
  if p.remaining ≠ 0 then .error .trailingJunk
  return ⟨number 0, number 1, question, answer, authority, additional⟩

/-- A parser that has read up to a position. -/
def Parser.upTo (wire : List UInt8) (limit position : Nat) : Parser := ⟨wire, limit, position, position⟩

section Reading
variable {wire : List UInt8}

theorem getBytes_upTo (here : bytes <+: wire.drop start) (size : bytes.length = n) (inside : start + n ≤ limit) :
    (Parser.upTo wire limit start).getBytes n = .ok (bytes, Parser.upTo wire limit (start + n)) := by
  have fits : ¬ (Parser.upTo wire limit start).remaining < n := by
    simp only [Parser.remaining, Parser.upTo]
    omega
  have same : (wire.drop start).take n = bytes := by
    rw [← size]
    exact (List.prefix_iff_eq_take.mp here).symm
  rw [Parser.getBytes, if_neg fits]
  simp only [Parser.upTo, same, Nat.max_eq_right (Nat.le_add_right start n)]

theorem fromWireParser_upTo {name : Name} (here : Reads wire start start name.labels stop) (inside : stop ≤ limit) :
    fromWireParser (Parser.upTo wire limit start) = .ok (name, Parser.upTo wire limit stop) := by
  have fresh : (Parser.upTo wire limit start).furthest ≤ (Parser.upTo wire limit start).current := Nat.le_refl _
  obtain ⟨⟨_, _, _, _⟩, read, same⟩ := fromWireParser_reads fresh here inside name.valid
  simp only at same
  obtain ⟨rfl, rfl, rfl, rfl⟩ := same
  exact read

theorem FieldsAt.le (here : FieldsAt wire start fields values stop) : start ≤ stop := by
  induction here with
  | nil => exact Nat.le_refl _
  | fixed _ _ _ ih => exact Nat.le_of_add_right_le ih
  | domain here _ ih => exact Nat.le_trans (Nat.le_of_lt here.stop_le.1) ih

theorem readFields_upTo (here : FieldsAt wire start fields values stop) (inside : stop ≤ limit) :
    readFields fields (Parser.upTo wire limit start) = .ok (values, Parser.upTo wire limit stop) := by
  induction here with
  | nil => rfl
  | fixed size here rest ih =>
    rw [readFields, getBytes_upTo here size (rest.le.trans inside)]
    simp only [bind, Except.bind, ih inside]
    rfl
  | domain here rest ih =>
    rw [readFields, fromWireParser_upTo here (rest.le.trans inside)]
    simp only [bind, Except.bind, ih inside]
    rfl

/-- Rdata that ends where the parser has to. -/
theorem readRdata_upTo (here : RdataAt wire start l rd stop) :
    readRdata l (Parser.upTo wire stop start) = .ok (rd, Parser.upTo wire stop stop) := by
  have behind := here.whole
  rw [readRdata, readFields_upTo here.fields (Nat.sub_le _ _)]
  cases trailing : l.trailing with
  | false =>
    have none := here.bare trailing
    obtain ⟨values, tail⟩ := rd
    subst none
    rfl
  | true =>
    have rest : stop - (stop - rd.tail.length) = rd.tail.length := by omega
    have inside : stop - rd.tail.length + rd.tail.length ≤ stop := by omega
    have taken := getBytes_upTo here.tail rfl inside
    rw [Nat.sub_add_cancel behind] at taken
    simp only [bind, Except.bind, if_true, Parser.upTo, rest]
    simp only [Parser.upTo] at taken
    rw [taken]
    rfl

theorem restrictTo_upTo {body : Parser → Except WireError (A × Parser)} (order : start ≤ stop) (inside : stop ≤ limit)
    (done : body (Parser.upTo wire stop start) = .ok (a, Parser.upTo wire stop stop)) :
    (Parser.upTo wire limit start).restrictTo (stop - start) body = .ok (a, Parser.upTo wire limit stop) := by
  have fits : ¬ (Parser.upTo wire limit start).remaining < (stop - start : Nat) := by
    simp only [Parser.remaining, Parser.upTo]
    omega
  have same : start + (stop - start) = stop := by omega
  rw [Parser.restrictTo, if_neg fits]
  simp only [Parser.upTo, same] at done ⊢
  rw [done]
  exact if_neg (not_not.mpr rfl)

theorem packShort_packPort (small : n < 65536) : packShort n = packPort n.toUInt16 := by
  have size : n.toUInt16.toNat = n := by
    simp only [Nat.toUInt16_eq, UInt16.toNat_ofNat']
    omega
  have high : (n / 256).toUInt8 = (n.toUInt16 / 256).toUInt8 := by
    apply UInt8.toNat_inj.mp
    simp only [Nat.toUInt8_eq, UInt8.toNat_ofNat', UInt16.toNat_toUInt8, UInt16.toNat_div, size]
    rfl
  have low : n.toUInt8 = n.toUInt16.toUInt8 := by
    apply UInt8.toNat_inj.mp
    simp only [Nat.toUInt8_eq, UInt8.toNat_ofNat', UInt16.toNat_toUInt8, size]
  rw [packShort, packPort, high, low]

theorem unpackLong_packLong (n : UInt32) : unpackLong (packLong n) = n := by
  have two (port : UInt16) : (packPort port).length = 2 := rfl
  rw [unpackLong, packLong, List.take_left' (two _), List.drop_left' (two _), unpackPort_packPort, unpackPort_packPort]
  apply UInt32.toNat_inj.mp
  have := n.toNat_lt
  simp
  omega

theorem getRrHeader_upTo (here : recordHeader rdtype rdclass ttl rdlen <+: wire.drop start) (small : rdlen < 65536)
    (inside : start + 10 ≤ limit) : (Parser.upTo wire limit start).getRrHeader =
      .ok ((rdtype, rdclass, ttl, rdlen.toUInt16), Parser.upTo wire limit (start + 10)) := by
  have taken := getBytes_upTo (n := 10) here rfl inside
  rw [Parser.getRrHeader, taken]
  have fields : unpackPort ((recordHeader rdtype rdclass ttl rdlen).take 2) = rdtype ∧
      unpackPort (((recordHeader rdtype rdclass ttl rdlen).drop 2).take 2) = rdclass ∧
      unpackLong (((recordHeader rdtype rdclass ttl rdlen).drop 4).take 4) = ttl ∧
      unpackPort ((recordHeader rdtype rdclass ttl rdlen).drop 8) = rdlen.toUInt16 := by
    rw [recordHeader, packShort_packPort small]
    exact ⟨unpackPort_packPort rdtype, unpackPort_packPort rdclass, unpackLong_packLong ttl, unpackPort_packPort _⟩
  simp only [bind, Except.bind, fields]
  rfl

theorem getTypes_upTo (here : packPort rdtype ++ packPort rdclass <+: wire.drop start) (inside : start + 4 ≤ limit) :
    (Parser.upTo wire limit start).getTypes = .ok ((rdtype, rdclass), Parser.upTo wire limit (start + 4)) := by
  have taken := getBytes_upTo (n := 4) here rfl inside
  rw [Parser.getTypes, taken]
  have fields : unpackPort ((packPort rdtype ++ packPort rdclass).take 2) = rdtype ∧
      unpackPort ((packPort rdtype ++ packPort rdclass).drop 2) = rdclass :=
    ⟨unpackPort_packPort rdtype, unpackPort_packPort rdclass⟩
  simp only [bind, Except.bind, fields]
  rfl

/-- Neither an OPT nor a TSIG record. -/
def Ordinary (rdtype : UInt16) : Prop := rdtype ≠ optType ∧ rdtype ≠ tsigType

theorem LaidOut.ordinary (kept : LaidOut rdclass rdtype) : Ordinary rdtype := by
  constructor
  all_goals
    rintro rfl
    simp [LaidOut, layout, optType, tsigType] at kept

def Record.clamped (r : Record) : Record := { r with ttl := clampTtl r.rdtype r.ttl }

theorem readRecord_upTo (here : RecordAt wire start r stop) (inside : stop ≤ limit) (ordinary : Ordinary r.rdtype)
    (s : Section) (last opt : Bool) :
    readRecord s last opt (Parser.upTo wire limit start) = .ok (r.clamped, Parser.upTo wire limit stop) := by
  obtain ⟨next, name, order, small, header, rdata⟩ := here.body
  have size : (stop - (next + 10)).toUInt16.toNat = stop - (next + 10) := by
    simp only [Nat.toUInt16_eq, UInt16.toNat_ofNat']
    omega
  have special : parseSpecial s last opt r.name r.rdclass r.rdtype = .ok () := by
    rw [parseSpecial, if_neg ordinary.1, if_neg ordinary.2]
  have restricted : (Parser.upTo wire limit (next + 10)).restrictTo (stop - (next + 10))
      (fun p => asFormError (readRdata (layout r.rdclass r.rdtype) p)) = .ok (r.rdata, Parser.upTo wire limit stop) := by
    refine restrictTo_upTo order inside ?_
    rw [readRdata_upTo rdata]
    rfl
  rw [readRecord, fromWireParser_upTo name (by omega)]
  simp only [bind, Except.bind, Except.mapError, getRrHeader_upTo header small (order.trans inside), special, size,
    restricted, if_neg ordinary.2]
  rfl

theorem RecordsAt.le (here : RecordsAt wire start rs stop) : start ≤ stop := by
  induction here with
  | nil => exact Nat.le_refl _
  | cons first _ ih =>
    obtain ⟨next, name, order, _⟩ := first.body
    have := name.stop_le
    omega

theorem readRecords_upTo (here : RecordsAt wire start rs stop) (inside : stop ≤ limit)
    (ordinary : ∀ r ∈ rs, Ordinary r.rdtype) (s : Section) :
    readRecords s rs.length false (Parser.upTo wire limit start) =
      .ok (rs.map Record.clamped, false, Parser.upTo wire limit stop) := by
  induction here with
  | nil => rfl
  | @cons start r middle rs stop first rest ih =>
    have here := readRecord_upTo first (rest.le.trans inside) (ordinary r List.mem_cons_self) s
      (decide (rs.length = 0)) false
    have ordinaryType : r.clamped.rdtype ≠ optType := (ordinary r List.mem_cons_self).1
    rw [List.length_cons, readRecords, here]
    simp only [bind, Except.bind, Bool.false_or, decide_eq_false ordinaryType,
      ih inside fun r member => ordinary r (List.mem_cons_of_mem _ member)]
    rfl

theorem QuestionsAt.le (here : QuestionsAt wire start questions stop) : start ≤ stop := by
  induction here with
  | nil => exact Nat.le_refl _
  | cons first _ ih =>
    obtain ⟨next, name, rfl, _⟩ := first.body
    have := name.stop_le
    omega

theorem readQuestions_upTo (here : QuestionsAt wire start questions stop) (inside : stop ≤ limit) :
    readQuestions questions.length (Parser.upTo wire limit start) =
      .ok (questions, Parser.upTo wire limit stop) := by
  induction here with
  | nil => rfl
  | @cons start q middle questions stop first rest ih =>
    obtain ⟨next, name, rfl, types⟩ := first.body
    have before := rest.le
    have header := getTypes_upTo types (before.trans inside)
    rw [List.length_cons, readQuestions, fromWireParser_upTo name (by omega)]
    simp only [bind, Except.bind, Except.mapError, header, ih inside]
    rfl

end Reading

end HttpSocksProxy.Dns
