import HttpSocksProxy.Dns.Resolution
import HttpSocksProxy.Dns.Sections
import HttpSocksProxy.Foundation.ByteStream

/-! `from_wire` for the reply to a query: what is read is filed into RRsets, and the
reply has to be one to the query. -/
namespace HttpSocksProxy.Dns
open Socks ByteStream

section Reading
variable {p q : Parser}

/-- What is read leaves the message and its limit as they are. -/
structure Parser.Kept (p q : Parser) : Prop where
  wire : q.wire = p.wire
  limit : q.limit = p.limit

namespace Parser.Kept

theorem refl (p : Parser) : Kept p p := ⟨rfl, rfl⟩

theorem trans {r : Parser} (first : Kept p q) (later : Kept q r) : Kept p r :=
  ⟨later.wire.trans first.wire, later.limit.trans first.limit⟩

theorem whole (kept : Kept p q) (whole : p.Whole) : q.Whole := by
  rw [Parser.Whole, kept.wire, kept.limit]
  exact whole

theorem of_moved (moved : Parser.Moved n p q) : Kept p q := ⟨moved.wire, moved.limit⟩

end Parser.Kept

theorem getBytes_length (got : p.getBytes size = .ok (bytes, q)) (whole : p.Whole) : bytes.length = size := by
  obtain ⟨moved, rfl⟩ := Parser.getBytes_ok got
  have inside := moved.inside
  have whole : p.limit ≤ p.wire.length := whole
  rw [List.length_take, List.length_drop]
  omega

theorem fromWireParser_kept (done : fromWireParser p = .ok (name, q)) (whole : p.Whole) : p.Kept q := by
  unfold fromWireParser at done
  split at done
  case h_1 => cases done
  case h_2 labels q' read =>
    split at done
    case h_1 => cases done
    case h_2 =>
      cases done
      obtain ⟨_, _, _, _, _, wire, limit, _⟩ := readLabels_ok whole read
      exact ⟨wire, limit⟩

theorem getRrHeader_kept (read : p.getRrHeader = .ok (header, q)) : p.Kept q := by
  obtain ⟨_, got, made⟩ := bind_ok.mp read
  cases made
  exact .of_moved (Parser.getBytes_ok got).1

theorem getTypes_kept (read : p.getTypes = .ok (types, q)) : p.Kept q := by
  obtain ⟨_, got, made⟩ := bind_ok.mp read
  cases made
  exact .of_moved (Parser.getBytes_ok got).1

theorem readFields_takes (read : readFields fields p = .ok (values, q)) (whole : p.Whole) :
    List.Forall₂ Field.Takes fields values ∧ p.Kept q := by
  induction fields generalizing values p with
  | nil =>
    cases read
    exact ⟨.nil, .refl _⟩
  | cons field fields ih =>
    cases field with
    | fixed n =>
      obtain ⟨⟨bytes, p'⟩, first, read⟩ := bind_ok.mp read
      obtain ⟨⟨rest, p''⟩, later, made⟩ := bind_ok.mp read
      cases made
      have kept := Parser.Kept.of_moved (Parser.getBytes_ok first).1
      obtain ⟨takes, kept'⟩ := ih later (kept.whole whole)
      exact ⟨.cons (getBytes_length first whole) takes, kept.trans kept'⟩
    | domain compressing =>
      obtain ⟨⟨name, p'⟩, first, read⟩ := bind_ok.mp read
      obtain ⟨⟨rest, p''⟩, later, made⟩ := bind_ok.mp read
      cases made
      have kept := fromWireParser_kept first whole
      obtain ⟨takes, kept'⟩ := ih later (kept.whole whole)
      exact ⟨.cons trivial takes, kept.trans kept'⟩

theorem readRdata_fits (read : readRdata l p = .ok (rd, q)) (whole : p.Whole) : rd.Fits l ∧ p.Kept q := by
  obtain ⟨⟨values, p'⟩, first, read⟩ := bind_ok.mp read
  obtain ⟨takes, kept⟩ := readFields_takes first whole
  dsimp only at read
  split at read
  case isTrue trailing =>
    obtain ⟨⟨tail, p''⟩, rest, made⟩ := bind_ok.mp read
    cases made
    exact ⟨⟨takes, fun bare => by simp [trailing] at bare⟩, kept.trans (.of_moved (Parser.getBytes_ok rest).1)⟩
  case isFalse =>
    cases read
    exact ⟨⟨takes, fun _ => rfl⟩, kept⟩

theorem restrictTo_kept {body : Parser → Except WireError (A × Parser)} {P : A → Prop}
    (done : p.restrictTo size body = .ok (a, q)) (whole : p.Whole)
    (inner : ∀ p' q', p'.Whole → body p' = .ok (a, q') → P a ∧ p'.Kept q') : P a ∧ p.Kept q := by
  unfold Parser.restrictTo Parser.remaining at done
  split at done
  case isTrue => cases done
  case isFalse fits =>
    obtain ⟨⟨a', q'⟩, read, done⟩ := bind_ok.mp done
    dsimp only at done
    split at done
    case isTrue => cases done
    case isFalse =>
      cases done
      have whole : p.limit ≤ p.wire.length := whole
      have inside : Parser.Whole { p with limit := p.current + size } := by
        simp only [Parser.Whole]
        omega
      obtain ⟨here, kept⟩ := inner _ _ inside read
      exact ⟨here, kept.wire, rfl⟩

theorem mapError_ok {x : Except E A} {f : E → F} : x.mapError f = .ok a ↔ x = .ok a := by
  cases x <;> simp [Except.mapError]

theorem asFormError_ok {x : Except WireError A} : asFormError x = .ok a ↔ x = .ok a := by
  unfold asFormError
  split <;> simp

theorem readRecord_fits (read : readRecord s last opt p = .ok (r, q)) (whole : p.Whole) : r.Fits ∧ p.Kept q := by
  obtain ⟨⟨name, p₁⟩, named, read⟩ := bind_ok.mp read
  obtain ⟨⟨⟨rdtype, rdclass, ttl, rdlen⟩, p₂⟩, header, read⟩ := bind_ok.mp read
  dsimp only at named header read
  obtain ⟨_, _, read⟩ := bind_ok.mp read
  obtain ⟨⟨rd, p₃⟩, body, read⟩ := bind_ok.mp read
  have kept := (fromWireParser_kept (mapError_ok.mp named) whole).trans (getRrHeader_kept (mapError_ok.mp header))
  obtain ⟨fits, kept'⟩ := restrictTo_kept (P := fun rd => rd.Fits (layout rdclass rdtype)) (mapError_ok.mp body)
    (kept.whole whole) fun p' q' whole read => readRdata_fits (asFormError_ok.mp read) whole
  dsimp only at read
  split at read
  case isTrue => cases read
  cases read
  exact ⟨fits, kept.trans kept'⟩

theorem readRecords_fits (read : readRecords s n opt p = .ok (rs, opt', q)) (whole : p.Whole) :
    (∀ r ∈ rs, r.Fits) ∧ p.Kept q := by
  induction n generalizing opt p rs with
  | zero =>
    cases read
    exact ⟨fun r member => absurd member List.not_mem_nil, .refl _⟩
  | succ n ih =>
    obtain ⟨⟨r, p'⟩, first, read⟩ := bind_ok.mp read
    obtain ⟨⟨rest, opt'', p''⟩, later, made⟩ := bind_ok.mp read
    cases made
    obtain ⟨fits, kept⟩ := readRecord_fits first whole
    obtain ⟨others, kept'⟩ := ih later (kept.whole whole)
    exact ⟨List.forall_mem_cons.mpr ⟨fits, others⟩, kept.trans kept'⟩

theorem readQuestions_kept (read : readQuestions n p = .ok (qs, q)) (whole : p.Whole) : p.Kept q := by
  induction n generalizing p qs with
  | zero =>
    cases read
    exact .refl _
  | succ n ih =>
    obtain ⟨⟨name, p₁⟩, named, read⟩ := bind_ok.mp read
    obtain ⟨⟨⟨rdtype, rdclass⟩, p₂⟩, header, read⟩ := bind_ok.mp read
    obtain ⟨⟨rest, p₃⟩, later, made⟩ := bind_ok.mp read
    cases made
    have kept := (fromWireParser_kept (mapError_ok.mp named) whole).trans (getTypes_kept (mapError_ok.mp header))
    exact kept.trans (ih later (kept.whole whole))

/-- Every record that is read could have been written. -/
theorem readMessage_fits (read : readMessage wire = .ok m) :
    ∀ r ∈ m.answer ++ m.authority ++ m.additional, r.Fits := by
  unfold readMessage at read
  dsimp only at read
  split at read
  case isTrue => cases read
  obtain ⟨⟨header, p₀⟩, got, read⟩ := bind_ok.mp read
  obtain ⟨⟨question, p₁⟩, asked, read⟩ := bind_ok.mp read
  obtain ⟨⟨answer, opt₁, p₂⟩, first, read⟩ := bind_ok.mp read
  obtain ⟨⟨authority, opt₂, p₃⟩, second, read⟩ := bind_ok.mp read
  obtain ⟨⟨additional, opt₃, p₄⟩, third, read⟩ := bind_ok.mp read
  dsimp only at read
  split at read
  case isTrue => cases read
  cases read
  have whole : Parser.Whole ⟨wire, wire.length, 0, 0⟩ := Nat.le_refl _
  have kept := Parser.Kept.of_moved (Parser.getBytes_ok (mapError_ok.mp got)).1
  have kept := kept.trans (readQuestions_kept asked (kept.whole whole))
  obtain ⟨fits₁, kept₁⟩ := readRecords_fits first (kept.whole whole)
  have kept := kept.trans kept₁
  obtain ⟨fits₂, kept₂⟩ := readRecords_fits second (kept.whole whole)
  have kept := kept.trans kept₂
  obtain ⟨fits₃, _⟩ := readRecords_fits third (kept.whole whole)
  simp only [List.mem_append]
  rintro r ((member | member) | member)
  · exact fits₁ r member
  · exact fits₂ r member
  · exact fits₃ r member

end Reading

namespace Message

/-- `dns.opcode.from_flags`. -/
def opcodeOf (flags : UInt16) : UInt16 := (flags &&& 0x7800) >>> 11

/-- The TTL of the OPT record. -/
def ednsflags (m : Message) : Nat := (m.additional.find? (·.rdtype = optType)).elim 0 (·.ttl.toNat)

def rcode (m : Message) : Nat := (m.flags.toNat &&& 0xF) ||| ((m.ednsflags >>> 20) &&& 0xFF0)

end Message

/-- The equality of two RRsets without rdatas. -/
def Question.same (a b : Question) : Bool := a.name.same b.name ∧ a.rdclass = b.rdclass ∧ a.rdtype = b.rdtype

/-- `is_response`. -/
def Message.isResponse (q m : Message) : Bool :=
  if m.flags &&& 0x8000 = 0 ∨ q.id ≠ m.id ∨ opcodeOf q.flags ≠ opcodeOf m.flags then false
  -- FORMERR, SERVFAIL, NOTIMP and REFUSED may come without the question
  else if m.rcode ∈ [1, 2, 4, 5] ∧ m.question.length = 0 then true
  else if opcodeOf q.flags = 5 then true
  else q.question.all (fun n => m.question.any n.same) && m.question.all fun n => q.question.any n.same

/-- A message that has been read. -/
structure Reply extends Message where
  fits : ∀ r ∈ toMessage.answer ++ toMessage.authority ++ toMessage.additional, r.Fits

namespace Reply

def answers (m : Reply) : List Entry :=
  m.answer.attachWith _ fun r member => m.fits r (List.mem_append_left _ (List.mem_append_left _ member))

def authorities (m : Reply) : List Entry :=
  m.authority.attachWith _ fun r member => m.fits r (List.mem_append_left _ (List.mem_append_right _ member))

/-- The sections, as they are filed. -/
def response (m : Reply) : Response where
  flags := m.flags.toNat
  ednsflags := m.ednsflags
  question := m.question
  answer := fileRecords m.answers
  authority := fileRecords m.authorities

end Reply

/-- What an exchange raises. -/
inductive ExchangeError where
  | reading (e : ReadError)
  | truncated
  | valueError
  | badResponse
  | unexpectedSource
  | eof
  | backend (ex : QueryError)
  deriving DecidableEq, Repr

/-- The subclasses of `FormError`. -/
def ReadError.isFormError : ReadError → Bool
  | .wire (.name .nameTooLong) => true
  | .wire (.name _) => false
  | .wire _ => true
  | .shortHeader | .trailingJunk | .badEDNS | .badTSIG => true
  | .unknownTSIGKey => false

/-- What `query_result` makes of it. -/
def ExchangeError.query : ExchangeError → QueryError
  | .reading e => if e.isFormError then .formError else .other
  | .truncated => .truncated
  | .badResponse => .formError
  | .eof => .eofError
  | .backend ex => ex
  | .valueError | .unexpectedSource => .other

section
-- what the exchange comes to if a dynamic update is read, which answers no query
variable (update : List UInt8 → ExchangeError)

/-- `dns.message.from_wire`. -/
def Reply.fromWire (raiseOnTruncation : Bool) (wire : List UInt8) : Except ExchangeError Reply :=
  if wire.length < 12 then .error (.reading .shortHeader)
  else
    let flags := unpackPort ((wire.drop 2).take 2)
    let truncated := raiseOnTruncation ∧ flags &&& 0x200 ≠ 0
    if Message.opcodeOf flags = 5 then .error (update wire)
    else if Message.opcodeOf flags ∉ [0, 1, 2, 4] then .error .valueError
    else match read : readMessage wire with
      | .error e => .error (if e.isFormError ∧ truncated then .truncated else .reading e)
      | .ok m => if truncated then .error .truncated else .ok ⟨m, readMessage_fits read⟩

/-- The end of `udp` and of `tcp`. -/
def Reply.accept (q : Message) (raiseOnTruncation : Bool) (wire : List UInt8) : Except ExchangeError Reply :=
  (fromWire update raiseOnTruncation wire).bind fun m =>
    if q.isResponse m.toMessage then .ok m else .error .badResponse

end

/-- The request of `next_request`: `make_query`, with recursion desired. -/
def request (id : UInt16) (asked : Question) : Message where
  id := id
  flags := 0x100
  question := [asked]
  answer := []
  authority := []
  additional := []

/-- The name that a CNAME record leads to. -/
def Record.target (r : Record) : Name :=
  match r.rdata.values with
  | .name n :: _ => n
  | _ => .empty

namespace Reply

/-- The records of a name, class and type in the answer section. -/
def records (m : Reply) (name : Name) (rdclass rdtype : UInt16) : List Entry :=
  m.answers.filter (·.matching name rdclass rdtype)

/-- From a name without records of its own leads its last CNAME record. -/
inductive Leads (m : Reply) (rdclass rdtype : UInt16) : Name → List Entry → Name → Prop where
  | here (n : Name) : Leads m rdclass rdtype n [] n
  | alias (unanswered : m.records n rdclass rdtype = []) (last : (m.records n rdclass cnameType).getLast? = some e)
      (rest : Leads m rdclass rdtype e.1.target es end') : Leads m rdclass rdtype n (e :: es) end'

/-- What a reply has to tell about a question. -/
structure Answers (m : Reply) (asked : Question) (r : ChainingResult) : Prop where
  chain : ∃ n es, n.same asked.name = true ∧ es.length < maxChain ∧
    m.Leads asked.rdclass asked.rdtype n es r.canonicalName ∧ ∀ e ∈ es, r.minimumTtl ≤ e.1.ttl.toNat
  answer : match r.answer with
    | none => m.records r.canonicalName asked.rdclass asked.rdtype = []
    | some answer => answer.fullMatch r.canonicalName asked.rdclass asked.rdtype = true ∧
      Collected (m.records r.canonicalName asked.rdclass asked.rdtype) answer ∧ r.minimumTtl ≤ answer.ttl.toNat

section Chains
variable {m : Reply} {q : Question} {n : Name}

/-- The CNAME RRset of a name is its last CNAME record. -/
theorem cname_last (found : findRRset m.response.answer n rdclass cnameType = some c) :
    ∃ e, (m.records n rdclass cnameType).getLast? = some e ∧ c.target = e.1.target ∧ c.ttl.toNat ≤ e.1.ttl.toNat := by
  obtain ⟨full, collected⟩ := findRRset_found (by decide) found
  have type : c.rdtype = cnameType := by
    simp only [RRset.fullMatch, decide_eq_true_eq] at full
    exact full.2.1
  obtain ⟨e, last, only⟩ := Option.map_eq_some_iff.mp (collected.single (by rw [type]; decide))
  have first : c.rdatas.head c.nonempty = e.1.rdata := by simp only [← only, List.head_cons]
  have target : c.target = Record.target { e.1 with rdata := c.rdatas.head c.nonempty } := rfl
  refine ⟨e, last, ?_, collected.least.2 ⟨e, List.mem_of_getLast? last, rfl⟩⟩
  exact target.trans (congrArg (fun rd => Record.target { e.1 with rdata := rd }) first)

theorem leads_of_aliases (aliases : m.response.Aliases q n cs end') (unsigned : q.rdtype ≠ rrsigType) :
    ∃ es, es.length = cs.length ∧ m.Leads q.rdclass q.rdtype n es end' ∧
      ∀ e ∈ es, ∃ c ∈ cs, c.ttl.toNat ≤ e.1.ttl.toNat := by
  induction aliases with
  | nil n => exact ⟨[], rfl, .here n, nofun⟩
  | @cons n c cs end' missing other found rest ih =>
    obtain ⟨e, last, target, ttl⟩ := cname_last found
    obtain ⟨es, length, leads, ttls⟩ := ih
    have unanswered := (findRRset_missing unsigned _ _ _).mp missing
    refine ⟨e :: es, congrArg Nat.succ length, .alias unanswered last (target ▸ leads), ?_⟩
    intro e' member
    rcases List.mem_cons.mp member with rfl | later
    · exact ⟨c, List.mem_cons_self, ttl⟩
    · obtain ⟨c', inside, bound⟩ := ttls e' later
      exact ⟨c', List.mem_cons_of_mem c inside, bound⟩

/-- What is read is a message. -/
theorem fromWire_ok (read : fromWire update raiseOnTruncation wire = .ok m) : readMessage wire = .ok m.toMessage := by
  unfold fromWire at read
  dsimp only at read
  split at read
  case isTrue => cases read
  split at read
  case isTrue => cases read
  split at read
  case isTrue => cases read
  split at read
  case h_1 => cases read
  case h_2 message parsed =>
    split_ifs at read
    cases read
    exact parsed

theorem accept_ok {q : Message} (accepted : accept update q raiseOnTruncation wire = .ok m) :
    readMessage wire = .ok m.toMessage ∧ q.isResponse m.toMessage = true := by
  obtain ⟨m', read, checked⟩ := bind_ok.mp accepted
  split at checked
  case isFalse => cases checked
  case isTrue response =>
    cases checked
    exact ⟨fromWire_ok read, response⟩

/-- A response to a request has its id, and its question or none. -/
theorem isResponse_request {m : Message} (response : (request number asked).isResponse m = true) :
    m.flags &&& 0x8000 ≠ 0 ∧ m.id = number ∧ (m.question = [] ∨ ∀ q ∈ m.question, q.same asked = true) := by
  unfold Message.isResponse at response
  split at response
  case isTrue => cases response
  case isFalse matching =>
    simp only [not_or, not_not, ne_eq] at matching
    obtain ⟨qr, id, opcode⟩ := matching
    refine ⟨qr, id.symm, ?_⟩
    split at response
    case isTrue bare => exact .inl (List.length_eq_zero_iff.mp bare.2)
    case isFalse =>
      split at response
      case isTrue updating =>
        have querying : Message.opcodeOf 0x100 ≠ 5 := by decide
        exact absurd updating querying
      case isFalse =>
        refine .inr fun q member => ?_
        have listed := List.all_eq_true.mp (Bool.and_eq_true_iff.mp response).2 q member
        simpa [request] using listed

/-- The question of a response that resolves is the one that was asked. -/
theorem asked_chained (response : (request number asked).isResponse m.toMessage = true)
    (resolved : m.response.resolveChaining = .ok r) : ∃ n : Name, n.same asked.name = true ∧
      m.response.Chained ⟨n, asked.rdtype, asked.rdclass⟩ r := by
  obtain ⟨_, q, one, chained⟩ := Response.resolveChaining_ok.mp resolved
  obtain ⟨_, _, bare | same⟩ := isResponse_request response
  · exact absurd (one.symm.trans bare) (List.cons_ne_nil _ _)
  · have member : q ∈ m.question := by
      rw [show m.question = [q] from one]
      exact List.mem_singleton_self q
    have same := same q member
    simp only [Question.same, decide_eq_true_eq] at same
    obtain ⟨name, rdclass, rdtype⟩ := same
    refine ⟨q.name, name, ?_⟩
    rw [← rdclass, ← rdtype]
    exact chained

/-- A chain of CNAME RRsets is one of CNAME records. -/
theorem answers_chained (kept : LaidOut asked.rdclass asked.rdtype) (same : n.same asked.name = true)
    (chained : m.response.Chained ⟨n, asked.rdtype, asked.rdclass⟩ r) : m.Answers asked r := by
  have least {t : Nat} (bound : t ∈ m.response.ttls ⟨n, asked.rdtype, asked.rdclass⟩ r) : r.minimumTtl ≤ t :=
    chained.ttl.2 bound
  constructor
  case chain =>
    obtain ⟨es, length, leads, ttls⟩ := leads_of_aliases chained.aliases kept.unsigned
    refine ⟨n, es, same, length ▸ chained.short, leads, fun e inside => ?_⟩
    obtain ⟨c, listed, ttl⟩ := ttls e inside
    refine (least ?_).trans ttl
    exact List.mem_append_left _ (List.mem_cons_of_mem _ (List.mem_map_of_mem listed))
  case answer =>
    have answer := chained.answer
    cases found : r.answer with
    | none => exact (findRRset_missing kept.unsigned _ _ _).mp (answer.symm.trans found)
    | some rrset =>
      obtain ⟨full, collected⟩ := findRRset_found kept.unsigned (answer.symm.trans found)
      refine ⟨full, collected, least ?_⟩
      simp [Response.ttls, found]

/-- What `resolve_chaining` answers from a response to a request is what its records
tell about the question, for a type that is laid out. -/
theorem answers_request (kept : LaidOut asked.rdclass asked.rdtype)
    (response : (request number asked).isResponse m.toMessage = true)
    (resolved : m.response.resolveChaining = .ok r) : m.Answers asked r := by
  obtain ⟨n, same, chained⟩ := asked_chained response resolved
  exact answers_chained kept same chained

def aliased : Reply where
  id := 7
  flags := 0x8180
  question := [⟨⟨[[97], []], by decide⟩, 1, 1⟩]
  answer := [⟨⟨[[65], []], by decide⟩, cnameType, 1, 60, ⟨[.name ⟨[[98], []], by decide⟩], []⟩⟩,
    ⟨⟨[[98], []], by decide⟩, 1, 1, 30, ⟨[.bytes [192, 0, 2, 1]], []⟩⟩]
  authority := []
  additional := []
  fits := by
    intro r member
    simp only [List.append_nil, List.mem_cons, List.not_mem_nil, or_false] at member
    rcases member with rfl | rfl
    · exact ⟨.cons trivial .nil, fun _ => rfl⟩
    · exact ⟨.cons rfl .nil, fun _ => rfl⟩

/-- `A.` is an alias of `b.`, which has an address. -/
theorem answers_request_aliased :
    let asked : Question := ⟨⟨[[97], []], by decide⟩, 1, 1⟩
    ∃ r, aliased.response.resolveChaining = .ok r ∧ r.minimumTtl = 30 ∧ aliased.Answers asked r := by
  intro asked
  have resolved : aliased.response.resolveChaining.toOption.map (·.minimumTtl) = some 30 := by decide +kernel
  obtain ⟨r, found, least⟩ := Option.map_eq_some_iff.mp resolved
  have response : (request 7 asked).isResponse aliased.toMessage = true := by decide +kernel
  exact ⟨r, toOption_some.mp found, least, answers_request (by decide) response (toOption_some.mp found)⟩

end Chains

end Reply

end HttpSocksProxy.Dns
