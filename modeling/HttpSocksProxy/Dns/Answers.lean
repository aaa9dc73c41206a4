import HttpSocksProxy.Dns.Exchange

/-! What `resolve` returns when its replies come out of exchanges with nameservers. -/
namespace HttpSocksProxy.Dns
open ByteStream Socks

/-- What `query_result` is given of an exchange. -/
def outcome : Except ExchangeError Reply → Outcome
  | .ok m => .response m.response
  | .error e => .raised e.query

namespace Resolve

section
variable (index : List Char → Option Nat) (update : List UInt8 → ExchangeError) (rdtype rdclass : UInt16)

/-- What comes of a query to a nameserver that is an address: an exchange, or a
failure before or during it. -/
inductive Exchanged (q : Query) : Outcome → Prop where
  | overUdp (address : Inet.afForAddress q.nameserver.toList = some f)
      (reached : Inet.lowLevelAddress index f q.nameserver.toList q.port = some destination)
      (datagrams : q.tcp = false) (number : UInt16) (failure : QueryError) (arrivals : List Datagram) :
      Exchanged q (outcome
        (udp update f destination false true (request number ⟨q.qname, rdtype, rdclass⟩) failure arrivals))
  | overTcp (address : Inet.afForAddress q.nameserver.toList = some f) (stream : q.tcp = true) (number : UInt16)
      (reader : Reader QueryError) :
      Exchanged q (outcome (tcp update (request number ⟨q.qname, rdtype, rdclass⟩) reader))
  | failed (ex : QueryError) : Exchanged q (.raised ex)

/-- A message that was read and that `is_response` takes for the reply to a query. -/
def Accepted (past : List Label) (q : Query) (m : Reply) : Prop :=
  Received past q (.response m.response) ∧ (∃ wire, readMessage wire = .ok m.toMessage) ∧
    ∃ number, (request number ⟨q.qname, rdtype, rdclass⟩).isResponse m.toMessage = true

end

section Told
variable {index : List Char → Option Nat} {update : List UInt8 → ExchangeError} {rdtype rdclass : UInt16}
  {r : Resolver} {past : List Label} {s : State} {q : Query}

/-- Only an accepted message is a response. -/
theorem outcome_response (given : Outcome.response response = outcome result) :
    ∃ m, result = .ok m ∧ response = m.response := by
  cases result with
  | error => cases given
  | ok m =>
    cases given
    exact ⟨m, rfl, rfl⟩

theorem exchanged_accepted (exchanged : Exchanged index update rdtype rdclass q (.response response)) :
    ∃ m : Reply, response = m.response ∧ (∃ wire, readMessage wire = .ok m.toMessage) ∧
      ∃ number, (request number ⟨q.qname, rdtype, rdclass⟩).isResponse m.toMessage = true := by
  generalize given : Outcome.response response = result at exchanged
  cases exchanged with
  | overUdp address reached datagrams number failure arrivals =>
    obtain ⟨m, done, rfl⟩ := outcome_response given
    obtain ⟨wire, _, accepted⟩ := bind_ok.mp done
    obtain ⟨read, response⟩ := Reply.accept_ok accepted
    exact ⟨m, rfl, ⟨wire, read⟩, number, response⟩
  | overTcp address stream number reader =>
    obtain ⟨m, done, rfl⟩ := outcome_response given
    obtain ⟨_, _, done⟩ := bind_ok.mp done
    obtain ⟨⟨wire, _⟩, _, accepted⟩ := bind_ok.mp done
    obtain ⟨read, response⟩ := Reply.accept_ok accepted
    exact ⟨m, rfl, ⟨wire, read⟩, number, response⟩
  | failed ex => cases given

theorem received_accepted
    (exchanged : ∀ q result, Received past q result → Exchanged index update rdtype rdclass q result)
    (received : Received past q (.response response)) :
    ∃ m : Reply, response = m.response ∧ Accepted rdtype rdclass past q m := by
  obtain ⟨m, rfl, read, asked⟩ := exchanged_accepted (exchanged _ _ received)
  exact ⟨m, rfl, received, read, asked⟩

/-- What a message that was accepted resolves to is what its records tell. -/
theorem Accepted.answers (kept : LaidOut rdclass rdtype) (accepted : Accepted rdtype rdclass past q m)
    (resolved : m.response.resolveChaining = .ok a) : m.Answers ⟨q.qname, rdtype, rdclass⟩ a := by
  obtain ⟨_, _, number, response⟩ := accepted
  obtain ⟨n, same, chained⟩ := Reply.asked_chained response resolved
  exact Reply.answers_chained kept same chained

/-- A name that was tried is a candidate. -/
theorem Trying.candidate {s : Resolution} (trying : Trying r past s) : s.qname ∈ s.qnamesToTry := by
  obtain ⟨tried, names, _⟩ := trying.tried
  rw [names]
  exact List.mem_append_right _ List.mem_cons_self

/-- What `resolve` returns, or finds missing, is what the records of a reply to one of
its queries tell about the name that was asked for, for a type that is laid out. -/
theorem answers_told (kept : LaidOut rdclass rdtype)
    (run : Runs r candidates overTcp raiseOnNoAnswer now past s)
    (exchanged : ∀ q result, Received past q result → Exchanged index update rdtype rdclass q result) :
    (∀ a, s.phase = .returned a → ∃ q m, q.qname ∈ candidates ∧ Accepted rdtype rdclass past q m ∧
      m.Answers ⟨q.qname, rdtype, rdclass⟩ a ∧ (a.answer = none → raiseOnNoAnswer = false)) ∧
    ∀ response, s.phase = .raised (.noAnswer response) → raiseOnNoAnswer = true ∧
      ∃ q m a, q.qname ∈ candidates ∧ response = m.response ∧ Accepted rdtype rdclass past q m ∧
        m.Answers ⟨q.qname, rdtype, rdclass⟩ a ∧ a.answer = none := by
  obtain ⟨asks, ready, _⟩ := inv_run run
  have candidate {q : Query} (trying : Trying r past s.resolution) (name : q.qname = s.resolution.qname) :
      q.qname ∈ candidates :=
    name ▸ asks.names ▸ trying.candidate
  constructor
  · intro a ended
    rw [ended] at ready
    obtain ⟨trying, q, response, name, received, _, resolved, strict⟩ := ready
    obtain ⟨m, rfl, accepted⟩ := received_accepted exchanged received
    exact ⟨q, m, candidate trying name, accepted, accepted.answers kept resolved,
      fun none => asks.strict ▸ strict none⟩
  · intro response ended
    rw [ended] at ready
    obtain ⟨trying, strict, q, a, name, received, _, resolved, none⟩ := ready
    obtain ⟨m, rfl, accepted⟩ := received_accepted exchanged received
    exact ⟨asks.strict ▸ strict, q, m, a, candidate trying name, rfl, accepted, accepted.answers kept resolved, none⟩

/-- A nameserver's reply to the question for the address of the root. -/
def rootReply : Reply where
  id := 7
  flags := 0x8180
  question := [⟨.root, 1, 1⟩]
  answer := [⟨.root, 1, 1, 30, ⟨[.bytes [192, 0, 2, 1]], []⟩⟩]
  authority := []
  additional := []
  fits := by
    intro r member
    simp only [List.append_nil, List.mem_singleton] at member
    subst member
    exact ⟨.cons rfl .nil, fun _ => rfl⟩

def rootAddress : Rdataset := ⟨1, 1, 30, [⟨[.bytes [192, 0, 2, 1]], []⟩],
  fun rd member => by cases List.mem_singleton.mp member; exact ⟨.cons rfl .nil, fun _ => rfl⟩⟩

theorem root_unique {n : Name} (same : n.labels.map lower = [[]]) : n = .root := by
  obtain ⟨label, labels, empty⟩ := List.map_eq_singleton_iff.mp same
  rw [List.map_eq_nil_iff.mp empty] at labels
  cases n
  cases labels
  rfl

theorem rootReply_read : ∃ wire, wire.length ≤ 512 ∧ readMessage wire = .ok rootReply.toMessage := by
  have run : Transition.Run (Transition.guarded (Transition.byOutput Renderer.step) Renderable)
      (Renderer.init 7 0x8180 512 none)
      [(.rdataset .answer .root rootAddress ⟨rootAddress.rdatas, .refl _⟩, none), (.question .root 1 1, none)] _ :=
    .next (.next .start ⟨trivial, rfl⟩) ⟨⟨by decide, by simp [rootAddress], by decide⟩, rfl⟩
  obtain ⟨size, ⟨id, flags, question, answer, authority, additional⟩, read, number, kind, asked, answered,
    rest⟩ := (laid_run run).read rfl
  refine ⟨_, size, read.trans (congrArg Except.ok ?_)⟩
  obtain ⟨none, none'⟩ := rest
  cases none
  cases none'
  obtain _ | ⟨same, none⟩ := asked
  cases none
  obtain _ | ⟨told, none⟩ := answered
  cases none
  subst number kind
  rename_i q r
  obtain ⟨name, rdtype, rdclass⟩ := q
  obtain ⟨owner, rdtype', rdclass', ttl, values, tail⟩ := r
  cases root_unique same.name
  cases root_unique told.name
  obtain ⟨rfl, rfl⟩ := same.fixed
  obtain ⟨rfl, rfl, rfl⟩ := told.fixed
  obtain _ | ⟨value, none⟩ := told.values
  cases none
  rename_i v
  cases v with
  | name => cases value
  | bytes b =>
    cases value
    cases told.tail
    rfl

theorem rootReply_received : ∃ reader : Reader QueryError,
    tcp (fun _ => .valueError) (request 7 ⟨.root, 1, 1⟩) reader = .ok rootReply := by
  obtain ⟨wire, small, read⟩ := rootReply_read
  refine ⟨.ofPieces [packShort wire.length, wire], ?_⟩
  have response : (request 7 ⟨.root, 1, 1⟩).isResponse rootReply.toMessage = true := by decide +kernel
  have content : (Reader.ofPieces [packShort wire.length, wire] : Reader QueryError).content =
      packShort wire.length ++ (wire ++ []) := rfl
  rw [tcp_framed _ _ rfl (by omega) content, Reply.accept, fromWire_reads _ read (by decide) (by decide)]
  exact if_pos response

def Phase.answer : Phase → Option ChainingResult
  | .returned a => some a
  | _ => none

theorem Phase.answer_some {p : Phase} (told : Phase.answer p = some a) : p = .returned a := by
  cases p with
  | returned => exact congrArg Phase.returned (Option.some.inj told)
  | _ => cases told

theorem executed_events
    (executed : Transition.execute (step r) (fun _ e o => (e, o)) s events = some (past, t)) :
    past.map (·.1) = events.reverse := by
  induction events generalizing s past with
  | nil => cases executed; rfl
  | cons e later ih =>
    simp only [Transition.execute, Option.bind_eq_bind, Option.bind_eq_some_iff, Option.pure_def,
      Option.some.injEq, Prod.mk.injEq] at executed
    obtain ⟨⟨o, middle⟩, _, ⟨inner, last⟩, rest, rfl, rfl⟩ := executed
    rw [List.map_append, ih rest, List.reverse_cons]
    rfl

/-- Over TCP, the first nameserver that is asked tells the address of the root. -/
theorem answers_told_root : ∃ past s a, Runs twoNameservers [.root] true true 0 past s ∧
    s.phase = .returned a ∧ a.minimumTtl = 30 ∧
    ∃ q m, q.qname ∈ [Name.root] ∧ Accepted 1 1 past q m ∧ m.Answers ⟨q.qname, 1, 1⟩ a := by
  let events : List Event :=
    [.request ["192.0.2.1", "192.0.2.2"], .choose, .wake, .replied (.response rootReply.response)]
  let shown (p : List Label × State) := (p.1.filterMap (·.2), (Phase.answer p.2.phase).map (·.minimumTtl))
  have played : (Transition.execute (step twoNameservers) (fun _ e o => (e, o)) (.init [.root] true true 0)
      events).map shown = some ([⟨.root, "192.0.2.1", 53, true, 2⟩], some 30) := by decide +kernel
  obtain ⟨⟨past, s⟩, played, same⟩ := Option.map_eq_some_iff.mp played
  obtain ⟨sent, least⟩ := Prod.mk.inj same
  have exchanged (q : Query) (result : Outcome) (received : Received past q result) :
      Exchanged (fun _ => none) (fun _ => .valueError) 1 1 q result := by
    obtain ⟨earlier, before, last⟩ := received
    obtain ⟨l, member, asked⟩ := List.exists_of_findSome?_eq_some last
    have asked : q ∈ past.filterMap (·.2) :=
      List.mem_filterMap.mpr ⟨l, before.subset (List.mem_cons_of_mem _ member), asked⟩
    rw [sent] at asked
    cases List.mem_singleton.mp asked
    have replied : Event.replied result ∈ past.map (·.1) :=
      List.mem_map_of_mem (before.subset List.mem_cons_self)
    rw [executed_events played] at replied
    simp only [events, List.reverse_cons, List.reverse_nil, List.nil_append, List.cons_append, List.mem_cons,
      Event.replied.injEq, reduceCtorEq, List.not_mem_nil, or_false] at replied
    subst replied
    obtain ⟨reader, done⟩ := rootReply_received
    have address : Inet.afForAddress "192.0.2.1".toList = some .inet := by decide +kernel
    have result : outcome (tcp (fun _ => .valueError) (request 7 ⟨.root, 1, 1⟩) reader) =
        .response rootReply.response := by rw [done]; rfl
    exact result ▸ .overTcp address rfl 7 reader
  obtain ⟨a, ended, least⟩ := Option.map_eq_some_iff.mp least
  have returned := Phase.answer_some ended
  have run := Transition.Run.of_outputs played
  obtain ⟨q, m, candidate, accepted, answers, _⟩ := (answers_told (by decide) run exchanged).1 a returned
  exact ⟨past, s, a, run, returned, least, q, m, candidate, accepted, answers⟩

end Told

end Resolve

end HttpSocksProxy.Dns
