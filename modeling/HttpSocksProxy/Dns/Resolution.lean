import Mathlib.Algebra.Order.Field.Rat
import Mathlib.Data.List.Perm.Subperm
import HttpSocksProxy.Dns.Chaining
import HttpSocksProxy.Foundation.ByteStream
import HttpSocksProxy.Foundation.History
import HttpSocksProxy.Foundation.Transition

/-! `_Resolution`, the logic of a stub resolver: which nameserver is asked next, what
its answer does to the others, and what the resolution comes to. -/
namespace HttpSocksProxy.Dns

structure Resolver where
  nameservers : List String
  nameserverPorts : List (String × Nat)
  port : Nat
  domain : Option Name
  search : List Name
  ndots : Option Nat
  useSearchByDefault : Bool
  timeout : ℚ
  lifetime : ℚ
  retryServfail : Bool
  rotate : Bool

/-- The configuration of `reset`, with these nameservers. -/
def Resolver.reset (domain : Name) (nameservers : List String) : Resolver where
  nameservers := nameservers
  nameserverPorts := []
  port := 53
  domain := some domain
  search := []
  ndots := none
  useSearchByDefault := false
  timeout := 2
  lifetime := 5
  retryServfail := false
  rotate := false

def Resolver.portOf (r : Resolver) (nameserver : String) : Nat :=
  (r.nameserverPorts.lookup nameserver).getD r.port

/-- The nameservers of the resolver, shuffled if it rotates. -/
def Resolver.ordered (r : Resolver) (order : List String) : Bool :=
  if r.rotate then order.isPerm r.nameservers else order = r.nameservers

/-- The suffixes to search; a domain that is the root is none. -/
def Resolver.searchList (r : Resolver) : List Name :=
  if 0 < r.search.length then r.search
  else match r.domain with
    | some domain => if domain.same .root then [] else [domain]
    | none => []

/-- `_get_qnames_to_try`. -/
def Resolver.getQnamesToTry (r : Resolver) (qname : Name) (search : Option Bool) :
    Except NameError (List Name) :=
  if qname.isAbsolute then .ok [qname]
  else do
    let absQname ← qname.concatenate .root
    if search.getD r.useSearchByDefault then
      let suffixed ← r.searchList.mapM qname.concatenate
      if r.ndots.getD 1 < qname.labels.length then return absQname :: suffixed
      else return suffixed ++ [absQname]
    else return [absQname]

theorem Name.concatenate_absolute {a b full : Name} (made : a.concatenate b = .ok full)
    (absolute : b.isAbsolute = true) : full.isAbsolute = true := by
  rw [Name.isAbsolute_iff] at absolute ⊢
  rw [Name.concatenate_ok made]
  exact List.mem_append_right _ absolute

theorem mapM_ok {f : A → Except E B} {xs : List A} (mapped : xs.mapM f = .ok ys) : ∀ y ∈ ys, ∃ x ∈ xs, f x = .ok y := by
  induction xs generalizing ys with
  | nil => cases mapped; exact fun y member => absurd member List.not_mem_nil
  | cons x xs ih =>
    rw [List.mapM_cons] at mapped
    obtain ⟨y, first, mapped⟩ := ByteStream.bind_ok.mp mapped
    obtain ⟨rest, later, made⟩ := ByteStream.bind_ok.mp mapped
    cases made
    intro y' member
    rcases List.mem_cons.mp member with rfl | member
    · exact ⟨x, List.mem_cons_self, first⟩
    · obtain ⟨x', inside, same⟩ := ih later y' member
      exact ⟨x', List.mem_cons_of_mem x inside, same⟩

/-- With absolute names to search, all candidates are absolute. -/
theorem Resolver.getQnamesToTry_absolute {r : Resolver} (rooted : ∀ suffix ∈ r.searchList, suffix.isAbsolute = true)
    (tried : r.getQnamesToTry qname useSearch = .ok names) : ∀ n ∈ names, n.isAbsolute = true := by
  unfold getQnamesToTry at tried
  split at tried
  case isTrue absolute =>
    cases tried
    exact fun n member => List.mem_singleton.mp member ▸ absolute
  case isFalse =>
    obtain ⟨absQname, made, tried⟩ := ByteStream.bind_ok.mp tried
    have absolute := Name.concatenate_absolute made rfl
    split at tried
    case isFalse =>
      cases tried
      exact fun n member => List.mem_singleton.mp member ▸ absolute
    case isTrue =>
      obtain ⟨suffixed, mapped, tried⟩ := ByteStream.bind_ok.mp tried
      have behind : ∀ n ∈ suffixed, n.isAbsolute = true := fun n member =>
        have ⟨suffix, listed, joined⟩ := mapM_ok mapped n member
        Name.concatenate_absolute joined (rooted suffix listed)
      split at tried
      all_goals
        cases tried
        intro n member
      · rcases List.mem_cons.mp member with rfl | member
        · exact absolute
        · exact behind n member
      · rcases List.mem_append.mp member with member | last
        · exact behind n member
        · exact List.mem_singleton.mp last ▸ absolute

/-- What the exchange with a nameserver raises. -/
inductive QueryError where
  | formError
  | eofError
  | osError
  | notImplementedError
  | truncated
  | other
  deriving DecidableEq, Repr

def servFailCode : Nat := 2

def yxDomainCode : Nat := 6

inductive Cause where
  | raised (ex : QueryError)
  | chaining (e : ChainError)
  | rcode (code : Nat)
  deriving DecidableEq, Repr

/-- `ErrorTuple`. -/
structure Failure where
  nameserver : String
  tcp : Bool
  port : Nat
  cause : Cause
  response : Option Response

inductive Outcome where
  | response (r : Response)
  | raised (ex : QueryError)

inductive ResolveError where
  | nxDomain (qnames : List Name) (responses : List (Name × Response))
  | noNameservers (errors : List Failure)
  | noAnswer (response : Response)
  | yxDomain
  | lifetimeTimeout (duration : ℚ) (errors : List Failure)
  | valueError
  | assertion
  | cancelled

/-- `responses[qname] = response`. -/
def setResponse (responses : List (Name × Response)) (qname : Name) (response : Response) :
    List (Name × Response) :=
  if responses.any (·.1.same qname) then
    responses.map fun e => if e.1.same qname then (e.1, response) else e
  else responses ++ [(qname, response)]

structure Resolution where
  qnamesToTry : List Name
  qnames : List Name
  tcp : Bool
  raiseOnNoAnswer : Bool
  nxdomainResponses : List (Name × Response)
  qname : Name
  nameservers : List String
  currentNameservers : List String
  errors : List Failure
  nameserver : Option String
  port : Nat
  tcpAttempt : Bool
  retryWithTcp : Bool
  backoff : ℚ

/-- The result of `next_nameserver`. -/
structure Attempt where
  nameserver : String
  port : Nat
  tcp : Bool
  backoff : ℚ
  deriving DecidableEq

namespace Resolution

def init (qnamesToTry : List Name) (tcp raiseOnNoAnswer : Bool) : Resolution where
  qnamesToTry := qnamesToTry
  qnames := qnamesToTry
  tcp := tcp
  raiseOnNoAnswer := raiseOnNoAnswer
  nxdomainResponses := []
  qname := .empty
  nameservers := []
  currentNameservers := []
  errors := []
  nameserver := none
  port := 0
  tcpAttempt := false
  retryWithTcp := false
  backoff := 0

/-- `dns.rdatatype.is_metatype`. -/
def isMetatype (rdtype : UInt16) : Bool := 128 ≤ rdtype ∧ rdtype < 256 ∨ rdtype = 41

/-- `dns.rdataclass.is_metaclass`: NONE and ANY. -/
def isMetaclass (rdclass : UInt16) : Bool := rdclass = 254 ∨ rdclass = 255

inductive StartError where
  | noMetaqueries
  | name (e : NameError)
  deriving DecidableEq, Repr

/-- `_Resolution.__init__`. -/
def start (r : Resolver) (qname : Name) (rdtype rdclass : UInt16) (tcp raiseOnNoAnswer : Bool)
    (search : Option Bool) : Except StartError Resolution :=
  if isMetatype rdtype ∨ isMetaclass rdclass then .error .noMetaqueries
  else match r.getQnamesToTry qname search with
    | .ok qnamesToTry => .ok (init qnamesToTry tcp raiseOnNoAnswer)
    | .error e => .error (.name e)

/-- For the next name all nameservers are in the mix again. -/
def prepare (order : List String) (qname : Name) (qnames : List Name) (s : Resolution) : Resolution :=
  { s with
    qname := qname, qnames := qnames
    nameservers := order, currentNameservers := order
    errors := [], nameserver := none, tcpAttempt := false, retryWithTcp := false, backoff := 1 / 10 }

/-- With the nameservers in this order, which is random if the resolver rotates. -/
def nextRequest (order : List String) (s : Resolution) : Except ResolveError Resolution :=
  match s.qnames with
  | qname :: qnames => .ok (s.prepare order qname qnames)
  | [] => .error (.nxDomain s.qnamesToTry s.nxdomainResponses)

/-- The first of the current nameservers is asked. -/
def ask (r : Resolver) (backoff : ℚ) (nameserver : String) (others : List String) (s : Resolution) :
    Attempt × Resolution :=
  (⟨nameserver, r.portOf nameserver, s.tcp, backoff⟩,
    { s with
      currentNameservers := others
      nameserver := some nameserver, port := r.portOf nameserver, tcpAttempt := s.tcp })

def nextNameserver (r : Resolver) (s : Resolution) : Except ResolveError (Attempt × Resolution) :=
  if s.retryWithTcp then
    match s.nameserver with
    | some nameserver => .ok (⟨nameserver, s.port, true, 0⟩, { s with tcpAttempt := true, retryWithTcp := false })
    | none => .error .assertion
  else
    match s.currentNameservers with
    | nameserver :: others => .ok (s.ask r 0 nameserver others)
    | [] =>
      match s.nameservers with
      | nameserver :: others => .ok ({ s with backoff := min (s.backoff * 2) 2 }.ask r s.backoff nameserver others)
      | [] => .error (.noNameservers s.errors)

/-- `self.errors.append`. -/
def note (nameserver : String) (cause : Cause) (response : Option Response) (s : Resolution) : Resolution :=
  { s with errors := s.errors ++ [⟨nameserver, s.tcpAttempt, s.port, cause, response⟩] }

/-- `self.nameservers.remove`, which raises if the nameserver is not there. -/
def remove (nameserver : String) (s : Resolution) : Except ResolveError Resolution :=
  if nameserver ∈ s.nameservers then .ok { s with nameservers := s.nameservers.erase nameserver }
  else .error .valueError

/-- The answer and whether the loop over the nameservers ends. -/
def queryResult (r : Resolver) (outcome : Outcome) (s : Resolution) :
    Except ResolveError ((Option ChainingResult × Bool) × Resolution) :=
  match s.nameserver with
  | none => .error .assertion
  | some nameserver =>
    match outcome with
    | .raised ex => do
      let s := s.note nameserver (.raised ex) none
      if ex = .formError ∨ ex = .eofError ∨ ex = .osError ∨ ex = .notImplementedError then
        return ((none, false), ← s.remove nameserver)
      else if ex = .truncated then
        if s.tcpAttempt then return ((none, false), ← s.remove nameserver)
        else return ((none, false), { s with retryWithTcp := true })
      else return ((none, false), s)
    | .response response =>
      if response.rcode = noErrorCode then
        match response.resolveChaining with
        | .error e => do
          return ((none, false), ← (s.note nameserver (.chaining e) response).remove nameserver)
        | .ok answer =>
          if answer.answer.isNone ∧ s.raiseOnNoAnswer then .error (.noAnswer response)
          else .ok ((some answer, true), s)
      else if response.rcode = nxDomainCode then
        match response.resolveChaining with
        | .error e => do
          return ((none, false), ← (s.note nameserver (.chaining e) response).remove nameserver)
        | .ok _ =>
          .ok ((none, true),
            { s with nxdomainResponses := setResponse s.nxdomainResponses s.qname response })
      else if response.rcode = yxDomainCode then .error .yxDomain
      else do
        let kept ← if response.rcode ≠ servFailCode ∨ !r.retryServfail then s.remove nameserver else .ok s
        return ((none, false), kept.note nameserver (.rcode response.rcode) response)

end Resolution

/-- `_compute_timeout`. -/
def Resolver.computeTimeout (r : Resolver) (start now : ℚ) (errors : List Failure) : Except ResolveError ℚ :=
  if now - start < -1 then .error (.lifetimeTimeout (now - start) errors)
  else
    let duration := max (now - start) 0
    if r.lifetime ≤ duration then .error (.lifetimeTimeout duration errors)
    else .ok (min (r.lifetime - duration) r.timeout)

/-- A query that has been sent. -/
structure Query where
  qname : Name
  nameserver : String
  port : Nat
  tcp : Bool
  timeout : ℚ
  deriving DecidableEq

/-- Where `resolve` stands: before `next_request`, before `next_nameserver`, asleep
until the loop's clock reads `wake`, waiting for the nameserver, or at an end. -/
inductive Phase where
  | requesting
  | choosing
  | sleeping (attempt : Attempt) (wake : ℚ)
  | querying (query : Query)
  | returned (answer : ChainingResult)
  | raised (e : ResolveError)

namespace Resolve

/-- `now` is the clock of the event loop and `wall` the one of `time.time`. -/
structure State where
  now : ℚ
  wall : ℚ
  start : ℚ
  resolution : Resolution
  phase : Phase

inductive Event where
  | passed (seconds drift : ℚ)
  | request (order : List String)
  | choose
  | wake
  | replied (outcome : Outcome)
  | cancel

abbrev Label := Event × Option Query

def State.init (qnamesToTry : List Name) (tcp raiseOnNoAnswer : Bool) (now : ℚ) : State where
  now := now
  wall := now
  start := now
  resolution := .init qnamesToTry tcp raiseOnNoAnswer
  phase := .requesting

def State.fail (s : State) (e : ResolveError) : State := { s with phase := .raised e }

/-- What `query_result` leads to. -/
def State.settle (s : State) : (Option ChainingResult × Bool) × Resolution → State
  | ((some answer, _), resolution) => { s with resolution := resolution, phase := .returned answer }
  | ((none, true), resolution) => { s with resolution := resolution, phase := .requesting }
  | ((none, false), resolution) => { s with resolution := resolution, phase := .choosing }

/-- `Resolver.resolve`, from one wait to the next. -/
def step (r : Resolver) (s : State) (e : Event) : Option (Option Query × State) :=
  match e, s.phase with
  | .passed seconds drift, _ =>
    if 0 ≤ seconds then some (none, { s with now := s.now + seconds, wall := s.wall + seconds + drift }) else none
  | .request order, .requesting =>
    if r.ordered order then
      match s.resolution.nextRequest order with
      | .ok resolution => some (none, { s with resolution := resolution, phase := .choosing })
      | .error e => some (none, s.fail e)
    else none
  | .choose, .choosing =>
    match s.resolution.nextNameserver r with
    | .ok (attempt, resolution) =>
      some (none, { s with resolution := resolution, phase := .sleeping attempt (s.now + attempt.backoff) })
    | .error e => some (none, s.fail e)
  | .wake, .sleeping attempt wake =>
    if wake ≤ s.now then
      match r.computeTimeout s.start s.wall s.resolution.errors with
      | .ok timeout =>
        let query : Query := ⟨s.resolution.qname, attempt.nameserver, attempt.port, attempt.tcp, timeout⟩
        some (some query, { s with phase := .querying query })
      | .error e => some (none, s.fail e)
    else none
  | .replied outcome, .querying _ =>
    match s.resolution.queryResult r outcome with
    | .ok result => some (none, s.settle result)
    | .error e => some (none, s.fail e)
  | .cancel, .sleeping _ _ => some (none, s.fail .cancelled)
  | .cancel, .querying _ => some (none, s.fail .cancelled)
  | _, _ => none

end Resolve

/-- A failure that takes the nameserver out of the mix. -/
def Failure.drops (r : Resolver) (f : Failure) : Bool :=
  match f.cause with
  | .raised ex =>
    ex = .formError ∨ ex = .eofError ∨ ex = .osError ∨ ex = .notImplementedError ∨ ex = .truncated ∧ f.tcp
  | .chaining _ => true
  | .rcode code => code ≠ servFailCode ∨ !r.retryServfail

/-- What was noted of the outcome of a query. -/
structure Failure.Of (f : Failure) (q : Query) (outcome : Outcome) : Prop where
  nameserver : f.nameserver = q.nameserver
  port : f.port = q.port
  tcp : f.tcp = q.tcp
  cause : match f.cause with
    | .raised ex => outcome = .raised ex
    | .chaining e => ∃ response, outcome = .response response ∧ response.resolveChaining = .error e
    | .rcode code => ∃ response, outcome = .response response ∧ response.rcode = code ∧
      code ≠ noErrorCode ∧ code ≠ nxDomainCode

/-- A failure that is retried over TCP takes nothing out of the mix. -/
theorem Failure.Of.retries {r : Resolver} {f : Failure} (noted : f.Of q outcome)
    (retry : (f.cause = .raised .truncated && !f.tcp) = true) :
    outcome = .raised .truncated ∧ q.tcp = false ∧ f.drops r = false := by
  obtain ⟨truncated, udp⟩ := Bool.and_eq_true_iff.mp retry
  have cause := noted.cause
  have tcp : f.tcp = false := by simpa using udp
  rw [of_decide_eq_true truncated] at cause
  exact ⟨cause, noted.tcp ▸ tcp, by simp [Failure.drops, of_decide_eq_true truncated, tcp]⟩

/-- A response with NXDOMAIN that is well formed. -/
def Response.Denies (response : Response) : Prop :=
  response.rcode = nxDomainCode ∧ ∃ a, response.resolveChaining = .ok a

namespace Resolution
variable {r : Resolver} {s : Resolution} {nameserver : String}

/-- After a failure. -/
def failed (r : Resolver) (f : Failure) (s : Resolution) : Resolution :=
  { s with
    errors := s.errors ++ [f]
    nameservers := if f.drops r then s.nameservers.erase f.nameserver else s.nameservers
    retryWithTcp := s.retryWithTcp || (f.cause = .raised .truncated && !f.tcp) }

theorem remove_mem (present : nameserver ∈ s.nameservers) :
    s.remove nameserver = .ok { s with nameservers := s.nameservers.erase nameserver } := if_pos present

theorem remove_note (present : nameserver ∈ s.nameservers) (cause : Cause) (response : Option Response) :
    (s.note nameserver cause response).remove nameserver =
      .ok { s.note nameserver cause response with nameservers := s.nameservers.erase nameserver } :=
  remove_mem present

/-- What `query_result` does about a nameserver that is still in the mix. -/
theorem queryResult_cases (q : Query) (known : s.nameserver = some q.nameserver) (port : s.port = q.port)
    (tcp : s.tcpAttempt = q.tcp) (present : q.nameserver ∈ s.nameservers) (outcome : Outcome) :
    (∃ f : Failure, f.Of q outcome ∧ s.queryResult r outcome = .ok ((none, false), s.failed r f)) ∨
    (∃ response answer, outcome = .response response ∧ response.rcode = noErrorCode ∧
      response.resolveChaining = .ok answer ∧
      (answer.answer = none ∧ s.raiseOnNoAnswer = true ∧ s.queryResult r outcome = .error (.noAnswer response) ∨
        ¬ (answer.answer = none ∧ s.raiseOnNoAnswer = true) ∧
          s.queryResult r outcome = .ok ((some answer, true), s))) ∨
    (∃ response, outcome = .response response ∧ response.Denies ∧ s.queryResult r outcome =
      .ok ((none, true), { s with nxdomainResponses := setResponse s.nxdomainResponses s.qname response })) ∨
    (∃ response, outcome = .response response ∧ response.rcode = yxDomainCode ∧
      s.queryResult r outcome = .error .yxDomain) := by
  simp only [queryResult, known]
  cases outcome with
  | raised ex =>
    refine .inl ⟨⟨q.nameserver, s.tcpAttempt, s.port, .raised ex, none⟩, ⟨rfl, port, tcp, rfl⟩, ?_⟩
    simp only [remove_note present]
    cases ex <;> cases attempt : s.tcpAttempt <;>
      simp [failed, Failure.drops, note, attempt, known, pure, bind, Except.pure, Except.bind]
  | response response =>
    by_cases okay : response.rcode = noErrorCode
    · simp only [if_pos okay]
      cases resolved : response.resolveChaining with
      | error e =>
        refine .inl ⟨⟨q.nameserver, s.tcpAttempt, s.port, .chaining e, response⟩,
          ⟨rfl, port, tcp, response, rfl, resolved⟩, ?_⟩
        simp only [remove_note present]
        simp [failed, Failure.drops, note, known, pure, bind, Except.pure, Except.bind]
      | ok answer =>
        refine .inr (.inl ⟨response, answer, rfl, okay, resolved, ?_⟩)
        by_cases empty : answer.answer = none ∧ s.raiseOnNoAnswer = true
        · exact .inl ⟨empty.1, empty.2, if_pos ⟨Option.isNone_iff_eq_none.mpr empty.1, empty.2⟩⟩
        · exact .inr ⟨empty, if_neg fun both => empty ⟨Option.isNone_iff_eq_none.mp both.1, both.2⟩⟩
    · simp only [if_neg okay]
      by_cases denied : response.rcode = nxDomainCode
      · simp only [if_pos denied]
        cases resolved : response.resolveChaining with
        | error e =>
          refine .inl ⟨⟨q.nameserver, s.tcpAttempt, s.port, .chaining e, response⟩,
            ⟨rfl, port, tcp, response, rfl, resolved⟩, ?_⟩
          simp only [remove_note present]
          simp [failed, Failure.drops, note, known, pure, bind, Except.pure, Except.bind]
        | ok answer => exact .inr (.inr (.inl ⟨response, rfl, ⟨denied, answer, resolved⟩, rfl⟩))
      · simp only [if_neg denied]
        by_cases yxdomain : response.rcode = yxDomainCode
        · exact .inr (.inr (.inr ⟨response, rfl, yxdomain, if_pos yxdomain⟩))
        · refine .inl ⟨⟨q.nameserver, s.tcpAttempt, s.port, .rcode response.rcode, response⟩,
            ⟨rfl, port, tcp, response, rfl, rfl, okay, denied⟩, ?_⟩
          simp only [if_neg yxdomain, remove_mem present]
          by_cases out : response.rcode ≠ servFailCode ∨ (!r.retryServfail) = true
          · simp only [if_pos out]
            simp [failed, Failure.drops, note, known, pure, bind, Except.pure, Except.bind]
            intro servfail retries
            simp [servfail, retries] at out
          · simp only [if_neg out]
            simp [failed, Failure.drops, note, known, pure, bind, Except.pure, Except.bind]
            exact fun dropped => absurd dropped (by simpa using out)

/-- What `next_nameserver` does, with the nameserver of a retry known. -/
theorem nextNameserver_cases (known : s.retryWithTcp = true → s.nameserver ≠ none) :
    (s.retryWithTcp = true ∧ ∃ nameserver, s.nameserver = some nameserver ∧ s.nextNameserver r =
      .ok (⟨nameserver, s.port, true, 0⟩, { s with tcpAttempt := true, retryWithTcp := false })) ∨
    (s.retryWithTcp = false ∧ ∃ nameserver others, s.currentNameservers = nameserver :: others ∧
      s.nextNameserver r = .ok (s.ask r 0 nameserver others)) ∨
    (s.retryWithTcp = false ∧ s.currentNameservers = [] ∧ ∃ nameserver others,
      s.nameservers = nameserver :: others ∧ s.nextNameserver r =
        .ok ({ s with backoff := min (s.backoff * 2) 2 }.ask r s.backoff nameserver others)) ∨
    (s.retryWithTcp = false ∧ s.nameservers = [] ∧ s.nextNameserver r = .error (.noNameservers s.errors)) := by
  unfold nextNameserver
  cases retry : s.retryWithTcp with
  | true =>
    obtain ⟨nameserver, last⟩ := Option.ne_none_iff_exists'.mp (known retry)
    refine .inl ⟨rfl, nameserver, last, ?_⟩
    rw [if_pos rfl, last]
  | false =>
    rw [if_neg Bool.false_ne_true]
    cases current : s.currentNameservers with
    | cons nameserver others => exact .inr (.inl ⟨rfl, nameserver, others, rfl, rfl⟩)
    | nil =>
      cases all : s.nameservers with
      | cons nameserver others => exact .inr (.inr (.inl ⟨rfl, rfl, nameserver, others, rfl, rfl⟩))
      | nil => exact .inr (.inr (.inr ⟨rfl, rfl, rfl⟩))

end Resolution

theorem Resolver.ordered_perm {r : Resolver} (permitted : r.ordered order = true) : order.Perm r.nameservers := by
  unfold ordered at permitted
  split at permitted
  · exact List.isPerm_iff.mp permitted
  · exact .of_eq (of_decide_eq_true permitted)

theorem Resolver.computeTimeout_ok {r : Resolver} (passed : r.computeTimeout start now errors = .ok seconds) :
    now - start < r.lifetime ∧ seconds ≤ r.timeout ∧ seconds ≤ r.lifetime - (now - start) := by
  simp only [computeTimeout] at passed
  split_ifs at passed with back late
  cases passed
  rw [not_le, max_lt_iff] at late
  refine ⟨late.1, min_le_right _ _, (min_le_left _ _).trans ?_⟩
  exact sub_le_sub_left (le_max_left _ _) _

theorem Resolver.computeTimeout_error {r : Resolver} (expired : r.computeTimeout start now errors = .error e) :
    ∃ duration, e = .lifetimeTimeout duration errors ∧ (duration < -1 ∨ r.lifetime ≤ duration) := by
  simp only [computeTimeout] at expired
  split_ifs at expired with back late
  · cases expired
    exact ⟨_, rfl, .inl back⟩
  · cases expired
    exact ⟨_, rfl, .inr late⟩

namespace Resolve
variable {r : Resolver} {past : List Label} {s : Resolution}

/-- The query that was sent last. -/
def asked (past : List Label) : Option Query := past.findSome? (·.2)

def Event.outcome : Event → Option Outcome
  | .replied outcome => some outcome
  | _ => none

def replied (past : List Label) : Option Outcome := past.findSome? (·.1.outcome)

/-- This came of this query. -/
def Received (past : List Label) (q : Query) (outcome : Outcome) : Prop :=
  ∃ earlier, (Event.replied outcome, none) :: earlier <:+ past ∧ asked earlier = some q

theorem Received.later (received : Received past q outcome) : Received (l :: past) q outcome := by
  obtain ⟨earlier, before, sent⟩ := received
  exact ⟨earlier, before.trans (List.suffix_cons _ _), sent⟩

/-- A query for this name was answered with NXDOMAIN, which `responses` has kept. -/
def Denied (past : List Label) (responses : List (Name × Response)) (n : Name) : Prop :=
  ∃ e ∈ responses, e.1.same n ∧ e.2.Denies ∧ ∃ q, q.qname.same n ∧ Received past q (.response e.2)

/-- Setting a response keeps what is denied and denies its own name. -/
theorem Denied.set (response : Response) (denies : response.Denies)
    (received : Received past q (.response response)) (denied : n = q.qname ∨ Denied past responses n) :
    Denied past (setResponse responses q.qname response) n := by
  have self : q.qname.same q.qname := Name.same_iff.mpr rfl
  unfold setResponse
  by_cases again : responses.any (·.1.same q.qname)
  · rw [if_pos again]
    have replaced {e : Name × Response} (member : e ∈ responses) (ours : e.1.same q.qname) :
        (e.1, response) ∈ responses.map fun e => if e.1.same q.qname then (e.1, response) else e :=
      List.mem_map.mpr ⟨e, member, if_pos ours⟩
    rcases denied with rfl | ⟨e, member, same, kept⟩
    · obtain ⟨e, member, ours⟩ := List.any_eq_true.mp again
      exact ⟨(e.1, response), replaced member ours, ours, denies, q, self, received⟩
    · by_cases ours : e.1.same q.qname
      · refine ⟨(e.1, response), replaced member ours, same, denies, q, ?_, received⟩
        rw [Name.same_iff] at ours same ⊢
        exact ours.symm.trans same
      · exact ⟨e, List.mem_map.mpr ⟨e, member, if_neg ours⟩, same, kept⟩
  · rw [if_neg again]
    rcases denied with rfl | ⟨e, member, same, kept⟩
    · exact ⟨_, List.mem_append_right _ (List.mem_singleton_self _), self, denies, q, self, received⟩
    · exact ⟨e, List.mem_append_left _ member, same, kept⟩

theorem Denied.later (denied : Denied past responses n) : Denied (l :: past) responses n := by
  obtain ⟨e, member, same, denies, q, name, received⟩ := denied
  exact ⟨e, member, same, denies, q, name, received.later⟩

/-- While a name is tried: the names before it were denied, and the nameservers that
are gone are those that failed a query for it. -/
structure Trying (r : Resolver) (past : List Label) (s : Resolution) : Prop where
  tried : ∃ tried, s.qnamesToTry = tried ++ s.qname :: s.qnames ∧ ∀ n ∈ tried, Denied past s.nxdomainResponses n
  dropped : (s.nameservers ++ (s.errors.filter (·.drops r)).map (·.nameserver)).Perm r.nameservers
  explained : ∀ f ∈ s.errors, ∃ q outcome, q.qname = s.qname ∧ Received past q outcome ∧ f.Of q outcome

theorem Trying.later (trying : Trying r past s) : Trying r (l :: past) s where
  tried :=
    have ⟨tried, split, denied⟩ := trying.tried
    ⟨tried, split, fun n member => (denied n member).later⟩
  dropped := trying.dropped
  explained := fun f member =>
    have ⟨q, outcome, name, received, noted⟩ := trying.explained f member
    ⟨q, outcome, name, received.later, noted⟩

/-- The last query, over UDP and for this name, was answered with a truncated message. -/
def Truncated (past : List Label) (qname : Name) (nameserver : String) : Prop :=
  ∃ q, asked past = some q ∧ replied past = some (.raised .truncated) ∧ q.qname = qname ∧
    q.nameserver = nameserver ∧ q.tcp = false

/-- A nameserver that is being asked, besides those still to ask. -/
structure Asking (r : Resolver) (s : Resolution) (nameserver : String) (port : Nat) (tcp : Bool) : Prop where
  last : s.nameserver = some nameserver
  reached : s.port = port ∧ port = r.portOf nameserver
  attempt : s.tcpAttempt = tcp
  once : s.retryWithTcp = false
  mixed : (nameserver :: s.currentNameservers).Subperm s.nameservers

/-- What the end of a resolution tells. -/
def Verdict (r : Resolver) (past : List Label) (s : Resolution) : Phase → Prop
  | .returned answer => Trying r past s ∧ ∃ q response, q.qname = s.qname ∧ Received past q (.response response) ∧
      response.rcode = noErrorCode ∧ response.resolveChaining = .ok answer ∧
      (answer.answer = none → s.raiseOnNoAnswer = false)
  | .raised (.noAnswer response) => Trying r past s ∧ s.raiseOnNoAnswer = true ∧
      ∃ q answer, q.qname = s.qname ∧ Received past q (.response response) ∧
        response.rcode = noErrorCode ∧ response.resolveChaining = .ok answer ∧ answer.answer = none
  | .raised (.nxDomain qnames responses) => qnames = s.qnamesToTry ∧ ∀ n ∈ qnames, Denied past responses n
  | .raised (.noNameservers errors) => Trying r past s ∧ errors = s.errors ∧
      ((errors.filter (·.drops r)).map (·.nameserver)).Perm r.nameservers
  | .raised .yxDomain => Trying r past s ∧ ∃ q response, q.qname = s.qname ∧
      Received past q (.response response) ∧ response.rcode = yxDomainCode
  | .raised (.lifetimeTimeout duration errors) => Trying r past s ∧ errors = s.errors ∧
      (duration < -1 ∨ r.lifetime ≤ duration)
  | .raised .cancelled => Trying r past s
  | .raised .valueError | .raised .assertion => False
  | .requesting | .choosing | .sleeping _ _ | .querying _ => True

/-- What holds between the waits. -/
def Ready (r : Resolver) (past : List Label) (s : Resolution) : Phase → Prop
  | .requesting => ∃ tried, s.qnamesToTry = tried ++ s.qnames ∧ ∀ n ∈ tried, Denied past s.nxdomainResponses n
  | .choosing => Trying r past s ∧
      if s.retryWithTcp then ∃ nameserver, s.nameserver = some nameserver ∧ s.port = r.portOf nameserver ∧
        (nameserver :: s.currentNameservers).Subperm s.nameservers ∧ Truncated past s.qname nameserver
      else s.currentNameservers.Subperm s.nameservers
  | .sleeping attempt _ => Trying r past s ∧ Asking r s attempt.nameserver attempt.port attempt.tcp ∧
      (attempt.tcp = true → s.tcp = true ∨ Truncated past s.qname attempt.nameserver)
  | .querying query => Trying r past s ∧ Asking r s query.nameserver query.port query.tcp ∧
      asked past = some query ∧ query.qname = s.qname
  | phase => Verdict r past s phase

/-- The way in which queries are sent. -/
structure Proper (r : Resolver) (candidates : List Name) (tcp : Bool) (earlier : List Label) (q : Query) : Prop where
  name : q.qname ∈ candidates
  configured : q.nameserver ∈ r.nameservers
  port : q.port = r.portOf q.nameserver
  timeout : q.timeout ≤ r.timeout
  fallback : q.tcp = true → tcp = true ∨ Truncated earlier q.qname q.nameserver

/-- The steps of `resolve`, one by one. -/
inductive Moves (r : Resolver) (s : State) : Event → Option Query → State → Prop where
  | passed (forward : 0 ≤ seconds) : Moves r s (.passed seconds drift) none
      { s with now := s.now + seconds, wall := s.wall + seconds + drift }
  | requested (here : s.phase = .requesting) (shuffled : order.Perm r.nameservers)
      (next : s.resolution.qnames = qname :: qnames) : Moves r s (.request order) none
        { s with resolution := s.resolution.prepare order qname qnames, phase := .choosing }
  | denied (here : s.phase = .requesting) (last : s.resolution.qnames = []) :
      Moves r s (.request order) none (s.fail (.nxDomain s.resolution.qnamesToTry s.resolution.nxdomainResponses))
  | chosen (here : s.phase = .choosing) (next : s.resolution.nextNameserver r = .ok (attempt, resolution)) :
      Moves r s .choose none
        { s with resolution := resolution, phase := .sleeping attempt (s.now + attempt.backoff) }
  | unchosen (here : s.phase = .choosing) (failed : s.resolution.nextNameserver r = .error e) :
      Moves r s .choose none (s.fail e)
  | sent (here : s.phase = .sleeping attempt wake) (awake : wake ≤ s.now)
      (time : r.computeTimeout s.start s.wall s.resolution.errors = .ok timeout)
      (query : q = ⟨s.resolution.qname, attempt.nameserver, attempt.port, attempt.tcp, timeout⟩) :
      Moves r s .wake (some q) { s with phase := .querying q }
  | expired (here : s.phase = .sleeping attempt wake)
      (time : r.computeTimeout s.start s.wall s.resolution.errors = .error e) : Moves r s .wake none (s.fail e)
  | settled (here : s.phase = .querying q) (judged : s.resolution.queryResult r outcome = .ok result) :
      Moves r s (.replied outcome) none (s.settle result)
  | ended (here : s.phase = .querying q) (judged : s.resolution.queryResult r outcome = .error e) :
      Moves r s (.replied outcome) none (s.fail e)
  | cancelled (here : (∃ attempt wake, s.phase = .sleeping attempt wake) ∨ ∃ q, s.phase = .querying q) :
      Moves r s .cancel none (s.fail .cancelled)

theorem step_moves {s t : State} (stepped : step r s e = some (o, t)) : Moves r s e o t := by
  unfold step at stepped
  split at stepped
  case h_1 =>
    split_ifs at stepped with forward
    cases stepped
    exact .passed forward
  case h_2 order here =>
    split_ifs at stepped with permitted
    have shuffled := Resolver.ordered_perm permitted
    cases next : s.resolution.qnames with
    | nil =>
      simp only [Resolution.nextRequest, next] at stepped
      cases stepped
      exact .denied here next
    | cons qname qnames =>
      simp only [Resolution.nextRequest, next] at stepped
      cases stepped
      exact .requested here shuffled next
  case h_3 here =>
    split at stepped
    case h_1 next => cases stepped; exact .chosen here next
    case h_2 failed => cases stepped; exact .unchosen here failed
  case h_4 here =>
    split_ifs at stepped with awake
    split at stepped
    case h_1 time => cases stepped; exact .sent here awake time rfl
    case h_2 time => cases stepped; exact .expired here time
  case h_5 here =>
    split at stepped
    case h_1 judged => cases stepped; exact .settled here judged
    case h_2 judged => cases stepped; exact .ended here judged
  case h_6 here => cases stepped; exact .cancelled (.inl ⟨_, _, here⟩)
  case h_7 here => cases stepped; exact .cancelled (.inr ⟨_, here⟩)
  case h_8 => cases stepped

theorem Truncated.later (truncated : Truncated past qname nameserver) (quiet : e.outcome = none) :
    Truncated ((e, none) :: past) qname nameserver := by
  obtain ⟨q, sent, answer, rest⟩ := truncated
  refine ⟨q, sent, ?_, rest⟩
  rw [replied, List.findSome?_cons, quiet]
  exact answer

theorem Verdict.later (verdict : Verdict r past s phase) : Verdict r (l :: past) s phase := by
  cases phase with
  | returned answer =>
    obtain ⟨trying, q, response, name, received, rest⟩ := verdict
    exact ⟨trying.later, q, response, name, received.later, rest⟩
  | raised e =>
    cases e with
    | nxDomain => exact ⟨verdict.1, fun n member => (verdict.2 n member).later⟩
    | noNameservers => exact ⟨verdict.1.later, verdict.2⟩
    | noAnswer response =>
      obtain ⟨trying, asks, q, answer, name, received, rest⟩ := verdict
      exact ⟨trying.later, asks, q, answer, name, received.later, rest⟩
    | yxDomain =>
      obtain ⟨trying, q, response, name, received, rcode⟩ := verdict
      exact ⟨trying.later, q, response, name, received.later, rcode⟩
    | lifetimeTimeout => exact ⟨verdict.1.later, verdict.2⟩
    | cancelled => exact Trying.later verdict
    | valueError => exact verdict
    | assertion => exact verdict
  | requesting => trivial
  | choosing => trivial
  | sleeping => trivial
  | querying => trivial

/-- Nothing changes while time passes. -/
theorem Ready.later (ready : Ready r past s phase) (quiet : e.outcome = none) :
    Ready r ((e, none) :: past) s phase := by
  cases phase with
  | requesting =>
    obtain ⟨tried, split, denied⟩ := ready
    exact ⟨tried, split, fun n member => (denied n member).later⟩
  | choosing =>
    refine ⟨ready.1.later, ?_⟩
    have waiting := ready.2
    split at waiting
    case isTrue retry =>
      obtain ⟨nameserver, last, port, mixed, truncated⟩ := waiting
      rw [if_pos retry]
      exact ⟨nameserver, last, port, mixed, truncated.later quiet⟩
    case isFalse retry =>
      rw [if_neg retry]
      exact waiting
  | sleeping attempt wake =>
    obtain ⟨trying, asking, fallback⟩ := ready
    exact ⟨trying.later, asking, fun tcp => (fallback tcp).imp_right (·.later quiet)⟩
  | querying q => exact ⟨ready.1.later, ready.2⟩
  | returned answer =>
    have verdict : Verdict r past s (.returned answer) := ready
    exact verdict.later
  | raised e =>
    have verdict : Verdict r past s (.raised e) := ready
    exact verdict.later

theorem ready_prepare (ready : Ready r past s .requesting) (shuffled : order.Perm r.nameservers)
    (next : s.qnames = qname :: qnames) : Ready r past (s.prepare order qname qnames) .choosing := by
  obtain ⟨tried, split, denied⟩ := ready
  refine ⟨⟨⟨tried, split.trans (by rw [next]; rfl), denied⟩, ?_, fun f member => absurd member List.not_mem_nil⟩, ?_⟩
  · exact (List.append_nil order).symm ▸ shuffled
  · exact List.Subperm.refl order

theorem ready_nextNameserver (ready : Ready r past s .choosing) (wake : ℚ) :
    match s.nextNameserver r with
    | .ok (attempt, s') => Ready r past s' (.sleeping attempt wake)
    | .error e => Ready r past s (.raised e) := by
  obtain ⟨trying, waiting⟩ := ready
  have known : s.retryWithTcp = true → s.nameserver ≠ none := by
    intro retry
    rw [if_pos retry] at waiting
    obtain ⟨nameserver, last, _⟩ := waiting
    exact last ▸ Option.some_ne_none nameserver
  rcases Resolution.nextNameserver_cases (r := r) known with
    ⟨retry, nameserver, last, next⟩ | ⟨first, nameserver, others, current, next⟩ |
      ⟨first, current, nameserver, others, all, next⟩ | ⟨first, all, next⟩
  · rw [next]
    rw [if_pos retry] at waiting
    obtain ⟨same, last', port, mixed, truncated⟩ := waiting
    obtain rfl := Option.some.inj (last.symm.trans last')
    exact ⟨⟨trying.tried, trying.dropped, trying.explained⟩, ⟨last, ⟨rfl, port⟩, rfl, rfl, mixed⟩, fun _ => .inr truncated⟩
  · rw [next]
    rw [if_neg (by simp [first]), current] at waiting
    exact ⟨⟨trying.tried, trying.dropped, trying.explained⟩, ⟨rfl, ⟨rfl, rfl⟩, rfl, first, waiting⟩, .inl⟩
  · rw [next]
    have mixed : (nameserver :: others).Subperm s.nameservers := all ▸ List.Subperm.refl _
    exact ⟨⟨trying.tried, trying.dropped, trying.explained⟩, ⟨rfl, ⟨rfl, rfl⟩, rfl, first, mixed⟩, .inl⟩
  · rw [next]
    have gone := trying.dropped
    rw [all, List.nil_append] at gone
    exact ⟨trying, rfl, gone⟩

theorem mem_filter_drops (f : Failure) (errors : List Failure) :
    ((errors ++ [f]).filter (·.drops r)).map (·.nameserver) =
      (errors.filter (·.drops r)).map (·.nameserver) ++ if f.drops r then [f.nameserver] else [] := by
  rw [List.filter_append, List.map_append]
  cases drops : f.drops r <;> simp [drops]

theorem ready_failed (ready : Ready r past s (.querying q)) (noted : f.Of q outcome) :
    Ready r ((.replied outcome, none) :: past) (s.failed r f) .choosing := by
  obtain ⟨trying, asking, sent, name⟩ := ready
  have received : Received ((.replied outcome, none) :: past) q outcome := ⟨past, List.suffix_rfl, sent⟩
  refine ⟨⟨trying.later.tried, ?_, fun f' member => ?_⟩, ?_⟩
  · have whole := trying.dropped
    have present := asking.mixed.subset List.mem_cons_self
    simp only [Resolution.failed, mem_filter_drops]
    split
    case isTrue =>
      rw [noted.nameserver, ← List.append_assoc]
      refine (List.perm_append_singleton _ _).trans (.trans ?_ whole)
      exact (List.perm_cons_erase present).symm.append_right _
    case isFalse => rw [List.append_nil]; exact whole
  · rcases List.mem_append.mp member with old | new
    · exact trying.later.explained f' old
    · obtain rfl := List.mem_singleton.mp new
      exact ⟨q, outcome, name, received, noted⟩
  · have rest : s.currentNameservers.Subperm (s.failed r f).nameservers := by
      simp only [Resolution.failed]
      split
      case isTrue =>
        have fewer := asking.mixed.erase q.nameserver
        rw [List.erase_cons_head] at fewer
        exact noted.nameserver ▸ fewer
      case isFalse => exact (List.sublist_cons_self _ _).subperm.trans asking.mixed
    split
    case isFalse => exact rest
    case isTrue retry =>
      simp only [Resolution.failed, asking.once, Bool.false_or] at retry
      obtain ⟨truncated, udp, keeps⟩ := noted.retries (r := r) retry
      have mixed : (q.nameserver :: s.currentNameservers).Subperm (s.failed r f).nameservers := by
        simp only [Resolution.failed, keeps]
        exact asking.mixed
      refine ⟨q.nameserver, asking.last, asking.reached.1.trans asking.reached.2, mixed, q, sent, ?_, name, rfl, udp⟩
      rw [truncated]
      rfl

/-- One reply. -/
theorem ready_queryResult (ready : Ready r past s (.querying q)) (outcome : Outcome) :
    match s.queryResult r outcome with
    | .ok ((some answer, _), s') => Ready r ((.replied outcome, none) :: past) s' (.returned answer)
    | .ok ((none, true), s') => Ready r ((.replied outcome, none) :: past) s' .requesting
    | .ok ((none, false), s') => Ready r ((.replied outcome, none) :: past) s' .choosing
    | .error e => Ready r ((.replied outcome, none) :: past) s (.raised e) := by
  obtain ⟨trying, asking, sent, name⟩ := ready
  have received : Received ((.replied outcome, none) :: past) q outcome := ⟨past, List.suffix_rfl, sent⟩
  have present := asking.mixed.subset List.mem_cons_self
  rcases Resolution.queryResult_cases (r := r) q asking.last asking.reached.1 asking.attempt present outcome with
    ⟨f, noted, result⟩ | ⟨response, answer, rfl, okay, resolved, ⟨empty, raises, result⟩ | ⟨given, result⟩⟩ |
      ⟨response, rfl, denies, result⟩ | ⟨response, rfl, rcode, result⟩
  · rw [result]
    exact ready_failed ⟨trying, asking, sent, name⟩ noted
  · rw [result]
    exact ⟨trying.later, raises, q, answer, name, received, okay, resolved, empty⟩
  · rw [result]
    refine ⟨trying.later, q, response, name, received, okay, resolved, fun empty => ?_⟩
    exact Bool.eq_false_of_not_eq_true fun raises => given ⟨empty, raises⟩
  · rw [result]
    obtain ⟨tried, split, denied⟩ := trying.later.tried
    refine ⟨tried ++ [s.qname], by simp [split], fun n member => ?_⟩
    rw [← name]
    refine Denied.set response denies received ?_
    rcases List.mem_append.mp member with old | new
    · exact .inr (denied n old)
    · exact .inl ((List.mem_singleton.mp new).trans name.symm)
  · rw [result]
    exact ⟨trying.later, q, response, name, received, rcode⟩

/-- What a resolution is asked for. -/
structure Asks (candidates : List Name) (tcp raiseOnNoAnswer : Bool) (s : Resolution) : Prop where
  names : s.qnamesToTry = candidates
  transport : s.tcp = tcp
  strict : s.raiseOnNoAnswer = raiseOnNoAnswer

structure Inv (r : Resolver) (candidates : List Name) (tcp raiseOnNoAnswer : Bool) (past : List Label)
    (s : State) : Prop where
  asks : Asks candidates tcp raiseOnNoAnswer s.resolution
  ready : Ready r past s.resolution s.phase
  sent : History.Each (fun l earlier => ∀ q, l.2 = some q → Proper r candidates tcp earlier q) past

theorem Asks.nextNameserver (asks : Asks candidates tcp raiseOnNoAnswer s) (next : s.nextNameserver r = .ok (attempt, s')) :
    Asks candidates tcp raiseOnNoAnswer s' := by
  obtain ⟨names, transport, strict⟩ := asks
  unfold Resolution.nextNameserver at next
  repeat' split at next
  all_goals cases next
  all_goals exact ⟨names, transport, strict⟩

theorem Asks.queryResult (asks : Asks candidates tcp raiseOnNoAnswer s) (ready : Ready r past s (.querying q))
    (judged : s.queryResult r outcome = .ok result) : Asks candidates tcp raiseOnNoAnswer result.2 := by
  obtain ⟨names, transport, strict⟩ := asks
  obtain ⟨_, asking, _⟩ := ready
  have present := asking.mixed.subset List.mem_cons_self
  rcases Resolution.queryResult_cases (r := r) q asking.last asking.reached.1 asking.attempt present outcome with
    ⟨_, _, same⟩ | ⟨_, _, _, _, _, ⟨_, _, same⟩ | ⟨_, same⟩⟩ | ⟨_, _, _, same⟩ | ⟨_, _, _, same⟩
  all_goals cases judged.symm.trans same
  all_goals exact ⟨names, transport, strict⟩

theorem inv_step {s t : State} (inv : Inv r candidates tcp raiseOnNoAnswer past s)
    (moves : Moves r s e o t) : Inv r candidates tcp raiseOnNoAnswer ((e, o) :: past) t := by
  obtain ⟨asks, ready, sent⟩ := inv
  have still {e : Event} : History.Each (fun l earlier => ∀ q, l.2 = some q → Proper r candidates tcp earlier q)
      ((e, none) :: past) := History.each_cons.mpr ⟨fun _ unsent => (by cases unsent), sent⟩
  cases moves with
  | passed => exact ⟨asks, ready.later rfl, still⟩
  | requested here shuffled next =>
    rw [here] at ready
    exact ⟨⟨asks.names, asks.transport, asks.strict⟩, (ready_prepare ready shuffled next).later rfl, still⟩
  | denied here last =>
    rw [here] at ready
    obtain ⟨tried, split, denied⟩ := ready
    rw [last, List.append_nil] at split
    exact ⟨asks, ⟨rfl, fun n member => (denied n (split ▸ member)).later⟩, still⟩
  | @chosen attempt _ here next =>
    rw [here] at ready
    have chosen := ready_nextNameserver ready (s.now + attempt.backoff)
    rw [next] at chosen
    exact ⟨asks.nextNameserver next, chosen.later rfl, still⟩
  | @unchosen e here failed =>
    rw [here] at ready
    have failing := ready_nextNameserver ready 0
    rw [failed] at failing
    have ended : Ready r past s.resolution (.raised e) := failing
    exact ⟨asks, ended.later rfl, still⟩
  | @sent attempt _ _ q here awake time query =>
    rw [here] at ready
    obtain ⟨trying, asking, fallback⟩ := ready
    obtain ⟨_, bounded, _⟩ := Resolver.computeTimeout_ok time
    subst query
    have member := trying.dropped.subset
      (List.mem_append_left _ (asking.mixed.subset (List.mem_cons_self (a := attempt.nameserver))))
    refine ⟨asks, ⟨trying.later, asking, rfl, rfl⟩, History.each_cons.mpr ⟨fun q last => ?_, sent⟩⟩
    cases last
    obtain ⟨tried, names, _⟩ := trying.tried
    have candidate : s.resolution.qname ∈ candidates := by
      rw [← asks.names, names]
      exact List.mem_append_right _ List.mem_cons_self
    exact ⟨candidate, member, asking.reached.2, bounded,
      fun tcp => (fallback tcp).imp_left fun same => asks.transport ▸ same⟩
  | expired here time =>
    rw [here] at ready
    obtain ⟨duration, rfl, late⟩ := Resolver.computeTimeout_error time
    exact ⟨asks, ⟨ready.1.later, rfl, late⟩, still⟩
  | @settled q outcome result here judged =>
    rw [here] at ready
    have settled := ready_queryResult ready outcome
    rw [judged] at settled
    have asks' := asks.queryResult ready judged
    obtain ⟨⟨answer, done⟩, resolution⟩ := result
    cases answer with
    | some answer => exact ⟨asks', settled, still⟩
    | none => cases done <;> exact ⟨asks', settled, still⟩
  | @ended q outcome e here judged =>
    rw [here] at ready
    have ended := ready_queryResult ready outcome
    rw [judged] at ended
    exact ⟨asks, ended, still⟩
  | cancelled here =>
    refine ⟨asks, ?_, still⟩
    rcases here with ⟨attempt, wake, here⟩ | ⟨q, here⟩
    · rw [here] at ready
      exact ready.1.later
    · rw [here] at ready
      exact ready.1.later

/-- A run of `resolve`, as its caller starts it. -/
abbrev Runs (r : Resolver) (candidates : List Name) (tcp raiseOnNoAnswer : Bool) (now : ℚ) : List Label → State → Prop :=
  Transition.Run (Transition.byOutput (step r)) (.init candidates tcp raiseOnNoAnswer now)

theorem inv_run {s : State} (run : Runs r candidates tcp raiseOnNoAnswer now past s) :
    Inv r candidates tcp raiseOnNoAnswer past s := by
  have initial : Inv r candidates tcp raiseOnNoAnswer [] (.init candidates tcp raiseOnNoAnswer now) :=
    ⟨⟨rfl, rfl, rfl⟩, ⟨[], rfl, fun _ member => absurd member List.not_mem_nil⟩, History.each_nil⟩
  exact run.record initial fun inv stepped => inv_step inv (step_moves stepped)

def play (r : Resolver) (qname : Name) : List Event → Option (List Label × State) :=
  Transition.execute (step r) (fun _ e o => (e, o)) (.init [qname] false true 0)

def twoNameservers : Resolver := .reset .root ["192.0.2.1", "192.0.2.2"]

/-- The first nameserver truncates its answer over UDP and over TCP, the second cannot
be reached. -/
def refusals : List Event :=
  [.request ["192.0.2.1", "192.0.2.2"], .choose, .wake, .replied (.raised .truncated), .choose, .wake,
    .replied (.raised .truncated), .choose, .wake, .replied (.raised .osError), .choose]

def sentTo (past : List Label) : List (String × Bool) := past.filterMap fun l => l.2.map fun q => (q.nameserver, q.tcp)

/-- Only configured nameservers are asked, for the candidates only, and over TCP only,
where not all queries are, the one that has just truncated its answer to the same
query over UDP. -/
theorem queries_proper {s : State} (run : Runs r candidates tcp raiseOnNoAnswer now past s) :
    History.Each (fun l earlier => ∀ q, l.2 = some q → Proper r candidates tcp earlier q) past :=
  (inv_run run).sent

theorem queries_proper_refusals : ∃ past s, Runs twoNameservers [.root] false true 0 past s ∧
    sentTo past = [("192.0.2.2", false), ("192.0.2.1", true), ("192.0.2.1", false)] ∧
    History.Each (fun l earlier => ∀ q, l.2 = some q → Proper twoNameservers [.root] false earlier q) past := by
  have played : (play twoNameservers .root refusals).map (sentTo ·.1) =
      some [("192.0.2.2", false), ("192.0.2.1", true), ("192.0.2.1", false)] := by decide +kernel
  obtain ⟨⟨past, s⟩, played, asked⟩ := Option.map_eq_some_iff.mp played
  have run := Transition.Run.of_outputs played
  exact ⟨past, s, run, asked, queries_proper run⟩

/-- With absolute names to search, only absolute names are asked for. -/
theorem queries_absolute {s : State} (rooted : ∀ suffix ∈ r.searchList, suffix.isAbsolute = true)
    (started : Resolution.start r qname rdtype rdclass tcp raiseOnNoAnswer useSearch = .ok resolution)
    (run : Runs r resolution.qnamesToTry tcp raiseOnNoAnswer now past s) (made : (e, some q) ∈ past) :
    q.qname.isAbsolute = true := by
  unfold Resolution.start at started
  split_ifs at started with metaquery
  split at started
  case h_2 => cases started
  case h_1 tried =>
    cases started
    obtain ⟨later, earlier, rfl⟩ := List.append_of_mem made
    have proper := (inv_run run).sent _ earlier (List.suffix_append _ _) q rfl
    exact Resolver.getQnamesToTry_absolute rooted tried _ proper.name

/-- What a resolution ends with is borne out by the replies it has had, and no
nameserver is ever removed twice. -/
theorem verdict_borne_out {s : State} (run : Runs r candidates tcp raiseOnNoAnswer now past s) :
    s.resolution.qnamesToTry = candidates ∧ s.resolution.raiseOnNoAnswer = raiseOnNoAnswer ∧
      Verdict r past s.resolution s.phase := by
  obtain ⟨asks, ready, _⟩ := inv_run run
  refine ⟨asks.names, asks.strict, ?_⟩
  cases phase : s.phase with
  | returned => rw [phase] at ready; exact ready
  | raised => rw [phase] at ready; exact ready
  | _ => trivial

def Phase.refused : Phase → Option (List String)
  | .raised (.noNameservers errors) => some (errors.map (·.nameserver))
  | _ => none

theorem verdict_borne_out_refusals : ∃ past s, Runs twoNameservers [.root] false true 0 past s ∧
    Phase.refused s.phase = some ["192.0.2.1", "192.0.2.1", "192.0.2.2"] ∧
    Verdict twoNameservers past s.resolution s.phase := by
  have played : (play twoNameservers .root refusals).map (Phase.refused ·.2.phase) =
      some (some ["192.0.2.1", "192.0.2.1", "192.0.2.2"]) := by decide +kernel
  obtain ⟨⟨past, s⟩, played, refused⟩ := Option.map_eq_some_iff.mp played
  have run := Transition.Run.of_outputs played
  exact ⟨past, s, run, refused, (verdict_borne_out run).2.2⟩

end Resolve
end HttpSocksProxy.Dns
