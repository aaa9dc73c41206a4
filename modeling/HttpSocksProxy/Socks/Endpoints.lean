import HttpSocksProxy.Foundation.ByteStream
import HttpSocksProxy.Foundation.Effect
import HttpSocksProxy.Server.Exceptions
import HttpSocksProxy.Socks.Association

/-! The datagram endpoints of a UDP association: who creates them in
`UdpForwarder.start`, who holds them, and who closes them in `handle_udp`. -/
namespace HttpSocksProxy.Endpoints
open InetText ByteStream Effect Udp

/-- The endpoint for the client, or the one for upstream peers of a family. -/
inductive Endpoint where
  | client
  | server (f : Family)
  deriving DecidableEq, Repr

/-- `client_conn`, `server_conn_ipv4` and `server_conn_ipv6`. -/
def Endpoint.all : List Endpoint := [.client, .server .inet, .server .inet6]

/-- What the world answers: the name of the client's socket, how each
`create_datagram_endpoint` ends, the port of the new endpoint for the client and how
writing a reply ends. -/
structure Env where
  cfg : Config
  sockname : Option Str
  creates : Endpoint → Except Exn Unit
  port : Option UInt16
  written : Except Exn Unit

/-- `conn` says which of the forwarder's fields are not `None`. -/
structure Session where
  reader : Reader Exn
  created : List Endpoint
  closed : List Endpoint
  conn : Endpoint → Bool
  replies : List (List UInt8)

def Session.init (reader : Reader Exn) : Session := ⟨reader, [], [], fun _ => false, []⟩

abbrev Handler := EStateM Exn Session

def orRaise (value : Option A) : Handler A :=
  match value with
  | some a => pure a
  | none => throw .exception

def outcome : Except Exn Unit → Handler Unit
  | .ok _ => pure ()
  | .error e => throw e

/-- `create_datagram_endpoint`, and the field that it is assigned to. -/
def createEndpoint (env : Env) (endpoint : Endpoint) : Handler Unit := do
  outcome (env.creates endpoint)
  modify fun s => { s with
    created := s.created ++ [endpoint], conn := Function.update s.conn endpoint true }

def createServer (env : Env) (f : Family) : Handler Unit :=
  if (boundAddress env.cfg f).isSome then createEndpoint env (.server f) else pure ()

/-- `UdpForwarder.close`. -/
def close : Handler Unit := modify fun s =>
  { s with closed := s.closed ++ Endpoint.all.filter s.conn, conn := fun _ => false }

/-- `UdpForwarder.start`: both `except` clauses close and raise again. -/
def start (env : Env) : Handler Unit :=
  let createAll : Handler Unit := do
    createEndpoint env .client
    createServer env .inet
    createServer env .inet6
  tryCatch createAll fun e => do
    close
    throw e

def sendReply (env : Env) (status : UInt8) (bindaddr : Option SocketAddress) : Handler Unit := do
  let address ← orRaise (Socks.encodeAddress bindaddr)
  outcome env.written
  modify fun s => { s with replies := s.replies ++ [[5, status, 0] ++ address] }

def raised : Failure Exn → Exn
  | .raised e => e
  | .incomplete _ | .overrun => .exception

/-- The loop that reads the control connection up to its end. -/
def readControl (reader : Reader Exn) : Except Exn (Reader Exn) :=
  match _got : reader.read 4096 with
  | .error reason => .error (raised reason)
  | .ok (chunk, rest) => if chunk = [] then .ok rest else readControl rest
termination_by reader.content.length
decreasing_by
  obtain ⟨consumed, _⟩ := Reader.read_ok _got
  have positive := List.length_pos_of_ne_nil ‹chunk ≠ []›
  rw [consumed, List.length_append]
  omega

def control : Handler Unit := fun s =>
  match readControl s.reader with
  | .ok reader => .ok () { s with reader }
  | .error e => .error e s

/-- `handle_udp`. -/
def handleUdp (env : Env) : Handler Unit := do
  let localAddress ← orRaise env.sockname
  tryCatch (start env) fun e => do
    if e = .cancelledError then throw e
    else
      sendReply env 1 none
      throw e
  let port ← orRaise env.port
  sendReply env 0 (some (localAddress, port))
  -- the `finally` clause begins here, after the reply
  tryCatch control fun e => do
    close
    throw e
  close

/-- Every endpoint that was created has been closed. -/
def AllClosed (s : Session) : Prop := ∀ endpoint ∈ s.created, endpoint ∈ s.closed

/-- Every endpoint that an association needs is created. -/
def Starts (env : Env) : Prop := env.creates .client = .ok () ∧
  ∀ f, (boundAddress env.cfg f).isSome = true → env.creates (.server f) = .ok ()

/-- Nothing fails between the last creation and the `finally` clause. -/
def Replies (env : Env) : Prop := ∀ localAddress, env.sockname = some localAddress → Starts env →
  ∃ port, env.port = some port ∧ (Socks.encodeAddress (some (localAddress, port))).isSome = true ∧
    env.written = .ok ()

/-- The forwarder holds every endpoint that is not closed. -/
def Held (s : Session) : Prop := ∀ endpoint ∈ s.created, endpoint ∈ s.closed ∨ s.conn endpoint = true

/-- The endpoints are there, and no one has closed any. -/
structure Running (s : Session) : Prop where
  held : Held s
  client : .client ∈ s.created
  none : s.closed = []

section Handler
variable {env : Env} {s : Session}

theorem Endpoint.mem_all (endpoint : Endpoint) : endpoint ∈ Endpoint.all := by
  rcases endpoint with _ | (_ | _) <;> decide

theorem close_held (held : Held s) {fail : Exn → Session → Prop} :
    After close s (fun _ t => AllClosed t) fail := by
  apply After.modify_iff.mpr
  intro endpoint member
  rcases held endpoint member with closed | open_
  · exact List.mem_append_left _ closed
  · exact List.mem_append_right _ (List.mem_filter.mpr ⟨endpoint.mem_all, open_⟩)

/-- Creating an endpoint keeps what is known of those before it. -/
theorem createEndpoint_after (held : Held s) (none : s.closed = []) (endpoint : Endpoint) :
    After (createEndpoint env endpoint) s
      (fun _ t => env.creates endpoint = .ok () ∧ Held t ∧ t.closed = [] ∧
        t.created = s.created ++ [endpoint])
      fun _ t => env.creates endpoint ≠ .ok () ∧ Held t := by
  apply After.bind_iff.mpr
  cases created : env.creates endpoint with
  | error e => exact ⟨by simp, held⟩
  | ok _ =>
    apply After.modify_iff.mpr
    refine ⟨rfl, fun other member => ?_, none, rfl⟩
    by_cases same : other = endpoint
    · exact .inr (by simp [same])
    · have before : other ∈ s.created := by simpa [same] using member
      exact (held other before).imp_right fun known => by simp [same, known]

theorem createServer_after (held : Held s) (none : s.closed = []) (f : Family) :
    After (createServer env f) s
      (fun _ t => ((boundAddress env.cfg f).isSome = true → env.creates (.server f) = .ok ()) ∧
        Held t ∧ t.closed = [] ∧ s.created ⊆ t.created)
      fun _ t => ¬ Starts env ∧ Held t := by
  unfold createServer
  split
  case isTrue bound =>
    refine (createEndpoint_after held none _).mono ?_ ?_
    · rintro _ t ⟨created, held, none, grown⟩
      exact ⟨fun _ => created, held, none, grown ▸ List.subset_append_left _ _⟩
    · rintro e t ⟨failed, held⟩
      exact ⟨fun starts => failed (starts.2 f bound), held⟩
  case isFalse unbound => exact ⟨fun bound => absurd bound unbound, held, none, List.Subset.refl _⟩

/-- A start that fails closes what it has created. -/
theorem start_after (env : Env) (reader : Reader Exn) : After (start env) (.init reader)
    (fun _ t => Starts env ∧ Running t) fun _ t => ¬ Starts env ∧ AllClosed t := by
  have empty : Held (.init reader) := nofun
  apply After.tryCatch_iff.mpr
  have createAll : After (do createEndpoint env .client; createServer env .inet; createServer env .inet6)
      (.init reader) (fun _ t => Starts env ∧ Running t) fun _ t => ¬ Starts env ∧ Held t := by
    refine After.bind_iff.mpr ((createEndpoint_after empty rfl _).mono ?_ ?_)
    · rintro _ s ⟨client, held, none, created⟩
      have member : Endpoint.client ∈ s.created := by simp [created]
      apply (createServer_after held none .inet).bind
      rintro _ t ⟨four, held, none, grown⟩
      refine (createServer_after held none .inet6).mono ?_ fun _ _ failed => failed
      rintro _ u ⟨six, held, none, grown'⟩
      refine ⟨⟨client, fun f => ?_⟩, held, grown' (grown member), none⟩
      cases f with
      | inet => exact four
      | inet6 => exact six
    · rintro e t ⟨failed, held⟩
      exact ⟨fun starts => failed starts.1, held⟩
  refine createAll.mono (fun _ _ running => running) ?_
  rintro e t ⟨failed, held⟩
  apply (close_held held).bind
  exact fun _ u closed => ⟨failed, closed⟩

theorem orRaise_after {ok : A → Session → Prop} {fail : Exn → Session → Prop} (value : Option A)
    (okay : ∀ a, value = some a → ok a s) (failing : value = none → fail .exception s) :
    After (orRaise value) s ok fail := by
  cases value with
  | none => exact failing rfl
  | some a => exact okay a rfl

/-- A reply touches no endpoint. -/
theorem sendReply_after {ok : Unit → Session → Prop} {fail : Exn → Session → Prop} (status : UInt8)
    (bindaddr : Option SocketAddress)
    (okay : ∀ replies, (Socks.encodeAddress bindaddr).isSome = true → env.written = .ok () →
      ok () { s with replies })
    (failing : ∀ e, (Socks.encodeAddress bindaddr).isSome = false ∨ env.written ≠ .ok () → fail e s) :
    After (sendReply env status bindaddr) s ok fail := by
  apply After.bind_iff.mpr
  apply orRaise_after
  · intro address encoded
    apply After.bind_iff.mpr
    cases written : env.written with
    | error e => exact failing e (.inr (by simp [written]))
    | ok _ => exact okay _ (by simp [encoded]) written
  · intro unencoded
    exact failing _ (.inl (by simp [unencoded]))

/-- However the control connection ends, the `finally` clause closes the endpoints. -/
theorem control_closes (held : Held s) : Ends (do
    tryCatch control fun e => do
      close
      throw e
    close) s AllClosed := by
  have read : Ends control s Held := by
    simp only [Ends, After, control]
    cases readControl s.reader <;> exact held
  apply After.bind_iff.mpr
  apply After.tryCatch_iff.mpr
  refine After.mono read (fun _ t held => close_held held) fun e t held => ?_
  apply (close_held held).bind
  exact fun _ u closed => closed

/-- Endpoints that run are closed in the end if a reply can be made for them, and only
then. -/
theorem running_closes (running : Running s) (starts : Starts env)
    (named : env.sockname = some localAddress) : Ends (do
      let port ← orRaise env.port
      sendReply env 0 (some (localAddress, port))
      tryCatch control fun e => do
        close
        throw e
      close) s fun t => AllClosed t ↔ Replies env := by
  have leaks : ¬ AllClosed s := by
    intro closed
    have member := closed _ running.client
    rw [running.none] at member
    cases member
  have unanswered (failed : ¬ Replies env) : AllClosed s ↔ Replies env := iff_of_false leaks failed
  apply After.bind_iff.mpr
  apply orRaise_after
  · intro port known
    apply After.bind_iff.mpr
    apply sendReply_after
    · intro replies encoded written
      have answers : Replies env := by
        intro other same _
        obtain rfl := Option.some.inj (named.symm.trans same)
        exact ⟨port, known, encoded, written⟩
      have held : Held { s with replies } := running.held
      exact (control_closes held).mono fun _ closed => iff_of_true closed answers
    · intro e failed
      refine unanswered fun answers => ?_
      obtain ⟨other, same, encoded, written⟩ := answers localAddress named starts
      obtain rfl := Option.some.inj (known.symm.trans same)
      rcases failed with unencoded | unwritten
      · rw [encoded] at unencoded
        cases unencoded
      · exact unwritten written
  · intro unknown
    refine unanswered fun answers => ?_
    obtain ⟨port, known, _⟩ := answers localAddress named starts
    rw [unknown] at known
    cases known

/-- A start that has failed is answered, and is raised again, with nothing left open. -/
theorem failed_closes (closed : AllClosed s) (e : Exn) : After (do
      if e = .cancelledError then throw e
      else
        sendReply env 1 none
        throw e : Handler Unit) s (fun _ _ => False) fun _ t => AllClosed t := by
  split
  case isTrue => exact closed
  case isFalse =>
    apply After.bind_iff.mpr
    apply sendReply_after
    · exact fun _ _ _ => closed
    · exact fun _ _ => closed

end Handler

/-- The endpoints of an association are closed when `handle_udp` ends, unless it fails
between the last creation and the `finally` clause. -/
theorem endpoints_closed_iff (env : Env) (reader : Reader Exn) :
    AllClosed (final (handleUdp env) (.init reader)) ↔ Replies env := by
  have ended : Ends (handleUdp env) (.init reader) fun t => AllClosed t ↔ Replies env := by
    apply After.bind_iff.mpr
    apply orRaise_after
    · intro localAddress named
      apply After.bind_iff.mpr
      apply After.tryCatch_iff.mpr
      refine (start_after env reader).mono ?_ ?_
      · rintro _ t ⟨starts, running⟩
        exact running_closes running starts named
      · rintro e t ⟨failed, closed⟩
        have replies : Replies env := fun _ _ starts => absurd starts failed
        exact (failed_closes closed e).mono (fun _ _ => False.elim) fun _ _ closed =>
          iff_of_true closed replies
    · intro unnamed
      refine iff_of_true nofun fun localAddress named => ?_
      rw [unnamed] at named
      cases named
  exact ended.final

/-- An association on a link-local address: every endpoint is created, and the reply
could be written. -/
def linkLocal : Env where
  cfg := { lan with localAddress := "fe80::1%en2".toList }
  sockname := some "fe80::1%en2".toList
  creates _ := .ok ()
  port := some 5000
  written := .ok ()

/-- The address has no encoding, since it has a scope, and the three endpoints stay open. -/
theorem scoped_address_leaks :
    (final (handleUdp linkLocal) (.init (.ofPieces []))).created = Endpoint.all ∧
    (final (handleUdp linkLocal) (.init (.ofPieces []))).closed = [] ∧
    ¬ ∀ env reader, AllClosed (final (handleUdp env) (.init reader)) := by
  have created : (final (handleUdp linkLocal) (.init (.ofPieces []))).created = Endpoint.all := by
    decide +kernel
  have none : (final (handleUdp linkLocal) (.init (.ofPieces []))).closed = [] := by decide +kernel
  refine ⟨created, none, fun all => ?_⟩
  have closed := all linkLocal (.ofPieces []) .client (by rw [created]; decide)
  rw [none] at closed
  cases closed

end HttpSocksProxy.Endpoints
