import HttpSocksProxy.Foundation.ByteStream
import HttpSocksProxy.Foundation.Effect
import HttpSocksProxy.Server.Relay
import HttpSocksProxy.Socks.Address

/-! `AsyncSocks5Handler`: the greeting, the request and its replies, up to the
relay of a CONNECT and the control connection of a UDP association. -/
namespace HttpSocksProxy.Negotiation
open InetText ByteStream Effect Socks

/-- `Socks5Status`. -/
inductive Status where
  | succeeded
  | error
  | eperm
  | enetdown
  | ehostunreach
  | econnrefused
  | etimedout
  | enotsup
  | eafnosupport
  deriving DecidableEq, Repr

def Status.byte : Status → UInt8
  | succeeded => 0
  | error => 1
  | eperm => 2
  | enetdown => 3
  | ehostunreach => 4
  | econnrefused => 5
  | etimedout => 6
  | enotsup => 7
  | eafnosupport => 8

/-- What the handler does besides reading, with the client bytes it has not read yet. -/
inductive Action where
  | methodReply (method : UInt8)
  | requestReply (status : Status) (bindaddr : List UInt8)
  | tcpConnect (kind : AddressType) (address : SocketAddress) (unread : List UInt8)
  | udpStart (localAddress : Str) (client : SocketAddress) (unread : List UInt8)
  | tcpForward (unread : List UInt8)
  | udpClose
  deriving DecidableEq

/-- The bytes of a reply. -/
def Action.bytes : Action → List UInt8
  | methodReply method => [5, method]
  | requestReply status bindaddr => [5, status.byte, 0] ++ bindaddr
  | _ => []

def Action.isMethodReply : Action → Bool
  | methodReply _ => true
  | _ => false

def Action.isRequestReply : Action → Bool
  | requestReply _ _ => true
  | _ => false

def Action.isReply (a : Action) : Bool := a.isMethodReply || a.isRequestReply

/-- What the world answers: the names of the client's socket, how the attempted
connect or association ends and the port of the new UDP endpoint. -/
structure Env where
  peername : Option SocketAddress
  sockname : Option Str
  connected : Except Exn Unit
  started : Except Exn Unit
  udpPort : Option UInt16

structure Session where
  reader : Reader Exn
  trace : List Action

abbrev Handler := EStateM Exn Session

def initialReadexactly (n : Nat) : Handler (List UInt8) := fun s =>
  match s.reader.readexactly n with
  | .ok (bytes, reader) => .ok bytes { s with reader }
  | .error (.raised e) => .error e s
  | .error _ => .error .exception s

def perform (action : Action) : Handler Unit :=
  modify fun s => { s with trace := s.trace ++ [action] }

def attempt (action : List UInt8 → Action) : Handler Unit :=
  modify fun s => { s with trace := s.trace ++ [action s.reader.content] }

/-- A value that the source computes or fails to compute. -/
def orRaise (value : Option A) : Handler A :=
  match value with
  | some a => pure a
  | none => throw .exception

def sendReply (status : Status) (bindaddr : Option SocketAddress) : Handler Unit := do
  let address ← orRaise (encodeAddress bindaddr)
  perform (.requestReply status address)

/-- `except Exception`: reply and raise again. -/
def replyFailure (status : Status) (e : Exn) : Handler A :=
  if e = .cancelledError then throw e
  else do
    sendReply status none
    throw e

def readBody : AddressType → Handler (List UInt8)
  | .ipv4 => initialReadexactly 4
  | .domain => do
    let length ← initialReadexactly 1
    initialReadexactly (length.headD 0).toNat
  | .ipv6 => initialReadexactly 16

/-- `AsyncSocks5Handler.read_addrport`; `none` is an unknown type. -/
def readAddrport (addressType : UInt8) : Handler (Option (AddressType × SocketAddress)) :=
  match AddressType.ofByte addressType with
  | none => pure none
  | some kind => do
    let raw ← readBody kind
    let text ← orRaise (addressText kind raw)
    let port ← initialReadexactly 2
    return some (kind, text, unpackPort port)

def handleConnect (env : Env) (kind : AddressType) (address : SocketAddress) : Handler Unit := do
  attempt (.tcpConnect kind address)
  match env.connected with
  | .error e => replyFailure .ehostunreach e
  | .ok _ =>
    sendReply .succeeded none
    attempt .tcpForward

def handleUdp (env : Env) (client : SocketAddress) : Handler Unit := do
  let localAddress ← orRaise env.sockname
  attempt (.udpStart localAddress client)
  match env.started with
  | .error e => replyFailure .error e
  | .ok _ =>
    let port ← orRaise env.udpPort
    sendReply .succeeded (some (localAddress, port))
    perform .udpClose

/-- The dispatch on the command byte. -/
def dispatch (env : Env) (command : UInt8) (kind : AddressType) (address : SocketAddress) :
    Handler Unit :=
  if command = 1 then handleConnect env kind address
  else if command = 3 then
    match env.peername with
    | some peer => handleUdp env (peer.1, address.2)
    | none => handleUdp env address
  else do
    sendReply .enotsup none
    throw .exception

/-- `_handle` from the request on. -/
def handleRequest (env : Env) : Handler Unit := do
  let header ← initialReadexactly 4
  if header.headD 0 ≠ 5 then throw .exception
  else
    match ← readAddrport (header.getD 3 0) with
    | none =>
      sendReply .eafnosupport none
      throw .exception
    | some (kind, address) => dispatch env (header.getD 1 0) kind address

/-- `_handle`. -/
def handleAll (env : Env) : Handler Unit := do
  let header ← initialReadexactly 2
  if header.headD 0 ≠ 5 then throw .exception
  else
    let methods ← initialReadexactly (header.getD 1 0).toNat
    if 0 ∈ methods then
      perform (.methodReply 0)
      handleRequest env
    else
      perform (.methodReply 0xff)
      throw .exception

/-- `handle`: whatever `_handle` raises ends the connection. -/
def handle (env : Env) (reader : Reader Exn) : List Action :=
  (final (handleAll env) ⟨reader, []⟩).trace

structure Greeting where
  methods : List UInt8
  short : methods.length < 256
  acceptable : 0 ∈ methods

def Greeting.bytes (g : Greeting) : List UInt8 := [5, g.methods.length.toUInt8] ++ g.methods

/-- The address bytes a known address type prescribes. -/
def Formed : AddressType → List UInt8 → Prop
  | .ipv4, raw => raw.length = 4
  | .domain, raw => ∃ name : List UInt8, name.length < 256 ∧ raw = name.length.toUInt8 :: name
  | .ipv6, raw => raw.length = 16

/-- The address bytes without the length of a domain. -/
def body : AddressType → List UInt8 → List UInt8
  | .domain, raw => raw.tail
  | _, raw => raw

structure Request where
  command : UInt8
  reserved : UInt8
  addressType : UInt8
  raw : List UInt8
  port : UInt16
  formed : ∀ kind, AddressType.ofByte addressType = some kind → Formed kind raw

namespace Request

def bytes (r : Request) : List UInt8 :=
  [5, r.command, r.reserved, r.addressType] ++ r.raw ++ packPort r.port

/-- The requested type and address; `none` when the type is unknown or the
domain is not UTF-8. -/
def target (r : Request) : Option (AddressType × SocketAddress) :=
  (AddressType.ofByte r.addressType).bind fun kind =>
    (addressText kind (body kind r.raw)).map fun text => (kind, text, r.port)

theorem target_known {r : Request} (target : r.target = some (kind, address)) :
    AddressType.ofByte r.addressType = some kind := by
  obtain ⟨found, known, printed⟩ := Option.bind_eq_some_iff.mp target
  obtain ⟨text, _, same⟩ := Option.map_eq_some_iff.mp printed
  cases same
  exact known

end Request

section Rules
variable {s : Session} {α : Type} {ok : α → Session → Prop} {fail : Exn → Session → Prop}

/-- A read consumes what it returns and leaves the trace. -/
theorem read_after {ok : List UInt8 → Session → Prop}
    (okay : ∀ bytes t, s.reader.content = bytes ++ t.reader.content → bytes.length = n →
      t.trace = s.trace → ok bytes t)
    (failing : ∀ e, fail e s) : After (initialReadexactly n) s ok fail := by
  simp only [After, initialReadexactly]
  cases got : s.reader.readexactly n with
  | ok result =>
    obtain ⟨same, length, _⟩ := Reader.readexactly_ok got
    exact okay result.1 _ same length rfl
  | error failure => cases failure <;> exact failing _

/-- A read of a healthy stream gets the bytes that come first. -/
theorem read_healthy {ok : List UInt8 → Session → Prop} (healthy : s.reader.fault = none)
    (stream : s.reader.content = bytes ++ later) (length : bytes.length = n)
    (okay : ∀ t, t.reader.content = later → t.reader.fault = none → t.trace = s.trace → ok bytes t) :
    After (initialReadexactly n) s ok fail := by
  obtain ⟨reader, got, rest, fault⟩ := Reader.readexactly_content healthy
    (show n ≤ s.reader.content.length by simp [stream, length])
  have first : s.reader.content.take n = bytes := by rw [stream, List.take_left' length]
  have last : s.reader.content.drop n = later := by rw [stream, List.drop_left' length]
  simp only [After, initialReadexactly]
  rw [got, first]
  exact okay _ (rest.trans last) fault rfl

theorem perform_after {ok : Unit → Session → Prop}
    (okay : ok ⟨⟩ { s with trace := s.trace ++ [action] }) : After (perform action) s ok fail := okay

theorem attempt_after {action : List UInt8 → Action} {ok : Unit → Session → Prop}
    (okay : ok ⟨⟩ { s with trace := s.trace ++ [action s.reader.content] }) :
    After (attempt action) s ok fail := okay

theorem orRaise_after {value : Option α} (okay : ∀ a, value = some a → ok a s)
    (failing : value = none → fail .exception s) : After (orRaise value) s ok fail := by
  cases value with
  | none => exact failing rfl
  | some a => exact okay a rfl

theorem sendReply_after {ok : Unit → Session → Prop}
    (okay : ∀ address, encodeAddress bindaddr = some address →
      ok ⟨⟩ { s with trace := s.trace ++ [.requestReply status address] })
    (failing : encodeAddress bindaddr = none → fail .exception s) :
    After (sendReply status bindaddr) s ok fail := by
  exact After.bind_iff.mpr (orRaise_after okay failing)

theorem replyFailure_after (cancelled : e = .cancelledError → fail e s)
    (failing : ∀ address, e ≠ .cancelledError →
      fail e { s with trace := s.trace ++ [.requestReply status address] }) :
    After (replyFailure status e : Handler α) s ok fail := by
  simp only [replyFailure]
  split
  case isTrue exceeds => exact cancelled exceeds
  case isFalse alive =>
    refine After.bind_iff.mpr (sendReply_after (fun address _ => failing address alive) ?_)
    simp [encodeAddress]

end Rules

/-- The connection a request of the stream leads to. -/
def Requested (stream : List UInt8) (command : UInt8) (kind : AddressType) (address : SocketAddress)
    (unread : List UInt8) : Prop :=
  ∃ (g : Greeting) (r : Request), r.command = command ∧ r.target = some (kind, address) ∧
    stream = g.bytes ++ r.bytes ++ unread

/-- An attempt is made for the request of the stream, once all of it is read, and
what is relayed follows it. -/
def Allowed (stream : List UInt8) : Action → Prop
  | .tcpConnect kind address unread => Requested stream 1 kind address unread
  | .udpStart _ client unread =>
    ∃ kind address, Requested stream 3 kind address unread ∧ client.2 = address.2
  | .tcpForward unread => ∃ kind address, Requested stream 1 kind address unread
  | _ => True

structure Orderly (stream : List UInt8) (trace : List Action) : Prop where
  methodOnce : (trace.filter Action.isMethodReply).length ≤ 1
  requestOnce : (trace.filter Action.isRequestReply).length ≤ 1
  allowed : ∀ a ∈ trace, Allowed stream a

/-- The request has had no reply yet. -/
structure Unanswered (stream : List UInt8) (trace : List Action) : Prop extends
    Orderly stream trace where
  unanswered : trace.filter Action.isRequestReply = []

theorem Orderly.snoc (orderly : Orderly stream trace) (silent : a.isReply = false)
    (allowed : Allowed stream a) : Orderly stream (trace ++ [a]) := by
  obtain ⟨method, request⟩ := Bool.or_eq_false_iff.mp silent
  refine ⟨by simpa [method] using orderly.methodOnce, by simpa [request] using orderly.requestOnce, ?_⟩
  intro b member
  rcases List.mem_append.mp member with earlier | last
  · exact orderly.allowed b earlier
  · exact List.mem_singleton.mp last ▸ allowed

namespace Unanswered

theorem snoc (orderly : Unanswered stream trace) (silent : a.isReply = false)
    (allowed : Allowed stream a) : Unanswered stream (trace ++ [a]) := by
  refine ⟨orderly.toOrderly.snoc silent allowed, ?_⟩
  simpa [(Bool.or_eq_false_iff.mp silent).2] using orderly.unanswered

theorem reply (orderly : Unanswered stream trace) (status : Status) (bindaddr : List UInt8) :
    Orderly stream (trace ++ [.requestReply status bindaddr]) := by
  refine ⟨by simpa [Action.isMethodReply] using orderly.methodOnce, ?_, ?_⟩
  · rw [List.filter_append, orderly.unanswered]
    exact List.length_filter_le _ _
  · intro b member
    rcases List.mem_append.mp member with earlier | last
    · exact orderly.allowed b earlier
    · rw [List.mem_singleton.mp last]
      trivial

theorem replyFailure (unanswered : Unanswered stream s.trace) {ok : α → Session → Prop} :
    After (replyFailure status e) s ok fun _ t => Orderly stream t.trace :=
  replyFailure_after (fun _ => unanswered.toOrderly) fun bindaddr _ => unanswered.reply status bindaddr

end Unanswered

theorem handleConnect_orderly (unanswered : Unanswered stream s.trace)
    (requested : Requested stream 1 kind address s.reader.content) :
    Ends (handleConnect env kind address) s fun t => Orderly stream t.trace := by
  apply After.bind_iff.mpr
  apply attempt_after
  have tried := unanswered.snoc (a := .tcpConnect kind address s.reader.content) rfl requested
  split
  · exact tried.replyFailure
  · apply After.bind_iff.mpr
    apply sendReply_after _ (by simp [encodeAddress])
    intro bindaddr _
    exact attempt_after ((tried.reply _ bindaddr).snoc rfl ⟨kind, address, requested⟩)

theorem handleUdp_orderly (unanswered : Unanswered stream s.trace)
    (requested : Requested stream 3 kind address s.reader.content) (port : client.2 = address.2) :
    Ends (handleUdp env client) s fun t => Orderly stream t.trace := by
  apply After.bind_iff.mpr
  apply orRaise_after _ fun _ => unanswered.toOrderly
  intro text _
  apply After.bind_iff.mpr
  apply attempt_after
  have tried := unanswered.snoc (a := .udpStart text client s.reader.content) rfl
    ⟨kind, address, requested, port⟩
  split
  · exact tried.replyFailure
  · apply After.bind_iff.mpr
    apply orRaise_after _ fun _ => tried.toOrderly
    intro port _
    apply After.bind_iff.mpr
    apply sendReply_after _ fun _ => tried.toOrderly
    intro bindaddr _
    exact perform_after ((tried.reply _ bindaddr).snoc rfl trivial)

theorem dispatch_orderly (unanswered : Unanswered stream s.trace)
    (requested : Requested stream command kind address s.reader.content) :
    Ends (dispatch env command kind address) s fun t => Orderly stream t.trace := by
  simp only [dispatch]
  split
  case isTrue connect => exact handleConnect_orderly unanswered (connect ▸ requested)
  case isFalse =>
    split
    case isTrue associate =>
      have requested : Requested stream 3 kind address s.reader.content := associate ▸ requested
      split
      · exact handleUdp_orderly unanswered requested rfl
      · exact handleUdp_orderly unanswered requested rfl
    case isFalse =>
      apply After.bind_iff.mpr
      apply sendReply_after _ (by simp [encodeAddress])
      intro bindaddr _
      exact unanswered.reply _ bindaddr

theorem readBody_after : After (readBody kind) s
    (fun bytes t => ∃ raw, s.reader.content = raw ++ t.reader.content ∧ Formed kind raw ∧
      body kind raw = bytes ∧ t.trace = s.trace)
    fun _ t => t.trace = s.trace := by
  cases kind with
  | ipv4 => exact read_after (fun raw t same length trace => ⟨raw, same, length, rfl, trace⟩) fun _ => rfl
  | ipv6 => exact read_after (fun raw t same length trace => ⟨raw, same, length, rfl, trace⟩) fun _ => rfl
  | domain =>
    apply After.bind_iff.mpr
    refine read_after ?_ fun _ => rfl
    intro size t same one trace
    obtain ⟨n, rfl⟩ := List.length_eq_one_iff.mp one
    refine read_after (fun name u same' length trace' => ?_) fun _ => trace
    simp only [List.headD_cons] at length
    refine ⟨n :: name, ?_, ⟨name, length ▸ n.toNat_lt, ?_⟩, rfl, trace'.trans trace⟩
    · rw [same, same']
      simp
    · rw [length]
      simp

theorem readAddrport_after : After (readAddrport addressType) s
    (fun result t => t.trace = s.trace ∧ match result with
      | none => AddressType.ofByte addressType = none
      | some (kind, address) => AddressType.ofByte addressType = some kind ∧
        ∃ raw port, s.reader.content = raw ++ packPort port ++ t.reader.content ∧ Formed kind raw ∧
          (addressText kind (body kind raw)).map (·, port) = some address)
    fun _ t => t.trace = s.trace := by
  simp only [readAddrport]
  split
  case h_1 unknown => exact ⟨rfl, unknown⟩
  case h_2 kind known =>
    refine After.bind_iff.mpr (readBody_after.mono ?_ fun _ _ trace => trace)
    rintro bytes t ⟨raw, same, formed, rfl, trace⟩
    apply After.bind_iff.mpr
    apply orRaise_after _ fun _ => trace
    intro text printed
    apply After.bind_iff.mpr
    apply read_after _ fun _ => trace
    intro port u same' two trace'
    refine ⟨trace'.trans trace, known, raw, unpackPort port, ?_, formed, ?_⟩
    · rw [packPort_unpackPort two, same, same', List.append_assoc]
    · rw [printed]
      rfl

theorem handleRequest_orderly (g : Greeting) (stream : content = g.bytes ++ s.reader.content)
    (unanswered : Unanswered content s.trace) :
    Ends (handleRequest env) s fun t => Orderly content t.trace := by
  refine After.bind_iff.mpr (read_after (fun header t same four trace => ?_)
    fun _ => unanswered.toOrderly)
  split
  · rw [After.throw_iff, trace]
    exact unanswered.toOrderly
  case isFalse version =>
    match header, four with
    | [five, command, reserved, addressType], _ =>
      refine After.bind_iff.mpr (readAddrport_after.mono ?_ ?_)
      · rintro result u ⟨trace', read⟩
        have still : Unanswered content u.trace := by rwa [trace', trace]
        cases result with
        | none =>
          apply After.bind_iff.mpr
          apply sendReply_after _ (by simp [encodeAddress])
          intro bindaddr _
          exact still.reply _ bindaddr
        | some target =>
          obtain ⟨known, raw, port, same', formed, text⟩ := read
          refine dispatch_orderly still ⟨g, ⟨command, reserved, addressType, raw, port, ?_⟩, rfl, ?_, ?_⟩
          · intro kind also
            obtain rfl := Option.some.inj (known.symm.trans also)
            exact formed
          · obtain ⟨read, printed, same⟩ := Option.map_eq_some_iff.mp text
            have known : AddressType.ofByte addressType = some target.1 := known
            simp only [Request.target, known, Option.bind_some, printed, Option.map_some, same]
          · have version : five = 5 := by simpa using version
            rw [stream, same, same', version]
            simp [Request.bytes]
      · rintro e u trace'
        rw [trace', trace]
        exact unanswered.toOrderly

theorem handleAll_orderly (env : Env) (reader : Reader Exn) :
    Ends (handleAll env) ⟨reader, []⟩ fun t => Orderly reader.content t.trace := by
  have silent : Orderly reader.content [] := by constructor <;> simp
  have accepted (method : UInt8) : Unanswered reader.content [.methodReply method] :=
    ⟨⟨List.length_filter_le _ _, by simp [Action.isRequestReply], by simp [Allowed]⟩,
      by simp [Action.isRequestReply]⟩
  apply After.bind_iff.mpr
  apply read_after _ fun _ => silent
  intro header t same two trace
  split
  · rw [After.throw_iff, trace]
    exact silent
  case isFalse version =>
    match header, two with
    | [five, count], _ =>
      refine After.bind_iff.mpr (read_after (fun methods u same' length trace' => ?_)
        fun _ => trace ▸ silent)
      simp only [List.getD_cons_succ, List.getD_cons_zero] at length
      have quiet : u.trace = [] := trace'.trans trace
      split
      case isTrue zero =>
        apply After.bind_iff.mpr
        apply perform_after
        rw [quiet]
        refine handleRequest_orderly ⟨methods, length ▸ count.toNat_lt, zero⟩ ?_ (accepted 0)
        have version : five = 5 := by simpa using version
        rw [same, same', version]
        simp [Greeting.bytes, length]
      case isFalse =>
        apply After.bind_iff.mpr
        apply perform_after
        rw [quiet]
        exact (accepted 0xff).toOrderly

section Complete
variable (env : Env) (r : Request)

/-- The status of the reply to a request. -/
def expected : Status :=
  match AddressType.ofByte r.addressType with
  | none => .eafnosupport
  | some _ =>
    if r.command = 1 then
      match env.connected with
      | .ok _ => .succeeded
      | .error _ => .ehostunreach
    else if r.command = 3 then
      match env.started with
      | .ok _ => .succeeded
      | .error _ => .error
    else .enotsup

/-- The handler is not cancelled during its attempt. -/
def Env.Uncancelled : Prop :=
  env.connected ≠ .error .cancelledError ∧ env.started ≠ .error .cancelledError

/-- The name of the client's socket is known, and a started association can be
announced under it. -/
def Env.associable : Bool :=
  match env.sockname, env.started with
  | none, _ => false
  | some _, .error _ => true
  | some localAddress, .ok _ =>
    (env.udpPort.bind fun port => encodeAddress (some (localAddress, port))).isSome

/-- A domain is UTF-8, and the reply to a UDP association can be written. -/
def Repliable : Prop :=
  (AddressType.ofByte r.addressType).isSome →
    r.target.isSome ∧ (r.command = 3 → env.associable = true)

def Answered (trace : List Action) : Prop := ∃ bindaddr,
  trace.filter Action.isReply = [.methodReply 0, .requestReply (expected env r) bindaddr]

def Verdict (trace : List Action) : Prop := Answered env r trace ↔ Repliable env r

end Complete

section Complete
variable {env : Env} {r : Request}

theorem verdict_answered (welcomed : trace.filter Action.isReply = [.methodReply 0])
    (repliable : Repliable env r) (status : Status) (same : status = expected env r)
    (bindaddr : List UInt8) : Verdict env r (trace ++ [.requestReply status bindaddr]) := by
  constructor
  · exact fun _ => repliable
  · intro _
    refine ⟨bindaddr, ?_⟩
    rw [List.filter_append, welcomed, same]
    rfl

theorem verdict_silent (welcomed : trace.filter Action.isReply = [.methodReply 0])
    (unrepliable : ¬ Repliable env r) : Verdict env r trace := by
  constructor
  · rintro ⟨bindaddr, answered⟩
    simp [welcomed] at answered
  · intro repliable
    contradiction

theorem verdict_snoc (silent : a.isReply = false) (verdict : Verdict env r trace) :
    Verdict env r (trace ++ [a]) := by
  simpa [Verdict, Answered, silent] using verdict

theorem handleConnect_verdict (uncancelled : env.Uncancelled)
    (welcomed : s.trace.filter Action.isReply = [.methodReply 0])
    (target : r.target = some (kind, address)) (command : r.command = 1) :
    Ends (handleConnect env kind address) s fun t => Verdict env r t.trace := by
  have known := Request.target_known target
  have repliable : Repliable env r := fun _ => ⟨by simp [target], by simp [command]⟩
  apply After.bind_iff.mpr
  apply attempt_after
  have tried : (s.trace ++ [Action.tcpConnect kind address s.reader.content]).filter Action.isReply =
      [.methodReply 0] := by
    simpa [Action.isReply, Action.isMethodReply, Action.isRequestReply] using welcomed
  split
  case h_1 e failed =>
    refine replyFailure_after (fun cancelled => ?_) fun bindaddr _ => ?_
    · exact absurd (cancelled ▸ failed) uncancelled.1
    · exact verdict_answered tried repliable _ (by simp [expected, known, command, failed]) bindaddr
  case h_2 connected =>
    apply After.bind_iff.mpr
    apply sendReply_after _ (by simp [encodeAddress])
    intro bindaddr _
    refine attempt_after (verdict_snoc rfl ?_)
    exact verdict_answered tried repliable _ (by simp [expected, known, command, connected]) bindaddr

theorem handleUdp_verdict (uncancelled : env.Uncancelled)
    (welcomed : s.trace.filter Action.isReply = [.methodReply 0])
    (target : r.target = some (kind, address)) (command : r.command = 3) :
    Ends (handleUdp env client) s fun t => Verdict env r t.trace := by
  have known := Request.target_known target
  have repliable : Repliable env r ↔ env.associable = true := by
    simp [Repliable, known, target, command]
  refine After.bind_iff.mpr (orRaise_after (fun text named => ?_) fun unnamed => ?_)
  · apply After.bind_iff.mpr
    apply attempt_after
    have tried : (s.trace ++ [Action.udpStart text client s.reader.content]).filter Action.isReply =
        [.methodReply 0] := by
      simpa [Action.isReply, Action.isMethodReply, Action.isRequestReply] using welcomed
    split
    case h_1 e failed =>
      refine replyFailure_after (fun cancelled => ?_) fun bindaddr _ => ?_
      · exact absurd (cancelled ▸ failed) uncancelled.2
      · exact verdict_answered tried (repliable.mpr (by simp [Env.associable, named, failed])) _
          (by simp [expected, known, command, failed]) bindaddr
    case h_2 started =>
      refine After.bind_iff.mpr (orRaise_after (fun port bound => ?_) fun unbound => ?_)
      · refine After.bind_iff.mpr (sendReply_after (fun bindaddr encoded => ?_) fun unencodable => ?_)
        · refine perform_after (verdict_snoc rfl ?_)
          exact verdict_answered tried
            (repliable.mpr (by simp [Env.associable, named, started, bound, encoded])) _
            (by simp [expected, known, command, started]) bindaddr
        · apply verdict_silent tried
          simp [repliable, Env.associable, named, started, bound, unencodable]
      · apply verdict_silent tried
        simp [repliable, Env.associable, named, started, unbound]
  · apply verdict_silent welcomed
    simp [repliable, Env.associable, unnamed]

theorem dispatch_verdict (uncancelled : env.Uncancelled)
    (welcomed : s.trace.filter Action.isReply = [.methodReply 0])
    (target : r.target = some (kind, address)) :
    Ends (dispatch env r.command kind address) s fun t => Verdict env r t.trace := by
  simp only [dispatch]
  split
  case isTrue connect => exact handleConnect_verdict uncancelled welcomed target connect
  case isFalse other =>
    split
    case isTrue associate =>
      split
      · exact handleUdp_verdict uncancelled welcomed target associate
      · exact handleUdp_verdict uncancelled welcomed target associate
    case isFalse neither =>
      have known := Request.target_known target
      apply After.bind_iff.mpr
      apply sendReply_after _ (by simp [encodeAddress])
      intro bindaddr _
      exact verdict_answered welcomed (fun _ => ⟨by simp [target], fun three => absurd three neither⟩) _
        (by simp [expected, known, other, neither]) bindaddr

theorem readBody_healthy (healthy : s.reader.fault = none) (formed : Formed kind raw)
    (stream : s.reader.content = raw ++ later) {ok : List UInt8 → Session → Prop}
    (okay : ∀ t, t.reader.content = later → t.reader.fault = none → t.trace = s.trace →
      ok (body kind raw) t) : After (readBody kind) s ok fail := by
  cases kind with
  | ipv4 => exact read_healthy healthy stream formed okay
  | ipv6 => exact read_healthy healthy stream formed okay
  | domain =>
    obtain ⟨name, short, rfl⟩ := formed
    have first : s.reader.content = [name.length.toUInt8] ++ (name ++ later) := stream
    apply After.bind_iff.mpr
    apply read_healthy healthy first rfl
    intro t rest fault trace
    refine read_healthy fault rest ?_ fun u rest' fault' trace' =>
      okay u rest' fault' (trace'.trans trace)
    simp [Nat.mod_eq_of_lt short]

theorem readAddrport_known (healthy : s.reader.fault = none)
    (known : AddressType.ofByte addressType = some kind) (formed : Formed kind raw)
    (stream : s.reader.content = raw ++ packPort port ++ later)
    {ok : Option (AddressType × SocketAddress) → Session → Prop}
    (okay : ∀ text t, addressText kind (body kind raw) = some text → t.reader.content = later →
      t.reader.fault = none → t.trace = s.trace → ok (some (kind, text, port)) t)
    (failing : ∀ e t, addressText kind (body kind raw) = none → t.trace = s.trace → fail e t) :
    After (readAddrport addressType) s ok fail := by
  rw [List.append_assoc] at stream
  simp only [readAddrport]
  simp only [known]
  apply After.bind_iff.mpr
  apply readBody_healthy healthy formed stream
  intro t rest fault trace
  refine After.bind_iff.mpr (orRaise_after (fun text printed => ?_) fun garbled =>
    failing _ t garbled trace)
  apply After.bind_iff.mpr
  apply read_healthy fault rest rfl
  intro u rest' fault' trace'
  rw [unpackPort_packPort]
  exact okay text u printed rest' fault' (trace'.trans trace)

theorem handleRequest_verdict (uncancelled : env.Uncancelled) (healthy : s.reader.fault = none)
    (stream : s.reader.content = r.bytes ++ later)
    (welcomed : s.trace.filter Action.isReply = [.methodReply 0]) :
    Ends (handleRequest env) s fun t => Verdict env r t.trace := by
  have parts : r.bytes ++ later =
      [5, r.command, r.reserved, r.addressType] ++ (r.raw ++ packPort r.port ++ later) := by
    simp [Request.bytes]
  apply After.bind_iff.mpr
  apply read_healthy healthy (stream.trans parts) rfl
  intro t rest fault trace
  rw [← trace] at welcomed
  simp only [List.headD_cons, ne_eq, not_true_eq_false, if_false, List.getD_cons_succ,
    List.getD_cons_zero]
  cases known : AddressType.ofByte r.addressType with
  | none =>
    have repliable : Repliable env r := by simp [Repliable, known]
    have unknown : readAddrport r.addressType = pure none := by simp [readAddrport, known]
    rw [unknown, After.bind_iff, After.pure_iff]
    apply After.bind_iff.mpr
    apply sendReply_after _ (by simp [encodeAddress])
    intro bindaddr _
    exact verdict_answered welcomed repliable _ (by simp [expected, known]) bindaddr
  | some kind =>
    refine After.bind_iff.mpr (readAddrport_known fault known (r.formed kind known) rest
      (fun text u printed _ _ trace' => ?_) fun e u garbled trace' => ?_)
    · rw [← trace'] at welcomed
      exact dispatch_verdict uncancelled welcomed (by simp [Request.target, known, printed])
    · rw [← trace'] at welcomed
      apply verdict_silent welcomed
      simp [Repliable, Request.target, known, garbled]

theorem handleAll_verdict (uncancelled : env.Uncancelled) (healthy : reader.fault = none)
    (g : Greeting) (stream : reader.content = g.bytes ++ r.bytes ++ later) :
    Ends (handleAll env) ⟨reader, []⟩ fun t => Verdict env r t.trace := by
  have parts : reader.content = [5, g.methods.length.toUInt8] ++ (g.methods ++ (r.bytes ++ later)) := by
    simp [stream, Greeting.bytes]
  apply After.bind_iff.mpr
  refine read_healthy healthy parts rfl ?_
  intro t rest fault trace
  simp only [List.headD_cons, ne_eq, not_true_eq_false, if_false, List.getD_cons_succ,
    List.getD_cons_zero]
  have count : g.methods.length.toUInt8.toNat = g.methods.length := by
    simp [Nat.mod_eq_of_lt g.short]
  apply After.bind_iff.mpr
  apply read_healthy fault rest count.symm
  intro u rest' fault' trace'
  rw [if_pos g.acceptable]
  apply After.bind_iff.mpr
  apply perform_after
  have welcomed : (u.trace ++ [Action.methodReply 0]).filter Action.isReply = [.methodReply 0] := by
    rw [trace', trace]
    rfl
  exact handleRequest_verdict uncancelled fault' rest' welcomed

end Complete

/-- A complete greeting and request get the method reply and exactly one request
reply with the right status, unless the domain is not UTF-8 or the reply to a
started association cannot be written; no stream gets more than that. -/
theorem negotiation_iff (env : Env) (reader : Reader Exn) :
    (∀ (g : Greeting) (r : Request) later, env.Uncancelled → reader.fault = none →
      reader.content = g.bytes ++ r.bytes ++ later →
      ((∃ bindaddr, (handle env reader).filter Action.isReply =
          [.methodReply 0, .requestReply (expected env r) bindaddr]) ↔ Repliable env r)) ∧
    ((handle env reader).filter Action.isMethodReply).length ≤ 1 ∧
    ((handle env reader).filter Action.isRequestReply).length ≤ 1 ∧
    (∀ kind address unread, .tcpConnect kind address unread ∈ handle env reader →
      Requested reader.content 1 kind address unread) ∧
    (∀ localAddress client unread, .udpStart localAddress client unread ∈ handle env reader →
      ∃ kind address, Requested reader.content 3 kind address unread ∧ client.2 = address.2) ∧
    ∀ unread, .tcpForward unread ∈ handle env reader →
      (∃ kind address, Requested reader.content 1 kind address unread) ∧
      ∀ eager past s, Transition.Run (Transition.byStep (Relay.step eager)) Relay.init past s →
        (s.relay .outbound).received <+: unread → (s.relay .outbound).written <+: unread ∧
          ((s.relay .outbound).eofWritten → (s.relay .outbound).written =
            (s.relay .outbound).received) := by
  have orderly := (handleAll_orderly env reader).final
  refine ⟨fun g r later uncancelled healthy stream =>
    (handleAll_verdict uncancelled healthy g stream).final, orderly.methodOnce, orderly.requestOnce,
    fun _ _ _ member => orderly.allowed _ member, fun _ _ _ member => orderly.allowed _ member,
    fun unread member => ⟨orderly.allowed _ member, fun eager past s run sent => ?_⟩⟩
  have faithful := (Relay.inv_run run).faithful .outbound
  exact ⟨faithful.inOrder.trans sent, fun eof => (faithful.eofLast eof).2⟩

/-- A world in which every attempt succeeds. -/
def reachable : Env where
  peername := some ("192.168.1.7".toList, 5000)
  sockname := some "192.168.1.2".toList
  connected := .ok ()
  started := .ok ()
  udpPort := some 7000

def hello : Greeting := ⟨[0], by decide, by decide⟩

/-- A CONNECT to port 80 of a domain. -/
def connectTo (name : List UInt8) (short : name.length < 256) : Request where
  command := 1
  reserved := 0
  addressType := 3
  raw := name.length.toUInt8 :: name
  port := 80
  formed := by
    rintro kind ⟨⟩
    exact ⟨name, short, rfl⟩

theorem accented_domain_answered : ∃ bindaddr,
    (handle reachable (.ofPieces [[5, 1, 0, 5, 1], [0, 3, 3, 0x77, 0xc3], [0xa9, 0, 80, 1]])).filter
      Action.isReply = [.methodReply 0, .requestReply .succeeded bindaddr] := by
  have verdict := (negotiation_iff reachable
    (.ofPieces [[5, 1, 0, 5, 1], [0, 3, 3, 0x77, 0xc3], [0xa9, 0, 80, 1]])).1 hello
    (connectTo [0x77, 0xc3, 0xa9] (by decide)) [1] ⟨by decide, by decide⟩ rfl (by decide)
  exact verdict.mpr fun _ => ⟨by decide +kernel, by decide⟩

/-- A domain that is not UTF-8 ends the connection without a reply to the request. -/
theorem latin_domain_unanswered :
    (Reader.ofPieces (E := Exn) [[5, 1, 0], [5, 1, 0, 3, 1, 0xe9, 0, 80]]).content =
      hello.bytes ++ (connectTo [0xe9] (by decide)).bytes ++ [] ∧
    expected reachable (connectTo [0xe9] (by decide)) = .succeeded ∧
    (handle reachable (.ofPieces [[5, 1, 0], [5, 1, 0, 3, 1, 0xe9, 0, 80]])).filter
      Action.isReply = [.methodReply 0] := by
  decide +kernel

end HttpSocksProxy.Negotiation
