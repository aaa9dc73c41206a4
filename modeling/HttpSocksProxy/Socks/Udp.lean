import HttpSocksProxy.Foundation.AgingTable
import HttpSocksProxy.Foundation.Transition
import HttpSocksProxy.Socks.Address
import Mathlib.Algebra.Order.Ring.Rat

/-! `UdpForwarder`: one client, a table of mappings to upstream peers, and
handlers that may wait for DNS in between. A datagram arrives when the task that
`datagram_received` makes for it runs; it does so at any time. -/
namespace HttpSocksProxy.Udp
open InetText AgingTable

structure Config where
  connectHosts : ConnectHosts
  localAddress : Str
  expectedClient : Option SocketAddress
  maxMappings : Nat
  mappingTtl : ℚ
  nonempty : 1 ≤ maxMappings
  patient : 5 ≤ mappingTtl

/-- The upstream endpoint of a family and the peer's address as text. -/
abbrev Key := Family × SocketAddress
abbrev Mapping := Entry Key SocketAddress ℚ

/-- A call of `on_client_datagram` that waits for DNS. -/
structure Pending where
  payload : List UInt8
  address : SocketAddress
  client : SocketAddress

structure State where
  now : ℚ
  lockedClient : Option SocketAddress
  connections : List Mapping
  clientConn : Bool
  serverConnIpv4 : Bool
  serverConnIpv6 : Bool
  pending : List Pending
  closed : Bool

def State.serverConn (s : State) : Family → Bool
  | .inet => s.serverConnIpv4
  | .inet6 => s.serverConnIpv6

/-- Before `start`, on a clock that reads `now`. -/
def State.init (now : ℚ) : State where
  now := now
  lockedClient := none
  connections := []
  clientConn := false
  serverConnIpv4 := false
  serverConnIpv6 := false
  pending := []
  closed := false

/-- The traffic that leaves, the traffic counters, and the assignments and
evictions of the table. -/
inductive Output where
  | mapped (key : Key)
  | evicted (key : Key)
  | upstream (endpoint : Family) (payload : List UInt8) (destination : SocketAddress)
  | client (datagram : List UInt8) (destination : SocketAddress)
  | outbound (count : Nat)
  | inbound (count : Nat)
  deriving DecidableEq

inductive Event where
  | openedClient
  | openedServer (endpoint : Family)
  | clientDatagram (data : List UInt8) (sender : SocketAddress)
  | resolved (task : Nat) (answers : Option DnsAnswers)
  | serverDatagram (endpoint : Family) (data : List UInt8) (sender : SocketAddress)
  | cancelled (task : Nat)
  | passed (seconds : ℚ)
  | close

/-- The local address `start` binds the endpoint of a family to. -/
def boundAddress (cfg : Config) (f : Family) : Option Str :=
  if cfg.connectHosts.ipv4.isNone && cfg.connectHosts.ipv6.isNone then
    match f with
    | .inet => some "0.0.0.0".toList
    | .inet6 => some "::".toList
  else cfg.connectHosts.family f

def expects (cfg : Config) (client : SocketAddress) : Bool :=
  match cfg.expectedClient with
  | none => true
  | some (host, port) => client.1 = host && (port = 0 || port = client.2)

/-- `_client_allowed`: `none` refuses the sender, otherwise it is the locked client. -/
def clientAllowed (cfg : Config) (s : State) (sender : SocketAddress) : Option State :=
  if expects cfg sender then
    match s.lockedClient with
    | none => some { s with lockedClient := some sender }
    | some client => if sender = client then some s else none
  else none

/-- `_prune_mappings`. -/
def pruneMappings (cfg : Config) (s : State) : List Output × State :=
  let kept := expire cfg.mappingTtl s.now s.connections
  ((surplus cfg.maxMappings kept).map .evicted,
    { s with connections := evict cfg.maxMappings kept })

structure Request where
  kind : AddressType
  address : SocketAddress
  payload : List UInt8

/-- The header and address of a client's datagram; `none` is any parsing error. -/
def parse : List UInt8 → Option Request
  | _ :: _ :: frag :: kind :: rest =>
    if frag ≠ 0 then none
    else do
      let kind ← AddressType.ofByte kind
      let (address, payload) ← Socks.readAddrport kind rest
      return { kind, address, payload }
  | _ => none

/-- IPv6 goes first, as long as its endpoint is there. -/
def target (s : State) (resolved : GenericAddress) : Option Key :=
  match (if s.serverConnIpv6 then resolved.ipv6 else none) with
  | some address => some (.inet6, address)
  | none => (if s.serverConnIpv4 then resolved.ipv4 else none).map (.inet, ·)

/-- The end of `on_client_datagram`, after `resolve_address`. -/
def forward (cfg : Config) (s : State) (payload : List UInt8) (client : SocketAddress)
    (resolved : GenericAddress) : List Output × State :=
  match target s resolved with
  | none => ([], s)
  | some key =>
    let stored := store s.connections { key, value := client, seen := s.now }
    let (evictions, s) := pruneMappings cfg { s with connections := stored }
    (.mapped key :: evictions ++ [.upstream key.1 payload key.2], s)

def onClientDatagram (cfg : Config) (s : State) (data : List UInt8) (sender : SocketAddress) :
    List Output × State :=
  match clientAllowed cfg s sender with
  | none => ([], s)
  | some s =>
    let (evictions, s) := pruneMappings cfg s
    match parse data with
    | none => (evictions, s)
    | some { kind, address, payload } =>
      let outputs := evictions ++ [.outbound payload.length]
      match resolveNow cfg.connectHosts kind address with
      | none => (outputs, { s with pending := s.pending ++ [{ payload, address, client := sender }] })
      | some resolved =>
        let (forwarded, s) := forward cfg s payload sender resolved
        (outputs ++ forwarded, s)

def onServerDatagram (cfg : Config) (s : State) (endpoint : Family) (data : List UInt8)
    (sender : SocketAddress) : List Output × State :=
  let (evictions, s) := pruneMappings cfg s
  match lookup s.connections (endpoint, sender) with
  | none => (evictions, s)
  | some mapping =>
    let stored := store s.connections { mapping with seen := s.now }
    let replies : List Output :=
      match Socks.encodeAddress (some sender) with
      | some address =>
        if s.clientConn then [.client ([0, 0, 0] ++ address ++ data) mapping.value] else []
      | none => []
    (evictions ++ [.mapped mapping.key, .inbound data.length] ++ replies,
      { s with connections := stored })

def closeAll (s : State) : State :=
  { s with
    connections := []
    clientConn := false
    serverConnIpv4 := false
    serverConnIpv6 := false
    closed := true }

def openServer (s : State) : Family → State
  | .inet => { s with serverConnIpv4 := true }
  | .inet6 => { s with serverConnIpv6 := true }

def handle (cfg : Config) (s : State) : Event → Option (List Output × State)
  | .openedClient => if s.closed then none else some ([], { s with clientConn := true })
  | .openedServer f =>
    if s.clientConn && (boundAddress cfg f).isSome then some ([], openServer s f) else none
  | .clientDatagram data sender => some (onClientDatagram cfg s data sender)
  | .resolved task answers =>
    s.pending[task]?.map fun call =>
      let s := { s with pending := s.pending.eraseIdx task }
      match answers with
      | none => ([], s)
      | some answers => forward cfg s call.payload call.client
          (resolveLater cfg.connectHosts call.address.2 answers)
  | .serverDatagram f data sender => some (onServerDatagram cfg s f data sender)
  | .cancelled task =>
    if task < s.pending.length then some ([], { s with pending := s.pending.eraseIdx task })
    else none
  | .passed seconds => if 0 ≤ seconds then some ([], { s with now := s.now + seconds }) else none
  | .close => some ([], closeAll s)

structure Label where
  time : ℚ
  event : Event
  outputs : List Output

def step (cfg : Config) (s : State) (l : Label) (t : State) : Prop :=
  l.time = s.now ∧ handle cfg s l.event = some (l.outputs, t)

/-- The last activity of a mapping that was neither evicted nor closed since. -/
def lastActivity : List Label → Key → Option ℚ
  | [], _ => none
  | { event := .close, .. } :: _, _ => none
  | l :: past, key =>
    if .evicted key ∈ l.outputs then none
    else if .mapped key ∈ l.outputs then some l.time
    else lastActivity past key

/-- The upstream peers a request may lead to. -/
def Request.leadsTo (request : Request) (hosts : ConnectHosts) (key : Key) : Prop :=
  match resolveNow hosts request.kind request.address with
  | some resolved => resolved.family key.1 = some key.2
  | none => ∃ answers, (resolveLater hosts request.address.2 answers).family key.1 = some key.2

def Heard (past : List Label) (client : SocketAddress) (request : Request) : Prop :=
  ∃ l ∈ past, ∃ data, l.event = .clientDatagram data client ∧ parse data = some request

/-- A client's datagram asked for this peer and its payload went there. -/
def Addressed (hosts : ConnectHosts) (past : List Label) (client : SocketAddress) (key : Key) : Prop :=
  ∃ request, Heard past client request ∧ request.leadsTo hosts key ∧
    ∃ l ∈ past, .upstream key.1 request.payload key.2 ∈ l.outputs

theorem Heard.mono (longer : past ⊆ past') (heard : Heard past client request) :
    Heard past' client request := by
  obtain ⟨l, member, found⟩ := heard
  exact ⟨l, longer member, found⟩

theorem Addressed.mono (longer : past ⊆ past') (addressed : Addressed hosts past client key) :
    Addressed hosts past' client key := by
  obtain ⟨request, heard, leads, l, member, sent⟩ := addressed
  exact ⟨request, heard.mono longer, leads, l, longer member, sent⟩

section Effects
variable (cfg : Config)

def expired (s : State) : State :=
  { s with connections := expire cfg.mappingTtl s.now s.connections }

def enter (s : State) (sender : SocketAddress) : State :=
  expired cfg { s with lockedClient := some sender }

def stored (s : State) (key : Key) (client : SocketAddress) : List Mapping :=
  expire cfg.mappingTtl s.now (store s.connections { key, value := client, seen := s.now })

def assign (s : State) (key : Key) (client : SocketAddress) : State :=
  { s with connections := evict cfg.maxMappings (stored cfg s key client) }

/-- The state in which a handler comes to its last act. -/
inductive Prelude (s : State) : Event → State → Prop where
  | openedClient : s.closed = false → Prelude s .openedClient { s with clientConn := true }
  | openedServer : s.clientConn = true → Prelude s (.openedServer f) (openServer s f)
  | refused : Prelude s (.clientDatagram data sender) s
  | admitted : expects cfg sender → s.lockedClient = none ∨ s.lockedClient = some sender →
      Prelude s (.clientDatagram data sender) (enter cfg s sender)
  | waiting : expects cfg sender → s.lockedClient = none ∨ s.lockedClient = some sender →
      parse data = some request →
      resolveNow cfg.connectHosts request.kind request.address = none →
      Prelude s (.clientDatagram data sender)
        { enter cfg s sender with
          pending := s.pending ++ [⟨request.payload, request.address, sender⟩] }
  | taken : Prelude s (.resolved task answers) { s with pending := s.pending.eraseIdx task }
  | dropped : Prelude s (.cancelled task) { s with pending := s.pending.eraseIdx task }
  | expired : Prelude s (.serverDatagram f data sender) (expired cfg s)
  | passed : 0 ≤ seconds → Prelude s (.passed seconds) { s with now := s.now + seconds }

/-- What led a handler to forward a payload for a client to a peer. -/
inductive Cause (s u : State) : Event → List UInt8 → SocketAddress → Key → Prop where
  | literal : parse data = some request → u.lockedClient = some sender →
      resolveNow cfg.connectHosts request.kind request.address = some resolved →
      resolved.family key.1 = some key.2 →
      Cause s u (.clientDatagram data sender) request.payload sender key
  | answered : call ∈ s.pending → u.lockedClient = s.lockedClient →
      (resolveLater cfg.connectHosts call.address.2 answers).family key.1 = some key.2 →
      Cause s u (.resolved task (some answers)) call.payload call.client key

inductive Finish (s : State) (e : Event) (u : State) : List Output → State → Prop where
  | quiet : (∀ o ∈ outputs, ∃ n, o = .outbound n) → Finish s e u outputs u
  | forwarded : (∀ o ∈ counted, ∃ n, o = .outbound n) → Cause cfg s u e payload client key →
      u.serverConn key.1 = true →
      Finish s e u (counted ++ .mapped key ::
          (surplus cfg.maxMappings (stored cfg u key client)).map .evicted ++
          [.upstream key.1 payload key.2]) (assign cfg u key client)
  | replied : e = .serverDatagram f data sender → m ∈ u.connections → m.key = (f, sender) →
      (replies = [] ∨ ∃ address, replies = [.client ([0, 0, 0] ++ address ++ data) m.value]) →
      (u.clientConn = true → ∀ address, Socks.encodeAddress (some sender) = some address →
        replies = [.client ([0, 0, 0] ++ address ++ data) m.value]) →
      Finish s e u ([.mapped m.key, .inbound data.length] ++ replies)
        { u with connections := store u.connections { m with seen := u.now } }

end Effects

theorem pruneMappings_within (within : s.connections.length ≤ cfg.maxMappings) :
    pruneMappings cfg s = ([], expired cfg s) := by
  have smaller : (expire cfg.mappingTtl s.now s.connections).length ≤ cfg.maxMappings :=
    (expire_sublist _ _ _).length_le.trans within
  simp only [pruneMappings, surplus_within smaller, evict_within smaller]
  rfl

theorem clientAllowed_some (allowed : clientAllowed cfg s sender = some t) :
    expects cfg sender ∧ (s.lockedClient = none ∨ s.lockedClient = some sender) ∧
      t = { s with lockedClient := some sender } := by
  simp only [clientAllowed] at allowed
  split at allowed
  case isFalse => cases allowed
  case isTrue expected =>
    cases locked : s.lockedClient with
    | none => simpa [locked, expected, eq_comm] using allowed
    | some client =>
      simp only [locked, Option.ite_none_right_eq_some, Option.some.injEq] at allowed
      obtain ⟨rfl, rfl⟩ := allowed
      refine ⟨expected, .inr rfl, ?_⟩
      rw [← locked]

theorem target_some (found : target s resolved = some key) :
    s.serverConn key.1 = true ∧ resolved.family key.1 = some key.2 := by
  obtain ⟨f, address⟩ := key
  simp only [target] at found
  cases open6 : s.serverConnIpv6 <;> cases open4 : s.serverConnIpv4 <;>
    cases to6 : resolved.ipv6 <;> cases to4 : resolved.ipv4 <;> cases f <;>
    simp_all [State.serverConn, GenericAddress.family]

theorem forward_cases (cfg : Config) (s : State) (payload : List UInt8) (client : SocketAddress)
    (resolved : GenericAddress) : forward cfg s payload client resolved = ([], s) ∨
    ∃ key, target s resolved = some key ∧ forward cfg s payload client resolved =
      (.mapped key :: (surplus cfg.maxMappings (stored cfg s key client)).map .evicted ++
        [.upstream key.1 payload key.2], assign cfg s key client) := by
  simp only [forward]
  cases found : target s resolved with
  | none => exact .inl rfl
  | some key => exact .inr ⟨key, rfl, rfl⟩

theorem onClientDatagram_effect (within : s.connections.length ≤ cfg.maxMappings)
    (result : onClientDatagram cfg s data sender = (outputs, t)) :
    ∃ u, Prelude cfg s (.clientDatagram data sender) u ∧
      Finish cfg s (.clientDatagram data sender) u outputs t := by
  simp only [onClientDatagram] at result
  cases allowed : clientAllowed cfg s sender with
  | none =>
    obtain ⟨rfl, rfl⟩ := by simpa [allowed] using result
    exact ⟨s, .refused, .quiet (by simp)⟩
  | some locked =>
    obtain ⟨expected, unlocked, rfl⟩ := clientAllowed_some allowed
    have pruned : pruneMappings cfg { s with lockedClient := some sender } = ([], enter cfg s sender) :=
      pruneMappings_within within
    simp only [allowed, pruned] at result
    have entered : Prelude cfg s (.clientDatagram data sender) (enter cfg s sender) :=
      .admitted expected unlocked
    cases parsed : parse data with
    | none =>
      obtain ⟨rfl, rfl⟩ := by simpa [parsed] using result
      exact ⟨_, entered, .quiet (by simp)⟩
    | some request =>
      cases now : resolveNow cfg.connectHosts request.kind request.address with
      | none =>
        obtain ⟨rfl, rfl⟩ := by simpa [parsed, now] using result
        exact ⟨_, .waiting expected unlocked parsed now, .quiet (by simp)⟩
      | some resolved =>
        simp only [parsed, now, List.nil_append, Prod.mk.injEq] at result
        obtain ⟨rfl, rfl⟩ := result
        rcases forward_cases cfg (enter cfg s sender) request.payload sender resolved
          with unsent | ⟨key, found, sent⟩
        · rw [unsent]
          exact ⟨_, entered, .quiet (by simp)⟩
        · rw [sent]
          obtain ⟨there, address⟩ := target_some found
          exact ⟨_, entered, Finish.forwarded
            (fun o (counted : o ∈ [Output.outbound request.payload.length]) => ⟨_, List.mem_singleton.mp counted⟩)
            (.literal parsed rfl now address) there⟩

theorem onServerDatagram_effect (within : s.connections.length ≤ cfg.maxMappings)
    (result : onServerDatagram cfg s f data sender = (outputs, t)) :
    Finish cfg s (.serverDatagram f data sender) (expired cfg s) outputs t := by
  simp only [onServerDatagram] at result
  simp only [pruneMappings_within within] at result
  cases found : lookup (expired cfg s).connections (f, sender) with
  | none =>
    obtain ⟨rfl, rfl⟩ := by simpa [found] using result
    exact .quiet (by simp)
  | some m =>
    simp only [found, List.nil_append, Prod.mk.injEq] at result
    obtain ⟨rfl, rfl⟩ := result
    obtain ⟨member, same⟩ := lookup_some found
    apply Finish.replied rfl member same
    · cases Socks.encodeAddress (some sender) <;> cases (expired cfg s).clientConn <;> simp
    · intro there address encoded
      simp [there, encoded]

theorem handle_effect (within : s.connections.length ≤ cfg.maxMappings)
    (handled : handle cfg s e = some (outputs, t)) :
    (e = .close ∧ outputs = [] ∧ t = closeAll s) ∨
      ∃ u, Prelude cfg s e u ∧ Finish cfg s e u outputs t := by
  cases e with
  | openedClient =>
    obtain ⟨opened, rfl, rfl⟩ := by simpa [handle] using handled
    exact .inr ⟨_, .openedClient opened, .quiet (by simp)⟩
  | openedServer f =>
    obtain ⟨⟨there, _⟩, rfl, rfl⟩ := by simpa [handle] using handled
    exact .inr ⟨_, .openedServer there, .quiet (by simp)⟩
  | clientDatagram data sender =>
    exact .inr (onClientDatagram_effect within (by simpa [handle] using handled))
  | resolved task answers =>
    simp only [handle, Option.map_eq_some_iff] at handled
    obtain ⟨call, member, result⟩ := handled
    refine .inr ⟨_, .taken, ?_⟩
    cases answers with
    | none =>
      obtain ⟨rfl, rfl⟩ := by simpa using result
      exact .quiet (by simp)
    | some answers =>
      simp only at result
      rcases forward_cases cfg { s with pending := s.pending.eraseIdx task } call.payload call.client
        (resolveLater cfg.connectHosts call.address.2 answers) with unsent | ⟨key, found, sent⟩
      · obtain ⟨rfl, rfl⟩ := Prod.mk.inj (unsent.symm.trans result)
        exact .quiet (by simp)
      · obtain ⟨rfl, rfl⟩ := Prod.mk.inj (sent.symm.trans result)
        obtain ⟨there, address⟩ := target_some found
        exact .forwarded (fun o (none : o ∈ []) => absurd none List.not_mem_nil)
          (.answered (List.mem_of_getElem? member) rfl address) there
  | serverDatagram f data sender =>
    exact .inr ⟨_, .expired, onServerDatagram_effect within (by simpa [handle] using handled)⟩
  | cancelled task =>
    obtain ⟨_, rfl, rfl⟩ := by simpa [handle] using handled
    exact .inr ⟨_, .dropped, .quiet (by simp)⟩
  | passed seconds =>
    obtain ⟨forward, rfl, rfl⟩ := by simpa [handle] using handled
    exact .inr ⟨_, .passed forward, .quiet (by simp)⟩
  | close =>
    obtain ⟨rfl, rfl⟩ := by simpa [handle] using handled
    exact .inl ⟨rfl, rfl, rfl⟩

end HttpSocksProxy.Udp
