import HttpSocksProxy.Socks.UdpInvariant

/-! What a UDP association keeps: it serves one client, and only with traffic
that this client asked for. -/
namespace HttpSocksProxy.Udp
open InetText AgingTable Transition

theorem prelude_table (moved : Prelude cfg s e u) : u.connections = s.connections ∨
    u.connections = expire cfg.mappingTtl s.now s.connections := by
  cases moved with
  | @openedServer f => cases f <;> exact .inl rfl
  | admitted => exact .inr rfl
  | waiting => exact .inr rfl
  | expired => exact .inr rfl
  | _ => exact .inl rfl

theorem prelude_gone (moved : Prelude cfg s e u) (member : old ∈ s.connections)
    (gone : old ∉ u.connections) : cfg.mappingTtl < s.now - old.seen := by
  rcases prelude_table moved with same | expired
  · exact absurd (same ▸ member) gone
  · rw [expired, mem_expire] at gone
    exact lt_of_not_ge fun fresh => gone ⟨member, fresh⟩

theorem prelude_lock (moved : Prelude cfg s e u) (locked : s.lockedClient = some client) :
    u.lockedClient = some client := by
  have same {sender : SocketAddress} (unlocked : s.lockedClient = none ∨ s.lockedClient = some sender) :
      some sender = some client := by
    rcases unlocked with none | same
    · simp [none] at locked
    · rw [← same, locked]
  cases moved with
  | @openedServer f => cases f <;> exact locked
  | admitted _ unlocked => exact same unlocked
  | waiting _ unlocked => exact same unlocked
  | _ => exact locked

theorem finish_lock (finish : Finish cfg s e u outputs t) : t.lockedClient = u.lockedClient := by
  cases finish <;> rfl

theorem lock_step (inv : Inv cfg past last s) (stepped : step cfg s l t)
    (locked : s.lockedClient = some client) : t.lockedClient = some client := by
  rcases handle_effect inv.bounded stepped.2 with ⟨_, _, rfl⟩ | ⟨u, moved, finish⟩
  · exact locked
  · rw [finish_lock finish]
    exact prelude_lock moved locked

theorem lock_run (run : Run (step cfg) (.init start) past s) (onward : Run (step cfg) s later t)
    (locked : s.lockedClient = some client) : t.lockedClient = some client := by
  induction onward with
  | start => exact locked
  | next onward stepped ih => exact lock_step (inv_run (run.trans onward)) stepped ih

theorem forwarded_mapping (inv : Inv cfg past (lastActivity past) s) (stepped : step cfg s l t)
    (sent : .upstream f payload peer ∈ l.outputs) :
    ∃ m ∈ t.connections, m.key = (f, peer) ∧ m.seen = s.now := by
  obtain ⟨u, client, moved, cause, rfl⟩ := upstream_cause inv stepped sent
  have entered := inv.prelude moved
  exact ⟨_, entered.assign_survives (f, peer) client, rfl, cause_now moved cause⟩

/-- A mapping that goes was too old, or else the least recently used. -/
theorem gone_mapping (inv : Inv cfg past (lastActivity past) s) (stepped : step cfg s l t)
    (running : l.event ≠ .close) (member : old ∈ s.connections)
    (gone : ∀ m ∈ t.connections, m.key ≠ old.key) :
    cfg.mappingTtl < s.now - old.seen ∨ ∀ m ∈ t.connections, old.seen ≤ m.seen := by
  rcases handle_effect inv.bounded stepped.2 with ⟨closing, _, _⟩ | ⟨u, moved, finish⟩
  · exact absurd closing running
  · by_cases spared : old ∈ u.connections
    case neg => exact .inl (prelude_gone moved member spared)
    have entered := inv.prelude moved
    generalize l.outputs = outputs at finish
    cases finish with
    | quiet => exact absurd rfl (gone old spared)
    | @forwarded counted payload client key plain cause there =>
      by_cases fresh : s.now - old.seen ≤ cfg.mappingTtl
      case neg => exact .inl (lt_of_not_ge fresh)
      have now := cause_now moved cause
      have survivor := entered.assign_survives key client
      have other : old.key ≠ key := fun same => gone _ survivor same.symm
      refine .inr fun m kept => prune_oldest (entered.keyed.store _)
        (mem_store_other spared other) (now ▸ fresh) (fun stays => gone old stays rfl) kept
    | @replied f data sender m replies reply present same =>
      by_cases refreshed : old.key = m.key
      · exact absurd refreshed.symm (gone { m with seen := u.now } (mem_store_self _ _))
      · exact absurd rfl (gone old (mem_store_other spared refreshed))

theorem client_output (inv : Inv cfg past (lastActivity past) s) (stepped : step cfg s l t)
    (sent : .client datagram client ∈ l.outputs) : s.lockedClient = some client ∧
    ∃ f data peer activity, l.event = .serverDatagram f data peer ∧
      Addressed cfg.connectHosts past client (f, peer) ∧
      lastActivity past (f, peer) = some activity ∧ s.now - activity ≤ cfg.mappingTtl := by
  rcases handle_effect inv.bounded stepped.2 with ⟨_, none, _⟩ | ⟨u, moved, finish⟩
  · simp [none] at sent
  · generalize l.outputs = outputs at finish sent
    cases finish with
    | quiet plain => obtain ⟨_, ⟨⟩⟩ := plain _ sent
    | forwarded plain =>
      have listed := by simpa using sent
      obtain ⟨_, ⟨⟩⟩ := plain _ listed
    | @replied f data sender m replies reply present same replied =>
      rw [reply] at moved
      cases moved
      obtain ⟨member, fresh⟩ := mem_expire.mp present
      obtain ⟨address, rfl⟩ : ∃ address, replies = [.client ([0, 0, 0] ++ address ++ data) m.value] := by
        rcases replied with rfl | replied
        · simp at sent
        · exact replied
      obtain ⟨_, rfl⟩ := by simpa using sent
      refine ⟨inv.owned m member, f, data, sender, m.seen, reply, ?_, ?_, fresh⟩
      · exact same ▸ inv.addressed m member
      · exact same ▸ inv.tracks.1 m member

/-- One client from the first accepted datagram on, a bounded table of its
mappings, and only answers from peers it addressed. -/
theorem association_isolated (run : Run (step cfg) (.init start) past s) :
    (∀ later t client, Run (step cfg) s later t →
      s.lockedClient = some client → t.lockedClient = some client) ∧
    (∀ client host port, s.lockedClient = some client → cfg.expectedClient = some (host, port) →
      client.1 = host ∧ (port = 0 ∨ client.2 = port)) ∧
    (∀ m ∈ s.connections, s.lockedClient = some m.value) ∧
    s.connections.length ≤ cfg.maxMappings ∧
    ∀ l t, step cfg s l t →
      (∀ f payload peer, .upstream f payload peer ∈ l.outputs →
        ∃ m ∈ t.connections, m.key = (f, peer) ∧ m.seen = s.now) ∧
      (∀ old ∈ s.connections, l.event ≠ .close → (∀ m ∈ t.connections, m.key ≠ old.key) →
        cfg.mappingTtl < s.now - old.seen ∨ ∀ m ∈ t.connections, old.seen ≤ m.seen) ∧
      (∀ datagram client, .client datagram client ∈ l.outputs → s.lockedClient = some client ∧
        ∃ f data peer activity, l.event = .serverDatagram f data peer ∧
          Addressed cfg.connectHosts past client (f, peer) ∧
          lastActivity past (f, peer) = some activity ∧ s.now - activity ≤ cfg.mappingTtl) := by
  have inv := inv_run run
  refine ⟨fun _ _ _ => lock_run run, ?_, inv.owned, inv.bounded, fun l t stepped => ⟨?_, ?_, ?_⟩⟩
  · intro client host port locked expected
    have := inv.expected client locked
    simp only [expects, expected, Bool.and_eq_true, decide_eq_true_eq, Bool.or_eq_true] at this
    exact ⟨this.1, this.2.imp_right Eq.symm⟩
  · exact fun _ _ _ => forwarded_mapping inv stepped
  · exact fun _ member running => gone_mapping inv stepped running member
  · exact fun _ _ => client_output inv stepped

/-- An association on a host without connect addresses, its client known by host. -/
def lan : Config where
  connectHosts := { ipv4 := none, ipv6 := none }
  localAddress := "192.168.1.2".toList
  expectedClient := some ("192.168.1.7".toList, 0)
  maxMappings := 2
  mappingTtl := 60
  nonempty := by decide
  patient := by norm_num

def play (cfg : Config) : State → List Event → Option (List Label × State) :=
  execute (handle cfg) fun s e outputs => ⟨s.now, e, outputs⟩

theorem run_play (played : play cfg s events = some (past, t)) : Run (step cfg) s past t :=
  Run.of_execute (fun handled => ⟨rfl, handled⟩) played

/-- A client datagram for a host name or literal. -/
def domainDatagram (host : String) (port : UInt16) (payload : List UInt8) : List UInt8 :=
  [0, 0, 0, 3, host.length.toUInt8] ++ host.toUTF8.toList ++ Socks.packPort port ++ payload

/-- One datagram to a host that is given as an IPv6 literal. -/
def exchange (host : String) : List Event :=
  [.openedClient, .openedServer .inet6,
    .clientDatagram (domainDatagram host 53 [1]) ("192.168.1.7".toList, 5000), .passed 2]

theorem exchange_isolated : ∃ past s, play lan (.init 0) (exchange "2001:db8::1") = some (past, s) ∧
    s.lockedClient = some ("192.168.1.7".toList, 5000) ∧ s.connections.length = 1 ∧
    ∀ m ∈ s.connections, s.lockedClient = some m.value := by
  have played : (play lan (.init 0) (exchange "2001:db8::1")).isSome := by decide +kernel
  obtain ⟨⟨past, s⟩, found⟩ := Option.isSome_iff_exists.mp played
  have locked : (play lan (.init 0) (exchange "2001:db8::1")).map (·.2.lockedClient) =
      some (some ("192.168.1.7".toList, 5000)) := by decide +kernel
  have mapped : (play lan (.init 0) (exchange "2001:db8::1")).map (·.2.connections.length) =
      some 1 := by decide +kernel
  rw [found] at locked mapped
  exact ⟨past, s, found, Option.some.inj locked, Option.some.inj mapped,
    (association_isolated (run_play found)).2.2.1⟩

/-- A datagram from the peer reaches the client when it arrives now. -/
def Delivers (cfg : Config) (s : State) (f : Family) (peer : SocketAddress) (data : List UInt8) : Prop :=
  ∃ l t client address, step cfg s l t ∧ l.event = .serverDatagram f data peer ∧
    s.lockedClient = some client ∧ Socks.encodeAddress (some peer) = some address ∧
    .client ([0, 0, 0] ++ address ++ data) client ∈ l.outputs

theorem onServerDatagram_found (inv : Inv cfg past last s) (member : m ∈ s.connections)
    (fresh : s.now - m.seen ≤ cfg.mappingTtl) (same : m.key = (f, peer))
    (encoded : Socks.encodeAddress (some peer) = some address) (data : List UInt8) :
    (onServerDatagram cfg s f data peer).1 =
      [.mapped m.key, .inbound data.length, .client ([0, 0, 0] ++ address ++ data) m.value] := by
  have found : lookup (expired cfg s).connections (f, peer) = some m :=
    same ▸ lookup_mem inv.expired.keyed (mem_expire.mpr ⟨member, fresh⟩)
  have there : (expired cfg s).clientConn = true := inv.inhabited m member
  simp [onServerDatagram, pruneMappings_within inv.bounded, found, encoded, there]

theorem delivers_iff (inv : Inv cfg past (lastActivity past) s)
    (size : network.length = f.size) : Delivers cfg s f (inetNtop f network, port) data ↔
    ∃ activity, lastActivity past (f, (inetNtop f network, port)) = some activity ∧
      s.now - activity ≤ cfg.mappingTtl := by
  constructor
  · rintro ⟨l, t, client, address, stepped, event, _, _, sent⟩
    obtain ⟨_, f', data', peer, activity, same, _, used, fresh⟩ := client_output inv stepped sent
    obtain ⟨rfl, rfl, rfl⟩ := by simpa using event.symm.trans same
    exact ⟨activity, used, fresh⟩
  · rintro ⟨activity, used, fresh⟩
    obtain ⟨m, member, same, rfl⟩ := inv.tracks.2 _ _ used fresh
    obtain ⟨address, encoded⟩ := Socks.encodeAddress_ntop size port
    have sent := onServerDatagram_found inv member fresh same encoded data
    refine ⟨⟨s.now, .serverDatagram f data (inetNtop f network, port), _⟩,
      (onServerDatagram cfg s f data (inetNtop f network, port)).2, m.value, address,
      ⟨rfl, congrArg some (Prod.ext sent rfl)⟩, rfl, inv.owned m member, encoded, ?_⟩
    simp

/-- A reply finds its way back when the datagram went out under the spelling in
which the kernel reports the peer, or another mapping has that spelling. -/
theorem reply_delivered_iff (run : Run (step cfg) (.init start) past s)
    (used : lastActivity past (f, (text, port)) = some activity)
    (fresh : s.now - activity ≤ cfg.mappingTtl) (denotes : inetPton f text = some network)
    (data : List UInt8) : Delivers cfg s f (inetNtop f network, port) data ↔
      text = inetNtop f network ∨
      ∃ other, lastActivity past (f, (inetNtop f network, port)) = some other ∧
        s.now - other ≤ cfg.mappingTtl := by
  rw [delivers_iff (inv_run run) (inetPton_length denotes)]
  constructor
  · exact .inr
  · rintro (canonical | other)
    · exact ⟨activity, canonical ▸ used, fresh⟩
    · exact other

theorem canonical_reply_delivered : ∃ past s,
    play lan (.init 0) (exchange "2001:db8::1") = some (past, s) ∧
    Delivers lan s .inet6 ("2001:db8::1".toList, 53) [7] := by
  have played : (play lan (.init 0) (exchange "2001:db8::1")).isSome := by decide +kernel
  obtain ⟨⟨past, s⟩, found⟩ := Option.isSome_iff_exists.mp played
  have used : (play lan (.init 0) (exchange "2001:db8::1")).map
      (fun r => (lastActivity r.1 (.inet6, ("2001:db8::1".toList, 53)), r.2.now)) =
      some (some 0, 2) := by decide +kernel
  rw [found] at used
  obtain ⟨activity, now⟩ := Prod.mk.inj (Option.some.inj used)
  have fresh : s.now - 0 ≤ lan.mappingTtl := by
    rw [now]
    decide +kernel
  have denotes : inetPton .inet6 "2001:db8::1".toList =
      some [0x20, 1, 0xd, 0xb8, 0, 0, 0, 0, 0, 0, 0, 0, 0, 0, 0, 1] := by decide +kernel
  have canonical : inetNtop .inet6 [0x20, 1, 0xd, 0xb8, 0, 0, 0, 0, 0, 0, 0, 0, 0, 0, 0, 1] =
      "2001:db8::1".toList := by decide +kernel
  have delivered := reply_delivered_iff (run_play found) activity fresh denotes [7]
  rw [canonical] at delivered
  exact ⟨past, s, found, delivered.mpr (.inl rfl)⟩

/-- The reply from an address that the client wrote in capitals is lost. -/
theorem capitals_reply_lost : ∃ past s,
    play lan (.init 0) (exchange "2001:DB8::1") = some (past, s) ∧
    lastActivity past (.inet6, ("2001:DB8::1".toList, 53)) = some 0 ∧ s.now = 2 ∧
    inetPton .inet6 "2001:DB8::1".toList = inetPton .inet6 "2001:db8::1".toList ∧
    ¬ Delivers lan s .inet6 ("2001:db8::1".toList, 53) [7] := by
  have played : (play lan (.init 0) (exchange "2001:DB8::1")).isSome := by decide +kernel
  obtain ⟨⟨past, s⟩, found⟩ := Option.isSome_iff_exists.mp played
  have used : (play lan (.init 0) (exchange "2001:DB8::1")).map
      (fun r => (lastActivity r.1 (.inet6, ("2001:DB8::1".toList, 53)), r.2.now,
        (onServerDatagram lan r.2 .inet6 [7] ("2001:db8::1".toList, 53)).1)) =
      some (some 0, 2, []) := by decide +kernel
  rw [found] at used
  simp only [Option.map_some, Option.some.injEq, Prod.mk.injEq] at used
  obtain ⟨activity, now, silent⟩ := used
  refine ⟨past, s, found, activity, now, by decide +kernel, ?_⟩
  rintro ⟨⟨_, _, outputs⟩, t, client, address, ⟨_, handled⟩, rfl, _, _, sent⟩
  obtain rfl : [] = outputs := silent ▸ congrArg Prod.fst (Option.some.inj handled)
  cases sent

end HttpSocksProxy.Udp
