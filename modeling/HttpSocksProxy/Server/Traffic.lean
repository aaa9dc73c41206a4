import HttpSocksProxy.Foundation.Fleet
import HttpSocksProxy.Http.Exchange
import HttpSocksProxy.Socks.Association
import HttpSocksProxy.Socks.Negotiation

/-! What the connections of the two proxies add to `TrafficStats`, against the
payload they hand over, in any mix and any interleaving. The counters only add, so
their values are sums over the connections. -/
namespace HttpSocksProxy.Traffic
open ByteStream Effect InetText Transition

/-- What was counted and what was handed to writers and datagram endpoints. -/
structure Ledger where
  outbound : Nat
  upstream : Nat
  inbound : Nat
  client : Nat
  deriving DecidableEq, Repr

/-- The counters tell what was handed over. -/
def Ledger.Exact (l : Ledger) : Prop := l.outbound = l.upstream ∧ l.inbound = l.client

instance (l : Ledger) : Decidable l.Exact := inferInstanceAs (Decidable (_ ∧ _))

/-- A client and all that its service depends on. -/
inductive Client where
  | http (w : Http.World) (reader : Reader Exn) (drains : Option (Nat × Exn))
  | socks (env : Negotiation.Env) (reader : Reader Exn) (server : Udp.Config) (now : ℚ)
    (gatherEager : Bool)

/-- An association keeps the labels of its past, newest first. -/
inductive Connection where
  | http (w : Http.World) (x : Http.Exchange)
  | negotiating (env : Negotiation.Env) (reader : Reader Exn) (server : Udp.Config) (now : ℚ)
    (gatherEager : Bool)
  | tunnel (gatherEager : Bool) (s : Relay.State)
  | association (cfg : Udp.Config) (past : List Udp.Label) (s : Udp.State)
  | closed

inductive Event where
  | http (turn : Http.Turn)
  | negotiated
  | relay (event : Relay.Event)
  | udp (event : Udp.Event)

def accept : Client → Connection
  | .http w reader drains => .http w (.init reader drains)
  | .socks env reader server now gatherEager => .negotiating env reader server now gatherEager

/-- The endpoints of the association that a negotiation has started. -/
def associated (server : Udp.Config) : Negotiation.Action → Option Udp.Config
  | .udpStart localAddress client _ => some { server with localAddress, expectedClient := some client }
  | _ => none

def forwards : Negotiation.Action → Bool
  | .tcpForward _ => true
  | _ => false

/-- Where the actions of a negotiation lead. -/
def negotiated (server : Udp.Config) (now : ℚ) (gatherEager : Bool) (trace : List Negotiation.Action) :
    Connection :=
  if trace.any forwards then .tunnel gatherEager Relay.init
  else match trace.findSome? (associated server) with
    | some cfg => .association cfg [] (.init now)
    | none => .closed

/-- One step of a connection. -/
def move : Connection → Event → Option Connection
  | .http w x, .http turn => (Http.step w x turn).map (.http w)
  | .negotiating env reader server now gatherEager, .negotiated =>
    some (negotiated server now gatherEager (Negotiation.handle env reader))
  | .tunnel gatherEager s, .relay event => (Relay.step gatherEager s event).map (.tunnel gatherEager)
  | .association cfg past s, .udp event =>
    (Udp.handle cfg s event).map fun (outputs, t) => .association cfg (⟨s.now, event, outputs⟩ :: past) t
  | _, _ => none

abbrev step : List Connection → Fleet.Move Client Event → Option (List Connection) := Fleet.step accept move

/-- The bytes given to `add_outbound`. -/
def countedOut : Udp.Output → Nat
  | .outbound n => n
  | _ => 0

def countedIn : Udp.Output → Nat
  | .inbound n => n
  | _ => 0

def sentUpstream : Udp.Output → Nat
  | .upstream _ payload _ => payload.length
  | _ => 0

def isReply : Udp.Output → Bool
  | .client _ _ => true
  | _ => false

/-- A reply carries the datagram of the peer behind a SOCKS header. -/
def repliedBytes (l : Udp.Label) : Nat :=
  match l.event with
  | .serverDatagram _ data _ => if l.outputs.any isReply then data.length else 0
  | _ => 0

def labelLedger (l : Udp.Label) : Ledger where
  outbound := (l.outputs.map countedOut).sum
  upstream := (l.outputs.map sentUpstream).sum
  inbound := (l.outputs.map countedIn).sum
  client := repliedBytes l

/-- A field summed over entries with a ledger. -/
def sumBy (field : Ledger → Nat) (ledger : A → Ledger) (entries : List A) : Nat :=
  (entries.map fun a => field (ledger a)).sum

def totalOf (ledger : A → Ledger) (entries : List A) : Ledger where
  outbound := sumBy Ledger.outbound ledger entries
  upstream := sumBy Ledger.upstream ledger entries
  inbound := sumBy Ledger.inbound ledger entries
  client := sumBy Ledger.client ledger entries

/-- What the request of an exchange and its relay have counted and handed over;
a SOCKS tunnel has no request. -/
def relayLedger (outbound upstream : Nat) (relay : Relay.State) : Ledger where
  outbound := outbound + (relay.relay .outbound).counted
  upstream := upstream + (relay.relay .outbound).written.length
  inbound := (relay.relay .inbound).counted
  client := (relay.relay .inbound).written.length

def Connection.ledger : Connection → Ledger
  | .http _ x => relayLedger x.session.outbound x.session.upstream.length x.relay
  | .tunnel _ s => relayLedger 0 0 s
  | .association _ past _ => totalOf labelLedger past
  | .negotiating .. | .closed => ⟨0, 0, 0, 0⟩

/-- The payload that waits for the resolution of a host name. -/
def waitingBytes (s : Udp.State) : Nat := (s.pending.map (·.payload.length)).sum

def Connection.waiting : Connection → Nat
  | .association _ _ s => waitingBytes s
  | _ => 0

/-- What all connections together have counted and handed over. -/
def total (s : List Connection) : Ledger := totalOf Connection.ledger s

def waiting (s : List Connection) : Nat := (s.map Connection.waiting).sum

/-- The signal counts bytes that it does not write. -/
def loses : Relay.Signal → Bool
  | .writeFails _ _ => true
  | _ => false

/-- No payload that is counted now or was counted before is dropped. -/
def delivers (cfg : Udp.Config) (s : Udp.State) : Udp.Event → Bool
  | .clientDatagram data sender =>
    match Udp.clientAllowed cfg s sender, Udp.parse data with
    | some _, some request =>
      (resolveNow cfg.connectHosts request.kind request.address).all fun resolved =>
        request.payload.isEmpty || (Udp.target s resolved).isSome
    | _, _ => true
  | .resolved task answers =>
    s.pending[task]?.all fun call => call.payload.isEmpty || answers.any fun answers =>
      (Udp.target s (resolveLater cfg.connectHosts call.address.2 answers)).isSome
  | .cancelled task => s.pending[task]?.all (·.payload.isEmpty)
  | .serverDatagram f data sender =>
    (AgingTable.lookup (Udp.pruneMappings cfg s).2.connections (f, sender)).all fun _ =>
      data.isEmpty || s.clientConn && (Socks.encodeAddress (some sender)).isSome
  | _ => true

/-- The first drain of the upstream, which follows a request head, succeeds; no
write fails; no datagram that is counted is dropped. -/
def meets : Connection → Event → Bool
  | .http _ x, .http .request => x.session.drains.all (0 < ·.1)
  | .http _ _, .http turn => turn.signal.all fun taken => !loses taken.2
  | .tunnel _ _, .relay (.relay _ signal) => !loses signal
  | .association cfg _ s, .udp event => delivers cfg s event
  | _, _ => true

section Datagrams
variable {cfg : Udp.Config} {s t : Udp.State}

theorem evicted_sum (f : Udp.Output → Nat) (none : ∀ key, f (.evicted key) = 0) (keys : List Udp.Key) :
    ((keys.map .evicted).map f).sum = 0 := by
  induction keys with
  | nil => rfl
  | cons key keys ih => rw [List.map_cons, List.map_cons, List.sum_cons, none, ih]

/-- Evictions carry no payload. -/
theorem labelLedger_evicted (time : ℚ) (e : Udp.Event) (keys : List Udp.Key) (outputs : List Udp.Output) :
    labelLedger ⟨time, e, keys.map .evicted ++ outputs⟩ = labelLedger ⟨time, e, outputs⟩ := by
  have silent : (keys.map Udp.Output.evicted).any isReply = false := by simp [isReply]
  simp only [labelLedger, repliedBytes, List.map_append, List.sum_append, List.any_append, silent,
    Bool.false_or]
  rw [evicted_sum _ fun _ => rfl, evicted_sum _ fun _ => rfl, evicted_sum _ fun _ => rfl, Nat.zero_add,
    Nat.zero_add, Nat.zero_add]

theorem labelLedger_counted (time : ℚ) (e : Udp.Event) (n : Nat) (outputs : List Udp.Output) :
    labelLedger ⟨time, e, .outbound n :: outputs⟩ =
      { labelLedger ⟨time, e, outputs⟩ with outbound := n + (labelLedger ⟨time, e, outputs⟩).outbound } := by
  simp [labelLedger, repliedBytes, countedOut, sentUpstream, countedIn, isReply]

/-- What `forward` hands over; it counts nothing. -/
theorem labelLedger_forward (time : ℚ) (e : Udp.Event) (cfg : Udp.Config) (s : Udp.State)
    (payload : List UInt8) (client : SocketAddress) (resolved : GenericAddress) :
    labelLedger ⟨time, e, (Udp.forward cfg s payload client resolved).1⟩ =
      ⟨0, if (Udp.target s resolved).isSome then payload.length else 0, 0, 0⟩ := by
  simp only [Udp.forward]
  cases Udp.target s resolved with
  | none => cases e <;> rfl
  | some key =>
    have sent := labelLedger_evicted time e
      (AgingTable.surplus cfg.maxMappings (Udp.stored cfg s key client)) [.upstream key.1 payload key.2]
    have mapped (outputs : List Udp.Output) :
        labelLedger ⟨time, e, .mapped key :: outputs⟩ = labelLedger ⟨time, e, outputs⟩ := by
      simp [labelLedger, repliedBytes, countedOut, sentUpstream, countedIn, isReply]
    refine (mapped _).trans (sent.trans ?_)
    cases e <;> rfl

theorem forward_pending (cfg : Udp.Config) (s : Udp.State) (payload : List UInt8) (client : SocketAddress)
    (resolved : GenericAddress) : (Udp.forward cfg s payload client resolved).2.pending = s.pending := by
  rcases Udp.forward_cases cfg s payload client resolved with same | ⟨key, _, same⟩ <;> rw [same]
  rfl

/-- A payload that reaches an endpoint, or is empty, is handed over whole. -/
theorem whole_payload {payload : List UInt8} {found : Bool} (reached : payload = [] ∨ found = true) :
    (if found then payload.length else 0) = payload.length := by
  rcases reached with rfl | found
  · exact ite_self 0
  · exact if_pos found

theorem waiting_snoc (s : Udp.State) (call : Udp.Pending) :
    waitingBytes { s with pending := s.pending ++ [call] } = waitingBytes s + call.payload.length := by
  simp [waitingBytes]

theorem waiting_erase (found : s.pending[task]? = some call) :
    waitingBytes s = call.payload.length + waitingBytes { s with pending := s.pending.eraseIdx task } := by
  obtain ⟨inside, rfl⟩ := List.getElem?_eq_some_iff.mp found
  have counted : task < (s.pending.map (·.payload.length)).length := by rwa [List.length_map]
  have parts := List.CommMonoid.add_sum_eraseIdx counted
  rw [List.getElem_map, List.eraseIdx_map] at parts
  exact parts.symm

/-- The books of an association: what a handler counts, hands over and leaves waiting. -/
def Settled (before after : Udp.State) (l : Udp.Label) : Prop :=
  (labelLedger l).outbound + waitingBytes before = (labelLedger l).upstream + waitingBytes after ∧
    (labelLedger l).inbound = (labelLedger l).client

theorem settled_client (delivered : delivers cfg s (.clientDatagram data sender) = true)
    (handled : Udp.onClientDatagram cfg s data sender = (outputs, t)) :
    Settled s t ⟨s.now, .clientDatagram data sender, outputs⟩ := by
  simp only [delivers] at delivered
  simp only [Udp.onClientDatagram] at handled
  cases allowed : Udp.clientAllowed cfg s sender with
  | none =>
    simp only [allowed, Prod.mk.injEq] at handled
    obtain ⟨rfl, rfl⟩ := handled
    exact ⟨rfl, rfl⟩
  | some entered =>
    obtain ⟨_, _, rfl⟩ := Udp.clientAllowed_some allowed
    have pruned (outputs : List Udp.Output) :
        labelLedger ⟨s.now, .clientDatagram data sender,
          (Udp.pruneMappings cfg { s with lockedClient := some sender }).1 ++ outputs⟩ =
          labelLedger ⟨s.now, .clientDatagram data sender, outputs⟩ := labelLedger_evicted _ _ _ outputs
    cases parsed : Udp.parse data with
    | none =>
      simp only [allowed, parsed, Prod.mk.injEq] at handled
      obtain ⟨rfl, rfl⟩ := handled
      have nothing := pruned []
      rw [List.append_nil] at nothing
      rw [Settled, nothing]
      exact ⟨rfl, rfl⟩
    | some request =>
      obtain ⟨kind, address, payload⟩ := request
      cases now : resolveNow cfg.connectHosts kind address with
      | none =>
        simp only [allowed, parsed, now, Prod.mk.injEq] at handled
        obtain ⟨rfl, rfl⟩ := handled
        rw [Settled, pruned, waiting_snoc]
        refine ⟨?_, rfl⟩
        change payload.length + 0 + waitingBytes s = 0 + (waitingBytes s + payload.length)
        omega
      | some resolved =>
        simp only [allowed, parsed, now, Prod.mk.injEq] at handled
        obtain ⟨rfl, rfl⟩ := handled
        simp only [allowed, parsed, now, Option.all_some, Bool.or_eq_true, List.isEmpty_iff] at delivered
        have sent := labelLedger_forward s.now (.clientDatagram data sender) cfg
          (Udp.pruneMappings cfg { s with lockedClient := some sender }).2 payload sender resolved
        rw [Settled, List.append_assoc, pruned, List.singleton_append, labelLedger_counted, sent,
          waitingBytes, waitingBytes, forward_pending]
        refine ⟨?_, rfl⟩
        change payload.length + 0 + waitingBytes s =
          (if (Udp.target s resolved).isSome then payload.length else 0) + waitingBytes s
        rw [whole_payload delivered, Nat.add_zero]

theorem settled_resolved (found : s.pending[task]? = some call) (reached : call.payload = [] ∨
      (Udp.target s resolved).isSome = true) (answers : Option DnsAnswers) (outputs : List Udp.Output)
    (handled : Udp.forward cfg { s with pending := s.pending.eraseIdx task } call.payload call.client
      resolved = (outputs, t)) : Settled s t ⟨s.now, .resolved task answers, outputs⟩ := by
  have sent := labelLedger_forward s.now (.resolved task answers) cfg
    { s with pending := s.pending.eraseIdx task } call.payload call.client resolved
  have pending := forward_pending cfg { s with pending := s.pending.eraseIdx task } call.payload
    call.client resolved
  rw [handled] at sent pending
  rw [Settled, sent, waiting_erase found, waitingBytes, waitingBytes, pending]
  refine ⟨?_, rfl⟩
  change 0 + (_ + _) = (if (Udp.target s resolved).isSome then call.payload.length else 0) + _
  rw [whole_payload reached, Nat.zero_add]

theorem settled_dropped (found : s.pending[task]? = some call) (empty : call.payload = []) (e : Udp.Event) :
    Settled s { s with pending := s.pending.eraseIdx task } ⟨s.now, e, []⟩ := by
  have unanswered : repliedBytes ⟨s.now, e, []⟩ = 0 := by cases e <;> rfl
  refine ⟨?_, unanswered.symm⟩
  rw [waiting_erase found, empty, List.length_nil, Nat.zero_add]
  rfl

theorem settled_server (delivered : delivers cfg s (.serverDatagram f data sender) = true)
    (handled : Udp.onServerDatagram cfg s f data sender = (outputs, t)) :
    Settled s t ⟨s.now, .serverDatagram f data sender, outputs⟩ := by
  have pruned (outputs : List Udp.Output) :
      labelLedger ⟨s.now, .serverDatagram f data sender, (Udp.pruneMappings cfg s).1 ++ outputs⟩ =
        labelLedger ⟨s.now, .serverDatagram f data sender, outputs⟩ := labelLedger_evicted _ _ _ outputs
  simp only [delivers] at delivered
  simp only [Udp.onServerDatagram] at handled
  cases found : AgingTable.lookup (Udp.pruneMappings cfg s).2.connections (f, sender) with
  | none =>
    simp only [found, Prod.mk.injEq] at handled
    obtain ⟨rfl, rfl⟩ := handled
    have nothing := pruned []
    rw [List.append_nil] at nothing
    rw [Settled, nothing]
    exact ⟨rfl, rfl⟩
  | some mapping =>
    simp only [found, Prod.mk.injEq] at handled
    obtain ⟨rfl, rfl⟩ := handled
    simp only [found, Option.all_some, Bool.or_eq_true, Bool.and_eq_true, List.isEmpty_iff] at delivered
    rw [Settled, List.append_assoc, pruned]
    have attached : (Udp.pruneMappings cfg s).2.clientConn = s.clientConn := rfl
    change _ + waitingBytes s = _ + waitingBytes s ∧ _
    rw [attached]
    cases encoded : Socks.encodeAddress (some sender) with
    | none =>
      obtain rfl : data = [] := by simpa [encoded] using delivered
      exact ⟨rfl, rfl⟩
    | some address =>
      cases there : s.clientConn with
      | false =>
        obtain rfl : data = [] := by simpa [there] using delivered
        exact ⟨rfl, rfl⟩
      | true => exact ⟨rfl, by simp [labelLedger, repliedBytes, countedIn, isReply]⟩

theorem settled_handle (delivered : delivers cfg s e = true)
    (handled : Udp.handle cfg s e = some (outputs, t)) :
    Settled s t ⟨s.now, e, outputs⟩ := by
  cases e with
  | clientDatagram data sender => exact settled_client delivered (Option.some.inj handled)
  | serverDatagram f data sender => exact settled_server delivered (Option.some.inj handled)
  | resolved task answers =>
    obtain ⟨call, found, result⟩ := Option.map_eq_some_iff.mp handled
    simp only [delivers, found, Option.all_some, Bool.or_eq_true, List.isEmpty_iff] at delivered
    cases answers with
    | none =>
      obtain ⟨rfl, rfl⟩ := Prod.mk.inj result
      exact settled_dropped found (by simpa using delivered) _
    | some answers => exact settled_resolved found delivered _ _ result
  | cancelled task =>
    simp only [Udp.handle, Option.ite_none_right_eq_some, Option.some.injEq, Prod.mk.injEq] at handled
    obtain ⟨inside, rfl, rfl⟩ := handled
    have found := List.getElem?_eq_getElem inside
    simp only [delivers, found, Option.all_some, List.isEmpty_iff] at delivered
    exact settled_dropped found delivered _
  | openedServer f =>
    simp only [Udp.handle, Option.ite_none_right_eq_some, Option.some.injEq, Prod.mk.injEq] at handled
    obtain ⟨_, rfl, rfl⟩ := handled
    cases f <;> exact ⟨rfl, rfl⟩
  | openedClient =>
    simp only [Udp.handle, Option.ite_none_left_eq_some, Option.some.injEq, Prod.mk.injEq] at handled
    obtain ⟨_, rfl, rfl⟩ := handled
    exact ⟨rfl, rfl⟩
  | passed seconds =>
    simp only [Udp.handle, Option.ite_none_right_eq_some, Option.some.injEq, Prod.mk.injEq] at handled
    obtain ⟨_, rfl, rfl⟩ := handled
    exact ⟨rfl, rfl⟩
  | close =>
    obtain ⟨rfl, rfl⟩ := Prod.mk.inj (Option.some.inj handled)
    exact ⟨rfl, rfl⟩

end Datagrams

section Requests
open Http
variable {s : Session}

/-- The bytes counted on the way upstream are the bytes written. -/
def Even (s : Session) : Prop := s.upstream.length = s.outbound

theorem even_acting : Acting fun s t => Even s → Even t where
  refl _ := id
  trans first last := last ∘ first
  read _ _ := id
  drained _ _ := id
  sent s bytes even := by rw [Even, List.length_append, even]
  acted _ _ := id

/-- The head of a request is counted after the drain that follows it. -/
theorem relayRequest_even (ready : s.drains.all (0 < ·.1) = true) (even : Even s) (maxHeaderBytes : Nat)
    (a : Accepted r) : Ends (relayRequest maxHeaderBytes a) s Even := by
  apply After.bind_iff.mpr
  apply After.modify_iff.mpr
  have drained : ∃ drains, drain { s with upstream := s.upstream ++ a.headBytes } =
      .ok () { s with upstream := s.upstream ++ a.headBytes, drains } := by
    simp only [drain]
    cases counted : s.drains with
    | none => exact ⟨none, by simp⟩
    | some count =>
      obtain ⟨_ | n, e⟩ := count
      · simp [counted] at ready
      · exact ⟨some (n, e), rfl⟩
  obtain ⟨drains, done⟩ := drained
  apply After.bind_iff.mpr
  rw [After, done]
  apply After.bind_iff.mpr
  apply After.modify_iff.mpr
  have counted : Even { s with
      drains
      upstream := s.upstream ++ a.headBytes
      outbound := s.outbound + a.headBytes.length } := even_acting.sent s a.headBytes even
  exact (even_acting.forwardRequestBody maxHeaderBytes a.framing _).mono (fun _ _ kept => kept counted)
    fun _ _ kept => kept counted

theorem steps_even {x : Handler Unit} (steps : Steps (fun s t => Even s → Even t) x) (even : Even s) :
    Ends x s Even :=
  (steps s).mono (fun _ _ kept => kept even) fun _ _ kept => kept even

theorem closingUpstream_even {x : Handler Unit} (inner : Ends x s Even) :
    Ends (closingUpstream x) s Even := by
  apply After.bind_iff.mpr
  apply After.tryCatch_iff.mpr
  exact After.mono inner (fun _ _ even => even) fun _ _ even => even

theorem doVerb_even (env : Env) (ready : s.drains.all (0 < ·.1) = true) (even : Even s) :
    Ends (doVerb env r) s Even := by
  simp only [doVerb]
  split
  · exact even
  · exact even
  apply After.bind_iff.mpr
  apply After.modify_iff.mpr
  generalize asked : Session.mk _ _ _ _ _ = t
  have ready : t.drains.all (0 < ·.1) = true := asked ▸ ready
  have even : Even t := asked ▸ even
  split
  · exact steps_even (even_acting.connectFailed _ _) even
  apply closingUpstream_even
  apply After.bind_iff.mpr
  refine After.mono (relayRequest_even ready even _ _) (fun _ t even => ?_) fun _ _ even => even
  apply steps_even _ even
  exact even_acting.bind (even_acting.writeEof env) fun _ => even_acting.observe _

theorem dispatch_even (env : Env) (ready : s.drains.all (0 < ·.1) = true) (even : Even s) :
    Ends (dispatch env r) s Even := by
  simp only [dispatch]
  split
  · exact steps_even (even_acting.doConnect env r) even
  split
  · exact doVerb_even env ready even
  · exact steps_even (even_acting.perform _) even

theorem handle_even (env : Env) (ready : s.drains.all (0 < ·.1) = true) (even : Even s) :
    Ends (handle env) s Even := by
  have first : Ends (handleRequest env) s Even := by
    apply handleRequest_after
    · rintro _ ⟨reader, rfl⟩
      exact even
    · rintro _ _ ⟨reader, rfl⟩
      exact even
    · rintro _ ⟨reader, rfl⟩
      exact even
    · rintro _ _ _ ⟨reader, rfl⟩ _
      exact even
    · rintro _ _ _ ⟨reader, rfl⟩ _
      exact dispatch_even env ready even
  exact first.tryCatch fun e t even => steps_even (even_acting.recover env e) even

end Requests

section Relays
open Relay

/-- The bytes counted in a direction are the bytes written in it. -/
def Counted (d : Direction) : Prop := d.counted = d.written.length

theorem counted_cancel (counted : Counted d) : Counted d.cancel := by
  simp only [Direction.cancel]
  split <;> exact counted

/-- Only a failing write counts bytes that are not written. -/
theorem counted_step (counted : Counted d) (kept : loses signal = false)
    (stepped : d.step signal = some d') : Counted d' := by
  cases Direction.step_turns stepped with
  | unwritten => contradiction
  | @forwarded n readable =>
    obtain ⟨_, _, _, enough⟩ := Direction.readable_iff.mp readable
    simp only [Counted, Direction.take, List.length_append, List.length_take]
    rw [counted]
    omega
  | received | sourceEnded | unread | ended | eofWritten | eofFails | drained | drainFails
  | eofDrained | eofDrainFails | cancelled =>
    exact counted

theorem counted_direction {taken : Signal → Prop} (counted : Counted d)
    (kept : ∀ signal, taken signal → loses signal = false)
    (moved : (∃ signal, taken signal ∧ d.step signal = some d') ∨ d' = d ∨ d' = d.cancel) : Counted d' := by
  rcases moved with ⟨signal, here, stepped⟩ | rfl | rfl
  · exact counted_step counted (kept signal here) stepped
  · exact counted
  · exact counted_cancel counted

end Relays

/-- What each connection keeps: it has counted what it handed over and what still
waits for the resolution of a host name. -/
def Balanced : Connection → Prop
  | .http _ x => Even x.session ∧ ∀ side, Counted (x.relay.relay side)
  | .tunnel _ s => ∀ side, Counted (s.relay side)
  | .association _ past s =>
    (totalOf labelLedger past).outbound = (totalOf labelLedger past).upstream + waitingBytes s ∧
      (totalOf labelLedger past).inbound = (totalOf labelLedger past).client
  | .negotiating .. | .closed => True

theorem balanced_accept (client : Client) : Balanced (accept client) := by
  cases client with
  | http w reader drains => exact ⟨rfl, fun side => rfl⟩
  | socks => exact trivial

theorem balanced_negotiated (server : Udp.Config) (now : ℚ) (gatherEager : Bool)
    (trace : List Negotiation.Action) : Balanced (negotiated server now gatherEager trace) := by
  simp only [negotiated]
  split
  · exact fun side => rfl
  split
  · exact ⟨rfl, rfl⟩
  · exact trivial

theorem balanced_http (balanced : Balanced (.http w x)) (met : meets (.http w x) (.http turn) = true)
    (stepped : Http.step w x turn = some y) : Balanced (.http w y) := by
  obtain ⟨even, counted⟩ := balanced
  cases Http.step_moves stepped with
  | requested fresh same =>
    refine ⟨?_, counted⟩
    exact same ▸ (handle_even w.env met even).final
  | relayed busy sides =>
    refine ⟨even, fun side => counted_direction (counted side) (fun signal here => ?_) (sides side)⟩
    cases turn with
    | request => cases here
    | response | tunnel | cancel | leave => simpa [meets, here] using met
  | leaves _ upstream outbound =>
    refine ⟨?_, counted⟩
    rw [Even, upstream, outbound]
    exact even

theorem balanced_tunnel (balanced : Balanced (.tunnel gatherEager s))
    (met : meets (.tunnel gatherEager s) (.relay event) = true)
    (stepped : Relay.step gatherEager s event = some t) : Balanced (.tunnel gatherEager t) := by
  intro side
  have moved := Relay.moves_direction (Relay.step_moves stepped) side
  refine counted_direction (balanced side) (fun signal here => ?_) moved
  rw [here] at met
  simpa [meets] using met

theorem balanced_association (balanced : Balanced (.association cfg past s))
    (met : meets (.association cfg past s) (.udp event) = true)
    (handled : Udp.handle cfg s event = some (outputs, t)) :
    Balanced (.association cfg (⟨s.now, event, outputs⟩ :: past) t) := by
  obtain ⟨sent, answered⟩ := settled_handle met handled
  obtain ⟨before, before'⟩ := balanced
  simp only [totalOf, sumBy] at before before'
  simp only [Balanced, totalOf, sumBy, List.map_cons, List.sum_cons]
  omega

/-- A step that meets its condition keeps the balance. -/
theorem balanced_move (balanced : Balanced c) (met : meets c e = true) (moved : move c e = some d) :
    Balanced d := by
  cases c with
  | http w x =>
    cases e with
    | http turn =>
      obtain ⟨y, stepped, rfl⟩ := Option.map_eq_some_iff.mp moved
      exact balanced_http balanced met stepped
    | _ => cases moved
  | negotiating env reader server now gatherEager =>
    cases e with
    | negotiated =>
      cases Option.some.inj moved
      exact balanced_negotiated _ _ _ _
    | _ => cases moved
  | tunnel gatherEager s =>
    cases e with
    | relay event =>
      obtain ⟨t, stepped, rfl⟩ := Option.map_eq_some_iff.mp moved
      exact balanced_tunnel balanced met stepped
    | _ => cases moved
  | association cfg past s =>
    cases e with
    | udp event =>
      obtain ⟨⟨outputs, t⟩, handled, rfl⟩ := Option.map_eq_some_iff.mp moved
      exact balanced_association balanced met handled
    | _ => cases moved
  | closed => cases moved

theorem balanced_ledger (balanced : Balanced c) :
    c.ledger.outbound = c.ledger.upstream + c.waiting ∧ c.ledger.inbound = c.ledger.client := by
  cases c with
  | http w x =>
    obtain ⟨even, counted⟩ := balanced
    refine ⟨?_, counted .inbound⟩
    simp only [Connection.ledger, Connection.waiting, relayLedger]
    rw [counted .outbound, ← even, Nat.add_zero]
  | tunnel gatherEager s =>
    refine ⟨?_, balanced .inbound⟩
    simp only [Connection.ledger, Connection.waiting, relayLedger]
    rw [balanced .outbound, Nat.add_zero]
  | association cfg past s => exact balanced
  | negotiating | closed => exact ⟨rfl, rfl⟩

/-- In a run of any connections whose steps all meet their condition the counters
are exact, but for the payload that waits for a host name to be resolved. -/
theorem traffic_exact
    (run : Run (guarded (byStep step) (Fleet.allowed meets · · = true)) [] past s) :
    (total s).Exact ↔ waiting s = 0 := by
  have balanced := Fleet.kept_run balanced_accept balanced_move run
  have sent := Fleet.total_add fun c member => (balanced_ledger (balanced c member)).1
  have answered := List.map_congr_left fun c member => (balanced_ledger (balanced c member)).2
  constructor
  · rintro ⟨outbound, _⟩
    have same : (s.map fun c => c.ledger.outbound).sum = (s.map fun c => c.ledger.upstream).sum := outbound
    rw [same] at sent
    exact Nat.add_left_cancel (sent.symm.trans (Nat.add_zero _).symm)
  · intro none
    refine ⟨?_, congrArg List.sum answered⟩
    rw [show (s.map Connection.waiting).sum = 0 from none] at sent
    exact sent
/-- A client that asks for a UDP association. -/
def associating : Client :=
  .socks ⟨some ("192.168.1.7".toList, 5000), some "192.168.1.2".toList, .ok (), .ok (), some 4000⟩
    (Reader.ofPieces [[5, 1, 0], [5, 3, 0, 1, 0, 0, 0, 0, 0, 0]]) Udp.lan 0 true

def peer : SocketAddress := ("192.0.2.1".toList, 53)

/-- A request with a response, beside a datagram with an answer. -/
def mixed : List (Fleet.Move Client Event) :=
  [.start (.http Http.reachable (Reader.ofPieces [Http.latin "GET http://h/ HTTP/1.0\r\n\r\n"]) none),
    .start associating, .turn 0 (.http .request), .turn 1 .negotiated,
    .turn 1 (.udp .openedClient), .turn 1 (.udp (.openedServer .inet)),
    .turn 0 (.http (.response (.receive [104, 105]))),
    .turn 1 (.udp (.clientDatagram (Udp.domainDatagram "192.0.2.1" 53 [1, 2, 3])
      ("192.168.1.7".toList, 5000))),
    .turn 0 (.http (.response (.forward 2))), .turn 1 (.udp (.serverDatagram .inet [4] peer))]

theorem mixed_exact : ∃ past s,
    Run (guarded (byStep step) (Fleet.allowed meets · · = true)) [] past s ∧
      (total s).inbound = 3 ∧ ((total s).Exact ↔ waiting s = 0) := by
  have seen : (replay (fun s m => if Fleet.allowed meets s m then step s m else none) [] mixed).map
      (fun s => (total s).inbound) = some 3 := by decide +kernel
  obtain ⟨s, played, inbound⟩ := Option.map_eq_some_iff.mp seen
  have run := Run.of_replay_guarded played
  exact ⟨_, s, run, inbound, traffic_exact run⟩

/-- A datagram for a host name that has no address. -/
def unresolved : List (Fleet.Move Client Event) :=
  [.start associating, .turn 0 .negotiated, .turn 0 (.udp .openedClient),
    .turn 0 (.udp (.openedServer .inet)),
    .turn 0 (.udp (.clientDatagram (Udp.domainDatagram "nowhere" 53 [1, 2, 3])
      ("192.168.1.7".toList, 5000))),
    .turn 0 (.udp (.resolved 0 none)), .turn 0 (.udp .close)]

/-- Its payload is counted and goes nowhere. -/
theorem unresolved_counted : ∃ past s, Run (byStep step) [] past s ∧ waiting s = 0 ∧
    total s = ⟨3, 0, 0, 0⟩ ∧ ¬ (total s).Exact := by
  have seen : (replay step [] unresolved).map (fun s => (waiting s, total s)) = some (0, ⟨3, 0, 0, 0⟩) := by
    decide +kernel
  obtain ⟨s, played, same⟩ := Option.map_eq_some_iff.mp seen
  obtain ⟨idle, counted⟩ := Prod.mk.inj same
  refine ⟨_, s, Run.of_replay played, idle, counted, ?_⟩
  rw [counted]
  decide

end HttpSocksProxy.Traffic
