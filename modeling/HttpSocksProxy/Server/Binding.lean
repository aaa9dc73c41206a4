import HttpSocksProxy.Socks.UdpInvariant

/-! The source addresses of everything that leaves the proxy: the servers that
share one resolver object, their DNS queries and their outbound connections. -/
namespace HttpSocksProxy.Binding
open InetText Transition

/-- `AsyncProxyServer` as its constructor leaves it. -/
structure Server where
  hosts : ConnectHosts
  resolverSource : Option Str
  deriving DecidableEq

/-- A `_Resolution` of the resolver, made for a query of a server. -/
structure Resolution where
  owner : Server
  source : Option Str
  nameservers : List Str
  currentNameservers : List Str
  nameserver : Option Str
  tcpAttempt : Bool
  retryWithTcp : Bool

/-- A call of `resolve_address` that waits for DNS, from `tcp_connect` or a UDP handler. -/
structure Call where
  owner : Server
  port : UInt16
  tcp : Bool

structure State where
  nameservers : List Str
  servers : List Server
  resolutions : List Resolution
  calls : List Call

def State.init (nameservers : List Str) : State where
  nameservers := nameservers
  servers := []
  resolutions := []
  calls := []

/-- A requested address: types 1 and 4 carry bytes, type 3 and HTTP carry text. -/
inductive Target where
  | literal (f : Family) (bytes : List UInt8) (size : bytes.length = f.size)
  | name (text : Str)

def Target.kind : Target → AddressType
  | .literal .inet _ _ => .ipv4
  | .literal .inet6 _ _ => .ipv6
  | .name _ => .domain

def Target.text : Target → Str
  | .literal f bytes _ => inetNtop f bytes
  | .name text => text

inductive Output where
  | query (owner : Server) (source : Option Str) (nameserver : Str) (tcp : Bool)
  | https (owner : Server) (nameserver : Str)
  | connect (owner : Server) (f : Family) (localAddress : Option Str) (address : SocketAddress)

/-- What a nameserver's answer or its absence comes to. -/
inductive Reply where
  | unusable
  | truncated
  | ignored

inductive Event where
  | construct (hosts : ConnectHosts)
  | request (server : Nat) (target : Target) (port : UInt16) (tcp : Bool) (fallback : Bool)
  | nextRequest (resolution : Nat) (order : List Str)
  | nextNameserver (resolution : Nat)
  | result (resolution : Nat) (reply : Reply)
  | answered (call : Nat) (answers : DnsAnswers) (fallback : Bool)

section Code
variable (afForAddress : Str → Option Family)

/-- The constructor; `none` is the exception it raises. -/
def construct (nameservers : List Str) (hosts : ConnectHosts) : Option (Server × List Str) :=
  if hosts.ipv4.isSome || hosts.ipv6.isSome then do
    let resolverAfs ← nameservers.mapM afForAddress
    if resolverAfs.any (· = .inet) && hosts.ipv4.isSome then
      return (⟨hosts, hosts.ipv4⟩, nameservers.filter (afForAddress · = some .inet))
    else if resolverAfs.any (· = .inet6) && hosts.ipv6.isSome then
      return (⟨hosts, hosts.ipv6⟩, nameservers.filter (afForAddress · = some .inet6))
    else none
  else some (⟨hosts, none⟩, nameservers)

/-- `ipv4_connect` and `ipv6_connect`. -/
def familyConnect (owner : Server) (f : Family) (address : SocketAddress) : Output :=
  .connect owner f (owner.hosts.family f) address

/-- `tcp_connect` once its address is resolved; with both families the second
attempt starts when the first is slow or fails. -/
def connects (owner : Server) (resolved : GenericAddress) (fallback : Bool) : List Output :=
  match resolved.ipv4, resolved.ipv6 with
  | some v4, some v6 => familyConnect owner .inet6 v6 ::
      if fallback then [familyConnect owner .inet v4] else []
  | some v4, none => [familyConnect owner .inet v4]
  | none, some v6 => [familyConnect owner .inet6 v6]
  | none, none => []

def startResolution (owner : Server) : Resolution where
  owner := owner
  source := owner.resolverSource
  nameservers := []
  currentNameservers := []
  nameserver := none
  tcpAttempt := false
  retryWithTcp := false

def nextRequest (r : Resolution) (order : List Str) : Resolution :=
  { r with
    nameservers := order
    currentNameservers := order
    nameserver := none
    tcpAttempt := false
    retryWithTcp := false }

/-- `none` when the resolution is out of things to try. -/
def nextNameserver (r : Resolution) : Option (Str × Resolution) :=
  if r.retryWithTcp then
    r.nameserver.map fun ns => (ns, { r with tcpAttempt := true, retryWithTcp := false })
  else
    match (if r.currentNameservers = [] then r.nameservers else r.currentNameservers) with
    | [] => none
    | ns :: rest => some (ns, { r with
        nameserver := some ns
        currentNameservers := rest
        tcpAttempt := false })

def queryResult (r : Resolution) (ns : Str) : Reply → Resolution
  | .unusable => { r with nameservers := r.nameservers.erase ns }
  | .truncated =>
    if r.tcpAttempt then { r with nameservers := r.nameservers.erase ns }
    else { r with retryWithTcp := true }
  | .ignored => r

/-- `_source_tuple`: no source and the empty one leave the socket unbound. -/
def sourceTuple (source : Option Str) : Option Str := source.filter (· ≠ [])

/-- One query of `Resolver.resolve`; a nameserver that is no address is asked over HTTPS. -/
def send (r : Resolution) (ns : Str) : Output :=
  if (afForAddress ns).isSome then .query r.owner (sourceTuple r.source) ns r.tcpAttempt
  else .https r.owner ns

def handle (s : State) : Event → Option (List Output × State)
  | .construct hosts =>
    match construct afForAddress s.nameservers hosts with
    | none => some ([], s)
    | some (server, nameservers) =>
      some ([], { s with nameservers, servers := s.servers ++ [server] })
  | .request i target port tcp fallback => do
    let owner ← s.servers[i]?
    match resolveNow owner.hosts target.kind (target.text, port) with
    | some resolved => return (if tcp then connects owner resolved fallback else [], s)
    | none => return ([], { s with
        calls := s.calls ++ [⟨owner, port, tcp⟩]
        resolutions := s.resolutions ++ (queries owner.hosts).map fun _ => startResolution owner })
  | .nextRequest i order => do
    let r ← s.resolutions[i]?
    if order.Perm s.nameservers then
      return ([], { s with resolutions := s.resolutions.set i (nextRequest r order) })
    else none
  | .nextNameserver i => do
    let r ← s.resolutions[i]?
    let (ns, r) ← nextNameserver r
    return ([send afForAddress r ns], { s with resolutions := s.resolutions.set i r })
  | .result i reply => do
    let r ← s.resolutions[i]?
    let ns ← r.nameserver
    return ([], { s with resolutions := s.resolutions.set i (queryResult r ns reply) })
  | .answered i answers fallback => do
    let call ← s.calls[i]?
    let resolved := resolveLater call.owner.hosts call.port answers
    return (if call.tcp then connects call.owner resolved fallback else [],
      { s with calls := s.calls.eraseIdx i })

structure Label where
  event : Event
  outputs : List Output

def step (s : State) (l : Label) (t : State) : Prop :=
  handle afForAddress s l.event = some (l.outputs, t)

/-- The DNS answers of a step carry literals of their family. -/
def LiteralAnswers (_ : State) (l : Label) : Prop :=
  ∀ i answers fallback, l.event = .answered i answers fallback → answers.Literal

/-- A server with a connect host binds what it sends to one of its connect hosts. -/
def Bound : Output → Prop
  | .query owner source ns _ => owner.hosts.bound → ∃ f host, owner.hosts.family f = some host ∧
      owner.resolverSource = some host ∧ source = some host ∧ afForAddress ns = some f
  | .https owner _ => ¬ owner.hosts.bound
  | .connect owner f localAddress address => owner.hosts.bound → ∃ host,
      owner.hosts.family f = some host ∧ localAddress = some host ∧
      (inetPton f address.1).isSome

/-- The resolver source of a bound server has the family of these nameservers. -/
def Aligned (owner : Server) (nameservers : List Str) : Prop :=
  owner.hosts.bound → ∃ f host, owner.hosts.family f = some host ∧
    owner.resolverSource = some host ∧ ∀ ns ∈ nameservers, afForAddress ns = some f

structure Inv (s : State) : Prop where
  servers : ∀ owner ∈ s.servers, Aligned afForAddress owner s.nameservers
  owners : ∀ r ∈ s.resolutions, r.owner ∈ s.servers ∧ r.source = r.owner.resolverSource
  resolutions : ∀ r ∈ s.resolutions,
    Aligned afForAddress r.owner (r.nameservers ++ r.currentNameservers ++ r.nameserver.toList)

end Code

variable {afForAddress : Str → Option Family}

theorem Aligned.mono (aligned : Aligned afForAddress owner nameservers)
    (fewer : nameservers' ⊆ nameservers) : Aligned afForAddress owner nameservers' := by
  intro bound
  obtain ⟨f, host, set, source, same⟩ := aligned bound
  exact ⟨f, host, set, source, fun ns member => same ns (fewer member)⟩

theorem construct_some (built : construct afForAddress nameservers hosts = some (server, left)) :
    server.hosts = hosts ∧ left ⊆ nameservers ∧ Aligned afForAddress server left := by
  simp only [construct] at built
  split at built
  case isTrue =>
    simp only [Option.bind_eq_bind, Option.bind_eq_some_iff] at built
    obtain ⟨afs, _, chosen⟩ := built
    split at chosen
    case isTrue four =>
      obtain ⟨rfl, rfl⟩ := by simpa using chosen
      refine ⟨rfl, List.filter_sublist.subset, fun _ => ?_⟩
      obtain ⟨host, set⟩ := Option.isSome_iff_exists.mp (Bool.and_eq_true_iff.mp four).2
      exact ⟨.inet, host, set, set, fun ns member => by simpa using (List.mem_filter.mp member).2⟩
    case isFalse =>
      obtain ⟨six, same⟩ := Option.ite_none_right_eq_some.mp chosen
      obtain ⟨rfl, rfl⟩ := by simpa using same
      refine ⟨rfl, List.filter_sublist.subset, fun _ => ?_⟩
      obtain ⟨host, set⟩ := Option.isSome_iff_exists.mp (Bool.and_eq_true_iff.mp six).2
      exact ⟨.inet6, host, set, set, fun ns member => by simpa using (List.mem_filter.mp member).2⟩
  case isFalse unbound =>
    obtain ⟨rfl, rfl⟩ := by simpa using built
    refine ⟨rfl, List.Subset.refl _, fun bound => absurd ?_ unbound⟩
    simpa [ConnectHosts.bound] using bound

/-- Nameservers of one family, of which there are some. -/
theorem filter_families {nameservers : List Str} {afs : List Family}
    (mapped : nameservers.mapM afForAddress = some afs) (found : afs.any (· = f)) :
    ∃ left, (nameservers.filter (afForAddress · = some f)).mapM afForAddress = some left ∧
      left.any (· = f) ∧ ∀ g, g ≠ f → ¬ left.any (· = g) := by
  have all := mapM_inverse (f := id) (g := afForAddress) (h := fun _ => f)
    (nameservers.filter (afForAddress · = some f))
    fun x member => by simpa using (List.mem_filter.mp member).2
  rw [List.map_id] at all
  refine ⟨_, all, ?_, fun g other => ?_⟩
  · obtain ⟨g, member, same⟩ := List.any_eq_true.mp found
    obtain rfl := of_decide_eq_true same
    obtain ⟨ns, inside, family⟩ := mapM_source mapped member
    simp only [List.any_map, List.any_eq_true]
    exact ⟨ns, List.mem_filter.mpr ⟨inside, by simpa using family⟩, by simp⟩
  · simp [other.symm]

/-- The constructor of another server for the same hosts finds the nameservers as it
would leave them. -/
theorem construct_again (built : construct afForAddress nameservers hosts = some (server, left)) :
    construct afForAddress left hosts = some (server, left) := by
  unfold construct at built ⊢
  split at built
  case isFalse free =>
    cases Option.some.inj built
    rw [if_neg free]
  case isTrue bound =>
    rw [if_pos bound]
    simp only [Option.bind_eq_bind, Option.bind_eq_some_iff] at built ⊢
    obtain ⟨afs, mapped, chosen⟩ := built
    split at chosen
    case isTrue four =>
      cases Option.some.inj chosen
      obtain ⟨found, host⟩ := Bool.and_eq_true_iff.mp four
      obtain ⟨afs', mapped', here, _⟩ := filter_families mapped found
      refine ⟨afs', mapped', ?_⟩
      rw [if_pos (Bool.and_eq_true_iff.mpr ⟨here, host⟩)]
      simp
    case isFalse =>
      obtain ⟨six, same⟩ := Option.ite_none_right_eq_some.mp chosen
      cases Option.some.inj same
      obtain ⟨found, host⟩ := Bool.and_eq_true_iff.mp six
      obtain ⟨afs', mapped', here, only⟩ := filter_families mapped found
      refine ⟨afs', mapped', ?_⟩
      rw [if_neg fun four => only .inet (by decide) (Bool.and_eq_true_iff.mp four).1,
        if_pos (Bool.and_eq_true_iff.mpr ⟨here, host⟩)]
      simp

theorem connects_bound (on : ∀ f address, resolved.family f = some address →
      owner.hosts.off f = false ∧ (inetPton f address.1).isSome) :
    ∀ o ∈ connects owner resolved fallback, Bound afForAddress o := by
  have attempt (f : Family) (address : SocketAddress) (found : resolved.family f = some address) :
      Bound afForAddress (familyConnect owner f address) := by
    intro bound
    obtain ⟨there, literal⟩ := on f address found
    obtain ⟨host, set⟩ := off_host bound there
    exact ⟨host, set, set, literal⟩
  intro o member
  simp only [connects] at member
  cases four : resolved.ipv4 <;> cases six : resolved.ipv6 <;> simp only [four, six] at member
  case none.none => cases member
  case none.some => exact List.mem_singleton.mp member ▸ attempt .inet6 _ six
  case some.none => exact List.mem_singleton.mp member ▸ attempt .inet _ four
  case some.some =>
    rcases List.mem_cons.mp member with rfl | later
    · exact attempt .inet6 _ six
    · split at later
      · exact List.mem_singleton.mp later ▸ attempt .inet _ four
      · cases later

theorem target_literal (target : Target) :
    (target.kind = .ipv4 → (inetPton .inet target.text).isSome) ∧
      (target.kind = .ipv6 → (inetPton .inet6 target.text).isSome) := by
  cases target with
  | literal f bytes size =>
    have back := inetPton_inetNtop size
    cases f <;> simp [Target.kind, Target.text, back]
  | name text => simp [Target.kind]

theorem nextNameserver_some (next : nextNameserver r = some (ns, r')) :
    r'.owner = r.owner ∧ r'.source = r.source ∧
      r'.nameservers ++ r'.currentNameservers ++ r'.nameserver.toList ⊆
        r.nameservers ++ r.currentNameservers ++ r.nameserver.toList ∧ r'.nameserver = some ns := by
  simp only [nextNameserver] at next
  split at next
  · obtain ⟨same, rfl⟩ := by simpa using next
    exact ⟨rfl, rfl, List.Subset.refl _, same⟩
  · split at next
    · cases next
    case h_2 ns' rest left =>
      obtain ⟨rfl, rfl⟩ := by simpa using next
      refine ⟨rfl, rfl, ?_, rfl⟩
      have source : ns' :: rest ⊆ r.nameservers ++ r.currentNameservers := by
        rw [← left]
        split <;> simp
      have inside : ∀ n ∈ ns' :: rest,
          n ∈ r.nameservers ++ r.currentNameservers ++ r.nameserver.toList :=
        fun n member => List.mem_append_left _ (source member)
      intro n member
      rcases List.mem_append.mp member with earlier | now
      · rcases List.mem_append.mp earlier with kept | later
        · exact List.mem_append_left _ (List.mem_append_left _ kept)
        · exact inside n (List.mem_cons_of_mem _ later)
      · exact inside n (List.mem_singleton.mp now ▸ List.mem_cons_self)

theorem queryResult_fewer (r : Resolution) (ns : Str) (reply : Reply) :
    (queryResult r ns reply).owner = r.owner ∧ (queryResult r ns reply).source = r.source ∧
      (queryResult r ns reply).nameservers ++ (queryResult r ns reply).currentNameservers ++
          (queryResult r ns reply).nameserver.toList ⊆
        r.nameservers ++ r.currentNameservers ++ r.nameserver.toList := by
  have erased : r.nameservers.erase ns ++ r.currentNameservers ++ r.nameserver.toList ⊆
      r.nameservers ++ r.currentNameservers ++ r.nameserver.toList :=
    (List.Sublist.append (List.Sublist.append List.erase_sublist (List.Sublist.refl _))
      (List.Sublist.refl _)).subset
  cases reply with
  | unusable => exact ⟨rfl, rfl, erased⟩
  | truncated =>
    simp only [queryResult]
    split
    · exact ⟨rfl, rfl, erased⟩
    · exact ⟨rfl, rfl, List.Subset.refl _⟩
  | ignored => exact ⟨rfl, rfl, List.Subset.refl _⟩

theorem inv_init (nameservers : List Str) : Inv afForAddress (.init nameservers) := by
  constructor <;> simp [State.init]

namespace Inv
variable {s : State} (inv : Inv afForAddress s)
include inv

theorem set_resolution (owner : r.owner ∈ s.servers) (source : r.source = r.owner.resolverSource)
    (aligned : Aligned afForAddress r.owner
      (r.nameservers ++ r.currentNameservers ++ r.nameserver.toList)) :
    Inv afForAddress { s with resolutions := s.resolutions.set i r } where
  servers := inv.servers
  owners r' member := by
    rcases List.mem_or_eq_of_mem_set member with earlier | rfl
    · exact inv.owners r' earlier
    · exact ⟨owner, source⟩
  resolutions r' member := by
    rcases List.mem_or_eq_of_mem_set member with earlier | rfl
    · exact inv.resolutions r' earlier
    · exact aligned

theorem construct (built : construct afForAddress s.nameservers hosts = some (server, nameservers)) :
    Inv afForAddress { s with nameservers, servers := s.servers ++ [server] } := by
  obtain ⟨_, fewer, aligned⟩ := construct_some built
  constructor
  · intro owner member
    rcases List.mem_append.mp member with earlier | new
    · exact (inv.servers owner earlier).mono fewer
    · exact List.mem_singleton.mp new ▸ aligned
  · intro r member
    exact ⟨List.mem_append_left _ (inv.owners r member).1, (inv.owners r member).2⟩
  · exact inv.resolutions

theorem request (member : owner ∈ s.servers) (calls : List Call) (families : List Family) :
    Inv afForAddress { s with
      calls := calls
      resolutions := s.resolutions ++ families.map fun _ => startResolution owner } := by
  constructor
  · exact inv.servers
  · intro r among
    rcases List.mem_append.mp among with earlier | new
    · exact inv.owners r earlier
    · obtain ⟨_, _, rfl⟩ := List.mem_map.mp new
      exact ⟨member, rfl⟩
  · intro r among
    rcases List.mem_append.mp among with earlier | new
    · exact inv.resolutions r earlier
    · obtain ⟨_, _, rfl⟩ := List.mem_map.mp new
      exact (inv.servers owner member).mono (by simp [startResolution])

/-- The query goes from the source of its server to a nameserver of that family. -/
theorem send_bound (member : r ∈ s.resolutions) (next : nextNameserver r = some (ns, r')) :
    Bound afForAddress (send afForAddress r' ns) := by
  obtain ⟨owner, source, fewer, chosen⟩ := nextNameserver_some next
  have aligned := (inv.resolutions r member).mono fewer
  have asked : ns ∈ r'.nameservers ++ r'.currentNameservers ++ r'.nameserver.toList := by
    simp [chosen]
  simp only [send]
  split
  · intro bound
    rw [owner] at bound ⊢
    obtain ⟨f, host, set, same, family⟩ := aligned bound
    have nonempty : host ≠ [] := by
      rintro rfl
      cases f
      · exact r.owner.hosts.named.1 set
      · exact r.owner.hosts.named.2 set
    refine ⟨f, host, set, same, ?_, family ns asked⟩
    rw [source, (inv.owners r member).2, same, sourceTuple]
    simpa using nonempty
  case isFalse unclassified =>
    intro bound
    rw [owner] at bound
    obtain ⟨f, _, _, _, family⟩ := aligned bound
    exact unclassified (by simp [family ns asked])

theorem step (stepped : step afForAddress s l t) (literal : LiteralAnswers s l) :
    Inv afForAddress t ∧ ∀ o ∈ l.outputs, Bound afForAddress o := by
  obtain ⟨event, outputs⟩ := l
  cases event with
  | construct hosts =>
    simp only [Binding.step, handle] at stepped
    cases built : Binding.construct afForAddress s.nameservers hosts with
    | none =>
      obtain ⟨rfl, rfl⟩ := by simpa [built] using stepped
      exact ⟨inv, by simp⟩
    | some result =>
      obtain ⟨rfl, rfl⟩ := by simpa [built] using stepped
      exact ⟨inv.construct built, by simp⟩
  | request i target port tcp fallback =>
    simp only [Binding.step, handle, Option.bind_eq_bind, Option.bind_eq_some_iff] at stepped
    obtain ⟨owner, found, stepped⟩ := stepped
    cases now : resolveNow owner.hosts target.kind (target.text, port) with
    | none =>
      simp only [now, Option.pure_def, Option.some.injEq, Prod.mk.injEq] at stepped
      obtain ⟨rfl, rfl⟩ := stepped
      exact ⟨inv.request (List.mem_of_getElem? found) _ _, by simp⟩
    | some resolved =>
      obtain ⟨rfl, rfl⟩ := by simpa [now] using stepped
      refine ⟨inv, ?_⟩
      split
      · obtain ⟨four, six⟩ := target_literal target
        exact connects_bound fun f address => resolveNow_literal four six now
      · simp
  | nextRequest i order =>
    simp only [Binding.step, handle, Option.bind_eq_bind, Option.bind_eq_some_iff] at stepped
    obtain ⟨r, found, stepped⟩ := stepped
    obtain ⟨same, done⟩ := Option.ite_none_right_eq_some.mp stepped
    obtain ⟨rfl, rfl⟩ := by simpa using done
    obtain ⟨owner, source⟩ := inv.owners r (List.mem_of_getElem? found)
    refine ⟨inv.set_resolution owner source ?_, by simp⟩
    apply (inv.servers r.owner owner).mono
    simpa [Binding.nextRequest] using same.subset
  | nextNameserver i =>
    simp only [Binding.step, handle, Option.bind_eq_bind, Option.bind_eq_some_iff] at stepped
    obtain ⟨r, found, ⟨ns, r'⟩, next, stepped⟩ := stepped
    obtain ⟨rfl, rfl⟩ := by simpa using stepped
    have member := List.mem_of_getElem? found
    obtain ⟨owner, source, fewer, _⟩ := nextNameserver_some next
    obtain ⟨there, known⟩ := inv.owners r member
    refine ⟨inv.set_resolution (owner ▸ there) (by rw [source, owner, known]) ?_, ?_⟩
    · rw [owner]
      exact (inv.resolutions r member).mono fewer
    · simpa using inv.send_bound member next
  | result i reply =>
    simp only [Binding.step, handle, Option.bind_eq_bind, Option.bind_eq_some_iff] at stepped
    obtain ⟨r, found, ns, _, stepped⟩ := stepped
    obtain ⟨rfl, rfl⟩ := by simpa using stepped
    have member := List.mem_of_getElem? found
    obtain ⟨owner, source, fewer⟩ := queryResult_fewer r ns reply
    obtain ⟨there, known⟩ := inv.owners r member
    refine ⟨inv.set_resolution (owner ▸ there) (by rw [source, owner, known]) ?_, by simp⟩
    rw [owner]
    exact (inv.resolutions r member).mono fewer
  | answered i answers fallback =>
    simp only [Binding.step, handle, Option.bind_eq_bind, Option.bind_eq_some_iff] at stepped
    obtain ⟨call, found, stepped⟩ := stepped
    obtain ⟨rfl, rfl⟩ := by simpa using stepped
    refine ⟨⟨inv.servers, inv.owners, inv.resolutions⟩, ?_⟩
    split
    · exact connects_bound fun f address => resolveLater_literal (literal i answers fallback rfl)
    · simp

end Inv

theorem outputs_bound
    (run : Run (guarded (step afForAddress) LiteralAnswers) (.init nameservers) past s) :
    Inv afForAddress s ∧ ∀ l ∈ past, ∀ o ∈ l.outputs, Bound afForAddress o := by
  refine run.record (P := fun past s => Inv afForAddress s ∧
    ∀ l ∈ past, ∀ o ∈ l.outputs, Bound afForAddress o) ⟨inv_init nameservers, by simp⟩ ?_
  rintro past s l t ⟨inv, earlier⟩ ⟨literal, stepped⟩
  obtain ⟨next, bound⟩ := inv.step stepped literal
  refine ⟨next, fun l' member => ?_⟩
  rcases List.mem_cons.mp member with rfl | member
  · exact bound
  · exact earlier l' member

/-- The DNS answers of a step of a forwarder carry literals of their family. -/
def LiteralDatagrams (_ : Udp.State) (l : Udp.Label) : Prop :=
  ∀ task answers, l.event = .resolved task (some answers) → answers.Literal

theorem parse_literal (parsed : Udp.parse data = some request) :
    (request.kind = .ipv4 → (inetPton .inet request.address.1).isSome) ∧
      (request.kind = .ipv6 → (inetPton .inet6 request.address.1).isSome) := by
  simp only [Udp.parse] at parsed
  split at parsed
  · split at parsed
    · cases parsed
    · simp only [Option.bind_eq_bind, Option.bind_eq_some_iff] at parsed
      obtain ⟨kind, _, ⟨address, payload⟩, read, result⟩ := parsed
      obtain rfl := Option.some.inj result
      exact Socks.readAddrport_literal read
  · cases parsed

theorem cause_literal (literal : LiteralDatagrams s l)
    (cause : Udp.Cause cfg s u l.event payload client key) :
    cfg.connectHosts.off key.1 = false ∧ (inetPton key.1 key.2.1).isSome := by
  generalize event : l.event = e at cause
  cases cause with
  | literal parsed _ now found =>
    obtain ⟨four, six⟩ := parse_literal parsed
    exact resolveNow_literal four six now found
  | answered _ _ found => exact resolveLater_literal (literal _ _ event) found

theorem upstream_bound (inv : Udp.Inv cfg past last s) (stepped : Udp.step cfg s l t)
    (literal : LiteralDatagrams s l) (bound : cfg.connectHosts.bound)
    (sent : .upstream f payload peer ∈ l.outputs) : ∃ host,
      cfg.connectHosts.family f = some host ∧ Udp.boundAddress cfg f = some host ∧
      (inetPton f peer.1).isSome := by
  obtain ⟨u, client, moved, cause, rfl⟩ := Udp.upstream_cause inv stepped sent
  obtain ⟨on, denotes⟩ := cause_literal literal cause
  obtain ⟨host, set⟩ := off_host bound on
  have some : ¬ (cfg.connectHosts.ipv4.isNone && cfg.connectHosts.ipv6.isNone) = true := by
    rcases bound with four | six
    · simp [Option.isSome_iff_ne_none.mp four]
    · simp [Option.isSome_iff_ne_none.mp six]
  refine ⟨host, set, ?_, denotes⟩
  simp only [Udp.boundAddress, if_neg some, set]

theorem datagrams_bound (bound : cfg.connectHosts.bound)
    (run : Run (guarded (Udp.step cfg) LiteralDatagrams) (.init start) past s) :
    ∀ l ∈ past, ∀ f payload peer, .upstream f payload peer ∈ l.outputs → ∃ host,
      cfg.connectHosts.family f = some host ∧ Udp.boundAddress cfg f = some host ∧
      (inetPton f peer.1).isSome := by
  induction run with
  | start => simp
  | next before stepped ih =>
    intro l member
    rcases List.mem_cons.mp member with rfl | earlier
    · intro f payload peer sent
      exact upstream_bound (Udp.inv_run before.unguarded) stepped.2 stepped.1 bound sent
    · exact ih l earlier

/-- Every connection, datagram and DNS query of a server with a connect host is
bound to one of its connect hosts, of the family of the address it goes to. No
connect host is the empty string (`ConnectHosts.named`): its callers pass addresses. -/
theorem sources_bound (afForAddress : Str → Option Family) :
    (∀ nameservers past s,
      Run (guarded (step afForAddress) LiteralAnswers) (.init nameservers) past s →
      ∀ l ∈ past, ∀ o ∈ l.outputs, Bound afForAddress o) ∧
    ∀ cfg start past s, cfg.connectHosts.bound →
      Run (guarded (Udp.step cfg) LiteralDatagrams) (.init start) past s →
      ∀ l ∈ past, ∀ f payload peer, .upstream f payload peer ∈ l.outputs → ∃ host,
        cfg.connectHosts.family f = some host ∧ Udp.boundAddress cfg f = some host ∧
        (inetPton f peer.1).isSome :=
  ⟨fun _ _ _ run => (outputs_bound run).2, fun _ _ _ _ bound run => datagrams_bound bound run⟩

def wifi : ConnectHosts := { ipv4 := some "192.168.1.2".toList, ipv6 := none }

def router : Str := "192.168.1.1".toList

/-- A server with an IPv4 connect host sends its query from it, to the IPv4 nameserver. -/
theorem lookup_bound : ∃ past s, ∃ l ∈ past,
    Run (guarded (step (if · = router then some .inet else none)) LiteralAnswers) (.init [router]) past s ∧
    l.outputs = [.query ⟨wifi, wifi.ipv4⟩ wifi.ipv4 router false] ∧
    ∀ o ∈ l.outputs, Bound (if · = router then some .inet else none) o := by
  have built : Run (guarded (step (if · = router then some .inet else none)) LiteralAnswers)
      (.init [router]) [⟨.construct wifi, []⟩] _ := .next .start ⟨nofun, rfl⟩
  have asked := built.next (l := ⟨.request 0 (.name "example".toList) 80 true false, []⟩) ⟨nofun, rfl⟩
  have ordered := asked.next (l := ⟨.nextRequest 0 [router], []⟩) ⟨nofun, rfl⟩
  have sent := ordered.next
    (l := ⟨.nextNameserver 0, [.query ⟨wifi, wifi.ipv4⟩ wifi.ipv4 router false]⟩) ⟨nofun, rfl⟩
  exact ⟨_, _, _, List.mem_cons_self, sent, rfl, (sources_bound _).1 _ _ _ sent _ List.mem_cons_self⟩

end HttpSocksProxy.Binding
