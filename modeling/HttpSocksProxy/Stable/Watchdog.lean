import HttpSocksProxy.Stable.Grace

/-! `_interface_watchdog` of one generation. A tick is one pass of its loop:
its own scan, the advisory inbound side and the outbound side. Refreshes of
other threads fall between any two of its reads of the registry. -/
namespace HttpSocksProxy.Watchdog
open Interfaces

/-- The fields of `StableConfig` that the watchdog reads. -/
structure Config where
  registry : Interfaces.Config := {}
  backgroundLiteMode : Bool := true
  inboundIpv4WarnAfter : ℚ := 30
  preferVpn : Bool := true

inductive InboundState where
  | ready
  | presentNoIpv4
  | absent
  deriving DecidableEq, Repr

/-- `InterfaceRecord.inbound_state` -/
def inboundState (r : Record) : InboundState :=
  if !r.present then .absent else if r.ipv4.isSome then .ready else .presentNoIpv4

inductive InboundRecovery where
  | idle
  | waitingForLocalLink
  | absent
  deriving DecidableEq, Repr

/-- The inbound part of the runtime status. -/
structure Published where
  proxyInterface : Str
  inboundState : InboundState
  inboundRecoveryState : InboundRecovery
  inboundNoIpv4Seconds : ℚ
  localAddresses : Str

/-- The `inbound` events with the values their texts show. -/
inductive Notice where
  | withoutIpv4 (name : Str) (seconds : ℚ)
  | restored (name : Str) (ipv4 : Option Str)
  | ipv4Unavailable (name : Str)
  | notEnumerated (name : Str)
  deriving DecidableEq, Repr

structure State where
  records : Records
  proxy : ResolvedInterface
  proxyState : InboundState
  outbound : ResolvedInterface
  inboundNoIpv4Since : Option ℚ
  inboundWarned : Bool
  published : Option Published
  notices : List Notice

/-- What one pass meets: refreshes of other threads before its own scan, before
its inbound read, before the inbound resolve, before its outbound read and
before the outbound resolve; what its three reads of `proxy_selection` return. -/
structure Tick where
  backgrounded : Bool
  before : List Refresh
  scan : Scan
  now : ℚ
  beforeInbound : List Refresh
  beforeResolve : List Refresh
  beforeOutbound : List Refresh
  beforeRoute : List Refresh
  selections : Str × Str × Str
  clock : ℚ
  probe : Str → Bool

/-- How the watchdog ends: the exception of its scan, or `RecoveryRequired`. -/
inductive Ending where
  | scanRaised (text : Str)
  | recoveryRequired (reason : Str)
  deriving DecidableEq, Repr

def absorb (config : Config) (window : List Refresh) (s : State) : State :=
  { s with records := window.foldl (refreshed config.registry) s.records }

/-- `_advisory_inbound` -/
def advisoryInbound (records : Records) (name : Str) : ResolvedInterface :=
  match records.get? name with
  | some r => ⟨name, name, r.kind, r.ipv4, r.ipv6⟩
  | none => ⟨name, name, classifyInterface name, none, none⟩

/-- `_format_proxy_interface` -/
def formatProxyInterface (proxy : ResolvedInterface) (state : InboundState) : Str :=
  let named := proxy.name ++ " (".toList ++ proxy.kind.text ++ ")".toList
  match state, proxy.ipv4 with
  | .ready, some ipv4 => named ++ " ".toList ++ ipv4
  | .presentNoIpv4, _ => named ++ " present; waiting for local-link IPv4".toList
  | _, _ => named ++ " not enumerated; wildcard listener active".toList

/-- `_local_addresses` -/
def localAddresses (records : Records) : Str :=
  (", ".toList).intercalate ((listed records).filterMap fun item =>
    if item.2.missCount = 0 then item.2.ipv4.map (item.1 ++ "=".toList ++ ·) else none)

/-- The interface whose record the inbound side shows. -/
def inboundTarget (s : State) (t : Tick) : Str :=
  if t.selections.1 ≠ auto then t.selections.2.1 else s.proxy.name

def currentState (records : Records) (target : Str) : InboundState :=
  match records.get? target with
  | some r => if r.missCount = 0 then inboundState r else .absent
  | none => .absent

def inboundProxy (config : Config) (s : State) (t : Tick) (target : Str) (state : InboundState) :
    ResolvedInterface :=
  if state = .ready then
    match resolve s.records t.probe t.selections.2.2 .proxy (some target) config.preferVpn with
    | .ok proxy => proxy
    | .error _ => s.proxy
  else advisoryInbound s.records target

/-- How long the inbound interface has been present without IPv4. -/
def noIpv4Seconds (s : State) (t : Tick) (state : InboundState) : ℚ :=
  if state = .presentNoIpv4 then max 0 (t.clock - s.inboundNoIpv4Since.getD t.clock) else 0

def recoveryState : InboundState → InboundRecovery
  | .ready => .idle
  | .presentNoIpv4 => .waitingForLocalLink
  | .absent => .absent

def transition (proxy : ResolvedInterface) (previous state : InboundState) : List Notice :=
  if state = previous then []
  else match state with
    | .ready => [.restored proxy.name proxy.ipv4]
    | .presentNoIpv4 => [.ipv4Unavailable proxy.name]
    | .absent => [.notEnumerated proxy.name]

/-- The inbound side of a tick. It never raises. -/
def inboundSide (config : Config) (t : Tick) (s : State) : State :=
  let s := absorb config t.beforeInbound s
  let target := inboundTarget s t
  let state := currentState s.records target
  let s := absorb config t.beforeResolve s
  let proxy := inboundProxy config s t target state
  let seconds := noIpv4Seconds s t state
  let warn := state = .presentNoIpv4 && config.inboundIpv4WarnAfter ≤ seconds && !s.inboundWarned
  { s with
    proxy
    proxyState := state
    inboundNoIpv4Since :=
      if state = .presentNoIpv4 then some (s.inboundNoIpv4Since.getD t.clock) else none
    inboundWarned := state = .presentNoIpv4 && (s.inboundWarned || warn)
    published := some ⟨formatProxyInterface proxy state, state, recoveryState state, seconds,
      localAddresses s.records⟩
    notices := s.notices ++ (if warn then [.withoutIpv4 proxy.name seconds] else []) ++
      transition proxy s.proxyState state }

def orNone : Option Str → Str
  | some text => text
  | none => "none".toList

/-- Whether the interface in use resolves to what the generation is bound to. -/
def compareOutbound (active found : ResolvedInterface) : Option Str :=
  if found.name ≠ active.name then
    some ("outbound Auto interface changed: ".toList ++ active.name ++ " → ".toList ++ found.name)
  else if found.ipv4 ≠ active.ipv4 then
    some ("outbound address changed: ".toList ++ active.name ++ " ".toList ++
      active.ipv4.getD [] ++ " → ".toList ++ found.ipv4.getD [])
  else if found.ipv6 ≠ active.ipv6 then
    some ("outbound IPv6 changed: ".toList ++ active.name ++ " ".toList ++
      orNone active.ipv6 ++ " → ".toList ++ orNone found.ipv6)
  else none

def temporarilyUnavailable (record : Option Record) : Bool :=
  record.any fun r => r.missCount ≠ 0 && r.available

/-- The outbound side of a tick. -/
def outboundSide (config : Config) (selection : Str) (t : Tick) (s : State) : Except Ending State :=
  let s := absorb config t.beforeOutbound s
  let waits := temporarilyUnavailable (s.records.get? s.outbound.name)
  let s := absorb config t.beforeRoute s
  if waits then .ok s
  else
    match resolve s.records t.probe selection .outbound (some s.outbound.name) config.preferVpn with
    | .error reason => .error (.recoveryRequired reason)
    | .ok found =>
      match compareOutbound s.outbound found with
      | some reason => .error (.recoveryRequired reason)
      | none => .ok s

def paused (config : Config) (t : Tick) : Bool := config.backgroundLiteMode && t.backgrounded

/-- One pass of the loop under an outbound selection. -/
def tick (config : Config) (selection : Str) (s : State) (t : Tick) : Except Ending State :=
  let s := absorb config t.before s
  if paused config t then .ok s
  else
    match refresh config.registry s.records [t.scan] t.now with
    | .error e => .error (.scanRaised e)
    | .ok records => outboundSide config selection t (inboundSide config t { s with records })

/-- The first tick that ends the watchdog, with the reason. -/
def watch (config : Config) (selection : Str) : State → List Tick → Option (Nat × Ending)
  | _, [] => none
  | s, t :: later =>
    match tick config selection s t with
    | .error ending => some (0, ending)
    | .ok s' => (watch config selection s' later).map fun e => (e.1 + 1, e.2)

end HttpSocksProxy.Watchdog
