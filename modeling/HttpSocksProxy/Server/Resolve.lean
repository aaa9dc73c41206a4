import HttpSocksProxy.Foundation.InetText

/-! Host resolution of `AsyncProxyServer`: literals, the A and AAAA queries of
`_resolve_domain` and the family filter of `resolve_address`. -/
namespace HttpSocksProxy
open InetText

abbrev Str := List Char
abbrev SocketAddress := Str × UInt16

inductive AddressType where
  | ipv4
  | domain
  | ipv6
  deriving DecidableEq, Repr

/-- `Socks5AddressType`. -/
def AddressType.ofByte : UInt8 → Option AddressType
  | 1 => some ipv4
  | 3 => some domain
  | 4 => some ipv6
  | _ => none

structure GenericAddress where
  ipv4 : Option SocketAddress := none
  ipv6 : Option SocketAddress := none
  deriving DecidableEq, Repr

def GenericAddress.family (r : GenericAddress) : Family → Option SocketAddress
  | .inet => r.ipv4
  | .inet6 => r.ipv6

/-- An empty string would count as set for the constructor, and as no source for
`_source_tuple`; no caller passes one. -/
structure ConnectHosts where
  ipv4 : Option Str
  ipv6 : Option Str
  named : ipv4 ≠ some [] ∧ ipv6 ≠ some [] := by decide
  deriving DecidableEq, Repr

def ConnectHosts.bound (hosts : ConnectHosts) : Prop := hosts.ipv4.isSome ∨ hosts.ipv6.isSome

def ConnectHosts.family (hosts : ConnectHosts) : Family → Option Str
  | .inet => hosts.ipv4
  | .inet6 => hosts.ipv6

/-- A family is off when only the other one has a connect host. -/
def ConnectHosts.off (hosts : ConnectHosts) : Family → Bool
  | .inet => hosts.ipv4.isNone && hosts.ipv6.isSome
  | .inet6 => hosts.ipv4.isSome && hosts.ipv6.isNone

/-- What the two DNS queries come to; a query that fails has no answers. The
numbers are what `random.choice` draws. -/
structure DnsAnswers where
  a : List Str
  aaaa : List Str
  draw4 : Nat
  draw6 : Nat

/-- A and AAAA records carry literals of their family. -/
def DnsAnswers.Literal (answers : DnsAnswers) : Prop :=
  (∀ text ∈ answers.a, (inetPton .inet text).isSome) ∧
    ∀ text ∈ answers.aaaa, (inetPton .inet6 text).isSome

def choice (answers : List Str) (draw : Nat) : Option Str := answers[draw % answers.length]?

/-- The first half of `_resolve_domain`: address literals need no query. -/
def resolveLiteral (address : SocketAddress) : Option GenericAddress :=
  if (inetPton .inet address.1).isSome then some { ipv4 := address }
  else if (inetPton .inet6 address.1).isSome then some { ipv6 := address }
  else none

/-- The record types queried; `dummy_resolve` stands for a family that is off. -/
def queries (hosts : ConnectHosts) : List Family :=
  [Family.inet, Family.inet6].filter (!hosts.off ·)

/-- The second half of `_resolve_domain`. -/
def resolveAnswers (hosts : ConnectHosts) (port : UInt16) (answers : DnsAnswers) : GenericAddress where
  ipv4 := if hosts.off .inet then none else (choice answers.a answers.draw4).map (·, port)
  ipv6 := if hosts.off .inet6 then none else (choice answers.aaaa answers.draw6).map (·, port)

/-- The family filter at the end of `resolve_address`. -/
def restrict (hosts : ConnectHosts) (result : GenericAddress) : GenericAddress :=
  if hosts.off .inet then { result with ipv4 := none }
  else if hosts.off .inet6 then { result with ipv6 := none }
  else result

/-- `resolve_address` up to its suspension: `none` when it waits for DNS. -/
def resolveNow (hosts : ConnectHosts) (kind : AddressType) (address : SocketAddress) :
    Option GenericAddress :=
  let result : Option GenericAddress := match kind with
    | .ipv4 => some { ipv4 := address }
    | .domain => resolveLiteral address
    | .ipv6 => some { ipv6 := address }
  result.map (restrict hosts)

/-- `resolve_address` once DNS has answered. -/
def resolveLater (hosts : ConnectHosts) (port : UInt16) (answers : DnsAnswers) : GenericAddress :=
  restrict hosts (resolveAnswers hosts port answers)

variable {hosts : ConnectHosts} {r : GenericAddress} {f : Family}

theorem choice_mem (chosen : choice answers draw = some text) : text ∈ answers :=
  List.mem_of_getElem? chosen

theorem restrict_family : (restrict hosts r).family f =
    if hosts.off f then none else r.family f := by
  cases f <;> cases h4 : hosts.ipv4 <;> cases h6 : hosts.ipv6 <;>
    simp [restrict, ConnectHosts.off, GenericAddress.family, h4, h6]

theorem off_host (set : hosts.bound) (on : hosts.off f = false) :
    ∃ host, hosts.family f = some host := by
  cases f <;> cases h4 : hosts.ipv4 <;> cases h6 : hosts.ipv6 <;>
    simp_all [ConnectHosts.bound, ConnectHosts.off, ConnectHosts.family]

theorem resolveLater_literal (literal : answers.Literal)
    (found : (resolveLater hosts port answers).family f = some address) :
    hosts.off f = false ∧ (inetPton f address.1).isSome := by
  rw [resolveLater, restrict_family] at found
  obtain ⟨on, found⟩ := Option.ite_none_left_eq_some.mp found
  refine ⟨Bool.eq_false_iff.mpr on, ?_⟩
  cases f with
  | inet =>
    simp only [GenericAddress.family, resolveAnswers, if_neg on, Option.map_eq_some_iff] at found
    obtain ⟨text, chosen, rfl⟩ := found
    exact literal.1 text (choice_mem chosen)
  | inet6 =>
    simp only [GenericAddress.family, resolveAnswers, if_neg on, Option.map_eq_some_iff] at found
    obtain ⟨text, chosen, rfl⟩ := found
    exact literal.2 text (choice_mem chosen)

theorem resolveNow_literal
    (literal4 : kind = .ipv4 → (inetPton .inet address.1).isSome)
    (literal6 : kind = .ipv6 → (inetPton .inet6 address.1).isSome)
    (now : resolveNow hosts kind address = some resolved) (found : resolved.family f = some peer) :
    hosts.off f = false ∧ (inetPton f peer.1).isSome := by
  simp only [resolveNow, Option.map_eq_some_iff] at now
  obtain ⟨result, made, rfl⟩ := now
  rw [restrict_family] at found
  obtain ⟨on, found⟩ := Option.ite_none_left_eq_some.mp found
  refine ⟨Bool.eq_false_iff.mpr on, ?_⟩
  cases kind with
  | ipv4 =>
    obtain rfl := Option.some.inj made
    cases f <;> simp_all [GenericAddress.family]
  | ipv6 =>
    obtain rfl := Option.some.inj made
    cases f <;> simp_all [GenericAddress.family]
  | domain =>
    simp only [resolveLiteral] at made
    split at made
    · obtain rfl := Option.some.inj made
      cases f <;> simp_all [GenericAddress.family]
    · obtain ⟨six, same⟩ := Option.ite_none_right_eq_some.mp made
      obtain rfl := Option.some.inj same
      cases f <;> simp_all [GenericAddress.family]

end HttpSocksProxy
