import Mathlib.Algebra.Order.Field.Rat
import HttpSocksProxy.Foundation.OrderedDict
import HttpSocksProxy.Server.Resolve

/-! Interface discovery and selection: what one scan says of an interface, the
records that `InterfaceRegistry` keeps of them, and their resolution. Times are
exact. -/
namespace HttpSocksProxy.Interfaces
open InetText

def auto : Str := "Auto".toList

def excludedPrefixes : List Str := ["lo", "ipsec", "awdl", "llw", "nan", "rd"].map String.toList

def startsWith (name : Str) (text : String) : Bool := text.toList.isPrefixOf name

def excluded (name : Str) : Bool := excludedPrefixes.any (·.isPrefixOf name)

inductive Kind where
  | bridge
  | cellular
  | tunnel
  | localLink
  | other
  deriving DecidableEq, Repr

def Kind.text : Kind → Str
  | bridge => "Personal Hotspot / bridge".toList
  | cellular => "Cellular".toList
  | tunnel => "VPN / tunnel".toList
  | localLink => "Local link (en*)".toList
  | other => "Other".toList

def classifyInterface (name : Str) : Kind :=
  if startsWith name "bridge" then .bridge
  else if startsWith name "pdp_ip" then .cellular
  else if startsWith name "utun" then .tunnel
  else if startsWith name "en" then .localLink
  else .other

/-- Neither unspecified, nor loopback, nor multicast. -/
def isUsableIpv4 (address : Str) : Bool :=
  match inetPton .inet address with
  | some value => value ≠ [0, 0, 0, 0] && value.head? ≠ some 127 &&
      value.head?.all fun first => first < 224 || 240 ≤ first
  | none => false

def ipv6Number (value : List UInt8) : Nat := value.foldl (fun n b => n * 256 + b.toNat) 0

def inNetwork (value : Nat) (network : Nat × Nat) : Bool :=
  value >>> (128 - network.2) = network.1 >>> (128 - network.2)

/-- The networks of `IPv6Address.is_private` up to CPython 3.11.9, each with its prefix
length. -/
def privateNetworks : List (Nat × Nat) :=
  [(1, 128), (0, 128), (0xffff <<< 32, 96), (0x100 <<< 112, 64), (0x2001 <<< 112, 23),
    (0x20010002 <<< 96, 48), (0x20010db8 <<< 96, 32), (0x20010010 <<< 96, 28), (0xfc <<< 120, 7),
    (0xfe80 <<< 112, 10)]

def isLinkLocal (value : Nat) : Bool := inNetwork value (0xfe80 <<< 112, 10)

def isPrivate (value : Nat) : Bool := privateNetworks.any (inNetwork value)

def isUsableIpv6 (address : Str) (allowLocal : Bool) : Bool :=
  match inetPton .inet6 (address.takeWhile (· ≠ '%')) with
  | some bytes =>
    let value := ipv6Number bytes
    value ≠ 0 && value ≠ 1 && (allowLocal || !isLinkLocal value && !isPrivate value)
  | none => false

inductive AddressFamily where
  | inet
  | inet6
  | other
  deriving DecidableEq, Repr

structure Address where
  family : AddressFamily
  address : Str
  deriving DecidableEq, Repr

/-- What the scanner lists: an interface name with one of its addresses. -/
structure Entry where
  name : Str
  addr : Option Address
  deriving DecidableEq, Repr

/-- A scan returns its entries or raises an exception with a text. -/
abbrev Scan := Except Str (List Entry)

/-- The fields of a fresh `InterfaceRecord`; its name is its key. -/
structure Sighting where
  kind : Kind
  ipv4 : Option Str := none
  ipv6 : Option Str := none
  deriving DecidableEq, Repr

def Sighting.assign (s : Sighting) (name : Str) (address : Address) : Sighting :=
  if address.family = .inet && isUsableIpv4 address.address then
    { s with ipv4 := some address.address }
  else if address.family = .inet6 && isUsableIpv6 address.address (startsWith name "utun") then
    { s with ipv6 := some address.address }
  else s

def Sighting.kept (s : Sighting) : Bool := s.ipv4.isSome || s.ipv6.isSome || s.kind = .localLink

def observe (found : OrderedDict Str Sighting) (e : Entry) : OrderedDict Str Sighting :=
  match e.addr with
  | none => found
  | some address =>
    if e.name = [] ∨ excluded e.name then found
    else
      let record := (found.get? e.name).getD ⟨classifyInterface e.name, none, none⟩
      found.set e.name (record.assign e.name address)

/-- `_snapshot` -/
def snapshot (entries : List Entry) : OrderedDict Str Sighting :=
  (entries.foldl observe .empty).filterMap fun _ s => if s.kept then some s else none

structure Record extends Sighting where
  available : Bool := true
  missCount : Nat := 0
  firstMissingAt : Option ℚ := none
  lastSeen : ℚ
  deriving DecidableEq, Repr

abbrev Records := OrderedDict Str Record

/-- The arguments of `InterfaceRegistry.__init__`. -/
structure Config where
  missingScans : Int := 3
  missingGrace : ℚ := 20
  cacheTtl : ℚ := 180

/-- `_missing_scans` -/
def Config.scans (config : Config) : Nat := (max 1 config.missingScans).toNat

/-- `_missing_grace` -/
def Config.grace (config : Config) : ℚ := max 0 config.missingGrace

/-- `_cache_ttl` -/
def Config.ttl (config : Config) : ℚ := max config.grace config.cacheTtl

/-- A record as a refresh writes it that sees its interface. -/
def Sighting.seen (s : Sighting) (now : ℚ) : Record := { s with lastSeen := now }

/-- A refresh that misses the interface ages its record or drops it. -/
def Record.missed (config : Config) (now : ℚ) (r : Record) : Option Record :=
  let missCount := r.missCount + 1
  let firstMissingAt := r.firstMissingAt.getD now
  let missingFor := now - firstMissingAt
  let available := !(config.scans ≤ missCount && config.grace ≤ missingFor)
  if config.ttl < now - r.lastSeen then none
  else some { r with available, missCount, firstMissingAt := some firstMissingAt }

theorem missed_missCount (aged : Record.missed config now r = some r') : r'.missCount ≠ 0 := by
  simp only [Record.missed] at aged
  split at aged
  · contradiction
  · cases Option.some.inj aged
    exact Nat.succ_ne_zero _

def merge (merged : OrderedDict Str Sighting) : Scan → OrderedDict Str Sighting
  | .ok entries => merged.update (snapshot entries)
  | .error _ => merged

def mergeScans (scans : List Scan) : OrderedDict Str Sighting := scans.foldl merge .empty

def scanErrors (scans : List Scan) : List Str :=
  scans.filterMap fun
    | .ok _ => none
    | .error e => some e

def publish (records : Records) (merged : OrderedDict Str Sighting) (now : ℚ) : Records :=
  merged.entries.foldl (fun records e => records.set e.1 (e.2.seen now)) records

/-- The part of `refresh` that holds the registry lock. -/
def commit (config : Config) (records : Records) (merged : OrderedDict Str Sighting) (now : ℚ) :
    Records :=
  (publish records merged now).filterMap fun name record =>
    if (merged.get? name).isSome then some record else record.missed config now

/-- The exception that `refresh` raises after its scans. -/
def scanFailure (scans : List Scan) : Option Str :=
  let errors := scanErrors scans
  if (mergeScans scans).entries = [] ∧ errors ≠ [] ∧ errors.length = scans.length then
    errors.getLast?
  else none

def refresh (config : Config) (records : Records) (scans : List Scan) (now : ℚ) :
    Except Str Records :=
  match scanFailure scans with
  | some e => .error e
  | none => .ok (commit config records (mergeScans scans) now)

def Kind.order : Kind → Nat
  | bridge => 0
  | localLink => 1
  | cellular => 2
  | tunnel => 3
  | other => 4

/-- The order of `_sort_key`. -/
def listedBefore (a b : Str × Record) : Bool :=
  let keyA := ((!a.2.available).toNat, a.2.kind.order)
  let keyB := ((!b.2.available).toNat, b.2.kind.order)
  keyA.1 < keyB.1 || keyA.1 = keyB.1 &&
    (keyA.2 < keyB.2 || keyA.2 = keyB.2 && !decide (b.1 < a.1))

/-- `records` -/
def listed (records : Records) : List (Str × Record) := records.entries.mergeSort listedBefore

theorem mem_listed {records : Records} :
    (name, r) ∈ listed records ↔ records.get? name = some r := by
  rw [listed, List.mem_mergeSort, OrderedDict.get?_eq_some]

/-- A refresh replaces the record of every interface it saw and ages the
others. -/
theorem get?_commit (config : Config) (records : Records) (merged : OrderedDict Str Sighting)
    (now : ℚ) (name : Str) : (commit config records merged now).get? name =
      match merged.get? name with
      | some s => some (s.seen now)
      | none => (records.get? name).bind (Record.missed config now) := by
  rw [commit, OrderedDict.get?_filterMap, publish,
    OrderedDict.get?_foldl_set (Sighting.seen · now) merged.entries merged.keyed]
  change ((merged.get? name).map _ |>.or _).bind _ = _
  cases merged.get? name <;> simp

theorem scanFailure_single (scan : Scan) :
    scanFailure [scan] = match scan with
      | .ok _ => none
      | .error e => some e := by
  cases scan with
  | ok entries => simp [scanFailure, scanErrors]
  | error e => simp [scanFailure, scanErrors, mergeScans, merge, OrderedDict.empty]

inductive Purpose where
  | proxy
  | outbound
  deriving DecidableEq, Repr

/-- `_score` -/
def score (purpose : Purpose) (preferVpn : Bool) (kind : Kind) : Nat :=
  match purpose, kind with
  | .proxy, .bridge => 500
  | .proxy, .localLink => 400
  | .proxy, .other => 200
  | .proxy, .cellular => 100
  | .proxy, .tunnel => 50
  | .outbound, .tunnel => if preferVpn then 500 else 300
  | .outbound, .cellular => 450
  | .outbound, .localLink => 350
  | .outbound, .other => 200
  | .outbound, .bridge => 100

structure ResolvedInterface where
  selection : Str
  name : Str
  kind : Kind
  ipv4 : Option Str
  ipv6 : Option Str
  deriving DecidableEq, Repr

def resolved (selection : Str) (item : Str × Record) : ResolvedInterface :=
  ⟨selection, item.1, item.2.kind, item.2.ipv4, item.2.ipv6⟩

/-- Listed now, not only remembered. -/
def Record.present (r : Record) : Bool := r.available && r.missCount = 0

def candidate (item : Str × Record) : Bool := item.2.present && item.2.ipv4.isSome

/-- Splits off the first candidate of every kind not seen before. -/
def byKind (seen : List Kind) : List (Str × Record) → List (Str × Record) × List (Str × Record)
  | [] => ([], [])
  | item :: rest =>
    if item.2.kind ∈ seen then
      ((byKind seen rest).1, item :: (byKind seen rest).2)
    else (item :: (byKind (item.2.kind :: seen) rest).1, (byKind (item.2.kind :: seen) rest).2)

def selectionText (selection : Str) : Str :=
  selection ++ " (".toList ++ (classifyInterface selection).text ++ ")".toList

/-- `resolve` of a name the user chose. -/
def resolveNamed (records : Records) (selection : Str) : Except Str ResolvedInterface :=
  match records.get? selection with
  | none => .error (selectionText selection ++ " is not currently available".toList)
  | some r =>
    if !r.present then .error (selectionText selection ++ " is not currently available".toList)
    else if r.ipv4.isNone then
      if r.ipv6.isSome then
        .error (selectionText selection ++ (" is IPv6-only; Stable Mode currently requires " ++
          "a usable IPv4 address for this route").toList)
      else .error (selectionText selection ++ " has no usable IP address".toList)
    else .ok (resolved selection (selection, r))

def probed (probe : Str → Bool) (item : Str × Record) : Bool := item.2.ipv4.any probe

/-- `resolve` of `Auto`. -/
def resolveAuto (records : Records) (probe : Str → Bool) (purpose : Purpose)
    (currentName : Option Str) (preferVpn : Bool) : Except Str ResolvedInterface :=
  let candidates := records.entries.filter candidate
  let sorted := candidates.mergeSort fun a b =>
    score purpose preferVpn b.2.kind ≤ score purpose preferVpn a.2.kind
  let tried := match purpose with
    | .proxy => []
    | .outbound => ((byKind [] sorted).1 ++ (byKind [] sorted).2).take 5
  let current := candidates.find? fun item => some item.1 = currentName
  match (current.filter fun item => purpose = .proxy || probed probe item).or
      ((tried.find? (probed probe)).or sorted.head?) with
  | some item => .ok (resolved auto item)
  | none => .error "No usable IPv4 interfaces are available".toList

def resolve (records : Records) (probe : Str → Bool) (selection : Str) (purpose : Purpose)
    (currentName : Option Str) (preferVpn : Bool) : Except Str ResolvedInterface :=
  if selection = auto then resolveAuto records probe purpose currentName preferVpn
  else resolveNamed records selection

theorem mem_byKind (seen : List Kind) {items : List (Str × Record)} :
    item ∈ (byKind seen items).1 ∨ item ∈ (byKind seen items).2 ↔ item ∈ items := by
  induction items generalizing seen with
  | nil => simp [byKind]
  | cons first rest ih =>
    rw [byKind]
    split
    · simp only [List.mem_cons, ← ih seen]
      exact or_left_comm
    · simp only [List.mem_cons, ← ih (first.2.kind :: seen)]
      exact or_assoc

theorem resolveNamed_eq_ok {records : Records} {selection : Str} :
    resolveNamed records selection = .ok r ↔ ∃ record, records.get? selection = some record ∧
      candidate (selection, record) = true ∧ r = resolved selection (selection, record) := by
  simp only [resolveNamed]
  cases records.get? selection with
  | none => simp only [reduceCtorEq, false_and, exists_false]
  | some record =>
    have only : (∃ found, some record = some found ∧ candidate (selection, found) = true ∧
        r = resolved selection (selection, found)) ↔ (record.present = true ∧
          record.ipv4.isSome = true) ∧ r = resolved selection (selection, record) := by
      simp [candidate]
    rw [only]
    dsimp only
    split
    case isTrue gone =>
      rw [Bool.not_eq_true'] at gone
      simp only [gone, Bool.false_eq_true, reduceCtorEq, false_and]
    case isFalse here =>
      rw [Bool.not_eq_true', Bool.not_eq_false] at here
      split
      case isTrue bare =>
        rw [Option.isNone_iff_eq_none] at bare
        split <;> simp only [bare, Option.isSome_none, Bool.false_eq_true, reduceCtorEq, and_false,
          false_and]
      case isFalse addressed =>
        rw [Option.isNone_iff_eq_none, ← ne_eq, Option.ne_none_iff_isSome] at addressed
        simp only [here, addressed, and_self, true_and, Except.ok.injEq]
        exact eq_comm

theorem resolveAuto_candidate {records : Records}
    (chosen : resolveAuto records probe purpose currentName preferVpn = .ok r) :
    ∃ item ∈ records.entries, candidate item = true ∧ r = resolved auto item := by
  simp only [resolveAuto] at chosen
  split at chosen
  case h_1 item found =>
    cases Except.ok.inj chosen
    refine ⟨item, ?_⟩
    rw [← and_assoc, and_iff_left rfl, ← List.mem_filter]
    rcases Option.or_eq_some_iff.mp found with current | ⟨_, other⟩
    · exact List.mem_of_find?_eq_some (Option.filter_eq_some_iff.mp current).1
    · rcases Option.or_eq_some_iff.mp other with tried | ⟨_, first⟩
      · have member := List.mem_of_find?_eq_some tried
        cases purpose with
        | proxy => simp at member
        | outbound =>
          have member := List.mem_append.mp (List.mem_of_mem_take member)
          exact List.mem_mergeSort.mp ((mem_byKind _).mp member)
      · exact List.mem_mergeSort.mp (List.mem_of_head? first)
  case h_2 => contradiction

/-- What `resolve` returns was read off one candidate record. -/
theorem resolve_candidate {records : Records}
    (chosen : resolve records probe selection purpose currentName preferVpn = .ok r) :
    ∃ record, records.get? r.name = some record ∧ candidate (r.name, record) = true ∧
      r = resolved r.selection (r.name, record) := by
  simp only [resolve] at chosen
  split at chosen
  case isTrue =>
    obtain ⟨⟨name, record⟩, member, fit, rfl⟩ := resolveAuto_candidate chosen
    exact ⟨record, OrderedDict.get?_eq_some.mpr member, fit, rfl⟩
  case isFalse =>
    obtain ⟨record, found, fit, rfl⟩ := resolveNamed_eq_ok.mp chosen
    exact ⟨record, found, fit, rfl⟩

end HttpSocksProxy.Interfaces
