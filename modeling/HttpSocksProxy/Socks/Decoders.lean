import HttpSocksProxy.Socks.Negotiation

/-! The two copies of `read_addrport`: the one of `UdpForwarder` over the rest of a
datagram, and the one of `AsyncSocks5Handler` over a stream. Both parse what
`readAddrport` on byte strings parses. -/
namespace HttpSocksProxy.Socks

theorem readRaw_domain : readRaw .domain = fun input =>
    (readall 1 input).bind fun (length, rest) => readall (length.headD 0).toNat rest := by
  funext input
  cases input <;> rfl

/-- What both decoders do with the bytes of an address. -/
theorem readAddrport_steps (kind : AddressType) (result : SocketAddress → α) :
    (fun input => (readAddrport kind input).map (Prod.map result id)) =
      fun input => (readRaw kind input).bind fun (raw, rest) =>
        ((addressText kind raw).map fun text => (text, rest)).bind fun (text, rest) =>
          (readall 2 rest).bind fun (port, rest) => some (result (text, unpackPort port), rest) := by
  funext input
  simp only [readAddrport, Option.bind_eq_bind, Option.pure_def]
  cases readRaw kind input with
  | none => rfl
  | some first =>
    obtain ⟨raw, rest⟩ := first
    simp only [Option.bind_some]
    cases addressText kind raw with
    | none => rfl
    | some text =>
      simp only [Option.bind_some, Option.map_some]
      cases readall 2 rest <;> rfl

end HttpSocksProxy.Socks

namespace HttpSocksProxy.Sockfile
open ByteStream Effect Socks

/-- What `UdpForwarder.read_addrport` raises; no loop of it is exhausted. -/
inductive Malformed where
  | eofError
  | unicodeDecodeError
  | exhausted
  deriving DecidableEq, Repr

/-- A parser of a `BytesIO`, whose state is what it has not read yet. -/
abbrev Parser := EStateM Malformed (List UInt8)

def read (n : Nat) : Parser (List UInt8) := fun rest => .ok (rest.take n) (rest.drop n)

def readallStep (n : Nat) (res : List UInt8) : Parser (List UInt8 ⊕ List UInt8) :=
  if res.length < n then do
    let chunk ← read (n - res.length)
    if chunk = [] then throw .eofError else return .inl (res ++ chunk)
  else return .inr res

/-- `readall` -/
def readall (n : Nat) : Parser (List UInt8) := loop .exhausted (readallStep n) (n + 1) []

/-- `bytes.decode()` of a domain, `inet_ntop` of the other types. -/
def address (kind : AddressType) (raw : List UInt8) : Parser Str :=
  match addressText kind raw with
  | some text => return text
  | none => throw .unicodeDecodeError

def readBody : AddressType → Parser (List UInt8)
  | .ipv4 => readall 4
  | .domain => do
    let length ← readall 1
    readall (length.headD 0).toNat
  | .ipv6 => readall 16

/-- `UdpForwarder.read_addrport`; `none` is an unknown type. -/
def readAddrport (addressType : UInt8) : Parser (Option SocketAddress) :=
  match AddressType.ofByte addressType with
  | none => return none
  | some kind => do
    let raw ← readBody kind
    let text ← address kind raw
    let port ← readall 2
    return some (text, unpackPort port)

/-- The parser takes from a buffer what the parser of byte strings takes. -/
abbrev Reads (x : Parser α) (parser : List UInt8 → Option (α × List UInt8)) : Prop :=
  Parses id (fun _ => True) (· ≠ .exhausted) x parser

theorem readall_reads (n : Nat) : Reads (readall n) (Socks.readall n) := by
  intro whole _
  refine After.loop (fun res rest => res ++ rest = whole ∧ res.length ≤ n) (fun res _ => n - res.length)
    ?_ ⟨rfl, Nat.zero_le n⟩ (Nat.lt_succ_self n)
  rintro res rest ⟨same, few⟩
  simp only [readallStep]
  have total := congrArg List.length same
  rw [List.length_append] at total
  split
  case isTrue more =>
    change After (if rest.take (n - res.length) = [] then _ else _) (rest.drop (n - res.length)) _ _
    split
    case isTrue ended =>
      have empty : rest = [] := (List.take_eq_nil_iff.mp ended).resolve_left (by omega)
      refine ⟨nofun, ?_⟩
      rw [empty, List.length_nil] at total
      exact if_neg (show ¬ n ≤ whole.length by omega)
    case isFalse goes =>
      have filled := List.length_pos_of_ne_nil goes
      rw [List.length_take] at filled
      refine ⟨⟨?_, ?_⟩, ?_⟩
      · rw [List.append_assoc, List.take_append_drop, same]
      · rw [List.length_append, List.length_take]
        omega
      · rw [List.length_append, List.length_take]
        omega
  case isFalse =>
    obtain rfl : res.length = n := by omega
    refine ⟨trivial, ?_⟩
    rw [id, Socks.readall, if_pos (by rw [← same]; simp), ← same]
    simp

theorem readBody_reads (kind : AddressType) : Reads (readBody kind) (readRaw kind) := by
  cases kind with
  | ipv4 => exact readall_reads 4
  | ipv6 => exact readall_reads 16
  | domain =>
    rw [readRaw_domain]
    exact (readall_reads 1).bind fun length => readall_reads (length.headD 0).toNat

theorem address_reads (kind : AddressType) (raw : List UInt8) :
    Reads (address kind raw) fun input => (addressText kind raw).map fun text => (text, input) := by
  simp only [address]
  cases addressText kind raw with
  | some text => exact Parses.pure text
  | none => exact Parses.throw nofun

/-- The decoder of a datagram. -/
theorem readAddrport_reads (known : AddressType.ofByte addressType = some kind) :
    Reads (readAddrport addressType) fun input =>
      (Socks.readAddrport kind input).map (Prod.map some id) := by
  rw [readAddrport_steps]
  simp only [readAddrport, known]
  exact (readBody_reads kind).bind fun raw => (address_reads kind raw).bind fun text =>
    (readall_reads 2).bind fun port => Parses.pure (some (text, unpackPort port))

end HttpSocksProxy.Sockfile

namespace HttpSocksProxy.Negotiation
open ByteStream Effect Socks

/-- The handler takes from a healthy stream what the parser of byte strings takes. -/
abbrev Reads (x : Handler α) (parser : List UInt8 → Option (α × List UInt8)) : Prop :=
  Parses (fun s : Session => s.reader.content) (fun s => s.reader.fault = none) (fun _ => True) x parser

theorem initialReadexactly_reads (n : Nat) : Reads (initialReadexactly n) (readall n) := by
  intro s healthy
  simp only [readall, After, initialReadexactly]
  by_cases enough : n ≤ s.reader.content.length
  case pos =>
    obtain ⟨reader, got, rest, fault⟩ := Reader.readexactly_content healthy enough
    rw [got, if_pos enough]
    exact ⟨fault, by rw [rest]⟩
  case neg =>
    obtain ⟨received, failed⟩ := Reader.readexactly_short healthy (Nat.lt_of_not_le enough)
    rw [failed, if_neg enough]
    exact ⟨trivial, rfl⟩

theorem readBody_reads (kind : AddressType) : Reads (readBody kind) (readRaw kind) := by
  cases kind with
  | ipv4 => exact initialReadexactly_reads 4
  | ipv6 => exact initialReadexactly_reads 16
  | domain =>
    rw [readRaw_domain]
    exact (initialReadexactly_reads 1).bind fun length => initialReadexactly_reads (length.headD 0).toNat

theorem orRaise_reads (value : Option α) :
    Reads (orRaise value) fun input => value.map fun a => (a, input) := by
  cases value with
  | some a => exact Parses.pure a
  | none => exact Parses.throw trivial

/-- The decoder of a stream. -/
theorem readAddrport_reads (known : AddressType.ofByte addressType = some kind) :
    Reads (readAddrport addressType) fun input =>
      (Socks.readAddrport kind input).map (Prod.map (fun address => some (kind, address)) id) := by
  rw [readAddrport_steps kind fun address => some (kind, address)]
  simp only [readAddrport, known]
  exact (readBody_reads kind).bind fun raw => (orRaise_reads (addressText kind raw)).bind fun text =>
    (initialReadexactly_reads 2).bind fun port => Parses.pure (some (kind, text, unpackPort port))

/-- Whatever the type byte, the bytes and the pieces in which they arrive: both
decoders return the same address and leave the same bytes, or both know no such
type and leave all of them, or both raise. -/
theorem decoders_agree (addressType : UInt8) (buffer : List UInt8) (pieces : List (List UInt8))
    (trace : List Action) :
    let stream := readAddrport addressType ⟨⟨buffer, pieces, none⟩, trace⟩
    let sockfile := Sockfile.readAddrport addressType (buffer ++ pieces.flatten)
    (∃ kind address t rest, stream = .ok (some (kind, address)) t ∧ sockfile = .ok (some address) rest ∧
        t.reader.content = rest) ∨
      (∃ t rest, stream = .ok none t ∧ sockfile = .ok none rest ∧
        t.reader.content = buffer ++ pieces.flatten ∧ rest = buffer ++ pieces.flatten) ∨
      ∃ e t e' rest, stream = .error e t ∧ sockfile = .error e' rest ∧ e' ≠ .exhausted := by
  intro stream sockfile
  cases known : AddressType.ofByte addressType with
  | none =>
    refine .inr (.inl ⟨⟨⟨buffer, pieces, none⟩, trace⟩, _, ?_, ?_, rfl, rfl⟩)
    · simp only [stream, readAddrport, known]
      rfl
    · simp only [sockfile, Sockfile.readAddrport, known]
      rfl
  | some kind =>
    have healthy : (⟨⟨buffer, pieces, none⟩, trace⟩ : Session).reader.fault = none := rfl
    rcases (readAddrport_reads known).agree (Sockfile.readAddrport_reads known) healthy trivial rfl with
      ⟨address, t, rest, ran, ran', same⟩ | ⟨e, t, e', rest, ran, ran', _, expected⟩
    · exact .inl ⟨kind, address, t, rest, ran, ran', same⟩
    · exact .inr (.inr ⟨e, t, e', rest, ran, ran', expected⟩)

end HttpSocksProxy.Negotiation
