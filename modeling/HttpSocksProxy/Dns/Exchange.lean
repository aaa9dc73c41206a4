import HttpSocksProxy.Dns.Pton
import HttpSocksProxy.Dns.Reply
import HttpSocksProxy.Dns.RoundTrip

/-! One exchange with a nameserver: a datagram that has to come from it, or a message
behind its length on a stream. -/
namespace HttpSocksProxy.Dns
open InetText Socks ByteStream Transition

/-- A socket address: the text of the host and the numbers behind it. -/
structure Endpoint where
  host : List Char
  rest : List Nat
  deriving DecidableEq

structure Datagram where
  wire : List UInt8
  source : Endpoint

namespace Inet

/-- `dns.inet.is_multicast`. -/
def isMulticast (text : List Char) : Option Bool :=
  match inetPton .inet text with
  | some address => address.head?.map fun first => 224 ≤ first ∧ first ≤ 239
  | none => (inetPton .inet6 text).bind fun address => address.head?.map fun first => first = 255

/-- `low_level_address_tuple`; `index` is `socket.if_nametoindex`. -/
def lowLevelAddress (index : List Char → Option Nat) (f : Family) (address : List Char) (port : Nat) :
    Option Endpoint :=
  match f with
  | .inet => some ⟨address, [port]⟩
  | .inet6 =>
    match address.dropWhile (· ≠ '%') with
    | [] => some ⟨address, [port, 0, 0]⟩
    | _ :: scope =>
      (if isDigits scope then numeralValue 10 scope else index scope).map fun number =>
        ⟨address.takeWhile (· ≠ '%'), [port, 0, number]⟩

end Inet

/-- `_addresses_equal`. -/
def addressesEqual (f : Family) (a b : Endpoint) : Bool :=
  match Inet.inetPton f a.host, Inet.inetPton f b.host with
  | some n, some n' => n = n' ∧ a.rest = b.rest
  | _, _ => false

/-- `_matches_destination`; the destination is an address. -/
def matchesDestination (f : Family) (source destination : Endpoint) (ignoreUnexpected : Bool) :
    Except ExchangeError Bool :=
  if addressesEqual f source destination then .ok true
  else match Inet.isMulticast destination.host with
    | none => .error .valueError
    | some multicast =>
      if multicast ∧ source.rest = destination.rest then .ok true
      else if ignoreUnexpected then .ok false
      else .error .unexpectedSource

/-- The loop of `receive_udp`, over what the socket receives before it fails. -/
def receiveUdp (f : Family) (destination : Endpoint) (ignoreUnexpected : Bool) (failure : QueryError) :
    List Datagram → Except ExchangeError (List UInt8)
  | [] => .error (.backend failure)
  | d :: later => do
    if ← matchesDestination f d.source destination ignoreUnexpected then return d.wire
    receiveUdp f destination ignoreUnexpected failure later

def eofOr : ByteStream.Failure QueryError → ExchangeError
  | .raised e => .backend e
  | _ => .eof

/-- `_read_exactly`, with what it has read so far. -/
def readExactly (count : Nat) (s : List UInt8) (r : Reader QueryError) :
    Except ExchangeError (List UInt8 × Reader QueryError) :=
  if count = 0 then .ok (s, r)
  else match r.read count with
    | .error e => .error (eofOr e)
    | .ok (n, r) => if n = [] then .error .eof else readExactly (count - n.length) (s ++ n) r
termination_by count
decreasing_by
  have := List.length_pos_iff.mpr ‹n ≠ []›
  omega

section
variable (update : List UInt8 → ExchangeError)

/-- `udp`, for an open socket. -/
def udp (f : Family) (destination : Endpoint) (ignoreUnexpected raiseOnTruncation : Bool) (q : Message)
    (failure : QueryError) (arrivals : List Datagram) : Except ExchangeError Reply :=
  (receiveUdp f destination ignoreUnexpected failure arrivals).bind (Reply.accept update q raiseOnTruncation)

/-- `tcp`, on a connection that has taken the request. -/
def tcp (q : Message) (r : Reader QueryError) : Except ExchangeError Reply := do
  let (ldata, r) ← readExactly 2 [] r
  let (wire, _) ← readExactly (unpackPort ldata).toNat [] r
  Reply.accept update q false wire

end

section Streams
variable {r r' : Reader QueryError}

theorem readExactly_ok (done : readExactly count s r = .ok (bytes, r')) :
    ∃ taken n, bytes = s ++ taken ∧ taken.length = count ∧ r.content = taken ++ r'.content ∧ Reader.Spent n r r' := by
  fun_induction readExactly count s r with
  | case1 =>
    cases done
    exact ⟨[], 0, (List.append_nil _).symm, rfl, rfl, .refl _⟩
  | case2 => cases done
  | case3 => cases done
  | case4 count s r waiting n r'' read some ih =>
    obtain ⟨content, short, _, spent⟩ := Reader.read_ok read
    obtain ⟨taken, k, whole, length, rest, later⟩ := ih done
    refine ⟨n ++ taken, 1 + k, by rw [whole, List.append_assoc], ?_, ?_, spent.trans later⟩
    · rw [List.length_append, length]
      omega
    · rw [content, rest, List.append_assoc]

/-- An exact read fails when the stream is too short, or with its connection. -/
theorem readExactly_error (failed : readExactly count s r = .error e) :
    e = .eof ∧ r.content.length < count ∨ ∃ n ex, r.fault = some (n, ex) ∧ e = .backend ex := by
  fun_induction readExactly count s r with
  | case1 => cases failed
  | case2 count s r waiting e read =>
    obtain ⟨ex, rfl, fault⟩ := Reader.read_error read
    cases failed
    exact .inr ⟨0, ex, fault, rfl⟩
  | case3 count s r waiting r' read =>
    obtain ⟨content, _, ended, _⟩ := Reader.read_ok read
    cases failed
    refine .inl ⟨rfl, ?_⟩
    rw [ended (Nat.pos_of_ne_zero waiting) rfl]
    exact Nat.pos_of_ne_zero waiting
  | case4 count s r waiting n r' read some ih =>
    obtain ⟨content, short, _, spent⟩ := Reader.read_ok read
    rcases ih failed with ⟨eof, few⟩ | ⟨k, ex, fault, raised⟩
    · refine .inl ⟨eof, ?_⟩
      rw [content, List.length_append]
      omega
    · exact .inr ⟨1 + k, ex, by rw [spent, fault]; rfl, raised⟩

/-- The message behind its length. -/
def framed (content : List UInt8) : Option (List UInt8) :=
  let size := (unpackPort (content.take 2)).toNat
  if content.length < 2 + size then none else some ((content.drop 2).take size)

theorem tcp_judged (update : List UInt8 → ExchangeError) (q : Message) (r : Reader QueryError) :
    tcp update q r = (match framed r.content with
      | none => .error .eof
      | some wire => Reply.accept update q false wire) ∨
    ∃ n ex, r.fault = some (n, ex) ∧ tcp update q r = .error (.backend ex) := by
  cases first : readExactly 2 [] r with
  | error e =>
    have failed : tcp update q r = .error e := by rw [tcp, first]; rfl
    rcases readExactly_error first with ⟨rfl, short⟩ | ⟨n, ex, fault, rfl⟩
    · have none : framed r.content = none := if_pos (by omega)
      exact .inl (by rw [failed, none])
    · exact .inr ⟨n, ex, fault, failed⟩
  | ok result =>
    obtain ⟨ldata, r'⟩ := result
    obtain ⟨_, n, rfl, two, content, spent⟩ := readExactly_ok first
    have size : r.content.take 2 = ldata := by rw [content, ← two, List.take_left]
    have behind : r.content.drop 2 = r'.content := by rw [content, ← two, List.drop_left]
    have length : r.content.length = 2 + r'.content.length := by rw [content, List.length_append, two]
    have second : tcp update q r = (readExactly (unpackPort ldata).toNat [] r').bind fun read =>
        Reply.accept update q false read.1 := by
      rw [tcp, first]
      rfl
    rw [second]
    cases later : readExactly (unpackPort ldata).toNat [] r' with
    | error e =>
      rcases readExactly_error later with ⟨rfl, short⟩ | ⟨k, ex, fault, rfl⟩
      · have none : framed r.content = none := by
          rw [framed, size]
          exact if_pos (by omega)
        exact .inl (by rw [none]; rfl)
      · exact .inr ⟨n + k, ex, by rw [spent, fault]; rfl, rfl⟩
    | ok result =>
      obtain ⟨wire, r''⟩ := result
      obtain ⟨_, k, rfl, whole, rest, _⟩ := readExactly_ok later
      have enough : framed r.content = some wire := by
        have long : r'.content.length = (unpackPort ldata).toNat + r''.content.length := by
          rw [rest, List.length_append, whole]
        rw [framed, size, behind, rest, ← whole, List.take_left]
        exact if_neg (by omega)
      exact .inl (by rw [enough]; rfl)

/-- What a TCP exchange comes to is told by the bytes that the nameserver sends,
however they are cut into pieces, unless the connection fails. -/
theorem tcp_content (update : List UInt8 → ExchangeError) (q : Message) :
    (∀ r : Reader QueryError, tcp update q r = (match framed r.content with
        | none => .error .eof
        | some wire => Reply.accept update q false wire) ∨
      ∃ n ex, r.fault = some (n, ex) ∧ tcp update q r = .error (.backend ex)) ∧
    ∀ r r' : Reader QueryError, r.fault = none → r'.fault = none → r.content = r'.content →
      tcp update q r = tcp update q r' := by
  refine ⟨tcp_judged update q, fun r r' healthy healthy' same => ?_⟩
  have judged {r : Reader QueryError} (healthy : r.fault = none) := (tcp_judged update q r).resolve_right
    fun ⟨_, _, fault, _⟩ => Option.some_ne_none _ (fault.symm.trans healthy)
  rw [judged healthy, judged healthy', same]

theorem tcp_framed (update : List UInt8 → ExchangeError) (q : Message) (healthy : r.fault = none)
    (small : wire.length ≤ 65535) (content : r.content = packShort wire.length ++ (wire ++ rest)) :
    tcp update q r = Reply.accept update q false wire := by
  rcases tcp_judged update q r with result | ⟨n, ex, fault, _⟩
  · have length : (unpackPort (packShort wire.length)).toNat = wire.length := by
      rw [packShort_packPort (by omega), unpackPort_packPort]
      simp only [Nat.toUInt16_eq, UInt16.toNat_ofNat']
      omega
    have message : framed r.content = some wire := by
      have two : (packShort wire.length).length = 2 := rfl
      rw [framed, content, List.take_left' two, List.drop_left' two, length, List.take_left]
      refine if_neg ?_
      simp only [List.length_append, two]
      omega
    rw [result, message]
  · rw [healthy] at fault
    cases fault

end Streams

section Honest
variable {number flags : UInt16} {maxSize : Nat} {origin : Option Name} {past : Past} {r r' : Renderer}
  {asked : Question}

theorem readMessage_header (read : readMessage wire = .ok m) :
    12 ≤ wire.length ∧ m.flags = unpackPort ((wire.drop 2).take 2) := by
  unfold readMessage at read
  dsimp only at read
  split at read
  case isTrue => cases read
  case isFalse long =>
  obtain ⟨⟨header, p₀⟩, got, read⟩ := bind_ok.mp read
  obtain ⟨⟨question, p₁⟩, _, read⟩ := bind_ok.mp read
  obtain ⟨⟨answer, opt₁, p₂⟩, _, read⟩ := bind_ok.mp read
  obtain ⟨⟨authority, opt₂, p₃⟩, _, read⟩ := bind_ok.mp read
  obtain ⟨⟨additional, opt₃, p₄⟩, _, read⟩ := bind_ok.mp read
  dsimp only at read
  split at read
  case isTrue => cases read
  cases read
  obtain ⟨_, rfl⟩ := Parser.getBytes_ok (mapError_ok.mp got)
  refine ⟨?_, ?_⟩
  · simp only [Parser.remaining] at long
    omega
  · simp only [List.drop_zero, Nat.mul_one, List.drop_take, List.take_take]
    rfl

/-- A message of a known kind that is not cut off is read. -/
theorem fromWire_reads (update : List UInt8 → ExchangeError) (read : readMessage wire = .ok m)
    (querying : Message.opcodeOf m.flags = 0) (whole : ¬ (raiseOnTruncation = true ∧ m.flags &&& 0x200 ≠ 0)) :
    Reply.fromWire update raiseOnTruncation wire = .ok ⟨m, readMessage_fits read⟩ := by
  obtain ⟨long, flags⟩ := readMessage_header read
  rw [flags] at querying whole
  unfold Reply.fromWire
  rw [if_neg (by omega)]
  dsimp only
  rw [if_neg (by rw [querying]; decide), if_neg (by rw [querying]; decide)]
  split
  case h_1 failed => rw [read] at failed; cases failed
  case h_2 message again =>
    rw [if_neg whole]
    cases again.symm.trans read
    rfl

end Honest

end HttpSocksProxy.Dns
