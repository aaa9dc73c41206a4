import HttpSocksProxy.Socks.Association

/-! The UDP header of SOCKS5: what `on_server_datagram` puts in front of a payload
is what `on_client_datagram` reads, in both directions. -/
namespace HttpSocksProxy.Udp
open InetText Socks

def addressType : Family → AddressType
  | .inet => .ipv4
  | .inet6 => .ipv6

def typeByte : Family → UInt8
  | .inet => 1
  | .inet6 => 4

theorem ofByte_typeByte (f : Family) : AddressType.ofByte (typeByte f) = some (addressType f) := by
  cases f <;> rfl

theorem ofByte_binary (known : AddressType.ofByte b = some kind) (binary : kind ≠ .domain) :
    ∃ f, kind = addressType f ∧ b = typeByte f := by
  unfold AddressType.ofByte at known
  split at known
  · exact ⟨.inet, (Option.some.inj known).symm, rfl⟩
  · exact absurd (Option.some.inj known).symm binary
  · exact ⟨.inet6, (Option.some.inj known).symm, rfl⟩
  · cases known

theorem encodeAddress_pton (parsed : inetPton f text = some bytes) (port : UInt16) :
    encodeAddress (some (text, port)) = some (typeByte f :: bytes ++ packPort port) := by
  cases f with
  | inet => simp only [encodeAddress, parsed, typeByte]
  | inet6 =>
    have other : inetPton .inet text = none := pton6_not_pton4 parsed
    simp only [encodeAddress, other, parsed, Option.map_some, typeByte]

theorem encodeAddress_some (encoded : encodeAddress (some (text, port)) = some bytes) :
    ∃ f address, inetPton f text = some address := by
  simp only [encodeAddress] at encoded
  split at encoded
  case h_1 address parsed => exact ⟨.inet, address, parsed⟩
  case h_2 =>
    obtain ⟨address, parsed, _⟩ := Option.map_eq_some_iff.mp encoded
    exact ⟨.inet6, address, parsed⟩

theorem readall_append (size : raw.length = n) (rest : List UInt8) :
    readall n (raw ++ rest) = some (raw, rest) := by
  have enough : n ≤ (raw ++ rest).length := by
    rw [List.length_append]
    omega
  rw [readall, if_pos enough, List.take_left' size, List.drop_left' size]

theorem readRaw_binary (f : Family) (bytes : List UInt8) :
    readRaw (addressType f) bytes = readall f.size bytes := by
  cases f <;> rfl

theorem addressText_binary (f : Family) (raw : List UInt8) :
    addressText (addressType f) raw = some (inetNtop f raw) := by
  cases f <;> rfl

/-- A binary address reads back, in its canonical spelling. -/
theorem readAddrport_binary (size : raw.length = f.size) (port : UInt16) (rest : List UInt8) :
    readAddrport (addressType f) (raw ++ packPort port ++ rest) = some ((inetNtop f raw, port), rest) := by
  have two : (packPort port).length = 2 := rfl
  simp only [readAddrport, List.append_assoc, readRaw_binary, readall_append size,
    Option.bind_eq_bind, Option.bind_some, addressText_binary, readall_append two, unpackPort_packPort,
    Option.pure_def]

theorem readall_some (read : readall n bytes = some (raw, rest)) :
    bytes = raw ++ rest ∧ raw.length = n := by
  refine ⟨?_, readall_length read⟩
  obtain ⟨_, same⟩ := Option.ite_none_right_eq_some.mp read
  obtain ⟨rfl, rfl⟩ := Prod.mk.inj (Option.some.inj same)
  exact (List.take_append_drop n bytes).symm

/-- What is read as a binary address is its bytes and its port. -/
theorem readAddrport_bytes (read : readAddrport (addressType f) bytes = some (address, rest)) :
    ∃ raw port, raw.length = f.size ∧ address = (inetNtop f raw, port) ∧
      bytes = raw ++ packPort port ++ rest := by
  simp only [readAddrport, Option.bind_eq_bind, Option.bind_eq_some_iff, readRaw_binary,
    addressText_binary] at read
  obtain ⟨⟨raw, more⟩, got, text, printed, ⟨port, left⟩, last, result⟩ := read
  obtain ⟨rfl, size⟩ := readall_some got
  obtain ⟨rfl, two⟩ := readall_some last
  obtain ⟨rfl, rfl⟩ := by simpa using result
  obtain rfl := Option.some.inj printed
  exact ⟨raw, unpackPort port, size, rfl, by rw [packPort_unpackPort two, List.append_assoc]⟩

theorem parse_header (known : AddressType.ofByte b = some kind)
    (read : readAddrport kind rest = some (address, payload)) (hi lo : UInt8) :
    parse (hi :: lo :: 0 :: b :: rest) = some { kind, address, payload } := by
  simp [parse, known, read]

theorem parse_some (parsed : parse data = some request) : ∃ hi lo b rest,
    data = hi :: lo :: 0 :: b :: rest ∧ AddressType.ofByte b = some request.kind ∧
      readAddrport request.kind rest = some (request.address, request.payload) := by
  unfold parse at parsed
  split at parsed
  case h_2 => cases parsed
  case h_1 hi lo frag b rest =>
    obtain ⟨whole, parsed⟩ := Option.ite_none_left_eq_some.mp parsed
    simp only [Option.bind_eq_bind, Option.bind_eq_some_iff] at parsed
    obtain ⟨kind, known, ⟨address, payload⟩, read, same⟩ := parsed
    cases Option.some.inj same
    obtain rfl : frag = 0 := by simpa using whole
    exact ⟨hi, lo, b, rest, rfl, known, read⟩

/-- The header that goes in front of a payload from an address reads back. -/
theorem parse_encapsulated (parsed : inetPton f text = some bytes) (port : UInt16) (payload : List UInt8) :
    parse ([0, 0, 0] ++ (typeByte f :: bytes ++ packPort port) ++ payload) =
      some ⟨addressType f, (inetNtop f bytes, port), payload⟩ :=
  parse_header (ofByte_typeByte f) (readAddrport_binary (inetPton_length parsed) port payload) 0 0

/-- What is sent to the client is the header, the address of the sender and the data. -/
theorem client_datagram (sent : .client datagram client ∈ (onServerDatagram cfg s endpoint data sender).1) :
    ∃ address, encodeAddress (some sender) = some address ∧ datagram = [0, 0, 0] ++ address ++ data := by
  have evictions {s : State} : .client datagram client ∉ (pruneMappings cfg s).1 := by
    simp [pruneMappings]
  simp only [onServerDatagram] at sent
  split at sent
  · exact absurd sent evictions
  · rcases List.mem_append.mp sent with before | reply
    · rcases List.mem_append.mp before with evicted | counted
      · exact absurd evicted evictions
      · simp at counted
    · split at reply
      case h_1 address encoded =>
        split at reply
        · simp only [List.mem_singleton, Output.client.injEq] at reply
          exact ⟨address, encoded, reply.1⟩
        · simp at reply
      case h_2 => simp at reply

/-- What goes to the client reads back as the canonical address of the sender, its
port and the payload, and every address has such a header; what reads as a binary
address is the header of that address and its payload. -/
theorem encapsulation_round_trip (cfg : Config) (s : State) (endpoint : Family) :
    (∀ data sender datagram client,
      .client datagram client ∈ (onServerDatagram cfg s endpoint data sender).1 →
      ∃ f bytes, inetPton f sender.1 = some bytes ∧
        parse datagram = some ⟨addressType f, (inetNtop f bytes, sender.2), data⟩) ∧
    (∀ f text bytes port, inetPton f text = some bytes →
      ∃ address, encodeAddress (some (text, port)) = some address ∧
        ∀ data, parse ([0, 0, 0] ++ address ++ data) =
          some ⟨addressType f, (inetNtop f bytes, port), data⟩) ∧
    ∀ data request, parse data = some request → request.kind ≠ .domain → data.take 2 = [0, 0] →
      ∃ address, encodeAddress (some request.address) = some address ∧
        [0, 0, 0] ++ address ++ request.payload = data := by
  have header {f text bytes} (port : UInt16) (parsed : inetPton f text = some bytes) :=
    encodeAddress_pton parsed port
  refine ⟨?_, ?_, ?_⟩
  · intro data sender datagram client sent
    obtain ⟨address, encoded, rfl⟩ := client_datagram sent
    obtain ⟨f, bytes, parsed⟩ := encodeAddress_some encoded
    obtain rfl := Option.some.inj (encoded.symm.trans (header sender.2 parsed))
    exact ⟨f, bytes, parsed, parse_encapsulated parsed sender.2 data⟩
  · intro f text bytes port parsed
    exact ⟨_, header port parsed, fun data => parse_encapsulated parsed port data⟩
  · intro data request parsed binary reserved
    obtain ⟨hi, lo, b, rest, rfl, known, read⟩ := parse_some parsed
    obtain ⟨rfl, rfl⟩ : hi = 0 ∧ lo = 0 := by simpa using reserved
    obtain ⟨f, kind, rfl⟩ := ofByte_binary known binary
    rw [kind] at read
    obtain ⟨raw, port, size, address, rfl⟩ := readAddrport_bytes read
    refine ⟨_, address ▸ header port (inetPton_inetNtop size), ?_⟩
    simp

/-- The client has addressed a peer by another spelling than the kernel's. -/
def answering : State :=
  { State.init 0 with
    connections := [⟨(.inet6, ("2001:DB8::1".toList, 53)), ("192.168.1.7".toList, 5000), 0⟩]
    clientConn := true
    serverConnIpv6 := true }

def answer : List UInt8 :=
  [0, 0, 0, 4, 0x20, 1, 0xd, 0xb8, 0, 0, 0, 0, 0, 0, 0, 0, 0, 0, 0, 1, 0, 53, 0, 4]

theorem answer_encapsulated :
    (∃ f bytes, inetPton f "2001:DB8::1".toList = some bytes ∧
      parse answer = some ⟨addressType f, (inetNtop f bytes, 53), [0, 4]⟩) ∧
    (∃ address, encodeAddress (some ("0.0.0.1".toList, 7)) = some address ∧
      ∀ data, parse ([0, 0, 0] ++ address ++ data) =
        some ⟨.ipv4, (inetNtop .inet [0, 0, 0, 1], 7), data⟩) ∧
    ∃ address, encodeAddress (some ("2001:db8::1".toList, 53)) = some address ∧
      [0, 0, 0] ++ address ++ [0, 4] = answer := by
  have laws := encapsulation_round_trip lan answering .inet6
  have sent : .client answer ("192.168.1.7".toList, 5000) ∈
      (onServerDatagram lan answering .inet6 [0, 4] ("2001:DB8::1".toList, 53)).1 := by decide +kernel
  have four : inetPton .inet "0.0.0.1".toList = some [0, 0, 0, 1] := by decide +kernel
  have read : parse answer = some ⟨.ipv6, ("2001:db8::1".toList, 53), [0, 4]⟩ := rfl
  exact ⟨laws.1 _ _ _ _ sent, laws.2.1 .inet _ _ 7 four,
    laws.2.2 answer _ read (by decide) (by decide)⟩

end HttpSocksProxy.Udp
