import HttpSocksProxy.Server.Resolve

/-! Addresses inside SOCKS5 messages and UDP datagrams. -/
namespace HttpSocksProxy.Socks
open InetText

/-- `bytes.decode()`: strict UTF-8. -/
def decode (bytes : List UInt8) : Option Str := bytes.toByteArray.utf8Decode?.map Array.toList

def readall (n : Nat) (bytes : List UInt8) : Option (List UInt8 × List UInt8) :=
  if n ≤ bytes.length then some (bytes.take n, bytes.drop n) else none

/-- `struct.unpack("!H")`. -/
def unpackPort : List UInt8 → UInt16
  | [hi, lo] => hi.toUInt16 * 256 + lo.toUInt16
  | _ => 0

def packPort (port : UInt16) : List UInt8 := [(port / 256).toUInt8, port.toUInt8]

/-- The address text of a SOCKS5 address of a known type. -/
def addressText : AddressType → List UInt8 → Option Str
  | .ipv4, bytes => some (inetNtop .inet bytes)
  | .domain, bytes => decode bytes
  | .ipv6, bytes => some (inetNtop .inet6 bytes)

/-- The bytes of an address, whose type says how long it is. -/
def readRaw : AddressType → List UInt8 → Option (List UInt8 × List UInt8)
  | .ipv4, bytes => readall 4 bytes
  | .domain, [] => none
  | .domain, length :: rest => readall length.toNat rest
  | .ipv6, bytes => readall 16 bytes

/-- `UdpForwarder.read_addrport` on the rest of a datagram; a type that is not
known and a datagram that ends early are both refused. -/
def readAddrport (kind : AddressType) (bytes : List UInt8) :
    Option (SocketAddress × List UInt8) := do
  let (raw, rest) ← readRaw kind bytes
  let text ← addressText kind raw
  let (port, rest) ← readall 2 rest
  return ((text, unpackPort port), rest)

/-- `encode_address`; `none` stands for the error of `inet_pton`. -/
def encodeAddress : Option SocketAddress → Option (List UInt8)
  | none => some [1, 0, 0, 0, 0, 0, 0]
  | some (text, port) =>
    match inetPton .inet text with
    | some bytes => some (1 :: bytes ++ packPort port)
    | none => (inetPton .inet6 text).map fun bytes => 4 :: bytes ++ packPort port

theorem unpackPort_packPort (port : UInt16) : unpackPort (packPort port) = port := by
  apply UInt16.toNat_inj.mp
  have := port.toNat_lt
  simp [unpackPort, packPort]
  omega

theorem packPort_unpackPort (two : bytes.length = 2) : packPort (unpackPort bytes) = bytes := by
  match bytes, two with
  | [hi, lo], _ =>
    have := hi.toNat_lt
    have := lo.toNat_lt
    simp only [unpackPort, packPort, List.cons.injEq, and_true]
    constructor
    · apply UInt8.toNat_inj.mp
      simp
      omega
    · apply UInt8.toNat_inj.mp
      simp

theorem encodeAddress_ntop (size : address.length = Family.size f) (port : UInt16) :
    ∃ bytes, encodeAddress (some (inetNtop f address, port)) = some bytes := by
  have back := inetPton_inetNtop size
  cases f with
  | inet => simp only [encodeAddress, back]; exact ⟨_, rfl⟩
  | inet6 =>
    simp only [encodeAddress, back]
    cases inetPton .inet (inetNtop .inet6 address) <;> exact ⟨_, rfl⟩

theorem readall_length (read : readall n bytes = some (raw, rest)) : raw.length = n := by
  unfold readall at read
  obtain ⟨enough, same⟩ := Option.ite_none_right_eq_some.mp read
  obtain ⟨rfl, rfl⟩ := Prod.mk.inj (Option.some.inj same)
  simpa using enough

/-- The text of a binary address denotes an address of its family. -/
theorem readAddrport_literal (read : readAddrport kind bytes = some (address, rest)) :
    (kind = .ipv4 → (inetPton .inet address.1).isSome) ∧
      (kind = .ipv6 → (inetPton .inet6 address.1).isSome) := by
  simp only [readAddrport, Option.bind_eq_bind, Option.bind_eq_some_iff] at read
  obtain ⟨⟨raw, rest⟩, got, text, printed, ⟨port, left⟩, _, result⟩ := read
  obtain ⟨rfl, rfl⟩ := by simpa using result
  constructor
  · rintro rfl
    obtain rfl := Option.some.inj printed
    simp [inetPton_inetNtop (readall_length got : raw.length = Family.inet.size)]
  · rintro rfl
    obtain rfl := Option.some.inj printed
    simp [inetPton_inetNtop (readall_length got : raw.length = Family.inet6.size)]

example : decode [0x77, 0xc3, 0xa9] = some ['w', 'é'] ∧ decode [0xff] = none := by decide

end HttpSocksProxy.Socks
