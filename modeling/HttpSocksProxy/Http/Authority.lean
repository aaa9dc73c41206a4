import HttpSocksProxy.Http.Framing
import HttpSocksProxy.Http.Transparency

/-! The address of a request: what `tcp_connect` gets, what the emitted `Host` field
names when it is read back, and what the target and the `Host` fields of the client name. -/
namespace HttpSocksProxy.Http
open ByteStream (bind_ok)

/-- A host with the part before its scope in lower case. -/
def lowered (name : Text) : Text := lower (name.takeWhile (· ≠ 37)) ++ name.dropWhile (· ≠ 37)

theorem hostname_eq (r : SplitResult) :
    r.hostname = if r.hostinfo.1 = [] then none else some (lowered r.hostinfo.1) := rfl

/-- Characters that part an authority from what is around it, or stand inside it. -/
def marks : List UInt8 := [37, 46, 47, 63, 35, 64, 91, 93, 58, 9, 10, 13]

theorem lowerChar_facts (b : UInt8) : lowerChar (lowerChar b) = lowerChar b ∧ isHex (lowerChar b) = isHex b ∧
    (∀ d ∈ marks, lowerChar b = d ↔ b = d) := by
  have all : ∀ n < 256, lowerChar (lowerChar (UInt8.ofNat n)) = lowerChar (UInt8.ofNat n) ∧
      isHex (lowerChar (UInt8.ofNat n)) = isHex (UInt8.ofNat n) ∧
      (marks.all fun d =>
        decide (lowerChar (UInt8.ofNat n) = d ↔ UInt8.ofNat n = d)) = true := by decide +kernel
  have here := all b.toNat b.toNat_lt
  simp only [UInt8.ofNat_toNat, List.all_eq_true, decide_eq_true_eq] at here
  exact here

/-- The marks of an authority that lower case keeps. -/
theorem lowerChar_mark (b : UInt8) {d : UInt8} (mark : d ∈ marks) :
    lowerChar b = d ↔ b = d := (lowerChar_facts b).2.2 d mark

theorem mem_lowered (mark : d ∈ marks) :
    d ∈ lowered name ↔ d ∈ name := by
  have first : d ∈ lower (name.takeWhile (· ≠ 37)) ↔ d ∈ name.takeWhile (· ≠ 37) := by
    simp [lower, lowerChar_mark _ mark]
  rw [lowered, List.mem_append, first, ← List.mem_append, List.takeWhile_append_dropWhile]

theorem lowered_parts (name : Text) : (lowered name).takeWhile (· ≠ 37) = lower (name.takeWhile (· ≠ 37)) ∧
    (lowered name).dropWhile (· ≠ 37) = name.dropWhile (· ≠ 37) := by
  have inner : ∀ b ∈ lower (name.takeWhile (· ≠ 37)), decide (b ≠ 37) = true := by
    intro b member
    obtain ⟨c, inside, rfl⟩ := List.mem_map.mp member
    have plain := List.mem_takeWhile_imp inside
    simpa [lowerChar_mark c (d := 37) (by decide)] using plain
  have stop : (name.dropWhile (· ≠ 37)).takeWhile (· ≠ 37) = [] ∧
      (name.dropWhile (· ≠ 37)).dropWhile (· ≠ 37) = name.dropWhile (· ≠ 37) := by
    rw [dropWhile_sep]
    split <;> simp
  rw [lowered, List.takeWhile_append_of_pos inner, List.dropWhile_append_of_pos inner, stop.1, stop.2]
  simp

theorem lowered_lowered (name : Text) : lowered (lowered name) = lowered name := by
  have idempotent : lower (lower (name.takeWhile (· ≠ 37))) = lower (name.takeWhile (· ≠ 37)) := by
    simp [lower, (lowerChar_facts _).1]
  rw [lowered, (lowered_parts name).1, (lowered_parts name).2, idempotent]
  rfl

theorem lowered_length (name : Text) : (lowered name).length = name.length := by
  have whole := congrArg List.length (List.takeWhile_append_dropWhile (p := (· ≠ (37 : UInt8))) (l := name))
  rw [List.length_append] at whole
  rw [lowered, List.length_append, lower, List.length_map, whole]

/-- Lower case on characters. -/
def lowerCharacter (c : Char) : Char := if c.toNat < 256 then charOf (lowerChar c.toNat.toUInt8) else c

theorem str_lower (t : Text) : str (lower t) = (str t).map lowerCharacter := by
  have all : ∀ n < 256, lowerCharacter (charOf (UInt8.ofNat n)) = charOf (lowerChar (UInt8.ofNat n)) := by
    decide +kernel
  simp only [str, lower, List.map_map]
  apply List.map_congr_left
  intro b _
  have here := all b.toNat b.toNat_lt
  simp only [UInt8.ofNat_toNat] at here
  exact here.symm

theorem lowerCharacter_facts (c : Char) : InetText.digitValue (lowerCharacter c) = InetText.digitValue c ∧
    (lowerCharacter c = '0' ↔ c = '0') ∧ (lowerCharacter c = '.' ↔ c = '.') ∧ (lowerCharacter c = ':' ↔ c = ':') := by
  have all : ∀ n < 256,
      InetText.digitValue (lowerCharacter (Char.ofNat n)) = InetText.digitValue (Char.ofNat n) ∧
      (lowerCharacter (Char.ofNat n) = '0' ↔ Char.ofNat n = '0') ∧
      (lowerCharacter (Char.ofNat n) = '.' ↔ Char.ofNat n = '.') ∧
      (lowerCharacter (Char.ofNat n) = ':' ↔ Char.ofNat n = ':') := by decide +kernel
  by_cases small : c.toNat < 256
  · have here := all c.toNat small
    rwa [Char.ofNat_toNat] at here
  · simp [lowerCharacter, small]

/-- An IPv6 address may be written in any case. -/
theorem pton6_lower (t : Text) : InetText.pton6 (str (lower t)) = InetText.pton6 (str t) := by
  rw [str_lower]
  exact InetText.pton6_map (fun c => (lowerCharacter_facts c).1) (fun c => (lowerCharacter_facts c).2.1)
    (fun c => (lowerCharacter_facts c).2.2.1) (fun c => (lowerCharacter_facts c).2.2.2) _

theorem isIPvFuture_iff (name : Text) : isIPvFuture name = true ↔
    name.tail.takeWhile isHex ≠ [] ∧ ∃ b rest, name.tail.dropWhile isHex = 46 :: b :: rest := by
  unfold isIPvFuture
  split
  case h_1 digit digits b rest first last => simp [first, last]
  case h_2 other =>
    simp only [Bool.false_eq_true, false_iff, not_and, not_exists]
    intro filled b rest same
    obtain ⟨digit, digits, first⟩ := List.exists_cons_of_ne_nil filled
    exact other digit digits b rest first same

/-- A bracketed host that is accepted is an IPv6 address with an optional scope, or
an address of a later version. -/
theorem checkBracketedHost_ok (checked : checkBracketedHost name = .ok ()) :
    (name.head? = some 118 ∧ isIPvFuture name = true) ∨
      (name.head? ≠ some 118 ∧ InetText.pton4 (str name) = none ∧ isIPv6 name = true) := by
  unfold checkBracketedHost at checked
  split at checked
  case isTrue future =>
    split at checked
    case isTrue valid => exact .inl ⟨future, valid⟩
    case isFalse => cases checked
  case isFalse other =>
    split at checked
    · cases checked
    case isFalse four =>
      split at checked
      case isTrue six => exact .inr ⟨other, by simpa using four, six⟩
      case isFalse => cases checked

theorem isIPv6_iff (name : Text) : isIPv6 name = true ↔
    (InetText.pton6 (str (name.takeWhile (· ≠ 37)))).isSome = true ∧
      (37 ∉ name ∨ (name.dropWhile (· ≠ 37)).tail ≠ [] ∧ 37 ∉ (name.dropWhile (· ≠ 37)).tail) := by
  simp [isIPv6, partition]

/-- An IPv6 host has a colon, and starts neither with a bracket nor with a `v`. -/
theorem isIPv6_text (six : isIPv6 name = true) :
    58 ∈ name ∧ ∀ b, name.head? = some b → b ≠ 91 ∧ lowerChar b ≠ 118 := by
  obtain ⟨address, parsed⟩ := Option.isSome_iff_exists.mp ((isIPv6_iff name).mp six).1
  constructor
  · have colon : ∀ n < 256, charOf (UInt8.ofNat n) = ':' → UInt8.ofNat n = 58 := by decide +kernel
    obtain ⟨b, member, same⟩ := List.mem_map.mp (InetText.pton6_colon parsed)
    have here := colon b.toNat b.toNat_lt (by simpa using same)
    simp only [UInt8.ofNat_toNat] at here
    exact here ▸ (List.takeWhile_prefix _).subset member
  · have plain : ∀ n < 256, (InetText.digitValue (charOf (UInt8.ofNat n))).isSome = true ∨
        charOf (UInt8.ofNat n) = '.' ∨ charOf (UInt8.ofNat n) = ':' →
        UInt8.ofNat n ≠ 91 ∧ lowerChar (UInt8.ofNat n) ≠ 118 := by decide +kernel
    intro b first
    by_cases scope : b = 37
    · subst scope
      decide
    · obtain ⟨rest, rfl⟩ := List.head?_eq_some_iff.mp first
      have member : charOf b ∈ str ((b :: rest).takeWhile (· ≠ 37)) := by simp [str, scope]
      have known := InetText.pton6_plain parsed _ member
      simpa using plain b.toNat b.toNat_lt (by simpa [InetText.Plain, or_assoc] using known)

theorem lowered_append (plain : 37 ∉ first) (rest : Text) : lowered (first ++ rest) = lower first ++ lowered rest := by
  have inner : ∀ b ∈ first, decide (b ≠ 37) = true := fun b member =>
    decide_eq_true fun same => plain (same ▸ member)
  rw [lowered, lowered, List.takeWhile_append_of_pos inner, List.dropWhile_append_of_pos inner, lower,
    List.map_append, List.append_assoc]
  rfl

/-- Lower case keeps what is in brackets acceptable. -/
theorem checkBracketedHost_lowered (checked : checkBracketedHost name = .ok ()) :
    checkBracketedHost (lowered name) = .ok () := by
  rcases checkBracketedHost_ok checked with ⟨first, future⟩ | ⟨_, _, six⟩
  · obtain ⟨version, rfl⟩ := List.head?_eq_some_iff.mp first
    obtain ⟨filled, b, rest, dotted⟩ := (isIPvFuture_iff _).mp future
    rw [List.tail_cons] at filled dotted
    have digits := List.takeWhile_append_dropWhile (p := isHex) (l := version)
    rw [dotted] at digits
    have hexadecimal : ∀ c ∈ version.takeWhile isHex, isHex c = true := fun c member =>
      List.mem_takeWhile_imp member
    generalize version.takeWhile isHex = hex at filled digits hexadecimal
    have plain : 37 ∉ 118 :: (hex ++ [46]) := by
      have inner : 37 ∉ hex := fun member => by cases hexadecimal 37 member
      simp [inner]
    have whole : lowered (118 :: version) = 118 :: (lower hex ++ 46 :: lowered (b :: rest)) := by
      have split : 118 :: version = 118 :: (hex ++ [46]) ++ (b :: rest) := by simp [← digits]
      rw [split, lowered_append plain]
      simp [lower, lowerChar]
    obtain ⟨c, more, lasts⟩ := List.exists_cons_of_length_pos
      (show 0 < (lowered (b :: rest)).length by rw [lowered_length]; simp)
    have hexadecimal : ∀ c ∈ lower hex, isHex c = true := by
      intro c member
      obtain ⟨d, inside, rfl⟩ := List.mem_map.mp member
      rw [(lowerChar_facts d).2.1, hexadecimal d inside]
    have future : isIPvFuture (lowered (118 :: version)) = true := by
      rw [isIPvFuture_iff, whole, List.tail_cons, lasts, List.takeWhile_append_of_pos hexadecimal,
        List.dropWhile_append_of_pos hexadecimal]
      exact ⟨by simp [lower, filled], c, more, by simp [isHex, isAsciiDigit]⟩
    rw [checkBracketedHost, future, whole]
    rfl
  · obtain ⟨colon, head⟩ := isIPv6_text six
    have six' : isIPv6 (lowered name) = true := by
      rw [isIPv6_iff, (lowered_parts name).1, (lowered_parts name).2, pton6_lower, mem_lowered (by decide)]
      exact (isIPv6_iff name).mp six
    have four : InetText.pton4 (str (lowered name)) = none := by
      by_contra both
      obtain ⟨address, parsed⟩ := Option.ne_none_iff_exists'.mp both
      refine InetText.pton4_colon parsed ?_
      exact List.mem_map.mpr ⟨58, (mem_lowered (by decide)).mpr colon, rfl⟩
    have first : (lowered name).head? ≠ some 118 := by
      cases name with
      | nil => simp [lowered, lower]
      | cons b rest =>
        by_cases scope : b = 37
        · simp [lowered, lower, scope]
        · simpa [lowered, lower, scope] using (head b rfl).2
    rw [checkBracketedHost, if_neg first, four, six']
    rfl

/-- A text that can stand in an authority without ending it or parting it. -/
def Inner (t : Text) : Prop := ∀ b ∈ t, inNetloc b = true ∧ b ≠ 64 ∧ b ≠ 93 ∧ b ≠ 9 ∧ b ≠ 10 ∧ b ≠ 13

/-- The split of a text that is nothing but an authority. -/
theorem urlParts_authority (inner : ∀ b ∈ authority, inNetloc b = true ∧ b ≠ 9 ∧ b ≠ 10 ∧ b ≠ 13) :
    urlParts ([47, 47] ++ authority) = ⟨[], authority, [], [], []⟩ := by
  have clean : cleaned ([47, 47] ++ authority) = [47, 47] ++ authority := by
    have kept : ([47, 47] ++ authority).filter (fun b => b ≠ 9 && b ≠ 10 && b ≠ 13) = [47, 47] ++ authority := by
      rw [List.filter_eq_self]
      intro b member
      rcases List.mem_append.mp member with slash | inside
      · have same : b = 47 := by simpa using slash
        simp [same]
      · simp [(inner b inside).2]
    exact kept
  have netloc : ∀ b ∈ authority, inNetloc b = true := fun b member => (inner b member).1
  have scheme : splitScheme ([47, 47] ++ authority) = ([], [47, 47] ++ authority) := if_neg (by simp [isAlpha])
  have taken : splitNetloc ([47, 47] ++ authority) = (authority, []) := by
    simp only [splitNetloc, List.cons_append, List.nil_append, List.take_succ_cons, List.take_zero, if_true,
      List.drop_succ_cons, List.drop_zero, Prod.mk.injEq]
    exact ⟨List.takeWhile_eq_self_iff.mpr netloc, List.dropWhile_eq_nil_iff.mpr netloc⟩
  simp only [urlParts]
  rw [clean, scheme]
  simp only
  rw [taken]
  rfl

/-- How a port is written behind a host: not at all when it is the default. -/
def portText (port : UInt16) : Text := if port = 80 then [] else 58 :: decimal port.toNat

theorem int_decimal (port : UInt16) : int (decimal port.toNat) = .ok port.toNat := by
  have short : (decimal port.toNat).length ≤ 4300 := by
    have bound : port.toNat < 10 ^ 5 := Nat.lt_trans port.toNat_lt (by decide)
    exact (decimal_short bound (by decide)).trans (by decide)
  rw [int, if_neg (by omega), numeralValue_decimal]

theorem portOr_text {r : SplitResult} (positive : port ≠ 0) (same : r.hostinfo.2 = (partition 58 (portText port)).2) :
    r.portOr 80 = .ok port := by
  by_cases default : port = 80
  · have none : r.hostinfo.2 = [] := by rw [same, portText, if_pos default]; rfl
    simp [SplitResult.portOr, SplitResult.port, none, default]
    rfl
  · have digits : r.hostinfo.2 = decimal port.toNat := by
      rw [same, portText, if_neg default]
      rfl
    have filled : decimal port.toNat ≠ [] := by simpa [decimal] using InetText.numeral_ne_nil 10 _
    have all : (decimal port.toNat).all isAsciiDigit = true := List.all_eq_true.mpr (decimal_digits _)
    have small : port.toNat ≤ 65535 := Nat.le_of_lt_succ port.toNat_lt
    have read : r.port = .ok (some port) := by
      rw [SplitResult.port, digits, if_neg filled, if_pos all, int_decimal]
      simp [bind, Except.bind, small]
      rfl
    rw [SplitResult.portOr, read]
    simp [bind, Except.bind, positive]
    rfl

theorem portText_inner (port : UInt16) : ∀ b ∈ portText port,
    inNetloc b = true ∧ b ≠ 64 ∧ b ≠ 91 ∧ b ≠ 93 ∧ b ≠ 9 ∧ b ≠ 10 ∧ b ≠ 13 := by
  have all : ∀ n < 256, UInt8.ofNat n = 58 ∨ isAsciiDigit (UInt8.ofNat n) = true →
      inNetloc (UInt8.ofNat n) = true ∧ UInt8.ofNat n ≠ 64 ∧ UInt8.ofNat n ≠ 91 ∧ UInt8.ofNat n ≠ 93 ∧
      UInt8.ofNat n ≠ 9 ∧ UInt8.ofNat n ≠ 10 ∧ UInt8.ofNat n ≠ 13 := by decide +kernel
  intro b member
  have known : b = 58 ∨ isAsciiDigit b = true := by
    unfold portText at member
    split at member
    · simp at member
    · exact (List.mem_cons.mp member).imp_right (decimal_digits _ b)
  simpa using all b.toNat b.toNat_lt (by simpa using known)

theorem authorityAddress_split (split : urlsplit ([47, 47] ++ authority) = .ok r) (filled : r.hostinfo.1 ≠ [])
    (ported : r.portOr 80 = .ok port) : authorityAddress authority 80 = .ok (lowered r.hostinfo.1, port) := by
  rw [authorityAddress, split]
  simp only [bind, Except.bind, hostname_eq, if_neg filled, ported]
  rfl

section Rendered
variable {t : Text} {port : UInt16} (inner : Inner t) (filled : t ≠ []) (positive : port ≠ 0)
include inner filled positive

theorem rendered_bracketed : authorityAddress ([91] ++ t ++ [93] ++ portText port) 80 =
    (checkBracketedHost t).map fun _ => (lowered t, port) := by
  have shape : [91] ++ t ++ [93] ++ portText port = [91] ++ (t ++ 93 :: portText port) := by simp
  have clean : ∀ b ∈ [91] ++ (t ++ 93 :: portText port), inNetloc b = true ∧ b ≠ 64 ∧ b ≠ 9 ∧ b ≠ 10 ∧ b ≠ 13 := by
    intro b member
    simp only [List.mem_append, List.mem_cons, List.not_mem_nil, or_false] at member
    rcases member with rfl | inside | rfl | last
    · decide
    · obtain ⟨netloc, at_, _, blank⟩ := inner b inside
      exact ⟨netloc, at_, blank⟩
    · decide
    · obtain ⟨netloc, at_, _, _, blank⟩ := portText_inner port b last
      exact ⟨netloc, at_, blank⟩
  have parts : urlParts ([47, 47] ++ ([91] ++ (t ++ 93 :: portText port))) =
      ⟨[], [91] ++ (t ++ 93 :: portText port), [], [], []⟩ :=
    urlParts_authority fun b member => ⟨(clean b member).1, (clean b member).2.2⟩
  have closing : 93 ∉ t := fun member => (inner 93 member).2.2.1 rfl
  have content : (partition 93 (partition 91 ([91] ++ (t ++ 93 :: portText port))).2) = (t, portText port) := by
    have opened : partition 91 ([] ++ 91 :: (t ++ 93 :: portText port)) = ([], t ++ 93 :: portText port) :=
      partition_sep (by simp) _
    rw [show [91] ++ (t ++ 93 :: portText port) = [] ++ 91 :: (t ++ 93 :: portText port) from rfl, opened,
      partition_sep closing]
  have hosted : (SplitResult.hostinfo ⟨[], [91] ++ (t ++ 93 :: portText port), [], [], []⟩) =
      (t, (partition 58 (portText port)).2) := by
    have info : ([91] ++ (t ++ 93 :: portText port)).rtakeWhile (· ≠ 64) = [91] ++ (t ++ 93 :: portText port) := by
      rw [List.rtakeWhile_eq_self_iff]
      exact fun b member => decide_eq_true (clean b member).2.1
    simp only [SplitResult.hostinfo]
    rw [info, if_pos (by simp), content]
  rw [shape]
  have checked : urlsplit ([47, 47] ++ ([91] ++ (t ++ 93 :: portText port))) =
      (checkBracketedHost t).map fun _ => ⟨[], [91] ++ (t ++ 93 :: portText port), [], [], []⟩ := by
    rw [urlsplit, parts, checkBrackets, if_pos ⟨by simp, by simp⟩, content]
  cases verdict : checkBracketedHost t with
  | error text =>
    rw [verdict] at checked
    rw [authorityAddress, checked]
    rfl
  | ok _ =>
    rw [verdict] at checked
    have address := authorityAddress_split checked (by rw [hosted]; exact filled)
      (portOr_text positive (by rw [hosted]))
    rw [hosted] at address
    exact address

theorem rendered_bare (bare : 58 ∉ t) : authorityAddress (t ++ portText port) 80 =
    if 91 ∈ t then .error (latin "Invalid IPv6 URL") else .ok (lowered t, port) := by
  have clean : ∀ b ∈ t ++ portText port,
      inNetloc b = true ∧ b ≠ 64 ∧ b ≠ 93 ∧ b ≠ 9 ∧ b ≠ 10 ∧ b ≠ 13 := by
    intro b member
    rcases List.mem_append.mp member with inside | last
    · exact inner b inside
    · obtain ⟨netloc, at_, _, rest⟩ := portText_inner port b last
      exact ⟨netloc, at_, rest⟩
  have parts : urlParts ([47, 47] ++ (t ++ portText port)) = ⟨[], t ++ portText port, [], [], []⟩ :=
    urlParts_authority fun b member => ⟨(clean b member).1, (clean b member).2.2.2⟩
  have closing : 93 ∉ t ++ portText port := fun member => (clean 93 member).2.2.1 rfl
  split
  case isTrue opening =>
    have opening : 91 ∈ t ++ portText port := List.mem_append_left _ opening
    have refused : urlsplit ([47, 47] ++ (t ++ portText port)) = .error (latin "Invalid IPv6 URL") := by
      rw [urlsplit, parts, checkBrackets, if_neg fun both => closing both.2, if_pos (.inl opening)]
      rfl
    rw [authorityAddress, refused]
    rfl
  case isFalse opening =>
    have opening : 91 ∉ t ++ portText port := by
      intro member
      rcases List.mem_append.mp member with inside | last
      · exact opening inside
      · exact (portText_inner port 91 last).2.2.1 rfl
    have checked : urlsplit ([47, 47] ++ (t ++ portText port)) = .ok ⟨[], t ++ portText port, [], [], []⟩ := by
      rw [urlsplit, parts, checkBrackets, if_neg fun both => closing both.2, if_neg (by simp [opening, closing])]
      rfl
    have hosted : (SplitResult.hostinfo ⟨[], t ++ portText port, [], [], []⟩) =
        (t, (partition 58 (portText port)).2) := by
      have info : (t ++ portText port).rtakeWhile (· ≠ 64) = t ++ portText port := by
        rw [List.rtakeWhile_eq_self_iff]
        exact fun b member => decide_eq_true (clean b member).2.1
      have split : partition 58 (t ++ portText port) = (t, (partition 58 (portText port)).2) := by
        unfold portText
        split
        · rw [List.append_nil, partition_none bare]
          rfl
        · rw [partition_sep bare]
          rfl
      simp only [SplitResult.hostinfo]
      rw [info, if_neg opening, split]
    have address := authorityAddress_split checked (by rw [hosted]; exact filled)
      (portOr_text positive (by rw [hosted]))
    rw [hosted] at address
    exact address

end Rendered

/-- A host as `hostname` gives it, with what brackets allow in it. -/
structure HostName (name : Text) : Prop where
  filled : name ≠ []
  low : lowered name = name
  inner : Inner name
  shape : (58 ∉ name ∧ 91 ∉ name) ∨ checkBracketedHost name = .ok ()

theorem Inner.lowered (inner : Inner name) : Inner (lowered name) := by
  have split : ∀ b, (inNetloc b = true ∧ b ≠ 64 ∧ b ≠ 93 ∧ b ≠ 9 ∧ b ≠ 10 ∧ b ≠ 13) ↔
      ∀ d ∈ [47, 63, 35, 64, 93, (9 : UInt8), 10, 13], b ≠ d := by
    intro b
    simp [inNetloc, and_assoc]
  intro b member
  rw [split]
  intro d mark
  rintro rfl
  have known : b ∈ marks := by
    have all : ∀ d ∈ [47, 63, 35, 64, 93, (9 : UInt8), 10, 13], d ∈ marks := by simp [marks]
    exact all b mark
  exact (split b).mp (inner b ((mem_lowered known).mp member)) b mark rfl

theorem hostname_shape {r : SplitResult} (plain : ∀ b ∈ r.netloc, inNetloc b = true ∧ isSpace b = false)
    (checked : checkBrackets r.netloc = .ok ()) (anonymous : r.hasUsername = false)
    (named : r.hostname = some name) : HostName name := by
  rw [hostname_eq] at named
  obtain ⟨filled, same⟩ := Option.ite_none_left_eq_some.mp named
  obtain rfl := Option.some.inj same
  have foreign : 64 ∉ r.netloc := by simpa [SplitResult.hasUsername] using anonymous
  have info : r.netloc.rtakeWhile (· ≠ 64) = r.netloc := by
    rw [List.rtakeWhile_eq_self_iff]
    exact fun b member => decide_eq_true fun same => foreign (same ▸ member)
  have nonempty : lowered r.hostinfo.1 ≠ [] := by
    intro none
    have length := lowered_length r.hostinfo.1
    rw [none, List.length_nil] at length
    exact filled (List.eq_nil_of_length_eq_zero length.symm)
  have netloc {t : Text} (part : t.Sublist r.netloc) (closing : 93 ∉ t) : Inner t := by
    intro b member
    obtain ⟨stays, space⟩ := plain b (part.subset member)
    refine ⟨stays, fun same => foreign (same ▸ part.subset member), fun same => closing (same ▸ member), ?_⟩
    refine ⟨?_, ?_, ?_⟩ <;> (rintro rfl; cases space)
  unfold checkBrackets at checked
  split at checked
  case isTrue both =>
    have content : r.hostinfo.1 = (partition 93 (partition 91 r.netloc).2).1 := by
      simp only [SplitResult.hostinfo]
      rw [info, if_pos both.1]
    have part : r.hostinfo.1.Sublist r.netloc := r.hostinfo_sublist
    rw [content] at part filled nonempty ⊢
    have closing : 93 ∉ (partition 93 (partition 91 r.netloc).2).1 := by
      intro member
      simpa using List.mem_takeWhile_imp member
    exact ⟨nonempty, lowered_lowered _, (netloc part closing).lowered, .inr (checkBracketedHost_lowered checked)⟩
  case isFalse both =>
    split at checked
    · cases checked
    case isFalse none =>
      have opening : 91 ∉ r.netloc := fun member => none (.inl member)
      have closing : 93 ∉ r.netloc := fun member => none (.inr member)
      have content : r.hostinfo.1 = (partition 58 r.netloc).1 := by
        simp only [SplitResult.hostinfo]
        rw [info, if_neg opening]
      have part : r.hostinfo.1.Sublist r.netloc := r.hostinfo_sublist
      have colon : 58 ∉ r.hostinfo.1 := by
        rw [content]
        intro member
        simpa using List.mem_takeWhile_imp member
      refine ⟨nonempty, lowered_lowered _, (netloc part fun member => closing (part.subset member)).lowered, .inl ⟨?_, ?_⟩⟩
      · rwa [mem_lowered (by decide)]
      · rw [mem_lowered (by decide)]
        exact fun member => opening (part.subset member)

theorem HostName.encoded (shaped : HostName name) : Inner (utf8 name) ∧ utf8 name ≠ [] ∧
    ∀ d < 128, d ∈ utf8 name ↔ d ∈ name := by
  have large : ∀ n < 256, 128 ≤ UInt8.ofNat n → inNetloc (UInt8.ofNat n) = true ∧ UInt8.ofNat n ≠ 64 ∧
      UInt8.ofNat n ≠ 93 ∧ UInt8.ofNat n ≠ 9 ∧ UInt8.ofNat n ≠ 10 ∧ UInt8.ofNat n ≠ 13 := by decide +kernel
  refine ⟨fun b member => ?_, ?_, fun d small => ⟨fun member => ?_, fun member => ?_⟩⟩
  · rcases mem_utf8 member with inside | beyond
    · exact shaped.inner b inside
    · simpa using large b.toNat b.toNat_lt (by simpa using beyond)
  · intro none
    have length := utf8_length name
    rw [none, List.length_nil] at length
    exact shaped.filled (List.eq_nil_of_length_eq_zero (by omega))
  · exact (mem_utf8 member).resolve_right fun beyond => absurd small (UInt8.not_lt.mpr beyond)
  · obtain ⟨before, after, rfl⟩ := List.append_of_mem member
    rw [utf8_append, utf8_cons, if_pos small]
    simp

/-- In UTF-8 a host is the same one again when it is ASCII. -/
theorem HostName.lowered_iff (shaped : HostName name) : lowered (utf8 name) = name ↔ isAscii name = true := by
  constructor
  · intro same
    have length := congrArg List.length same
    rw [lowered_length, utf8_length] at length
    have none : name.countP (128 ≤ ·) = 0 := by omega
    simpa [isAscii, List.countP_eq_zero] using none
  · intro ascii
    rw [utf8_ascii ascii, shaped.low]

/-- The emitted host reads back as the address exactly when it is ASCII and has no
bracket outside brackets. -/
theorem HostName.rendered_iff (shaped : HostName name) (positive : port ≠ 0) :
    authorityAddress ((if 58 ∈ name then [91] ++ utf8 name ++ [93] else utf8 name) ++ portText port) 80 =
      .ok (name, port) ↔ isAscii name = true ∧ ¬ (91 ∈ name ∧ 58 ∉ name) := by
  obtain ⟨inner, filled, same⟩ := shaped.encoded
  split
  case isTrue colon =>
    rw [rendered_bracketed inner filled positive, ← shaped.lowered_iff]
    have checked : checkBracketedHost name = .ok () := shaped.shape.resolve_left fun bare => bare.1 colon
    constructor
    · intro read
      cases verdict : checkBracketedHost (utf8 name) with
      | error text => simp [verdict, Except.map] at read
      | ok _ =>
        simp only [verdict, Except.map, Except.ok.injEq, Prod.mk.injEq, and_true] at read
        exact ⟨read, fun both => both.2 colon⟩
    · rintro ⟨low, _⟩
      have ascii := shaped.lowered_iff.mp low
      rw [low, utf8_ascii ascii, checked]
      rfl
  case isFalse bare =>
    have bare' : 58 ∉ utf8 name := by rwa [same 58 (by decide)]
    rw [rendered_bare inner filled positive bare', ← shaped.lowered_iff]
    split
    case isTrue opening =>
      have opening := (same 91 (by decide)).mp opening
      simp [opening, bare]
    case isFalse opening =>
      have opening : 91 ∉ name := fun member => opening ((same 91 (by decide)).mpr member)
      simp [opening]

/-- The port that is written in an authority. -/
def writtenPort (authority : Text) : Option UInt16 := do
  let parsed ← (urlsplit ([47, 47] ++ authority)).toOption
  let port ← parsed.port.toOption
  port

/-- The host and the port that an authority names, 0 included. -/
def denoted (authority : Text) (fallback : UInt16) : Option Authority := do
  let parsed ← (urlsplit ([47, 47] ++ authority)).toOption
  let name ← parsed.hostname
  let port ← parsed.port.toOption
  return (name, port.getD fallback)

/-- `parsed.port or default` -/
theorem portOr_ok {r : SplitResult} (ported : r.portOr fallback = .ok port) :
    ∃ written, r.port = .ok written ∧ port = if written = some 0 then fallback else written.getD fallback := by
  obtain ⟨written, read, ported⟩ := bind_ok.mp ported
  refine ⟨written, read, ?_⟩
  cases written with
  | none => simpa using (Except.ok.inj ported).symm
  | some n => simpa using (Except.ok.inj ported).symm

theorem portOr_positive {r : SplitResult} (ported : r.portOr fallback = .ok port) (positive : fallback ≠ 0) :
    port ≠ 0 := by
  obtain ⟨written, _, rfl⟩ := portOr_ok ported
  cases written with
  | none => exact positive
  | some n => by_cases zero : n = 0 <;> simp [zero, positive]

/-- A port that is written is kept unless it is 0. -/
theorem kept_iff (positive : fallback ≠ 0) (written : Option UInt16) :
    (if written = some 0 then fallback else written.getD fallback) = written.getD fallback ↔ written ≠ some 0 := by
  cases written with
  | none => simp
  | some n => by_cases zero : n = 0 <;> simp [zero, positive]

/-- What an accepted authority names, and the port that is written in it. -/
theorem authorityAddress_ok (accepted : authorityAddress authority fallback = .ok (name, port)) :
    denoted authority fallback = some (name, (writtenPort authority).getD fallback) ∧
      port = if writtenPort authority = some 0 then fallback else (writtenPort authority).getD fallback := by
  obtain ⟨parsed, split, accepted⟩ := bind_ok.mp accepted
  cases named : parsed.hostname with
  | none =>
    rw [named] at accepted
    cases accepted
  | some name' =>
    rw [named] at accepted
    obtain ⟨port', ported, same⟩ := bind_ok.mp accepted
    cases same
    obtain ⟨written, read, kept⟩ := portOr_ok ported
    have port_written : writtenPort authority = written := by
      rw [writtenPort, split, Except.toOption]
      simp [read, Except.toOption]
    rw [port_written]
    refine ⟨?_, kept⟩
    rw [denoted, split, Except.toOption]
    simp [named, read, Except.toOption]

/-- The `Host` fields of a request that is accepted name its address, up to port 0. -/
theorem hostsAgree_ok (agreed : hostsAgree address headers = .ok ()) :
    ∀ value ∈ getAll host headers, authorityAddress (strip value) 80 = .ok address := by
  unfold hostsAgree at agreed
  generalize getAll host headers = values at agreed
  induction values with
  | nil => simp
  | cons value rest ih =>
    obtain ⟨_, first, later⟩ := bind_ok.mp agreed
    obtain ⟨named, read, same⟩ := bind_ok.mp first
    split at same
    case isFalse => cases same
    case isTrue equal =>
      rw [equal] at read
      intro v member
      rcases List.mem_cons.mp member with rfl | member
      · exact read
      · exact ih later v member

/-- The emitted `Host` field, all of the client and the target name the address that
is connected to, with the port that is written in the target. -/
structure Agrees {r : Request} (a : Accepted r) : Prop where
  emitted : ∃ start fields value, MessageHead.read a.headBytes = some (start, fields, []) ∧
    (fields.filter fun f => lower f.1 = host).map Prod.snd = [value] ∧ authorityAddress value 80 = .ok a.address
  received : ∀ value ∈ getAll host r.headers, denoted (strip value) 80 = some a.address
  written : ∀ port, a.target.port = .ok (some port) → a.address.2 = port

section Agreement
variable {r : Request} (a : Accepted r)

theorem target_checked (a : Accepted r) : checkBrackets a.target.netloc = .ok () := by
  have split := a.split
  rw [target_eq a]
  unfold urlsplit at split
  cases verdict : checkBrackets (urlParts r.path.1).netloc with
  | error text => simp [verdict, Except.map] at split
  | ok _ => rfl

theorem target_inside (a : Accepted r) : ∀ b ∈ a.target.netloc, inNetloc b = true ∧ b ≠ 64 := by
  have foreign : 64 ∉ a.target.netloc := by simpa [SplitResult.hasUsername] using a.clean.2
  intro b member
  refine ⟨?_, fun same => foreign (same ▸ member)⟩
  rw [target_eq a] at member
  simp only [urlParts, splitNetloc] at member
  split at member
  · exact List.mem_takeWhile_imp member
  · simp at member

theorem address_shape : HostName a.address.1 :=
  hostname_shape (fun b member => ⟨(target_inside a b member).1, a.parts_plain.1 b member⟩) (target_checked a)
    a.clean.2 a.named

theorem address_positive : a.address.2 ≠ 0 := portOr_positive a.ported (by decide)

/-- The emitted `Host` field is the host and the port of the address. -/
theorem hostValue_eq : utf8 a.hostValue =
    (if 58 ∈ a.address.1 then [91] ++ utf8 a.address.1 ++ [93] else utf8 a.address.1) ++ portText a.address.2 := by
  have opening : 58 ∈ a.address.1 → a.address.1.head? ≠ some 91 := by
    intro colon first
    have checked := (address_shape a).shape.resolve_left fun bare => bare.1 colon
    rcases checkBracketedHost_ok checked with ⟨future, _⟩ | ⟨_, _, six⟩
    · rw [first] at future
      cases future
    · exact ((isIPv6_text six).2 91 first).1 rfl
  have digits : utf8 (portText a.address.2) = portText a.address.2 := by
    apply utf8_ascii
    unfold portText
    split
    · rfl
    · simp only [isAscii, List.all_cons, List.all_eq_true, decide_eq_true_eq, Bool.and_eq_true]
      exact ⟨by decide, fun b member => (isAsciiDigit_plain (decimal_digits _ b member)).1⟩
  have value : a.hostValue =
      (if 58 ∈ a.address.1 then [91] ++ a.address.1 ++ [93] else a.address.1) ++ portText a.address.2 := by
    unfold Accepted.hostValue portText
    by_cases colon : 58 ∈ a.address.1
    · simp only [colon, opening colon, ne_eq, not_false_eq_true, and_self, if_true]
    · simp only [colon, false_and, if_false]
  have brackets : utf8 [91] = [91] ∧ utf8 [93] = [93] := ⟨utf8_ascii rfl, utf8_ascii rfl⟩
  rw [value, utf8_append, digits]
  split
  · rw [utf8_append, utf8_append, brackets.1, brackets.2]
  · rfl

theorem emitted_host : MessageHead.read a.headBytes = some (a.startLine, a.fields, []) ∧
    (a.fields.filter fun f => lower f.1 = host).map Prod.snd = [utf8 a.hostValue] := by
  obtain ⟨hostConnection, hostLength, hostTransfer, _⟩ := own_distinct
  have found := a.read_headBytes []
  rw [List.append_nil] at found
  refine ⟨found, ?_⟩
  have silent : ∀ f : Text × Text, lower f.1 ∉ own → decide (lower f.1 = host) = false := fun f other =>
    decide_eq_false fun same => other (same ▸ by simp [own])
  rw [filter_own a silent, a.framing.pairs_other hostLength.symm hostTransfer.symm]
  simp [lower_own, hostConnection.symm]

/-- The emitted `Host` field, the received ones and the target agree with the address
exactly when no written port is 0 and the host is ASCII and has no bracket outside
brackets. -/
theorem agrees_iff : Agrees a ↔ a.target.port ≠ .ok (some 0) ∧
    (∀ value ∈ getAll host r.headers, writtenPort (strip value) ≠ some 0) ∧
    ∀ name, a.target.hostname = some name → isAscii name = true ∧ ¬ (91 ∈ name ∧ 58 ∉ name) := by
  have emitted : (∃ start fields value, MessageHead.read a.headBytes = some (start, fields, []) ∧
      (fields.filter fun f => lower f.1 = host).map Prod.snd = [value] ∧
      authorityAddress value 80 = .ok a.address) ↔
      ∀ name, a.target.hostname = some name → isAscii name = true ∧ ¬ (91 ∈ name ∧ 58 ∉ name) := by
    obtain ⟨found, only⟩ := emitted_host a
    have rendered := (address_shape a).rendered_iff (address_positive a)
    rw [← hostValue_eq a] at rendered
    constructor
    · rintro ⟨start, fields, value, found', only', read⟩ name named
      rw [found] at found'
      cases found'
      rw [only] at only'
      cases only'
      rw [a.named] at named
      cases named
      exact rendered.mp read
    · intro shaped
      exact ⟨_, _, _, found, only, rendered.mpr (shaped _ a.named)⟩
  have received : (∀ value ∈ getAll host r.headers, denoted (strip value) 80 = some a.address) ↔
      ∀ value ∈ getAll host r.headers, writtenPort (strip value) ≠ some 0 := by
    refine forall₂_congr fun value member => ?_
    obtain ⟨named, port⟩ := authorityAddress_ok (hostsAgree_ok a.agreed value member)
    have positive : (80 : UInt16) ≠ 0 := by decide
    rw [named, ← kept_iff positive, ← port]
    simp [Prod.ext_iff, eq_comm]
  have written : (∀ port, a.target.port = .ok (some port) → a.address.2 = port) ↔
      a.target.port ≠ .ok (some 0) := by
    obtain ⟨written, read, port⟩ := portOr_ok a.ported
    rw [read, port]
    cases written with
    | none => simp
    | some n => by_cases zero : n = 0 <;> simp [zero]
  rw [← emitted, ← received, ← written]
  exact ⟨fun agrees => ⟨agrees.written, agrees.received, agrees.emitted⟩,
    fun ⟨written, received, emitted⟩ => ⟨emitted, received, written⟩⟩

end Agreement

/-- The address of a request is the one that its fields name, with the port that is
written, unless 0 is written (which counts as no port) or the host of the target does
not read back from the emitted field. -/
theorem authority_agreement_iff (accepted : authorityAddress target 443 = .ok address) :
    ((∀ port, writtenPort target = some port → address.2 = port) ↔ writtenPort target ≠ some 0) ∧
    ∀ (r : Request) (a : Accepted r), Agrees a ↔ a.target.port ≠ .ok (some 0) ∧
      (∀ value ∈ getAll host r.headers, writtenPort (strip value) ≠ some 0) ∧
      ∀ name, a.target.hostname = some name → isAscii name = true ∧ ¬ (91 ∈ name ∧ 58 ∉ name) := by
  refine ⟨?_, fun r a => agrees_iff a⟩
  obtain ⟨_, port⟩ := authorityAddress_ok accepted
  rw [port]
  cases writtenPort target with
  | none => simp
  | some n => by_cases zero : n = 0 <;> simp [zero]

/-- A tunnel to a written port. -/
theorem tunnel_port_kept : authorityAddress (latin "[FE80::1%en0]:8443") 443 = .ok (latin "fe80::1%en0", 8443) ∧
    ((∀ port, writtenPort (latin "[FE80::1%en0]:8443") = some port → (8443 : UInt16) = port) ↔
      writtenPort (latin "[FE80::1%en0]:8443") ≠ some 0) :=
  have accepted : authorityAddress (latin "[FE80::1%en0]:8443") 443 = .ok (latin "fe80::1%en0", 8443) := by
    decide +kernel
  ⟨accepted, (authority_agreement_iff accepted).1⟩

/-- Port 0 of a target is taken for no port: `do_verb` connects to port 80, and
`do_CONNECT` to port 443. -/
theorem zero_port_replaced :
    ((parseRequest (latin "GET http://h:0/ HTTP/1.1\r\n") (latin "\r\n")).toOption.bind
      fun r => (accept r).toOption.map fun a => (a.address, a.target.port.toOption)) =
        some ((latin "h", 80), some (some 0)) ∧
    authorityAddress (latin "h:0") 443 = .ok (latin "h", 443) ∧ writtenPort (latin "h:0") = some 0 ∧
    ¬ ∀ (r : Request) (a : Accepted r), Agrees a := by
  have zero : ((parseRequest (latin "GET http://h:0/ HTTP/1.1\r\n") (latin "\r\n")).toOption.bind
      fun r => (accept r).toOption.map fun a => (a.address, a.target.port.toOption)) =
        some ((latin "h", 80), some (some 0)) := by decide +kernel
  refine ⟨zero, by decide +kernel, by decide +kernel, fun all => ?_⟩
  obtain ⟨r, _, accepted⟩ := Option.bind_eq_some_iff.mp zero
  obtain ⟨a, _, found⟩ := Option.map_eq_some_iff.mp accepted
  obtain ⟨address, port⟩ := Prod.mk.inj found
  have written : a.target.port = .ok (some 0) := by
    cases read : a.target.port with
    | error text => simp [read, Except.toOption] at port
    | ok n => simpa [read, Except.toOption] using port
  have same := (all r a).written 0 written
  rw [address] at same
  cases same

end HttpSocksProxy.Http
