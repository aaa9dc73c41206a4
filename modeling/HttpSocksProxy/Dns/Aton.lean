import Mathlib.Data.List.DropRight
import HttpSocksProxy.Dns.Inet

/-! `inet_aton` of `dns.ipv4` and `dns.ipv6`, against `inet_pton`. A character stands
for its bytes: one that is not ASCII is refused whatever its bytes are. -/
namespace HttpSocksProxy.Dns
open InetText

/-- `part.isdigit()`. -/
def isDigits (part : List Char) : Bool := part ≠ [] && part.all fun c => '0' ≤ c && c ≤ '9'

/-- `struct.pack("B")` of a decimal number. -/
def packDecimal (part : List Char) : Option UInt8 :=
  (numeralValue 10 part).bind fun n => if n < 256 then some n.toUInt8 else none

/-- `dns.ipv4.inet_aton`. -/
def ipv4Aton (text : List Char) : Option (List UInt8) :=
  let parts := text.splitOn '.'
  if parts.length ≠ 4 then none
  else if parts.any fun part => !isDigits part || 1 < part.length && part.head? = some '0' then none
  else parts.mapM packDecimal

/-- `$` also matches in front of a last newline. -/
def beforeNewline (text : List Char) : List Char :=
  if text.getLast? = some '\n' then text.dropLast else text

/-- `_v4_ending`: what stands before the last colon and the dotted digits behind it. -/
def v4Ending (text : List Char) : Option (List Char × List Char) :=
  let line := beforeNewline text
  let front := line.rdropWhile (· ≠ ':')
  let dotted := line.rtakeWhile (· ≠ ':')
  if front ≠ [] ∧ '\n' ∉ front ∧ (dotted.splitOn '.').length = 4 ∧ (dotted.splitOn '.').all isDigits then
    some (front.dropLast, dotted)
  else none

/-- A dotted ending becomes two chunks of hex digits. -/
def undotted (text : List Char) : Option (List Char) :=
  match v4Ending text with
  | none => some text
  | some (front, dotted) =>
    (ipv4Aton dotted).map fun b => front ++ ':' :: (hexlify (b.take 2) ++ ':' :: hexlify (b.drop 2))

/-- `_colon_colon_end`. -/
def colonColonEnd (text : List Char) : Bool :=
  [':', ':'].isSuffixOf (beforeNewline text) && !(beforeNewline text).contains '\n'

/-- `'::<whatever>'` becomes `':<whatever>'`, or else `'<whatever>::'` becomes `'<whatever>:'`. -/
def trimmed (text : List Char) : List Char :=
  if [':', ':'].isPrefixOf text then text.drop 1
  else if colonColonEnd text then text.dropLast
  else text

/-- A chunk, filled up to four digits. -/
def padded (chunk : List Char) : List Char := List.replicate (4 - chunk.length) '0' ++ chunk

/-- One turn of the loop over the `l` chunks. -/
def canonicalStep (l : Nat) (s : Bool × List (List Char)) (chunk : List Char) :
    Option (Bool × List (List Char)) :=
  if chunk = [] then
    if s.1 then none else some (true, s.2 ++ List.replicate (8 - l + 1) ['0', '0', '0', '0'])
  else if 4 < chunk.length then none
  else some (s.1, s.2 ++ [padded chunk])

/-- The canonical eight chunks of four hex digits. -/
def canonical (chunks : List (List Char)) : Option (List Char) :=
  if 8 < chunks.length then none
  else (chunks.foldlM (canonicalStep chunks.length) (false, [])).bind fun s =>
    if chunks.length < 8 ∧ s.1 = false then none else some s.2.flatten

/-- `binascii.unhexlify`. -/
def unhexlify : List Char → Option (List UInt8)
  | [] => some []
  | [_] => none
  | hi :: lo :: rest => do
    let hi ← digitValue hi
    let lo ← digitValue lo
    let rest ← unhexlify rest
    return (hi * 16 + lo).toUInt8 :: rest

/-- No colon at either end, other than a double one. -/
def wellEnded (text : List Char) : Bool :=
  text ≠ [] && !([':'].isSuffixOf text && !(List.isSuffixOf [':', ':'] text)) &&
    !([':'].isPrefixOf text && !(List.isPrefixOf [':', ':'] text))

/-- `dns.ipv6.inet_aton`, with a scope not ignored. -/
def ipv6Aton (text : List Char) : Option (List UInt8) :=
  if wellEnded text then do
    let btext ← undotted (if text = [':', ':'] then ['0', ':', ':'] else text)
    let hex ← canonical ((trimmed btext).splitOn ':')
    unhexlify hex
  else none

/-- What `ignore_scope` leaves of a text. -/
def withoutScope (text : List Char) : Option (List Char) :=
  match text.splitOn '%' with
  | [_] => some text
  | [address, _] => some address
  | _ => none

namespace Inet

/-- `dns.inet.inet_pton`. -/
def inetPton : Family → List Char → Option (List UInt8)
  | .inet, text => ipv4Aton text
  | .inet6, text => (withoutScope text).bind ipv6Aton

/-- `dns.inet.inet_ntop`. -/
def inetNtop : Family → List UInt8 → Option (List Char)
  | .inet => ipv4Ntoa
  | .inet6 => ipv6Ntoa

def afForAddress (text : List Char) : Option Family :=
  if (inetPton .inet text).isSome then some .inet
  else if (inetPton .inet6 text).isSome then some .inet6
  else none

end Inet

section Lists
variable {f g : A → Option B} {xs : List A} {ys : List B}

theorem mapM_value (mapped : xs.mapM f = some ys) (member : x ∈ xs) : ∃ y ∈ ys, f x = some y := by
  induction xs generalizing ys with
  | nil => cases member
  | cons z rest ih =>
    simp only [List.mapM_cons, Option.bind_eq_bind, Option.bind_eq_some_iff, Option.pure_def,
      Option.some.injEq] at mapped
    obtain ⟨y, first, ys, later, rfl⟩ := mapped
    rcases List.mem_cons.mp member with rfl | inside
    · exact ⟨y, List.mem_cons_self, first⟩
    · obtain ⟨y', listed, value⟩ := ih later inside
      exact ⟨y', List.mem_cons_of_mem y listed, value⟩

theorem mapM_fails (member : x ∈ xs) (fails : f x = none) : xs.mapM f = none := by
  cases mapped : xs.mapM f with
  | none => rfl
  | some ys =>
    obtain ⟨y, _, value⟩ := mapM_value mapped member
    rw [fails] at value
    contradiction

theorem mapM_same (same : ∀ x ∈ xs, f x = g x) : xs.mapM f = xs.mapM g := by
  induction xs with
  | nil => rfl
  | cons x rest ih =>
    rw [List.mapM_cons, List.mapM_cons, same x List.mem_cons_self,
      ih fun y member => same y (List.mem_cons_of_mem x member)]

theorem mapM_length (mapped : xs.mapM f = some ys) : ys.length = xs.length := by
  induction xs generalizing ys with
  | nil =>
    cases Option.some.inj mapped
    rfl
  | cons x rest ih =>
    simp only [List.mapM_cons, Option.bind_eq_bind, Option.bind_eq_some_iff, Option.pure_def,
      Option.some.injEq] at mapped
    obtain ⟨y, _, ys, later, rfl⟩ := mapped
    rw [List.length_cons, List.length_cons, ih later]

end Lists

theorem digitValue_decimal (value : digitValue c = some d) (small : d < 10) : '0' ≤ c ∧ c ≤ '9' := by
  unfold digitValue at value
  split at value
  case isTrue decimal => exact decimal
  case isFalse =>
    have far (lower upper : Char) (offset : Nat) (low : offset + 10 ≤ lower.toNat)
        (inside : lower ≤ c ∧ c ≤ upper) (same : c.toNat - offset = d) : False := by
      have : lower.toNat ≤ c.toNat := inside.1
      omega
    split at value
    case isTrue letter => exact (far 'a' 'f' 87 (by decide) letter (Option.some.inj value)).elim
    case isFalse =>
      split at value
      case isTrue letter => exact (far 'A' 'F' 55 (by decide) letter (Option.some.inj value)).elim
      case isFalse => contradiction

/-- A number in base ten is written in decimal digits. -/
theorem numeralValue_decimal (read : numeralValue 10 part = some n) : ∀ c ∈ part, '0' ≤ c ∧ c ≤ '9' := by
  intro c member
  obtain ⟨digits, values, value⟩ := Option.bind_eq_some_iff.mp read
  obtain ⟨small, _⟩ := Option.ite_none_right_eq_some.mp value
  obtain ⟨d, listed, here⟩ := mapM_value values member
  exact digitValue_decimal here (by simpa using List.all_eq_true.mp small d listed)

theorem octet_packDecimal (part : List Char) : octet part =
    if !isDigits part || 1 < part.length && part.head? = some '0' then none else packDecimal part := by
  by_cases empty : part = []
  · subst empty
    rfl
  have digits : isDigits part = false → numeralValue 10 part = none := by
    intro other
    cases read : numeralValue 10 part with
    | none => rfl
    | some n =>
      have all : isDigits part = true := by
        have decimal := numeralValue_decimal read
        simpa [isDigits, empty] using decimal
      rw [all] at other
      contradiction
  have leading : (1 < part.length ∧ part.head? = some '0') ↔ part.head? = some '0' ∧ part ≠ ['0'] := by
    cases part with
    | nil => exact absurd rfl empty
    | cons c rest =>
      cases rest with
      | nil => simp
      | cons d rest => simp
  rw [octet, packDecimal]
  simp only [empty, false_or]
  cases all : isDigits part with
  | false =>
    rw [digits all]
    simp
  | true => simp [leading]

/-- `dns.ipv4.inet_aton` reads what `inet_pton` reads. -/
theorem ipv4Aton_eq (text : List Char) : ipv4Aton text = pton4 text := by
  simp only [ipv4Aton, pton4]
  split
  case isTrue count =>
    cases mapped : (text.splitOn '.').mapM octet with
    | none => rfl
    | some address => rw [Option.filter_some, if_neg (by simpa [mapM_length mapped] using count)]
  case isFalse count =>
    split
    case isTrue bad =>
      obtain ⟨part, member, bad⟩ := List.any_eq_true.mp bad
      rw [mapM_fails member (by rw [octet_packDecimal, if_pos bad])]
      rfl
    case isFalse good =>
      have same : (text.splitOn '.').mapM octet = (text.splitOn '.').mapM packDecimal := by
        refine mapM_same fun part member => ?_
        rw [octet_packDecimal, if_neg fun bad => good (List.any_eq_true.mpr ⟨part, member, bad⟩)]
      rw [same]
      cases mapped : (text.splitOn '.').mapM packDecimal with
      | none => rfl
      | some address => rw [Option.filter_some, if_pos (by simpa [mapM_length mapped] using count)]

section Canonical
variable {chunks before after : List (List Char)}

theorem unhexlify_append (even : front.length = 2 * n) (back : List Char) : unhexlify (front ++ back) =
    (unhexlify front).bind fun a => (unhexlify back).map (a ++ ·) := by
  induction n generalizing front with
  | zero =>
    rw [List.eq_nil_of_length_eq_zero even]
    simp [unhexlify]
  | succ n ih =>
    match front, even with
    | hi :: lo :: rest, even =>
      have later : rest.length = 2 * n := by
        simp only [List.length_cons] at even
        omega
      simp only [List.cons_append, unhexlify, ih later, Option.bind_eq_bind, Option.pure_def]
      cases digitValue hi <;> cases digitValue lo <;> cases unhexlify rest <;> cases unhexlify back <;> rfl

theorem digitValue_small (value : digitValue c = some d) : d < 16 := by
  have within (lower upper : Char) (offset : Nat) (high : upper.toNat < offset + 16)
      (inside : lower ≤ c ∧ c ≤ upper) (same : c.toNat - offset = d) : d < 16 := by
    have : c.toNat ≤ upper.toNat := inside.2
    omega
  unfold digitValue at value
  split at value
  case isTrue decimal => exact within '0' '9' 48 (by decide) decimal (Option.some.inj value)
  case isFalse =>
    split at value
    case isTrue letter => exact within 'a' 'f' 87 (by decide) letter (Option.some.inj value)
    case isFalse =>
      split at value
      case isTrue letter => exact within 'A' 'F' 55 (by decide) letter (Option.some.inj value)
      case isFalse => contradiction

theorem numeralValue_leading (base k : Nat) (chunk : List Char) (positive : 0 < base) :
    numeralValue base (List.replicate k '0' ++ chunk) = numeralValue base chunk := by
  induction k with
  | zero => rfl
  | succ k ih =>
    rw [← ih, List.replicate_succ, List.cons_append, numeralValue, numeralValue, List.mapM_cons]
    cases (List.replicate k '0' ++ chunk).mapM digitValue with
    | none => rfl
    | some digits =>
      have zero : digitValue '0' = some 0 := rfl
      simp [zero, positive, Nat.ofDigits_append]

theorem hextet_four (a b c d : Char) : unhexlify [a, b, c, d] = hextet [a, b, c, d] := by
  rw [hextet, if_neg (by simp), numeralValue]
  simp only [unhexlify, List.mapM_cons, List.mapM_nil, Option.bind_eq_bind, Option.pure_def]
  cases first : digitValue a with
  | none => rfl
  | some a' =>
    cases second : digitValue b with
    | none => rfl
    | some b' =>
      cases third : digitValue c with
      | none => rfl
      | some c' =>
        cases fourth : digitValue d with
        | none => rfl
        | some d' =>
          have small := And.intro (digitValue_small first) (digitValue_small second)
          have small' := And.intro (digitValue_small third) (digitValue_small fourth)
          have value : Nat.ofDigits 16 [d', c', b', a'] = (a' * 16 + b') * 256 + (c' * 16 + d') := by
            simp only [Nat.ofDigits_cons, Nat.ofDigits_nil]
            omega
          have high : ((a' * 16 + b') * 256 + (c' * 16 + d')) / 256 = a' * 16 + b' := by omega
          have low : ((a' * 16 + b') * 256 + (c' * 16 + d')) % 256 = c' * 16 + d' := by omega
          simp [small, small', bytesOf, value, high, low]

theorem unhexlify_padded (filled : chunk ≠ []) (short : chunk.length ≤ 4) :
    unhexlify (padded chunk) = hextet chunk := by
  have four : (padded chunk).length = 4 := by
    rw [padded, List.length_append, List.length_replicate]
    omega
  have same : hextet (padded chunk) = hextet chunk := by
    have nonempty : padded chunk ≠ [] := List.ne_nil_of_length_pos (by omega)
    rw [hextet, hextet, if_neg (by simp [nonempty, four]), if_neg (by simp [filled, short]), padded,
      numeralValue_leading 16 _ _ (by decide)]
  obtain ⟨a, b, c, d, digits⟩ := List.length_eq_four.mp four
  rw [← same, digits]
  exact hextet_four a b c d

theorem hextets_cons (chunk : List Char) (chunks : List (List Char)) : hextets (chunk :: chunks) =
    (hextet chunk).bind fun x => (hextets chunks).map (x ++ ·) := by
  simp only [hextets, List.mapM_cons]
  cases hextet chunk <;> cases chunks.mapM hextet <;> rfl

theorem hextets_append (front back : List (List Char)) : hextets (front ++ back) =
    (hextets front).bind fun x => (hextets back).map (x ++ ·) := by
  induction front with
  | nil =>
    have whole : hextets [] = some [] := rfl
    cases read : hextets back <;> simp [whole, read]
  | cons chunk front ih =>
    rw [List.cons_append, hextets_cons, hextets_cons, ih]
    cases hextet chunk <;> cases hextets front <;> cases hextets back <;> simp

theorem hextets_length (read : hextets chunks = some bytes) : bytes.length = 2 * chunks.length := by
  induction chunks generalizing bytes with
  | nil =>
    cases Option.some.inj read
    rfl
  | cons chunk chunks ih =>
    rw [hextets_cons] at read
    obtain ⟨x, first, read⟩ := Option.bind_eq_some_iff.mp read
    obtain ⟨rest, later, rfl⟩ := Option.map_eq_some_iff.mp read
    obtain ⟨_, made⟩ := Option.ite_none_left_eq_some.mp first
    obtain ⟨n, _, rfl⟩ := Option.map_eq_some_iff.mp made
    rw [List.length_append, ih later, length_bytesOf, List.length_cons, List.length_cons, List.length_nil]
    omega

theorem unhexlify_zeros (n : Nat) :
    unhexlify (List.replicate n ['0', '0', '0', '0']).flatten = some (List.replicate (2 * n) 0) := by
  induction n with
  | zero => rfl
  | succ n ih =>
    rw [List.replicate_succ, List.flatten_cons, unhexlify_append (n := 2) rfl, ih]
    rfl

/-- What the loop makes of chunks with no empty one among them. -/
theorem foldlM_filled (l : Nat) (seen : Bool) (acc : List (List Char)) (filled : [] ∉ chunks) :
    chunks.foldlM (canonicalStep l) (seen, acc) = none ∧ hextets chunks = none ∨
      ∃ made, chunks.foldlM (canonicalStep l) (seen, acc) = some (seen, acc ++ made) ∧
        made.flatten.length = 2 * (2 * chunks.length) ∧ unhexlify made.flatten = hextets chunks := by
  induction chunks generalizing acc with
  | nil => exact .inr ⟨[], by simp, rfl, rfl⟩
  | cons chunk chunks ih =>
    obtain ⟨first, later⟩ := List.ne_and_not_mem_of_not_mem_cons filled
    have first := Ne.symm first
    rw [List.foldlM_cons, canonicalStep, if_neg first, hextets_cons]
    by_cases long : 4 < chunk.length
    case pos =>
      have unread : hextet chunk = none := if_pos (.inr long)
      exact .inl ⟨by rw [if_pos long]; rfl, by rw [unread]; rfl⟩
    case neg =>
      have read := unhexlify_padded first (Nat.le_of_not_lt long)
      have four : (padded chunk).length = 2 * 2 := by
        rw [padded, List.length_append, List.length_replicate]
        omega
      rw [if_neg long]
      rcases ih (acc ++ [padded chunk]) later with
        ⟨failed, unread⟩ | ⟨made, done, size, rest⟩
      · refine .inl ⟨failed, ?_⟩
        rw [unread]
        cases hextet chunk <;> rfl
      · refine .inr ⟨padded chunk :: made, ?_, ?_, ?_⟩
        · rw [List.append_assoc] at done
          exact done
        · rw [List.flatten_cons, List.length_append, size, four, List.length_cons]
          omega
        · rw [List.flatten_cons, unhexlify_append four, read, rest]

/-- A second empty chunk is refused. -/
theorem foldlM_seen (l : Nat) (acc : List (List Char)) (empty : [] ∈ chunks) :
    chunks.foldlM (canonicalStep l) (true, acc) = none := by
  induction chunks generalizing acc with
  | nil => cases empty
  | cons chunk chunks ih =>
    rw [List.foldlM_cons, canonicalStep]
    split
    case isTrue => rfl
    case isFalse filled =>
      split
      case isTrue => rfl
      case isFalse => exact ih _ (List.mem_of_ne_of_mem (Ne.symm filled) empty)

/-- The bytes of the canonical chunks. -/
def readChunks (chunks : List (List Char)) : Option (List UInt8) := (canonical chunks).bind unhexlify

theorem readChunks_filled (filled : [] ∉ chunks) :
    readChunks chunks = (hextets chunks).filter (·.length = 16) := by
  have sized {bytes : List UInt8} (read : hextets chunks = some bytes) (other : chunks.length ≠ 8) :
      (hextets chunks).filter (·.length = 16) = none := by
    have := hextets_length read
    rw [read, Option.filter_some, if_neg (by simp; omega)]
  rw [readChunks, canonical]
  split
  case isTrue long =>
    cases read : hextets chunks with
    | none => rfl
    | some bytes => exact (read ▸ sized read (by omega)).symm
  case isFalse =>
    rcases foldlM_filled chunks.length false [] filled with ⟨failed, unread⟩ | ⟨made, done, _, read⟩
    · rw [failed, unread]
      rfl
    · rw [done, ← read, Option.bind_some, List.nil_append]
      by_cases short : chunks.length < 8
      case pos =>
        rw [if_pos ⟨short, rfl⟩, Option.bind_none, read]
        cases whole : hextets chunks with
        | none => rfl
        | some bytes => exact (whole ▸ sized whole (by omega)).symm
      case neg =>
        rw [if_neg fun none => short none.1, Option.bind_some, read]
        cases whole : hextets chunks with
        | none => rfl
        | some bytes =>
          have := hextets_length whole
          rw [Option.filter_some, if_pos (by simp; omega)]

/-- What is missing to sixteen bytes is zeros. -/
def fillGap (l r : List UInt8) : Option (List UInt8) :=
  if l.length + r.length ≤ 14 then some (l ++ List.replicate (16 - (l.length + r.length)) 0 ++ r) else none

/-- One empty chunk stands for all the zeros that are missing. -/
theorem readChunks_gap (left : [] ∉ before) (right : [] ∉ after) : readChunks (before ++ [] :: after) =
    (hextets before).bind fun l => (hextets after).bind (fillGap l) := by
  have total : (before ++ [] :: after).length = before.length + after.length + 1 := by
    simp only [List.length_append, List.length_cons]
    omega
  rw [readChunks, canonical, total]
  split
  case isTrue long =>
    cases first : hextets before with
    | none => rfl
    | some l =>
      cases second : hextets after with
      | none => rfl
      | some r =>
        have := hextets_length first
        have := hextets_length second
        simp only [Option.bind_none, Option.bind_some]
        rw [fillGap, if_neg (by omega)]
  case isFalse fits =>
    rw [List.foldlM_append]
    rcases foldlM_filled (before.length + after.length + 1) false [] left with
      ⟨failed, unread⟩ | ⟨made, done, size, read⟩
    · rw [failed, unread]
      rfl
    · rw [done]
      have gap : canonicalStep (before.length + after.length + 1) (false, [] ++ made) [] = some (true, made ++
          List.replicate (8 - (before.length + after.length + 1) + 1) ['0', '0', '0', '0']) := rfl
      simp only [Option.bind_eq_bind, Option.bind_some, List.foldlM_cons, gap]
      rcases foldlM_filled (before.length + after.length + 1) true (made ++ List.replicate
          (8 - (before.length + after.length + 1) + 1) ['0', '0', '0', '0']) right with
        ⟨failed, unread⟩ | ⟨made', done', _, read'⟩
      · rw [failed, unread]
        cases hextets before <;> rfl
      · have zeros := unhexlify_zeros (8 - (before.length + after.length + 1) + 1)
        have even : (List.replicate (8 - (before.length + after.length + 1) + 1)
            ['0', '0', '0', '0']).flatten.length = 2 * (2 * (8 - (before.length + after.length + 1) + 1)) := by
          simp only [List.length_flatten, List.map_replicate, List.sum_replicate_nat, List.length_cons,
            List.length_nil]
          omega
        rw [done', Option.bind_some, if_neg (by simp), Option.bind_some, List.flatten_append, List.flatten_append,
          List.append_assoc, unhexlify_append size, unhexlify_append even, zeros, read, read']
        cases first : hextets before with
        | none => rfl
        | some l =>
          cases second : hextets after with
          | none => rfl
          | some r =>
            have := hextets_length first
            have := hextets_length second
            have missing : 2 * (8 - (before.length + after.length + 1) + 1) = 16 - (l.length + r.length) := by
              omega
            simp only [Option.bind_some, Option.map_some]
            rw [fillGap, if_pos (by omega), missing, List.append_assoc]

theorem readChunks_twice (second : [] ∈ after) : readChunks (before ++ [] :: after) = none := by
  rw [readChunks, canonical]
  split
  case isTrue => rfl
  case isFalse =>
    rw [List.foldlM_append]
    cases before.foldlM (canonicalStep (before ++ [] :: after).length) (false, []) with
    | none => rfl
    | some s =>
      rw [Option.bind_eq_bind, Option.bind_some, List.foldlM_cons, canonicalStep, if_pos rfl]
      split
      case isTrue => rfl
      case isFalse =>
        rw [Option.bind_eq_bind, Option.bind_some, foldlM_seen _ _ second]
        rfl

theorem hextet_foreign (foreign : digitValue c = none) (inside : c ∈ chunk) : hextet chunk = none := by
  cases read : hextet chunk with
  | none => rfl
  | some bytes =>
    obtain ⟨_, made⟩ := Option.ite_none_left_eq_some.mp read
    obtain ⟨n, value, _⟩ := Option.map_eq_some_iff.mp made
    obtain ⟨digits, values, _⟩ := Option.bind_eq_some_iff.mp value
    rw [mapM_fails inside foreign] at values
    contradiction

/-- A chunk with anything else than hex digits is refused. -/
theorem readChunks_foreign (foreign : digitValue c = none) (inside : c ∈ chunk) (member : chunk ∈ chunks) :
    readChunks chunks = none := by
  have unread {chunks : List (List Char)} (member : chunk ∈ chunks) : hextets chunks = none := by
    rw [hextets, mapM_fails member (hextet_foreign foreign inside)]
    rfl
  by_cases filled : [] ∈ chunks
  case neg => rw [readChunks_filled filled, unread member, Option.filter_none]
  case pos =>
    obtain ⟨before, after, rfl, left⟩ := List.eq_append_cons_of_mem filled
    by_cases right : [] ∈ after
    case pos => exact readChunks_twice right
    case neg =>
      rw [readChunks_gap left right]
      rcases List.mem_append.mp member with front | back
      · rw [unread front]
        rfl
      · rcases List.mem_cons.mp back with rfl | back
        · cases inside
        · rw [unread back]
          cases hextets before <;> rfl

end Canonical

end HttpSocksProxy.Dns
