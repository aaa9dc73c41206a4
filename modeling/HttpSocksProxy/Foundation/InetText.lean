import Mathlib.Data.List.TakeWhile
import Mathlib.Data.Nat.Digits.Lemmas

/-! `inet_pton` and `inet_ntop`: IPv4 and IPv6 addresses as text. Printing an
address and reading it back gives the same address; a text is canonical when
printing gives it back. -/
namespace InetText

inductive Family where
  | inet
  | inet6
  deriving DecidableEq, Repr

def Family.size : Family → Nat
  | inet => 4
  | inet6 => 16

def digitChar (n : Nat) : Char := Char.ofNat (if n < 10 then 48 + n else 87 + n)

def digitValue (c : Char) : Option Nat :=
  if '0' ≤ c ∧ c ≤ '9' then some (c.toNat - 48)
  else if 'a' ≤ c ∧ c ≤ 'f' then some (c.toNat - 87)
  else if 'A' ≤ c ∧ c ≤ 'F' then some (c.toNat - 55)
  else none

/-- A number without leading zeros, in base ten or sixteen. -/
def numeral (base n : Nat) : List Char :=
  if n = 0 then ['0'] else (Nat.digits base n).reverse.map digitChar

def numeralValue (base : Nat) (s : List Char) : Option Nat :=
  (s.mapM digitValue).bind fun ds =>
    if ds.all (· < base) then some (Nat.ofDigits base ds.reverse) else none

def octet (s : List Char) : Option UInt8 :=
  if s = [] ∨ s.head? = some '0' ∧ s ≠ ['0'] then none
  else (numeralValue 10 s).bind fun n => if n < 256 then some n.toUInt8 else none

def ntop4 (address : List UInt8) : List Char :=
  ['.'].intercalate (address.map fun b => numeral 10 b.toNat)

def pton4 (s : List Char) : Option (List UInt8) :=
  ((s.splitOn '.').mapM octet).filter (·.length = 4)

def wordsOf : List UInt8 → List Nat
  | hi :: lo :: rest => (hi.toNat * 256 + lo.toNat) :: wordsOf rest
  | _ => []

def bytesOf (words : List Nat) : List UInt8 :=
  words.flatMap fun w => [(w / 256).toUInt8, (w % 256).toUInt8]

def hextet (s : List Char) : Option (List UInt8) :=
  if s = [] ∨ 4 < s.length then none else (numeralValue 16 s).map fun n => bytesOf [n]

/-- Groups between colons; the last one may be a dotted IPv4 address. -/
def groupBytes : List (List Char) → Option (List UInt8)
  | [] => some []
  | [g] => if '.' ∈ g then pton4 g else hextet g
  | g :: rest => (hextet g).bind fun first => (groupBytes rest).map (first ++ ·)

def hextets (groups : List (List Char)) : Option (List UInt8) :=
  (groups.mapM hextet).map List.flatten

/-- The reading of the groups after `::`, which may be none. -/
def afterRun (right : List (List Char)) : Option (List UInt8) :=
  if right = [[]] then some [] else if right = [] then none else groupBytes right

/-- Fills the place of `::` with zeros; it stands for at least one group. -/
def compressed (left right : List (List Char)) : Option (List UInt8) := do
  let l ← hextets left
  let r ← afterRun right
  if l.length + r.length ≤ 14 then some (l ++ List.replicate (16 - (l.length + r.length)) 0 ++ r)
  else none

def pton6 (s : List Char) : Option (List UInt8) :=
  let groups := s.splitOn ':'
  let left := groups.takeWhile (· ≠ [])
  match groups.dropWhile (· ≠ []) with
  | [] => (groupBytes left).filter (·.length = 16)
  | _ :: after =>
    if left = [] then
      match after with
      | [] :: right => compressed [] right
      | _ => none
    else compressed left after

def zeroRun (words : List Nat) (base : Nat) : Nat := ((words.drop base).takeWhile (· = 0)).length

/-- The first of the longest runs of zero words. -/
def bestRun (words : List Nat) : Nat :=
  (List.range 8).foldl (fun best i => if zeroRun words best < zeroRun words i then i else best) 0

/-- The groups after `::`; IPv4-mapped and IPv4-compatible addresses end dotted. -/
def tailGroups (words : List Nat) (base len : Nat) : List (List Char) :=
  if base = 0 ∧ (len = 6 ∨ len = 5 ∧ words[5]? = some 0xffff) then
    ((words.drop len).take (6 - len)).map (numeral 16) ++ [ntop4 (bytesOf (words.drop 6))]
  else (words.drop (base + len)).map (numeral 16)

def orEmpty (groups : List (List Char)) : List (List Char) :=
  if groups = [] then [[]] else groups

def wordsText (words : List Nat) : List Char :=
  let base := bestRun words
  let len := zeroRun words base
  [':'].intercalate <|
    if len < 2 then words.map (numeral 16)
    else orEmpty ((words.take base).map (numeral 16)) ++ [[]] ++
      orEmpty (tailGroups words base len)

def ntop6 (address : List UInt8) : List Char := wordsText (wordsOf address)

def inetPton : Family → List Char → Option (List UInt8)
  | .inet => pton4
  | .inet6 => pton6

def inetNtop : Family → List UInt8 → List Char
  | .inet => ntop4
  | .inet6 => ntop6

theorem mapM_inverse {f : α → β} {g : β → Option γ} {h : α → γ} (xs : List α)
    (inverse : ∀ x ∈ xs, g (f x) = some (h x)) : (xs.map f).mapM g = some (xs.map h) := by
  induction xs with
  | nil => rfl
  | cons x rest ih =>
    have head := inverse x (by simp)
    have tail := ih fun y member => inverse y (by simp [member])
    simp [List.mapM_cons, head, tail]

theorem digitValue_digitChar (small : n < 16) : digitValue (digitChar n) = some n := by
  have all : ∀ m < 16, digitValue (digitChar m) = some m := by decide
  exact all n small

theorem digitChar_alnum (small : n < 16) : digitChar n ≠ '.' ∧ digitChar n ≠ ':' ∧
    (n ≠ 0 → digitChar n ≠ '0') := by
  have all : ∀ m < 16, digitChar m ≠ '.' ∧ digitChar m ≠ ':' ∧ (m ≠ 0 → digitChar m ≠ '0') := by
    decide
  exact all n small

section Numerals
variable {base : Nat} (known : base = 10 ∨ base = 16)
include known

theorem digits_small (n : Nat) : ∀ d ∈ Nat.digits base n, d < base ∧ d < 16 := by
  intro d member
  have := Nat.digits_lt_base (b := base) (by omega) member
  omega

theorem numeralValue_numeral (n : Nat) : numeralValue base (numeral base n) = some n := by
  simp only [numeral, numeralValue]
  split
  case isTrue zero =>
    subst zero
    rcases known with rfl | rfl <;> rfl
  case isFalse =>
    have small := digits_small known n
    have values := mapM_inverse (f := digitChar) (h := id) (Nat.digits base n).reverse
      fun d member => digitValue_digitChar (small d (by simpa using member)).2
    have inside : (Nat.digits base n).reverse.all (· < base) = true := by
      simp only [List.all_reverse, List.all_eq_true, decide_eq_true_eq]
      exact fun d member => (small d member).1
    rw [values, List.map_id, Option.bind_some, if_pos inside, List.reverse_reverse,
      Nat.ofDigits_digits]

theorem numeral_chars (n : Nat) : ∀ c ∈ numeral base n, c ≠ '.' ∧ c ≠ ':' := by
  intro c member
  simp only [numeral] at member
  split at member
  · simp_all
  · obtain ⟨d, digit, rfl⟩ := List.mem_map.mp member
    obtain ⟨dot, colon, _⟩ := digitChar_alnum (digits_small known n d (by simpa using digit)).2
    exact ⟨dot, colon⟩

omit known in
theorem numeral_ne_nil (base n : Nat) : numeral base n ≠ [] := by
  simp only [numeral]
  split
  · simp
  case isFalse positive => simpa using Nat.digits_ne_nil_iff_ne_zero.mpr positive

/-- A numeral starts with zero only when it is zero. -/
theorem numeral_head (n : Nat) (zero : (numeral base n).head? = some '0') : numeral base n = ['0'] := by
  simp only [numeral] at zero ⊢
  split at zero
  case isTrue n0 => rw [if_pos n0]
  case isFalse positive =>
    have nonempty : Nat.digits base n ≠ [] := Nat.digits_ne_nil_iff_ne_zero.mpr positive
    rw [List.head?_map, List.head?_reverse, List.getLast?_eq_getLast_of_ne_nil nonempty] at zero
    have last := Nat.getLast_digit_ne_zero base positive
    have small := digits_small known n _ (List.getLast_mem nonempty)
    exact absurd (Option.some.inj zero) ((digitChar_alnum small.2).2.2 last)

end Numerals

theorem octet_numeral (b : UInt8) : octet (numeral 10 b.toNat) = some b := by
  have head : (numeral 10 b.toNat).head? = some '0' → _ := numeral_head (.inl rfl) b.toNat
  have nonempty := numeral_ne_nil 10 b.toNat
  simp only [octet]
  rw [if_neg (by tauto), numeralValue_numeral (.inl rfl)]
  simp [b.toNat_lt]

theorem ntop4_chars (address : List UInt8) : ∀ c ∈ ntop4 address, c ≠ ':' := by
  induction address with
  | nil => simp [ntop4]
  | cons b rest ih =>
    intro c member
    have here : c ∈ numeral 10 b.toNat → c ≠ ':' := fun inside => (numeral_chars (.inl rfl) _ c inside).2
    cases rest with
    | nil => exact here (by simpa [ntop4] using member)
    | cons b' rest =>
      simp only [ntop4, List.map_cons, List.intercalate_cons_cons, List.mem_append] at member ih
      rcases member with (inside | dot) | later
      · exact here inside
      · simp_all
      · exact ih c later

theorem ntop4_dotted (several : 2 ≤ address.length) : '.' ∈ ntop4 address := by
  match address, several with
  | b :: b' :: rest, _ => simp [ntop4, List.intercalate_cons_cons]

theorem pton4_ntop4 (size : address.length = 4) : pton4 (ntop4 address) = some address := by
  have dots : ∀ l ∈ address.map fun b => numeral 10 b.toNat, '.' ∉ l := by
    simpa using fun b _ dot => (numeral_chars (.inl rfl) b.toNat _ dot).1 rfl
  have nonempty : (address.map fun b => numeral 10 b.toNat) ≠ [] := by
    rintro empty
    simp [List.map_eq_nil_iff.mp empty] at size
  have octets := mapM_inverse (f := fun b => numeral 10 b.toNat) (h := id) address
    fun b _ => octet_numeral b
  rw [pton4, ntop4, List.splitOn_intercalate _ dots nonempty, octets]
  simp [size]

theorem numeral_length (small : n < 65536) : (numeral 16 n).length ≤ 4 := by
  simp only [numeral]
  split
  · simp
  · have := (Nat.digits_length_le_iff (b := 16) (k := 4) (by decide) n).mpr (by simpa using small)
    simpa using this

theorem hextet_numeral (small : n < 65536) : hextet (numeral 16 n) = some (bytesOf [n]) := by
  have nonempty := numeral_ne_nil 16 n
  have short := numeral_length small
  rw [hextet, if_neg (by simp [nonempty]; omega), numeralValue_numeral (.inr rfl)]
  rfl

theorem bytesOf_append (a b : List Nat) : bytesOf (a ++ b) = bytesOf a ++ bytesOf b :=
  List.flatMap_append

theorem bytesOf_cons (w : Nat) (rest : List Nat) : bytesOf (w :: rest) = bytesOf [w] ++ bytesOf rest :=
  bytesOf_append [w] rest

theorem length_bytesOf (words : List Nat) : (bytesOf words).length = 2 * words.length := by
  induction words with
  | nil => rfl
  | cons w rest ih =>
    rw [bytesOf_cons, List.length_append, ih]
    simp [bytesOf]
    omega

theorem bytesOf_zeros (n : Nat) : bytesOf (List.replicate n 0) = List.replicate (2 * n) 0 := by
  induction n with
  | zero => rfl
  | succ n ih =>
    rw [List.replicate_succ, bytesOf_cons, ih, Nat.mul_succ, Nat.add_comm, ← List.replicate_append_replicate]
    rfl

theorem wordsOf_small (address : List UInt8) : ∀ w ∈ wordsOf address, w < 65536 := by
  induction address using wordsOf.induct with
  | case1 hi lo rest ih =>
    intro w member
    rcases List.mem_cons.mp member with rfl | later
    · have := hi.toNat_lt
      have := lo.toNat_lt
      omega
    · exact ih w later
  | case2 => simp [wordsOf]

theorem bytesOf_wordsOf (even : address.length = 2 * n) : bytesOf (wordsOf address) = address ∧
    (wordsOf address).length = n := by
  induction address using wordsOf.induct generalizing n with
  | case1 hi lo rest ih =>
    obtain ⟨m, rfl⟩ : ∃ m, n = m + 1 := ⟨n - 1, by simp at even; omega⟩
    obtain ⟨bytes, length⟩ := ih (n := m) (by simp at even; omega)
    have below := lo.toNat_lt
    have high : (hi.toNat * 256 + lo.toNat) / 256 = hi.toNat := by omega
    have low : (hi.toNat * 256 + lo.toNat) % 256 = lo.toNat := by omega
    rw [wordsOf, bytesOf_cons, bytes]
    exact ⟨by simp [bytesOf, high, low], by simp [length]⟩
  | case2 address short =>
    match address, short with
    | [], _ => exact ⟨rfl, by simp at even; simp [wordsOf, even]⟩
    | [b], _ => simp at even; omega
    | hi :: lo :: rest, short => exact absurd rfl (short hi lo rest)

theorem hextets_numerals (small : ∀ w ∈ words, w < 65536) :
    hextets (words.map (numeral 16)) = some (bytesOf words) := by
  have groups := mapM_inverse (f := numeral 16) (h := fun w => bytesOf [w]) words
    fun w member => hextet_numeral (small w member)
  simp [hextets, groups, bytesOf, List.flatMap]

theorem groupBytes_append (small : ∀ w ∈ words, w < 65536) :
    groupBytes (words.map (numeral 16) ++ [g]) = (groupBytes [g]).map (bytesOf words ++ ·) := by
  induction words with
  | nil => simp [bytesOf]
  | cons w rest ih =>
    have later := ih fun v member => small v (by simp [member])
    have more : groupBytes (numeral 16 w :: (rest.map (numeral 16) ++ [g])) =
        (hextet (numeral 16 w)).bind fun first =>
          (groupBytes (rest.map (numeral 16) ++ [g])).map (first ++ ·) := by
      cases rest <;> rfl
    rw [List.map_cons, List.cons_append, more, later, hextet_numeral (small w (by simp)),
      bytesOf_cons w rest]
    cases groupBytes [g] <;> simp

theorem groupBytes_numeral (small : w < 65536) : groupBytes [numeral 16 w] = some (bytesOf [w]) := by
  have plain : '.' ∉ numeral 16 w := fun dot => (numeral_chars (.inr rfl) w _ dot).1 rfl
  rw [groupBytes, if_neg plain, hextet_numeral small]

theorem groupBytes_numerals (small : ∀ w ∈ words, w < 65536) :
    groupBytes (words.map (numeral 16)) = some (bytesOf words) := by
  rcases List.eq_nil_or_concat words with rfl | ⟨rest, last, rfl⟩
  · rfl
  · rw [List.concat_eq_append] at small ⊢
    have start := groupBytes_append (g := numeral 16 last)
      fun w (member : w ∈ rest) => small w (by simp [member])
    rw [List.map_append, List.map_cons, List.map_nil, start,
      groupBytes_numeral (small last (by simp)), bytesOf_append]
    rfl

theorem zeroRun_split (words : List Nat) (base : Nat) : words =
    words.take base ++ List.replicate (zeroRun words base) 0 ++ words.drop (base + zeroRun words base) := by
  have zeros : (words.drop base).takeWhile (· = 0) = List.replicate (zeroRun words base) 0 := by
    refine List.eq_replicate_iff.mpr ⟨rfl, fun w member => ?_⟩
    simpa using List.all_eq_true.mp List.all_takeWhile w member
  have rest : (words.drop base).dropWhile (· = 0) = words.drop (base + zeroRun words base) := by
    rw [← List.drop_drop, zeroRun]
    generalize words.drop base = tail
    induction tail with
    | nil => rfl
    | cons w tail ih => by_cases zero : w = 0 <;> simp [zero, ih]
  rw [List.append_assoc, ← zeros, ← rest, List.takeWhile_append_dropWhile, List.take_append_drop]

theorem bytesOf_split (words : List Nat) (base : Nat) : bytesOf words =
    bytesOf (words.take base) ++ List.replicate (2 * zeroRun words base) 0 ++
      bytesOf (words.drop (base + zeroRun words base)) := by
  rw [← bytesOf_zeros, ← bytesOf_append, ← bytesOf_append, ← zeroRun_split]

theorem afterRun_orEmpty (filled : ∀ g ∈ groups, g ≠ []) :
    afterRun (orEmpty groups) = groupBytes groups := by
  simp only [orEmpty, afterRun]
  split
  case isTrue empty => rw [empty, if_pos rfl, groupBytes]
  case isFalse nonempty =>
    have separate : groups ≠ [[]] := by
      rintro rfl
      exact filled [] (by simp) rfl
    rw [if_neg separate]

theorem filled_span {groups : List (List Char)} (filled : ∀ g ∈ groups, g ≠ [] ∧ ':' ∉ g) :
    groups.takeWhile (· ≠ []) = groups ∧ groups.dropWhile (· ≠ []) = [] :=
  ⟨List.takeWhile_eq_self_iff.mpr fun g member => by simpa using (filled g member).1,
    List.dropWhile_eq_nil_iff.mpr fun g member => by simpa using (filled g member).1⟩

theorem pton6_run (left : ∀ g ∈ before, g ≠ [] ∧ ':' ∉ g) (right : ∀ g ∈ after, g ≠ [] ∧ ':' ∉ g) :
    pton6 ([':'].intercalate (orEmpty before ++ [[]] ++ orEmpty after)) =
      compressed before (orEmpty after) := by
  have plain (groups : List (List Char)) (inside : ∀ g ∈ groups, g ≠ [] ∧ ':' ∉ g) :
      ∀ g ∈ orEmpty groups, ':' ∉ g := by
    simp only [orEmpty]
    split
    · simp
    · exact fun g member => (inside g member).2
  have groups : ∀ g ∈ orEmpty before ++ [[]] ++ orEmpty after, ':' ∉ g := by
    intro g member
    rcases List.mem_append.mp member with earlier | later
    · rcases List.mem_append.mp earlier with first | gap
      · exact plain before left g first
      · rw [List.mem_singleton.mp gap]
        exact List.not_mem_nil
    · exact plain after right g later
  rw [pton6, List.splitOn_intercalate _ groups (by simp)]
  obtain ⟨takes, drops⟩ := filled_span left
  by_cases empty : before = []
  case pos => simp [empty, orEmpty]
  case neg =>
    rw [orEmpty, if_neg empty, List.append_assoc]
    simp only [List.takeWhile_append, List.dropWhile_append, takes, drops]
    simp [empty]

theorem numeral_group (words : List Nat) :
    ∀ g ∈ words.map (numeral 16), g ≠ [] ∧ ':' ∉ g := by
  intro g member
  obtain ⟨w, _, rfl⟩ := List.mem_map.mp member
  exact ⟨numeral_ne_nil 16 w, fun colon => (numeral_chars (.inr rfl) w _ colon).2 rfl⟩

section Words
variable {words : List Nat} (eight : words.length = 8) (small : ∀ w ∈ words, w < 65536)
include eight small

theorem groupBytes_tail (base len : Nat) : groupBytes (tailGroups words base len) =
    some (bytesOf (words.drop (base + len))) := by
  simp only [tailGroups]
  split
  case isTrue dotted =>
    obtain ⟨rfl, run⟩ := dotted
    have length : (bytesOf (words.drop 6)).length = 4 := by
      rw [length_bytesOf, List.length_drop, eight]
    have split : (words.drop len).take (6 - len) ++ words.drop 6 = words.drop len := by
      have six : words.drop 6 = (words.drop len).drop (6 - len) := by
        rw [List.drop_drop, show len + (6 - len) = 6 by omega]
      rw [six, List.take_append_drop]
    rw [groupBytes_append fun w member => small w (List.drop_subset _ _ (List.take_subset _ _ member)),
      groupBytes, if_pos (ntop4_dotted (by omega)), pton4_ntop4 length, Option.map_some,
      ← bytesOf_append, split, Nat.zero_add]
  case isFalse => exact groupBytes_numerals fun w member => small w (List.drop_subset _ _ member)

omit small in
theorem tailGroups_groups (base len : Nat) : ∀ g ∈ tailGroups words base len, g ≠ [] ∧ ':' ∉ g := by
  intro g member
  simp only [tailGroups] at member
  split at member
  case isTrue =>
    rcases List.mem_append.mp member with number | dotted
    · exact numeral_group _ g number
    · rw [List.mem_singleton.mp dotted]
      have length : (bytesOf (words.drop 6)).length = 4 := by
        rw [length_bytesOf, List.length_drop, eight]
      exact ⟨List.ne_nil_of_mem (ntop4_dotted (by omega)), fun colon => ntop4_chars _ _ colon rfl⟩
  case isFalse => exact numeral_group _ g member

theorem compressed_run (run : 2 ≤ zeroRun words base) :
    compressed ((words.take base).map (numeral 16))
      (orEmpty (tailGroups words base (zeroRun words base))) = some (bytesOf words) := by
  have left := hextets_numerals fun w member => small w (List.take_subset base words member)
  have right := groupBytes_tail eight small base (zeroRun words base)
  have filled := fun g member => (tailGroups_groups eight base (zeroRun words base) g member).1
  have total := congrArg List.length (bytesOf_split words base)
  simp only [List.length_append, List.length_replicate, length_bytesOf words, eight] at total
  have zeros : 16 - ((bytesOf (words.take base)).length +
      (bytesOf (words.drop (base + zeroRun words base))).length) = 2 * zeroRun words base := by omega
  have fits : (bytesOf (words.take base)).length +
      (bytesOf (words.drop (base + zeroRun words base))).length ≤ 14 := by omega
  rw [compressed, left, afterRun_orEmpty filled, right]
  simp only [Option.bind_eq_bind, Option.bind_some, if_pos fits, zeros]
  rw [← bytesOf_split]

theorem pton6_wordsText : pton6 (wordsText words) = some (bytesOf words) := by
  by_cases short : zeroRun words (bestRun words) < 2
  case pos =>
    have whole := numeral_group words
    have nonempty : words.map (numeral 16) ≠ [] := by
      simpa using List.ne_nil_of_length_pos (by omega : 0 < words.length)
    obtain ⟨all, none⟩ := filled_span whole
    simp only [wordsText, if_pos short, pton6]
    rw [List.splitOn_intercalate _ (fun g member => (whole g member).2) nonempty]
    simp only [all, none, groupBytes_numerals small]
    simp [length_bytesOf, eight]
  case neg =>
    simp only [wordsText, if_neg short]
    rw [pton6_run (numeral_group _) (tailGroups_groups eight _ _)]
    exact compressed_run eight small (by omega)

end Words

theorem pton6_ntop6 (size : address.length = 16) : pton6 (ntop6 address) = some address := by
  obtain ⟨bytes, eight⟩ := bytesOf_wordsOf (n := 8) size
  rw [ntop6, pton6_wordsText eight (wordsOf_small address), bytes]

theorem inetPton_inetNtop (size : address.length = family.size) :
    inetPton family (inetNtop family address) = some address := by
  cases family with
  | inet => exact pton4_ntop4 size
  | inet6 =>
    simp only [inetPton, inetNtop]
    exact pton6_ntop6 size

theorem compressed_length (filled : compressed left right = some address) : address.length = 16 := by
  simp only [compressed, Option.bind_eq_bind, Option.bind_eq_some_iff] at filled
  obtain ⟨l, _, r, _, done⟩ := filled
  obtain ⟨fits, rfl⟩ := by simpa using done
  simp only [List.length_append, List.length_replicate]
  omega

theorem inetPton_length (parsed : inetPton family text = some address) :
    address.length = family.size := by
  cases family with
  | inet => simpa [inetPton, Option.filter_eq_some_iff, Family.size] using (Option.filter_eq_some_iff.mp parsed).2
  | inet6 =>
    simp only [inetPton, pton6] at parsed
    split at parsed
    · simpa [Family.size] using (Option.filter_eq_some_iff.mp parsed).2
    · split at parsed
      · split at parsed
        · exact compressed_length parsed
        · cases parsed
      · exact compressed_length parsed

/-- A character that is no separator stands in one of the pieces. -/
theorem mem_splitOn {s : List Char} {sep c : Char} (member : c ∈ s) (other : c ≠ sep) : ∃ g ∈ s.splitOn sep, c ∈ g := by
  induction s with
  | nil => simp at member
  | cons d s ih =>
    obtain ⟨first, more, pieces⟩ := List.exists_cons_of_ne_nil (List.splitOn_ne_nil sep s)
    rw [List.splitOn_cons_eq_if_modifyHead, pieces]
    rw [pieces] at ih
    split
    case isTrue ends =>
      have later : c ∈ s := List.mem_of_ne_of_mem (fun same => other (same.trans (beq_iff_eq.mp ends))) member
      obtain ⟨g, inside, stands⟩ := ih later
      exact ⟨g, List.mem_cons_of_mem _ inside, stands⟩
    case isFalse =>
      rw [List.modifyHead_cons]
      rcases List.mem_cons.mp member with rfl | later
      · exact ⟨_, List.mem_cons_self, List.mem_cons_self⟩
      · obtain ⟨g, inside, stands⟩ := ih later
        rcases List.mem_cons.mp inside with rfl | inside
        · exact ⟨_, List.mem_cons_self, List.mem_cons_of_mem d stands⟩
        · exact ⟨g, List.mem_cons_of_mem _ inside, stands⟩

theorem mapM_some {f : α → Option β} {xs : List α} {ys : List β} (mapped : xs.mapM f = some ys)
    (member : x ∈ xs) : ∃ y, f x = some y := by
  induction xs generalizing ys with
  | nil => simp at member
  | cons z rest ih =>
    simp only [List.mapM_cons, Option.bind_eq_bind, Option.bind_eq_some_iff] at mapped
    obtain ⟨y, first, ys, later, _⟩ := mapped
    rcases List.mem_cons.mp member with rfl | inside
    · exact ⟨y, first⟩
    · exact ih later inside

theorem mapM_source {f : α → Option β} {xs : List α} {ys : List β} (mapped : xs.mapM f = some ys)
    (member : y ∈ ys) : ∃ x ∈ xs, f x = some y := by
  induction xs generalizing ys with
  | nil =>
    cases Option.some.inj mapped
    cases member
  | cons z rest ih =>
    simp only [List.mapM_cons, Option.bind_eq_bind, Option.bind_eq_some_iff, Option.pure_def,
      Option.some.injEq] at mapped
    obtain ⟨w, first, ws, later, rfl⟩ := mapped
    rcases List.mem_cons.mp member with rfl | inside
    · exact ⟨z, List.mem_cons_self, first⟩
    · obtain ⟨x, there, same⟩ := ih later inside
      exact ⟨x, List.mem_cons_of_mem _ there, same⟩

theorem pton4_colon (parsed : pton4 s = some address) : ':' ∉ s := by
  intro colon
  have mapped := (Option.filter_eq_some_iff.mp parsed).1
  obtain ⟨g, piece, inside⟩ := mem_splitOn colon (show ':' ≠ '.' by decide)
  obtain ⟨b, read⟩ := mapM_some mapped piece
  simp only [octet, Option.ite_none_left_eq_some, Option.bind_eq_some_iff, numeralValue] at read
  obtain ⟨_, _, ⟨digits, values, _⟩, _⟩ := read
  obtain ⟨d, value⟩ := mapM_some values inside
  cases value

section Spelling
variable {f : Char → Char} (digit : ∀ c, digitValue (f c) = digitValue c) (zero : ∀ c, f c = '0' ↔ c = '0')
  (dot : ∀ c, f c = '.' ↔ c = '.') (colon : ∀ c, f c = ':' ↔ c = ':')

theorem splitOn_map {sep : Char} (same : ∀ c, f c = sep ↔ c = sep) (s : List Char) :
    (s.map f).splitOn sep = (s.splitOn sep).map (List.map f) := by
  induction s with
  | nil => simp
  | cons c s ih =>
    obtain ⟨first, more, pieces⟩ := List.exists_cons_of_ne_nil (List.splitOn_ne_nil sep s)
    rw [List.map_cons, List.splitOn_cons_eq_if_modifyHead, List.splitOn_cons_eq_if_modifyHead, ih, pieces]
    simp only [beq_iff_eq, same c]
    split <;> simp

include digit in
theorem numeralValue_map (base : Nat) (s : List Char) : numeralValue base (s.map f) = numeralValue base s := by
  have values : (s.map f).mapM digitValue = s.mapM digitValue := by
    induction s with
    | nil => rfl
    | cons c s ih => simp only [List.map_cons, List.mapM_cons, digit, ih]
  rw [numeralValue, values, numeralValue]

include digit in
theorem hextet_map (s : List Char) : hextet (s.map f) = hextet s := by
  simp only [hextet, numeralValue_map digit, List.map_eq_nil_iff, List.length_map]

include digit in
theorem hextets_map (groups : List (List Char)) : hextets (groups.map (List.map f)) = hextets groups := by
  have read : (groups.map (List.map f)).mapM hextet = groups.mapM hextet := by
    induction groups with
    | nil => rfl
    | cons g rest ih => simp only [List.map_cons, List.mapM_cons, hextet_map digit, ih]
  rw [hextets, read, hextets]

include digit zero in
theorem octet_map (s : List Char) : octet (s.map f) = octet s := by
  have single : s.map f = ['0'] ↔ s = ['0'] := by
    rcases s with _ | ⟨c, _ | ⟨d, s⟩⟩ <;> simp [zero]
  have first : (s.map f).head? = some '0' ↔ s.head? = some '0' := by
    cases s <;> simp [zero]
  simp only [octet, numeralValue_map digit, List.map_eq_nil_iff, single, first, ne_eq]

include digit zero dot in
theorem pton4_map (s : List Char) : pton4 (s.map f) = pton4 s := by
  have read (pieces : List (List Char)) : (pieces.map (List.map f)).mapM octet = pieces.mapM octet := by
    induction pieces with
    | nil => rfl
    | cons g rest ih => simp only [List.map_cons, List.mapM_cons, octet_map digit zero, ih]
  rw [pton4, splitOn_map dot, read, pton4]

include digit zero dot in
theorem groupBytes_map (groups : List (List Char)) : groupBytes (groups.map (List.map f)) = groupBytes groups := by
  induction groups with
  | nil => rfl
  | cons g rest ih =>
    cases rest with
    | nil =>
      have dotted : '.' ∈ g.map f ↔ '.' ∈ g := by simp [List.mem_map, dot]
      simp only [List.map_cons, List.map_nil, groupBytes, dotted, pton4_map digit zero dot, hextet_map digit]
    | cons next rest =>
      rw [List.map_cons, List.map_cons] at *
      simp only [groupBytes, hextet_map digit] at *
      rw [ih]

include digit zero dot in
theorem compressed_map (left right : List (List Char)) :
    compressed (left.map (List.map f)) (right.map (List.map f)) = compressed left right := by
  have after : afterRun (right.map (List.map f)) = afterRun right := by
    have empty : right.map (List.map f) = [[]] ↔ right = [[]] := by
      rcases right with _ | ⟨g, _ | ⟨next, rest⟩⟩ <;> simp
    simp only [afterRun, empty, List.map_eq_nil_iff, groupBytes_map digit zero dot]
  simp only [compressed, hextets_map digit, after]

include digit zero dot colon in
/-- How the letters of an IPv6 address are written does not matter. -/
theorem pton6_map (s : List Char) : pton6 (s.map f) = pton6 s := by
  have filled : ((fun g => decide (g ≠ [])) ∘ List.map f) = fun g : List Char => decide (g ≠ []) := by
    funext g
    simp
  have before (groups : List (List Char)) : (groups.map (List.map f)).takeWhile (· ≠ []) =
      (groups.takeWhile (· ≠ [])).map (List.map f) := by
    rw [List.takeWhile_map, filled]
  have behind (groups : List (List Char)) : (groups.map (List.map f)).dropWhile (· ≠ []) =
      (groups.dropWhile (· ≠ [])).map (List.map f) := by
    rw [List.dropWhile_map, filled]
  simp only [pton6, splitOn_map colon, before, behind]
  cases (s.splitOn ':').dropWhile (· ≠ []) with
  | nil => simp only [List.map_nil, groupBytes_map digit zero dot]
  | cons g after =>
    simp only [List.map_cons, List.map_eq_nil_iff]
    split
    · rcases after with _ | ⟨g, right⟩
      · rfl
      · rcases g with _ | ⟨c, g⟩
        · exact compressed_map digit zero dot [] right
        · rfl
    · exact compressed_map digit zero dot _ _

end Spelling

section Characters

/-- A character of an address that separates no groups. -/
def Plain (c : Char) : Prop := (digitValue c).isSome ∨ c = '.'

theorem numeralValue_plain (read : numeralValue base s = some n) : ∀ c ∈ s, Plain c := by
  intro c member
  obtain ⟨digits, values, _⟩ := Option.bind_eq_some_iff.mp read
  obtain ⟨d, value⟩ := mapM_some values member
  exact .inl (by rw [value]; rfl)

theorem hextet_plain (read : hextet s = some bytes) : ∀ c ∈ s, Plain c := by
  simp only [hextet, Option.ite_none_left_eq_some, Option.map_eq_some_iff] at read
  obtain ⟨_, n, value, _⟩ := read
  exact numeralValue_plain value

theorem pton4_plain (parsed : pton4 s = some address) : ∀ c ∈ s, Plain c := by
  intro c member
  by_cases dot : c = '.'
  · exact .inr dot
  · have mapped := (Option.filter_eq_some_iff.mp parsed).1
    obtain ⟨g, piece, inside⟩ := mem_splitOn member dot
    obtain ⟨b, read⟩ := mapM_some mapped piece
    simp only [octet, Option.ite_none_left_eq_some, Option.bind_eq_some_iff] at read
    obtain ⟨_, n, value, _⟩ := read
    exact numeralValue_plain value c inside

theorem groupBytes_plain (read : groupBytes groups = some bytes) : ∀ g ∈ groups, ∀ c ∈ g, Plain c := by
  induction groups generalizing bytes with
  | nil => simp
  | cons g rest ih =>
    cases rest with
    | nil =>
      simp only [groupBytes] at read
      simp only [List.mem_singleton, forall_eq]
      split at read
      · exact pton4_plain read
      · exact hextet_plain read
    | cons next rest =>
      simp only [groupBytes, Option.bind_eq_some_iff, Option.map_eq_some_iff] at read
      obtain ⟨first, head, later, tail, _⟩ := read
      intro group member
      rcases List.mem_cons.mp member with rfl | member
      · exact hextet_plain head
      · exact ih tail group member

theorem compressed_plain (read : compressed left right = some bytes) :
    ∀ g ∈ left ++ right, ∀ c ∈ g, Plain c := by
  simp only [compressed, Option.bind_eq_bind, Option.bind_eq_some_iff, hextets, Option.map_eq_some_iff] at read
  obtain ⟨_, ⟨blocks, before, _⟩, r, after, _⟩ := read
  intro g member
  rcases List.mem_append.mp member with member | member
  · obtain ⟨block, head⟩ := mapM_some before member
    exact hextet_plain head
  · unfold afterRun at after
    split at after
    case isTrue empty =>
      rw [empty, List.mem_singleton] at member
      simp [member]
    case isFalse =>
      split at after
      · cases after
      · exact groupBytes_plain after g member

/-- An IPv6 address is written in digits, dots and colons. -/
theorem pton6_plain (parsed : pton6 s = some address) : ∀ c ∈ s, Plain c ∨ c = ':' := by
  intro c member
  by_cases colon : c = ':'
  · exact .inr colon
  · left
    obtain ⟨g, piece, inside⟩ := mem_splitOn member colon
    have filled : g ≠ [] := List.ne_nil_of_mem inside
    have whole : (s.splitOn ':').takeWhile (· ≠ []) ++ (s.splitOn ':').dropWhile (· ≠ []) = s.splitOn ':' :=
      List.takeWhile_append_dropWhile
    rw [← whole] at piece
    simp only [pton6] at parsed
    cases after : (s.splitOn ':').dropWhile (· ≠ []) with
    | nil =>
      simp only [after, List.append_nil] at piece parsed
      exact groupBytes_plain (Option.filter_eq_some_iff.mp parsed).1 g piece c inside
    | cons e right =>
      have empty : e = [] := by
        have first := List.head?_dropWhile_not (fun g : List Char => decide (g ≠ [])) (s.splitOn ':')
        rw [after] at first
        simpa using first
      simp only [after] at parsed
      have piece : g ∈ (s.splitOn ':').takeWhile (· ≠ []) ++ right := by
        rw [after, empty] at piece
        simpa [filled] using piece
      split at parsed
      case isTrue none =>
        rw [none, List.nil_append] at piece
        split at parsed
        · refine compressed_plain parsed g ?_ c inside
          simpa [filled] using piece
        · cases parsed
      case isFalse => exact compressed_plain parsed g piece c inside

end Characters

/-- An IPv6 address has a colon. -/
theorem pton6_colon (parsed : pton6 s = some address) : ':' ∈ s := by
  by_contra missing
  have single : s.splitOn ':' = [s] := List.splitOn_eq_singleton missing
  have filled : s ≠ [] := by
    rintro rfl
    cases parsed
  simp only [pton6, single] at parsed
  obtain ⟨read, sixteen⟩ : (if '.' ∈ s then pton4 s else hextet s) = some address ∧ address.length = 16 := by
    simpa [filled, groupBytes, Option.filter_eq_some_iff] using parsed
  split at read
  · have four : address.length = Family.inet.size := inetPton_length read
    rw [Family.size] at four
    omega
  · simp only [hextet, Option.ite_none_left_eq_some, Option.map_eq_some_iff] at read
    obtain ⟨_, n, _, rfl⟩ := read
    rw [length_bytesOf] at sixteen
    simp at sixteen

/-- No text denotes an address of both families. -/
theorem pton6_not_pton4 (parsed : pton6 s = some address) : pton4 s = none := by
  by_contra both
  obtain ⟨four, parsed4⟩ := Option.ne_none_iff_exists'.mp both
  exact pton4_colon parsed4 (pton6_colon parsed)

example : inetPton .inet6 "2001:DB8::1".toList = inetPton .inet6 "2001:db8:0::0:1".toList := by decide

end InetText
