import Mathlib.Data.List.DropRight
import HttpSocksProxy.Foundation.MessageHead
import HttpSocksProxy.Server.Resolve

/-! Text of an HTTP request: ISO-8859-1 strings, one byte a character, under the
string methods of Python, and their UTF-8 encoding. -/
namespace HttpSocksProxy.Http
open InetText MessageHead

abbrev Text := List UInt8

def charOf (b : UInt8) : Char := Char.ofNat b.toNat

/-- The characters of a text. -/
def str (t : Text) : Str := t.map charOf

instance (t : Text) (texts : List Text) : Decidable (t ∈ texts) :=
  List.instDecidableMemOfLawfulBEq t texts

/-- A text that is written in the source. -/
def latin (s : String) : Text := s.toList.map fun c => c.toNat.toUInt8

/-- `str.isspace` of one character. -/
def isSpace (b : UInt8) : Bool :=
  (9 ≤ b && b ≤ 13) || (28 ≤ b && b ≤ 32) || b = 0x85 || b = 0xa0

def strip (t : Text) : Text := (t.dropWhile isSpace).rdropWhile isSpace

section Pieces
variable (p : UInt8 → Bool) (t : Text)

theorem splitOnP_head : ∃ more, t.splitOnP p = t.takeWhile (!p ·) :: more := by
  induction t with
  | nil => exact ⟨[], rfl⟩
  | cons c t ih =>
    rw [List.splitOnP_cons_eq_if_modifyHead]
    cases sep : p c with
    | true => exact ⟨t.splitOnP p, by simp [sep]⟩
    | false =>
      obtain ⟨more, pieces⟩ := ih
      exact ⟨more, by simp [sep, pieces]⟩

/-- A piece has no separator and stands in the text. -/
theorem splitOnP_mem : ∀ w ∈ t.splitOnP p, (∀ b ∈ w, p b = false) ∧ w <:+: t := by
  induction t with
  | nil => simp [List.splitOnP_nil]
  | cons c t ih =>
    intro w member
    rw [List.splitOnP_cons_eq_if_modifyHead] at member
    cases sep : p c with
    | true =>
      rw [if_pos sep] at member
      rcases List.mem_cons.mp member with rfl | later
      · simp
      · exact ⟨(ih w later).1, (ih w later).2.trans (List.infix_cons (List.infix_refl t))⟩
    | false =>
      obtain ⟨more, pieces⟩ := splitOnP_head p t
      rw [if_neg (by simp [sep]), pieces, List.modifyHead_cons] at member
      rcases List.mem_cons.mp member with rfl | later
      · have first := ih _ (by rw [pieces]; exact List.mem_cons_self)
        refine ⟨by simpa [sep] using first.1, ?_⟩
        exact (List.prefix_cons_inj c |>.mpr (List.takeWhile_prefix _)).isInfix
      · have after := ih w (by rw [pieces]; exact List.mem_cons_of_mem _ later)
        exact ⟨after.1, after.2.trans (List.infix_cons (List.infix_refl t))⟩

end Pieces

/-- A text without white space. -/
abbrev Word := { t : Text // ∀ b ∈ t, isSpace b = false }

/-- `str.split()`. -/
def words (t : Text) : List Word :=
  ((t.splitOnP isSpace).filter (· ≠ [])).attachWith (fun w => ∀ b ∈ w, isSpace b = false)
    fun w member => (splitOnP_mem isSpace t w (List.mem_filter.mp member).1).1

def lowerChar (b : UInt8) : UInt8 :=
  if (65 ≤ b ∧ b ≤ 90) ∨ (0xc0 ≤ b ∧ b ≤ 0xde ∧ b ≠ 0xd7) then b + 32 else b

def lower (t : Text) : Text := t.map lowerChar

def isAsciiDigit (b : UInt8) : Bool := 48 ≤ b && b ≤ 57

/-- `str.isdigit`, which takes superscripts too. -/
def isdigit (t : Text) : Bool :=
  t ≠ [] && t.all fun b => isAsciiDigit b || b = 0xb2 || b = 0xb3 || b = 0xb9

/-- `str(n)`. -/
def decimal (n : Nat) : Text := (numeral 10 n).map fun c => c.toNat.toUInt8

def hexDigit (b : UInt8) : UInt8 := if b < 10 then 48 + b else 87 + b

/-- One character inside a `repr` that is quoted with `quote`. -/
def reprChar (quote b : UInt8) : Text :=
  if b = quote ∨ b = 92 then [92, b]
  else if b = 9 then latin "\\t"
  else if b = 10 then latin "\\n"
  else if b = 13 then latin "\\r"
  else if b < 32 ∨ (127 ≤ b ∧ b ≤ 160) ∨ b = 173 then
    latin "\\x" ++ [hexDigit (b / 16), hexDigit (b % 16)]
  else [b]

/-- `repr(t)`, with single quotes unless only they occur in the text. -/
def repr (t : Text) : Text :=
  let quote : UInt8 := if 39 ∈ t ∧ 34 ∉ t then 34 else 39
  [quote] ++ t.flatMap (reprChar quote) ++ [quote]

/-- `int(t, 10)` of digits, which fails beyond 4300 of them. -/
def int (t : Text) : Except Text Nat :=
  if 4300 < t.length then
    .error (latin "Exceeds the limit (4300 digits) for integer string conversion: value has " ++
      decimal t.length ++ latin " digits; use sys.set_int_max_str_digits() to increase the limit")
  else match numeralValue 10 (str t) with
    | some n => .ok n
    | none => .error (latin "invalid literal for int() with base 10: " ++ repr t)

/-- `str.partition` without the separator. -/
def partition (sep : UInt8) (t : Text) : Text × Text :=
  (t.takeWhile (· ≠ sep), (t.dropWhile (· ≠ sep)).tail)

theorem partition_sep (alone : sep ∉ before) (after : Text) :
    partition sep (before ++ sep :: after) = (before, after) := by
  have plain : ∀ b ∈ before, decide (b ≠ sep) = true := fun b member =>
    decide_eq_true fun same => alone (same ▸ member)
  simp only [partition]
  rw [List.takeWhile_append_of_pos plain, List.dropWhile_append_of_pos plain]
  simp

theorem partition_none (missing : sep ∉ t) : partition sep t = (t, []) := by
  have plain : ∀ b ∈ t, decide (b ≠ sep) = true := fun b member =>
    decide_eq_true fun same => missing (same ▸ member)
  simp only [partition]
  rw [List.takeWhile_eq_self_iff.mpr plain, List.dropWhile_eq_nil_iff.mpr plain]
  rfl

def isAscii (t : Text) : Bool := t.all (· < 128)

/-- `str.encode("utf8")`. -/
def utf8 (t : Text) : List UInt8 := t.flatMap fun b => String.utf8EncodeChar (charOf b)

theorem numeral_digit (n : Nat) : ∀ c ∈ numeral 10 n, ∃ d < 10, c = digitChar d := by
  intro c member
  unfold numeral at member
  split at member
  · exact ⟨0, by decide, List.mem_singleton.mp member⟩
  · obtain ⟨d, digit, rfl⟩ := List.mem_map.mp member
    exact ⟨d, (digits_small (.inl rfl) n d (by simpa using digit)).1, rfl⟩

theorem decimal_digits (n : Nat) : ∀ b ∈ decimal n, isAsciiDigit b = true := by
  have all : ∀ d < 10, isAsciiDigit (digitChar d).toNat.toUInt8 = true := by decide
  intro b member
  obtain ⟨c, inside, rfl⟩ := List.mem_map.mp member
  obtain ⟨d, small, rfl⟩ := numeral_digit n c inside
  exact all d small

/-- A printed number reads back. -/
theorem numeralValue_decimal (n : Nat) : numeralValue 10 (str (decimal n)) = some n := by
  have all : ∀ d < 10, charOf (digitChar d).toNat.toUInt8 = digitChar d := by decide
  have same : str (decimal n) = numeral 10 n := by
    rw [str, decimal, List.map_map]
    calc (numeral 10 n).map (charOf ∘ fun c => c.toNat.toUInt8)
      _ = (numeral 10 n).map id := List.map_congr_left fun c member => by
        obtain ⟨d, small, rfl⟩ := numeral_digit n c member
        exact all d small
      _ = numeral 10 n := List.map_id _
  rw [same, numeralValue_numeral (.inl rfl)]

theorem utf8_char (b : UInt8) : String.utf8EncodeChar (charOf b) =
    if b < 128 then [b] else [192 + b / 64, 128 + b % 64] := by
  have all : ∀ n < 256, String.utf8EncodeChar (charOf (UInt8.ofNat n)) =
      if UInt8.ofNat n < 128 then [UInt8.ofNat n]
      else [192 + UInt8.ofNat n / 64, 128 + UInt8.ofNat n % 64] := by decide +kernel
  simpa using all b.toNat b.toNat_lt

@[simp] theorem utf8_nil : utf8 [] = [] := rfl

theorem utf8_append (t u : Text) : utf8 (t ++ u) = utf8 t ++ utf8 u := List.flatMap_append

theorem utf8_cons (b : UInt8) (t : Text) : utf8 (b :: t) =
    if b < 128 then b :: utf8 t else (192 + b / 64) :: (128 + b % 64) :: utf8 t := by
  rw [utf8, List.flatMap_cons, utf8_char]
  split <;> rfl

theorem utf8_large (b : UInt8) (large : 128 ≤ b) : 128 ≤ 192 + b / 64 ∧ 128 ≤ 128 + b % 64 := by
  have all : ∀ n < 256, 128 ≤ UInt8.ofNat n →
      128 ≤ 192 + UInt8.ofNat n / 64 ∧ 128 ≤ 128 + UInt8.ofNat n % 64 := by decide +kernel
  simpa using all b.toNat b.toNat_lt (by simpa using large)

theorem utf8_ascii (ascii : isAscii t = true) : utf8 t = t := by
  induction t with
  | nil => rfl
  | cons b t ih =>
    simp only [isAscii, List.all_cons, Bool.and_eq_true, decide_eq_true_eq] at ascii
    rw [utf8_cons, if_pos ascii.1, ih ascii.2]

theorem mem_utf8 (member : b ∈ utf8 t) : b ∈ t ∨ 128 ≤ b := by
  induction t with
  | nil => simp at member
  | cons c t ih =>
    rw [utf8_cons] at member
    split at member
    case isTrue small =>
      rcases List.mem_cons.mp member with rfl | later
      · exact .inl List.mem_cons_self
      · exact (ih later).imp_left (List.mem_cons_of_mem c)
    case isFalse large =>
      obtain ⟨first, second⟩ := utf8_large c (UInt8.not_lt.mp large)
      rcases List.mem_cons.mp member with rfl | member
      · exact .inr first
      · rcases List.mem_cons.mp member with rfl | later
        · exact .inr second
        · exact (ih later).imp_left (List.mem_cons_of_mem c)

theorem count_utf8 (t : Text) :
    (utf8 t).countP (128 ≤ ·) = 2 * t.countP (128 ≤ ·) := by
  induction t with
  | nil => rfl
  | cons b t ih =>
    rw [utf8_cons]
    split
    case isTrue small => simp [small, ih]
    case isFalse large =>
      have large := UInt8.not_lt.mp large
      obtain ⟨first, second⟩ := utf8_large b large
      simp only [List.countP_cons, ih, first, second, large, decide_true, if_true]
      omega

theorem utf8_length (t : Text) : (utf8 t).length = t.length + t.countP (128 ≤ ·) := by
  induction t with
  | nil => rfl
  | cons b t ih =>
    rw [utf8_cons]
    split
    case isTrue small =>
      simp only [List.length_cons, List.countP_cons, ih, UInt8.not_le.mpr small, decide_false]
      simp
      omega
    case isFalse large =>
      simp only [List.length_cons, List.countP_cons, ih, UInt8.not_lt.mp large, decide_true, if_true]
      omega

/-- Encoding changes a text exactly when it has a character beyond ASCII, even
where ASCII bytes are missing at its end. -/
theorem utf8_append_iff (dropped : isAscii d = true) : utf8 t = t ++ d ↔ isAscii t = true ∧ d = [] := by
  constructor
  · intro same
    have none : d.countP (128 ≤ ·) = 0 := by
      simpa [isAscii, List.countP_eq_zero] using dropped
    have counted := count_utf8 t
    rw [same, List.countP_append, none] at counted
    have ascii : isAscii t = true := by
      have zero : t.countP (128 ≤ ·) = 0 := by omega
      simpa [isAscii, List.countP_eq_zero] using zero
    refine ⟨ascii, ?_⟩
    rw [utf8_ascii ascii] at same
    simpa using same
  · rintro ⟨ascii, rfl⟩
    rw [utf8_ascii ascii, List.append_nil]

theorem utf8_eq_iff : utf8 t = t ↔ isAscii t = true := by
  simpa using utf8_append_iff (t := t) (d := []) rfl

end HttpSocksProxy.Http
