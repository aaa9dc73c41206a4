import Mathlib.Data.List.TakeWhile

/-! The head of a message in bytes: a start line, header fields and an empty line.
A line ends at CR, LF or CRLF, and a line that starts with a blank continues the
one before it. A head that is written field by field reads back. -/
namespace MessageHead

def isBreak (b : UInt8) : Bool := b = 13 || b = 10
def isBlank (b : UInt8) : Bool := b = 32 || b = 9

/-- The bytes of a field name. -/
def isName (b : UInt8) : Bool := 33 ≤ b && b ≤ 126 && b ≠ 58

def startsBlank (bytes : List UInt8) : Bool := bytes.head?.any isBlank

/-- The line goes on after its break `b`. -/
def continues (b : UInt8) (rest : List UInt8) : Bool :=
  startsBlank rest || (b = 13 && rest.head? = some 10 && startsBlank rest.tail)

/-- Every line break is followed by a continuation line. -/
def folded : List UInt8 → Bool
  | [] => true
  | b :: rest => (!isBreak b || continues b rest) && folded rest

def afterBreak (b : UInt8) (rest : List UInt8) : List UInt8 :=
  if b = 13 ∧ rest.head? = some 10 then rest.tail else rest

/-- The first line with its continuation lines, and the bytes after it. -/
def line : List UInt8 → List UInt8 × List UInt8
  | [] => ([], [])
  | b :: rest =>
    if isBreak b && !continues b rest then ([], afterBreak b rest)
    else (b :: (line rest).1, (line rest).2)

structure Field where
  name : List UInt8
  value : List UInt8
  plain : ∀ b ∈ name, isName b = true
  unbroken : folded value = true

def Field.pair (f : Field) : List UInt8 × List UInt8 := (f.name, f.value)

def Field.bytes (f : Field) : List UInt8 := f.name ++ [58, 32] ++ f.value ++ [13, 10]

structure Head where
  start : List UInt8
  fields : List Field
  single : ∀ b ∈ start, isBreak b = false

def Head.bytes (h : Head) : List UInt8 :=
  h.start ++ [13, 10] ++ h.fields.flatMap Field.bytes ++ [13, 10]

/-- The name and the value of a field line; one space after the colon is no part
of the value. -/
def readField (bytes : List UInt8) : Option (List UInt8 × List UInt8) :=
  match bytes.dropWhile (· ≠ 58) with
  | _ :: 32 :: value => some (bytes.takeWhile (· ≠ 58), value)
  | _ :: value => some (bytes.takeWhile (· ≠ 58), value)
  | [] => none

/-- The fields up to the empty line, and the bytes after it. -/
def readFields : Nat → List UInt8 → Option (List (List UInt8 × List UInt8) × List UInt8)
  | 0, _ => none
  | _, [] => none
  | n + 1, b :: rest =>
    if isBreak b then some ([], afterBreak b rest)
    else do
      let field ← readField (line (b :: rest)).1
      let (fields, after) ← readFields n (line (b :: rest)).2
      return (field :: fields, after)

/-- The start line, the fields and the bytes after the head. -/
def read (bytes : List UInt8) :
    Option (List UInt8 × List (List UInt8 × List UInt8) × List UInt8) :=
  (readFields bytes.length (line bytes).2).map fun (fields, rest) => ((line bytes).1, fields, rest)

theorem continues_append (goes : continues b v = true) (w : List UInt8) : continues b (v ++ w) = true := by
  rcases v with _ | ⟨c, _ | ⟨d, v⟩⟩ <;> simp_all [continues, startsBlank]

theorem folded_append (first : folded v = true) (last : folded w = true) : folded (v ++ w) = true := by
  induction v with
  | nil => exact last
  | cons b v ih =>
    simp only [folded, Bool.and_eq_true, Bool.or_eq_true, List.cons_append] at first ⊢
    exact ⟨first.1.imp_right (continues_append · w), ih first.2⟩

theorem folded_single (single : ∀ b ∈ v, isBreak b = false) : folded v = true := by
  induction v with
  | nil => rfl
  | cons b v ih => simp_all [folded]

theorem folded_suffix (unbroken : folded (v ++ w) = true) : folded w = true := by
  induction v with
  | nil => exact unbroken
  | cons b v ih =>
    simp only [List.cons_append, folded, Bool.and_eq_true] at unbroken
    exact ih unbroken.2

theorem folded_last (unbroken : folded (v ++ [b]) = true) : isBreak b = false := by
  simpa [folded, continues, startsBlank] using folded_suffix unbroken

/-- A folded text may be cut after a byte that is no line break. -/
theorem folded_prefix (unbroken : folded (v ++ w) = true) (last : ∀ b, v.getLast? = some b → isBreak b = false) :
    folded v = true := by
  induction v with
  | nil => rfl
  | cons b v ih =>
    simp only [List.cons_append, folded, Bool.and_eq_true, Bool.or_eq_true] at unbroken ⊢
    rcases v with _ | ⟨c, v⟩
    · exact ⟨.inl (by simpa using last b rfl), rfl⟩
    · refine ⟨unbroken.1.imp_right fun goes => ?_, ih unbroken.2 fun d => by simpa using last d⟩
      rcases v with _ | ⟨d, v⟩
      · have whole := last c rfl
        simp only [isBreak, Bool.or_eq_false_iff, decide_eq_false_iff_not] at whole
        simpa [continues, startsBlank, whole.2] using goes
      · simpa [continues, startsBlank] using goes

/-- A folded line ends where the next line starts. -/
theorem line_folded (unbroken : folded v = true) (next : startsBlank rest = false) :
    line (v ++ 13 :: 10 :: rest) = (v, rest) := by
  induction v with
  | nil =>
    have ends : continues 13 (10 :: rest) = false := by
      simp only [continues, List.tail_cons, next]
      rfl
    simp [line, ends, isBreak, afterBreak]
  | cons b v ih =>
    simp only [folded, Bool.and_eq_true, Bool.or_eq_true] at unbroken
    have kept : (isBreak b && !continues b (v ++ 13 :: 10 :: rest)) = false := by
      rcases unbroken.1 with inner | goes
      · simp_all
      · simp [continues_append goes]
    rw [List.cons_append, line, kept, ih unbroken.2]
    rfl

theorem isName_plain (plain : isName b = true) : isBreak b = false ∧ isBlank b = false ∧ b ≠ 58 := by
  simp only [isName, Bool.and_eq_true, decide_eq_true_eq] at plain
  have large := UInt8.le_iff_toNat_le.mp plain.1.1
  refine ⟨?_, ?_, plain.2⟩ <;>
  · simp only [isBreak, isBlank, Bool.or_eq_false_iff, decide_eq_false_iff_not]
    constructor <;> (rintro rfl; simp at large)

namespace Field
variable (f : Field)

theorem unfolded : folded (f.name ++ [58, 32] ++ f.value) = true := by
  refine folded_append (folded_single ?_) f.unbroken
  intro b member
  rcases List.mem_append.mp member with named | separator
  · exact (isName_plain (f.plain b named)).1
  · have whole : ∀ c ∈ [(58 : UInt8), 32], isBreak c = false := by simp [isBreak]
    exact whole b separator

theorem readField_pair : readField (f.name ++ [58, 32] ++ f.value) = some f.pair := by
  have named : ∀ b ∈ f.name, decide (b ≠ 58) = true := fun b member =>
    decide_eq_true (isName_plain (f.plain b member)).2.2
  unfold readField
  rw [List.append_assoc, List.dropWhile_append_of_pos named, List.takeWhile_append_of_pos named]
  simp [pair]

/-- A field line starts with the first byte of the name or with the colon. -/
theorem head_bytes : ∃ b rest, f.bytes = b :: rest ∧ isBreak b = false ∧ isBlank b = false := by
  cases named : f.name with
  | nil => exact ⟨58, _, by simp only [bytes, named]; rfl, rfl, rfl⟩
  | cons b name =>
    have plain := isName_plain (f.plain b (by simp [named]))
    exact ⟨b, _, by simp only [bytes, named]; rfl, plain.1, plain.2.1⟩

end Field

theorem startsBlank_fields (fields : List Field) (rest : List UInt8) :
    startsBlank (fields.flatMap Field.bytes ++ 13 :: 10 :: rest) = false := by
  cases fields with
  | nil => rfl
  | cons f fields =>
    obtain ⟨b, after, same, _, blank⟩ := f.head_bytes
    simp [same, startsBlank, blank]

theorem readFields_cons (f : Field) (next : startsBlank rest = false) (n : Nat) :
    readFields (n + 1) (f.bytes ++ rest) =
      (readFields n rest).map fun (fields, after) => (f.pair :: fields, after) := by
  have first : line (f.bytes ++ rest) = (f.name ++ [58, 32] ++ f.value, rest) := by
    rw [Field.bytes, List.append_assoc]
    exact line_folded f.unfolded next
  obtain ⟨b, after, same, inner, _⟩ := f.head_bytes
  rw [same, List.cons_append] at first ⊢
  rw [readFields, if_neg (by simp [inner]), first, f.readField_pair]
  cases readFields n rest <;> rfl

theorem readFields_bytes (fields : List Field) (rest : List UInt8) (fuel : fields.length < n) :
    readFields n (fields.flatMap Field.bytes ++ 13 :: 10 :: rest) =
      some (fields.map Field.pair, rest) := by
  induction fields generalizing n with
  | nil =>
    obtain ⟨n, rfl⟩ := Nat.exists_eq_succ_of_ne_zero (Nat.ne_of_gt fuel)
    rfl
  | cons f fields ih =>
    obtain ⟨n, rfl⟩ := Nat.exists_eq_succ_of_ne_zero (Nat.ne_of_gt (Nat.zero_lt_of_lt fuel))
    rw [List.flatMap_cons, List.append_assoc, readFields_cons f (startsBlank_fields fields rest),
      ih (Nat.lt_of_succ_lt_succ fuel)]
    rfl

theorem length_fields (fields : List Field) :
    fields.length ≤ (fields.flatMap Field.bytes).length := by
  induction fields with
  | nil => exact Nat.zero_le _
  | cons f fields ih =>
    simp only [List.flatMap_cons, List.length_cons, List.length_append, Field.bytes]
    omega

/-- A head reads back, whatever follows it. -/
theorem read_bytes (h : Head) (rest : List UInt8) :
    read (h.bytes ++ rest) = some (h.start, h.fields.map Field.pair, rest) := by
  have parts : h.bytes ++ rest =
      h.start ++ 13 :: 10 :: (h.fields.flatMap Field.bytes ++ 13 :: 10 :: rest) := by
    simp [Head.bytes]
  have first := line_folded (folded_single h.single) (startsBlank_fields h.fields rest)
  have room : h.fields.length < (h.bytes ++ rest).length := by
    have count := length_fields h.fields
    simp only [Head.bytes, List.length_append, List.length_cons]
    omega
  rw [read, parts, first, ← parts, readFields_bytes h.fields rest room]
  rfl

end MessageHead
