import HttpSocksProxy.Http.Text

/-! `http.client.parse_headers`: the lines of the header section and the fields
that the header parser of the `email` package finds in them. -/
namespace HttpSocksProxy.Http
open MessageHead hiding line

/-- The arguments of `send_error`. -/
structure Reply where
  status : Nat
  message : Text
  explain : Option Text := none
  deriving DecidableEq, Repr

/-- The lines of a byte string, each with its LF. -/
def byteLines : List UInt8 → List (List UInt8)
  | [] => []
  | b :: rest =>
    if b = 10 then [b] :: byteLines rest
    else match byteLines rest with
      | [] => [[b]]
      | l :: ls => (b :: l) :: ls

/-- A line that ends the header section; the empty string stands for its end. -/
def isLast (line : List UInt8) : Bool := line = [13, 10] || line = [10] || line = []

/-- `_read_headers` after `count` lines. -/
def readHeaders : Nat → List (List UInt8) → Except Reply (List (List UInt8))
  | count, [] => if 100 < count + 1 then .error tooMany else .ok []
  | count, line :: rest =>
    if 65536 < line.length then .error tooLong
    else if 100 < count + 1 then .error tooMany
    else if isLast line then .ok [line]
    else (readHeaders (count + 1) rest).map (line :: ·)
where
  tooLong : Reply := {
    status := 431
    message := latin "Line too long"
    explain := latin "got more than 65536 bytes when reading header line" }
  tooMany : Reply := {
    status := 431
    message := latin "Too many headers"
    explain := latin "got more than 100 headers" }

/-- The lines of a text under universal newlines, each with its line break. -/
def textLines : Text → List Text
  | [] => []
  | b :: rest =>
    if b = 10 ∨ b = 13 ∧ rest.head? ≠ some 10 then [b] :: textLines rest
    else match textLines rest with
      | [] => [[b]]
      | l :: ls => (b :: l) :: ls

def fromLine : Text := latin "From "

/-- `headerRE` -/
def isHeaderLine (line : Text) : Bool :=
  fromLine.isPrefixOf line || (line.dropWhile isName).head? = some 58 || startsBlank line

/-- A field under construction: its name and the text of its value so far. -/
abbrev Pending := Text × Text

def openField (line : Text) : Pending :=
  (line.takeWhile (· ≠ 58), (line.dropWhile (· ≠ 58)).tail.dropWhile isBlank)

def closeField (p : Pending) : Text × Text := (p.1, p.2.rdropWhile isBreak)

/-- `_parse_headers`: continuation lines before any field, lines without a name
and envelope lines are left out. -/
def parseLines : Option Pending → List Text → List (Text × Text)
  | pending, [] => pending.toList.map closeField
  | pending, line :: lines =>
    if startsBlank line then parseLines (pending.map fun p => (p.1, p.2 ++ line)) lines
    else pending.toList.map closeField ++
      if fromLine.isPrefixOf line ∨ line.head? = some 58 then parseLines none lines
      else parseLines (some (openField line)) lines

/-- A line of a text: at most one line break, at its end. -/
def Physical (line : Text) : Prop :=
  ∃ content ends, line = content ++ ends ∧ (∀ b ∈ content, isBreak b = false) ∧
    ends ∈ [[], [10], [13], [13, 10]]

theorem Physical.cons (physical : Physical line) (inner : isBreak b = false) : Physical (b :: line) := by
  obtain ⟨content, ends, rfl, plain, known⟩ := physical
  exact ⟨b :: content, ends, rfl, by simpa [inner] using plain, known⟩

theorem Physical.tail {line : Text} (physical : Physical (b :: line)) : Physical line := by
  obtain ⟨content, ends, same, inner, known⟩ := physical
  cases content with
  | nil =>
    rw [List.nil_append] at same
    subst same
    have shorter : line ∈ [[], [10], [13], [13, 10]] := by
      simp only [List.mem_cons, List.cons.injEq] at known ⊢
      aesop
    exact ⟨[], line, rfl, by simp, shorter⟩
  | cons c content =>
    obtain ⟨rfl, rfl⟩ := List.cons.inj same
    exact ⟨content, ends, rfl, fun b member => inner b (by simp [member]), known⟩

theorem Physical.suffix {line : Text} (physical : Physical (first ++ line)) : Physical line := by
  induction first with
  | nil => exact physical
  | cons b first ih => exact ih physical.tail

theorem textLines_physical (t : Text) : ∀ line ∈ textLines t, Physical line := by
  induction t with
  | nil => simp [textLines]
  | cons b rest ih =>
    intro line member
    rw [textLines] at member
    split at member
    case isTrue ends =>
      rcases List.mem_cons.mp member with rfl | later
      · refine ⟨[], [b], rfl, by simp, ?_⟩
        rcases ends with rfl | ⟨rfl, _⟩ <;> simp
      · exact ih line later
    case isFalse goes =>
      have first : Physical (b :: (textLines rest).headD []) := by
        cases inner : isBreak b with
        | false =>
          refine Physical.cons ?_ inner
          cases lines : textLines rest with
          | nil => exact ⟨[], [], rfl, by simp, by simp⟩
          | cons l ls => exact ih l (by simp [lines])
        | true =>
          obtain ⟨rfl, more⟩ : b = 13 ∧ rest.head? = some 10 := by
            simp only [isBreak, Bool.or_eq_true, decide_eq_true_eq] at inner
            tauto
          obtain ⟨rest, rfl⟩ := List.head?_eq_some_iff.mp more
          exact ⟨[], [13, 10], rfl, by simp, by simp⟩
      cases lines : textLines rest with
      | nil =>
        simp only [lines, List.mem_singleton] at member
        simpa [lines, member] using first
      | cons l ls =>
        simp only [lines] at member
        rcases List.mem_cons.mp member with rfl | later
        · simpa [lines] using first
        · exact ih line (by simp [lines, later])

/-- A folded value up to a line break at its end. -/
def Hanging (value : Text) : Prop :=
  ∃ body ends, value = body ++ ends ∧ folded body = true ∧ ends ∈ [[], [10], [13], [13, 10]]

/-- The fields that the parser yields are fields as they stand in a message. -/
structure Valid (f : Text × Text) : Prop where
  plain : ∀ b ∈ f.1, isName b = true
  unbroken : folded f.2 = true

structure Growing (p : Pending) : Prop where
  plain : ∀ b ∈ p.1, isName b = true
  hanging : Hanging p.2

theorem Growing.start (physical : Physical line) (header : isHeaderLine line = true)
    (blank : startsBlank line = false) (envelope : fromLine.isPrefixOf line = false) :
    Growing (openField line) := by
  simp only [isHeaderLine, envelope, blank, Bool.or_false, Bool.false_or, decide_eq_true_eq] at header
  obtain ⟨after, rest⟩ := List.head?_eq_some_iff.mp header
  have parts : line.takeWhile isName ++ 58 :: after = line := by
    rw [← rest, List.takeWhile_append_dropWhile]
  have named : ∀ b ∈ line.takeWhile isName, decide (b ≠ 58) = true := fun b member =>
    decide_eq_true (isName_plain (List.mem_takeWhile_imp member)).2.2
  have name : line.takeWhile (· ≠ 58) = line.takeWhile isName := by
    conv => lhs; rw [← parts, List.takeWhile_append_of_pos named]
    simp
  have value : (line.dropWhile (· ≠ 58)).tail = after := by
    conv => lhs; rw [← parts, List.dropWhile_append_of_pos named]
    simp
  constructor
  · intro b member
    rw [openField, name] at member
    exact List.mem_takeWhile_imp member
  · have whole : line.takeWhile isName ++ [58] ++ (after.takeWhile isBlank ++ after.dropWhile isBlank) =
        line := by
      rw [List.takeWhile_append_dropWhile, List.append_assoc]
      exact parts
    rw [← whole, ← List.append_assoc] at physical
    obtain ⟨content, ends, same, inner, known⟩ := physical.suffix
    exact ⟨content, ends, by rw [openField, value, same], folded_single inner, known⟩

theorem folded_ends (known : ends ∈ [[], [10], [13], [13, 10]]) (unbroken : folded content = true)
    (blank : startsBlank content = true) : folded (ends ++ content) = true := by
  simp only [List.mem_cons, List.not_mem_nil, or_false] at known
  rcases known with rfl | rfl | rfl | rfl <;> simp [folded, continues, unbroken, blank]

theorem Growing.extend (growing : Growing p) (physical : Physical line) (blank : startsBlank line = true) :
    Growing (p.1, p.2 ++ line) := by
  obtain ⟨body, ends, same, unbroken, known⟩ := growing.hanging
  obtain ⟨content, ends', rfl, plain, known'⟩ := physical
  have starts : startsBlank content = true := by
    cases content with
    | cons b content => exact blank
    | nil =>
      simp only [List.mem_cons, List.not_mem_nil, or_false] at known'
      rcases known' with rfl | rfl | rfl | rfl <;> simp [startsBlank, isBlank] at blank
  refine ⟨growing.plain, body ++ (ends ++ content), ends', by simp [same], ?_, known'⟩
  exact folded_append unbroken (folded_ends known (folded_single plain) starts)

theorem rdropWhile_ends (known : ends ∈ [[], [10], [13], [13, 10]]) (unbroken : folded body = true) :
    (body ++ ends).rdropWhile isBreak = body := by
  have kept : body.rdropWhile isBreak = body := by
    rw [List.rdropWhile_eq_self_iff]
    intro nonempty
    rw [← List.dropLast_append_getLast nonempty] at unbroken
    simpa using folded_last unbroken
  simp only [List.mem_cons, List.not_mem_nil, or_false] at known
  rcases known with rfl | rfl | rfl | rfl
  · rw [List.append_nil, kept]
  · rw [List.rdropWhile_concat_pos _ _ _ rfl, kept]
  · rw [List.rdropWhile_concat_pos _ _ _ rfl, kept]
  · rw [show body ++ [13, 10] = body ++ [13] ++ [10] by simp, List.rdropWhile_concat_pos _ _ _ rfl,
      List.rdropWhile_concat_pos _ _ _ rfl, kept]

theorem Growing.close (growing : Growing p) : Valid (closeField p) := by
  obtain ⟨body, ends, same, unbroken, known⟩ := growing.hanging
  refine ⟨growing.plain, ?_⟩
  rw [closeField, same, rdropWhile_ends known unbroken]
  exact unbroken

theorem parseLines_valid (sound : ∀ line ∈ lines, Physical line ∧ isHeaderLine line = true)
    (growing : ∀ p, pending = some p → Growing p) : ∀ f ∈ parseLines pending lines, Valid f := by
  have closed : ∀ p, (∀ q, p = some q → Growing q) → ∀ f ∈ (p.toList.map closeField), Valid f := by
    intro p growing f member
    obtain ⟨q, inside, rfl⟩ := List.mem_map.mp member
    exact (growing q (Option.mem_toList.mp inside)).close
  induction lines generalizing pending with
  | nil => exact closed pending growing
  | cons line lines ih =>
    have later {pending : Option Pending} (growing : ∀ p, pending = some p → Growing p) :
        ∀ f ∈ parseLines pending lines, Valid f :=
      ih (fun l member => sound l (List.mem_cons_of_mem line member)) growing
    obtain ⟨physical, header⟩ := sound line List.mem_cons_self
    rw [parseLines]
    split
    case isTrue blank =>
      apply later
      intro p extended
      obtain ⟨q, same, rfl⟩ := Option.map_eq_some_iff.mp extended
      exact (growing q same).extend physical blank
    case isFalse fresh =>
      intro f member
      rcases List.mem_append.mp member with before | after
      · exact closed pending growing f before
      · split at after
        · exact later (by simp) f after
        case isFalse named =>
          refine later ?_ f after
          rintro p ⟨⟩
          exact .start physical header (Bool.eq_false_iff.mpr fresh)
            (Bool.eq_false_iff.mpr fun envelope => named (.inl envelope))

/-- The fields of a header section: what does not look like a header line ends it. -/
def parseFields (text : Text) : List Field :=
  (parseLines none ((textLines text).takeWhile isHeaderLine)).pmap
    (fun f valid => ⟨f.1, f.2, valid.plain, valid.unbroken⟩) <| parseLines_valid
      (fun line member => ⟨textLines_physical text line
        ((List.takeWhile_prefix _).subset member), List.mem_takeWhile_imp member⟩) (by simp)

/-- `http.client.parse_headers` on what `handle` has read. -/
def parseHeaders (bytes : List UInt8) : Except Reply (List Field) :=
  (readHeaders 0 (byteLines bytes)).map fun lines => parseFields lines.flatten

end HttpSocksProxy.Http
