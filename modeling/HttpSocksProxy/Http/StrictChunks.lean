import HttpSocksProxy.Http.Delimited

/-! The chunked body that goes upstream against the strict grammar, and the
client streams for which it is in that grammar. -/
namespace HttpSocksProxy.Http
open ByteStream Effect
open ByteStream.Reader (newline)

/-- Hexadecimal digits, perhaps blanks and an extension after `;`, and CRLF,
with no other CR or LF. -/
def StrictSize (line : List UInt8) (size : Nat) : Prop :=
  ∃ digits blanks extension, line = digits ++ blanks ++ extension ++ crlf ∧
    digits ≠ [] ∧ (∀ b ∈ digits, isHex b = true) ∧ InetText.numeralValue 16 (str digits) = some size ∧
    (∀ b ∈ blanks, b = 32 ∨ b = 9) ∧ (blanks = [] ∧ extension = [] ∨ extension.head? = some 59) ∧
    ∀ b ∈ extension, b ≠ 13 ∧ b ≠ 10

/-- Trailer lines that each end in CRLF, and a final CRLF. -/
inductive StrictTrailers : List UInt8 → Prop where
  | last : StrictTrailers crlf
  | more : IsLine line → crlf <:+ line → line ≠ crlf → StrictTrailers rest → StrictTrailers (line ++ rest)

/-- A strict chunk sequence. -/
inductive StrictChunks : List UInt8 → Prop where
  | last : StrictSize line 0 → StrictTrailers trailers → StrictChunks (line ++ trailers)
  | more : StrictSize line size → size ≠ 0 → data.length = size → StrictChunks rest →
      StrictChunks (line ++ data ++ crlf ++ rest)

/-- A chunk header without a blank in front, a CR inside, VT or FF around its
digits, or blanks after them with no extension. -/
def tidyLine (line : List UInt8) : Bool :=
  let inner := line.dropLast.dropLast
  let size := inner.takeWhile (· ≠ 59)
  !inner.contains 13 && size.all (fun b => b ≠ 11 && b ≠ 12) && size.head?.any isHex &&
    (inner.contains 59 || size.getLast?.any isHex)

/-- Every trailer line of the stream ends in CRLF, up to the empty one. -/
def tidyTrailers (stream : List UInt8) : Bool :=
  if stream = [] then true
  else crlf.isSuffixOf (firstLine stream) && (isLast (firstLine stream) || tidyTrailers (afterLine stream))
termination_by stream.length
decreasing_by exact afterLine_shorter (by assumption)

/-- Every chunk header and every trailer line of the stream is tidy. -/
def tidyChunks (stream : List UInt8) : Bool :=
  if stream = [] then true
  else match chunkSize (firstLine stream) with
    | none => true
    | some 0 => tidyLine (firstLine stream) && tidyTrailers (afterLine stream)
    | some size => tidyLine (firstLine stream) && tidyChunks ((afterLine stream).drop (size + 2))
termination_by stream.length
decreasing_by
  have shorter := afterLine_shorter (by assumption)
  rw [List.length_drop]
  omega

/-- A line at the front of a stream is what is read first. -/
theorem IsLine.first (line : IsLine bytes) (rest : List UInt8) :
    firstLine (bytes ++ rest) = bytes ∧ afterLine (bytes ++ rest) = rest := by
  obtain ⟨content, rfl, inner⟩ := line
  have index : (content ++ [newline] ++ rest).idxOf newline = content.length := by
    rw [List.append_assoc, List.idxOf_append_of_notMem inner, List.singleton_append, List.idxOf_cons_self,
      Nat.add_zero]
  have length : content.length + 1 = (content ++ [newline]).length := by simp
  rw [firstLine, afterLine, index, length]
  exact ⟨List.take_left, List.drop_left⟩

theorem isLast_line (whole : IsLine line) : isLast line = true ↔ line = crlf ∨ line = [newline] := by
  have filled := whole.ne_nil
  simp [isLast, filled, crlf, newline]

/-- The blanks that `strip` removes. -/
def isBlank (b : UInt8) : Bool := b = 32 || (9 ≤ b && b ≤ 13)

theorem stripBytes_eq (bytes : List UInt8) :
    stripBytes bytes = (bytes.dropWhile isBlank).rdropWhile isBlank := rfl

theorem isHex_not_blank (digit : isHex b = true) : isBlank b = false := by
  simp only [isHex, isAsciiDigit, isBlank] at *
  grind

theorem isHex_other (digit : isHex b = true) : b ≠ 13 ∧ b ≠ 10 ∧ b ≠ 11 ∧ b ≠ 12 ∧ b ≠ 59 := by
  simp only [isHex, isAsciiDigit] at digit
  grind

theorem blank_cases (blank : isBlank b = true) : b = 32 ∨ b = 9 ∨ b = 10 ∨ b = 11 ∨ b = 12 ∨ b = 13 := by
  simp only [isBlank] at blank
  grind

theorem crlf_blank : ∀ b ∈ crlf, isBlank b = true := List.all_eq_true.mp rfl

theorem SizeLine.inner (header : SizeLine line size) :
    ∃ inner, line = inner ++ crlf ∧ newline ∉ inner ∧ line.dropLast.dropLast = inner := by
  obtain ⟨inner, same⟩ := header.ends
  obtain ⟨content, whole, clean⟩ := header.whole
  have split : inner ++ [13] = content := by
    have both : inner ++ [13] ++ [newline] = content ++ [newline] := by
      rw [← whole, ← same, List.append_assoc]
      rfl
    exact List.append_cancel_right both
  refine ⟨inner, same.symm, ?_, ?_⟩
  · intro inside
    rw [← split] at clean
    exact clean (List.mem_append_left _ inside)
  · rw [whole, List.dropLast_concat, ← split, List.dropLast_concat]

theorem chunkSize_some (sized : chunkSize line = some size) :
    stripBytes (line.takeWhile (· ≠ 59)) ≠ [] ∧ (∀ b ∈ stripBytes (line.takeWhile (· ≠ 59)), isHex b = true) ∧
      InetText.numeralValue 16 (str (stripBytes (line.takeWhile (· ≠ 59)))) = some size := by
  simp only [chunkSize, Option.ite_none_right_eq_some, List.all_eq_true] at sized
  exact ⟨sized.1.1, sized.1.2, sized.2⟩

/-- What stands before the `;`. -/
theorem strict_size_part (hex : ∀ b ∈ digits, isHex b = true) (blank : ∀ b ∈ blanks, b = 32 ∨ b = 9)
    (shape : blanks = [] ∧ extension = [] ∨ extension.head? = some 59) :
    (digits ++ blanks ++ extension).takeWhile (· ≠ 59) = digits ++ blanks := by
  have plain : ∀ b ∈ digits ++ blanks, decide (b ≠ 59) = true := by
    intro b inside
    rcases List.mem_append.mp inside with digit | inside
    · exact decide_eq_true (isHex_other (hex b digit)).2.2.2.2
    · rcases blank b inside with rfl | rfl <;> decide
  rw [List.takeWhile_append_of_pos plain]
  rcases shape with ⟨_, rfl⟩ | semicolon
  · simp
  · obtain ⟨rest, rfl⟩ := List.head?_eq_some_iff.mp semicolon
    simp

theorem StrictSize.tidy (header : SizeLine line size) (strict : StrictSize line size) :
    tidyLine line = true := by
  obtain ⟨inner, whole, _, dropped⟩ := header.inner
  obtain ⟨digits, blanks, extension, same, filled, hex, _, blank, shape, clean⟩ := strict
  obtain rfl : inner = digits ++ blanks ++ extension := List.append_cancel_right (whole.symm.trans same)
  simp only [tidyLine, dropped, strict_size_part hex blank shape, Bool.and_eq_true, Bool.or_eq_true]
  obtain ⟨first, rest, rfl⟩ := List.exists_cons_of_ne_nil filled
  refine ⟨⟨⟨?_, ?_⟩, ?_⟩, ?_⟩
  · rw [Bool.not_eq_true', List.contains_eq_mem, decide_eq_false_iff_not]
    intro inside
    rcases List.mem_append.mp inside with inside | inside
    · rcases List.mem_append.mp inside with digit | inside
      · exact (isHex_other (hex _ digit)).1 rfl
      · rcases blank _ inside with bad | bad <;> exact absurd bad (by decide)
    · exact (clean _ inside).1 rfl
  · rw [List.all_eq_true]
    intro b inside
    rcases List.mem_append.mp inside with digit | inside
    · have other := isHex_other (hex b digit)
      simp [other]
    · rcases blank b inside with rfl | rfl <;> decide
  · exact hex first List.mem_cons_self
  · rcases shape with ⟨rfl, rfl⟩ | semicolon
    · right
      rw [List.append_nil, List.getLast?_eq_some_getLast filled]
      exact hex _ (List.getLast_mem filled)
    · left
      obtain ⟨rest, rfl⟩ := List.head?_eq_some_iff.mp semicolon
      simp

theorem dropWhile_hex {bytes : List UInt8} (first : bytes.head?.any isHex = true) :
    bytes.dropWhile isBlank = bytes := by
  cases bytes with
  | nil => rfl
  | cons b rest =>
    apply List.dropWhile_cons_of_neg
    rw [isHex_not_blank first]
    exact Bool.false_ne_true

theorem head?_append_any {bytes : List UInt8} (first : bytes.head?.any isHex = true) (rest : List UInt8) :
    (bytes ++ rest).head?.any isHex = true := by
  cases bytes with
  | nil => contradiction
  | cons b more => exact first

/-- What blanks follow is stripped. -/
theorem strip_between {inner trailing : List UInt8} (first : inner.head?.any isHex = true)
    (last : inner.getLast?.any isHex = true) (blank : ∀ b ∈ trailing, isBlank b = true) :
    stripBytes (inner ++ trailing) = inner := by
  have blank : ∀ b ∈ trailing.reverse, isBlank b = true :=
    fun b inside => blank b (List.mem_reverse.mp inside)
  rw [stripBytes_eq, dropWhile_hex (head?_append_any first trailing), List.rdropWhile, List.reverse_append,
    List.dropWhile_append_of_pos blank]
  apply List.rdropWhile_eq_self_iff.mpr
  intro filled
  rw [List.getLast?_eq_some_getLast filled] at last
  rw [isHex_not_blank last]
  exact Bool.false_ne_true

/-- A header with an extension. -/
theorem strict_extended {before rest : List UInt8} (header : SizeLine line size)
    (whole : line = before ++ 59 :: rest ++ crlf)
    (sizes : ∀ b ∈ before, b ≠ 59 ∧ b ≠ 11 ∧ b ≠ 12) (first : before.head?.any isHex = true)
    (clean : ∀ b ∈ before ++ 59 :: rest, b ≠ 13 ∧ b ≠ 10) : StrictSize line size := by
  have part : line.takeWhile (· ≠ 59) = before := by
    rw [whole, List.append_assoc,
      List.takeWhile_append_of_pos fun b inside => decide_eq_true (sizes b inside).1]
    simp
  obtain ⟨filled, hex, number⟩ := chunkSize_some header.sized
  rw [part, stripBytes_eq, dropWhile_hex first] at filled hex number
  refine ⟨before.rdropWhile isBlank, before.rtakeWhile isBlank, 59 :: rest, ?_, filled, hex, number, ?_,
    .inr rfl, ?_⟩
  · rw [whole, List.rdropWhile_append_rtakeWhile]
  · intro b inside
    have there := (List.rtakeWhile_suffix _ _).subset inside
    have other := sizes b there
    have unbroken := clean b (List.mem_append_left _ there)
    rcases blank_cases (List.mem_rtakeWhile_imp inside) with bad | bad | bad | bad | bad | bad <;> simp_all
  · exact fun b inside => clean b (List.mem_append_right _ inside)

/-- A header without an extension. -/
theorem strict_plain {inner : List UInt8} (header : SizeLine line size) (whole : line = inner ++ crlf)
    (single : 59 ∉ inner) (first : inner.head?.any isHex = true) (last : inner.getLast?.any isHex = true) :
    StrictSize line size := by
  have part : line.takeWhile (· ≠ 59) = inner ++ crlf := by
    rw [whole, List.takeWhile_eq_self_iff]
    intro b inside
    apply decide_eq_true
    rintro rfl
    rcases List.mem_append.mp inside with inside | inside
    · exact single inside
    · simp [crlf] at inside
  have stripped : stripBytes (inner ++ crlf) = inner := strip_between first last crlf_blank
  obtain ⟨filled, hex, number⟩ := chunkSize_some header.sized
  rw [part, stripped] at filled hex number
  exact ⟨inner, [], [], by simpa using whole, filled, hex, number, by simp, .inl ⟨rfl, rfl⟩, by simp⟩

theorem strict_of_tidy (header : SizeLine line size) (tidy : tidyLine line = true) :
    StrictSize line size := by
  obtain ⟨inner, whole, unbroken, dropped⟩ := header.inner
  simp only [tidyLine, dropped, Bool.and_eq_true, Bool.or_eq_true, Bool.not_eq_true', List.contains_eq_mem,
    decide_eq_false_iff_not, decide_eq_true_eq, List.all_eq_true] at tidy
  obtain ⟨⟨⟨no_return, plain⟩, first⟩, last⟩ := tidy
  by_cases extended : 59 ∈ inner
  · obtain ⟨before, rest, rfl, single⟩ := List.eq_append_cons_of_mem extended
    have other : ∀ b ∈ before, b ≠ 59 := fun b inside same => single (same ▸ inside)
    have size_part : (before ++ 59 :: rest).takeWhile (· ≠ 59) = before := by
      rw [List.takeWhile_append_of_pos fun b inside => decide_eq_true (other b inside)]
      simp
    rw [size_part] at plain first
    refine strict_extended header whole ?_ first ?_
    · intro b inside
      exact ⟨other b inside, by simpa using plain b inside⟩
    · intro b inside
      constructor
      · rintro rfl
        exact no_return inside
      · rintro rfl
        exact unbroken inside
  · have size_part : inner.takeWhile (· ≠ 59) = inner := by
      rw [List.takeWhile_eq_self_iff]
      intro b inside
      exact decide_eq_true fun same => extended (same ▸ inside)
    rw [size_part] at first last
    exact strict_plain header whole extended first (last.resolve_left extended)

theorem SizeLine.strict_iff (header : SizeLine line size) : StrictSize line size ↔ tidyLine line = true :=
  ⟨StrictSize.tidy header, strict_of_tidy header⟩

/-- A strict header is one that the relay reads. -/
theorem StrictSize.sizeLine (strict : StrictSize line size) : SizeLine line size := by
  obtain ⟨digits, blanks, extension, same, filled, hex, number, blank, shape, clean⟩ := strict
  have unbroken : newline ∉ digits ++ blanks ++ extension := by
    intro inside
    rcases List.mem_append.mp inside with inside | inside
    · rcases List.mem_append.mp inside with digit | inside
      · exact (isHex_other (hex _ digit)).2.1 rfl
      · rcases blank _ inside with bad | bad <;> exact absurd bad (by decide)
    · exact (clean _ inside).2 rfl
  have first : digits.head?.any isHex = true := by
    obtain ⟨b, rest, rfl⟩ := List.exists_cons_of_ne_nil filled
    exact hex b List.mem_cons_self
  have last : digits.getLast?.any isHex = true := by
    rw [List.getLast?_eq_some_getLast filled]
    exact hex _ (List.getLast_mem filled)
  obtain ⟨trailing, part, blank⟩ : ∃ trailing, line.takeWhile (· ≠ 59) = digits ++ trailing ∧
      ∀ b ∈ trailing, isBlank b = true := by
    rcases shape with ⟨rfl, rfl⟩ | semicolon
    · have plain : ∀ b ∈ digits, decide (b ≠ 59) = true :=
        fun b digit => decide_eq_true (isHex_other (hex b digit)).2.2.2.2
      refine ⟨crlf, ?_, crlf_blank⟩
      rw [same, List.append_nil, List.append_nil, List.takeWhile_append_of_pos plain]
      rfl
    · obtain ⟨rest, rfl⟩ := List.head?_eq_some_iff.mp semicolon
      refine ⟨blanks, ?_, ?_⟩
      · rw [same, List.append_assoc]
        exact strict_size_part hex blank (.inr rfl)
      · intro b inside
        rcases blank b inside with rfl | rfl <;> decide
  refine ⟨⟨digits ++ blanks ++ extension ++ [13], ?_, ?_⟩, ?_, ?_⟩
  · rw [same, List.append_assoc _ [13]]
    rfl
  · rw [List.mem_append]
    exact not_or.mpr ⟨unbroken, by decide⟩
  · exact ⟨_, same.symm⟩
  · have text := strip_between first last blank
    rw [← part] at text
    rw [chunkSize, text, if_pos ⟨filled, List.all_eq_true.mpr hex⟩, number]

theorem tidyTrailers_line (whole : IsLine line) (rest : List UInt8) :
    tidyTrailers (line ++ rest) = (crlf.isSuffixOf line && (isLast line || tidyTrailers rest)) := by
  have filled : line ++ rest ≠ [] := by simp [whole.ne_nil]
  obtain ⟨first, after⟩ := whole.first rest
  rw [tidyTrailers, if_neg filled, first, after]

theorem isLine_crlf : IsLine crlf := ⟨[13], rfl, by decide⟩

/-- How a strict trailer section begins. -/
theorem strictTrailers_line (whole : IsLine line) :
    StrictTrailers (line ++ rest) ↔
      crlf <:+ line ∧ (line = crlf ∧ rest = [] ∨ line ≠ crlf ∧ StrictTrailers rest) := by
  constructor
  · intro strict
    generalize same : line ++ rest = bytes at strict
    cases strict with
    | last =>
      obtain rfl := whole.unique (y := []) isLine_crlf (by rw [same, List.append_nil])
      exact ⟨List.suffix_rfl, .inl ⟨rfl, List.append_right_eq_self.mp same⟩⟩
    | more whole' ends other later =>
      obtain rfl := whole.unique whole' same
      obtain rfl := List.append_cancel_left same
      exact ⟨ends, .inr ⟨other, later⟩⟩
  · rintro ⟨ends, ⟨rfl, rfl⟩ | ⟨other, later⟩⟩
    · exact .last
    · exact .more whole ends other later

theorem Trailers.strict_iff (trailers : Trailers bytes) (rest : List UInt8) :
    StrictTrailers bytes ↔ tidyTrailers (bytes ++ rest) = true := by
  induction trailers with
  | @last line whole ends =>
    rw [tidyTrailers_line whole, ends, Bool.true_or, Bool.and_true, List.isSuffixOf_iff_suffix]
    have bare := @strictTrailers_line line [] whole
    rw [List.append_nil] at bare
    rw [bare]
    apply and_iff_left_of_imp
    intro suffix
    rcases (isLast_line whole).mp ends with rfl | rfl
    · exact .inl ⟨rfl, rfl⟩
    · exact absurd suffix (by decide)
  | @more line later whole goes trailers ih =>
    have other : line ≠ crlf := by
      rintro rfl
      contradiction
    rw [List.append_assoc, tidyTrailers_line whole, goes, Bool.false_or, Bool.and_eq_true,
      List.isSuffixOf_iff_suffix, ← ih, strictTrailers_line whole]
    simp [other]

theorem tidyChunks_line (header : SizeLine line size) (rest : List UInt8) : tidyChunks (line ++ rest) =
    (tidyLine line && if size = 0 then tidyTrailers rest else tidyChunks (rest.drop (size + 2))) := by
  have filled : line ++ rest ≠ [] := by simp [header.whole.ne_nil]
  obtain ⟨first, after⟩ := header.whole.first rest
  rw [tidyChunks, if_neg filled, first, after, header.sized]
  cases size <;> rfl

theorem strictChunks_last (header : SizeLine line 0) :
    StrictChunks (line ++ trailers) ↔ StrictSize line 0 ∧ StrictTrailers trailers := by
  constructor
  · intro strict
    generalize same : line ++ trailers = bytes at strict
    cases strict with
    | last strict ends =>
      obtain ⟨rfl, _⟩ := header.unique strict.sizeLine same
      obtain rfl := List.append_cancel_left same
      exact ⟨strict, ends⟩
    | more strict positive =>
      simp only [List.append_assoc] at same
      exact absurd (header.unique strict.sizeLine same).2.symm positive
  · exact fun strict => .last strict.1 strict.2

theorem strictChunks_more (header : SizeLine line size) (positive : size ≠ 0) (length : data.length = size) :
    StrictChunks (line ++ data ++ crlf ++ rest) ↔ StrictSize line size ∧ StrictChunks rest := by
  constructor
  · intro strict
    generalize same : line ++ data ++ crlf ++ rest = bytes at strict
    simp only [List.append_assoc] at same
    cases strict with
    | last strict ends => exact absurd (header.unique strict.sizeLine same).2 positive
    | more strict _ length' later =>
      simp only [List.append_assoc] at same
      obtain ⟨rfl, rfl⟩ := header.unique strict.sizeLine same
      obtain ⟨rfl, after⟩ := List.append_inj (List.append_cancel_left same) (length.trans length'.symm)
      obtain rfl := List.append_cancel_left after
      exact ⟨strict, later⟩
  · exact fun strict => .more strict.1 positive length strict.2

theorem Chunks.strict_iff (chunks : Chunks bytes) (rest : List UInt8) :
    StrictChunks bytes ↔ tidyChunks (bytes ++ rest) = true := by
  induction chunks with
  | @last line trailers header ends =>
    rw [List.append_assoc, tidyChunks_line header, if_pos rfl, Bool.and_eq_true, ← header.strict_iff,
      ← ends.strict_iff, strictChunks_last header]
  | @more line size later data header positive length chunks ih =>
    have left : (data ++ (crlf ++ (later ++ rest))).drop (size + 2) = later ++ rest := by
      rw [← length, ← List.append_assoc]
      exact List.drop_left' (by rw [List.length_append]; rfl)
    rw [strictChunks_more header positive length, ih]
    simp only [List.append_assoc]
    rw [tidyChunks_line header, if_neg positive, Bool.and_eq_true, ← header.strict_iff, left]

/-- When the body relay returns, what it wrote is in the strict grammar exactly
when every chunk header and every trailer line that it read was tidy. -/
theorem strict_output_iff (maxHeaderBytes : Nat) (codings : Text) (s : Session) :
    After (forwardRequestBody maxHeaderBytes (.chunked codings)) s
      (fun _ t => ∃ body, t.upstream = s.upstream ++ body ∧
        (StrictChunks body ↔ tidyChunks s.reader.content = true))
      fun e _ => e ≠ .exhausted := by
  refine (forwardRequestBody_relays maxHeaderBytes (.chunked codings)).mono ?_ fun _ _ failed => failed
  rintro _ t ⟨body, moved, complete⟩
  refine ⟨body, moved.written, ?_⟩
  rw [moved.consumed]
  exact Chunks.strict_iff complete _

/-- The last line of the body is a bare LF, which goes upstream. -/
def bareEnd : List UInt8 := latin "0\r\n" ++ [newline]

theorem bareEnd_loose : ¬ StrictChunks bareEnd := by
  have header : SizeLine (latin "0\r\n") 0 := ⟨⟨latin "0\r", rfl, by decide⟩, ⟨latin "0", rfl⟩, rfl⟩
  have ends : Trailers [newline] := .last ⟨[], rfl, by decide⟩ rfl
  rw [bareEnd, strictChunks_last header, ends.strict_iff []]
  rintro ⟨_, tidy⟩
  have tail := tidyTrailers_line (⟨[], rfl, by decide⟩ : IsLine [newline]) []
  rw [tidy] at tail
  contradiction

theorem bare_end_sent : ∃ t,
    forwardRequestBody 65536 (.chunked chunked) ⟨.ofPieces [bareEnd], none, [], 0, []⟩ = .ok () t ∧
      t.upstream = bareEnd ∧ ¬ StrictChunks bareEnd :=
  ⟨_, rfl, rfl, bareEnd_loose⟩

end HttpSocksProxy.Http
