import HttpSocksProxy.Http.Forward

/-! The head written upstream as header fields: what a reader of the upstream
bytes finds in it. -/
namespace HttpSocksProxy.Http
open MessageHead hiding line

theorem isSpace_break (inner : isSpace b = false) : isBreak b = false ∧ isBlank b = false := by
  constructor
  · cases broken : isBreak b with
    | false => rfl
    | true =>
      simp only [isBreak, Bool.or_eq_true, decide_eq_true_eq] at broken
      rcases broken with rfl | rfl <;> cases inner
  · cases blank : isBlank b with
    | false => rfl
    | true =>
      simp only [isBlank, Bool.or_eq_true, decide_eq_true_eq] at blank
      rcases blank with rfl | rfl <;> cases inner

theorem strip_last (last : (strip t).getLast? = some b) : isSpace b = false := by
  have nonempty : strip t ≠ [] := by
    rintro none
    simp [none] at last
  rw [List.getLast?_eq_some_getLast nonempty, Option.some.injEq] at last
  have ends := List.rdropWhile_last_not isSpace (t.dropWhile isSpace) nonempty
  rw [← last]
  exact Bool.eq_false_iff.mpr ends

theorem strip_within (t : Text) : strip t <:+: t :=
  (List.rdropWhile_prefix _ _).isInfix.trans (List.dropWhile_suffix _).isInfix

/-- A stripped piece of a folded value is folded. -/
theorem strip_folded (unbroken : folded v = true) (piece : w <:+: v) : folded (strip w) = true := by
  obtain ⟨before, after, rfl⟩ := (strip_within w).trans piece
  rw [List.append_assoc] at unbroken
  exact folded_prefix (folded_suffix unbroken) fun b last => (isSpace_break (strip_last last)).1

theorem large_inner (large : 128 ≤ b) : isBreak b = false ∧ isBlank b = false := by
  have value := UInt8.le_iff_toNat_le.mp large
  constructor <;>
  · simp only [isBreak, isBlank, Bool.or_eq_false_iff, decide_eq_false_iff_not]
    constructor <;> (rintro rfl; simp at value)

theorem utf8_startsBlank (blank : startsBlank v = true) : startsBlank (utf8 v) = true := by
  cases v with
  | nil => exact blank
  | cons b v =>
    rw [utf8_cons]
    split
    · exact blank
    case isFalse large =>
      have inner := (large_inner (UInt8.not_lt.mp large)).2
      simp [startsBlank, inner] at blank

theorem utf8_continues (goes : continues b v = true) : continues b (utf8 v) = true := by
  simp only [continues, Bool.or_eq_true, Bool.and_eq_true, decide_eq_true_eq] at goes ⊢
  rcases goes with blank | ⟨⟨carriage, feed⟩, blank⟩
  · exact .inl (utf8_startsBlank blank)
  · obtain ⟨v, rfl⟩ := List.head?_eq_some_iff.mp feed
    exact .inr ⟨⟨carriage, rfl⟩, utf8_startsBlank blank⟩

theorem utf8_folded (unbroken : folded v = true) : folded (utf8 v) = true := by
  induction v with
  | nil => rfl
  | cons b v ih =>
    simp only [folded, Bool.and_eq_true, Bool.or_eq_true] at unbroken
    rw [utf8_cons]
    split
    · simp only [folded, Bool.and_eq_true, Bool.or_eq_true]
      exact ⟨unbroken.1.imp_right utf8_continues, ih unbroken.2⟩
    case isFalse large =>
      obtain ⟨first, second⟩ := utf8_large b (UInt8.not_lt.mp large)
      simp [folded, large_inner first, large_inner second, ih unbroken.2]

theorem utf8_unbroken (single : ∀ b ∈ t, isBreak b = false) : ∀ b ∈ utf8 t, isBreak b = false := by
  intro b member
  rcases mem_utf8 member with plain | large
  · exact single b plain
  · exact (large_inner large).1

theorem isName_ascii (plain : isName b = true) : b < 128 := by
  simp only [isName, Bool.and_eq_true, decide_eq_true_eq] at plain
  have small := UInt8.le_iff_toNat_le.mp plain.1.2
  apply UInt8.lt_iff_toNat_lt.mpr
  simp at small ⊢
  omega

theorem isAsciiDigit_plain (digit : isAsciiDigit b = true) : b < 128 ∧ isSpace b = false := by
  have all : ∀ n < 256, isAsciiDigit (UInt8.ofNat n) = true →
      UInt8.ofNat n < 128 ∧ isSpace (UInt8.ofNat n) = false := by decide +kernel
  simpa using all b.toNat b.toNat_lt (by simpa using digit)

theorem single_plain (plain : ∀ b ∈ t, isSpace b = false) : ∀ b ∈ utf8 t, isBreak b = false :=
  utf8_unbroken fun b member => (isSpace_break (plain b member)).1

theorem intercalate_folded (separator : folded sep = true) (unbroken : ∀ item ∈ items, folded item = true) :
    folded (sep.intercalate items) = true := by
  induction items with
  | nil => rfl
  | cons item items ih =>
    have first := unbroken item List.mem_cons_self
    rcases items with _ | ⟨next, items⟩
    · simpa using first
    · rw [List.intercalate_cons_cons]
      exact folded_append (folded_append first separator) (ih fun x member => unbroken x (by simp [member]))

theorem codings_folded (valid : validatedFraming headers = .ok (.chunked codings)) : folded codings = true := by
  rw [(framing_chunked valid).1]
  apply intercalate_folded (by decide)
  intro item member
  obtain ⟨v, inside, piece, stands, _, rfl⟩ := mem_elements member
  obtain ⟨f, _, rfl⟩ := List.mem_map.mp inside
  exact strip_folded f.unbroken stands

/-- A field as it is written upstream: its value goes out in UTF-8. -/
def encodeField (f : Field) : Field where
  name := f.name
  value := utf8 f.value
  plain := f.plain
  unbroken := utf8_folded f.unbroken

theorem encodeField_bytes (f : Field) :
    utf8 (f.name ++ [58, 32] ++ f.value) ++ crlf = (encodeField f).bytes := by
  have ascii : isAscii (f.name ++ [58, 32]) = true := by
    simp only [isAscii, List.all_append, Bool.and_eq_true, List.all_eq_true, decide_eq_true_eq]
    exact ⟨fun b member => isName_ascii (f.plain b member), by simp⟩
  rw [utf8_append, utf8_ascii ascii]
  rfl

def connectionField : Field where
  name := latin "Connection"
  value := latin "close"
  plain := List.all_eq_true.mp (by decide)
  unbroken := by decide

/-- The field that announces a framing. -/
def Framing.fields : (framing : Framing) → validatedFraming headers = .ok framing → List Field
  | chunked codings, framed => [{
      name := latin "Transfer-Encoding"
      value := utf8 codings
      plain := List.all_eq_true.mp (by decide)
      unbroken := utf8_folded (codings_folded framed) }]
  | length n, _ => [{
      name := latin "Content-Length"
      value := decimal n
      plain := List.all_eq_true.mp (by decide)
      unbroken := folded_single fun b digit =>
        (isSpace_break (isAsciiDigit_plain (decimal_digits n b digit)).2).1 }]
  | none, _ => []

def Framing.pairs : Framing → List (Text × Text)
  | chunked codings => [(latin "Transfer-Encoding", utf8 codings)]
  | length n => [(latin "Content-Length", decimal n)]
  | none => []

theorem Framing.fields_pairs (framed : validatedFraming headers = .ok framing) :
    (framing.fields framed).map Field.pair = framing.pairs := by
  cases framing <;> rfl

theorem Framing.bytes_eq (framed : validatedFraming headers = .ok framing) :
    framing.bytes = (framing.fields framed).flatMap Field.bytes := by
  cases framing with
  | chunked codings =>
    simp only [bytes, fields, Field.bytes, utf8_append, List.flatMap_singleton]
    rfl
  | length n =>
    simp only [bytes, fields, Field.bytes, List.flatMap_singleton]
    rfl
  | none => rfl

namespace Accepted
variable {r : Request} (a : Accepted r)

theorem parts_plain : (∀ b ∈ a.target.netloc, isSpace b = false) ∧
    (∀ b ∈ a.target.path, isSpace b = false) ∧ ∀ b ∈ a.target.query, isSpace b = false := by
  rw [urlsplit_ok a.split]
  obtain ⟨netloc, path, query⟩ := urlParts_sublist r.path.1
  exact ⟨fun b member => r.path.2 b (netloc.subset member),
    fun b member => r.path.2 b (path.subset member),
    fun b member => r.path.2 b (query.subset member)⟩

theorem pathQuery_plain : ∀ b ∈ a.pathQuery, isSpace b = false := by
  obtain ⟨_, path, query⟩ := a.parts_plain
  intro b member
  rcases List.mem_append.mp member with first | last
  · split at first
    · obtain rfl := List.mem_singleton.mp first
      rfl
    · exact path b first
  · split at last
    · simp at last
    · rcases List.mem_cons.mp last with rfl | inside
      · rfl
      · exact query b inside

theorem hostValue_plain : ∀ b ∈ a.hostValue, isSpace b = false := by
  have name := SplitResult.hostname_plain a.parts_plain.1 a.named
  have brackets : ∀ b ∈ [91] ++ a.address.1 ++ [93], isSpace b = false := by
    simpa [or_imp, forall_and] using ⟨by decide, name, by decide⟩
  intro b member
  rcases List.mem_append.mp member with first | last
  · split at first
    · exact brackets b first
    · exact name b first
  · split at last
    · simp at last
    · rcases List.mem_cons.mp last with rfl | digit
      · rfl
      · exact (isAsciiDigit_plain (decimal_digits _ b digit)).2

def hostField : Field where
  name := latin "Host"
  value := utf8 a.hostValue
  plain := List.all_eq_true.mp (by decide)
  unbroken := folded_single (single_plain a.hostValue_plain)

def startLine : List UInt8 := utf8 (r.command.1 ++ [32] ++ a.pathQuery ++ [32] ++ r.version.1)

/-- The head that goes upstream. -/
def emitted : Head where
  start := a.startLine
  fields := a.hostField :: (forwardHeaders r.headers).map encodeField ++ a.framing.fields a.framed ++
    [connectionField]
  single := by
    apply utf8_unbroken
    have space : isBreak 32 = false := rfl
    simp only [List.mem_append, List.mem_singleton, or_imp, forall_and, forall_eq, space, and_true]
    exact ⟨⟨fun b member => (isSpace_break (r.command.2 b member)).1,
      fun b member => (isSpace_break (a.pathQuery_plain b member)).1⟩,
      fun b member => (isSpace_break (r.version.2 b member)).1⟩

/-- What is written upstream is this head. -/
theorem headBytes_eq : a.headBytes = a.emitted.bytes := by
  have host : utf8 (latin "Host: " ++ a.hostValue) ++ crlf = a.hostField.bytes := by
    rw [utf8_append]
    rfl
  have forwarded : ((forwardHeaders r.headers).map encodeField).flatMap Field.bytes =
      (forwardHeaders r.headers).flatMap fun f => utf8 (f.name ++ [58, 32] ++ f.value) ++ crlf := by
    simp only [List.flatMap_map, encodeField_bytes]
  have close : latin "Connection: close" ++ crlf = connectionField.bytes := by decide
  rw [headBytes, host, close, Framing.bytes_eq a.framed, ← forwarded]
  simp only [Head.bytes, emitted, startLine, crlf, List.flatMap_append, List.flatMap_cons,
    List.flatMap_nil, List.append_nil, List.append_assoc]

/-- Names and values of the fields that go upstream. -/
def fields : List (Text × Text) :=
  (latin "Host", utf8 a.hostValue) ::
    (forwardHeaders r.headers).map (fun f => (f.name, utf8 f.value)) ++ a.framing.pairs ++
    [(latin "Connection", latin "close")]

/-- A reader of the upstream bytes finds this start line and these fields. -/
theorem read_headBytes (rest : List UInt8) :
    read (a.headBytes ++ rest) = some (a.startLine, a.fields, rest) := by
  have same : a.emitted.fields.map Field.pair = a.fields := by
    simp only [emitted, List.map_append, List.map_cons, List.map_map, Framing.fields_pairs]
    rfl
  rw [headBytes_eq, read_bytes a.emitted rest, same]
  rfl

end Accepted
end HttpSocksProxy.Http
