import HttpSocksProxy.Http.Delimited

/-! `_validated_framing`: which fields it refuses, what it decides on the others,
and what it decides on the field that is emitted for them. -/
namespace HttpSocksProxy.Http
open ByteStream (bind_ok)

/-- `_validated_framing` on what `get_all` returns. -/
def framingOf (connections transfers lengths : List Text) : Except Text Framing :=
  let tokens := ((elements connections).filter (· ≠ [])).map lower
  if contentLength ∈ tokens ∨ transferEncoding ∈ tokens then
    .error (latin "Connection nominates an HTTP framing field")
  else if transfers ≠ [] ∧ lengths ≠ [] then
    .error (latin "both Transfer-Encoding and Content-Length are present")
  else if transfers ≠ [] then transferFraming transfers
  else if lengths ≠ [] then lengthFraming lengths
  else .ok .none

/-- The framing of a request is that of the values of its fields. -/
theorem validatedFraming_eq (headers : List MessageHead.Field) : validatedFraming headers =
    framingOf (getAll connection headers) (getAll transferEncoding headers) (getAll contentLength headers) :=
  rfl

/-- The name of a transfer coding, without its parameters. -/
def codingName (item : Text) : Text := lower (strip (partition 59 item).1)

/-- Codings other than `chunked`, and one `chunked` after them. -/
structure WellCoded (items : List Text) : Prop where
  filled : [] ∉ items
  named : ∀ item ∈ items, isToken (codingName item) = true
  bare : ∀ item ∈ items, codingName item = chunked → 59 ∉ item
  final : ∃ before last, items = before ++ [last] ∧ codingName last = chunked ∧
    ∀ item ∈ before, codingName item ≠ chunked

/-- ASCII numbers, all of the same value. -/
structure WellCounted (items : List Text) : Prop where
  digits : ∀ item ∈ items, item ≠ [] ∧ ∀ b ∈ item, isAsciiDigit b = true
  equal : ∀ a ∈ items, ∀ b ∈ items,
    InetText.numeralValue 10 (str a) = InetText.numeralValue 10 (str b)

/-- Values that leave the end of the body open. -/
def Ambiguous (connections transfers lengths : List Text) : Prop :=
  (∃ item ∈ elements connections, lower item = contentLength ∨ lower item = transferEncoding) ∨
    (transfers ≠ [] ∧ lengths ≠ []) ∨ (transfers ≠ [] ∧ ¬ WellCoded (elements transfers)) ∨
    (lengths ≠ [] ∧ ¬ WellCounted (elements lengths))

/-- A length is beyond the digits that `int` takes. -/
def Overlong (lengths : List Text) : Prop := ∃ item ∈ elements lengths, 4300 < item.length

/-- The framing that the values name. -/
def Decides (transfers lengths : List Text) : Framing → Prop
  | .chunked codings => transfers ≠ [] ∧ codings = (latin ", ").intercalate (elements transfers)
  | .length n => lengths ≠ [] ∧ ∀ item ∈ elements lengths, InetText.numeralValue 10 (str item) = some n
  | .none => transfers = [] ∧ lengths = []

/-- The field that is emitted for a framing. -/
def Framing.field (encode : Text → List UInt8) : Framing → List (Text × Text)
  | chunked codings => [(latin "Transfer-Encoding", encode codings)]
  | length n => [(latin "Content-Length", decimal n)]
  | none => []

/-- `do_verb` sends the field in UTF-8. -/
theorem Framing.pairs_eq (framing : Framing) : framing.pairs = framing.field utf8 := by
  cases framing <;> rfl

/-- `_validated_framing` on these fields alone. -/
def readBack (fields : List (Text × Text)) : Except Text Framing :=
  framingOf (valuesOf connection) (valuesOf transferEncoding) (valuesOf contentLength)
where
  valuesOf (name : Text) : List Text := (fields.filter fun f => lower f.1 = name).map Prod.snd

def SameDecision : Framing → Framing → Prop
  | .chunked _, .chunked _ => True
  | first, second => first = second

/-- Refusals are for a reason; anything else is decided as its values say, and the
emitted field is decided in the same way. -/
def Exact (encode : Text → List UInt8) (connections transfers lengths : List Text) : Prop :=
  match framingOf connections transfers lengths with
  | .error _ => Ambiguous connections transfers lengths ∨ Overlong lengths
  | .ok framing => ¬ Ambiguous connections transfers lengths ∧ Decides transfers lengths framing ∧
      ∃ again, readBack (framing.field encode) = .ok again ∧ SameDecision again framing

/-- Either every element is good and all are mapped, or one is not and the whole fails. -/
theorem mapM_either {f : A → Except E B} {good : A → Prop} (g : A → B) {items : List A}
    (either : ∀ x ∈ items, (good x ∧ f x = .ok (g x)) ∨ ¬ good x ∧ ∃ e, f x = .error e) :
    ((∀ x ∈ items, good x) ∧ items.mapM f = .ok (items.map g)) ∨
      (∃ x ∈ items, ¬ good x) ∧ ∃ e, items.mapM f = .error e := by
  induction items with
  | nil => exact .inl ⟨by simp, rfl⟩
  | cons x items ih =>
    rw [List.mapM_cons]
    rcases either x List.mem_cons_self with ⟨fine, mapped⟩ | ⟨bad, e, failed⟩
    · rw [mapped]
      rcases ih fun y later => either y (List.mem_cons_of_mem x later) with ⟨all, rest⟩ | ⟨⟨y, later, bad⟩, e, failed⟩
      · rw [rest]
        exact .inl ⟨by simpa using ⟨fine, all⟩, rfl⟩
      · rw [failed]
        exact .inr ⟨⟨y, List.mem_cons_of_mem x later, bad⟩, e, rfl⟩
    · rw [failed]
      exact .inr ⟨⟨x, List.mem_cons_self, bad⟩, e, rfl⟩

theorem coding_either (item : Text) :
    ((item ≠ [] ∧ isToken (codingName item) = true ∧ ¬ (codingName item = chunked ∧ 59 ∈ item)) ∧
      coding item = .ok (codingName item)) ∨
    ¬ (item ≠ [] ∧ isToken (codingName item) = true ∧ ¬ (codingName item = chunked ∧ 59 ∈ item)) ∧
      ∃ text, coding item = .error text := by
  have same : coding item = if item = [] then .error (latin "empty transfer coding")
      else if !isToken (codingName item) then .error (latin "malformed transfer coding")
      else if codingName item = chunked ∧ 59 ∈ item then
        .error (latin "chunked transfer coding cannot have parameters")
      else .ok (codingName item) := rfl
  rw [same]
  split
  case isTrue empty => exact .inr ⟨by simp [empty], _, rfl⟩
  split
  case isTrue bad => exact .inr ⟨by simp_all, _, rfl⟩
  split
  case isTrue bad => exact .inr ⟨by simp_all, _, rfl⟩
  case isFalse filled named bare => exact .inl ⟨⟨filled, by simpa using named, bare⟩, rfl⟩

theorem final_iff (items : List Text) :
    ((items.map codingName).getLast? = some chunked ∧ (items.map codingName).count chunked = 1) ↔
      ∃ before last, items = before ++ [last] ∧ codingName last = chunked ∧
        ∀ item ∈ before, codingName item ≠ chunked := by
  rcases items.eq_nil_or_concat with rfl | ⟨before, last, rfl⟩
  · simp
  · have counted : ((before ++ [last]).map codingName).count chunked =
        (before.map codingName).count chunked + if codingName last = chunked then 1 else 0 := by
      simp [List.count_cons, beq_iff_eq]
    rw [List.concat_eq_append, counted]
    constructor
    · rintro ⟨final, once⟩
      have final : codingName last = chunked := by simpa using final
      rw [if_pos final] at once
      have none : (before.map codingName).count chunked = 0 := by omega
      rw [List.count_eq_zero] at none
      exact ⟨before, last, rfl, final, fun item member same => none (List.mem_map.mpr ⟨item, member, same⟩)⟩
    · rintro ⟨before', last', same, final, others⟩
      obtain ⟨rfl, single⟩ := List.append_inj' same rfl
      obtain rfl : last = last' := by simpa using single
      have none : (before.map codingName).count chunked = 0 := by
        rw [List.count_eq_zero]
        intro member
        obtain ⟨item, inside, named⟩ := List.mem_map.mp member
        exact others item inside named
      refine ⟨by simp [final], ?_⟩
      rw [none, if_pos final]

/-- `_validated_framing` on transfer codings. -/
theorem transferFraming_either (values : List Text) :
    (WellCoded (elements values) ∧
      transferFraming values = .ok (.chunked ((latin ", ").intercalate (elements values)))) ∨
    ¬ WellCoded (elements values) ∧ ∃ text, transferFraming values = .error text := by
  rcases mapM_either codingName fun item _ => coding_either item with ⟨good, mapped⟩ | ⟨⟨item, member, bad⟩, e, failed⟩
  · rw [transferFraming, mapped]
    by_cases final : ((elements values).map codingName).getLast? = some chunked ∧
        ((elements values).map codingName).count chunked = 1
    · refine .inl ⟨⟨fun empty => (good _ empty).1 rfl, fun item member => (good item member).2.1, ?_,
        (final_iff _).mp final⟩, ?_⟩
      · exact fun item member named inside => (good item member).2.2 ⟨named, inside⟩
      · exact if_pos final
    · refine .inr ⟨fun well => final ((final_iff _).mpr well.final), latin "final transfer coding must be chunked", ?_⟩
      exact if_neg final
  · refine .inr ⟨fun well => bad ?_, e, by rw [transferFraming, failed]; rfl⟩
    refine ⟨fun empty => well.filled (empty ▸ member), well.named item member, ?_⟩
    rintro ⟨named, inside⟩
    exact well.bare item member named inside

/-- The digits of a text that `numeralValue` takes. -/
theorem mapM_digits (t : Text) : ((str t).mapM InetText.digitValue).any (·.all (· < 10)) = t.all isAsciiDigit := by
  have one : ∀ n < 256, (InetText.digitValue (charOf (UInt8.ofNat n))).any (· < 10) =
      isAsciiDigit (UInt8.ofNat n) := by decide +kernel
  induction t with
  | nil => rfl
  | cons b t ih =>
    have first := one b.toNat b.toNat_lt
    simp only [UInt8.ofNat_toNat] at first
    rw [List.all_cons, ← first, ← ih, str, List.map_cons, List.mapM_cons]
    cases InetText.digitValue (charOf b) with
    | none => rfl
    | some d =>
      rw [← str]
      cases (str t).mapM InetText.digitValue <;> simp

theorem numeralValue_isSome (t : Text) : (InetText.numeralValue 10 (str t)).isSome = t.all isAsciiDigit := by
  rw [← mapM_digits, InetText.numeralValue]
  cases (str t).mapM InetText.digitValue with
  | none => rfl
  | some ds =>
    simp only [Option.bind_some, Option.any_some]
    split <;> simp_all

theorem decimal_short (bound : n < 10 ^ k) (positive : 0 < k) : (decimal n).length ≤ k := by
  rw [decimal, List.length_map, InetText.numeral]
  split
  case isTrue => exact positive
  case isFalse =>
    rw [List.length_map, List.length_reverse]
    exact (Nat.digits_length_le_iff (by decide) n).mpr bound

/-- A number has no more digits than any text of it. -/
theorem decimal_length (filled : t ≠ []) (value : InetText.numeralValue 10 (str t) = some n) :
    (decimal n).length ≤ t.length := by
  have positive := List.length_pos_of_ne_nil filled
  obtain ⟨ds, mapped, same⟩ := Option.bind_eq_some_iff.mp value
  obtain ⟨small, same⟩ := Option.ite_none_right_eq_some.mp same
  have count : ds.length = t.length := by
    have lengths : ∀ (cs : List Char) ds, cs.mapM InetText.digitValue = some ds → ds.length = cs.length := by
      intro cs
      induction cs with
      | nil => simp
      | cons c cs ih =>
        intro ds mapped
        simp only [List.mapM_cons, Option.bind_eq_bind, Option.bind_eq_some_iff] at mapped
        obtain ⟨d, _, rest, later, whole⟩ := mapped
        cases whole
        rw [List.length_cons, List.length_cons, ih rest later]
    rw [lengths _ _ mapped, str, List.length_map]
  have bound : n < 10 ^ t.length := by
    rw [← Option.some.inj same, ← count, ← List.length_reverse]
    apply Nat.ofDigits_lt_base_pow_length (by decide)
    intro d member
    simpa using List.all_eq_true.mp small d (List.mem_reverse.mp member)
  exact decimal_short bound positive

/-- The value of an ASCII number. -/
def numberOf (item : Text) : Nat := (InetText.numeralValue 10 (str item)).getD 0

theorem numberOf_digits (digits : ∀ b ∈ item, isAsciiDigit b = true) :
    InetText.numeralValue 10 (str item) = some (numberOf item) := by
  have whole := numeralValue_isSome item
  rw [List.all_eq_true.mpr digits] at whole
  exact (Option.some_get whole).symm.trans (by rw [numberOf, Option.get_eq_getD])

theorem lengthOf_either (item : Text) :
    ((item ≠ [] ∧ (∀ b ∈ item, isAsciiDigit b = true) ∧ item.length ≤ 4300) ∧
      lengthOf item = .ok (numberOf item)) ∨
    ¬ (item ≠ [] ∧ (∀ b ∈ item, isAsciiDigit b = true) ∧ item.length ≤ 4300) ∧
      ∃ text, lengthOf item = .error text := by
  have whole := numeralValue_isSome item
  unfold lengthOf
  split
  case isTrue digit =>
    simp only [isdigit, Bool.and_eq_true, decide_eq_true_eq] at digit
    unfold int
    split
    case isTrue long => exact .inr ⟨fun ⟨_, _, short⟩ => by omega, _, rfl⟩
    case isFalse short =>
      cases value : InetText.numeralValue 10 (str item) with
      | some n =>
        rw [value] at whole
        have digits : ∀ b ∈ item, isAsciiDigit b = true := by simpa using whole.symm
        exact .inl ⟨⟨digit.1, digits, by omega⟩, by simp [numberOf, value]⟩
      | none =>
        rw [value] at whole
        refine .inr ⟨fun ⟨_, digits, _⟩ => ?_, _, rfl⟩
        rw [List.all_eq_true.mpr digits] at whole
        cases whole
  case isFalse other =>
    refine .inr ⟨fun ⟨filled, digits, _⟩ => other ?_, _, rfl⟩
    simp only [isdigit, Bool.and_eq_true, decide_eq_true_eq, List.all_eq_true, Bool.or_eq_true]
    exact ⟨filled, fun b member => .inl (.inl (.inl (digits b member)))⟩

theorem elements_filled (present : values ≠ []) : elements values ≠ [] := by
  obtain ⟨v, rest, rfl⟩ := List.exists_cons_of_ne_nil present
  obtain ⟨more, pieces⟩ := splitOnP_head (· == 44) v
  have pieces : v.splitOn 44 = _ := pieces
  simp [elements, pieces]

/-- `_validated_framing` on lengths. -/
theorem lengthFraming_either (present : values ≠ []) :
    (WellCounted (elements values) ∧ ∃ n, lengthFraming values = .ok (.length n) ∧
      (∀ item ∈ elements values, InetText.numeralValue 10 (str item) = some n) ∧ (decimal n).length ≤ 4300) ∨
    (¬ WellCounted (elements values) ∨ Overlong values) ∧ ∃ text, lengthFraming values = .error text := by
  obtain ⟨first, rest, same⟩ := List.exists_cons_of_ne_nil (elements_filled present)
  rcases mapM_either numberOf fun item _ => lengthOf_either item with ⟨good, mapped⟩ | ⟨⟨item, member, bad⟩, e, failed⟩
  · have value : ∀ item ∈ elements values, InetText.numeralValue 10 (str item) = some (numberOf item) :=
      fun item member => numberOf_digits (good item member).2.1
    have run : lengthFraming values =
        if (rest.map numberOf).all (· = numberOf first) then .ok (.length (numberOf first))
        else .error (latin "conflicting Content-Length values") := by
      rw [lengthFraming, mapped, same]
      rfl
    have head : first ∈ elements values := by simp [same]
    by_cases equal : (rest.map numberOf).all (· = numberOf first) = true
    · have equal : ∀ item ∈ elements values, numberOf item = numberOf first := by
        rw [same]
        simpa using equal
      refine .inl ⟨⟨fun item member => ⟨(good item member).1, (good item member).2.1⟩, ?_⟩, numberOf first, ?_, ?_, ?_⟩
      · intro a left b right
        rw [value a left, value b right, equal a left, equal b right]
      · rw [run, if_pos ‹_›]
      · intro item member
        rw [value item member, equal item member]
      · exact (decimal_length (good first head).1 (value first head)).trans (good first head).2.2
    · refine .inr ⟨.inl fun well => equal ?_, _, by rw [run, if_neg equal]⟩
      simp only [List.all_map, List.all_eq_true, Function.comp_apply, decide_eq_true_eq]
      intro item member
      have inside : item ∈ elements values := by simp [same, member]
      have both := well.equal item inside first head
      rw [value item inside, value first head] at both
      exact Option.some.inj both
  · refine .inr ⟨?_, e, by rw [lengthFraming, failed]; rfl⟩
    by_cases well : WellCounted (elements values)
    · refine .inr ⟨item, member, ?_⟩
      obtain ⟨filled, digits⟩ := well.digits item member
      by_contra short
      exact bad ⟨filled, digits, by omega⟩
    · exact .inl well

/-- An element has no comma and no white space around it. -/
theorem element_plain (member : item ∈ elements values) : 44 ∉ item ∧ strip item = item := by
  obtain ⟨_, _, piece, _, single, rfl⟩ := mem_elements member
  exact ⟨fun comma => single ((strip_within piece).subset comma), strip_strip piece⟩

theorem elements_blank (t : Text) : elements [32 :: t] = elements [t] := by
  obtain ⟨more, pieces⟩ := splitOnP_head (· == 44) t
  have pieces : t.splitOn 44 = _ := pieces
  have after : (32 :: t).splitOn 44 = (t.splitOn 44).modifyHead (32 :: ·) :=
    List.splitOnP_cons_eq_if_modifyHead ..
  simp only [elements, List.flatMap_cons, List.flatMap_nil, List.append_nil, after, pieces,
    List.modifyHead_cons, List.map_cons]
  rfl

theorem elements_cons (alone : 44 ∉ first) (rest : Text) :
    elements [first ++ 44 :: rest] = strip first :: elements [rest] := by
  simp [elements, List.splitOn_append_cons_self_of_not_mem alone]

theorem elements_single (alone : 44 ∉ t) : elements [t] = [strip t] := by
  simp [elements, List.splitOn_eq_singleton alone]

/-- The elements of joined codings, in an encoding that keeps ASCII and adds no comma,
are the encoded codings, stripped again. -/
theorem elements_joined {encode : Text → List UInt8}
    (append : ∀ t u, encode (t ++ u) = encode t ++ encode u)
    (comma : encode (latin ", ") = latin ", ") (single : ∀ t, 44 ∉ t → 44 ∉ encode t)
    (filled : items ≠ []) (plain : ∀ item ∈ items, 44 ∉ item) :
    elements [encode ((latin ", ").intercalate items)] = items.map fun item => strip (encode item) := by
  induction items with
  | nil => contradiction
  | cons item rest ih =>
    have alone : 44 ∉ encode item := single item (plain item List.mem_cons_self)
    rcases rest with _ | ⟨next, rest⟩
    · rw [List.intercalate_singleton, elements_single alone]
      rfl
    · have tail := ih (by simp) fun x member => plain x (List.mem_cons_of_mem item member)
      rw [List.intercalate_cons_cons, append, append, comma, List.append_assoc, List.map_cons, ← tail]
      exact (elements_cons alone _).trans (congrArg _ (elements_blank _))

theorem strip_head (stripped : strip item = item) (first : item.head? = some b) : isSpace b = false := by
  have outside := List.head?_dropWhile_not isSpace item
  have starts : strip item <+: item.dropWhile isSpace := List.rdropWhile_prefix _ _
  obtain ⟨rest, rfl⟩ := List.head?_eq_some_iff.mp first
  rw [stripped] at starts
  obtain ⟨more, same⟩ := starts
  rw [← same] at outside
  simpa using outside

theorem utf8_space (inner : isSpace b = false) : ∃ c rest, utf8 [b] = c :: rest ∧ isSpace c = false := by
  have all : ∀ n < 256, 128 ≤ UInt8.ofNat n → isSpace (192 + UInt8.ofNat n / 64) = false := by decide +kernel
  rw [utf8_cons]
  split
  case isTrue => exact ⟨b, [], rfl, inner⟩
  case isFalse large =>
    refine ⟨_, _, rfl, ?_⟩
    simpa using all b.toNat b.toNat_lt (by simpa using UInt8.not_lt.mp large)

/-- The encoding of a stripped text starts with no white space. -/
theorem strip_utf8 (stripped : strip item = item) : strip (utf8 item) = (utf8 item).rdropWhile isSpace := by
  cases item with
  | nil => rfl
  | cons b rest =>
    obtain ⟨c, more, encoded, inner⟩ := utf8_space (strip_head stripped rfl)
    have whole : utf8 (b :: rest) = c :: (more ++ utf8 rest) := by
      rw [← List.singleton_append, utf8_append, encoded, List.cons_append]
    rw [strip, whole, List.dropWhile_cons_of_neg (by simp [inner])]

theorem rdropWhile_sep (inner : isSpace sep = false) (before after : Text) :
    (before ++ sep :: after).rdropWhile isSpace = before ++ sep :: after.rdropWhile isSpace := by
  simp only [List.rdropWhile, List.reverse_append, List.reverse_cons, List.append_assoc, List.singleton_append]
  rw [List.dropWhile_append]
  split
  case isTrue none =>
    have none : after.reverse.dropWhile isSpace = [] := by simpa using none
    simp [none, inner]
  case isFalse => simp

theorem mem_strip (member : b ∈ t) (inner : isSpace b = false) : b ∈ strip t := by
  have kept : b ∈ t.dropWhile isSpace := by
    rw [← List.takeWhile_append_dropWhile (p := isSpace) (l := t)] at member
    rcases List.mem_append.mp member with before | after
    · simp [List.mem_takeWhile_imp before] at inner
    · exact after
  have reversed : b ∈ (t.dropWhile isSpace).reverse := List.mem_reverse.mpr kept
  rw [← List.takeWhile_append_dropWhile (p := isSpace) (l := (t.dropWhile isSpace).reverse)] at reversed
  rcases List.mem_append.mp reversed with after | before
  · simp [List.mem_takeWhile_imp after] at inner
  · exact List.mem_reverse.mpr before

/-- No character beyond ASCII is left out when a name is read back. -/
theorem token_ascii (token : isToken (lower (strip (utf8 t))) = true) : isAscii t = true := by
  have all : ∀ n < 256, 128 ≤ UInt8.ofNat n → isSpace (192 + UInt8.ofNat n / 64) = false ∧
      isToken [lowerChar (192 + UInt8.ofNat n / 64)] = false := by decide +kernel
  simp only [isAscii, List.all_eq_true, decide_eq_true_eq]
  intro b member
  by_contra large
  obtain ⟨inner, other⟩ := all b.toNat b.toNat_lt (by simpa using UInt8.not_lt.mp large)
  simp only [UInt8.ofNat_toNat] at inner other
  have inside : 192 + b / 64 ∈ utf8 t := by
    obtain ⟨before, after, rfl⟩ := List.append_of_mem member
    rw [utf8_append, utf8_cons, if_neg large]
    simp
  have kept : lowerChar (192 + b / 64) ∈ lower (strip (utf8 t)) :=
    List.mem_map_of_mem (mem_strip inside inner)
  simp only [isToken, Bool.and_eq_true, List.all_eq_true, List.all_cons, List.all_nil] at token other
  have known := token.2 _ kept
  rw [known] at other
  cases other

/-- Up to its parameters a coding is read back as it was written in UTF-8. -/
theorem coding_utf8 (stripped : strip item = item) :
    codingName (strip (utf8 item)) = lower (strip (utf8 (partition 59 item).1)) ∧
      (59 ∈ strip (utf8 item) ↔ 59 ∈ item) ∧ (strip (utf8 item) = [] ↔ item = []) := by
  have single {t : Text} (bare : 59 ∉ t) : 59 ∉ utf8 t := by
    intro member
    rcases mem_utf8 member with inside | large
    · exact bare inside
    · exact absurd large (by decide)
  by_cases parameters : 59 ∈ item
  · obtain ⟨before, after, rfl, bare⟩ := List.eq_append_cons_of_mem parameters
    have encoded : strip (utf8 (before ++ 59 :: after)) = utf8 before ++ 59 :: (utf8 after).rdropWhile isSpace := by
      rw [strip_utf8 stripped, utf8_append, utf8_cons, if_pos (by decide), rdropWhile_sep rfl]
    rw [encoded, codingName, partition_sep (single bare), partition_sep bare]
    simp
  · have bare : 59 ∉ strip (utf8 item) := fun inside =>
      single parameters ((strip_within _).subset inside)
    rw [codingName, partition_none bare, partition_none parameters, strip_strip]
    refine ⟨rfl, by simp [bare, parameters], ?_⟩
    constructor
    · intro empty
      by_contra filled
      obtain ⟨b, rest, rfl⟩ := List.exists_cons_of_ne_nil filled
      obtain ⟨c, more, encoded, inner⟩ := utf8_space (strip_head stripped rfl)
      have starts : utf8 (b :: rest) = [] ++ c :: (more ++ utf8 rest) := by
        rw [← List.singleton_append, utf8_append, encoded, List.cons_append, List.nil_append]
      rw [strip_utf8 stripped, starts, rdropWhile_sep inner] at empty
      cases empty
    · rintro rfl
      rfl

theorem WellCoded.map (well : WellCoded items) (same : ∀ item ∈ items, codingName (f item) = codingName item ∧
    (59 ∈ f item ↔ 59 ∈ item) ∧ (f item = [] ↔ item = [])) : WellCoded (items.map f) where
  filled member := by
    obtain ⟨item, inside, empty⟩ := List.mem_map.mp member
    exact well.filled ((same item inside).2.2.mp empty ▸ inside)
  named := by
    simp only [List.forall_mem_map]
    intro item inside
    rw [(same item inside).1]
    exact well.named item inside
  bare := by
    simp only [List.forall_mem_map]
    intro item inside named
    rw [(same item inside).1] at named
    rw [(same item inside).2.1]
    exact well.bare item inside named
  final := by
    obtain ⟨before, last, rfl, named, others⟩ := well.final
    refine ⟨before.map f, f last, by simp, ?_, ?_⟩
    · rw [(same last (by simp)).1, named]
    · simp only [List.forall_mem_map]
      intro item inside
      rw [(same item (List.mem_append_left _ inside)).1]
      exact others item inside

theorem WellCoded.items_filled (well : WellCoded items) : items ≠ [] := by
  obtain ⟨before, last, rfl, _⟩ := well.final
  simp

/-- The emitted codings as text are well coded again. -/
theorem WellCoded.joined (well : WellCoded (elements values)) :
    WellCoded (elements [(latin ", ").intercalate (elements values)]) := by
  have plain : ∀ item ∈ elements values, 44 ∉ item := fun _ member => (element_plain member).1
  have same : elements [id ((latin ", ").intercalate (elements values))] =
      (elements values).map fun item => strip (id item) :=
    elements_joined (fun _ _ => rfl) rfl (fun _ alone => alone) well.items_filled plain
  have kept : (elements values).map (fun item => strip (id item)) = elements values :=
    (List.map_congr_left fun item member => (element_plain member).2).trans (List.map_id _)
  rw [kept] at same
  rwa [show elements [(latin ", ").intercalate (elements values)] = elements values from same]

/-- The emitted codings in UTF-8 are well coded exactly when their names and what
follows up to the parameters are ASCII. -/
theorem WellCoded.encoded_iff (well : WellCoded (elements values)) :
    WellCoded (elements [utf8 ((latin ", ").intercalate (elements values))]) ↔
      ∀ item ∈ elements values, isAscii (partition 59 item).1 = true := by
  have plain : ∀ item ∈ elements values, 44 ∉ item := fun _ member => (element_plain member).1
  have single : ∀ t : Text, 44 ∉ t → 44 ∉ utf8 t := by
    intro t alone member
    rcases mem_utf8 member with inside | large
    · exact alone inside
    · exact absurd large (by decide)
  rw [elements_joined utf8_append (utf8_ascii rfl) single well.items_filled plain]
  constructor
  · intro again item member
    have named := again.named _ (List.mem_map_of_mem member)
    rw [(coding_utf8 (element_plain member).2).1] at named
    exact token_ascii named
  · intro ascii
    refine well.map fun item member => ?_
    have read := coding_utf8 (element_plain member).2
    rw [utf8_ascii (ascii item member)] at read
    exact read

theorem readBack_length (bytes : Text) :
    readBack [(latin "Content-Length", bytes)] = lengthFraming [bytes] := rfl

theorem strip_plain (plain : ∀ b ∈ t, isSpace b = false) : strip t = t := by
  have first : t.dropWhile isSpace = t := by
    rw [List.dropWhile_eq_self_iff]
    intro filled
    simp [plain _ (List.getElem_mem filled)]
  rw [strip, first, List.rdropWhile_eq_self_iff]
  intro filled
  simp [plain _ (List.getLast_mem filled)]

theorem readBack_decimal (short : (decimal n).length ≤ 4300) :
    readBack [(latin "Content-Length", decimal n)] = .ok (.length n) := by
  have digits := decimal_digits n
  have filled : decimal n ≠ [] := by simpa [decimal] using InetText.numeral_ne_nil 10 n
  have plain : ∀ b ∈ decimal n, isSpace b = false := fun b member => (isAsciiDigit_plain (digits b member)).2
  have alone : 44 ∉ decimal n := fun member => by cases digits 44 member
  have stripped := strip_plain plain
  have single := elements_single alone
  rw [stripped] at single
  rw [readBack_length]
  have present : [decimal n] ≠ [] := by simp
  rcases lengthFraming_either present with ⟨_, m, decided, value, _⟩ | ⟨bad, _⟩
  · rw [single] at value
    have same := (value _ List.mem_cons_self).symm.trans (numeralValue_decimal n)
    rw [decided, Option.some.inj same]
  · rcases bad with bad | ⟨item, member, long⟩
    · refine absurd ⟨?_, ?_⟩ bad
      · simpa [single] using ⟨filled, digits⟩
      · simp [single]
    · rw [single, List.mem_singleton] at member
      subst member
      omega

/-- A name that is not empty is among the tokens as it is among the elements. -/
theorem nominated_iff (items : List Text) (name : Text) (filled : name ≠ []) :
    name ∈ (items.filter (· ≠ [])).map lower ↔ ∃ item ∈ items, lower item = name := by
  simp only [List.mem_map, List.mem_filter, decide_eq_true_eq]
  constructor
  · rintro ⟨item, ⟨member, _⟩, named⟩
    exact ⟨item, member, named⟩
  · rintro ⟨item, member, named⟩
    refine ⟨item, ⟨member, ?_⟩, named⟩
    rintro rfl
    exact filled named.symm

theorem not_ambiguous_iff : ¬ Ambiguous connections transfers lengths ↔
    (¬ ∃ item ∈ elements connections, lower item = contentLength ∨ lower item = transferEncoding) ∧
      ¬ (transfers ≠ [] ∧ lengths ≠ []) ∧ (transfers ≠ [] → WellCoded (elements transfers)) ∧
      (lengths ≠ [] → WellCounted (elements lengths)) := by
  simp only [Ambiguous, not_or, not_and, not_not]

/-- What `_validated_framing` does on any values. -/
theorem framingOf_cases (connections transfers lengths : List Text) :
    (∃ text, framingOf connections transfers lengths = .error text ∧
      (Ambiguous connections transfers lengths ∨ Overlong lengths)) ∨
    ∃ framing, framingOf connections transfers lengths = .ok framing ∧
      ¬ Ambiguous connections transfers lengths ∧ Decides transfers lengths framing ∧
      match framing with
        | .chunked _ => WellCoded (elements transfers)
        | .length n => (decimal n).length ≤ 4300
        | .none => True := by
  unfold framingOf
  simp only [nominated_iff (elements connections) contentLength (by decide),
    nominated_iff (elements connections) transferEncoding (by decide)]
  split
  case isTrue framing =>
    refine .inl ⟨_, rfl, .inl (.inl ?_)⟩
    rcases framing with ⟨item, member, named⟩ | ⟨item, member, named⟩
    · exact ⟨item, member, .inl named⟩
    · exact ⟨item, member, .inr named⟩
  case isFalse free =>
    have free : ¬ ∃ item ∈ elements connections, lower item = contentLength ∨ lower item = transferEncoding := by
      rintro ⟨item, member, named | named⟩
      · exact free (.inl ⟨item, member, named⟩)
      · exact free (.inr ⟨item, member, named⟩)
    split
    case isTrue both => exact .inl ⟨_, rfl, .inl (.inr (.inl both))⟩
    case isFalse single =>
      split
      case isTrue present =>
        have absent (other : lengths ≠ []) : WellCounted (elements lengths) := absurd ⟨present, other⟩ single
        rcases transferFraming_either transfers with ⟨well, decided⟩ | ⟨bad, text, refused⟩
        · have clear := not_ambiguous_iff.mpr ⟨free, single, fun _ => well, absent⟩
          exact .inr ⟨_, decided, clear, ⟨present, rfl⟩, well⟩
        · exact .inl ⟨text, refused, .inl (.inr (.inr (.inl ⟨present, bad⟩)))⟩
      case isFalse absent =>
        split
        case isTrue present =>
          rcases lengthFraming_either present with ⟨well, n, decided, value, short⟩ | ⟨bad, text, refused⟩
          · have clear := not_ambiguous_iff.mpr ⟨free, single, (absurd · absent), fun _ => well⟩
            exact .inr ⟨_, decided, clear, ⟨present, value⟩, short⟩
          · refine .inl ⟨text, refused, bad.imp_left fun bad => ?_⟩
            exact .inr (.inr (.inr ⟨present, bad⟩))
        case isFalse none =>
          have clear := not_ambiguous_iff.mpr ⟨free, single, (absurd · absent), (absurd · none)⟩
          exact .inr ⟨_, rfl, clear, ⟨by simpa using absent, by simpa using none⟩, trivial⟩

/-- Codings that are read back are decided as chunked exactly when they are well coded. -/
theorem readBack_codings (values : List Text) (bytes codings : Text)
    (same : readBack [(latin "Transfer-Encoding", bytes)] = transferFraming values) :
    (∃ again, readBack [(latin "Transfer-Encoding", bytes)] = .ok again ∧
      SameDecision again (.chunked codings)) ↔ WellCoded (elements values) := by
  rw [same]
  rcases transferFraming_either values with ⟨well, decided⟩ | ⟨bad, text, refused⟩
  · exact iff_of_true ⟨_, decided, trivial⟩ well
  · refine iff_of_false ?_ bad
    rintro ⟨again, decided, _⟩
    rw [refused] at decided
    cases decided

/-- Validation is exact, and as text the emitted field is decided in the same way. In
UTF-8, as it is written upstream, it is so exactly when no element of codings that are
accepted has a character beyond ASCII before its parameters. -/
theorem framing_exact_iff (connections transfers lengths : List Text) :
    Exact id connections transfers lengths ∧
      (Exact utf8 connections transfers lengths ↔ Ambiguous connections transfers lengths ∨
        ∀ item ∈ elements transfers, isAscii (partition 59 item).1 = true) := by
  rcases framingOf_cases connections transfers lengths with ⟨_, refused, reason⟩ |
    ⟨framing, decided, clear, decides, rest⟩
  · simp only [Exact, refused, reason, true_and, true_iff]
    by_cases ambiguous : Ambiguous connections transfers lengths
    · exact .inl ambiguous
    · obtain ⟨item, member, _⟩ := reason.resolve_left ambiguous
      have present : lengths ≠ [] := by
        rintro rfl
        simp [elements] at member
      have absent : transfers = [] := by
        by_contra other
        exact ambiguous (.inr (.inl ⟨other, present⟩))
      exact .inr (by simp [absent, elements])
  · simp only [Exact, decided, clear, decides, not_false_eq_true, true_and, false_or]
    cases framing with
    | chunked codings =>
      obtain ⟨_, rfl⟩ := decides
      refine ⟨(readBack_codings _ _ _ rfl).mpr rest.joined, ?_⟩
      exact (readBack_codings _ _ _ rfl).trans rest.encoded_iff
    | length n =>
      have again : ∃ again, readBack [(latin "Content-Length", decimal n)] = .ok again ∧
          SameDecision again (.length n) := ⟨_, readBack_decimal rest, rfl⟩
      have absent : transfers = [] := by
        by_contra other
        exact clear (.inr (.inl ⟨other, decides.1⟩))
      exact ⟨again, iff_of_true again (by simp [absent, elements])⟩
    | none =>
      have again : ∃ again, readBack [] = .ok again ∧ SameDecision again .none := ⟨.none, rfl, rfl⟩
      exact ⟨again, iff_of_true again (by simp [decides.1, elements])⟩

/-- A no-break space before the parameters of a coding: the proxy accepts the codings,
and refuses them as it has written them upstream. -/
theorem padded_coding_refused :
    let codings := latin "gzip\xa0;q=1, chunked"
    framingOf [] [codings] [] = .ok (.chunked codings) ∧
      (Framing.chunked codings).pairs = [(latin "Transfer-Encoding", latin "gzip\xc2\xa0;q=1, chunked")] ∧
      readBack (Framing.chunked codings).pairs = .error (latin "malformed transfer coding") ∧
      ¬ Exact utf8 [] [codings] [] := by
  intro codings
  have decided : framingOf [] [codings] [] = .ok (.chunked codings) := by decide +kernel
  have again : readBack ((Framing.chunked codings).field utf8) = .error (latin "malformed transfer coding") := by
    decide +kernel
  refine ⟨decided, by decide +kernel, again, ?_⟩
  simp [Exact, decided, again]

end HttpSocksProxy.Http
