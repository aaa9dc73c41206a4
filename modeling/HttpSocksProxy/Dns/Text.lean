import HttpSocksProxy.Dns.Name

/-! Names in text: `to_text` and its escapes, and `from_text` on ASCII. -/
namespace HttpSocksProxy.Dns

/-- The characters `"().;\@$`. -/
def escaped : List UInt8 := [34, 40, 41, 46, 59, 92, 64, 36]

def digit (n : Nat) : UInt8 := (48 + n).toUInt8

/-- One byte inside `_escapify`. -/
def escapeByte (c : UInt8) : List UInt8 :=
  if c ∈ escaped then [92, c]
  else if 0x20 < c ∧ c < 0x7F then [c]
  else [92, digit (c.toNat / 100), digit (c.toNat / 10 % 10), digit (c.toNat % 10)]

/-- `_escapify`. -/
def escapify (label : Label) : List UInt8 := label.flatMap escapeByte

/-- `Name.to_text`. -/
def toText (n : Name) (omitFinalDot : Bool) : List UInt8 :=
  if n.labels = [] then [64]
  else if n.labels = [[]] then [46]
  else
    let labels := if omitFinalDot ∧ n.isAbsolute then n.labels.dropLast else n.labels
    [46].intercalate (labels.map escapify)

inductive TextError where
  | badEscape
  | emptyLabel
  | structError
  | name (e : NameError)
  deriving DecidableEq, Repr

/-- The variables of the loop in `from_text`. -/
structure Scan where
  labels : List Label := []
  label : Label := []
  escaping : Bool := false
  edigits : Nat := 0
  total : Nat := 0
  deriving DecidableEq

def isDigit (c : UInt8) : Bool := 48 ≤ c && c ≤ 57

/-- One turn of the loop in `from_text`. -/
def scan (s : Scan) (c : UInt8) : Except TextError Scan :=
  if s.escaping then
    if s.edigits = 0 then
      if isDigit c then .ok { s with total := c.toNat - 48, edigits := s.edigits + 1 }
      else .ok { s with label := s.label ++ [c], escaping := false }
    else if !isDigit c then .error .badEscape
    else
      let total := s.total * 10 + (c.toNat - 48)
      let edigits := s.edigits + 1
      if edigits = 3 then
        if 255 < total then .error .structError
        else .ok { s with total, edigits, escaping := false, label := s.label ++ [total.toUInt8] }
      else .ok { s with total, edigits }
  else if c = 46 then
    if s.label.length = 0 then .error .emptyLabel
    else .ok { s with labels := s.labels ++ [s.label], label := [] }
  else if c = 92 then .ok { s with escaping := true, edigits := 0, total := 0 }
  else .ok { s with label := s.label ++ [c] }

/-- The labels of a text, without the origin. -/
def textLabels (text : List UInt8) : Except TextError (List Label) :=
  if text = [] then .ok []
  else
    match text.foldlM scan {} with
    | .error e => .error e
    | .ok s =>
      if s.escaping then .error .badEscape
      else .ok (s.labels ++ [if 0 < s.label.length then s.label else []])

/-- `from_text`, of a text of ASCII characters. -/
def fromText (text : List UInt8) (origin : Option Name) : Except TextError Name :=
  let text := if text = [64] then [] else text
  if text = [46] then .ok .root
  else
    match textLabels text with
    | .error e => .error e
    | .ok labels =>
      let labels := if labels = [] ∨ labels.getLast? ≠ some [] then
        labels ++ (origin.map Name.labels).getD [] else labels
      (make labels).mapError .name

/-- Between two characters of a label. -/
structure Scan.Within (labels : List Label) (label : Label) (s : Scan) : Prop where
  labels : s.labels = labels
  label : s.label = label
  plain : s.escaping = false

theorem isDigit_digit (small : n < 10) : isDigit (digit n) = true ∧ (digit n).toNat - 48 = n := by
  have value : (digit n).toNat = 48 + n := by
    simp only [digit, Nat.toUInt8_eq, UInt8.toNat_ofNat']
    omega
  refine ⟨?_, by omega⟩
  simp only [isDigit, Bool.and_eq_true, decide_eq_true_eq, UInt8.le_iff_toNat_le, value]
  exact ⟨Nat.le_add_right _ _, by simp; omega⟩

theorem isDigit_special (special : c ∈ escaped) : isDigit c = false := by
  simp only [escaped, List.mem_cons, List.not_mem_nil, or_false] at special
  rcases special with rfl | rfl | rfl | rfl | rfl | rfl | rfl | rfl <;> decide

theorem scan_decimal (within : Scan.Within labels label s) (c : UInt8) :
    ∃ s', [92, digit (c.toNat / 100), digit (c.toNat / 10 % 10), digit (c.toNat % 10)].foldlM scan s = .ok s' ∧
      Scan.Within labels (label ++ [c]) s' := by
  have small := c.toNat_lt
  obtain ⟨hundreds, first⟩ := isDigit_digit (n := c.toNat / 100) (by omega)
  obtain ⟨tens, second⟩ := isDigit_digit (n := c.toNat / 10 % 10) (by omega)
  obtain ⟨units, third⟩ := isDigit_digit (n := c.toNat % 10) (by omega)
  have total : (c.toNat / 100 * 10 + c.toNat / 10 % 10) * 10 + c.toNat % 10 = c.toNat := by omega
  have fits : ¬ 255 < c.toNat := by omega
  obtain ⟨rfl, rfl, plain⟩ := within
  refine ⟨{ s with label := s.label ++ [c], escaping := false, edigits := 3, total := c.toNat }, ?_, rfl, rfl, rfl⟩
  simp [List.foldlM, bind, Except.bind, scan, plain, hundreds, tens, units, first, second, third, total, fits]
  rfl

/-- A byte is read back from its escape. -/
theorem scan_escapeByte (within : Scan.Within labels label s) (c : UInt8) :
    ∃ s', (escapeByte c).foldlM scan s = .ok s' ∧ Scan.Within labels (label ++ [c]) s' := by
  unfold escapeByte
  split_ifs with special visible
  · have other := isDigit_special special
    obtain ⟨rfl, rfl, plain⟩ := within
    refine ⟨{ s with label := s.label ++ [c], escaping := false, edigits := 0, total := 0 }, ?_, rfl, rfl, rfl⟩
    simp [List.foldlM, bind, Except.bind, scan, plain, other]
    rfl
  · obtain ⟨rfl, rfl, plain⟩ := within
    have dot : c ≠ 46 := by
      rintro rfl
      exact special (by decide)
    have backslash : c ≠ 92 := by
      rintro rfl
      exact special (by decide)
    refine ⟨{ s with label := s.label ++ [c] }, ?_, rfl, rfl, plain⟩
    simp [List.foldlM, scan, plain, dot, backslash]
  · exact scan_decimal within c

theorem foldlM_append_ok {f : S → A → Except E S} {xs ys : List A} (first : xs.foldlM f s = .ok t) :
    (xs ++ ys).foldlM f s = ys.foldlM f t := by
  rw [List.foldlM_append, first]
  rfl

theorem scan_escapify (more : Label) (within : Scan.Within labels label s) :
    ∃ s', (escapify more).foldlM scan s = .ok s' ∧ Scan.Within labels (label ++ more) s' := by
  induction more generalizing s label with
  | nil => exact ⟨s, rfl, by rwa [List.append_nil]⟩
  | cons c more ih =>
    obtain ⟨middle, first, within'⟩ := scan_escapeByte within c
    obtain ⟨s', rest, within''⟩ := ih within'
    refine ⟨s', ?_, by simpa using within''⟩
    rw [escapify, List.flatMap_cons, foldlM_append_ok first]
    exact rest

theorem scan_dot (within : Scan.Within labels label s) (some : label ≠ []) :
    ∃ s', scan s 46 = .ok s' ∧ Scan.Within (labels ++ [label]) [] s' := by
  obtain ⟨rfl, rfl, plain⟩ := within
  have positive : ¬ s.label.length = 0 := mt List.length_eq_zero_iff.mp some
  refine ⟨{ s with labels := s.labels ++ [s.label], label := [] }, ?_, rfl, rfl, plain⟩
  simp [scan, plain, positive]

/-- Labels that are joined with dots are told apart again. -/
theorem scan_join (first : Label) (more : List Label) (inside : [] ∉ (first :: more).dropLast)
    (within : Scan.Within labels [] s) :
    ∃ s', ([46].intercalate ((first :: more).map escapify)).foldlM scan s = .ok s' ∧
      ∃ last, Scan.Within (labels ++ (first :: more).dropLast) last s' ∧
        (first :: more).getLast? = some last := by
  induction more generalizing first labels s with
  | nil =>
    obtain ⟨s', done, within'⟩ := scan_escapify first within
    exact ⟨s', by simpa using done, first, by simpa using within', rfl⟩
  | cons next more ih =>
    rw [List.dropLast_cons_cons, List.mem_cons, not_or] at inside
    obtain ⟨s1, escaped, within1⟩ := scan_escapify first within
    obtain ⟨s2, dotted, within2⟩ := scan_dot within1 (Ne.symm inside.1)
    obtain ⟨s', done, last, within', final⟩ := ih next inside.2 within2
    refine ⟨s', ?_, last, by simpa using within', by simpa using final⟩
    have split : [46].intercalate ((first :: next :: more).map escapify) =
        escapify first ++ 46 :: [46].intercalate ((next :: more).map escapify) := by
      simp [List.intercalate]
    rw [split, foldlM_append_ok escaped, List.foldlM_cons, dotted]
    exact done

/-- No escape starts with a dot or an at sign. -/
theorem escapeByte_head (c : UInt8) : ∃ b rest, escapeByte c = b :: rest ∧ b ≠ 46 ∧ b ≠ 64 := by
  unfold escapeByte
  split_ifs with special visible
  · exact ⟨92, [c], rfl, by decide, by decide⟩
  · refine ⟨c, [], rfl, ?_, ?_⟩
    all_goals
      rintro rfl
      exact special (by decide)
  · exact ⟨92, _, rfl, by decide, by decide⟩

theorem join_head {first : Label} (nonempty : first ≠ []) (more : List Label) :
    ∃ b rest, [46].intercalate ((first :: more).map escapify) = b :: rest ∧ b ≠ 46 ∧ b ≠ 64 := by
  cases first with
  | nil => exact absurd rfl nonempty
  | cons c first =>
    obtain ⟨b, rest, escape, dot, sign⟩ := escapeByte_head c
    cases more with
    | nil => exact ⟨b, rest ++ escapify first, by simp [escapify, escape], dot, sign⟩
    | cons next more => exact ⟨b, _, by simp [List.intercalate, escapify, escape]; rfl, dot, sign⟩

/-- The text of labels of which the first is not empty. -/
theorem fromText_join {first : Label} (nonempty : first ≠ []) {more : List Label} (inside : [] ∉ (first :: more).dropLast)
    (origin : Option Name) : fromText ([46].intercalate ((first :: more).map escapify)) origin =
      (make (if (first :: more).getLast? ≠ some [] then first :: more ++ (origin.map Name.labels).getD []
        else first :: more)).mapError .name := by
  obtain ⟨b, rest, text, dot, sign⟩ := join_head nonempty more
  have fresh : Scan.Within [] [] {} := ⟨rfl, rfl, rfl⟩
  obtain ⟨s', done, last, ⟨gathered, ending, plain⟩, final⟩ := scan_join first more inside fresh
  have whole : (first :: more).dropLast ++ [last] = first :: more := List.dropLast_append_getLast? last final
  have final' : (if 0 < last.length then last else []) = last := by
    cases last <;> simp
  rw [text] at done ⊢
  have labels : textLabels (b :: rest) = .ok (first :: more) := by
    rw [textLabels, if_neg (List.cons_ne_nil b rest), done]
    simp only [plain, gathered, ending, final', List.nil_append, whole]
    rfl
  have notSign : b :: rest ≠ [64] := fun same => sign (List.cons.inj same).1
  have notDot : b :: rest ≠ [46] := fun same => dot (List.cons.inj same).1
  rw [fromText, if_neg notSign, if_neg notDot, labels]
  simp only [List.cons_ne_nil, false_or]

/-- What `to_text` says is what `from_text` reads, in front of the origin when the
name is relative; and without the final dot an absolute name is read under the root. -/
theorem fromText_toText (n : Name) (origin : Option Name) :
    fromText (toText n false) origin =
        (if n.isAbsolute then .ok n
        else (make (n.labels ++ (origin.map Name.labels).getD [])).mapError .name) ∧
      (n.isAbsolute = true → fromText (toText n true) (some .root) = .ok n) := by
  obtain ⟨labels, valid⟩ := n
  match labels, valid with
  | [], _ => exact ⟨by simp [toText, fromText, textLabels, Name.isAbsolute], by simp [Name.isAbsolute]⟩
  | [[]], _ =>
    exact ⟨rfl, fun _ => rfl⟩
  | (c :: first) :: more, valid =>
    have text (bare : Bool) : toText ⟨(c :: first) :: more, valid⟩ bare =
        [46].intercalate ((if bare ∧ Name.isAbsolute ⟨(c :: first) :: more, valid⟩ then
          ((c :: first) :: more).dropLast else (c :: first) :: more).map escapify) := by
      simp [toText]
    constructor
    · rw [text, if_neg (by simp), fromText_join (List.cons_ne_nil c first) valid.rooted]
      by_cases absolute : ((c :: first) :: more).getLast? = some []
      · rw [if_neg (not_not.mpr absolute), if_pos (by simp [Name.isAbsolute, absolute]), make_valid valid]
        rfl
      · rw [if_pos absolute, if_neg (by simpa [Name.isAbsolute] using absolute)]
    · intro absolute
      rw [text, if_pos ⟨rfl, absolute⟩]
      simp only [Name.isAbsolute, decide_eq_true_eq] at absolute
      have whole : ((c :: first) :: more).dropLast ++ [[]] = (c :: first) :: more :=
        List.dropLast_append_getLast? [] absolute
      cases more with
      | nil => simp at absolute
      | cons next more =>
        rw [List.dropLast_cons_cons] at whole ⊢
        have inside : [] ∉ (c :: first) :: (next :: more).dropLast := valid.rooted
        have last : ((c :: first) :: (next :: more).dropLast).getLast? ≠ some [] :=
          fun final => inside (List.mem_of_getLast? final)
        rw [fromText_join (List.cons_ne_nil c first) (mt List.mem_of_mem_dropLast inside), if_pos last]
        change (make (_ ++ [[]])).mapError _ = _
        rw [whole, make_valid valid]
        rfl
  | [] :: next :: more, valid => exact absurd valid.rooted (by simp)

end HttpSocksProxy.Dns
