import HttpSocksProxy.Dns.Aton

/-! The resolver's `inet_pton` and `inet_ntop` agree with those of the platform: the
groups between the colons are read alike, with a dotted ending and without one. -/
namespace HttpSocksProxy.Dns
open InetText

section Groups
variable {before after groups : List (List Char)}

/-- `inet_pton` on the groups between the colons. -/
def readGroups (groups : List (List Char)) : Option (List UInt8) :=
  let left := groups.takeWhile (· ≠ [])
  match groups.dropWhile (· ≠ []) with
  | [] => (groupBytes left).filter (·.length = 16)
  | _ :: after =>
    if left = [] then
      match after with
      | [] :: right => compressed [] right
      | _ => none
    else compressed left after

theorem pton6_groups (text : List Char) : pton6 text = readGroups (text.splitOn ':') := rfl

theorem compressed_eq (left right : List (List Char)) : compressed left right =
    (hextets left).bind fun l => (afterRun right).bind (fillGap l) := rfl

theorem readGroups_filled (filled : [] ∉ groups) :
    readGroups groups = (groupBytes groups).filter (·.length = 16) := by
  have all : groups.takeWhile (· ≠ []) = groups :=
    List.takeWhile_eq_self_iff.mpr fun g member => by simpa using ne_of_mem_of_not_mem member filled
  have none : groups.dropWhile (· ≠ []) = [] :=
    List.dropWhile_eq_nil_iff.mpr fun g member => by simpa using ne_of_mem_of_not_mem member filled
  rw [readGroups, none]
  simp only [all]

theorem readGroups_gap (filled : [] ∉ before) (start : before ≠ []) :
    readGroups (before ++ [] :: after) = compressed before after := by
  have all : ∀ g ∈ before, decide (g ≠ []) = true := fun g member => by
    simpa using ne_of_mem_of_not_mem member filled
  rw [readGroups, List.takeWhile_append_of_pos all, List.dropWhile_append_of_pos all]
  simp [start]

theorem groupBytes_front (front : List (List Char)) (filled : after ≠ []) : groupBytes (front ++ after) =
    (hextets front).bind fun x => (groupBytes after).map (x ++ ·) := by
  induction front with
  | nil =>
    have whole : hextets [] = some [] := rfl
    cases read : groupBytes after <;> simp [whole, read]
  | cons g front ih =>
    have more : groupBytes (g :: (front ++ after)) =
        (hextet g).bind fun first => (groupBytes (front ++ after)).map (first ++ ·) := by
      cases rest : front ++ after with
      | nil => exact absurd (List.append_eq_nil_iff.mp rest).2 filled
      | cons => rfl
    rw [List.cons_append, more, ih, hextets_cons]
    cases hextet g <;> cases hextets front <;> cases groupBytes after <;> simp

theorem groupBytes_empty (empty : [] ∈ groups) : groupBytes groups = none := by
  obtain ⟨front, after, rfl, _⟩ := List.eq_append_cons_of_mem empty
  have unread : groupBytes ([] :: after) = none := by
    cases after <;> rfl
  rw [groupBytes_front front (List.cons_ne_nil _ _), unread]
  cases hextets front <;> rfl

theorem afterRun_groups (filled : after ≠ []) (run : after ≠ [[]]) : afterRun after = groupBytes after := by
  rw [afterRun, if_neg run, if_neg filled]

/-- Of its last groups an address depends on what they read as. -/
theorem readGroups_ending (front : List (List Char)) : ∃ read : Option (List UInt8) → Option (List UInt8),
    read none = none ∧ ∀ after, after ≠ [] → [] ∉ after →
      readGroups (front ++ after) = read (groupBytes after) := by
  have closed (mid : List (List Char)) {after : List (List Char)} (rest : after ≠ []) (filled : [] ∉ after) :
      afterRun (mid ++ after) = (hextets mid).bind fun x => (groupBytes after).map (x ++ ·) := by
    rw [afterRun_groups (by simp [rest]), groupBytes_front mid rest]
    intro single
    have member : ∀ g ∈ mid ++ after, g = [] := fun g member => by simpa [single] using member
    obtain ⟨g, inside⟩ := List.exists_mem_of_ne_nil after rest
    exact filled (member g (List.mem_append_right mid inside) ▸ inside)
  by_cases gap : [] ∈ front
  case neg =>
    refine ⟨fun v => ((hextets front).bind fun x => v.map (x ++ ·)).filter (·.length = 16), ?_,
      fun after rest filled => ?_⟩
    · cases hextets front <;> rfl
    · rw [readGroups_filled (by simp [gap, filled]), groupBytes_front front rest]
  case pos =>
    obtain ⟨before, mid, rfl, left⟩ := List.eq_append_cons_of_mem gap
    by_cases start : before = []
    case neg =>
      refine ⟨fun v => (hextets before).bind fun l =>
        ((hextets mid).bind fun x => v.map (x ++ ·)).bind (fillGap l), ?_, fun after rest filled => ?_⟩
      · cases hextets before <;> cases hextets mid <;> rfl
      · rw [List.append_assoc, List.cons_append, readGroups_gap left start, compressed_eq, closed mid rest filled]
    case pos =>
      subst start
      match mid with
      | [] =>
        refine ⟨fun _ => none, rfl, fun after rest filled => ?_⟩
        match after with
        | [] => contradiction
        | [] :: after => exact absurd List.mem_cons_self filled
        | (c :: g) :: after => rfl
      | [] :: mid =>
        refine ⟨fun v => ((hextets mid).bind fun x => v.map (x ++ ·)).bind (fillGap []), ?_,
          fun after rest filled => ?_⟩
        · cases hextets mid <;> rfl
        · have whole : readGroups ([] :: [] :: (mid ++ after)) = compressed [] (mid ++ after) := rfl
          rw [List.nil_append, List.cons_append, List.cons_append, whole, compressed_eq, closed mid rest filled]
          rfl
      | (c :: g) :: mid => exact ⟨fun _ => none, rfl, fun _ _ _ => rfl⟩

end Groups

section Texts
variable {text : List Char}

/-- The last group is not read as a dotted address. -/
def Undotted (groups : List (List Char)) : Prop := ∀ back, back <:+ groups → groupBytes back = hextets back

theorem undotted_last (plain : groupBytes [g] = hextets [g]) (front : List (List Char)) :
    Undotted (front ++ [g]) := by
  intro back behind
  rcases List.suffix_concat_iff.mp behind with rfl | ⟨front', rfl, _⟩
  · rfl
  · rw [groupBytes_front front' (List.cons_ne_nil _ _), hextets_append, plain]

theorem splitOn_colon (text : List Char) : (':' :: text).splitOn ':' = [] :: text.splitOn ':' := by
  rw [List.splitOn_cons_eq_if_modifyHead, if_pos (beq_self_eq_true _)]

theorem colon_first (split : text.splitOn ':' = [] :: rest) (filled : text ≠ []) : [':'] <+: text := by
  have whole : [':'].intercalate (text.splitOn ':') = text := List.intercalate_splitOn ':'
  rw [split] at whole
  cases rest with
  | nil => exact absurd whole.symm filled
  | cons g rest =>
    rw [List.intercalate_cons_cons] at whole
    exact ⟨_, whole⟩

theorem colon_last (split : text.splitOn ':' = front ++ [[]]) (filled : text ≠ []) : [':'] <:+ text := by
  have whole : [':'].intercalate (text.splitOn ':') = text := List.intercalate_splitOn ':'
  rw [split] at whole
  by_cases start : front = []
  · subst start
    exact absurd whole.symm filled
  · rw [intercalate_append start (List.cons_ne_nil _ _)] at whole
    exact ⟨_, by simpa using whole⟩

theorem beforeNewline_self (lines : '\n' ∉ text) : beforeNewline text = text := by
  rw [beforeNewline, if_neg]
  exact fun last => lines (List.mem_of_getLast? last)

/-- With no dotted ending the groups are read alike. -/
theorem readChunks_pton6 (lines : '\n' ∉ text) (well : wellEnded text = true) (zero : text ≠ [':', ':'])
    (plain : Undotted (text.splitOn ':')) : readChunks ((trimmed text).splitOn ':') = pton6 text := by
  simp only [wellEnded, Bool.and_eq_true, decide_eq_true_eq, Bool.not_eq_true', Bool.and_eq_false_iff,
    Bool.not_eq_false', List.isPrefixOf_iff_prefix, List.isSuffixOf_iff_suffix] at well
  obtain ⟨⟨filled, stop⟩, start⟩ := well
  rw [pton6_groups]
  by_cases double : [':', ':'] <+: text
  case pos =>
    obtain ⟨later, rfl⟩ := double
    have split : ([':', ':'] ++ later).splitOn ':' = [] :: [] :: later.splitOn ':' := by
      rw [List.cons_append, List.cons_append, splitOn_colon, List.nil_append, splitOn_colon]
    have cut : trimmed ([':', ':'] ++ later) = ':' :: later := rfl
    have groups : readGroups ([] :: [] :: later.splitOn ':') = compressed [] (later.splitOn ':') := rfl
    rw [split] at plain ⊢
    rw [cut, splitOn_colon, groups, compressed_eq]
    have run : later.splitOn ':' ≠ [[]] := by
      intro single
      have whole : [':'].intercalate (later.splitOn ':') = later := List.intercalate_splitOn ':'
      rw [single] at whole
      exact zero (by rw [← whole]; rfl)
    rw [afterRun_groups (List.splitOn_ne_nil _ _) run]
    by_cases more : [] ∈ later.splitOn ':'
    · rw [groupBytes_empty more]
      exact (readChunks_twice more : readChunks ([] ++ [] :: later.splitOn ':') = none)
    · rw [plain _ ((List.suffix_cons _ _).trans (List.suffix_cons _ _))]
      have gap := readChunks_gap (List.not_mem_nil : [] ∉ ([] : List (List Char))) more
      exact gap
  case neg =>
    have head : ¬ [':'] <+: text := by
      simpa [double, ← Bool.not_eq_true, List.isPrefixOf_iff_prefix] using start
    have first : ∀ rest, text.splitOn ':' ≠ [] :: rest := fun rest split => head (colon_first split filled)
    have started {before after : List (List Char)} : text.splitOn ':' = before ++ [] :: after → before ≠ [] := by
      rintro split rfl
      exact first _ split
    by_cases closing : [':', ':'] <:+ text
    case pos =>
      obtain ⟨earlier, rfl⟩ := closing
      have split : (earlier ++ [':', ':']).splitOn ':' = earlier.splitOn ':' ++ [] :: [[]] :=
        List.splitOn_append_cons_self earlier [':']
      have cut : trimmed (earlier ++ [':', ':']) = earlier ++ ':' :: [] := by
        rw [trimmed, if_neg (by simpa using double), colonColonEnd, beforeNewline_self lines,
          if_pos (by simpa using lines)]
        simp
      rw [cut, List.splitOn_append_cons_self, split, List.splitOn_nil]
      by_cases more : [] ∈ earlier.splitOn ':'
      · obtain ⟨before, mid, same, left⟩ := List.eq_append_cons_of_mem more
        have begun : before ≠ [] := by
          refine started (show _ = before ++ [] :: (mid ++ [[], []]) from ?_)
          rw [split, same, List.append_assoc, List.cons_append]
        have run : mid ++ [[], []] ≠ [[]] := fun single => by simpa using congrArg List.length single
        rw [same, List.append_assoc, List.append_assoc, List.cons_append, List.cons_append,
          readGroups_gap left begun, compressed_eq, afterRun_groups (by simp) run, groupBytes_empty (by simp),
          readChunks_twice (by simp)]
        cases hextets before <;> rfl
      · rw [readGroups_gap more (List.splitOn_ne_nil _ _), readChunks_gap more List.not_mem_nil, compressed_eq]
        rfl
    case neg =>
      have tail : ¬ [':'] <:+ text := by
        simpa [closing, ← Bool.not_eq_true, List.isSuffixOf_iff_suffix] using stop
      have cut : trimmed text = text := by
        rw [trimmed, if_neg (by simpa using double), colonColonEnd, beforeNewline_self lines,
          if_neg (by simp [closing])]
      rw [cut]
      by_cases gap : [] ∈ text.splitOn ':'
      case neg => rw [readChunks_filled gap, readGroups_filled gap, plain _ (List.suffix_refl _)]
      case pos =>
        obtain ⟨before, after, same, left⟩ := List.eq_append_cons_of_mem gap
        have behind : after <:+ text.splitOn ':' := by
          rw [same]
          exact (List.suffix_cons _ _).trans (List.suffix_append _ _)
        have later : after ≠ [] := by
          rintro rfl
          exact tail (colon_last same filled)
        have run : after ≠ [[]] := by
          rintro rfl
          have split : text.splitOn ':' = (before ++ [[]]) ++ [[]] := by simpa using same
          exact tail (colon_last split filled)
        rw [same, readGroups_gap left (started same), compressed_eq, afterRun_groups later run]
        by_cases more : [] ∈ after
        · rw [readChunks_twice more, groupBytes_empty more]
          cases hextets before <;> rfl
        · rw [readChunks_gap left more, plain after behind]

theorem readGroups_unended (last : front.getLast? ≠ some []) : readGroups (front ++ [[]]) = none := by
  have empty (mid : List (List Char)) : groupBytes (mid ++ [[]]) = none := groupBytes_empty (by simp)
  have closed {mid : List (List Char)} (later : mid ≠ []) : afterRun (mid ++ [[]]) = none := by
    rw [afterRun_groups (by simp) (by simpa using later), empty]
  by_cases gap : [] ∈ front
  case neg =>
    by_cases start : front = []
    · subst start
      rfl
    · rw [readGroups_gap gap start, compressed_eq]
      cases hextets front <;> rfl
  case pos =>
    obtain ⟨before, mid, rfl, left⟩ := List.eq_append_cons_of_mem gap
    have later : mid ≠ [] := by
      rintro rfl
      exact last (by simp)
    by_cases start : before = []
    case neg =>
      rw [List.append_assoc, List.cons_append, readGroups_gap left start, compressed_eq, closed later]
      cases hextets before <;> rfl
    case pos =>
      subst start
      match mid with
      | [] :: mid =>
        have more : mid ≠ [] := by
          rintro rfl
          exact last rfl
        have groups : readGroups ([] ++ [] :: [] :: mid ++ [[]]) = compressed [] (mid ++ [[]]) := rfl
        rw [groups, compressed_eq, closed more]
        rfl
      | (c :: g) :: mid => rfl

theorem pton6_unended (unended : wellEnded text = false) : pton6 text = none := by
  rw [pton6_groups]
  simp only [wellEnded, Bool.and_eq_false_iff, decide_eq_false_iff_not, Bool.not_eq_false', not_not,
    Bool.and_eq_true, Bool.not_eq_true', List.isPrefixOf_iff_prefix, List.isSuffixOf_iff_suffix] at unended
  rcases unended with (rfl | ⟨⟨earlier, rfl⟩, single⟩) | ⟨⟨later, rfl⟩, single⟩
  · rfl
  · rw [List.splitOn_append_cons_self, List.splitOn_nil]
    by_cases start : earlier = []
    · subst start
      rfl
    · refine readGroups_unended fun last => ?_
      obtain ⟨front, split⟩ := List.getLast?_eq_some_iff.mp last
      obtain ⟨more, rfl⟩ := colon_last split start
      rw [← Bool.not_eq_true, List.isSuffixOf_iff_suffix] at single
      exact single ⟨more, by simp⟩
  · rw [List.singleton_append, splitOn_colon]
    match later with
    | [] => rfl
    | c :: later =>
      have other : c ≠ ':' := by
        rintro rfl
        cases single
      rw [List.splitOn_cons_eq_if_modifyHead, if_neg (by simpa using other)]
      obtain ⟨g, rest, split⟩ := List.exists_cons_of_ne_nil (List.splitOn_ne_nil ':' later)
      rw [split]
      rfl

/-- The digits of a dotted address. -/
def Quad (dotted : List Char) : Prop :=
  (dotted.splitOn '.').length = 4 ∧ ∀ part ∈ dotted.splitOn '.', isDigits part = true

theorem pton4_quad (read : pton4 dotted = some address) : Quad dotted := by
  obtain ⟨mapped, four⟩ := Option.filter_eq_some_iff.mp read
  refine ⟨?_, fun part member => ?_⟩
  · rw [← mapM_length mapped]
    simpa using four
  · obtain ⟨b, _, value⟩ := mapM_value mapped member
    rw [octet_packDecimal, Option.ite_none_left_eq_some] at value
    by_contra other
    exact value.1 (by simp [other])

theorem last_colon (colon : ':' ∈ text) : ∃ front dotted, text = front ++ ':' :: dotted ∧ ':' ∉ dotted := by
  obtain ⟨back, front, same, plain⟩ := List.eq_append_cons_of_mem (List.mem_reverse.mpr colon)
  refine ⟨front.reverse, back.reverse, ?_, by simpa using plain⟩
  rw [← List.reverse_reverse text, same]
  simp

theorem rdropWhile_colon (plain : ':' ∉ dotted) (front : List Char) :
    (front ++ ':' :: dotted).rdropWhile (· ≠ ':') = front ++ [':'] ∧
    (front ++ ':' :: dotted).rtakeWhile (· ≠ ':') = dotted := by
  have all : ∀ c ∈ dotted.reverse, decide (c ≠ ':') = true := fun c member => by
    simpa using ne_of_mem_of_not_mem (List.mem_reverse.mp member) plain
  have whole : (front ++ ':' :: dotted).reverse = dotted.reverse ++ ':' :: front.reverse := by simp
  rw [List.rdropWhile, List.rtakeWhile, whole, List.dropWhile_append_of_pos all, List.takeWhile_append_of_pos all]
  simp

theorem v4Ending_iff : v4Ending text = some (front, dotted) ↔
    beforeNewline text = front ++ ':' :: dotted ∧ ':' ∉ dotted ∧ '\n' ∉ front ∧ Quad dotted := by
  constructor
  · intro found
    obtain ⟨⟨filled, lines, count, digits⟩, made⟩ := Option.ite_none_right_eq_some.mp found
    cases Option.some.inj made
    have colon : ((beforeNewline text).rdropWhile (· ≠ ':')).getLast filled = ':' := by
      simpa using List.rdropWhile_last_not (fun c => decide (c ≠ ':')) (beforeNewline text) filled
    have parts := List.dropLast_append_getLast filled
    rw [colon] at parts
    refine ⟨?_, fun member => ?_, fun member => ?_, count, List.all_eq_true.mp digits⟩
    · rw [← List.singleton_append, ← List.append_assoc, parts, List.rdropWhile_append_rtakeWhile]
    · simpa using List.mem_rtakeWhile_imp member
    · exact lines (List.mem_of_mem_dropLast member)
  · rintro ⟨whole, plain, lines, count, digits⟩
    obtain ⟨drop, take⟩ := rdropWhile_colon plain front
    rw [v4Ending, whole]
    simp only [drop, take]
    rw [if_pos ⟨by simp, by simpa using lines, count, List.all_eq_true.mpr digits⟩, List.dropLast_concat]

theorem dot_foreign : digitValue '.' = none := by decide

theorem hextets_single (g : List Char) : hextets [g] = hextet g := by
  rw [hextets_cons, show hextets [] = some [] from rfl]
  cases hextet g <;> simp

/-- Where no dotted ending is found, the last group is no dotted address. -/
theorem v4Ending_none (lines : '\n' ∉ text) (unfound : v4Ending text = none) (colon : ':' ∈ text) :
    Undotted (text.splitOn ':') := by
  obtain ⟨front, last, rfl, plain⟩ := last_colon colon
  have split : (front ++ ':' :: last).splitOn ':' = front.splitOn ':' ++ [last] := by
    rw [List.splitOn_append_cons_self, List.splitOn_eq_singleton plain]
  rw [split]
  refine undotted_last ?_ _
  rw [hextets_single, groupBytes]
  split
  case isFalse => rfl
  case isTrue dot =>
    have quad : pton4 last = none := by
      cases read : pton4 last with
      | none => rfl
      | some address =>
        have found : v4Ending (front ++ ':' :: last) = some (front, last) :=
          v4Ending_iff.mpr ⟨beforeNewline_self lines, plain, fun member => lines (by simp [member]),
            pton4_quad read⟩
        rw [unfound] at found
        contradiction
    rw [quad, hextet_foreign dot_foreign dot]

theorem trimmed_single (plain : ':' ∉ text) : trimmed text = text := by
  have prefixed : ¬ [':', ':'] <+: text := fun front => plain (front.subset (by simp))
  have closing : ¬ [':', ':'] <:+ beforeNewline text := by
    intro back
    have member : ':' ∈ beforeNewline text := back.subset (by simp)
    rw [beforeNewline] at member
    split at member
    · exact plain (List.mem_of_mem_dropLast member)
    · exact plain member
  rw [trimmed, if_neg (by simpa using prefixed), colonColonEnd, if_neg (by simp [closing])]

theorem ipv6Aton_undotted (lines : '\n' ∉ text) (unfound : v4Ending text = none) : ipv6Aton text = pton6 text := by
  cases well : wellEnded text with
  | false =>
    rw [pton6_unended well, ipv6Aton, well]
    rfl
  | true =>
    by_cases zero : text = [':', ':']
    · subst zero
      decide +kernel
    · have same : ipv6Aton text = readChunks ((trimmed text).splitOn ':') := by
        rw [ipv6Aton, if_pos well, if_neg zero, undotted, unfound]
        rfl
      rw [same]
      by_cases colon : ':' ∈ text
      · exact readChunks_pton6 lines well zero (v4Ending_none lines unfound colon)
      · have unread : pton6 text = none := by
          cases read : pton6 text with
          | none => rfl
          | some address => exact absurd (pton6_colon read) colon
        rw [unread, trimmed_single colon, List.splitOn_eq_singleton colon]
        have filled : text ≠ [] := by
          rintro rfl
          cases well
        rw [readChunks_filled (by simpa using filled.symm), hextets_single]
        cases read : hextet text with
        | none => rfl
        | some bytes =>
          have := hextets_length ((hextets_single text).trans read)
          rw [Option.filter_some, if_neg (by simp [this])]

theorem hextet_hexlify (x y : UInt8) : hextet (hexlify [x, y]) = some [x, y] := by
  have digits (b : UInt8) : digitValue (digitChar (b.toNat / 16)) = some (b.toNat / 16) ∧
      digitValue (digitChar (b.toNat % 16)) = some (b.toNat % 16) := by
    have := b.toNat_lt
    exact ⟨digitValue_digitChar (by omega), digitValue_digitChar (by omega)⟩
  have whole (b : UInt8) : (b.toNat / 16 * 16 + b.toNat % 16).toUInt8 = b := by
    rw [Nat.div_add_mod']
    simp
  refine (hextet_four _ _ _ _).symm.trans ?_
  simp only [unhexlify, (digits x).1, (digits x).2, (digits y).1, (digits y).2, Option.bind_eq_bind, Option.bind_some,
    Option.pure_def, whole]

/-- What `hexlify` writes of some bytes. -/
structure Digits (group : List Char) : Prop where
  filled : group ≠ []
  undotted : '.' ∉ group
  whole : ':' ∉ group
  line : '\n' ∉ group

theorem hexlify_digits (filled : address ≠ []) : Digits (hexlify address) := by
  have all : ∀ n < 16, digitChar n ≠ '.' ∧ digitChar n ≠ ':' ∧ digitChar n ≠ '\n' := by decide
  have chars : ∀ c ∈ hexlify address, c ≠ '.' ∧ c ≠ ':' ∧ c ≠ '\n' := by
    intro c member
    obtain ⟨b, _, inside⟩ := List.mem_flatMap.mp member
    have := b.toNat_lt
    simp only [hexPair, List.mem_cons, List.not_mem_nil, or_false] at inside
    rcases inside with rfl | rfl
    · exact all _ (by omega)
    · exact all _ (by omega)
  refine ⟨?_, fun dot => (chars _ dot).1 rfl, fun colon => (chars _ colon).2.1 rfl,
    fun line => (chars _ line).2.2 rfl⟩
  obtain ⟨b, rest, rfl⟩ := List.exists_cons_of_ne_nil filled
  exact List.cons_ne_nil _ _

theorem quad_dot (quad : Quad dotted) : '.' ∈ dotted := by
  by_contra plain
  have count := quad.1
  rw [List.splitOn_eq_singleton plain] at count
  cases count

/-- A dotted group reads as the two groups of hex digits that take its place. -/
theorem groupBytes_quad (quad : Quad dotted) (read : pton4 dotted = some address) :
    groupBytes [hexlify (address.take 2), hexlify (address.drop 2)] = groupBytes [dotted] := by
  have four : address.length = 4 := by simpa using (Option.filter_eq_some_iff.mp read).2
  match address, four with
  | [a, b, c, d], _ =>
    have plain := (hexlify_digits (List.cons_ne_nil c [d])).undotted
    simp only [List.take_succ_cons, List.take_zero, List.drop_succ_cons, List.drop_zero, groupBytes, if_neg plain,
      if_pos (quad_dot quad), hextet_hexlify, read]
    rfl

/-- Behind a colon the ends of a text depend on what stands before it. -/
theorem wellEnded_front (front : List Char) (first : back.head? ≠ some ':') (last : back.getLast? ≠ some ':')
    (filled : back ≠ []) : wellEnded (front ++ ':' :: back) =
      !([':'].isPrefixOf (front ++ [':']) && !(List.isPrefixOf [':', ':'] (front ++ [':']))) := by
  have single : [':'].isSuffixOf (front ++ ':' :: back) = false := by
    obtain ⟨more, z, rfl⟩ := (List.eq_nil_or_concat back).resolve_left filled
    have other : z ≠ ':' := by simpa using last
    simp [List.isSuffixOf, List.isPrefixOf, Ne.symm other]
  have prefixes : [':'].isPrefixOf (front ++ ':' :: back) = [':'].isPrefixOf (front ++ [':']) ∧
      [':', ':'].isPrefixOf (front ++ ':' :: back) = [':', ':'].isPrefixOf (front ++ [':']) := by
    match front, back, filled with
    | [], b :: back, _ =>
      have other : b ≠ ':' := by simpa using first
      simp [List.isPrefixOf, Ne.symm other]
    | [a], _, _ => simp [List.isPrefixOf]
    | a :: b :: front, _, _ => simp [List.isPrefixOf]
  rw [wellEnded, single, prefixes.1, prefixes.2]
  simp

theorem splitOn_pair (front : List Char) (high : Digits h) (low : Digits l) :
    (front ++ ':' :: (h ++ ':' :: l)).splitOn ':' = front.splitOn ':' ++ [h, l] := by
  rw [List.splitOn_append_cons_self, List.splitOn_append_cons_self, List.splitOn_eq_singleton high.whole,
    List.splitOn_eq_singleton low.whole]
  rfl

theorem readChunks_pair (lines : '\n' ∉ front) (high : Digits h) (low : Digits l)
    (well : wellEnded (front ++ ':' :: (h ++ ':' :: l)) = true) :
    readChunks ((trimmed (front ++ ':' :: (h ++ ':' :: l))).splitOn ':') =
      pton6 (front ++ ':' :: (h ++ ':' :: l)) := by
  refine readChunks_pton6 ?_ well ?_ ?_
  · simp [lines, high.line, low.line]
  · intro short
    have counted := congrArg List.length short
    have := List.length_pos_of_ne_nil high.filled
    have := List.length_pos_of_ne_nil low.filled
    simp only [List.length_append, List.length_cons, List.length_nil] at counted
    omega
  · rw [splitOn_pair front high low, ← List.singleton_append, ← List.append_assoc]
    refine undotted_last ?_ _
    rw [hextets_single, groupBytes, if_neg low.undotted]

theorem beforeNewline_cases (text : List Char) :
    text = beforeNewline text ∨ text = beforeNewline text ++ ['\n'] := by
  rw [beforeNewline]
  split
  case isFalse => exact .inl rfl
  case isTrue last =>
    obtain ⟨line, rfl⟩ := List.getLast?_eq_some_iff.mp last
    exact .inr (by rw [List.dropLast_concat])

theorem quad_filled (quad : Quad dotted) : dotted ≠ [] := by
  rintro rfl
  cases quad.1

/-- A dotted ending is read like `inet_pton` reads it, up to the end of its line. -/
theorem ipv6Aton_quad (found : v4Ending text = some (front, dotted)) :
    ipv6Aton text = pton6 (front ++ ':' :: dotted) := by
  obtain ⟨line, plain, lines, quad⟩ := v4Ending_iff.mp found
  have filled := quad_filled quad
  have ends {back : List Char} (plain : ':' ∉ back) (filled : back ≠ []) := wellEnded_front front
    (fun first => plain (List.mem_of_head? first)) (fun last => plain (List.mem_of_getLast? last)) filled
  have same : wellEnded text = wellEnded (front ++ ':' :: dotted) := by
    rw [ends plain filled]
    rcases beforeNewline_cases text with whole | whole
    · rw [whole, line, ends plain filled]
    · have plain : ':' ∉ dotted ++ ['\n'] := by simpa using plain
      rw [whole, line, List.append_assoc, List.cons_append, ends plain (by simp)]
  cases well : wellEnded text with
  | false => rw [ipv6Aton, well, pton6_unended (same.symm.trans well), if_neg (by simp)]
  | true =>
    have zero : text ≠ [':', ':'] := by
      rintro rfl
      cases found
    rw [ipv6Aton, if_pos well, if_neg zero, undotted, found]
    simp only [ipv4Aton_eq]
    obtain ⟨ending, unread, read⟩ := readGroups_ending (front.splitOn ':')
    have single : pton6 (front ++ ':' :: dotted) = ending (groupBytes [dotted]) := by
      rw [pton6_groups, List.splitOn_append_cons_self, List.splitOn_eq_singleton plain]
      exact read _ (List.cons_ne_nil _ _) (by simpa using filled.symm)
    cases address : pton4 dotted with
    | none =>
      rw [single, groupBytes, if_pos (quad_dot quad), address, unread]
      rfl
    | some bytes =>
      have groups := groupBytes_quad quad address
      have four : bytes.length = 4 := by simpa using (Option.filter_eq_some_iff.mp address).2
      have high : Digits (hexlify (bytes.take 2)) :=
        hexlify_digits (List.ne_nil_of_length_pos (by rw [List.length_take]; omega))
      have low : Digits (hexlify (bytes.drop 2)) :=
        hexlify_digits (List.ne_nil_of_length_pos (by rw [List.length_drop]; omega))
      have fresh : pton6 (front ++ ':' :: (hexlify (bytes.take 2) ++ ':' :: hexlify (bytes.drop 2))) =
          pton6 (front ++ ':' :: dotted) := by
        rw [single, pton6_groups, splitOn_pair front high low,
          read _ (List.cons_ne_nil _ _) (by simp [high.filled.symm, low.filled.symm]), groups]
      rw [← fresh, ← readChunks_pair lines high low]
      · rfl
      · rw [← well, same, ends plain filled]
        refine wellEnded_front front (fun first => high.whole ?_) (fun last => low.whole ?_) (by simp)
        · rw [List.head?_append_of_ne_nil _ high.filled] at first
          exact List.mem_of_head? first
        · rw [List.getLast?_append_of_ne_nil _ (List.cons_ne_nil _ _),
            List.getLast?_cons_of_ne_nil low.filled] at last
          exact List.mem_of_getLast? last

theorem pton6_excludes (read : pton6 text = some address) (foreign : ¬ Plain c ∧ c ≠ ':') : c ∉ text := by
  intro member
  rcases pton6_plain read c member with plain | colon
  · exact foreign.1 plain
  · exact foreign.2 colon

theorem newline_foreign : ¬ Plain '\n' ∧ '\n' ≠ ':' := by
  simp [Plain, show digitValue '\n' = none by decide]

theorem scope_foreign : ¬ Plain '%' ∧ '%' ≠ ':' := by
  simp [Plain, show digitValue '%' = none by decide]

/-- A newline is refused, but for one behind a dotted ending. -/
theorem ipv6Aton_newline (lines : '\n' ∈ text) (unfound : v4Ending text = none) : ipv6Aton text = none := by
  rw [ipv6Aton]
  split
  case isFalse => rfl
  case isTrue well =>
    have zero : text ≠ [':', ':'] := by
      rintro rfl
      simp at lines
    have same : (undotted text).bind (fun btext => (canonical ((trimmed btext).splitOn ':')).bind unhexlify) =
        readChunks ((trimmed text).splitOn ':') := by
      rw [undotted, unfound]
      rfl
    rw [if_neg zero]
    refine same.trans ?_
    have refused (member : '\n' ∈ trimmed text) : readChunks ((trimmed text).splitOn ':') = none := by
      obtain ⟨chunk, piece, inside⟩ := mem_splitOn member newline_foreign.2
      exact readChunks_foreign (by decide) inside piece
    by_cases double : [':', ':'].isPrefixOf text
    · apply refused
      rw [trimmed, if_pos double]
      obtain ⟨later, rfl⟩ := List.isPrefixOf_iff_prefix.mp double
      simpa using lines
    · by_cases closing : colonColonEnd text
      · rw [trimmed, if_neg double, if_pos closing]
        simp only [colonColonEnd, Bool.and_eq_true, List.isSuffixOf_iff_suffix, Bool.not_eq_true',
          List.contains_eq_mem, decide_eq_false_iff_not] at closing
        obtain ⟨⟨earlier, ends⟩, none⟩ := closing
        have whole := (beforeNewline_cases text).resolve_left fun same => none (same ▸ lines)
        rw [whole, List.dropLast_concat, ← ends, List.splitOn_append_cons_self earlier [':']]
        exact readChunks_twice (by simp)
      · apply refused
        rwa [trimmed, if_neg double, if_neg closing]

/-- Nothing but a colon is trimmed from a line. -/
theorem trimmed_mem (lines : '\n' ∉ text) (member : c ∈ text) (other : c ≠ ':') : c ∈ trimmed text := by
  rw [trimmed]
  split
  case isTrue double =>
    obtain ⟨later, rfl⟩ := List.isPrefixOf_iff_prefix.mp double
    simpa [other] using member
  case isFalse =>
    split
    case isTrue closing =>
      rw [colonColonEnd, beforeNewline_self lines, Bool.and_eq_true, List.isSuffixOf_iff_suffix] at closing
      obtain ⟨⟨earlier, rfl⟩, _⟩ := closing
      have cut : (earlier ++ [':', ':']).dropLast = earlier ++ [':'] := by simp
      rw [cut]
      simpa [other] using member
    case isFalse => exact member

/-- `dns.ipv6.inet_aton` reads what `inet_pton` reads, and a dotted ending also with
a newline behind it. -/
theorem ipv6Aton_iff (text : List Char) (address : List UInt8) : ipv6Aton text = some address ↔
    pton6 text = some address ∨ ∃ line, text = line ++ ['\n'] ∧ '.' ∈ line ∧ pton6 line = some address := by
  constructor
  · intro read
    cases found : v4Ending text with
    | none =>
      by_cases lines : '\n' ∈ text
      · rw [ipv6Aton_newline lines found] at read
        contradiction
      · exact .inl (ipv6Aton_undotted lines found ▸ read)
    | some parts =>
      obtain ⟨front, dotted⟩ := parts
      obtain ⟨line, _, _, quad⟩ := v4Ending_iff.mp found
      rw [ipv6Aton_quad found, ← line] at read
      rcases beforeNewline_cases text with same | more
      · exact .inl (same ▸ read)
      · refine .inr ⟨_, more, ?_, read⟩
        rw [line]
        simp [quad_dot quad]
  · have plainly {line : List Char} (read : pton6 line = some address) : ipv6Aton line = some address := by
      have lines := pton6_excludes read newline_foreign
      cases found : v4Ending line with
      | none => rw [ipv6Aton_undotted lines found, read]
      | some parts =>
        obtain ⟨front, dotted⟩ := parts
        obtain ⟨whole, _⟩ := v4Ending_iff.mp found
        rw [ipv6Aton_quad found, ← whole, beforeNewline_self lines, read]
    rintro (read | ⟨line, rfl, dot, read⟩)
    · exact plainly read
    · have lines := pton6_excludes read newline_foreign
      have before : beforeNewline (line ++ ['\n']) = line := by
        rw [beforeNewline, if_pos (by simp), List.dropLast_concat]
      cases found : v4Ending line with
      | some parts =>
        obtain ⟨front, dotted⟩ := parts
        obtain ⟨whole, rest⟩ := v4Ending_iff.mp found
        rw [beforeNewline_self lines] at whole
        rw [ipv6Aton_quad (v4Ending_iff.mpr ⟨before.trans whole, rest⟩), ← whole, read]
      | none =>
        -- without a dotted ending the dot would stand in a chunk
        exfalso
        have well : wellEnded line = true := by
          by_contra unended
          rw [pton6_unended (by simpa using unended)] at read
          contradiction
        have zero : line ≠ [':', ':'] := by
          rintro rfl
          simp at dot
        obtain ⟨chunk, piece, inside⟩ :=
          mem_splitOn (trimmed_mem lines dot (by decide)) (show '.' ≠ ':' by decide)
        rw [← readChunks_pton6 lines well zero (v4Ending_none lines found (pton6_colon read)),
          readChunks_foreign dot_foreign inside piece] at read
        contradiction

theorem withoutScope_iff : withoutScope text = some address ↔
    '%' ∉ address ∧ (text = address ∨ ∃ scope, '%' ∉ scope ∧ text = address ++ '%' :: scope) := by
  constructor
  · intro left
    by_cases found : '%' ∈ text
    case neg =>
      rw [withoutScope, List.splitOn_eq_singleton found] at left
      cases Option.some.inj left
      exact ⟨found, .inl rfl⟩
    case pos =>
      obtain ⟨front, scope, rfl, plain⟩ := List.eq_append_cons_of_mem found
      rw [withoutScope, List.splitOn_append_cons_self, List.splitOn_eq_singleton plain] at left
      by_cases more : '%' ∈ scope
      · obtain ⟨middle, last, rfl, single⟩ := List.eq_append_cons_of_mem more
        obtain ⟨g, rest, split⟩ := List.exists_cons_of_ne_nil (List.splitOn_ne_nil '%' last)
        rw [List.splitOn_append_cons_self, List.splitOn_eq_singleton single, split] at left
        contradiction
      · rw [List.splitOn_eq_singleton more] at left
        cases Option.some.inj left
        exact ⟨plain, .inr ⟨scope, more, rfl⟩⟩
  · rintro ⟨plain, rfl | ⟨scope, single, rfl⟩⟩
    · rw [withoutScope, List.splitOn_eq_singleton plain]
    · rw [withoutScope, List.splitOn_append_cons_self, List.splitOn_eq_singleton plain,
        List.splitOn_eq_singleton single]
      rfl

end Texts

namespace Inet

/-- `dns.inet.inet_pton` reads what `inet_pton` reads; of an IPv6 address it drops one
scope, and one newline behind a dotted ending. -/
theorem inetPton_iff (f : Family) (text : List Char) (address : List UInt8) :
    inetPton f text = some address ↔ match f with
      | .inet => pton4 text = some address
      | .inet6 => ∃ core, (text = core ∨ ∃ scope, '%' ∉ scope ∧ text = core ++ '%' :: scope) ∧
          (pton6 core = some address ∨
            ∃ line, core = line ++ ['\n'] ∧ '.' ∈ line ∧ pton6 line = some address) := by
  cases f with
  | inet => rw [inetPton, ipv4Aton_eq]
  | inet6 =>
    simp only [inetPton, Option.bind_eq_some_iff, withoutScope_iff, ipv6Aton_iff]
    constructor
    · rintro ⟨core, ⟨_, split⟩, read⟩
      exact ⟨core, split, read⟩
    · rintro ⟨core, split, read⟩
      refine ⟨core, ⟨?_, split⟩, read⟩
      rcases read with read | ⟨line, rfl, _, read⟩
      · exact pton6_excludes read scope_foreign
      · simpa using pton6_excludes read scope_foreign

/-- Every address is written like `inet_ntop` writes it, and read back by both
readers; nothing else is written. -/
theorem inetNtop_pton (f : Family) (address : List UInt8) :
    (address.length ≠ f.size → inetNtop f address = none) ∧
      (address.length = f.size → ∃ text, inetNtop f address = some text ∧
        text = InetText.inetNtop f address ∧ InetText.inetPton f text = some address ∧
        inetPton f text = some address ∧ afForAddress text = some f) := by
  cases f with
  | inet =>
    refine ⟨fun other => ?_, fun size => ?_⟩
    · simp only [inetNtop, ipv4Ntoa]
      split
      · exact absurd rfl other
      · rfl
    · have read := pton4_ntop4 size
      have here : inetPton .inet (ntop4 address) = some address := (ipv4Aton_eq _).trans read
      exact ⟨_, ipv4Ntoa_eq size, rfl, read, here, by rw [afForAddress, here]; rfl⟩
  | inet6 =>
    refine ⟨fun other => if_pos other, fun size => ?_⟩
    have read := pton6_ntop6 size
    have other : inetPton .inet (ntop6 address) = none := (ipv4Aton_eq _).trans (pton6_not_pton4 read)
    have here : inetPton .inet6 (ntop6 address) = some address :=
      (inetPton_iff .inet6 _ _).mpr ⟨_, .inl rfl, .inl read⟩
    exact ⟨_, ipv6Ntoa_eq size, rfl, read, here, by rw [afForAddress, other, here]; rfl⟩

end Inet

end HttpSocksProxy.Dns
