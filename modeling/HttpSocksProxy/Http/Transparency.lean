import HttpSocksProxy.Http.Sanitized

/-! What the client sent and what goes upstream, byte for byte: the rest of the
target after its authority and the values of the forwarded fields. -/
namespace HttpSocksProxy.Http
open MessageHead (Field read)

/-- The path, query and fragment of an absolute target, as they are written. -/
def afterAuthority (target : Text) : Text :=
  ((target.dropWhile (· ≠ 58)).drop 3).dropWhile inNetloc

/-- An empty path is replaced by a slash. -/
def slashed (rest : Text) : Text := if rest.head? = some 47 then rest else 47 :: rest

/-- A reader of the head finds the bytes that the client sent. -/
def transparent {r : Request} (a : Accepted r) : Bool :=
  (read a.headBytes).any fun (start, fields, _) =>
    (start.splitOn 32)[1]? = some (slashed (afterAuthority r.path.1)) &&
      fields.filter (fun f => lower f.1 ∉ own) =
        (r.headers.filter fun f => ¬ Withheld r.headers f.name).map Field.pair

theorem dropWhile_sep (sep : UInt8) (t : Text) :
    t.dropWhile (· ≠ sep) = if sep ∈ t then sep :: (partition sep t).2 else [] := by
  induction t with
  | nil => rfl
  | cons b t ih =>
    by_cases same : b = sep
    · simp [partition, same]
    · have other : sep ≠ b := fun h => same h.symm
      simpa [partition, same, other] using ih

theorem splitScheme_named (named : (splitScheme u).1 ≠ []) :
    (splitScheme u).2 = (u.dropWhile (· ≠ 58)).tail := by
  simp only [splitScheme] at named ⊢
  split at named
  case isTrue found => rw [if_pos found]
  case isFalse => contradiction

theorem splitNetloc_named (named : (splitNetloc u).1 ≠ []) :
    (splitNetloc u).2 = (u.drop 2).dropWhile inNetloc := by
  simp only [splitNetloc] at named ⊢
  split at named
  case isTrue found => rw [if_pos found]
  case isFalse => contradiction

/-- Cleaning removes nothing that stands after the scheme of a word. -/
theorem cleaned_scheme (w : Word) : (cleaned w.1).dropWhile (· ≠ 58) = w.1.dropWhile (· ≠ 58) := by
  have kept : cleaned w.1 = w.1.dropWhile (· ≤ 32) := by
    apply List.filter_eq_self.mpr
    intro b member
    have inner := w.2 b ((List.dropWhile_sublist _).subset member)
    simp only [Bool.and_eq_true, decide_eq_true_eq]
    refine ⟨⟨?_, ?_⟩, ?_⟩ <;> (rintro rfl; cases inner)
  have before : ∀ b ∈ w.1.takeWhile (· ≤ 32), decide (b ≠ 58) = true := by
    intro b member
    have small := List.mem_takeWhile_imp member
    apply decide_eq_true
    rintro rfl
    cases small
  rw [kept]
  conv =>
    rhs
    rw [← List.takeWhile_append_dropWhile (p := (· ≤ 32)) (l := w.1),
      List.dropWhile_append_of_pos before]

/-- The slash is missing exactly when the path is empty. -/
theorem slashed_path (starts : ∀ b, rest.head? = some b → inNetloc b = false) :
    slashed rest = (if (partition 63 (partition 35 rest).1).1 = [] then [47] else []) ++ rest := by
  simp only [slashed]
  cases rest with
  | nil => rfl
  | cons b rest =>
    have delimiter := starts b rfl
    by_cases slash : b = 47
    · simp [slash, partition]
    · have ends : b = 63 ∨ b = 35 := by
        simp only [inNetloc, Bool.and_eq_false_iff, decide_eq_false_iff_not, not_not] at delimiter
        tauto
      rcases ends with rfl | rfl <;> simp [partition]

/-- The path and the query do not say whether an empty query or an empty fragment
was written. -/
def Spelled (rest : Text) : Prop := 35 ∉ rest ∧ rest.dropWhile (· ≠ 63) ≠ [63]

theorem slashed_dropped (starts : ∀ b, rest.head? = some b → inNetloc b = false)
    (unfragmented : (partition 35 rest).2 = []) (parts : partition 63 (partition 35 rest).1 = (path, query)) :
    ∃ dropped, isAscii dropped = true ∧ (dropped = [] ↔ Spelled rest) ∧
      slashed rest = (if path = [] then [47] else path) ++ (if query = [] then [] else 63 :: query) ++
        dropped := by
  have hash := dropWhile_sep 35 rest
  have mark := dropWhile_sep 63 (partition 35 rest).1
  have whole : (partition 35 rest).1 ++ rest.dropWhile (· ≠ 35) = rest := List.takeWhile_append_dropWhile
  have target : path ++ (partition 35 rest).1.dropWhile (· ≠ 63) = (partition 35 rest).1 := by
    rw [← show _ = path from congrArg Prod.fst parts]
    exact List.takeWhile_append_dropWhile
  have after : ((partition 35 rest).1.dropWhile (· ≠ 63)).tail = query := congrArg Prod.snd parts
  have spelled : 35 ∉ rest → rest.dropWhile (· ≠ 63) = (partition 35 rest).1.dropWhile (· ≠ 63) := by
    intro none
    conv => lhs; rw [← whole, hash, if_neg none, List.append_nil]
  have prefixed := slashed_path starts
  rw [unfragmented] at hash
  rw [parts] at mark prefixed
  rw [← target, hash] at whole
  generalize (partition 35 rest).1.dropWhile (· ≠ 63) = tail at *
  have queried : (if query = [] then [] else 63 :: query) ++ (if tail = [63] then [63] else []) = tail := by
    split at mark
    · subst mark
      by_cases empty : query = [] <;> simp [empty]
    · subst mark
      simp [← after]
  refine ⟨(if tail = [63] then [63] else []) ++ if 35 ∈ rest then [35] else [], ?_, ?_, ?_⟩
  · split <;> split <;> rfl
  · by_cases fragment : 35 ∈ rest
    · simp [Spelled, fragment]
    · simp only [Spelled, fragment, spelled fragment]
      simp
  · calc slashed rest
      _ = (if path = [] then [47] else []) ++ (path ++ tail ++ if 35 ∈ rest then [35] else []) := by
        rw [whole, prefixed]
      _ = (if path = [] then [47] else path) ++ (tail ++ if 35 ∈ rest then [35] else []) := by
        by_cases empty : path = [] <;> simp [empty]
      _ = _ := by
        conv => lhs; rw [← queried]
        simp only [List.append_assoc]

section Target
variable {r : Request} (a : Accepted r)

theorem target_eq : a.target = urlParts r.path.1 := urlsplit_ok a.split

/-- What `urlsplit` leaves for the path, the query and the fragment. -/
theorem rest_eq (a : Accepted r) :
    (splitNetloc (splitScheme (cleaned r.path.1)).2).2 = afterAuthority r.path.1 := by
  have scheme : (splitScheme (cleaned r.path.1)).1 ≠ [] := by
    have http := a.http
    rw [target_eq a] at http
    rw [show (splitScheme (cleaned r.path.1)).1 = latin "http" from http]
    decide
  have netloc : (splitNetloc (splitScheme (cleaned r.path.1)).2).1 ≠ [] := by
    intro none
    have named := a.named
    rw [target_eq a] at named
    simp [SplitResult.hostname, SplitResult.hostinfo, urlParts, none, partition] at named
  rw [splitNetloc_named netloc, splitScheme_named scheme, cleaned_scheme, afterAuthority, List.drop_tail]

theorem target_parts (a : Accepted r) : (partition 35 (afterAuthority r.path.1)).2 = [] ∧
    partition 63 (partition 35 (afterAuthority r.path.1)).1 = (a.target.path, a.target.query) := by
  have clean := a.clean.1
  rw [target_eq a] at clean ⊢
  rw [← rest_eq a]
  exact ⟨clean, rfl⟩

/-- What is written upstream, and the delimiters that are not. -/
theorem pathQuery_dropped : ∃ dropped, isAscii dropped = true ∧
    (dropped = [] ↔ Spelled (afterAuthority r.path.1)) ∧
    slashed (afterAuthority r.path.1) = a.pathQuery ++ dropped := by
  have starts : ∀ b, (afterAuthority r.path.1).head? = some b → inNetloc b = false := by
    intro b first
    have outside := List.head?_dropWhile_not inNetloc ((r.path.1.dropWhile (· ≠ 58)).drop 3)
    rw [← afterAuthority, first] at outside
    simpa using outside
  obtain ⟨clean, parts⟩ := target_parts a
  exact slashed_dropped starts clean parts

theorem slashed_ascii (rest : Text) : isAscii (slashed rest) = isAscii rest := by
  simp only [slashed]
  split <;> simp [isAscii]

/-- The target goes upstream as it came when it is ASCII and has no `#` and no
empty query. -/
theorem target_iff : utf8 a.pathQuery = slashed (afterAuthority r.path.1) ↔
    isAscii (afterAuthority r.path.1) = true ∧ Spelled (afterAuthority r.path.1) := by
  obtain ⟨dropped, ascii, spelled, same⟩ := pathQuery_dropped a
  have whole : isAscii (afterAuthority r.path.1) = isAscii a.pathQuery := by
    have both : isAscii (a.pathQuery ++ dropped) = (isAscii a.pathQuery && isAscii dropped) := List.all_append
    rw [← slashed_ascii, same, both, ascii, Bool.and_true]
  rw [same, utf8_append_iff ascii, spelled, whole]

/-- The start line has three words, and the second is the target. -/
theorem startLine_target : (a.startLine.splitOn 32)[1]? = some (utf8 a.pathQuery) := by
  have word {t : Text} (plain : ∀ b ∈ t, isSpace b = false) : (32 : UInt8) ∉ utf8 t := by
    intro member
    rcases mem_utf8 member with inside | large
    · cases plain 32 inside
    · exact absurd large (by decide)
  have parts : a.startLine =
      utf8 r.command.1 ++ 32 :: (utf8 a.pathQuery ++ 32 :: utf8 r.version.1) := by
    simp only [Accepted.startLine, utf8_append, List.append_assoc]
    rfl
  rw [parts, List.splitOn_append_cons_self_of_not_mem (word r.command.2),
    List.splitOn_append_cons_self_of_not_mem (word a.pathQuery_plain)]
  rfl

theorem values_iff (fields : List Field) :
    fields.map (fun f => (f.name, utf8 f.value)) = fields.map Field.pair ↔
      ∀ f ∈ fields, isAscii f.value = true := by
  simp only [List.map_inj_left, Field.pair, Prod.mk.injEq, true_and, utf8_eq_iff]

/-- Target and forwarded values go upstream byte for byte exactly when they are
ASCII and the target has no `#` and no empty query. -/
theorem transparent_iff : transparent a = true ↔
    (isAscii (afterAuthority r.path.1) = true ∧ 35 ∉ afterAuthority r.path.1 ∧
      (afterAuthority r.path.1).dropWhile (· ≠ 63) ≠ [63]) ∧
    ∀ f ∈ r.headers, ¬ Withheld r.headers f.name → isAscii f.value = true := by
  have found := a.read_headBytes []
  rw [List.append_nil] at found
  simp only [transparent, found, Option.any_some, Bool.and_eq_true, decide_eq_true_eq,
    filter_forwarded a, startLine_target a, Option.some.injEq]
  rw [target_iff, values_iff]
  simp only [List.mem_filter, decide_eq_true_eq, and_imp, Spelled]

end Target

/-- A Latin-1 letter in a cookie goes upstream as two bytes. -/
theorem accented_cookie_garbled :
    ((parseRequest (latin "GET http://h/ HTTP/1.1\r\n") (latin "Cookie: \xe9\r\n\r\n")).toOption.bind
      fun r => (accept r).toOption.map fun a => (r.headers.map Field.pair, a.headBytes, transparent a)) =
    some ([(latin "Cookie", [0xe9])],
      latin "GET / HTTP/1.1\r\nHost: h\r\nCookie: \xc3\xa9\r\nConnection: close\r\n\r\n", false) := by
  decide +kernel
end HttpSocksProxy.Http
