import HttpSocksProxy.Http.Authority
import HttpSocksProxy.Http.Exchange
import HttpSocksProxy.Http.Truncation

/-! Which requests may lead to a connection: the targets of the two request methods as
grammars, and what the handler makes of every other request. -/
namespace HttpSocksProxy.Http
open Effect
open ByteStream (bind_ok)

/-- A host: a name or an IPv4 literal, or an IP literal in brackets. -/
inductive Hosted : Text → Prop where
  | name : name ≠ [] → (∀ b ∈ name, inNetloc b = true ∧ b ∉ [64, 58, 91, 93]) → Hosted name
  | literal : inside ≠ [] → (∀ b ∈ inside, inNetloc b = true ∧ b ∉ [64, (93 : UInt8)]) →
      checkBracketedHost inside = .ok () → Hosted ([91] ++ inside ++ [93])

/-- `:` and the digits of a port, or nothing. -/
def Ported (t : Text) : Prop := t = [] ∨ ∃ digits, t = 58 :: digits ∧ ∀ b ∈ digits, isAsciiDigit b = true

/-- `host[:port]` -/
def HostPort (t : Text) : Prop := ∃ name port, t = name ++ port ∧ Hosted name ∧ Ported port

/-- An absolute http URI without userinfo and fragment. -/
def HttpUri (t : Text) : Prop := ∃ scheme authority rest, t = scheme ++ latin "://" ++ authority ++ rest ∧
  lower scheme = latin "http" ∧ HostPort authority ∧ (∀ b, rest.head? = some b → b = 47 ∨ b = 63) ∧ 35 ∉ rest

def methods : List Text := ["GET", "HEAD", "POST", "PUT", "DELETE", "OPTIONS"].map latin

/-- A request that may lead to a connection. -/
def Admissible (r : Request) : Prop :=
  (r.command.1 = latin "CONNECT" ∧ HostPort r.path.1) ∨ (r.command.1 ∈ methods ∧ HttpUri r.path.1)

/-- `handle` from the parsed request on. -/
def serve (env : Env) (r : Request) : Handler Unit := tryCatch (dispatch env r) (recover env)

/-- A request that may not lead to a connection is answered with one error response,
and nothing else happens. -/
def Screened (env : Env) (r : Request) : Prop := Admissible r ∨
  ∀ s : Session, s.trace = [] → ∃ event : Event, event.isError = true ∧ (final (serve env r) s).trace = [event]

/-- Nothing stands around the brackets of an authority but a port. -/
def Snug (authority : Text) : Prop := 91 ∈ authority →
  authority.head? = some 91 ∧ ∀ b, (partition 93 authority).2.head? = some b → b = 58

theorem hosted_inner (hosted : Hosted name) : ∀ b ∈ name, inNetloc b = true ∧ b ≠ 64 := by
  cases hosted with
  | name _ plain =>
    intro b member
    obtain ⟨stays, other⟩ := plain b member
    exact ⟨stays, fun same => other (by simp [same])⟩
  | literal _ plain _ =>
    intro b member
    simp only [List.mem_append, List.mem_singleton] at member
    rcases member with (rfl | inside) | rfl
    · decide
    · obtain ⟨stays, other⟩ := plain b inside
      exact ⟨stays, fun same => other (by simp [same])⟩
    · decide

theorem ported_marks (ported : Ported port) : ∀ b ∈ port, b = 58 ∨ isAsciiDigit b = true := by
  intro b member
  rcases ported with rfl | ⟨digits, rfl, all⟩
  · simp at member
  · exact (List.mem_cons.mp member).imp_right (all b)

theorem HostPort.inner (shaped : HostPort t) : ∀ b ∈ t, inNetloc b = true ∧ b ≠ 64 := by
  obtain ⟨name, port, rfl, hosted, ported⟩ := shaped
  have all : ∀ n < 256, UInt8.ofNat n = 58 ∨ isAsciiDigit (UInt8.ofNat n) = true →
      inNetloc (UInt8.ofNat n) = true ∧ UInt8.ofNat n ≠ 64 := by decide +kernel
  intro b member
  rcases List.mem_append.mp member with inside | last
  · exact hosted_inner hosted b inside
  · simpa using all b.toNat b.toNat_lt (by simpa using ported_marks ported b last)

theorem ported_bracket (ported : Ported port) : 91 ∉ port ∧ 93 ∉ port := by
  constructor <;>
  · intro member
    rcases ported_marks ported _ member with same | digit
    · cases same
    · cases digit

theorem Ported.colon (ported : Ported port) (first : port.head? = some b) : b = 58 := by
  rcases ported with rfl | ⟨digits, rfl, _⟩
  · cases first
  · exact (Option.some.inj first).symm

/-- `host[:port]` has nothing else around its brackets, and passes their check. -/
theorem HostPort.snug (shaped : HostPort t) : Snug t ∧ checkBrackets t = .ok () := by
  obtain ⟨name, port, rfl, hosted, ported⟩ := shaped
  obtain ⟨opening, closing⟩ := ported_bracket ported
  cases hosted with
  | name _ plain =>
    have opening : 91 ∉ name ++ port := by
      intro member
      rcases List.mem_append.mp member with inside | last
      · exact (plain 91 inside).2 (by simp)
      · exact opening last
    have closing : 93 ∉ name ++ port := by
      intro member
      rcases List.mem_append.mp member with inside | last
      · exact (plain 93 inside).2 (by simp)
      · exact closing last
    refine ⟨fun member => absurd member opening, ?_⟩
    rw [checkBrackets, if_neg fun both => opening both.1, if_neg]
    rintro (member | member)
    · exact opening member
    · exact closing member
  | @literal inner filled plain checked =>
    have close : 93 ∉ inner := fun member => (plain 93 member).2 (by simp)
    have shape : [91] ++ inner ++ [93] ++ port = [] ++ 91 :: (inner ++ 93 :: port) := by simp
    have whole : partition 93 ([91] ++ inner ++ [93] ++ port) = (91 :: inner, port) := by
      have front : 93 ∉ 91 :: inner := by simp [close]
      rw [show [91] ++ inner ++ [93] ++ port = (91 :: inner) ++ 93 :: port by simp, partition_sep front]
    constructor
    · intro _
      rw [whole]
      exact ⟨rfl, fun b first => ported.colon first⟩
    · rw [checkBrackets, if_pos ⟨by simp, by simp⟩, shape, partition_sep (by simp), partition_sep close]
      exact checked

theorem port_digits {r : SplitResult} (read : r.port = .ok written) :
    ∀ b ∈ r.hostinfo.2, isAsciiDigit b = true := by
  simp only [SplitResult.port] at read
  split at read
  case isTrue empty => simp [empty]
  case isFalse =>
    split at read
    case isTrue digits => exact List.all_eq_true.mp digits
    case isFalse => cases read

theorem no_userinfo {netloc : Text} (inside : ∀ b ∈ netloc, inNetloc b = true ∧ b ≠ 64) :
    netloc.rtakeWhile (· ≠ 64) = netloc := by
  rw [List.rtakeWhile_eq_self_iff]
  exact fun b member => decide_eq_true (inside b member).2

section
variable {r : SplitResult} (inside : ∀ b ∈ r.netloc, inNetloc b = true ∧ b ≠ 64)
  (filled : r.hostinfo.1 ≠ []) (digits : ∀ b ∈ r.hostinfo.2, isAsciiDigit b = true)
include inside filled digits

/-- An authority with brackets is an IP literal when only a port stands around them. -/
theorem literal_hostPort (both : 91 ∈ r.netloc ∧ 93 ∈ r.netloc) (snug : Snug r.netloc)
    (checked : checkBracketedHost (partition 93 (partition 91 r.netloc).2).1 = .ok ()) :
    HostPort r.netloc := by
  obtain ⟨first, after⟩ := snug both.1
  obtain ⟨rest, split⟩ := List.head?_eq_some_iff.mp first
  have content : (partition 91 r.netloc).2 = rest := by
    have opened : partition 91 ([] ++ 91 :: rest) = ([], rest) := partition_sep (by simp) rest
    rw [split]
    exact congrArg Prod.snd opened
  rw [content] at checked
  have closing : 93 ∈ rest := by
    have member := both.2
    rw [split] at member
    simpa using member
  obtain ⟨inner, behind, parts, close⟩ := List.eq_append_cons_of_mem closing
  have front : 93 ∉ 91 :: inner := by simp [close]
  have literal : partition 93 rest = (inner, behind) := by rw [parts, partition_sep close]
  have ends : (partition 93 r.netloc).2 = behind := by
    rw [split, parts, ← List.cons_append, partition_sep front]
  have hostinfo : r.hostinfo = (inner, (partition 58 behind).2) := by
    simp only [SplitResult.hostinfo]
    rw [no_userinfo inside, if_pos both.1, content, literal]
  rw [hostinfo] at filled digits
  rw [literal] at checked
  rw [ends] at after
  have whole : r.netloc = [91] ++ inner ++ [93] ++ behind := by simp [split, parts]
  refine ⟨_, behind, whole, .literal filled (fun b member => ?_) checked, ?_⟩
  · obtain ⟨stays, foreign⟩ := inside b (by simp [whole, member])
    exact ⟨stays, by simpa [foreign] using fun same : b = 93 => close (same ▸ member)⟩
  · cases behind with
    | nil => exact .inl rfl
    | cons b port =>
      obtain rfl := after b rfl
      have tail : partition 58 ([] ++ 58 :: port) = ([], port) := partition_sep (by simp) port
      have tail : (partition 58 (58 :: port)).2 = port := congrArg Prod.snd tail
      exact .inr ⟨port, rfl, tail ▸ digits⟩

/-- An authority without brackets is a name, and its port is behind the first colon. -/
theorem name_hostPort (opening : 91 ∉ r.netloc) (closing : 93 ∉ r.netloc) : HostPort r.netloc := by
  have hostinfo : r.hostinfo = partition 58 r.netloc := by
    simp only [SplitResult.hostinfo]
    rw [no_userinfo inside, if_neg opening]
  rw [hostinfo] at filled digits
  have hosted {t : Text} (part : t.Sublist r.netloc) (some_bytes : t ≠ []) (colon : 58 ∉ t) : Hosted t := by
    refine .name some_bytes fun b member => ?_
    obtain ⟨stays, foreign⟩ := inside b (part.subset member)
    refine ⟨stays, ?_⟩
    simp only [List.mem_cons, List.not_mem_nil, or_false, not_or]
    refine ⟨foreign, ?_, ?_, ?_⟩
    · exact fun same => colon (same ▸ member)
    · exact fun same => opening (same ▸ part.subset member)
    · exact fun same => closing (same ▸ part.subset member)
  by_cases colon : 58 ∈ r.netloc
  · obtain ⟨before, port, parts, alone⟩ := List.eq_append_cons_of_mem colon
    rw [parts, partition_sep alone] at filled digits
    refine ⟨before, 58 :: port, parts, hosted ?_ filled alone, .inr ⟨port, rfl, digits⟩⟩
    rw [parts]
    exact List.sublist_append_left _ _
  · rw [partition_none colon] at filled
    exact ⟨r.netloc, [], by simp, hosted (List.Sublist.refl _) filled colon, .inl rfl⟩

end

/-- An authority that is parsed is `host[:port]` exactly when nothing else stands
around its brackets. -/
theorem hostPort_iff {r : SplitResult} (inside : ∀ b ∈ r.netloc, inNetloc b = true ∧ b ≠ 64)
    (checked : checkBrackets r.netloc = .ok ()) (named : r.hostname = some name) (read : r.port = .ok written) :
    HostPort r.netloc ↔ Snug r.netloc := by
  refine ⟨fun shaped => shaped.snug.1, fun snug => ?_⟩
  have filled : r.hostinfo.1 ≠ [] := by
    intro none
    rw [hostname_eq, if_pos none] at named
    cases named
  unfold checkBrackets at checked
  split at checked
  case isTrue both => exact literal_hostPort inside filled (port_digits read) both snug checked
  case isFalse =>
    split at checked
    · cases checked
    case isFalse none =>
      exact name_hostPort inside filled (port_digits read) (fun member => none (.inl member))
        fun member => none (.inr member)

/-- A target that `do_CONNECT` accepts is `host[:port]` exactly when nothing ends its
authority or stands around it. -/
theorem connect_iff (target : Word) (accepted : authorityAddress target.1 443 = .ok address) :
    HostPort target.1 ↔ (∀ b ∈ target.1, inNetloc b = true ∧ b ≠ 64) ∧ Snug target.1 := by
  refine ⟨fun shaped => ⟨shaped.inner, shaped.snug.1⟩, fun ⟨inside, snug⟩ => ?_⟩
  have parts : urlParts ([47, 47] ++ target.1) = ⟨[], target.1, [], [], []⟩ := by
    apply urlParts_authority
    intro b member
    have space := target.2 b member
    exact ⟨(inside b member).1, by refine ⟨?_, ?_, ?_⟩ <;> (rintro rfl; cases space)⟩
  obtain ⟨parsed, split, accepted⟩ := bind_ok.mp accepted
  obtain rfl := urlsplit_ok split
  have checked : checkBrackets target.1 = .ok () := by
    unfold urlsplit at split
    rw [parts] at split
    cases verdict : checkBrackets target.1 with
    | error text => simp [verdict, Except.map] at split
    | ok _ => rfl
  rw [parts] at accepted
  cases named : (SplitResult.mk [] target.1 [] [] []).hostname with
  | none =>
    rw [named] at accepted
    cases accepted
  | some name =>
    rw [named] at accepted
    obtain ⟨port, ported, _⟩ := bind_ok.mp accepted
    obtain ⟨written, read, _⟩ := portOr_ok ported
    exact (hostPort_iff inside checked named read).mpr snug

theorem http_alpha (http : lower scheme = latin "http") : ∀ b ∈ scheme, isAlpha b = true := by
  have all : ∀ n < 256, lowerChar (UInt8.ofNat n) ∈ latin "http" → isAlpha (UInt8.ofNat n) = true := by
    decide +kernel
  intro b member
  have inside : lowerChar b ∈ latin "http" := http ▸ List.mem_map_of_mem member
  simpa using all b.toNat b.toNat_lt (by simpa using inside)

theorem isAlpha_plain (alpha : isAlpha b = true) :
    isSchemeChar b = true ∧ b ≠ 58 ∧ b ≠ 35 ∧ inNetloc b = true ∧ 32 < b := by
  have all : ∀ n < 256, isAlpha (UInt8.ofNat n) = true → isSchemeChar (UInt8.ofNat n) = true ∧
      UInt8.ofNat n ≠ 58 ∧ UInt8.ofNat n ≠ 35 ∧ inNetloc (UInt8.ofNat n) = true ∧ 32 < UInt8.ofNat n := by
    decide +kernel
  simpa using all b.toNat b.toNat_lt (by simpa using alpha)

/-- A word that starts with no control character is not changed by `urlsplit`. -/
theorem cleaned_word (w : Word) (first : ∀ b, w.1.head? = some b → 32 < b) : cleaned w.1 = w.1 := by
  have start : w.1.dropWhile (· ≤ 32) = w.1 := by
    cases same : w.1 with
    | nil => rfl
    | cons b rest =>
      have large := first b (by rw [same]; rfl)
      rw [List.dropWhile_cons_of_neg]
      simpa using large
  rw [cleaned, start, List.filter_eq_self]
  intro b member
  have space := w.2 b member
  simp only [Bool.and_eq_true, decide_eq_true_eq]
  refine ⟨⟨?_, ?_⟩, ?_⟩ <;> (rintro rfl; cases space)

theorem splitScheme_http (http : lower scheme = latin "http") (after : Text) :
    splitScheme (scheme ++ 58 :: after) = (latin "http", after) := by
  have alpha := http_alpha http
  have colon : 58 ∉ scheme := fun member => (isAlpha_plain (alpha 58 member)).2.1 rfl
  have split := partition_sep colon after
  obtain ⟨before, behind⟩ := Prod.mk.inj split
  have filled : scheme ≠ [] := by
    rintro rfl
    cases http
  obtain ⟨b, more, rfl⟩ := List.exists_cons_of_ne_nil filled
  have all : (b :: more).all isSchemeChar = true :=
    List.all_eq_true.mpr fun c member => (isAlpha_plain (alpha c member)).1
  simp only [splitScheme]
  rw [before, behind, if_pos ⟨by simp, by simp [alpha b], all⟩, http]

theorem splitNetloc_slashes (inside : ∀ b ∈ authority, inNetloc b = true)
    (ends : ∀ b, rest.head? = some b → inNetloc b = false) :
    splitNetloc (47 :: 47 :: (authority ++ rest)) = (authority, rest) := by
  have stop : rest.takeWhile inNetloc = [] ∧ rest.dropWhile inNetloc = rest := by
    cases rest with
    | nil => simp
    | cons b rest => simp [ends b rfl]
  simp only [splitNetloc, List.take_succ_cons, List.take_zero, if_true, List.drop_succ_cons, List.drop_zero]
  rw [List.takeWhile_append_of_pos inside, List.dropWhile_append_of_pos inside, stop.1, stop.2, List.append_nil]

theorem delimiter_cases (b : UInt8) : inNetloc b = false ↔ b = 47 ∨ b = 63 ∨ b = 35 := by
  simp only [inNetloc, Bool.and_eq_false_iff, decide_eq_false_iff_not, not_not]
  tauto

/-- The authority of an http URI is the one that `urlsplit` finds. -/
theorem httpUri_parts (target : Word) (uri : HttpUri target.1) : 35 ∉ target.1 ∧
    (∀ b, target.1.head? = some b → 32 < b) ∧ HostPort (urlParts target.1).netloc := by
  obtain ⟨scheme, authority, rest, whole, http, shaped, first, fragment⟩ := uri
  have alpha := http_alpha http
  have filled : scheme ≠ [] := by
    rintro rfl
    cases http
  have start : ∀ b, target.1.head? = some b → 32 < b := by
    obtain ⟨c, more, rfl⟩ := List.exists_cons_of_ne_nil filled
    intro b same
    rw [whole] at same
    cases same
    exact (isAlpha_plain (alpha _ (by simp))).2.2.2.2
  have shape : target.1 = scheme ++ 58 :: (47 :: 47 :: (authority ++ rest)) := by
    rw [whole]
    simp [latin]
  have netloc : (urlParts target.1).netloc = authority := by
    have ends : ∀ b, rest.head? = some b → inNetloc b = false := fun b same =>
      (delimiter_cases b).mpr ((first b same).imp_right .inl)
    have split := splitNetloc_slashes (fun b member => (shaped.inner b member).1) ends
    simp only [urlParts]
    rw [cleaned_word target start, shape, splitScheme_http http]
    simp only
    rw [split]
  refine ⟨?_, start, netloc ▸ shaped⟩
  rw [shape]
  simp only [List.mem_append, List.mem_cons, not_or]
  refine ⟨fun member => (isAlpha_plain (alpha 35 member)).2.2.1 rfl, by decide, by decide, by decide, ?_, fragment⟩
  exact fun member => by cases (shaped.inner 35 member).1

/-- A target that `do_verb` accepts is an http URI exactly when it has no fragment, no
control character in front and nothing around the brackets of its authority. -/
theorem httpUri_iff {r : Request} (a : Accepted r) : HttpUri r.path.1 ↔
    35 ∉ r.path.1 ∧ (∀ b, r.path.1.head? = some b → 32 < b) ∧ Snug a.target.netloc := by
  constructor
  · intro uri
    obtain ⟨fragment, start, shaped⟩ := httpUri_parts r.path uri
    rw [target_eq a]
    exact ⟨fragment, start, shaped.snug.1⟩
  · rintro ⟨fragment, start, snug⟩
    obtain ⟨written, read, _⟩ := portOr_ok a.ported
    have shaped := (hostPort_iff (target_inside a) (target_checked a) a.named read).mpr snug
    have http := a.http
    have named := a.named
    rw [target_eq a] at http named shaped
    simp only [urlParts, cleaned_word r.path start] at http named shaped
    have colon : 58 ∈ r.path.1 := by
      by_contra missing
      simp only [splitScheme, missing, false_and, if_false] at http
      cases http
    obtain ⟨scheme, after, parts, alone⟩ := List.eq_append_cons_of_mem colon
    have scheme_http : lower scheme = latin "http" ∧ (splitScheme r.path.1).2 = after := by
      obtain ⟨before, behind⟩ := Prod.mk.inj (partition_sep alone after)
      simp only [splitScheme] at http ⊢
      split at http
      case isTrue valid =>
        rw [parts, before] at http
        rw [if_pos valid, parts, behind]
        exact ⟨http, rfl⟩
      case isFalse => cases http
    rw [scheme_http.2] at shaped named
    have slashes : after.take 2 = [47, 47] := by
      by_contra other
      simp only [splitNetloc, other, if_false] at named
      cases named
    have taken : splitNetloc after = ((after.drop 2).takeWhile inNetloc, (after.drop 2).dropWhile inNetloc) :=
      if_pos slashes
    rw [taken] at shaped
    have whole : after = 47 :: 47 :: ((after.drop 2).takeWhile inNetloc ++ (after.drop 2).dropWhile inNetloc) := by
      rw [List.takeWhile_append_dropWhile]
      conv => lhs; rw [← List.take_append_drop 2 after, slashes]
      rfl
    have free : 35 ∉ (after.drop 2).dropWhile inNetloc := by
      intro member
      apply fragment
      have later : 35 ∈ after := (List.drop_sublist 2 after).subset ((List.dropWhile_sublist _).subset member)
      simp [parts, later]
    refine ⟨scheme, _, (after.drop 2).dropWhile inNetloc, ?_, scheme_http.1, shaped, fun b first => ?_, free⟩
    · rw [parts]
      conv => lhs; rw [whole]
      simp [latin]
    · have ends := List.head?_dropWhile_not inNetloc (after.drop 2)
      rw [first] at ends
      rcases (delimiter_cases b).mp (by simpa using ends) with slash | mark | hash
      · exact .inl slash
      · exact .inr mark
      · exact absurd (hash ▸ List.mem_of_head? first) free

/-- When the handler admits a request as it should: a target that it accepts has
nothing but its grammar in it, the method is no attribute that is not a method, and
a target that `urlsplit` rejects comes from a client that can still be answered. -/
def Guarded (env : Env) (r : Request) : Prop :=
  if r.command.1 = latin "CONNECT" then
    ∀ address, authorityAddress r.path.1 443 = .ok address →
      (∀ b ∈ r.path.1, inNetloc b = true ∧ b ≠ 64) ∧ Snug r.path.1
  else r.command.1 ∈ verbs →
    match accept r with
    | .ok a => r.command.1 ≠ latin "verb" ∧ 35 ∉ r.path.1 ∧ (∀ b, r.path.1.head? = some b → 32 < b) ∧
        Snug a.target.netloc
    | .error (.valueError _) => env.closing = false
    | .error (.reply _) => True

section Served
variable {env : Env} {r : Request} {s : Session}

/-- A request whose handler finds an address is not answered with an error alone. -/
theorem served_address (fresh : s.trace = []) (found : r.address.isSome = true) (event : Event)
    (error : event.isError = true) : (final (serve env r) s).trace ≠ [event] := by
  have settled : Ends (serve env r) s fun t => Connected t ↔ r.address.isSome = true :=
    (dispatch_settles env fresh).tryCatch fun e t settled =>
      (recover_silent env e t).mono fun _ same => same.trans settled
  obtain ⟨address, asked⟩ := settled.final.mpr found
  intro alone
  rw [alone, List.mem_singleton] at asked
  subst asked
  cases error

/-- A handler that does nothing but answer with an error screens the request. -/
theorem screened_error (event : Event) (error : event.isError = true) (same : serve env r = perform event) :
    Screened env r := by
  refine .inr fun s fresh => ⟨event, error, ?_⟩
  have performed : Ends (perform event) s fun t => t.trace = [event] := After.modify_iff.mpr (by simp [fresh])
  rw [same]
  exact performed.final

theorem screened_address (found : r.address.isSome = true) : Screened env r ↔ Admissible r := by
  refine ⟨fun screened => screened.resolve_right fun answered => ?_, .inl⟩
  have fresh : (⟨.ofPieces [], none, [], 0, []⟩ : Session).trace = [] := rfl
  obtain ⟨event, error, alone⟩ := answered _ fresh
  exact served_address fresh found event error alone

end Served

theorem methods_verbs {command : Text} (verb : command ∈ verbs) :
    command ∈ methods ↔ command ≠ latin "verb" := by
  have whole : verbs = methods ++ [latin "verb"] := rfl
  have distinct : latin "verb" ∉ methods := by decide
  rw [whole, List.mem_append, List.mem_singleton] at verb
  exact ⟨fun known same => distinct (same ▸ known), fun named => verb.resolve_right named⟩

/-- A `ValueError` leaves `do_verb` for its target alone. -/
theorem accept_valueError (refused : accept r = .error (.valueError text)) :
    urlsplit r.path.1 = .error text := by
  unfold accept at refused
  split at refused
  case h_1 text' failed =>
    cases refused
    exact failed
  case h_2 =>
    repeat' split at refused
    all_goals cases refused

theorem screened_connect (env : Env) (command : r.command.1 = latin "CONNECT") : Screened env r ↔
    ∀ address, authorityAddress r.path.1 443 = .ok address →
      (∀ b ∈ r.path.1, inNetloc b = true ∧ b ≠ 64) ∧ Snug r.path.1 := by
  have other : r.command.1 ∉ methods := by
    rw [command]
    decide
  cases accepted : authorityAddress r.path.1 443 with
  | error text =>
    simp only [reduceCtorEq, false_implies, implies_true, iff_true]
    refine screened_error (.sendError { status := 400, message := latin "bad CONNECT target: " ++ text }) rfl ?_
    rw [serve, dispatch, if_pos command, doConnect, accepted]
    rfl
  | ok address =>
    have found : r.address.isSome = true := by simp [Request.address, command, accepted, Except.toOption]
    rw [screened_address found]
    simp only [Except.ok.injEq, forall_eq']
    rw [← connect_iff r.path accepted, Admissible]
    simp only [command, true_and, or_iff_left_iff_imp, and_imp]
    intro known
    exact absurd (command ▸ known) other

theorem screened_verb (env : Env) (other : r.command.1 ≠ latin "CONNECT") (verb : r.command.1 ∈ verbs) :
    Screened env r ↔ match accept r with
      | .ok a => r.command.1 ≠ latin "verb" ∧ 35 ∉ r.path.1 ∧ (∀ b, r.path.1.head? = some b → 32 < b) ∧
          Snug a.target.netloc
      | .error (.valueError _) => env.closing = false
      | .error (.reply _) => True := by
  have served : serve env r = tryCatch (doVerb env r) (recover env) := by
    rw [serve, dispatch, if_neg other, if_pos verb]
  have admissible : Admissible r ↔ r.command.1 ∈ methods ∧ HttpUri r.path.1 := by
    simp [Admissible, other]
  split
  case h_1 a accepted =>
    have found : r.address.isSome = true := by
      simp [Request.address, other, verb, accepted, Except.toOption]
    rw [screened_address found, admissible, methods_verbs verb, httpUri_iff a]
  case h_2 text refused =>
    have thrown : serve env r = if env.closing then pure () else perform .headersTooLarge := by
      rw [served, doVerb, refused]
      rfl
    cases closing : env.closing with
    | false =>
      simp only [iff_true]
      refine screened_error .headersTooLarge rfl ?_
      rw [thrown, closing]
      rfl
    | true =>
      simp only [Bool.true_eq_false, iff_false]
      rintro (uri | answered)
      · have shaped := (httpUri_parts r.path (admissible.mp uri).2).2.2
        have split : urlsplit r.path.1 = .ok (urlParts r.path.1) := by
          rw [urlsplit, shaped.snug.2]
          rfl
        rw [accept_valueError refused] at split
        cases split
      · have fresh : (⟨.ofPieces [], none, [], 0, []⟩ : Session).trace = [] := rfl
        obtain ⟨event, _, alone⟩ := answered _ fresh
        rw [thrown, closing] at alone
        cases alone
  case h_3 reply refused =>
    simp only [iff_true]
    refine screened_error (.sendError reply) ?_ ?_
    · rfl
    · rw [served, doVerb, refused]
      rfl

/-- A request is admitted by its grammar, or answered with one error response, exactly
when the handler is guarded against it. -/
theorem screened_iff (env : Env) (r : Request) : Screened env r ↔ Guarded env r := by
  unfold Guarded
  split
  case isTrue command => exact screened_connect env command
  case isFalse other =>
    by_cases verb : r.command.1 ∈ verbs
    · rw [screened_verb env other verb]
      simp only [verb, true_implies]
    · simp only [verb, false_implies, iff_true]
      refine screened_error (.sendError
        { status := 501, message := latin "Unsupported method (" ++ repr r.command.1 ++ latin ")" }) rfl ?_
      rw [serve, dispatch, if_neg other, if_neg verb]
      rfl

/-- A tunnel request with userinfo, a path, a query and a fragment. -/
def looseTunnel : Request where
  command := ⟨latin "CONNECT", by simp [latin, isSpace]⟩
  path := ⟨latin "user@h:443/x?y#z", by simp [latin, isSpace]⟩
  version := ⟨latin "HTTP/1.1", by simp [latin, isSpace]⟩
  headers := []

/-- What stands around the authority of a tunnel request is left out, and `do_verb` is
itself a method: both requests get their connection. -/
theorem loose_requests_connect :
    .tcpConnect (latin "h", 443) ∈
      (final (handle calm) (arrives [latin "CONNECT user@h:443/x?y#z HTTP/1.1\r\n\r\n"])).trace ∧
    .tcpConnect (latin "h", 80) ∈
      (final (handle calm) (arrives [latin "verb http://h/ HTTP/1.1\r\n\r\n"])).trace ∧
    ¬ ∀ env r, Screened env r := by
  refine ⟨by decide +kernel, by decide +kernel, fun all => ?_⟩
  have accepted : authorityAddress looseTunnel.path.1 443 = .ok (latin "h", 443) := by decide +kernel
  have inside := ((screened_connect calm rfl).mp (all calm looseTunnel) _ accepted).1
  exact (inside 64 (by decide)).2 rfl

end HttpSocksProxy.Http
