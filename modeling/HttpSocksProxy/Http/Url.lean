import HttpSocksProxy.Http.Text

/-! `urllib.parse.urlsplit` and the host and port of its result, which name the
address of a request target or of a `Host` field. -/
namespace HttpSocksProxy.Http
open InetText

structure SplitResult where
  scheme : Text
  netloc : Text
  path : Text
  query : Text
  fragment : Text
  deriving DecidableEq, Repr

/-- The url without leading control characters and without tabs and line breaks. -/
def cleaned (url : Text) : Text := (url.dropWhile (· ≤ 32)).filter fun b => b ≠ 9 && b ≠ 10 && b ≠ 13

def isAlpha (b : UInt8) : Bool := (65 ≤ b && b ≤ 90) || (97 ≤ b && b ≤ 122)

def isSchemeChar (b : UInt8) : Bool :=
  isAlpha b || isAsciiDigit b || b = 43 || b = 45 || b = 46

def splitScheme (url : Text) : Text × Text :=
  let before := url.takeWhile (· ≠ 58)
  if 58 ∈ url ∧ url.head?.any isAlpha ∧ before.all isSchemeChar then
    (lower before, (url.dropWhile (· ≠ 58)).tail)
  else ([], url)

/-- A byte of the authority: `/`, `?` and `#` end it. -/
def inNetloc (b : UInt8) : Bool := b ≠ 47 && b ≠ 63 && b ≠ 35

def splitNetloc (url : Text) : Text × Text :=
  if url.take 2 = [47, 47] then ((url.drop 2).takeWhile inNetloc, (url.drop 2).dropWhile inNetloc)
  else ([], url)

/-- `ipaddress.IPv6Address` of a text with an optional scope. -/
def isIPv6 (host : Text) : Bool :=
  let (address, scope) := partition 37 host
  (pton6 (str address)).isSome && (37 ∉ host || (scope ≠ [] && 37 ∉ scope))

def isHex (b : UInt8) : Bool := isAsciiDigit b || (65 ≤ b && b ≤ 70) || (97 ≤ b && b ≤ 102)

/-- `v[a-fA-F0-9]+\..+` -/
def isIPvFuture (host : Text) : Bool :=
  match host.tail.takeWhile isHex, host.tail.dropWhile isHex with
  | _ :: _, 46 :: _ :: _ => true
  | _, _ => false

def checkBracketedHost (host : Text) : Except Text Unit :=
  if host.head? = some 118 then
    if isIPvFuture host then .ok () else .error (latin "IPvFuture address is invalid")
  else if (pton4 (str host)).isSome then .error (latin "An IPv4 address cannot be in brackets")
  else if isIPv6 host then .ok ()
  else .error (repr host ++ latin " does not appear to be an IPv4 or IPv6 address")

def checkBrackets (netloc : Text) : Except Text Unit :=
  if 91 ∈ netloc ∧ 93 ∈ netloc then checkBracketedHost (partition 93 (partition 91 netloc).2).1
  else if 91 ∈ netloc ∨ 93 ∈ netloc then .error (latin "Invalid IPv6 URL")
  else .ok ()

def urlParts (url : Text) : SplitResult :=
  let (scheme, rest) := splitScheme (cleaned url)
  let (netloc, rest) := splitNetloc rest
  let (rest, fragment) := partition 35 rest
  let (path, query) := partition 63 rest
  { scheme, netloc, path, query, fragment }

/-- `urlsplit` up to CPython 3.11.9; its test of the authority under NFKC passes every
ISO-8859-1 text. -/
def urlsplit (url : Text) : Except Text SplitResult :=
  (checkBrackets (urlParts url).netloc).map fun _ => urlParts url

namespace SplitResult

/-- `username is not None` -/
def hasUsername (r : SplitResult) : Bool := 64 ∈ r.netloc

/-- The host and the port as they are written. -/
def hostinfo (r : SplitResult) : Text × Text :=
  let info := r.netloc.rtakeWhile (· ≠ 64)
  if 91 ∈ info then
    let (host, after) := partition 93 (partition 91 info).2
    (host, (partition 58 after).2)
  else partition 58 info

/-- The host in lower case, up to a scope. -/
def hostname (r : SplitResult) : Option Text :=
  let host := r.hostinfo.1
  if host = [] then none
  else some (lower (host.takeWhile (· ≠ 37)) ++ host.dropWhile (· ≠ 37))

def port (r : SplitResult) : Except Text (Option UInt16) := do
  let text := r.hostinfo.2
  if text = [] then return none
  else if text.all isAsciiDigit then
    let n ← int text
    if n ≤ 65535 then return some n.toUInt16 else throw (latin "Port out of range 0-65535")
  else throw (latin "Port could not be cast to integer value as " ++ repr text)

/-- `parsed.port or default_port`: port 0 counts as no port. -/
def portOr (r : SplitResult) (default : UInt16) : Except Text UInt16 := do
  match ← r.port with
  | none => return default
  | some port => return if port = 0 then default else port

end SplitResult

abbrev Authority := Text × UInt16

/-- `_authority_address`. -/
def authorityAddress (authority : Text) (default : UInt16) : Except Text Authority := do
  let parsed ← urlsplit ([47, 47] ++ authority)
  match parsed.hostname with
  | none => throw (latin "missing host")
  | some host =>
    let port ← parsed.portOr default
    return (host, port)

theorem urlsplit_ok (split : urlsplit url = .ok r) : r = urlParts url := by
  unfold urlsplit at split
  cases checked : checkBrackets (urlParts url).netloc with
  | error text => simp [checked, Except.map] at split
  | ok _ => simpa [checked, Except.map] using split.symm

theorem partition_sublist (sep : UInt8) (t : Text) :
    (partition sep t).1.Sublist t ∧ (partition sep t).2.Sublist t :=
  ⟨(List.takeWhile_prefix _).sublist, (List.tail_sublist _).trans (List.dropWhile_sublist _)⟩

theorem splitNetloc_sublist (url : Text) :
    (splitNetloc url).1.Sublist url ∧ (splitNetloc url).2.Sublist url := by
  unfold splitNetloc
  split
  · exact ⟨(List.takeWhile_prefix _).sublist.trans (List.drop_sublist 2 url),
      (List.dropWhile_sublist _).trans (List.drop_sublist 2 url)⟩
  · exact ⟨List.nil_sublist url, List.Sublist.refl url⟩

theorem splitScheme_sublist (url : Text) : (splitScheme url).2.Sublist url := by
  simp only [splitScheme]
  split
  · exact (List.tail_sublist _).trans (List.dropWhile_sublist _)
  · exact List.Sublist.refl url

/-- The authority, the path and the query hold bytes of the url only. -/
theorem urlParts_sublist (url : Text) : (urlParts url).netloc.Sublist url ∧
    (urlParts url).path.Sublist url ∧ (urlParts url).query.Sublist url := by
  have clean : (cleaned url).Sublist url := List.filter_sublist.trans (List.dropWhile_sublist _)
  have rest := (splitScheme_sublist (cleaned url)).trans clean
  have parts := splitNetloc_sublist (splitScheme (cleaned url)).2
  have target := (partition_sublist 35 _).1.trans (parts.2.trans rest)
  exact ⟨parts.1.trans rest, (partition_sublist 63 _).1.trans target,
    (partition_sublist 63 _).2.trans target⟩

theorem SplitResult.hostinfo_sublist (r : SplitResult) : r.hostinfo.1.Sublist r.netloc := by
  have info : (r.netloc.rtakeWhile (· ≠ 64)).Sublist r.netloc := (List.rtakeWhile_suffix _ _).sublist
  simp only [hostinfo]
  split
  · exact (partition_sublist 93 _).1.trans ((partition_sublist 91 _).2.trans info)
  · exact (partition_sublist 58 _).1.trans info

/-- A host without white space keeps to that in lower case. -/
theorem SplitResult.hostname_plain {r : SplitResult} (plain : ∀ b ∈ r.netloc, isSpace b = false)
    (named : r.hostname = some name) : ∀ b ∈ name, isSpace b = false := by
  have lowered : ∀ n < 256, isSpace (UInt8.ofNat n) = false →
      isSpace (lowerChar (UInt8.ofNat n)) = false := by decide +kernel
  have host : ∀ b ∈ r.hostinfo.1, isSpace b = false := fun b member =>
    plain b (r.hostinfo_sublist.subset member)
  simp only [hostname] at named
  obtain ⟨_, same⟩ := Option.ite_none_left_eq_some.mp named
  obtain rfl := Option.some.inj same
  intro b member
  rcases List.mem_append.mp member with before | scope
  · obtain ⟨c, inside, rfl⟩ := List.mem_map.mp before
    have small := host c ((List.takeWhile_prefix _).sublist.subset inside)
    simpa using lowered c.toNat c.toNat_lt (by simpa using small)
  · exact host b ((List.dropWhile_sublist _).subset scope)

end HttpSocksProxy.Http
