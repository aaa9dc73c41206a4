import HttpSocksProxy.Foundation.ByteStream
import HttpSocksProxy.Http.Request
import HttpSocksProxy.Http.Url

/-! What `do_verb` makes of a request: the framing and the fields it forwards, the
requests it accepts and the head it writes upstream. -/
namespace HttpSocksProxy.Http
open ByteStream (bind_ok)
open MessageHead hiding line

/-- `headers.get_all`, with no values when the field is missing. -/
def getAll (name : Text) (headers : List Field) : List Text :=
  (headers.filter fun f => lower f.name = name).map Field.value

def connection : Text := latin "connection"
def contentLength : Text := latin "content-length"
def transferEncoding : Text := latin "transfer-encoding"
def host : Text := latin "host"
def chunked : Text := latin "chunked"

/-- The elements of comma-separated values. -/
def elements (values : List Text) : List Text := values.flatMap fun v => (v.splitOn 44).map strip

/-- The lower-case names that the `Connection` fields nominate. -/
def connectionTokens (headers : List Field) : List Text :=
  ((elements (getAll connection headers)).filter (· ≠ [])).map lower

inductive Framing where
  | none
  | length (n : Nat)
  | chunked (codings : Text)
  deriving DecidableEq, Repr

/-- `_HTTP_TOKEN` -/
def isToken (name : Text) : Bool :=
  name ≠ [] && name.all fun b => isAlpha b || isAsciiDigit b || b ∈ latin "!#$%&'*+.^_`|~-"

/-- The name of a transfer coding. -/
def coding (item : Text) : Except Text Text :=
  let name := lower (strip (partition 59 item).1)
  if item = [] then .error (latin "empty transfer coding")
  else if !isToken name then .error (latin "malformed transfer coding")
  else if name = chunked ∧ 59 ∈ item then
    .error (latin "chunked transfer coding cannot have parameters")
  else .ok name

def lengthOf (item : Text) : Except Text Nat :=
  if isdigit item then int item else .error (latin "malformed Content-Length")

def transferFraming (values : List Text) : Except Text Framing := do
  let names ← (elements values).mapM coding
  if names.getLast? = some chunked ∧ names.count chunked = 1 then
    return .chunked ((latin ", ").intercalate (elements values))
  else throw (latin "final transfer coding must be chunked")

def lengthFraming (values : List Text) : Except Text Framing := do
  let lengths ← (elements values).mapM lengthOf
  match lengths with
  | [] => throw (latin "conflicting Content-Length values")
  | n :: rest =>
    if rest.all (· = n) then return .length n
    else throw (latin "conflicting Content-Length values")

/-- `_validated_framing`. -/
def validatedFraming (headers : List Field) : Except Text Framing :=
  let tokens := connectionTokens headers
  let transferValues := getAll transferEncoding headers
  let lengthValues := getAll contentLength headers
  if contentLength ∈ tokens ∨ transferEncoding ∈ tokens then
    .error (latin "Connection nominates an HTTP framing field")
  else if transferValues ≠ [] ∧ lengthValues ≠ [] then
    .error (latin "both Transfer-Encoding and Content-Length are present")
  else if transferValues ≠ [] then transferFraming transferValues
  else if lengthValues ≠ [] then lengthFraming lengthValues
  else .ok .none

/-- The names `_forward_headers` always leaves out. -/
def alwaysBlocked : List Text :=
  ["connection", "proxy-connection", "proxy-authorization", "proxy-authenticate", "keep-alive",
    "te", "trailer", "upgrade", "host", "content-length", "transfer-encoding"].map latin

/-- `_forward_headers`. -/
def forwardHeaders (headers : List Field) : List Field :=
  headers.filter fun f => lower f.name ∉ alwaysBlocked ++ connectionTokens headers

/-- Every `Host` field names the address of the target. -/
def hostsAgree (address : Authority) (headers : List Field) : Except Text Unit :=
  (getAll host headers).forM fun value => do
    let named ← authorityAddress (strip value) 80
    if named = address then return () else throw (latin "Host does not match absolute request target")

/-- A request that `do_verb` accepts, with what it finds in it. -/
structure Accepted (r : Request) where
  target : SplitResult
  address : Authority
  framing : Framing
  split : urlsplit r.path.1 = .ok target
  http : target.scheme = latin "http"
  clean : target.fragment = [] ∧ target.hasUsername = false
  named : target.hostname = some address.1
  ported : target.portOr 80 = .ok address.2
  agreed : hostsAgree address r.headers = .ok ()
  framed : validatedFraming r.headers = .ok framing

/-- How `do_verb` refuses a request: with a reply, or by a `ValueError`. -/
inductive Refusal where
  | reply (r : Reply)
  | valueError (text : Text)
  deriving DecidableEq, Repr

def badRequest (message : Text) : Refusal := .reply { status := 400, message }

/-- `do_verb` up to `tcp_connect`. -/
def accept (r : Request) : Except Refusal (Accepted r) :=
  match split : urlsplit r.path.1 with
  | .error text => .error (.valueError text)
  | .ok target =>
    if http : target.scheme = latin "http" then
      if clean : target.fragment = [] ∧ target.hasUsername = false then
        match named : target.hostname with
        | none => .error (badRequest (latin "bad url " ++ r.path.1))
        | some name =>
          match ported : target.portOr 80 with
          | .error text => .error (badRequest (latin "bad url port: " ++ text))
          | .ok port =>
            match agreed : hostsAgree (name, port) r.headers, framed : validatedFraming r.headers with
            | .error text, _ => .error (badRequest (latin "invalid HTTP request: " ++ text))
            | _, .error text => .error (badRequest (latin "invalid HTTP request: " ++ text))
            | .ok (), .ok framing =>
              .ok ⟨target, (name, port), framing, split, http, clean, named, ported, agreed, framed⟩
      else .error (badRequest (latin "bad url " ++ r.path.1))
    else if target.scheme = latin "https" then
      .error (badRequest (latin "absolute HTTPS requests require CONNECT"))
    else .error (badRequest (latin "bad scheme " ++ target.scheme))

def crlf : List UInt8 := [13, 10]

def Framing.bytes : Framing → List UInt8
  | chunked codings => utf8 (latin "Transfer-Encoding: " ++ codings) ++ crlf
  | length n => latin "Content-Length: " ++ decimal n ++ crlf
  | none => []

namespace Accepted
variable {r : Request} (a : Accepted r)

/-- The path and query written upstream. -/
def pathQuery : Text :=
  (if a.target.path = [] then [47] else a.target.path) ++
    if a.target.query = [] then [] else 63 :: a.target.query

/-- The value of the `Host` field written upstream. -/
def hostValue : Text :=
  let name := a.address.1
  (if 58 ∈ name ∧ name.head? ≠ some 91 then [91] ++ name ++ [93] else name) ++
    if a.address.2 = 80 then [] else 58 :: decimal a.address.2.toNat

/-- The head that `do_verb` writes upstream. -/
def headBytes : List UInt8 :=
  utf8 (r.command.1 ++ [32] ++ a.pathQuery ++ [32] ++ r.version.1) ++ crlf ++
    (utf8 (latin "Host: " ++ a.hostValue) ++ crlf ++
      ((forwardHeaders r.headers).flatMap fun f => utf8 (f.name ++ [58, 32] ++ f.value) ++ crlf)) ++
    a.framing.bytes ++ (latin "Connection: close" ++ crlf ++ crlf)

end Accepted

/-- An element is stripped, has no comma and stands in one of the values. -/
theorem mem_elements (member : item ∈ elements values) :
    ∃ v ∈ values, ∃ piece, piece <:+: v ∧ 44 ∉ piece ∧ item = strip piece := by
  obtain ⟨v, inside, made⟩ := List.mem_flatMap.mp member
  obtain ⟨piece, split, rfl⟩ := List.mem_map.mp made
  obtain ⟨plain, stands⟩ := splitOnP_mem (· == 44) v piece split
  exact ⟨v, inside, piece, stands, fun comma => by simpa using plain 44 comma, rfl⟩

theorem mapM_getLast {items : List A} {f : A → Except E B} (mapped : items.mapM f = .ok ys)
    (last : ys.getLast? = some y) : ∃ before x, items = before ++ [x] ∧ f x = .ok y := by
  rcases items.eq_nil_or_concat with rfl | ⟨before, x, rfl⟩
  · obtain rfl : [] = ys := by simpa [pure, Except.pure] using mapped
    simp at last
  · refine ⟨before, x, List.concat_eq_append, ?_⟩
    rw [List.concat_eq_append, List.mapM_append, List.mapM_cons, List.mapM_nil] at mapped
    obtain ⟨zs, _, mapped⟩ := bind_ok.mp mapped
    obtain ⟨ws, single, mapped⟩ := bind_ok.mp mapped
    obtain ⟨z, found, single⟩ := bind_ok.mp single
    cases single
    cases mapped
    rw [List.getLast?_concat] at last
    rw [found, Option.some.inj last]

theorem coding_chunked (known : coding item = .ok chunked) : lower (strip item) = chunked := by
  simp only [coding] at known
  split at known
  · cases known
  split at known
  · cases known
  split at known
  · cases known
  case isFalse plain =>
    have name := Except.ok.inj known
    have bare : 59 ∉ item := fun inside => plain ⟨name, inside⟩
    rwa [partition_none bare] at name

theorem transferFraming_ok (valid : transferFraming values = .ok framing) :
    framing = .chunked ((latin ", ").intercalate (elements values)) ∧
      ∃ before last, elements values = before ++ [last] ∧ lower (strip last) = chunked := by
  obtain ⟨names, mapped, valid⟩ := bind_ok.mp valid
  split at valid
  case isTrue final =>
    obtain ⟨before, last, items, named⟩ := mapM_getLast mapped final.1
    exact ⟨(Except.ok.inj valid).symm, before, last, items, coding_chunked named⟩
  case isFalse => cases valid

theorem lengthFraming_ok (valid : lengthFraming values = .ok framing) : ∃ n, framing = .length n := by
  obtain ⟨lengths, _, valid⟩ := bind_ok.mp valid
  split at valid
  · cases valid
  · split at valid
    · exact ⟨_, (Except.ok.inj valid).symm⟩
    · cases valid

/-- The codings of a chunked request are its elements, and the last one is `chunked`. -/
theorem framing_chunked (valid : validatedFraming headers = .ok (.chunked codings)) :
    codings = (latin ", ").intercalate (elements (getAll transferEncoding headers)) ∧
      ∃ before last, elements (getAll transferEncoding headers) = before ++ [last] ∧
        lower (strip last) = chunked := by
  simp only [validatedFraming] at valid
  split at valid
  · cases valid
  split at valid
  · cases valid
  split at valid
  · obtain ⟨same, final⟩ := transferFraming_ok valid
    exact ⟨Framing.chunked.inj same, final⟩
  split at valid
  · obtain ⟨n, other⟩ := lengthFraming_ok valid
    cases other
  · cases valid

/-- A request is accepted in one way only. -/
theorem accept_complete (a : Accepted r) : accept r = .ok a := by
  obtain ⟨target, ⟨name, port⟩, framing, split, http, clean, named, ported, agreed, framed⟩ := a
  unfold accept
  split
  case h_1 text failed => simp [split] at failed
  case h_2 target' split' =>
    obtain rfl : target = target' := by simpa [split] using split'
    rw [dif_pos http, dif_pos clean]
    split
    case h_1 missing => simp [named] at missing
    case h_2 name' named' =>
      obtain rfl : name = name' := by simpa [named] using named'
      split
      case h_1 text failed => simp [ported] at failed
      case h_2 port' ported' =>
        obtain rfl : port = port' := by simpa [ported] using ported'
        split
        case h_1 failed => simp [agreed] at failed
        case h_2 failed _ => simp [framed] at failed
        case h_3 framing' _ framed' =>
          obtain rfl : framing = framing' := by simpa [framed] using framed'
          rfl

end HttpSocksProxy.Http
