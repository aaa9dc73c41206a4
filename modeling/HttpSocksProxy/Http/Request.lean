import HttpSocksProxy.Http.Headers

/-! `BaseHTTPRequestHandler.parse_request`: the request line and the header fields
of a request. -/
namespace HttpSocksProxy.Http
open MessageHead hiding line

structure Request where
  command : Word
  path : Word
  version : Word
  headers : List Field

/-- `get_content_maintype` is `multipart` or `message`: the email parser reads the
parameters and the body of such a section too. -/
def isComposite (headers : List Field) : Bool :=
  match headers.find? (lower ·.name = latin "content-type") with
  | none => false
  | some f =>
    match (lower (strip (f.value.takeWhile (· ≠ 59)))).splitOn 47 with
    | [maintype, _] => maintype = latin "multipart" ∨ maintype = latin "message"
    | _ => false

/-- The version a request line names; only versions before 2.0 are served. -/
def checkVersion (version : Text) : Except Reply Unit :=
  let bad : Reply := { status := 400, message := latin "Bad request version (" ++ repr version ++ latin ")" }
  let base := version.drop 5
  if (latin "HTTP/").isPrefixOf version then
    match base.splitOn 46 with
    | [major, minor] =>
      if isdigit major ∧ isdigit minor ∧ major.length ≤ 10 ∧ minor.length ≤ 10 then
        match int major, int minor with
        | .ok n, .ok _ =>
          if 2 ≤ n then
            .error { status := 505, message := latin "Invalid HTTP version (" ++ base ++ latin ")" }
          else .ok ()
        | _, _ => .error bad
      else .error bad
    | _ => .error bad
  else .error bad

/-- Leading slashes of a path count as one. -/
def singleSlash (path : Word) : Word :=
  if path.1.take 2 = [47, 47] then
    ⟨47 :: path.1.dropWhile (· = 47), by
      intro b member
      rcases List.mem_cons.mp member with rfl | later
      · rfl
      · exact path.2 b ((List.dropWhile_sublist _).subset later)⟩
  else path

def http09 : Word := ⟨latin "HTTP/0.9", by simp [latin, isSpace]⟩

/-- `parse_request` after `handle` has read the request line and the header
section; `none` is a refusal without a reply. -/
def parseRequest (raw block : List UInt8) : Except (Option Reply) Request :=
  let line := raw.rdropWhile isBreak
  let badSyntax : Reply :=
    { status := 400, message := latin "Bad request syntax (" ++ repr line ++ latin ")" }
  match words line with
  | [] => .error none
  | [_] => .error badSyntax
  | [command, path] =>
    if command.1 = latin "GET" then finish command path http09
    else .error <| some { status := 400, message := latin "Bad HTTP/0.9 request type (" ++ repr command.1 ++ latin ")" }
  | [command, path, version] => do
    (checkVersion version.1).mapError some
    finish command path version
  | _ :: _ :: _ :: more => do
    (checkVersion (more.getLast?.elim [] Subtype.val)).mapError some
    .error badSyntax
where
  finish (command path version : Word) : Except (Option Reply) Request :=
    ((parseHeaders block).mapError some).map fun headers =>
      { command, path := singleSlash path, version, headers }

end HttpSocksProxy.Http
