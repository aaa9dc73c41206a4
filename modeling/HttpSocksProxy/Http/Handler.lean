import HttpSocksProxy.Http.Body

/-! `AsyncHTTPProxyHandler`: reading the request head, `do_verb` and `do_CONNECT`. -/
namespace HttpSocksProxy.Http
open Effect

/-- What the email parser may raise; a `UnicodeError` is a `ValueError` too. -/
inductive EmailError where
  | valueError
  | exception
  deriving DecidableEq, Repr

def EmailError.raised : EmailError → Raised
  | valueError => .valueError
  | exception => .other .exception

/-- What the world answers: how `tcp_connect`, the drain of the client after the
200 head and the end of the upstream request go, and whether the client's writer
is closing where an exception is handled. `composite` is what the email parser
raises where it reads on behind the header fields of a section. -/
structure Env where
  maxHeaderBytes : Nat
  connected : Except Exn Unit
  established : Except Exn Unit
  eofWritten : Except Exn Unit
  closing : Bool
  composite : List UInt8 → Option EmailError

/-- What leaves `parse_request` for a section whose fields have been read. -/
def Env.emailError (env : Env) (block : List UInt8) (r : Request) : Option EmailError :=
  if isComposite r.headers then env.composite block else none

def perform (event : Event) : Handler Unit := modify fun s => { s with trace := s.trace ++ [event] }

def observe (event : List UInt8 → Event) : Handler Unit := modify fun s =>
  { s with trace := s.trace ++ [event s.reader.content] }

def outcome : Except Exn Unit → Handler Unit
  | .ok _ => pure ()
  | .error e => throw (.other e)

/-- `except Exception` around `tcp_connect`. -/
def connectFailed (address : Authority) (e : Exn) : Handler Unit :=
  if e = .cancelledError then throw (.other e) else perform (.badGateway address)

/-- `finally`: the upstream writer is closed either way. -/
def closingUpstream (x : Handler Unit) : Handler Unit := do
  tryCatch x fun e => do
    perform .closeUpstream
    throw e
  perform .closeUpstream

/-- The emitted head and the body of the request go upstream. -/
def relayRequest {r : Request} (maxHeaderBytes : Nat) (a : Accepted r) : Handler Unit := do
  write a.headBytes
  drain
  addOutbound a.headBytes.length
  forwardRequestBody maxHeaderBytes a.framing

/-- `write_eof`, which may fail silently. -/
def writeEof (env : Env) : Handler Unit :=
  tryCatch (outcome env.eofWritten) fun
    | .other e => if e = .attributeError ∨ e.isOSError then pure () else throw (.other e)
    | e => throw e

/-- `do_verb`. -/
def doVerb (env : Env) (r : Request) : Handler Unit :=
  match accept r with
  | .error (.reply reply) => perform (.sendError reply)
  | .error (.valueError _) => throw .valueError
  | .ok a => do
    perform (.tcpConnect a.address)
    match env.connected with
    | .error e => connectFailed a.address e
    | .ok _ => closingUpstream do
      relayRequest env.maxHeaderBytes a
      writeEof env
      observe .forwardResponse

/-- `do_CONNECT`. -/
def doConnect (env : Env) (r : Request) : Handler Unit :=
  match authorityAddress r.path.1 443 with
  | .error text => perform (.sendError { status := 400, message := latin "bad CONNECT target: " ++ text })
  | .ok address => do
    perform (.tcpConnect address)
    match env.connected with
    | .error e => connectFailed address e
    | .ok _ => closingUpstream do
      perform .established
      outcome env.established
      observe .tcpForward

/-- The methods that `do_verb` serves; the last one is `do_verb` itself. -/
def verbs : List Text := ["GET", "HEAD", "POST", "PUT", "DELETE", "OPTIONS", "verb"].map latin

def dispatch (env : Env) (r : Request) : Handler Unit :=
  if r.command.1 = latin "CONNECT" then doConnect env r
  else if r.command.1 ∈ verbs then doVerb env r
  else perform <| .sendError
    { status := 501, message := latin "Unsupported method (" ++ repr r.command.1 ++ latin ")" }

/-- `_readline`. -/
def limitedLine (limit : Nat) : Handler (List UInt8) := do
  let line ← readline
  if limit < line.length then throw .valueError else return line

/-- One line of the header section; the loop ends with the section, or with
nothing when it is too large. -/
def headerStep (maxHeaderBytes : Nat) (headers : List UInt8) :
    Handler (List UInt8 ⊕ Option (List UInt8)) := do
  let line ← limitedLine (min 8192 (maxHeaderBytes + 1))
  if maxHeaderBytes < (headers ++ line).length then return .inr none
  else if isLast line then return .inr (some (headers ++ line))
  else return .inl (headers ++ line)

/-- The `try` block of `handle`. -/
def handleRequest (env : Env) : Handler Unit := do
  let raw ← limitedLine 8192
  if raw = [] then return ()
  else
    match ← readLoop (headerStep env.maxHeaderBytes) [] with
    | none => perform .headersTooLarge
    | some headers =>
      match parseRequest raw headers with
      | .error none => return ()
      | .error (some reply) => perform (.sendError reply)
      | .ok r =>
        match env.emailError headers r with
        | some e => throw e.raised
        | none => dispatch env r

/-- The `except` clauses of `handle`. -/
def recover (env : Env) : Raised → Handler Unit
  | .bodyError text =>
    if env.closing then pure () else perform (.sendError { status := 400, message := text })
  | .valueError => if env.closing then pure () else perform .headersTooLarge
  | .other e => if e = .cancelledError then throw (.other e) else pure ()
  | .exhausted => throw .exhausted

def handle (env : Env) : Handler Unit := tryCatch (handleRequest env) (recover env)

end HttpSocksProxy.Http
