import HttpSocksProxy.Http.Frame
import HttpSocksProxy.Server.Relay

/-! One connection of `AsyncHTTPProxyHandler`: the request, the relay it may lead
to, and `handle` from the end of the relay on. Every byte for the client has an
author: an error response, the 200 head or the upstream. -/
namespace HttpSocksProxy.Http
open ByteStream Effect InetText MessageHead Transition

/-- What the handler takes from the library, the clock and the failed connect:
`errorPage` is the body of an error response. -/
structure World where
  env : Env
  gatherEager : Bool
  server : Text
  date : Text
  errorPage : Nat → Str → Option Text → List UInt8
  reason : Str

/-- `request_version` and `command` after `parse_request` has seen a request line. -/
structure Spoken where
  version : Text
  command : Option Text
  deriving DecidableEq, Repr

/-- The version is `HTTP/0.9` until the request line names another one. -/
def spoken (raw : List UInt8) : Spoken :=
  let named (version : Text) (command : Option Text) : Spoken :=
    match checkVersion version with
    | .ok _ => ⟨version, command⟩
    | .error _ => ⟨http09.1, none⟩
  match words (raw.rdropWhile isBreak) with
  | [command, _] => ⟨http09.1, if command.1 = latin "GET" then some command.1 else none⟩
  | [command, _, version] => named version.1 (some command.1)
  | _ :: _ :: _ :: more => named (more.getLast?.elim [] Subtype.val) none
  | _ => ⟨http09.1, none⟩

/-- `str.encode("latin-1", "strict")`. -/
def latin1 (s : Str) : Option (List UInt8) :=
  if s.all (·.toNat < 256) then some (s.map (·.toNat.toUInt8)) else none

/-- The `Server` and `Date` fields of `send_response`. -/
def World.fields (w : World) : List UInt8 :=
  latin "Server: " ++ w.server ++ crlf ++ latin "Date: " ++ w.date ++ crlf

/-- `send_error` with a status that has a body: `none` raises a `UnicodeEncodeError`
before anything is written. Under HTTP/0.9 a response has no head. -/
def sendError (w : World) (asked : Spoken) (status : Nat) (message : Str) (explain : Option Text) :
    Option (List UInt8) :=
  let page := w.errorPage status message explain
  let body := if asked.command = some (latin "HEAD") then [] else page
  if asked.version = http09.1 then some body
  else (latin1 message).map fun message =>
    latin "HTTP/1.0 " ++ decimal status ++ [32] ++ message ++ crlf ++ w.fields ++
      latin "Connection: close\r\nContent-Type: text/html;charset=utf-8\r\nContent-Length: " ++
      decimal page.length ++ crlf ++ crlf ++ body

/-- The response that `handle` writes without `send_error`. -/
def tooLarge : List UInt8 :=
  latin "HTTP/1.1 431 Request Header Fields Too Large\r\nConnection: close\r\nContent-Length: 0\r\n\r\n"

/-- The 200 head of `do_CONNECT`. -/
def establishedHead (w : World) : List UInt8 :=
  latin "HTTP/1.0 200 Connection established\r\n" ++ w.fields ++ crlf

/-- `send_response(200)` and `end_headers`, which write nothing under HTTP/0.9. -/
def connectHead (w : World) (version : Text) : List UInt8 :=
  if version = http09.1 then [] else establishedHead w

/-- What is written to the client, by its author. -/
inductive Write where
  | error (response : List UInt8)
  | head (bytes : List UInt8)
  | relayed (bytes : List UInt8)
  deriving DecidableEq, Repr

def Write.bytes : Write → List UInt8
  | error response => response
  | head bytes => bytes
  | relayed bytes => bytes

/-- A status line that has no Latin-1 form makes `handle` answer instead. -/
def errorWrites (w : World) (asked : Spoken) (status : Nat) (message : Str) (explain : Option Text) :
    List Write :=
  match sendError w asked status message explain with
  | some response => [.error response]
  | none => if w.env.closing then [] else [.error tooLarge]

/-- `"Unable to connect to host %s: %s" % (address, e)`. -/
def unreachable (w : World) (address : Authority) : Str :=
  str (latin "Unable to connect to host (" ++ repr address.1 ++ latin ", " ++ decimal address.2.toNat ++
    latin "): ") ++ w.reason

/-- What an action of the handler writes to the client; `response` is what the
relay hands over. -/
def Event.writes (w : World) (asked : Spoken) (response : List UInt8) : Event → List Write
  | .sendError reply => errorWrites w asked reply.status (str reply.message) reply.explain
  | .badGateway address => errorWrites w asked 502 (unreachable w address) none
  | .headersTooLarge => [.error tooLarge]
  | .established => [.head (connectHead w asked.version)]
  | .tcpForward _ | .forwardResponse _ => [.relayed response]
  | .tcpConnect _ | .closeUpstream => []

inductive Stage where
  | requesting
  | responding
  | tunnelling
  | left
  deriving DecidableEq, Repr

/-- `asked` is set by the request; a response is relayed by the inbound
direction alone. -/
structure Exchange where
  session : Session
  stage : Stage
  asked : Spoken
  relay : Relay.State

def Exchange.init (reader : Reader Exn) (drains : Option (Nat × Exn)) : Exchange where
  session := { reader, drains }
  stage := .requesting
  asked := ⟨http09.1, none⟩
  relay := Relay.init

inductive Turn where
  | request
  | response (signal : Relay.Signal)
  | tunnel (event : Relay.Event)
  | cancel
  | leave

def Event.isResponse : Event → Bool
  | .forwardResponse _ => true
  | _ => false

def Event.isTunnel : Event → Bool
  | .tcpForward _ => true
  | _ => false

/-- The relay that the request has led to, if any. -/
def stageAfter (trace : List Event) : Stage :=
  if trace.any Event.isResponse then .responding
  else if trace.any Event.isTunnel then .tunnelling
  else .left

namespace Exchange

/-- How the relay ended. -/
def ended (x : Exchange) : Option (Except Exn Unit) :=
  match x.stage with
  | .responding =>
    match (x.relay.relay .inbound).loop with
    | .returned => some (.ok ())
    | .raised e => some (.error e)
    | .cancelled => some (.error .cancelledError)
    | .reading | .draining | .drainingEof => none
  | .tunnelling =>
    match x.relay.handler with
    | .exited left => some (left.elim (.ok ()) .error)
    | _ => none
  | .requesting | .left => none

/-- The relay takes a step in its stage. -/
def forward (w : World) (x : Exchange) (stage : Stage) (event : Relay.Event) : Option Exchange :=
  if x.stage = stage then
    (Relay.step w.gatherEager x.relay event).map fun relay => { x with relay }
  else none

/-- What the client was sent so far. -/
def writes (w : World) (x : Exchange) : List Write :=
  x.session.trace.flatMap (Event.writes w x.asked (x.relay.relay .inbound).written)

end Exchange

/-- `handle` after the relay: the `finally` clause has closed the upstream. What the
streams of asyncio raise in the relay is no `ValueError`. -/
def afterRelay (env : Env) (relayed : Except Exn Unit) : Handler Unit :=
  tryCatch (outcome relayed) (recover env)

/-- The request is one step; whatever interrupts it at an await is in the session
and in `w.env`. -/
def step (w : World) (x : Exchange) : Turn → Option Exchange
  | .request =>
    if x.stage = .requesting then
      let session := final (handle w.env) x.session
      let asked := spoken (requestLine x.session.reader.content)
      some { x with session, asked, stage := stageAfter session.trace }
    else none
  | .response signal => x.forward w .responding (.relay .inbound signal)
  | .tunnel event => x.forward w .tunnelling event
  | .cancel =>
    if x.stage = .responding then
      let relay := Function.update x.relay.relay .inbound (x.relay.relay .inbound).cancel
      some { x with relay := { x.relay with relay } }
    else none
  | .leave =>
    x.ended.map fun relayed =>
      { x with session := final (afterRelay w.env relayed) x.session, stage := .left }

/-- Nothing, one error response, or the bytes of the upstream, after the head if
the client asked for a tunnel. -/
inductive OneAuthor (head : List UInt8) (connect : Prop) (received : List UInt8) : List Write → Prop where
  | silent : OneAuthor head connect received []
  | error (response : List UInt8) : OneAuthor head connect received [.error response]
  | head : connect → OneAuthor head connect received [.head head]
  | tunnel : connect → bytes <+: received → OneAuthor head connect received [.head head, .relayed bytes]
  | response : ¬ connect → bytes <+: received → OneAuthor head connect received [.relayed bytes]

/-- The action reaches the client. -/
def Event.reaches : Event → Bool
  | .tcpConnect _ | .closeUpstream => false
  | _ => true

def Event.isError : Event → Bool
  | .sendError _ | .badGateway _ | .headersTooLarge => true
  | _ => false

def Session.answers (s : Session) : List Event := s.trace.filter Event.reaches

/-- The actions that may have reached the client, in their order. -/
inductive Answers (connect : Prop) : List Event → Prop where
  | silent : Answers connect []
  | error : event.isError = true → Answers connect [event]
  | head : connect → Answers connect [.established]
  | tunnel : connect → Answers connect [.established, .tcpForward unread]
  | response : ¬ connect → Answers connect [.forwardResponse unread]

section Dispatch
variable {s : Session} {connect : Prop}

/-- Before the client got anything any exception may come; afterwards none that
an `except` clause answers. -/
def Failed (connect : Prop) (e : Raised) (events : List Event) : Prop :=
  events = [] ∨ (∃ other, e = .other other) ∧ Answers connect events

theorem quiet_frame : Frame fun s t => t.trace = s.trace where
  refl _ := rfl
  trans first last := last.trans first
  read _ _ := rfl
  drained _ _ := rfl
  sent _ _ := rfl

theorem relayRequest_quiet (maxHeaderBytes : Nat) (a : Accepted r) :
    Steps (fun s t => t.trace = s.trace) (relayRequest maxHeaderBytes a) := by
  refine quiet_frame.bind (fun _ => rfl) fun _ => quiet_frame.bind quiet_frame.drain fun _ => ?_
  exact quiet_frame.bind (fun _ => rfl) fun _ => quiet_frame.forwardRequestBody _ _

/-- An action that reaches the client stands last among those that did. -/
theorem perform_answers {ok : Unit → Session → Prop} (event : Event)
    (next : ∀ t, t.answers = s.answers ++ (if event.reaches then [event] else []) → ok () t) :
    After (perform event) s ok fail := by
  refine next _ ?_
  rw [Session.answers, List.filter_append, List.filter_singleton, Bool.cond_eq_ite]
  rfl

theorem observe_answers {ok : Unit → Session → Prop} {event : List UInt8 → Event}
    (reaches : (event s.reader.content).reaches = true)
    (next : ∀ t, t.answers = s.answers ++ [event s.reader.content] → ok () t) :
    After (observe event) s ok fail := by
  have performed : After (perform (event s.reader.content)) s ok fail := by
    refine perform_answers _ fun t grown => next t ?_
    rwa [if_pos reaches] at grown
  exact performed

theorem perform_error (empty : s.answers = []) (error : event.isError = true) :
    After (perform event) s (fun _ t => Answers connect t.answers) fail := by
  have reaches : event.reaches = true := by cases event <;> first | rfl | contradiction
  refine perform_answers event fun t grown => ?_
  rw [empty, if_pos reaches] at grown
  exact grown ▸ .error error

/-- The upstream side of the handler does not reach the client. -/
theorem perform_silent {ok : Unit → Session → Prop} (silent : event.reaches = false)
    (next : ∀ t, t.answers = s.answers → ok () t) : After (perform event) s ok fail := by
  refine perform_answers event fun t grown => next t ?_
  rwa [silent, if_neg (by decide), List.append_nil] at grown

theorem recover_answers (env : Env) (failed : Failed connect e s.answers) :
    Ends (recover env e) s fun t => Answers connect t.answers := by
  have answered (event : Event) (error : event.isError = true) (empty : s.answers = []) :
      Ends (if env.closing then pure () else perform event) s fun t => Answers connect t.answers := by
    split
    · apply After.pure_iff.mpr
      exact empty ▸ .silent
    · exact perform_error empty error
  have before : Answers connect s.answers := by
    rcases failed with empty | ⟨_, known⟩
    · exact empty ▸ .silent
    · exact known
  cases e with
  | bodyError text =>
    rcases failed with empty | ⟨⟨_, ⟨⟩⟩, _⟩
    exact answered _ rfl empty
  | valueError =>
    rcases failed with empty | ⟨⟨_, ⟨⟩⟩, _⟩
    exact answered _ rfl empty
  | other e =>
    rw [recover]
    split <;> exact before
  | exhausted => exact before

theorem closingUpstream_answers {x : Handler Unit} {P : List Event → Prop}
    {Q : Raised → List Event → Prop} (inner : After x s (fun _ t => P t.answers) fun e t => Q e t.answers) :
    After (closingUpstream x) s (fun _ t => P t.answers) fun e t => Q e t.answers := by
  apply After.bind_iff.mpr
  apply After.tryCatch_iff.mpr
  refine inner.mono (fun _ t holds => ?_) fun e t holds => ?_
  · refine perform_silent rfl fun u same => ?_
    rwa [same]
  · apply After.bind_iff.mpr
    refine perform_silent rfl fun u same => ?_
    apply After.throw_iff.mpr
    rwa [same]

theorem connectFailed_answers (empty : s.answers = []) (address : Authority) (e : Exn) :
    After (connectFailed address e) s (fun _ t => Answers connect t.answers)
      fun e t => Failed connect e t.answers := by
  simp only [connectFailed]
  split
  · exact .inl empty
  · exact perform_error empty rfl

theorem doConnect_answers (env : Env) (asked : connect) (empty : s.answers = []) :
    After (doConnect env r) s (fun _ t => Answers connect t.answers)
      fun e t => Failed connect e t.answers := by
  simp only [doConnect]
  split
  · exact perform_error empty rfl
  apply After.bind_iff.mpr
  refine perform_silent rfl fun t same => ?_
  have silent : t.answers = [] := same.trans empty
  split
  · exact connectFailed_answers silent _ _
  apply closingUpstream_answers (P := Answers connect) (Q := Failed connect)
  apply After.bind_iff.mpr
  refine perform_answers _ fun u grown => ?_
  have established : u.answers = [.established] := by rw [grown, silent]; rfl
  cases env.established with
  | error e =>
    refine .inr ⟨⟨e, rfl⟩, ?_⟩
    rw [established]
    exact .head asked
  | ok _ =>
    apply After.bind_iff.mpr
    apply After.pure_iff.mpr
    refine observe_answers rfl fun v grown => ?_
    rw [grown, established]
    exact .tunnel asked

theorem doVerb_answers (env : Env) (other : ¬ connect) (empty : s.answers = []) :
    After (doVerb env r) s (fun _ t => Answers connect t.answers)
      fun e t => Failed connect e t.answers := by
  simp only [doVerb]
  split
  · exact perform_error empty rfl
  · exact .inl empty
  apply After.bind_iff.mpr
  refine perform_silent rfl fun t same => ?_
  have silent : t.answers = [] := same.trans empty
  split
  · exact connectFailed_answers silent _ _
  apply closingUpstream_answers (P := Answers connect) (Q := Failed connect)
  have quiet {t u : Session} (same : u.trace = t.trace) (before : t.answers = []) : u.answers = [] := by
    rw [Session.answers, same]
    exact before
  apply After.bind_iff.mpr
  refine (relayRequest_quiet _ _ t).mono (fun _ u same => ?_) fun _ u same => .inl (quiet same silent)
  have before := quiet same silent
  apply After.bind_iff.mpr
  refine (quiet_frame.writeEof env u).mono (fun _ v same => ?_) fun _ v same => .inl (quiet same before)
  refine observe_answers rfl fun w grown => ?_
  rw [grown, quiet same before]
  exact .response other

/-- Only CONNECT asks for a tunnel. -/
theorem dispatch_answers (env : Env) (tunnel : connect ↔ r.command.1 = latin "CONNECT")
    (empty : s.answers = []) :
    After (dispatch env r) s (fun _ t => Answers connect t.answers)
      fun e t => Failed connect e t.answers := by
  simp only [dispatch]
  split
  case isTrue named => exact doConnect_answers env (tunnel.mpr named) empty
  case isFalse other =>
    split
    · exact doVerb_answers env (mt tunnel.mp other) empty
    · exact perform_error empty rfl

theorem finish_command (finished : parseRequest.finish headers command path version = .ok r) :
    r.command = command := by
  simp only [parseRequest.finish] at finished
  cases parsed : parseHeaders headers with
  | error reply =>
    rw [parsed] at finished
    cases finished
  | ok fields =>
    rw [parsed] at finished
    cases finished
    rfl

theorem spoken_request (parsed : parseRequest raw headers = .ok r) :
    (spoken raw).command = some r.command.1 := by
  simp only [parseRequest] at parsed
  split at parsed
  case h_1 | h_2 => cases parsed
  case h_3 command path split =>
    split at parsed
    case isTrue get => simp [spoken, split, get, finish_command parsed]
    case isFalse => cases parsed
  case h_4 command path version split =>
    cases checked : checkVersion version.1 with
    | error reply =>
      rw [checked] at parsed
      cases parsed
    | ok _ =>
      rw [checked] at parsed
      simp [spoken, split, checked, finish_command parsed]
  case h_5 more _ split =>
    cases checked : checkVersion (more.getLast?.elim [] Subtype.val) with
    | error _ | ok _ =>
      rw [checked] at parsed
      cases parsed

theorem handleRequest_answers (env : Env) (empty : s.answers = [])
    (tunnel : connect ↔ (spoken (requestLine s.reader.content)).command = some (latin "CONNECT")) :
    After (handleRequest env) s (fun _ t => Answers connect t.answers)
      fun e t => Failed connect e t.answers := by
  have quiet {t : Session} (read : OnlyRead s t) : t.answers = [] := by
    obtain ⟨reader, rfl⟩ := read
    exact empty
  apply handleRequest_after
  · intro t read
    exact quiet read ▸ .silent
  · exact fun _ t read => .inl (quiet read)
  · exact fun t read => perform_error (quiet read) rfl
  · exact fun t _ reply read _ => perform_error (quiet read) rfl
  · intro t headers r read parsed
    apply dispatch_answers env _ (quiet read)
    rw [tunnel, spoken_request parsed, Option.some.injEq]

theorem handle_answers (env : Env) (empty : s.answers = [])
    (tunnel : connect ↔ (spoken (requestLine s.reader.content)).command = some (latin "CONNECT")) :
    Ends (handle env) s fun t => Answers connect t.answers := by
  apply After.tryCatch_iff.mpr
  exact (handleRequest_answers env empty tunnel).mono (fun _ _ answers => answers)
    fun e t failed => recover_answers env failed

end Dispatch

/-- The signal that a direction of the relay takes. -/
def Turn.signal : Turn → Option (Relay.Side × Relay.Signal)
  | .response signal => some (.inbound, signal)
  | .tunnel (.relay side signal) => some (side, signal)
  | _ => none

section Runs
variable {w : World} {x y : Exchange}

/-- What one turn does: the request, a step of the relay or the end of it. -/
inductive Moves (w : World) (x : Exchange) : Turn → Exchange → Prop where
  | requested : x.stage = .requesting → t = final (handle w.env) x.session →
      Moves w x .request { x with
        session := t
        asked := spoken (requestLine x.session.reader.content)
        stage := stageAfter t.trace }
  | relayed : x.stage = .responding ∨ x.stage = .tunnelling →
      (∀ side, (∃ signal, turn.signal = some (side, signal) ∧
          (x.relay.relay side).step signal = some (relay.relay side)) ∨
        relay.relay side = x.relay.relay side ∨ relay.relay side = (x.relay.relay side).cancel) →
      Moves w x turn { x with relay }
  | leaves : t.trace = x.session.trace → t.upstream = x.session.upstream →
      t.outbound = x.session.outbound → Moves w x .leave { x with session := t, stage := .left }

theorem forward_moves (forwarded : x.forward w stage event = some y)
    (busy : stage = .responding ∨ stage = .tunnelling)
    (signals : ∀ side signal, event = .relay side signal → turn.signal = some (side, signal)) :
    Moves w x turn y := by
  simp only [Exchange.forward, Option.ite_none_right_eq_some, Option.map_eq_some_iff] at forwarded
  obtain ⟨rfl, relay, stepped, rfl⟩ := forwarded
  refine .relayed busy fun side => ?_
  exact (Relay.moves_direction (Relay.step_moves stepped) side).imp_left
    fun ⟨signal, same, moved⟩ => ⟨signal, signals side signal same, moved⟩

/-- Nothing that the relay raises is answered by `handle`. -/
theorem afterRelay_silent (env : Env) (relayed : Except Exn Unit) (s : Session) :
    Ends (afterRelay env relayed) s fun t => t = s := by
  apply After.tryCatch_iff.mpr
  cases relayed with
  | ok _ => exact rfl
  | error e =>
    apply After.throw_iff.mpr
    simp only [recover]
    split <;> exact rfl

theorem step_moves (stepped : step w x turn = some y) : Moves w x turn y := by
  cases turn with
  | request =>
    simp only [step, Option.ite_none_right_eq_some, Option.some.injEq] at stepped
    obtain ⟨fresh, rfl⟩ := stepped
    exact .requested fresh rfl
  | response signal =>
    refine forward_moves stepped (.inl rfl) fun side signal same => ?_
    cases same
    rfl
  | tunnel event =>
    refine forward_moves stepped (.inr rfl) fun side signal same => ?_
    cases same
    rfl
  | cancel =>
    simp only [step, Option.ite_none_right_eq_some, Option.some.injEq] at stepped
    obtain ⟨busy, rfl⟩ := stepped
    refine .relayed (.inl busy) fun side => .inr ?_
    cases side with
    | inbound => exact .inr (by simp)
    | outbound => exact .inl (by simp)
  | leave =>
    obtain ⟨relayed, _, rfl⟩ := Option.map_eq_some_iff.mp stepped
    have same := (afterRelay_silent w.env relayed x.session).final
    exact .leaves (congrArg Session.trace same) (congrArg Session.upstream same)
      (congrArg Session.outbound same)

/-- What holds of every reachable exchange. -/
structure Sound (x : Exchange) : Prop where
  fresh : x.stage = .requesting → x.session.answers = []
  answers : Answers (x.asked.command = some (latin "CONNECT")) x.session.answers
  faithful : ∀ side, (x.relay.relay side).Faithful

theorem sound_init (reader : Reader Exn) (drains : Option (Nat × Exn)) : Sound (.init reader drains) where
  fresh _ := rfl
  answers := .silent
  faithful side := Relay.inv_init.faithful side

theorem stageAfter_started (trace : List Event) : stageAfter trace ≠ .requesting := by
  simp only [stageAfter]
  split
  · decide
  split <;> decide

theorem sound_moves (sound : Sound x) (moved : Moves w x turn y) : Sound y := by
  cases moved with
  | requested fresh same =>
    refine ⟨fun waiting => absurd waiting (stageAfter_started _), ?_, sound.faithful⟩
    exact same ▸ (handle_answers w.env (sound.fresh fresh) Iff.rfl).final
  | relayed busy sides =>
    refine ⟨sound.fresh, sound.answers, fun side => ?_⟩
    rcases sides side with ⟨signal, _, stepped⟩ | same | cancelled
    · exact Relay.Direction.faithful_step (sound.faithful side) stepped
    · exact same ▸ sound.faithful side
    · exact cancelled ▸ Relay.Direction.faithful_cancel (sound.faithful side)
  | leaves same _ _ =>
    refine ⟨nofun, ?_, sound.faithful⟩
    rw [Session.answers, same]
    exact sound.answers

theorem sound_run (run : Run (byStep (step w)) (.init reader drains) past x) : Sound x :=
  run.invariant (sound_init reader drains) fun sound stepped => sound_moves sound (step_moves stepped)

theorem writes_answers (w : World) (x : Exchange) : x.writes w =
    x.session.answers.flatMap (Event.writes w x.asked (x.relay.relay .inbound).written) := by
  rw [Exchange.writes, Session.answers]
  induction x.session.trace with
  | nil => rfl
  | cons event trace ih =>
    rw [List.flatMap_cons, List.filter_cons, ih]
    cases event <;> rfl

theorem errorWrites_one : errorWrites w asked status message explain = [] ∨
    ∃ response, errorWrites w asked status message explain = [.error response] := by
  simp only [errorWrites]
  split
  · exact .inr ⟨_, rfl⟩
  split
  · exact .inl rfl
  · exact .inr ⟨_, rfl⟩

theorem error_one (error : event.isError = true) : Event.writes w asked response event = [] ∨
    ∃ answer, Event.writes w asked response event = [.error answer] := by
  cases event with
  | sendError reply => exact errorWrites_one
  | badGateway address => exact errorWrites_one
  | headersTooLarge => exact .inr ⟨_, rfl⟩
  | _ => contradiction

/-- Whatever the client and the upstream send and wherever the connection is
interrupted, the client is sent one error response at most, or else the bytes of
the upstream, after the 200 head if it asked for a tunnel. -/
theorem one_author (run : Run (byStep (step w)) (.init reader drains) past x) :
    OneAuthor (connectHead w x.asked.version) (x.asked.command = some (latin "CONNECT"))
      (x.relay.relay .inbound).received (x.writes w) := by
  have sound := sound_run run
  have received := (sound.faithful .inbound).inOrder
  have answers := sound.answers
  rw [writes_answers]
  generalize x.session.answers = events at answers ⊢
  cases answers with
  | silent => exact .silent
  | error error =>
    rw [List.flatMap_singleton]
    rcases error_one error with none | ⟨response, one⟩
    · exact none ▸ .silent
    · exact one ▸ .error response
  | head asked => exact .head asked
  | tunnel asked => exact .tunnel asked received
  | response other => exact .response other received

end Runs

/-- A world in which the upstream is there. -/
def reachable : World where
  env := ⟨65536, .ok (), .ok (), .ok (), false, fun _ => none⟩
  gatherEager := true
  server := latin "BaseHTTP/0.6"
  date := latin "Thu, 01 Jan 1970 00:00:00 GMT"
  errorPage status _ _ := decimal status
  reason := []

def asks (request : String) : Exchange := .init (Reader.ofPieces [latin request]) none

/-- The upstream answers a request with two bytes. -/
def fetched : List Turn :=
  [.request, .response (.receive [104, 105]), .response (.forward 2), .response (.drained none),
    .response .receiveEof, .response (.readEof .unsupported), .leave]

theorem fetched_relayed : ∃ past x, Run (byStep (step reachable)) (asks "GET http://h/ HTTP/1.0\r\n\r\n") past x ∧
    x.writes reachable = [.relayed [104, 105]] ∧
    OneAuthor (connectHead reachable x.asked.version) (x.asked.command = some (latin "CONNECT"))
      (x.relay.relay .inbound).received (x.writes reachable) := by
  have seen : (replay (step reachable) (asks "GET http://h/ HTTP/1.0\r\n\r\n") fetched).map
      (Exchange.writes reachable) = some [.relayed [104, 105]] := by decide +kernel
  obtain ⟨x, played, written⟩ := Option.map_eq_some_iff.mp seen
  have run := Run.of_replay played
  exact ⟨_, x, run, written, one_author run⟩

/-- The upstream sends two bytes into a tunnel. -/
def tunnelled : List Turn :=
  [.request, .tunnel (.relay .inbound (.receive [104, 105])), .tunnel (.relay .inbound (.forward 2))]

/-- A CONNECT under HTTP/0.9 gets the bytes of the upstream without the 200 head. -/
theorem headless_tunnel :
    ∃ past x, Run (byStep (step reachable)) (asks "CONNECT h:443 HTTP/0.9\r\n\r\n") past x ∧
      x.asked.command = some (latin "CONNECT") ∧
      ¬ OneAuthor (establishedHead reachable) (x.asked.command = some (latin "CONNECT"))
        (x.relay.relay .inbound).received (x.writes reachable) := by
  have seen : (replay (step reachable) (asks "CONNECT h:443 HTTP/0.9\r\n\r\n") tunnelled).map
      (fun x => (x.asked.command, x.writes reachable)) =
        some (some (latin "CONNECT"), [.head [], .relayed [104, 105]]) := by decide +kernel
  obtain ⟨x, played, same⟩ := Option.map_eq_some_iff.mp seen
  obtain ⟨command, written⟩ := Prod.mk.inj same
  refine ⟨_, x, Run.of_replay played, command, fun law => ?_⟩
  rw [written] at law
  generalize head : establishedHead reachable = bytes at law
  cases law
  exact absurd head (by decide)

end HttpSocksProxy.Http
