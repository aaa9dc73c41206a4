import HttpSocksProxy.Http.Screening

/-! Which error responses `handle` answers with: what its 431 stands for, and what
the other statuses do. -/
namespace HttpSocksProxy.Http
open ByteStream Effect

/-- The next line of a body is over the limit of the loop that reads it. -/
def Overrun (maxHeaderBytes : Nat) (stream : List UInt8) : Position → Prop
  | .header => 8192 < (firstLine stream).length
  | .trailers total =>
    maxHeaderBytes < total + (firstLine stream).length ∨ 65536 < (firstLine stream).length
  | .data _ | .cut | .done => False

/-- A size limit is exceeded: on the head of the request, or on the line that the
relay of its body has come to. -/
inductive Oversized (env : Env) (content : List UInt8) : Prop where
  | head : ¬ Fits env.maxHeaderBytes content → Oversized env content
  | body (a : Accepted r) : Parses env content r → r.command.1 ∈ verbs →
      env.connected = .ok () → a.framing = .chunked codings →
      content = requestLine content ++ (sectionLines content).flatten ++ (sent ++ rest) →
      Reached sent position → Overrun env.maxHeaderBytes rest position → Oversized env content

/-- The status that the client is answered with, when `send_error` is asked for one. -/
def errorStatus (w : World) (asked : Spoken) (status : Nat) (message : Str) (explain : Option Text) :
    Option Nat :=
  match sendError w asked status message explain with
  | some _ => some status
  | none => if w.env.closing then none else some 431

/-- The status of the error response that goes with an action of the handler. -/
def Event.status (w : World) (asked : Spoken) : Event → Option Nat
  | .sendError reply => errorStatus w asked reply.status (str reply.message) reply.explain
  | .badGateway address => errorStatus w asked 502 (unreachable w address) none
  | .headersTooLarge => some 431
  | .tcpConnect _ | .established | .tcpForward _ | .forwardResponse _ | .closeUpstream => none

/-- `parse_request` has refused the head with this response. -/
def ParserReply (content : List UInt8) (event : Event) : Prop := ∃ reply, event = .sendError reply ∧
  parseRequest (requestLine content) (sectionLines content).flatten = .error (some reply)

/-- The statuses that may answer a stream: 431 when a limit is exceeded, those of a
malformed request, and 502 for a well-formed one whose connection fails. -/
inductive Fitting (env : Env) (content : List UInt8) : Nat → Prop where
  | oversized : Oversized env content → Fitting env content 431
  | malformed : status ∈ [400, 501, 505] → Fitting env content status
  | unreachable : Parses env content r → r.address.isSome = true → env.connected = .error e →
      Fitting env content 502

/-- Every error response fits the stream, but for those of `parse_request`. -/
def Classified (w : World) (reader : Reader Exn) (drains : Option (Nat × Exn)) : Prop :=
  ∀ event ∈ (final (handle w.env) { reader, drains }).trace, ∀ status,
    event.status w (spoken (requestLine reader.content)) = some status →
    ParserReply reader.content event ∨ Fitting w.env reader.content status

/-- The email parser raises a `ValueError` on a head, behind its fields. -/
structure Unread (env : Env) (reader : Reader Exn) (r : Request) : Prop where
  arrives : Undisturbed reader
  opens : Opens env.maxHeaderBytes reader.content r
  raises : env.emailError (sectionLines reader.content).flatten r = some .valueError

/-- `do_verb` gets a target that `urlsplit` raises on. -/
structure Unsplit (env : Env) (reader : Reader Exn) (r : Request) : Prop where
  arrives : Undisturbed reader
  parses : Parses env reader.content r
  verb : r.command.1 ∈ verbs
  raises : ∃ text, urlsplit r.path.1 = .error text

/-- The connection that a request asks for fails. -/
structure Unconnected (env : Env) (reader : Reader Exn) (r : Request) (address : Authority) : Prop where
  arrives : Undisturbed reader
  parses : Parses env reader.content r
  asked : r.address = some address
  failed : ∃ e, env.connected = .error e ∧ e ≠ .cancelledError

/-- A `ValueError` that has nothing to do with a size limit comes to `handle`: of the
email parser, of `urlsplit`, or of a 502 whose status line has no Latin-1 form. -/
inductive Stray (w : World) (reader : Reader Exn) : Prop where
  | unread : Unread w.env reader r → w.env.closing = false → Stray w reader
  | target : Unsplit w.env reader r → w.env.closing = false → Stray w reader
  | status : Unconnected w.env reader r address →
      (spoken (requestLine reader.content)).version ≠ http09.1 → latin1 (unreachable w address) = none →
      w.env.closing = false → Stray w reader

/-- Why an action stands in the trace, if it is an error response. -/
inductive Cause (env : Env) (reader : Reader Exn) : Event → Prop where
  | silent : event.isError = false → Cause env reader event
  | reply : reply.status ∈ [400, 501] → Cause env reader (.sendError reply)
  | parser : parseRequest (requestLine reader.content) (sectionLines reader.content).flatten =
      .error (some reply) → Cause env reader (.sendError reply)
  | large : Oversized env reader.content → Cause env reader .headersTooLarge
  | unread : Unread env reader r → env.closing = false → Cause env reader .headersTooLarge
  | target : Unsplit env reader r → env.closing = false → Cause env reader .headersTooLarge
  | unreachable : Unconnected env reader r address → Cause env reader (.badGateway address)

def Explained (env : Env) (reader : Reader Exn) (t : Session) : Prop :=
  ∀ event ∈ t.trace, Cause env reader event

/-- What raises, and why, if it is a `ValueError`. -/
structure Unfinished (env : Env) (reader : Reader Exn) (e : Raised) (t : Session) : Prop where
  explained : Explained env reader t
  value : e = .valueError →
    Oversized env reader.content ∨ (∃ r, Unread env reader r) ∨ ∃ r, Unsplit env reader r

theorem Unfinished.other (explained : Explained env reader t) : Unfinished env reader (.other e) t :=
  ⟨explained, nofun⟩

/-- A refusal of `do_verb` is a 400. -/
theorem accept_reply (refused : accept r = .error (.reply reply)) : reply.status = 400 := by
  unfold accept at refused
  repeat' split at refused
  all_goals cases refused <;> rfl

/-- What is decoded from the head goes into a status line. -/
theorem latin1_str (t : Text) : latin1 (str t) = some t := by
  have code (b : UInt8) : (charOf b).toNat = b.toNat := by
    have all : ∀ n < 256, (charOf (UInt8.ofNat n)).toNat = n := by decide +kernel
    have this := all b.toNat b.toNat_lt
    rwa [UInt8.ofNat_toNat] at this
  have small : (str t).all (·.toNat < 256) = true := by
    simp only [str, List.all_map, List.all_eq_true, Function.comp_apply, code, decide_eq_true_eq]
    exact fun b _ => b.toNat_lt
  rw [latin1, if_pos small, str, List.map_map, Option.some.injEq]
  exact List.map_id'' (fun b => by simp [code]) t

theorem status_reply (w : World) (asked : Spoken) (reply : Reply) :
    (Event.sendError reply).status w asked = some reply.status := by
  simp only [Event.status, errorStatus, sendError, latin1_str]
  by_cases old : asked.version = http09.1 <;> simp [old]

/-- A 502 goes out as such, unless its status line has no Latin-1 form. -/
theorem status_gateway (answered : (Event.badGateway address).status w asked = some status) : status = 502 ∨
    asked.version ≠ http09.1 ∧ latin1 (unreachable w address) = none ∧ w.env.closing = false := by
  simp only [Event.status, errorStatus] at answered
  split at answered
  case h_1 =>
    cases answered
    exact .inl rfl
  case h_2 sent =>
    simp only [sendError] at sent
    split at sent
    case isTrue => cases sent
    case isFalse named =>
      split at answered
      case isTrue => cases answered
      case isFalse opened => exact .inr ⟨named, Option.map_eq_none_iff.mp sent, by simpa using opened⟩

theorem status_error {event : Event} (answered : event.status w asked = some status) :
    event.isError = true := by
  cases event with
  | sendError _ | badGateway _ | headersTooLarge => rfl
  | _ => cases answered

section Served
variable {env : Env} {reader : Reader Exn} {r : Request} {s t : Session}

theorem Explained.acted (explained : Explained env reader s) (cause : Cause env reader event) :
    Explained env reader { s with trace := s.trace ++ [event] } := by
  intro other member
  rcases List.mem_append.mp member with before | this
  · exact explained other before
  · exact List.mem_singleton.mp this ▸ cause

theorem Explained.perform (explained : Explained env reader s) (cause : Cause env reader event)
    {fail : Raised → Session → Prop} :
    After (perform event) s (fun _ t => Explained env reader t) fail := explained.acted cause

theorem Explained.same (explained : Explained env reader s) (same : t.trace = s.trace) :
    Explained env reader t := by
  rwa [Explained, same]

theorem closingUpstream_explained {x : Handler Unit}
    (inner : After x s (fun _ t => Explained env reader t) (Unfinished env reader)) :
    After (closingUpstream x) s (fun _ t => Explained env reader t) (Unfinished env reader) := by
  apply After.bind_iff.mpr
  apply After.tryCatch_iff.mpr
  refine inner.mono (fun _ t explained => explained.perform (.silent rfl)) fun e t unfinished => ?_
  apply (unfinished.explained.perform (.silent rfl)).bind
  intro _ u explained
  exact ⟨explained, unfinished.value⟩

/-- The relay of a body raises a `ValueError` for a line that is over its limit. -/
theorem forwardRequestBody_overrun (maxHeaderBytes : Nat) (framing : Framing) (s : Session) :
    After (forwardRequestBody maxHeaderBytes framing) s (fun _ _ => True) fun e _ => e = .valueError →
      ∃ codings sent rest position, framing = .chunked codings ∧ s.reader.content = sent ++ rest ∧
        Reached sent position ∧ Overrun maxHeaderBytes rest position := by
  refine (forwardRequestBody_after maxHeaderBytes framing s).mono (fun _ _ _ => trivial) ?_
  rintro e t ⟨_, sent, reader, unsent, refused⟩ rfl
  rcases refused with refused | ⟨_, _, impossible⟩
  · cases framing with
    | none => exact refused.elim
    | length n =>
      rcases refused.2 with ⟨_, impossible⟩ | ⟨_, _, impossible⟩
      · cases impossible
      · cases impossible
    | chunked codings =>
      obtain ⟨position, _, reached, offence⟩ := refused
      refine ⟨codings, sent, reader.content, position, rfl, unsent.consumed, reached, ?_⟩
      cases offence with
      | headerLong long => exact long
      | trailerLong long => exact long
  · cases impossible

theorem relayRequest_overrun (maxHeaderBytes : Nat) (a : Accepted r) (s : Session) :
    After (relayRequest maxHeaderBytes a) s (fun _ _ => True) fun e _ => e = .valueError →
      ∃ codings sent rest position, a.framing = .chunked codings ∧ s.reader.content = sent ++ rest ∧
        Reached sent position ∧ Overrun maxHeaderBytes rest position := by
  apply After.bind_iff.mpr
  apply After.modify_iff.mpr
  apply After.bind_iff.mpr
  refine (Passed.refl _).drain (fun t _ same => ?_) fun e _ => nofun
  apply After.bind_iff.mpr
  apply After.modify_iff.mpr
  have relayed := forwardRequestBody_overrun maxHeaderBytes a.framing
    { t with outbound := t.outbound + a.headBytes.length }
  simpa only [same] using relayed

theorem writeEof_value (env : Env) (s : Session) :
    After (writeEof env) s (fun _ _ => True) fun e _ => e ≠ .valueError := by
  apply After.tryCatch_iff.mpr
  cases env.eofWritten with
  | ok _ => trivial
  | error e =>
    apply After.throw_iff.mpr
    dsimp only
    split
    · trivial
    · exact nofun

theorem connectFailed_explained (explained : Explained env reader s)
    (cause : e ≠ .cancelledError → Cause env reader (.badGateway address)) :
    After (connectFailed address e) s (fun _ t => Explained env reader t) (Unfinished env reader) := by
  simp only [connectFailed]
  split
  case isTrue => exact .other explained
  case isFalse other => exact explained.perform (cause other)

theorem doConnect_explained (arrives : Undisturbed reader) (parses : Parses env reader.content r)
    (command : r.command.1 = latin "CONNECT") (explained : Explained env reader s) :
    After (doConnect env r) s (fun _ t => Explained env reader t) (Unfinished env reader) := by
  have asked : r.address = (authorityAddress r.path.1 443).toOption := if_pos command
  simp only [doConnect]
  split
  case h_1 text failed => exact explained.perform (.reply (by simp))
  case h_2 address found =>
    apply (explained.perform (.silent rfl)).bind
    intro _ t explained
    split
    case h_1 e failed =>
      refine connectFailed_explained explained fun other => ?_
      exact .unreachable ⟨arrives, parses, by rw [asked, found]; rfl, e, failed, other⟩
    case h_2 =>
      apply closingUpstream_explained
      apply (explained.perform (.silent rfl)).bind
      intro _ u explained
      cases env.established with
      | error e => exact .other explained
      | ok _ =>
        exact explained.acted (.silent rfl)

theorem doVerb_explained (arrives : Undisturbed reader) (parses : Parses env reader.content r)
    (other : r.command.1 ≠ latin "CONNECT") (verb : r.command.1 ∈ verbs) (explained : Explained env reader s)
    (rest : reader.content =
      requestLine reader.content ++ (sectionLines reader.content).flatten ++ s.reader.content) :
    After (doVerb env r) s (fun _ t => Explained env reader t) (Unfinished env reader) := by
  simp only [doVerb]
  split
  case h_1 reply refused => exact explained.perform (.reply (by simp [accept_reply refused]))
  case h_2 text refused =>
    exact ⟨explained, fun _ => .inr (.inr ⟨r, arrives, parses, verb, text, accept_valueError refused⟩)⟩
  case h_3 a accepted =>
    apply After.bind_iff.mpr
    apply After.modify_iff.mpr
    have explained : Explained env reader { s with trace := s.trace ++ [.tcpConnect a.address] } :=
      explained.acted (.silent rfl)
    split
    case h_1 e failed =>
      refine connectFailed_explained explained fun expected => ?_
      have asked : r.address = some a.address := by
        simp [Request.address, other, verb, accepted, Except.toOption]
      exact .unreachable ⟨arrives, parses, asked, e, failed, expected⟩
    case h_2 connected =>
      apply closingUpstream_explained
      apply After.bind_iff.mpr
      refine ((relayRequest_quiet _ a _).and (relayRequest_overrun _ a _)).mono ?_ ?_
      · rintro _ t ⟨same, _⟩
        have explained := explained.same same
        apply After.bind_iff.mpr
        refine ((quiet_frame.writeEof env t).and (writeEof_value env t)).mono ?_ ?_
        · rintro _ u ⟨same, _⟩
          exact (explained.same same).acted (.silent rfl)
        · rintro e u ⟨same, expected⟩
          exact ⟨explained.same same, fun value => absurd value expected⟩
      · rintro e t ⟨same, overrun⟩
        refine ⟨explained.same same, fun value => ?_⟩
        obtain ⟨codings, sent, tail, position, framing, content, reached, exceeds⟩ := overrun value
        have whole : reader.content =
            requestLine reader.content ++ (sectionLines reader.content).flatten ++ (sent ++ tail) :=
          content ▸ rest
        exact .inl (.body a parses verb connected framing whole reached exceeds)

theorem dispatch_explained (arrives : Undisturbed reader) (parses : Parses env reader.content r)
    (explained : Explained env reader s) (rest : reader.content =
      requestLine reader.content ++ (sectionLines reader.content).flatten ++ s.reader.content) :
    After (dispatch env r) s (fun _ t => Explained env reader t) (Unfinished env reader) := by
  simp only [dispatch]
  split
  case isTrue command => exact doConnect_explained arrives parses command explained
  case isFalse other =>
    split
    case isTrue verb => exact doVerb_explained arrives parses other verb explained rest
    case isFalse => exact explained.perform (.reply (by simp))

/-- Every error response has its cause. -/
theorem handle_explained (env : Env) (fresh : s.trace = []) :
    Ends (handle env) s (Explained env s.reader) := by
  have nothing {t : Session} (read : OnlyRead s t) : Explained env s.reader t := by
    obtain ⟨_, rfl⟩ := read
    intro event member
    rw [fresh] at member
    cases member
  have tried : After (handleRequest env) s (fun _ t => Explained env s.reader t) (Unfinished env s.reader) := by
    apply handleRequest_cases
    · exact fun _ t read => nothing read
    · exact fun _ e t read => .other (nothing read)
    · intro large t read
      exact ⟨⟨nothing read, fun _ => .inl (.head large)⟩, (nothing read).perform (.large (.head large))⟩
    · exact fun t reply read refused => (nothing read).perform (.parser refused)
    · intro t r e read arrives opens raises
      refine ⟨nothing read, fun value => .inr (.inl ⟨r, arrives, opens, ?_⟩)⟩
      cases e with
      | valueError => exact raises
      | exception => cases value
    · exact fun t r read arrives parses rest => dispatch_explained arrives parses (nothing read) rest
  apply After.tryCatch_iff.mpr
  refine tried.mono (fun _ _ explained => explained) fun e t unfinished => ?_
  have explained := unfinished.explained
  cases e with
  | bodyError text =>
    simp only [recover]
    split
    · exact explained
    · exact explained.perform (.reply (by simp))
  | valueError =>
    simp only [recover]
    split
    case isTrue => exact explained
    case isFalse opened =>
      rcases unfinished.value rfl with large | ⟨r, unread⟩ | ⟨r, unsplit⟩
      · exact explained.perform (.large large)
      · exact explained.perform (.unread unread (by simpa using opened))
      · exact explained.perform (.target unsplit (by simpa using opened))
  | other e =>
    simp only [recover]
    split <;> exact explained
  | exhausted => exact explained

/-- A head that is all there and a request comes past the email parser, or not. -/
theorem handleRequest_opened {ok : Unit → Session → Prop} {fail : Raised → Session → Prop}
    (arrives : Undisturbed s.reader) (opens : Opens env.maxHeaderBytes s.reader.content r)
    (raised : ∀ t e, env.emailError (sectionLines s.reader.content).flatten r = some e → fail e.raised t)
    (served : ∀ t, OnlyRead s t → Parses env s.reader.content r → After (dispatch env r) t ok fail) :
    After (handleRequest env) s ok fail := by
  apply handleRequest_cases
  · exact fun none => absurd opens (none r)
  · exact fun disturbed => absurd arrives disturbed
  · exact fun large => absurd opens.fits large
  · intro t reply _ refused
    rw [opens.parsed] at refused
    cases refused
  · intro t other e _ _ opens' raises
    obtain rfl := opens.unique opens'
    exact raised t e raises
  · intro t other read _ parses _
    obtain rfl := opens.unique parses.toOpens
    exact served t read parses

/-- A request that `parse_request` returns comes to the handler of its method. -/
theorem handleRequest_served {ok : Unit → Session → Prop} {fail : Raised → Session → Prop}
    (arrives : Undisturbed s.reader) (parses : Parses env s.reader.content r)
    (served : ∀ t, OnlyRead s t → After (dispatch env r) t ok fail) :
    After (handleRequest env) s ok fail := by
  apply handleRequest_opened arrives parses.toOpens
  · intro t e raises
    rw [parses.silent] at raises
    cases raises
  · exact fun t read _ => served t read

theorem Unread.answered (unread : Unread env s.reader r) (opened : env.closing = false) :
    Ends (handle env) s fun t => .headersTooLarge ∈ t.trace := by
  obtain ⟨arrives, opens, raises⟩ := unread
  apply After.tryCatch_iff.mpr
  apply handleRequest_opened arrives opens
  · intro t e raised
    rw [raises] at raised
    cases raised
    rw [EmailError.raised, recover, opened]
    apply After.modify_iff.mpr
    simp
  · intro t _ parses
    have silent := parses.silent
    rw [raises] at silent
    cases silent

theorem Unsplit.answered (unsplit : Unsplit env s.reader r) (opened : env.closing = false) :
    Ends (handle env) s fun t => .headersTooLarge ∈ t.trace := by
  obtain ⟨arrives, parses, verb, text, failed⟩ := unsplit
  have other : r.command.1 ≠ latin "CONNECT" := by
    intro command
    rw [command] at verb
    revert verb
    decide
  have refused : accept r = .error (.valueError text) := by
    unfold accept
    split
    case h_1 raised => rw [failed] at raised; cases raised; rfl
    case h_2 split_ => rw [failed] at split_; cases split_
  apply After.tryCatch_iff.mpr
  apply handleRequest_served arrives parses
  intro t _
  rw [dispatch, if_neg other, if_pos verb, doVerb, refused]
  apply After.throw_iff.mpr
  rw [recover, opened]
  apply After.modify_iff.mpr
  simp

theorem dispatch_unconnected (asked : r.address = some address) (failed : env.connected = .error e) :
    dispatch env r = perform (.tcpConnect address) >>= fun _ => connectFailed address e := by
  simp only [Request.address] at asked
  split at asked
  case isTrue command =>
    rw [dispatch, if_pos command, doConnect]
    cases found : authorityAddress r.path.1 443 with
    | error text =>
      rw [found] at asked
      cases asked
    | ok named =>
      rw [found] at asked
      cases asked
      simp only [failed]
  case isFalse other =>
    split at asked
    case isTrue verb =>
      rw [dispatch, if_neg other, if_pos verb, doVerb]
      cases accepted : accept r with
      | error refusal =>
        rw [accepted] at asked
        cases asked
      | ok a =>
        rw [accepted] at asked
        cases asked
        simp only [failed]
    case isFalse => cases asked

theorem Unconnected.answered (unconnected : Unconnected env s.reader r address) :
    Ends (handle env) s fun t => .badGateway address ∈ t.trace := by
  obtain ⟨arrives, parses, asked, e, failed, expected⟩ := unconnected
  apply After.tryCatch_iff.mpr
  apply handleRequest_served arrives parses
  intro t _
  rw [dispatch_unconnected asked failed, connectFailed, if_neg expected]
  apply After.bind_iff.mpr
  apply After.modify_iff.mpr
  apply After.modify_iff.mpr
  simp

end Served

/-- The head of a request is not over a limit; its body is if it comes to be relayed. -/
theorem Oversized.relayed (large : Oversized env content) (opens : Opens env.maxHeaderBytes content r) :
    Parses env content r ∧ env.connected = .ok () ∧ ∃ a : Accepted r, urlsplit r.path.1 = .ok a.target := by
  cases large with
  | head exceeds => exact absurd opens.fits exceeds
  | body a parses _ connected =>
    obtain rfl := opens.unique parses.toOpens
    exact ⟨parses, connected, a, a.split⟩

/-- Only a limit that is exceeded makes a 431 fit. -/
theorem Fitting.large (fitting : Fitting env content 431) : Oversized env content := by
  cases fitting with
  | oversized large => exact large
  | malformed member => simp at member

/-- What a stray `ValueError` is answered with. -/
theorem Stray.answered (stray : Stray w reader) (drains : Option (Nat × Exn)) :
    ∃ event ∈ (final (handle w.env) { reader, drains }).trace,
      event.status w (spoken (requestLine reader.content)) = some 431 ∧
        ¬ ParserReply reader.content event ∧ ¬ Oversized w.env reader.content := by
  cases stray with
  | @unread r unread opened =>
    have answered : Ends (handle w.env) { reader, drains } fun t => .headersTooLarge ∈ t.trace :=
      unread.answered opened
    refine ⟨_, answered.final, rfl, nofun, fun large => ?_⟩
    have silent := (large.relayed unread.opens).1.silent
    rw [unread.raises] at silent
    cases silent
  | @target r unsplit opened =>
    have answered : Ends (handle w.env) { reader, drains } fun t => .headersTooLarge ∈ t.trace :=
      unsplit.answered opened
    refine ⟨_, answered.final, rfl, nofun, fun large => ?_⟩
    obtain ⟨_, _, a, split⟩ := large.relayed unsplit.parses.toOpens
    obtain ⟨text, failed⟩ := unsplit.raises
    rw [failed] at split
    cases split
  | @status r address unconnected version latin opened =>
    have answered : Ends (handle w.env) { reader, drains } fun t => .badGateway address ∈ t.trace :=
      unconnected.answered
    refine ⟨_, answered.final, ?_, nofun, fun large => ?_⟩
    · simp [Event.status, errorStatus, sendError, version, latin, opened]
    · obtain ⟨e, failed, _⟩ := unconnected.failed
      rw [(large.relayed unconnected.parses.toOpens).2.1] at failed
      cases failed

/-- The error responses fit the stream, unless a `ValueError` comes to `handle` that has
nothing to do with a limit. -/
theorem classified_iff (w : World) (reader : Reader Exn) (drains : Option (Nat × Exn)) :
    Classified w reader drains ↔ ¬ Stray w reader := by
  constructor
  · intro classified stray
    obtain ⟨event, member, status, parser, small⟩ := stray.answered drains
    exact small ((classified event member 431 status).resolve_left parser).large
  · intro none event member status answered
    have cause := (handle_explained (s := { reader, drains }) w.env rfl).final event member
    cases cause with
    | silent quiet =>
      rw [status_error answered] at quiet
      cases quiet
    | @reply reply known =>
      rw [status_reply] at answered
      cases answered
      exact .inr (.malformed (List.mem_append_left [505] known))
    | @parser reply refused => exact .inl ⟨reply, rfl, refused⟩
    | large exceeds =>
      cases answered
      exact .inr (.oversized exceeds)
    | @unread r unread opened => exact absurd (.unread unread opened) none
    | @target r unsplit opened => exact absurd (.target unsplit opened) none
    | @unreachable r address unconnected =>
      obtain ⟨e, failed, _⟩ := unconnected.failed
      rcases status_gateway answered with rfl | ⟨named, unprintable, opened⟩
      · exact .inr (.unreachable unconnected.parses (by simp [unconnected.asked]) failed)
      · exact absurd (.status unconnected named unprintable opened) none

/-- A request with an open bracket, well within the limits. -/
def openBracket : Reader Exn := .ofPieces [latin "GET http://[/ HTTP/1.1\r\n\r\n"]

/-- Whatever the rest of the world is, it is answered with 431. -/
theorem open_bracket_too_large :
    (final (handle calm) { reader := openBracket, drains := none }).trace = [.headersTooLarge] ∧
    ∀ w : World, w.env = calm → ¬ Classified w openBracket none := by
  refine ⟨by decide +kernel, fun w world classified => ?_⟩
  have parsed : ((parseRequest (requestLine openBracket.content)
      (sectionLines openBracket.content).flatten).toOption.map fun r => (r.command.1, r.path.1)) =
      some (latin "GET", latin "http://[/") := by decide +kernel
  obtain ⟨r, found, same⟩ := Option.map_eq_some_iff.mp parsed
  obtain ⟨command, path⟩ := Prod.mk.inj same
  have opens : Opens calm.maxHeaderBytes openBracket.content r := by
    exact ⟨⟨by decide +kernel, by decide +kernel, by decide +kernel⟩, toOption_some.mp found⟩
  have unsplit : Unsplit calm openBracket r := by
    refine ⟨nofun, ⟨opens, by simp [Env.emailError, calm]⟩, ?_, latin "Invalid IPv6 URL", ?_⟩
    · rw [command]
      decide
    · rw [path]
      decide +kernel
  exact (classified_iff w openBracket none).mp classified (.target (world ▸ unsplit) (world ▸ rfl))

end HttpSocksProxy.Http
