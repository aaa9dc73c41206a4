import HttpSocksProxy.Http.Handler

/-! What the operations of the handler keep of its session, for any relation that
reading, draining and sending keep. -/
namespace HttpSocksProxy.Http
open ByteStream Effect

/-- Reading the client, draining the upstream and sending to it keep the relation. -/
structure Frame (R : Session → Session → Prop) : Prop where
  refl : ∀ s, R s s
  trans : ∀ {s t u}, R s t → R t u → R s u
  read : ∀ s reader, R s { s with reader }
  drained : ∀ s drains, R s { s with drains }
  sent : ∀ s bytes,
    R s { s with upstream := s.upstream ++ bytes, outbound := s.outbound + bytes.length }

/-- Every other action of the handler keeps it too. -/
structure Acting (R : Session → Session → Prop) : Prop extends Frame R where
  acted : ∀ s event, R s { s with trace := s.trace ++ [event] }

namespace Frame
variable {R : Session → Session → Prop} (frame : Frame R)
include frame

theorem pure (a : α) : Steps R (Pure.pure a : Handler α) := Steps.pure frame.refl a

theorem throw (e : Raised) : Steps R (MonadExcept.throw e : Handler α) := Steps.throw frame.refl e

theorem bind {x : Handler α} {f : α → Handler β} (first : Steps R x) (last : ∀ a, Steps R (f a)) :
    Steps R (x >>= f) := Steps.bind frame.trans first last

theorem loop {body : α → Handler (α ⊕ β)} (round : ∀ a, Steps R (body a)) (fuel : Nat) (a : α) :
    Steps R (Effect.loop .exhausted body fuel a) := Steps.loop frame.refl frame.trans round fuel a

theorem reading (operation : Reader Exn → Except (Failure Exn) (List UInt8 × Reader Exn)) :
    Steps R (reading operation) := fun s =>
  reading_after (fun _ reader _ => frame.read s reader) fun _ _ => frame.refl s

theorem drain : Steps R drain := by
  intro s
  simp only [After, Http.drain]
  split
  case h_1 drains =>
    split at drains <;> cases drains
    · exact frame.refl _
    · exact frame.drained _ _
  case h_2 drains =>
    split at drains <;> cases drains
    exact frame.refl _

theorem send (bytes : List UInt8) : Steps R (send bytes) := fun s => frame.sent s bytes

theorem readLoop {body : A → Handler (A ⊕ B)} (round : ∀ a, Steps R (body a)) (a : A) :
    Steps R (readLoop body a) := frame.bind frame.refl fun _ => frame.loop round _ a

theorem pieceStep (n : Nat) : Steps R (pieceStep n) := by
  simp only [Http.pieceStep]
  split
  · exact frame.pure _
  · exact frame.bind (frame.reading _) fun bytes => frame.bind (frame.send bytes) fun _ =>
      frame.bind frame.drain fun _ => frame.pure _

theorem lengthStep (n : Nat) : Steps R (lengthStep n) := by
  simp only [Http.lengthStep]
  split
  · exact frame.pure _
  · refine frame.bind (frame.reading _) fun bytes => ?_
    split
    · exact frame.throw _
    · exact frame.bind (frame.send bytes) fun _ => frame.bind frame.drain fun _ => frame.pure _

theorem trailerStep (maxHeaderBytes total : Nat) : Steps R (trailerStep maxHeaderBytes total) := by
  refine frame.bind (frame.reading _) fun line => ?_
  split
  · exact frame.throw _
  split
  · exact frame.throw _
  refine frame.bind (frame.send line) fun _ => ?_
  split <;> exact frame.pure _

theorem chunkStep (maxHeaderBytes : Nat) (u : Unit) : Steps R (chunkStep maxHeaderBytes u) := by
  refine frame.bind (frame.reading _) fun line => ?_
  split
  · exact frame.throw _
  split
  · exact frame.throw _
  split
  · exact frame.throw _
  split
  · exact frame.throw _
  · exact frame.bind (frame.send line) fun _ =>
      frame.bind (frame.readLoop (frame.trailerStep maxHeaderBytes) 0) fun _ => frame.pure _
  · refine frame.bind (frame.send line) fun _ => frame.bind (frame.loop frame.pieceStep _ _) fun _ =>
      frame.bind (frame.reading _) fun last => ?_
    split
    · exact frame.throw _
    · exact frame.bind (frame.send last) fun _ => frame.bind frame.drain fun _ => frame.pure _

theorem forwardRequestBody (maxHeaderBytes : Nat) (framing : Framing) :
    Steps R (forwardRequestBody maxHeaderBytes framing) := by
  cases framing with
  | none => exact frame.pure _
  | length n => exact frame.loop frame.lengthStep _ _
  | chunked codings => exact frame.readLoop (frame.chunkStep maxHeaderBytes) ()

theorem outcome (ends : Except Exn Unit) : Steps R (outcome ends) := by
  cases ends with
  | ok _ => exact frame.pure _
  | error e => exact frame.throw _

theorem tryCatch {x : Handler α} (inner : Steps R x) {handler : Raised → Handler α}
    (last : ∀ e, Steps R (handler e)) : Steps R (MonadExcept.tryCatch x handler) :=
  Steps.tryCatch (R := R) frame.trans inner last

theorem writeEof (env : Env) : Steps R (writeEof env) := by
  refine frame.tryCatch (frame.outcome _) fun e => ?_
  cases e with
  | other e =>
    dsimp only
    split
    · exact frame.pure _
    · exact frame.throw _
  | bodyError | valueError | exhausted => exact frame.throw _

end Frame

namespace Acting
variable {R : Session → Session → Prop} (acting : Acting R)
include acting

theorem perform (event : Event) : Steps R (perform event) := fun s => acting.acted s event

theorem observe (event : List UInt8 → Event) : Steps R (observe event) := fun s =>
  acting.acted s (event s.reader.content)

theorem closingUpstream {x : Handler Unit} (inner : Steps R x) : Steps R (closingUpstream x) := by
  refine acting.bind (acting.tryCatch inner fun e => ?_) fun _ => acting.perform _
  exact acting.bind (acting.perform _) fun _ => acting.throw e

theorem connectFailed (address : Authority) (e : Exn) : Steps R (connectFailed address e) := by
  simp only [Http.connectFailed]
  split
  · exact acting.throw _
  · exact acting.perform _

theorem doConnect (env : Env) (r : Request) : Steps R (doConnect env r) := by
  simp only [Http.doConnect]
  split
  · exact acting.perform _
  refine acting.bind (acting.perform _) fun _ => ?_
  split
  · exact acting.connectFailed _ _
  apply acting.closingUpstream
  exact acting.bind (acting.perform _) fun _ => acting.bind (acting.outcome _) fun _ => acting.observe _

theorem recover (env : Env) (e : Raised) : Steps R (recover env e) := by
  cases e with
  | bodyError | valueError =>
    simp only [Http.recover]
    split
    · exact acting.pure _
    · exact acting.perform _
  | other e =>
    simp only [Http.recover]
    split
    · exact acting.throw _
    · exact acting.pure _
  | exhausted => exact acting.throw _

end Acting

/-- Nothing happened but that the client was read. -/
def OnlyRead (s t : Session) : Prop := ∃ reader, t = { s with reader }

namespace OnlyRead

theorem refl (s : Session) : OnlyRead s s := ⟨s.reader, rfl⟩

theorem trans (first : OnlyRead s t) (last : OnlyRead t u) : OnlyRead s u := by
  obtain ⟨_, rfl⟩ := first
  obtain ⟨reader, rfl⟩ := last
  exact ⟨reader, rfl⟩

theorem limitedLine (limit : Nat) : Steps OnlyRead (limitedLine limit) := by
  refine Steps.bind trans (fun s => ?_) fun line => ?_
  · exact reading_after (fun _ reader _ => ⟨reader, rfl⟩) fun _ _ => refl s
  · split
    · exact Steps.throw refl _
    · exact Steps.pure refl _

theorem headers (maxHeaderBytes : Nat) : Steps OnlyRead (readLoop (headerStep maxHeaderBytes) []) := by
  refine Steps.bind trans refl fun s => Steps.loop refl trans (fun headers => ?_) _ _
  refine Steps.bind trans (limitedLine _) fun line => ?_
  split
  · exact Steps.pure refl _
  split <;> exact Steps.pure refl _

end OnlyRead

/-- The first line of a stream, with its newline. -/
def requestLine (content : List UInt8) : List UInt8 := content.take (content.idxOf Reader.newline + 1)

/-- The rule of `handle`'s `try` block: nothing happens before the request is
refused or dispatched, or an exception leaves the block. -/
theorem handleRequest_after {s : Session} {ok : Unit → Session → Prop} {fail : Raised → Session → Prop}
    (silent : ∀ t, OnlyRead s t → ok () t)
    (raised : ∀ e t, OnlyRead s t → fail e t)
    (oversized : ∀ t, OnlyRead s t → After (perform .headersTooLarge) t ok fail)
    (refused : ∀ t headers reply, OnlyRead s t →
      parseRequest (requestLine s.reader.content) headers = .error (some reply) →
      After (perform (.sendError reply)) t ok fail)
    (accepted : ∀ t headers r, OnlyRead s t →
      parseRequest (requestLine s.reader.content) headers = .ok r → After (dispatch env r) t ok fail) :
    After (handleRequest env) s ok fail := by
  have first : After (limitedLine 8192) s
      (fun raw t => OnlyRead s t ∧ raw = requestLine s.reader.content) fun _ t => OnlyRead s t := by
    apply After.bind_iff.mpr
    refine reading_after (fun line reader got => ?_) fun _ _ => OnlyRead.refl s
    obtain ⟨_, rfl, _, _⟩ := Reader.readline_ok got
    split
    · exact ⟨reader, rfl⟩
    · exact ⟨⟨reader, rfl⟩, rfl⟩
  refine After.bind_iff.mpr (first.mono ?_ raised)
  rintro raw t ⟨read, rfl⟩
  split
  case isTrue => exact silent t read
  refine After.bind_iff.mpr ((OnlyRead.headers _ t).mono (fun headers u more => ?_) fun e u more => ?_)
  · have read := read.trans more
    cases headers with
    | none => exact oversized u read
    | some headers =>
      dsimp only
      split
      case h_1 => exact silent u read
      case h_2 reply failed => exact refused u headers reply read failed
      case h_3 r parsed =>
        split
        · exact raised _ u read
        · exact accepted u headers r read parsed
  · exact raised e u (read.trans more)

end HttpSocksProxy.Http
