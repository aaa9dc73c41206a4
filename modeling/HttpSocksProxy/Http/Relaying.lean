import HttpSocksProxy.Http.Body

/-! The relay loops of `_forward_request_body`, byte by byte: where they stand after
what they have sent, what stops them there, and what would complete the body. -/
namespace HttpSocksProxy.Http
open ByteStream Effect
open ByteStream.Reader (newline)

/-- Trailer lines up to the empty line. -/
inductive Trailers : List UInt8 → Prop where
  | last : IsLine line → isLast line = true → Trailers line
  | more : IsLine line → isLast line = false → Trailers rest → Trailers (line ++ rest)

/-- A chunk header of this size, as the relay loop reads it. -/
structure SizeLine (line : List UInt8) (size : Nat) : Prop where
  whole : IsLine line
  ends : crlf <:+ line
  sized : chunkSize line = some size

/-- One complete chunk sequence. -/
inductive Chunks : List UInt8 → Prop where
  | last : SizeLine line 0 → Trailers trailers → Chunks (line ++ trailers)
  | more : SizeLine line size → size ≠ 0 → data.length = size → Chunks rest →
      Chunks (line ++ data ++ crlf ++ rest)

/-- A complete body under a framing. -/
def Complete : Framing → List UInt8 → Prop
  | .none, body => body = []
  | .length n, body => body.length = n
  | .chunked _, body => Chunks body

theorem Trailers.unique (first : Trailers p) (second : Trailers q) (same : p ++ x = q ++ y) : p = q := by
  induction first generalizing q with
  | @last line whole ends =>
    cases second with
    | last whole' _ => exact whole.unique whole' same
    | more whole' goes _ =>
      rw [List.append_assoc] at same
      obtain rfl := whole.unique whole' same
      rw [ends] at goes
      cases goes
  | @more line rest whole goes _ ih =>
    rw [List.append_assoc] at same
    cases second with
    | last whole' ends =>
      obtain rfl := whole.unique whole' same
      rw [ends] at goes
      cases goes
    | more whole' _ later =>
      rw [List.append_assoc] at same
      obtain rfl := whole.unique whole' same
      rw [ih later (List.append_cancel_left same)]

theorem SizeLine.unique (first : SizeLine p m) (second : SizeLine q n) (same : p ++ x = q ++ y) :
    p = q ∧ m = n := by
  obtain rfl := first.whole.unique second.whole same
  exact ⟨rfl, Option.some.inj (first.sized.symm.trans second.sized)⟩

/-- No chunk sequence continues another. -/
theorem Chunks.unique (first : Chunks p) (second : Chunks q) (same : p ++ x = q ++ y) : p = q := by
  induction first generalizing q with
  | last header trailers =>
    rw [List.append_assoc] at same
    cases second with
    | last header' trailers' =>
      rw [List.append_assoc] at same
      obtain ⟨rfl, _⟩ := header.unique header' same
      rw [trailers.unique trailers' (List.append_cancel_left same)]
    | more header' positive _ _ =>
      simp only [List.append_assoc] at same
      exact absurd (header.unique header' same).2.symm positive
  | more header positive size _ ih =>
    simp only [List.append_assoc] at same
    cases second with
    | last header' _ =>
      rw [List.append_assoc] at same
      exact absurd (header.unique header' same).2 positive
    | more header' _ size' later =>
      simp only [List.append_assoc] at same
      obtain ⟨rfl, rfl⟩ := header.unique header' same
      obtain ⟨rfl, after⟩ := List.append_inj (List.append_cancel_left same) (size.trans size'.symm)
      rw [ih later (List.append_cancel_left after)]

theorem Complete.unique (first : Complete framing p) (second : Complete framing q)
    (same : p ++ x = q ++ y) : p = q := by
  cases framing with
  | none => exact first.trans second.symm
  | length n => exact List.append_inj_left same (Eq.trans first second.symm)
  | chunked codings => exact Chunks.unique first second same

/-- The next line of a stream, or what is left of it. -/
def firstLine (stream : List UInt8) : List UInt8 := stream.take (stream.idxOf newline + 1)

def afterLine (stream : List UInt8) : List UInt8 := stream.drop (stream.idxOf newline + 1)

theorem line_parts (stream : List UInt8) : firstLine stream ++ afterLine stream = stream :=
  List.take_append_drop _ _

theorem afterLine_shorter (filled : stream ≠ []) : (afterLine stream).length < stream.length := by
  have some_bytes := List.length_pos_iff.mpr filled
  rw [afterLine, List.length_drop]
  omega

/-- Where the relay of a chunked body stands; `cut` is behind a trailer that the
end of the stream cut off. -/
inductive Position where
  | header
  | data (remaining : Nat)
  | trailers (total : Nat)
  | cut
  | done

/-- What was sent leads here. -/
inductive Reached : List UInt8 → Position → Prop where
  | start : Reached [] .header
  | size : Reached sent .header → SizeLine line size → size ≠ 0 → Reached (sent ++ line) (.data size)
  | data : Reached sent (.data remaining) → bytes.length ≤ remaining →
      Reached (sent ++ bytes) (.data (remaining - bytes.length))
  | terminator : Reached sent (.data 0) → Reached (sent ++ crlf) .header
  | lastSize : Reached sent .header → SizeLine line 0 → Reached (sent ++ line) (.trailers 0)
  | trailer : Reached sent (.trailers total) → IsLine line → isLast line = false →
      Reached (sent ++ line) (.trailers (total + line.length))
  | cut : Reached sent (.trailers total) → line ≠ [] → newline ∉ line → Reached (sent ++ line) .cut
  | done : Reached sent (.trailers total) → IsLine line → isLast line = true → Reached (sent ++ line) .done

/-- What makes a chunk sequence of all that was sent. -/
def Completes : Position → List UInt8 → Prop
  | .header, more => Chunks more
  | .data remaining, more => ∃ data rest, more = data ++ crlf ++ rest ∧ data.length = remaining ∧ Chunks rest
  | .trailers _, more => Trailers more
  | .cut, more => ∃ rest, more = crlf ++ rest ∧ Trailers rest
  | .done, more => more = []

/-- What stops the relay at a position: the next element of the stream is malformed,
over a limit or not all there, or the stream fails. -/
inductive Offence (maxHeaderBytes : Nat) : Position → Reader Exn → Raised → Prop where
  | failed : reader.fault = some (0, e) → Offence maxHeaderBytes position reader (.other e)
  | headerMissing : reader.content = [] → Offence maxHeaderBytes .header reader (.other .connectionError)
  | headerLong : 8192 < (firstLine reader.content).length → Offence maxHeaderBytes .header reader .valueError
  | headerEnd : reader.content ≠ [] → ¬ crlf <:+ firstLine reader.content →
      Offence maxHeaderBytes .header reader (.bodyError (latin "malformed chunk header terminator"))
  | headerSize : crlf <:+ firstLine reader.content → chunkSize (firstLine reader.content) = none →
      Offence maxHeaderBytes .header reader (.bodyError (latin "malformed chunk size"))
  | dataShort : reader.content.length < min 65536 remaining →
      Offence maxHeaderBytes (.data remaining) reader (.other .exception)
  | terminatorShort : reader.content.length < 2 → Offence maxHeaderBytes (.data 0) reader (.other .exception)
  | terminatorWrong : 2 ≤ reader.content.length → reader.content.take 2 ≠ crlf →
      Offence maxHeaderBytes (.data 0) reader (.bodyError (latin "malformed chunk data terminator"))
  | trailerMissing : reader.content = [] →
      Offence maxHeaderBytes (.trailers total) reader (.other .connectionError)
  | trailerLong : maxHeaderBytes < total + (firstLine reader.content).length ∨
      65536 < (firstLine reader.content).length → Offence maxHeaderBytes (.trailers total) reader .valueError
  | trailerCut : reader.content = [] → Offence maxHeaderBytes .cut reader (.other .connectionError)

/-- What the relay does not send on, after what it has sent of a body. -/
def Refused (maxHeaderBytes : Nat) : Framing → List UInt8 → Reader Exn → Raised → Prop
  | .none, _, _, _ => False
  | .length n, sent, reader, e => sent.length < n ∧
      (reader.content = [] ∧ e = .other .connectionError ∨
        ∃ fault, reader.fault = some (0, fault) ∧ e = .other fault)
  | .chunked _, sent, reader, e =>
      ∃ position, position ≠ .done ∧ Reached sent position ∧ Offence maxHeaderBytes position reader e

/-- What completes the body from a position makes a chunk sequence of the whole. -/
theorem Reached.completes (here : Reached sent position) (rest : Completes position more) :
    Chunks (sent ++ more) := by
  induction here generalizing more with
  | start => exact rest
  | size _ header positive ih =>
    obtain ⟨data, later, rfl, length, chunks⟩ := rest
    have whole := ih (Chunks.more header positive length chunks)
    simpa using whole
  | @data _ remaining bytes _ few ih =>
    obtain ⟨data, later, rfl, length, chunks⟩ := rest
    have whole := ih ⟨bytes ++ data, later, rfl, by rw [List.length_append]; omega, chunks⟩
    simpa using whole
  | terminator _ ih =>
    have whole := ih ⟨[], more, rfl, rfl, rest⟩
    simpa using whole
  | lastSize _ header ih =>
    rw [List.append_assoc]
    exact ih (Chunks.last header rest)
  | trailer _ whole goes ih =>
    rw [List.append_assoc]
    exact ih (Trailers.more whole goes rest)
  | @cut _ _ line _ filled missing ih =>
    obtain ⟨later, rfl, trailers⟩ := rest
    have whole : IsLine (line ++ crlf) :=
      ⟨line ++ [13], by simp [crlf, newline], by simpa [newline] using missing⟩
    have goes : isLast (line ++ crlf) = false := by
      have longer := List.length_pos_of_ne_nil filled
      have three : 3 ≤ (line ++ crlf).length := by
        simp only [crlf, List.length_append, List.length_cons, List.length_nil]
        omega
      simp only [isLast, Bool.or_eq_false_iff, decide_eq_false_iff_not]
      refine ⟨⟨?_, ?_⟩, ?_⟩ <;>
      · intro same
        rw [same] at three
        simp at three
    have joined := ih (Trailers.more whole goes trailers)
    simpa using joined
  | done _ whole ends ih =>
    obtain rfl : more = [] := rest
    rw [List.append_nil]
    exact ih (Trailers.last whole ends)

theorem Trailers.empty : Trailers crlf := .last ⟨[13], rfl, by decide⟩ rfl

/-- The shortest chunk sequence. -/
theorem Chunks.empty : Chunks ([48, 13, 10] ++ crlf) :=
  .last ⟨⟨[48, 13], rfl, by decide⟩, ⟨[48], rfl⟩, by decide⟩ Trailers.empty

/-- Before the end something is missing. -/
theorem Completes.some_bytes (unfinished : position ≠ .done) : ∃ more, more ≠ [] ∧ Completes position more := by
  cases position with
  | header => exact ⟨_, by simp, Chunks.empty⟩
  | data remaining =>
    exact ⟨_, by simp [crlf], List.replicate remaining 0, _, rfl, by simp, Chunks.empty⟩
  | trailers total => exact ⟨_, by simp [crlf], Trailers.empty⟩
  | cut => exact ⟨_, by simp [crlf], crlf, rfl, Trailers.empty⟩
  | done => contradiction

/-- What the relay has sent when it raises does not hold a complete body. -/
theorem Refused.incomplete (refused : Refused maxHeaderBytes framing sent reader e) (start : p <+: sent) :
    ¬ Complete framing p := by
  intro complete
  cases framing with
  | none => exact refused
  | length n =>
    have short := refused.1
    have shorter := start.length_le
    have length : p.length = n := complete
    omega
  | chunked codings =>
    obtain ⟨position, unfinished, here, _⟩ := refused
    obtain ⟨more, filled, rest⟩ := Completes.some_bytes unfinished
    obtain ⟨later, rfl⟩ := start
    have whole := here.completes rest
    have same : p ++ (later ++ more) = p ++ later ++ more ++ [] := by simp
    have equal := Chunks.unique complete whole same
    have length := congrArg List.length equal
    have longer := List.length_pos_of_ne_nil filled
    simp only [List.length_append] at length
    omega

/-- These bytes went upstream, and a `drain` that could not fail still cannot. -/
structure Passed (s t : Session) (bytes : List UInt8) : Prop extends Moved s t bytes where
  steady : s.drains = none → t.drains = none

/-- What was sent when the relay raised, and the stream from what it did not send. -/
structure Unsent (s t : Session) (sent : List UInt8) (rest : Reader Exn) : Prop where
  consumed : s.reader.content = sent ++ rest.content
  written : t.upstream = s.upstream ++ sent
  counted : t.outbound = s.outbound + sent.length

/-- The relay of a body that raises; a `drain` that fails says nothing of the body. -/
def Stopped (maxHeaderBytes : Nat) (framing : Framing) (s : Session) (e : Raised) (t : Session) : Prop :=
  e ≠ .exhausted ∧ ∃ sent rest, Unsent s t sent rest ∧
    (Refused maxHeaderBytes framing sent rest e ∨ s.drains ≠ none ∧ ∃ fault, e = .other fault)

theorem Passed.refl (s : Session) : Passed s s [] := ⟨Moved.refl s, id⟩

theorem Passed.unsent (passed : Passed s t sent) (reader : Reader Exn) :
    Unsent s { t with reader } sent t.reader := ⟨passed.consumed, passed.written, passed.counted⟩

section Rules
variable {s t : Session}

theorem Passed.send (passed : Passed s t sent) (consumed : t.reader.content = bytes ++ reader.content) :
    After (send bytes) { t with reader } (fun _ u => Passed s u (sent ++ bytes) ∧ u.reader = reader) fail :=
  ⟨⟨passed.trans ⟨consumed, rfl, rfl, rfl⟩, passed.steady⟩, rfl⟩

theorem Passed.drain {ok : Unit → Session → Prop} (passed : Passed s t sent)
    (okay : ∀ u, Passed s u sent → u.reader = t.reader → ok () u)
    (failing : ∀ e, s.drains ≠ none → fail (.other e) t) : After drain t ok fail := by
  unfold After Http.drain
  cases drains : t.drains with
  | none => exact okay t passed rfl
  | some count =>
    have failable : s.drains ≠ none := by
      intro healthy
      rw [passed.steady healthy] at drains
      cases drains
    obtain ⟨_ | n, e⟩ := count
    · exact failing e failable
    · have moved : Moved t { t with drains := some (n, e) } [] := ⟨rfl, by simp, by simp, rfl⟩
      refine okay _ ⟨?_, fun healthy => absurd healthy failable⟩ rfl
      simpa using passed.trans moved

/-- What `readline` returns is the first line of the stream: a line, or the rest
of a stream that ends without a newline. -/
theorem readline_cases {ok : List UInt8 → Session → Prop}
    (okay : ∀ line reader, line = firstLine t.reader.content → t.reader.content = line ++ reader.content →
      (line ≠ [] → IsLine line ∨ newline ∉ line ∧ reader.content = []) → Reader.Spent 1 t.reader reader →
      ok line { t with reader })
    (overrun : 65536 < (firstLine t.reader.content).length → fail .valueError t)
    (failing : ∀ e, t.reader.fault = some (0, e) → fail (.other e) t) : After readline t ok fail := by
  refine reading_cases (fun line reader got => ?_) fun reason failed => ?_
  · obtain ⟨_, same, rest, spent⟩ := Reader.readline_ok got
    refine okay line reader same (by rw [same, rest, List.take_append_drop]) (fun filled => ?_) spent
    by_cases found : newline ∈ t.reader.content
    · rw [same]
      exact .inl (isLine_take found)
    · right
      constructor
      · rw [same]
        exact fun inside => found (List.mem_of_mem_take inside)
      · rw [rest, List.idxOf_eq_length found]
        exact List.drop_of_length_le (Nat.le_succ _)
  · rcases Reader.readline_error failed with ⟨rfl, long⟩ | ⟨e, rfl, fault⟩
    · apply overrun
      have inside : t.reader.content.idxOf newline ≤ t.reader.content.length := List.idxOf_le_length
      rw [firstLine, List.length_take]
      omega
    · exact failing e fault

end Rules

section Chunked
variable {maxHeaderBytes : Nat} {codings : Text} {s t : Session}

/-- From `s` to `t` the relay of a chunked body has come to this position. -/
def Stands (s t : Session) (position : Position) : Prop := ∃ sent, Passed s t sent ∧ Reached sent position

theorem Stands.stopped (here : Stands s t position) (unfinished : position ≠ .done) (expected : e ≠ .exhausted)
    (offence : Offence maxHeaderBytes position t.reader e) (reader : Reader Exn) :
    Stopped maxHeaderBytes (.chunked codings) s e { t with reader } := by
  obtain ⟨sent, passed, reached⟩ := here
  exact ⟨expected, sent, t.reader, passed.unsent reader, .inl ⟨position, unfinished, reached, offence⟩⟩

theorem Stands.send (here : Stands s t position) (consumed : t.reader.content = bytes ++ reader.content)
    (next : ∀ sent, Reached sent position → Reached (sent ++ bytes) position') :
    After (send bytes) { t with reader } (fun _ u => Stands s u position' ∧ u.reader = reader) fail := by
  obtain ⟨sent, passed, reached⟩ := here
  refine (passed.send consumed).mono ?_ fun _ _ failed => failed
  rintro _ u ⟨passed, rest⟩
  exact ⟨⟨_, passed, next sent reached⟩, rest⟩

theorem Stands.drain {ok : Unit → Session → Prop} (here : Stands s t position)
    (okay : ∀ u, Stands s u position → u.reader = t.reader → ok () u) :
    After drain t ok (Stopped maxHeaderBytes (.chunked codings) s) := by
  obtain ⟨sent, passed, reached⟩ := here
  refine passed.drain (fun u later same => okay u ⟨sent, later, reached⟩ same) fun e failable => ?_
  exact ⟨by simp, sent, t.reader, passed.unsent t.reader, .inr ⟨failable, e, rfl⟩⟩

theorem shorter {a b c : List UInt8} (consumed : a = b ++ c) (filled : b ≠ []) : c.length < a.length := by
  have positive := List.length_pos_of_ne_nil filled
  rw [consumed, List.length_append]
  omega

/-- One piece of the data of a chunk. -/
theorem pieceStep_after (here : Stands s t (.data remaining)) : After (pieceStep remaining) t
    (fun next u => u.reader.content.length ≤ t.reader.content.length ∧ match next with
      | .inl n => Stands s u (.data n) ∧ n < remaining
      | .inr _ => Stands s u (.data 0))
    (Stopped maxHeaderBytes (.chunked codings) s) := by
  simp only [pieceStep]
  split
  case isTrue finished =>
    rw [finished] at here
    exact ⟨Nat.le_refl _, here⟩
  case isFalse positive =>
    apply After.bind_iff.mpr
    refine reading_cases (fun bytes reader got => ?_) fun reason failed => ?_
    · obtain ⟨consumed, length, _⟩ := Reader.readexactly_ok got
      have few : bytes.length ≤ remaining := by omega
      apply (here.send consumed fun sent reached => reached.data few).bind
      rintro _ u ⟨sent, rest⟩
      apply After.bind_iff.mpr
      apply sent.drain
      intro v drained same
      refine ⟨?_, drained, by omega⟩
      rw [same, rest, consumed, List.length_append]
      omega
    · rcases Reader.readexactly_error failed with ⟨_, rfl, short⟩ | ⟨e, rfl, fault⟩
      · exact here.stopped (by simp) (raised_expected _) (.dataShort short) _
      · exact here.stopped (by simp) (raised_expected _) (.failed fault) _

theorem pieces_after (here : Stands s t (.data size)) : After (loop .exhausted pieceStep (size + 1) size) t
    (fun _ u => Stands s u (.data 0) ∧ u.reader.content.length ≤ t.reader.content.length)
    (Stopped maxHeaderBytes (.chunked codings) s) := by
  refine After.loop (fun remaining u => Stands s u (.data remaining) ∧
    u.reader.content.length ≤ t.reader.content.length) (fun remaining _ => remaining) ?_
    ⟨here, Nat.le_refl _⟩ (Nat.lt_succ_self size)
  rintro remaining u ⟨here, fewer⟩
  refine (pieceStep_after here).mono (fun next v after => ?_) fun _ _ failed => failed
  have fewer := Nat.le_trans after.1 fewer
  cases next with
  | inl n => exact ⟨⟨after.2.1, fewer⟩, after.2.2⟩
  | inr _ => exact ⟨after.2, fewer⟩

/-- One trailer line. Behind a line that is cut off nothing is left. -/
theorem trailerStep_after
    (here : Stands s t (.trailers total) ∨ Stands s t .cut ∧ t.reader.content = []) :
    After (trailerStep maxHeaderBytes total) t
      (fun next u => match next with
        | .inl n => (Stands s u (.trailers n) ∨ Stands s u .cut ∧ u.reader.content = []) ∧
            u.reader.content.length < t.reader.content.length
        | .inr _ => Stands s u .done)
      (Stopped maxHeaderBytes (.chunked codings) s) := by
  apply After.bind_iff.mpr
  rcases here with here | ⟨here, ended⟩
  case inr =>
    refine readline_cases (fun line reader same _ _ _ => ?_) (fun long => ?_) fun e fault => ?_
    · have none : line = [] := by simp [same, ended, firstLine]
      rw [if_pos none]
      exact here.stopped (by simp) (by simp) (.trailerCut ended) _
    · simp [ended, firstLine] at long
    · exact here.stopped (by simp) (by simp) (.failed fault) _
  case inl =>
    refine readline_cases (fun line reader same consumed shape _ => ?_) (fun long => ?_) fun e fault => ?_
    · split
      case isTrue none =>
        have ended : t.reader.content = [] := by
          rw [same, firstLine, List.take_eq_nil_iff] at none
          simpa using none
        exact here.stopped (by simp) (by simp) (.trailerMissing ended) _
      case isFalse filled =>
        split
        case isTrue long =>
          rw [same] at long
          exact here.stopped (by simp) (by simp) (.trailerLong (.inl long)) _
        case isFalse =>
          have less := shorter consumed filled
          rcases shape filled with whole | ⟨missing, ended⟩
          · by_cases ends : isLast line = true
            · apply (here.send consumed fun sent reached => reached.done whole ends).bind
              rintro _ u ⟨sent, _⟩
              rw [if_pos ends]
              exact sent
            · have goes : isLast line = false := by simpa using ends
              apply (here.send consumed fun sent reached => reached.trailer whole goes).bind
              rintro _ u ⟨sent, rest⟩
              rw [if_neg ends]
              exact ⟨.inl sent, by rw [rest]; exact less⟩
          · have goes : ¬ isLast line = true := by
              simp only [isLast, filled, Bool.or_eq_true, decide_eq_true_eq, or_false]
              rintro (rfl | rfl) <;> simp [newline] at missing
            apply (here.send consumed fun sent reached => reached.cut filled missing).bind
            rintro _ u ⟨sent, rest⟩
            rw [if_neg goes]
            exact ⟨.inr ⟨sent, by rw [rest]; exact ended⟩, by rw [rest]; exact less⟩
    · exact here.stopped (by simp) (by simp) (.trailerLong (.inr long)) _
    · exact here.stopped (by simp) (by simp) (.failed fault) _

theorem trailers_after (here : Stands s t (.trailers 0)) :
    After (readLoop (trailerStep maxHeaderBytes) 0) t (fun _ u => Stands s u .done)
      (Stopped maxHeaderBytes (.chunked codings) s) := by
  refine readLoop_after (fun total u => Stands s u (.trailers total) ∨ Stands s u .cut ∧ u.reader.content = [])
    (fun total u stands => ?_) (.inl here)
  refine (trailerStep_after stands).mono (fun next v after => ?_) fun _ _ failed => failed
  cases next <;> exact after

/-- What follows the data of a chunk. -/
theorem terminator_after (here : Stands s t (.data 0)) :
    After (do
      let terminator ← reading (·.readexactly 2)
      if terminator ≠ crlf then throw (.bodyError (latin "malformed chunk data terminator"))
      else
        send terminator
        drain
        return (.inl () : Unit ⊕ Unit)) t
      (fun next u => next = .inl () ∧ Stands s u .header ∧
        u.reader.content.length < t.reader.content.length)
      (Stopped maxHeaderBytes (.chunked codings) s) := by
  apply After.bind_iff.mpr
  refine reading_cases (fun terminator reader got => ?_) fun reason failed => ?_
  · obtain ⟨consumed, length, _⟩ := Reader.readexactly_ok got
    split
    case isTrue wrong =>
      have two : 2 ≤ t.reader.content.length := by
        rw [consumed, List.length_append]
        omega
      have taken : t.reader.content.take 2 = terminator := by rw [consumed, ← length, List.take_left]
      rw [← taken] at wrong
      exact here.stopped (by simp) (by simp) (.terminatorWrong two wrong) _
    case isFalse right =>
      obtain rfl : terminator = crlf := by simpa using right
      apply (here.send consumed fun sent reached => reached.terminator).bind
      rintro _ u ⟨ended, left⟩
      apply After.bind_iff.mpr
      apply ended.drain
      intro v drained kept
      refine ⟨rfl, drained, ?_⟩
      rw [kept, left]
      exact shorter consumed (by simp [crlf])
  · rcases Reader.readexactly_error failed with ⟨_, rfl, short⟩ | ⟨e, rfl, fault⟩
    · exact here.stopped (by simp) (raised_expected _) (.terminatorShort short) _
    · exact here.stopped (by simp) (raised_expected _) (.failed fault) _

/-- One chunk, or the last one with the trailers. -/
theorem chunkStep_after (here : Stands s t .header) : After (chunkStep maxHeaderBytes ()) t
    (fun next u => match next with
      | .inl _ => Stands s u .header ∧ u.reader.content.length < t.reader.content.length
      | .inr _ => Stands s u .done)
    (Stopped maxHeaderBytes (.chunked codings) s) := by
  apply After.bind_iff.mpr
  refine readline_cases (fun line reader same consumed shape _ => ?_) (fun long => ?_) fun e fault => ?_
  · split
    case isTrue none =>
      have ended : t.reader.content = [] := by
        rw [same, firstLine, List.take_eq_nil_iff] at none
        simpa using none
      exact here.stopped (by simp) (by simp) (.headerMissing ended) _
    case isFalse filled =>
      have less := shorter consumed filled
      split
      case isTrue long =>
        rw [same] at long
        exact here.stopped (by simp) (by simp) (.headerLong long) _
      case isFalse =>
        split
        case isTrue unended =>
          have unended : ¬ crlf <:+ firstLine t.reader.content := by
            rw [← same]
            intro suffix
            simp [List.isSuffixOf_iff_suffix.mpr suffix] at unended
          have some_bytes : t.reader.content ≠ [] := by
            rintro none
            simp [same, none, firstLine] at filled
          exact here.stopped (by simp) (by simp) (.headerEnd some_bytes unended) _
        case isFalse ends =>
          have ends : crlf <:+ line := by simpa using ends
          have whole : IsLine line := by
            apply (shape filled).resolve_right
            rintro ⟨missing, _⟩
            exact missing (ends.subset (by simp [crlf, newline]))
          split
          case h_1 unsized =>
            rw [same] at unsized ends
            exact here.stopped (by simp) (by simp) (.headerSize ends unsized) _
          case h_2 sized =>
            apply (here.send consumed fun sent reached => reached.lastSize ⟨whole, ends, sized⟩).bind
            rintro _ u ⟨sent, _⟩
            apply (trailers_after sent).bind
            intro _ v finished
            exact finished
          case h_3 size positive sized =>
            have positive : size ≠ 0 := by simpa using positive
            apply (here.send consumed fun sent reached => reached.size ⟨whole, ends, sized⟩ positive).bind
            rintro _ u ⟨sent, rest⟩
            apply (pieces_after sent).bind
            rintro _ v ⟨piecewise, fewer⟩
            refine (terminator_after piecewise).mono ?_ fun _ _ failed => failed
            rintro _ w ⟨rfl, ended, fewest⟩
            refine ⟨ended, ?_⟩
            rw [rest] at fewer
            omega
  · exact here.stopped (by simp) (by simp) (.headerLong (by omega)) _
  · exact here.stopped (by simp) (by simp) (.failed fault) _

theorem chunks_after (s : Session) : After (readLoop (chunkStep maxHeaderBytes) ()) s
    (fun _ t => Stands s t .done) (Stopped maxHeaderBytes (.chunked codings) s) := by
  refine readLoop_after (fun _ t => Stands s t .header) (fun _ t stands => ?_)
    ⟨[], Passed.refl s, .start⟩
  refine (chunkStep_after stands).mono (fun next u after => ?_) fun _ _ failed => failed
  cases next <;> exact after

end Chunked

section Length
variable {maxHeaderBytes : Nat} {s t : Session}

/-- From `s` to `t` the relay of a body of length `n` has come this close to its end. -/
def Lacks (s t : Session) (n remaining : Nat) : Prop := ∃ sent, Passed s t sent ∧ sent.length + remaining = n

theorem lengthStep_after (here : Lacks s t n remaining) : After (lengthStep remaining) t
    (fun next u => match next with
      | .inl less => Lacks s u n less ∧ less < remaining
      | .inr _ => Lacks s u n 0)
    (Stopped maxHeaderBytes (.length n) s) := by
  obtain ⟨sent, passed, total⟩ := here
  simp only [lengthStep]
  split
  case isTrue finished => exact ⟨sent, passed, by omega⟩
  case isFalse positive =>
    apply After.bind_iff.mpr
    refine reading_cases (fun bytes reader got => ?_) fun reason failed => ?_
    · obtain ⟨consumed, few, ends, _⟩ := Reader.read_ok got
      split
      case isTrue none =>
        have ended : t.reader.content = [] := ends (by omega) none
        exact ⟨by simp, sent, t.reader, passed.unsent reader, .inl ⟨by omega, .inl ⟨ended, rfl⟩⟩⟩
      case isFalse some_bytes =>
        have positive := List.length_pos_of_ne_nil some_bytes
        apply (passed.send consumed).bind
        rintro _ u ⟨moved, _⟩
        apply After.bind_iff.mpr
        apply moved.drain
        · intro v drained _
          refine ⟨⟨sent ++ bytes, drained, ?_⟩, by omega⟩
          rw [List.length_append]
          omega
        · intro e failable
          exact ⟨by simp, sent ++ bytes, u.reader, moved.unsent u.reader, .inr ⟨failable, e, rfl⟩⟩
    · obtain ⟨e, rfl, fault⟩ := Reader.read_error failed
      exact ⟨by simp [raised], sent, t.reader, passed.unsent t.reader, .inl ⟨by omega, .inr ⟨e, fault, rfl⟩⟩⟩

theorem length_after (n : Nat) (s : Session) : After (loop .exhausted lengthStep (n + 1) n) s
    (fun _ t => Lacks s t n 0) (Stopped maxHeaderBytes (.length n) s) := by
  refine After.loop (fun remaining t => Lacks s t n remaining) (fun remaining _ => remaining) ?_
    ⟨[], Passed.refl s, by simp⟩ (Nat.lt_succ_self n)
  intro remaining t here
  refine (lengthStep_after here).mono (fun next u after => ?_) fun _ _ failed => failed
  cases next <;> exact after

end Length

/-- The relay of a body sends one complete body, or it stops before the end of one. -/
theorem forwardRequestBody_after (maxHeaderBytes : Nat) (framing : Framing) (s : Session) :
    After (forwardRequestBody maxHeaderBytes framing) s
      (fun _ t => ∃ body, Passed s t body ∧ Complete framing body)
      (Stopped maxHeaderBytes framing s) := by
  cases framing with
  | none => exact ⟨[], Passed.refl s, rfl⟩
  | length n =>
    refine (length_after n s).mono ?_ fun _ _ failed => failed
    rintro _ t ⟨body, passed, total⟩
    exact ⟨body, passed, total⟩
  | chunked codings =>
    refine (chunks_after s).mono ?_ fun _ _ failed => failed
    rintro _ t ⟨body, passed, here⟩
    refine ⟨body, passed, ?_⟩
    have finished : Completes .done [] := rfl
    have whole := here.completes finished
    rwa [List.append_nil] at whole

/-- A failed body is never completed. The relay ends; when it raises, it has sent a
start of the client's stream that neither is nor holds a complete body, it has sent
nothing of the element that stopped it, and it has counted what it sent. -/
theorem failed_body_incomplete (maxHeaderBytes : Nat) (framing : Framing) (s : Session)
    (healthy : s.drains = none) : After (forwardRequestBody maxHeaderBytes framing) s
      (fun _ t => ∃ body, Moved s t body ∧ Complete framing body)
      fun e t => e ≠ .exhausted ∧ ∃ sent rest, Unsent s t sent rest ∧
        (∀ start, start <+: sent → ¬ Complete framing start) ∧ Refused maxHeaderBytes framing sent rest e := by
  refine (forwardRequestBody_after maxHeaderBytes framing s).mono ?_ ?_
  · rintro _ t ⟨body, passed, complete⟩
    exact ⟨body, passed.toMoved, complete⟩
  · rintro e t ⟨expected, sent, rest, unsent, refused⟩
    have refused := refused.resolve_right fun failed => failed.1 healthy
    exact ⟨expected, sent, rest, unsent, fun _ start => refused.incomplete start, refused⟩

/-- A client that ends its stream within a chunk. -/
theorem cut_chunk_incomplete :
    let s : Session := ⟨.ofPieces [latin "5\r\nab", latin "c"], none, [], 0, []⟩
    s.drains = none ∧ After (forwardRequestBody 65536 (.chunked chunked)) s
      (fun _ t => ∃ body, Moved s t body ∧ Complete (.chunked chunked) body)
      fun e t => e ≠ .exhausted ∧ ∃ sent rest, Unsent s t sent rest ∧
        (∀ start, start <+: sent → ¬ Complete (.chunked chunked) start) ∧
        Refused 65536 (.chunked chunked) sent rest e :=
  ⟨rfl, failed_body_incomplete 65536 _ _ rfl⟩

end HttpSocksProxy.Http
