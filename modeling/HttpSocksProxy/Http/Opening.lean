import HttpSocksProxy.Http.Frame
import HttpSocksProxy.Http.Relaying

/-! The head of a request as `handle` reads it: its lines, its limits, and where
reading it comes to an end. -/
namespace HttpSocksProxy.Http
open ByteStream Effect
open ByteStream.Reader (newline Spent Steady)

/-- The lines of a header section as they are read: up to an empty one, or with
nothing for the last one at the end of the stream. -/
def headerLines : List (List UInt8) → List (List UInt8)
  | [] => [[]]
  | line :: more => if isLast line then [line] else line :: headerLines more

/-- The header lines of a request. -/
def sectionLines (content : List UInt8) : List (List UInt8) := headerLines (byteLines (afterLine content))

/-- No limit on the head of a request is exceeded. -/
structure Fits (maxHeaderBytes : Nat) (content : List UInt8) : Prop where
  request : (requestLine content).length ≤ 8192
  short : ∀ line ∈ sectionLines content, line.length ≤ 8192
  few : (sectionLines content).flatten.length ≤ maxHeaderBytes

/-- The head of a stream is this request. -/
structure Opens (maxHeaderBytes : Nat) (content : List UInt8) (r : Request) : Prop where
  fits : Fits maxHeaderBytes content
  parsed : parseRequest (requestLine content) (sectionLines content).flatten = .ok r

theorem Opens.unique (first : Opens maxHeaderBytes content r) (second : Opens maxHeaderBytes content r') :
    r = r' := by
  have same := first.parsed.symm.trans second.parsed
  cases same
  rfl

/-- `parse_request` returns this request for the head of a stream. -/
structure Parses (env : Env) (content : List UInt8) (r : Request) : Prop
    extends Opens env.maxHeaderBytes content r where
  silent : env.emailError (sectionLines content).flatten r = none

/-- Reading the head is not interrupted. -/
def Undisturbed (reader : Reader Exn) : Prop := Steady ((sectionLines reader.content).length + 1) reader

theorem byteLines_cons {bytes : List UInt8} (filled : bytes ≠ []) : byteLines bytes =
    firstLine bytes :: byteLines (afterLine bytes) := by
  simp only [firstLine, afterLine]
  induction bytes with
  | nil => contradiction
  | cons b rest ih =>
    rw [byteLines]
    by_cases same : b = newline
    · simp [same, newline]
    · rw [if_neg (show ¬ b = 10 from same), List.idxOf_cons_ne _ same, List.take_succ_cons, List.drop_succ_cons]
      cases rest with
      | nil => rfl
      | cons c rest => rw [ih (by simp)]

theorem headerLines_next (stream : List UInt8) : headerLines (byteLines stream) =
    firstLine stream ::
      if isLast (firstLine stream) then [] else headerLines (byteLines (afterLine stream)) := by
  by_cases filled : stream = []
  · subst filled
    rfl
  · rw [byteLines_cons filled, headerLines]
    split <;> rfl

section Reading
variable {maxHeaderBytes : Nat} {s t : Session}

theorem limitedLine_cases {ok : List UInt8 → Session → Prop} {fail : Raised → Session → Prop}
    (limit : Nat) (small : limit ≤ 65536)
    (okay : ∀ reader, reader.content = afterLine s.reader.content → Spent 1 s.reader reader →
      (firstLine s.reader.content).length ≤ limit → ok (firstLine s.reader.content) { s with reader })
    (long : ∀ reader, limit < (firstLine s.reader.content).length → fail .valueError { s with reader })
    (failing : ∀ e, s.reader.fault = some (0, e) → fail (.other e) s) :
    After (limitedLine limit) s ok fail := by
  apply After.bind_iff.mpr
  refine readline_cases (fun line reader same consumed _ spent => ?_) (fun exceeds => ?_) failing
  · subst same
    split
    case isTrue exceeds => exact long reader exceeds
    case isFalse fits =>
      refine okay reader ?_ spent (Nat.le_of_not_lt fits)
      apply List.append_cancel_left
      exact consumed.symm.trans (line_parts _).symm
  · exact long s.reader (by omega)

/-- Between `s` and `t` the header loop has read these lines. -/
structure Scanned (maxHeaderBytes : Nat) (s t : Session) (lines : List (List UInt8)) : Prop where
  read : OnlyRead s t
  whole : headerLines (byteLines s.reader.content) = lines ++ headerLines (byteLines t.reader.content)
  consumed : s.reader.content = lines.flatten ++ t.reader.content
  spent : Spent lines.length s.reader t.reader
  short : ∀ line ∈ lines, line.length ≤ 8192
  few : lines.flatten.length ≤ maxHeaderBytes

theorem Scanned.refl (s : Session) : Scanned maxHeaderBytes s s [] :=
  ⟨OnlyRead.refl s, rfl, rfl, Spent.refl _, by simp, Nat.zero_le _⟩

/-- What the header loop leaves behind when it has read the section. -/
structure Closed (maxHeaderBytes : Nat) (s t : Session) : Prop where
  read : OnlyRead s t
  consumed : s.reader.content = (headerLines (byteLines s.reader.content)).flatten ++ t.reader.content
  steady : Steady (headerLines (byteLines s.reader.content)).length s.reader
  short : ∀ line ∈ headerLines (byteLines s.reader.content), line.length ≤ 8192
  few : (headerLines (byteLines s.reader.content)).flatten.length ≤ maxHeaderBytes

/-- A limit on the header section is exceeded. -/
def Exceeded (maxHeaderBytes : Nat) (stream : List UInt8) : Prop :=
  (∃ line ∈ headerLines (byteLines stream), 8192 < line.length) ∨
    maxHeaderBytes < (headerLines (byteLines stream)).flatten.length

theorem Exceeded.not_fits (exceeds : Exceeded maxHeaderBytes (afterLine content)) :
    ¬ Fits maxHeaderBytes content := by
  intro fits
  rcases exceeds with ⟨line, member, long⟩ | long
  · exact absurd (fits.short line member) (Nat.not_le_of_lt long)
  · exact absurd fits.few (Nat.not_le_of_lt long)

/-- The header loop reads the whole section, unless it exceeds a limit or is interrupted. -/
theorem headers_cases (s : Session) : After (readLoop (headerStep maxHeaderBytes) []) s
    (fun result t =>
      result = some (headerLines (byteLines s.reader.content)).flatten ∧ Closed maxHeaderBytes s t ∨
        result = none ∧ OnlyRead s t ∧ Exceeded maxHeaderBytes s.reader.content)
    fun e t => OnlyRead s t ∧ (e = .valueError ∧ Exceeded maxHeaderBytes s.reader.content ∨
      ∃ n fault, e = .other fault ∧ s.reader.fault = some (n, fault) ∧
        n < (headerLines (byteLines s.reader.content)).length) := by
  apply readLoop_after
    (fun headers t => ∃ lines, headers = lines.flatten ∧ Scanned maxHeaderBytes s t lines) _
    ⟨[], rfl, Scanned.refl s⟩
  rintro headers t ⟨lines, rfl, scanned⟩
  have whole := scanned.whole
  rw [headerLines_next t.reader.content] at whole
  have member : firstLine t.reader.content ∈ headerLines (byteLines s.reader.content) := by simp [whole]
  have total : lines.flatten.length + (firstLine t.reader.content).length ≤
      (headerLines (byteLines s.reader.content)).flatten.length := by
    rw [whole, List.flatten_append, List.flatten_cons, List.length_append, List.length_append]
    omega
  apply After.bind_iff.mpr
  refine limitedLine_cases _ (by omega) (fun reader rest spent limit => ?_) (fun reader exceeds => ?_)
    fun e fault => ?_
  · have read : OnlyRead s { t with reader } := scanned.read.trans ⟨reader, rfl⟩
    have reads := scanned.spent.trans spent
    have consumed : s.reader.content = (lines ++ [firstLine t.reader.content]).flatten ++ reader.content := by
      rw [scanned.consumed, rest, List.flatten_concat, List.append_assoc, line_parts]
    have short : ∀ line ∈ lines ++ [firstLine t.reader.content], line.length ≤ 8192 := by
      intro line member
      rcases List.mem_append.mp member with before | this
      · exact scanned.short line before
      · rw [List.mem_singleton.mp this]
        omega
    rw [← List.flatten_concat]
    split
    case isTrue exceeds =>
      rw [List.flatten_concat, List.length_append] at exceeds
      exact .inr ⟨rfl, read, .inr (by omega)⟩
    case isFalse fits =>
      cases ends : isLast (firstLine t.reader.content) with
      | true =>
        rw [ends, if_pos rfl] at whole
        refine .inl ⟨by rw [whole], read, by rw [whole, consumed], ?_, whole ▸ short, ?_⟩
        · rw [whole, List.length_append]
          exact reads.steady fun _ _ _ => Nat.zero_le _
        · rw [whole]
          exact Nat.le_of_not_lt fits
      | false =>
        have filled : firstLine t.reader.content ≠ [] := by
          intro none
          rw [none] at ends
          cases ends
        rw [ends, if_neg (by simp)] at whole
        refine ⟨⟨_, rfl, read, ?_, consumed, ?_, short, Nat.le_of_not_lt fits⟩, ?_⟩
        · rw [whole, rest, List.append_assoc, List.singleton_append]
        · rw [List.length_append]
          exact reads
        · rw [rest]
          exact afterLine_shorter fun none => filled (by rw [none]; rfl)
  · refine ⟨scanned.read.trans ⟨reader, rfl⟩, .inl ⟨rfl, ?_⟩⟩
    by_cases long : 8192 < (firstLine t.reader.content).length
    · exact .inl ⟨_, member, long⟩
    · exact .inr (by omega)
  · refine ⟨scanned.read, .inr ⟨lines.length, e, rfl, ?_, ?_⟩⟩
    · rw [scanned.spent, fault]
      rfl
    · rw [whole, List.length_append, List.length_cons]
      omega

/-- The rule of `handle`'s `try` block, by what the head of the stream is. -/
theorem handleRequest_cases {ok : Unit → Session → Prop} {fail : Raised → Session → Prop}
    (silent : (∀ r, ¬ Opens env.maxHeaderBytes s.reader.content r) → ∀ t, OnlyRead s t → ok () t)
    (cut : ¬ Undisturbed s.reader → ∀ e t, OnlyRead s t → fail (.other e) t)
    (large : ¬ Fits env.maxHeaderBytes s.reader.content → ∀ t, OnlyRead s t →
      fail .valueError t ∧ After (perform .headersTooLarge) t ok fail)
    (refused : ∀ t reply, OnlyRead s t →
      parseRequest (requestLine s.reader.content) (sectionLines s.reader.content).flatten = .error (some reply) →
      After (perform (.sendError reply)) t ok fail)
    (raised : ∀ t r e, OnlyRead s t → Undisturbed s.reader → Opens env.maxHeaderBytes s.reader.content r →
      env.emailError (sectionLines s.reader.content).flatten r = some e → fail e.raised t)
    (accepted : ∀ t r, OnlyRead s t → Undisturbed s.reader → Parses env s.reader.content r →
      s.reader.content = requestLine s.reader.content ++ (sectionLines s.reader.content).flatten ++
        t.reader.content → After (dispatch env r) t ok fail) :
    After (handleRequest env) s ok fail := by
  apply After.bind_iff.mpr
  refine limitedLine_cases 8192 (by decide) (fun reader rest spent short => ?_) (fun reader exceeds => ?_)
    fun e fault => ?_
  · have first : OnlyRead s { s with reader } := ⟨reader, rfl⟩
    split
    case isTrue empty =>
      refine silent (fun r opens => ?_) _ first
      have parsed := opens.parsed
      rw [requestLine, ← firstLine, empty] at parsed
      cases parsed
    case isFalse =>
      refine After.bind_iff.mpr ((headers_cases _).mono ?_ ?_)
      · rintro result t (⟨rfl, closed⟩ | ⟨rfl, read, exceeds⟩)
        · have read := first.trans closed.read
          obtain ⟨_, consumed, steady, fit, few⟩ := closed
          simp only [rest] at consumed steady fit few ⊢
          have fits : Fits env.maxHeaderBytes s.reader.content := ⟨short, fit, few⟩
          split
          case h_1 nothing =>
            refine silent (fun r opens => ?_) _ read
            have parsed := opens.parsed
            rw [requestLine, ← firstLine, sectionLines, nothing] at parsed
            cases parsed
          case h_2 reply failed => exact refused t reply read failed
          case h_3 r parsed =>
            have arrives : Undisturbed s.reader := by
              rw [Undisturbed, Nat.add_comm]
              exact spent.steady steady
            split
            case h_1 e failed => exact raised t r e read arrives ⟨fits, parsed⟩ failed
            case h_2 passed =>
              refine accepted t r read arrives ⟨⟨fits, parsed⟩, passed⟩ ?_
              rw [List.append_assoc, sectionLines, ← consumed]
              exact (line_parts _).symm
        · simp only [rest] at exceeds
          exact (large exceeds.not_fits t (first.trans read)).2
      · rintro e t ⟨read, ⟨rfl, exceeds⟩ | ⟨n, fault, rfl, fails, early⟩⟩
        · simp only [rest] at exceeds
          exact (large exceeds.not_fits t (first.trans read)).1
        · simp only [rest] at fails early
          refine cut (fun steady => ?_) fault t (first.trans read)
          have late := steady (1 + n) fault (by rw [spent, fails]; rfl)
          rw [sectionLines] at late
          omega
  · exact (large (fun fits => absurd fits.request (Nat.not_le_of_lt exceeds)) _ ⟨reader, rfl⟩).1
  · refine cut (fun steady => ?_) e s (OnlyRead.refl s)
    have late := steady 0 e fault
    omega

end Reading

end HttpSocksProxy.Http
