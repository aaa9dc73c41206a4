import HttpSocksProxy.Http.Opening

/-! A request head that the client does not finish: when `handle` acts on it. -/
namespace HttpSocksProxy.Http
open ByteStream Effect
open ByteStream.Reader (newline)

/-- The stream ends before an empty line has followed a complete request line. -/
def Truncated (content : List UInt8) : Prop :=
  ¬ [10, 10] <:+: content ∧ ¬ [10, 13, 10] <:+: content

/-- The address that the handler of the method asks for. -/
def Request.address (r : Request) : Option Authority :=
  if r.command.1 = latin "CONNECT" then (authorityAddress r.path.1 443).toOption
  else if r.command.1 ∈ verbs then (accept r).toOption.map Accepted.address
  else none

/-- No limit on the header section is exceeded. -/
def Within (maxHeaderBytes : Nat) (headers : List UInt8) : Prop :=
  headers.length ≤ maxHeaderBytes ∧ ∀ line ∈ byteLines headers, line.length ≤ 8192

/-- The bytes up to the first newline and the bytes after it make a request that
its handler accepts. -/
def Actionable (env : Env) (content : List UInt8) : Prop :=
  let raw := content.take (content.idxOf newline + 1)
  let headers := content.drop (content.idxOf newline + 1)
  raw.length ≤ 8192 ∧ Within env.maxHeaderBytes headers ∧
    ∃ r, parseRequest raw headers = .ok r ∧ env.emailError headers r = none ∧ r.address.isSome

/-- What follows the first line follows a newline. -/
theorem newline_drop {bytes : List UInt8} (more : afterLine bytes ≠ []) :
    newline :: afterLine bytes <:+ bytes := by
  have found : newline ∈ bytes := by
    by_contra missing
    rw [afterLine, List.idxOf_eq_length missing] at more
    exact more (List.drop_of_length_le (Nat.le_succ _))
  obtain ⟨content, taken, _⟩ := isLine_take found
  refine ⟨content, ?_⟩
  conv => rhs; rw [← line_parts bytes, firstLine, taken]
  simp

/-- Every line follows a newline, or is the first one. -/
theorem byteLines_mem (bytes : List UInt8) : ∀ line ∈ byteLines bytes,
    line ≠ [] ∧ newline :: line <:+: newline :: bytes := by
  induction size : bytes.length using Nat.strong_induction_on generalizing bytes with
  | _ n ih =>
    subst size
    intro line member
    by_cases filled : bytes = []
    · simp [filled, byteLines] at member
    rw [byteLines_cons filled] at member
    rcases List.mem_cons.mp member with rfl | later
    · refine ⟨by simp [firstLine, filled], ?_⟩
      exact (List.prefix_cons_inj newline |>.mpr (List.take_prefix _ _)).isInfix
    · have more : afterLine bytes ≠ [] := by
        intro none
        simp [none, byteLines] at later
      obtain ⟨nonempty, stands⟩ := ih _ (afterLine_shorter filled) _ rfl line later
      exact ⟨nonempty, stands.trans ((newline_drop more).isInfix.trans (List.suffix_cons _ _).isInfix)⟩

theorem truncated_lines (truncated : Truncated content) :
    ∀ line ∈ byteLines (afterLine content), isLast line = false := by
  intro line member
  have more : afterLine content ≠ [] := by
    intro none
    simp [none, byteLines] at member
  obtain ⟨nonempty, stands⟩ := byteLines_mem _ line member
  have inside := stands.trans (newline_drop more).isInfix
  cases ends : isLast line with
  | false => rfl
  | true =>
    simp only [isLast, nonempty, Bool.or_eq_true, decide_eq_true_eq, decide_false] at ends
    rcases ends with (rfl | rfl) | impossible
    · exact absurd inside truncated.2
    · exact absurd inside truncated.1
    · cases impossible

/-- The trace of a handler only grows. -/
def Grows (s t : Session) : Prop := s.trace <+: t.trace

theorem grows : Acting Grows where
  refl _ := List.prefix_rfl
  trans first last := List.IsPrefix.trans first last
  read _ _ := List.prefix_rfl
  drained _ _ := List.prefix_rfl
  sent _ _ := List.prefix_rfl
  acted s event := List.prefix_append s.trace [event]

theorem relayRequest_grows (maxHeaderBytes : Nat) (a : Accepted r) :
    Steps Grows (relayRequest maxHeaderBytes a) := by
  refine grows.bind (fun _ => List.prefix_rfl) fun _ => grows.bind grows.drain fun _ => ?_
  exact grows.bind (fun _ => List.prefix_rfl) fun _ => grows.forwardRequestBody _ _

/-- An upstream connection was asked for. -/
def Connected (t : Session) : Prop := ∃ address, .tcpConnect address ∈ t.trace

theorem not_connected (quiet : s.trace = []) : ¬ Connected s := by
  rintro ⟨address, member⟩
  simp [quiet] at member

/-- No other event asks for a connection. -/
theorem silent_event (s : Session) (event : Event) (other : ∀ address, event ≠ .tcpConnect address) :
    Ends (perform event) s fun t => Connected t ↔ Connected s := by
  refine After.modify_iff.mpr ?_
  simp [Connected, fun address => (other address).symm]

section Dispatch
variable {s : Session} {r : Request} {expected : Prop}

/-- Once a handler has asked for a connection, that stands in its trace. -/
theorem asked_settles (holds : expected) {x : Handler Unit} (grows : Steps Grows x) :
    Ends (do perform (.tcpConnect address); x) s fun t => Connected t ↔ expected := by
  have settled {t : Session} (grown : (s.trace ++ [.tcpConnect address]) <+: t.trace) :
      Connected t ↔ expected :=
    iff_of_true ⟨address, grown.subset (by simp)⟩ holds
  apply After.bind_iff.mpr
  apply After.modify_iff.mpr
  exact (grows _).mono (fun _ t grown => settled grown) fun _ t grown => settled grown

theorem silent_settles (refused : ¬ expected) (silent : s.trace = []) (event : Event)
    (other : ∀ address, event ≠ .tcpConnect address) :
    Ends (perform event) s fun t => Connected t ↔ expected := by
  have quiet : ¬ Connected s ↔ ¬ expected := iff_of_true (not_connected silent) refused
  apply (silent_event s event other).mono
  intro t same
  exact same.trans (not_iff_not.mp quiet)

theorem doConnect_settles (env : Env) (command : r.command.1 = latin "CONNECT") (silent : s.trace = []) :
    Ends (doConnect env r) s fun t => Connected t ↔ r.address.isSome := by
  have address : r.address = (authorityAddress r.path.1 443).toOption := if_pos command
  simp only [doConnect]
  split
  case h_1 text failed =>
    exact silent_settles (by simp [address, failed, Except.toOption]) silent _ (by simp)
  case h_2 found =>
    apply asked_settles (by simp [address, found, Except.toOption])
    split
    · exact grows.connectFailed _ _
    · apply grows.closingUpstream
      exact grows.bind (grows.perform _) fun _ => grows.bind (grows.outcome _) fun _ => grows.observe _

theorem doVerb_settles (env : Env) (command : r.command.1 ∈ verbs) (silent : s.trace = []) :
    Ends (doVerb env r) s fun t => Connected t ↔ r.address.isSome := by
  have other : r.command.1 ≠ latin "CONNECT" := by
    intro same
    rw [same] at command
    revert command
    decide
  have address : r.address = (accept r).toOption.map Accepted.address := by
    rw [Request.address, if_neg other, if_pos command]
  simp only [doVerb]
  split
  case h_1 reply failed =>
    exact silent_settles (by simp [address, failed, Except.toOption]) silent _ (by simp)
  case h_2 text failed =>
    exact iff_of_false (not_connected silent) (by simp [address, failed, Except.toOption])
  case h_3 a found =>
    apply asked_settles (by simp [address, found, Except.toOption])
    split
    · exact grows.connectFailed _ _
    · apply grows.closingUpstream
      exact grows.bind (relayRequest_grows _ a) fun _ => grows.bind (grows.writeEof env) fun _ =>
        grows.observe _

/-- The handler of a method asks for the address it finds in the request, if any. -/
theorem dispatch_settles (env : Env) (silent : s.trace = []) :
    Ends (dispatch env r) s fun t => Connected t ↔ r.address.isSome := by
  simp only [dispatch]
  split
  case isTrue command => exact doConnect_settles env command silent
  case isFalse other =>
    split
    case isTrue command => exact doVerb_settles env command silent
    case isFalse unknown =>
      exact silent_settles (by simp [Request.address, other, unknown]) silent _ (by simp)

end Dispatch

theorem headerLines_open (goes : ∀ line ∈ lines, isLast line = false) : headerLines lines = lines ++ [[]] := by
  induction lines with
  | nil => rfl
  | cons line lines ih =>
    obtain ⟨first, more⟩ := List.forall_mem_cons.mp goes
    rw [headerLines, first, if_neg (by simp), ih more, List.cons_append]

theorem byteLines_flatten (bytes : List UInt8) : (byteLines bytes).flatten = bytes := by
  induction bytes with
  | nil => rfl
  | cons b rest ih =>
    rw [byteLines]
    split
    case isTrue => simp [ih]
    case isFalse =>
      cases lines : byteLines rest <;> simpa [lines] using ih

/-- Without an empty line the header section is all of the stream. -/
theorem truncated_parses (truncated : Truncated content) : Actionable env content ↔
    ∃ r, Parses env content r ∧ r.address.isSome := by
  have section_ : sectionLines content = byteLines (afterLine content) ++ [[]] :=
    headerLines_open (truncated_lines truncated)
  have whole : (sectionLines content).flatten = afterLine content := by
    rw [section_, List.flatten_concat, byteLines_flatten, List.append_nil]
  have fits : Fits env.maxHeaderBytes content ↔
      (requestLine content).length ≤ 8192 ∧ Within env.maxHeaderBytes (afterLine content) := by
    refine ⟨fun ⟨request, short, few⟩ => ⟨request, whole ▸ few, fun line member => ?_⟩,
      fun ⟨request, few, short⟩ => ⟨request, fun line member => ?_, whole.symm ▸ few⟩⟩
    · exact short line (by rw [section_]; exact List.mem_append_left _ member)
    · rw [section_, List.mem_append, List.mem_singleton] at member
      rcases member with inside | rfl
      · exact short line inside
      · exact Nat.zero_le _
  constructor
  · rintro ⟨short, within, r, parsed, silent, found⟩
    exact ⟨r, ⟨⟨fits.mpr ⟨short, within⟩, by rw [whole]; exact parsed⟩, by rw [whole]; exact silent⟩, found⟩
  · rintro ⟨r, ⟨⟨limits, parsed⟩, silent⟩, found⟩
    rw [whole] at parsed silent
    exact ⟨(fits.mp limits).1, (fits.mp limits).2, r, parsed, silent, found⟩

theorem handleRequest_settles (env : Env) (healthy : s.reader.fault = none)
    (truncated : Truncated s.reader.content) (silent : s.trace = []) :
    Ends (handleRequest env) s fun t => Connected t ↔ Actionable env s.reader.content := by
  have quiet {t : Session} (read : OnlyRead s t) : t.trace = [] := by
    obtain ⟨_, rfl⟩ := read
    exact silent
  rw [truncated_parses truncated]
  apply handleRequest_cases
  · rintro none t read
    exact iff_of_false (not_connected (quiet read)) fun ⟨r, parses, _⟩ => none r parses.toOpens
  · intro disturbed
    refine absurd (fun n e fault => ?_) disturbed
    rw [healthy] at fault
    cases fault
  · rintro large t read
    have refused : ¬ ∃ r, Parses env s.reader.content r ∧ r.address.isSome :=
      fun ⟨_, parses, _⟩ => large parses.fits
    exact ⟨iff_of_false (not_connected (quiet read)) refused, silent_settles refused (quiet read) _ (by simp)⟩
  · rintro t reply read failed
    refine silent_settles (fun ⟨r, parses, _⟩ => ?_) (quiet read) _ (by simp)
    rw [parses.parsed] at failed
    cases failed
  · rintro t r e read _ opens raises
    refine iff_of_false (not_connected (quiet read)) fun ⟨r', parses, _⟩ => ?_
    obtain rfl := opens.unique parses.toOpens
    rw [parses.silent] at raises
    cases raises
  · rintro t r read _ parses _
    refine (dispatch_settles env (quiet read)).mono fun u settled => settled.trans ?_
    exact ⟨fun found => ⟨r, parses, found⟩,
      fun ⟨_, other, found⟩ => parses.toOpens.unique other.toOpens ▸ found⟩

theorem recover_silent (env : Env) (e : Raised) (s : Session) :
    Ends (recover env e) s fun t => Connected t ↔ Connected s := by
  have answered (event : Event) (other : ∀ address, event ≠ .tcpConnect address) :
      Ends (if env.closing then pure () else perform event) s fun t => Connected t ↔ Connected s := by
    split
    · exact Iff.rfl
    · exact silent_event s event other
  cases e with
  | bodyError text => exact answered _ (by simp)
  | valueError => exact answered _ (by simp)
  | other e =>
    rw [recover]
    split <;> exact Iff.rfl
  | exhausted => exact Iff.rfl

/-- A request head that the stream cuts short is left alone exactly when what came
of it is over a limit or is no request that its handler accepts. -/
theorem truncated_head_iff (env : Env) (s : Session) (healthy : s.reader.fault = none)
    (fresh : s.trace = []) (truncated : Truncated s.reader.content) :
    (∀ address, .tcpConnect address ∉ (final (handle env) s).trace) ↔
      ¬ Actionable env s.reader.content := by
  have settled : Ends (handle env) s fun t => Connected t ↔ Actionable env s.reader.content := by
    apply (handleRequest_settles env healthy truncated fresh).tryCatch
    intro e t settled
    exact (recover_silent env e t).mono fun _ same => same.trans settled
  rw [← settled.final]
  simp [Connected]

/-- The world in which every operation succeeds. -/
def calm : Env := ⟨65536, .ok (), .ok (), .ok (), false, fun _ => none⟩

def arrives (pieces : List (List UInt8)) : Session := { reader := Reader.ofPieces pieces, drains := none }

/-- A method that is cut short is not acted on. -/
theorem shortened_method_refused : ¬ Connected (final (handle calm) (arrives [latin "GE"])) := by
  rintro ⟨address, asked⟩
  have refused : (parseRequest (latin "GE") []).toOption = none := by decide +kernel
  apply (truncated_head_iff calm (arrives [latin "GE"]) rfl rfl (by unfold Truncated; decide)).mpr _ address asked
  rintro ⟨_, _, r, parsed, _⟩
  rw [show parseRequest (latin "GE") [] = .ok r from parsed] at refused
  cases refused

/-- A target that is cut short is acted on. -/
theorem shortened_target_connects :
    Truncated (latin "GET http://h/pa") ∧
      .tcpConnect (latin "h", 80) ∈ (final (handle calm) (arrives [latin "GET http://h/pa"])).trace := by
  simp only [Truncated]
  decide +kernel

-- A header section without its end is acted on too.
example : .tcpConnect (latin "h", 80) ∈ (final (handle calm)
    (arrives [latin "GET http://h/ HTTP/1.0\r\nContent-Length: 1"])).trace := by
  decide +kernel

end HttpSocksProxy.Http
