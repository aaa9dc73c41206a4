import HttpSocksProxy.Foundation.Effect
import HttpSocksProxy.Http.Forward
import HttpSocksProxy.Server.Exceptions

/-! `_forward_request_body`: the body of a request, as it goes upstream. -/
namespace HttpSocksProxy.Http
open ByteStream Effect
open ByteStream.Reader (newline)

/-- What a handler raises; `exhausted` is none of the source's exceptions, and no
loop of it gets there. -/
inductive Raised where
  | bodyError (text : Text)
  | valueError
  | other (e : Exn)
  | exhausted
  deriving DecidableEq, Repr

/-- What the handler does besides reading and writing upstream; `unread` is what
it has not read yet. -/
inductive Event where
  | tcpConnect (address : Authority)
  | sendError (reply : Reply)
  | badGateway (address : Authority)
  | headersTooLarge
  | established
  | tcpForward (unread : List UInt8)
  | forwardResponse (unread : List UInt8)
  | closeUpstream
  deriving DecidableEq

/-- `drains` says after how many calls `drain` of the upstream writer fails. -/
structure Session where
  reader : Reader Exn
  drains : Option (Nat × Exn)
  upstream : List UInt8 := []
  outbound : Nat := 0
  trace : List Event := []

abbrev Handler := EStateM Raised Session

def raised : Failure Exn → Raised
  | .incomplete _ => .other .exception
  | .overrun => .valueError
  | .raised e => .other e

/-- One operation of the stream reader. -/
def reading (operation : Reader Exn → Except (Failure Exn) (List UInt8 × Reader Exn)) :
    Handler (List UInt8) := fun s =>
  match operation s.reader with
  | .ok (bytes, reader) => .ok bytes { s with reader }
  | .error failure => .error (raised failure) s

def readline : Handler (List UInt8) := reading (·.readline 65536)

def write (bytes : List UInt8) : Handler Unit := modify fun s =>
  { s with upstream := s.upstream ++ bytes }

def addOutbound (n : Nat) : Handler Unit := modify fun s => { s with outbound := s.outbound + n }

def send (bytes : List UInt8) : Handler Unit := do
  write bytes
  addOutbound bytes.length

def drain : Handler Unit := fun s =>
  match s.drains with
  | none => .ok () s
  | some (0, e) => .error (.other e) s
  | some (n + 1, e) => .ok () { s with drains := some (n, e) }

/-- A loop that takes bytes of the client in every round but the last. -/
def readLoop (body : A → Handler (A ⊕ B)) (a : A) : Handler B := do
  let s ← get
  loop .exhausted body (s.reader.content.length + 1) a

/-- `bytes.strip()` -/
def stripBytes (bytes : List UInt8) : List UInt8 :=
  let isBlank (b : UInt8) : Bool := b = 32 || (9 ≤ b && b ≤ 13)
  (bytes.dropWhile isBlank).rdropWhile isBlank

/-- The size in a chunk header. -/
def chunkSize (line : List UInt8) : Option Nat :=
  let text := stripBytes (line.takeWhile (· ≠ 59))
  if text ≠ [] ∧ text.all isHex then InetText.numeralValue 16 (str text) else none

/-- At most 64 KiB of the rest of a chunk. -/
def pieceStep (remaining : Nat) : Handler (Nat ⊕ Unit) :=
  if remaining = 0 then return .inr ()
  else do
    let data ← reading (·.readexactly (min 65536 remaining))
    send data
    drain
    return .inl (remaining - data.length)

def trailerStep (maxHeaderBytes total : Nat) : Handler (Nat ⊕ Unit) := do
  let trailer ← readline
  if trailer = [] then throw (.other .connectionError)
  else if maxHeaderBytes < total + trailer.length then throw .valueError
  else
    send trailer
    if isLast trailer then return .inr () else return .inl (total + trailer.length)

def chunkStep (maxHeaderBytes : Nat) (_ : Unit) : Handler (Unit ⊕ Unit) := do
  let line ← readline
  if line = [] then throw (.other .connectionError)
  else if 8192 < line.length then throw .valueError
  else if !crlf.isSuffixOf line then throw (.bodyError (latin "malformed chunk header terminator"))
  else match chunkSize line with
    | none => throw (.bodyError (latin "malformed chunk size"))
    | some 0 =>
      send line
      readLoop (trailerStep maxHeaderBytes) 0
      return .inr ()
    | some size =>
      send line
      loop .exhausted pieceStep (size + 1) size
      let terminator ← reading (·.readexactly 2)
      if terminator ≠ crlf then throw (.bodyError (latin "malformed chunk data terminator"))
      else
        send terminator
        drain
        return .inl ()

/-- At most 64 KiB of the rest of a body of known length. -/
def lengthStep (remaining : Nat) : Handler (Nat ⊕ Unit) :=
  if remaining = 0 then return .inr ()
  else do
    let chunk ← reading (·.read (min 65536 remaining))
    if chunk = [] then throw (.other .connectionError)
    else
      send chunk
      drain
      return .inl (remaining - chunk.length)

/-- `_forward_request_body`. -/
def forwardRequestBody (maxHeaderBytes : Nat) : Framing → Handler Unit
  | .chunked _ => readLoop (chunkStep maxHeaderBytes) ()
  | .length n => loop .exhausted lengthStep (n + 1) n
  | .none => pure ()

/-- From `s` to `t` these bytes of the client went upstream, and nothing else happened. -/
structure Moved (s t : Session) (bytes : List UInt8) : Prop where
  consumed : s.reader.content = bytes ++ t.reader.content
  written : t.upstream = s.upstream ++ bytes
  counted : t.outbound = s.outbound + bytes.length
  silent : t.trace = s.trace

theorem Moved.refl (s : Session) : Moved s s [] := ⟨rfl, by simp, by simp, rfl⟩

theorem Moved.trans (first : Moved s t before) (last : Moved t u after) : Moved s u (before ++ after) where
  consumed := by rw [first.consumed, last.consumed, List.append_assoc]
  written := by rw [last.written, first.written, List.append_assoc]
  counted := by rw [last.counted, first.counted, List.length_append, Nat.add_assoc]
  silent := last.silent.trans first.silent

/-- A line with its newline, which is its last byte. -/
def IsLine (line : List UInt8) : Prop := ∃ content, line = content ++ [newline] ∧ newline ∉ content

theorem IsLine.ne_nil (line : IsLine bytes) : bytes ≠ [] := by
  obtain ⟨content, rfl, _⟩ := line
  simp

/-- A line stands in a stream in one way only. -/
theorem IsLine.unique (first : IsLine p) (second : IsLine q) (same : p ++ x = q ++ y) : p = q := by
  obtain ⟨p, rfl, inner⟩ := first
  obtain ⟨q, rfl, inner'⟩ := second
  have left : (p ++ newline :: x).idxOf newline = _ := List.idxOf_append_of_notMem inner
  have right : (q ++ newline :: y).idxOf newline = _ := List.idxOf_append_of_notMem inner'
  simp only [List.append_assoc, List.singleton_append] at same
  rw [same, right] at left
  simp only [List.idxOf_cons_self, Nat.add_zero] at left
  rw [List.append_inj_left same left.symm]

theorem isLine_take {bytes : List UInt8} (found : newline ∈ bytes) :
    IsLine (bytes.take (bytes.idxOf newline + 1)) := by
  induction bytes with
  | nil => simp at found
  | cons b bytes ih =>
    by_cases same : b = newline
    · exact ⟨[], by simp [same], by simp⟩
    · obtain ⟨content, taken, inner⟩ := ih (List.mem_of_ne_of_mem (Ne.symm same) found)
      refine ⟨b :: content, ?_, by simp [Ne.symm same, inner]⟩
      rw [List.idxOf_cons_ne _ same, List.take_succ_cons, taken, List.cons_append]

section Rules
variable {s : Session} {ok : α → Session → Prop} {fail : Raised → Session → Prop}

theorem raised_expected (failure : Failure Exn) : raised failure ≠ .exhausted := by
  cases failure <;> simp [raised]

theorem reading_cases {ok : List UInt8 → Session → Prop}
    (okay : ∀ bytes reader, operation s.reader = .ok (bytes, reader) → ok bytes { s with reader })
    (failing : ∀ reason, operation s.reader = .error reason → fail (raised reason) s) :
    After (reading operation) s ok fail := by
  unfold After reading
  cases got : operation s.reader with
  | ok result => exact okay result.1 result.2 got
  | error reason => exact failing reason got

/-- Bytes that were read can be sent on. -/
theorem reading_after {ok : List UInt8 → Session → Prop}
    (okay : ∀ bytes reader, operation s.reader = .ok (bytes, reader) → ok bytes { s with reader })
    (failing : ∀ e, e ≠ .exhausted → fail e s) : After (reading operation) s ok fail :=
  reading_cases okay fun reason _ => failing _ (raised_expected reason)

theorem drain_after {ok : Unit → Session → Prop} (okay : ∀ t, Moved s t [] → t.reader = s.reader → ok () t)
    (failing : ∀ e, e ≠ .exhausted → fail e s) : After drain s ok fail := by
  unfold After drain
  cases drains : s.drains with
  | none => exact okay s (Moved.refl s) rfl
  | some count =>
    obtain ⟨_ | n, e⟩ := count
    · exact failing _ (by simp)
    · exact okay _ ⟨rfl, by simp, by simp, rfl⟩ rfl

/-- The rule of `readLoop`: every round but the last takes bytes of the client. -/
theorem readLoop_after {body : A → Handler (A ⊕ B)} {ok : B → Session → Prop} (inv : A → Session → Prop)
    (step : ∀ a t, inv a t → After (body a) t (fun next u => match next with
      | .inl b => inv b u ∧ u.reader.content.length < t.reader.content.length
      | .inr done => ok done u) fail) (start : inv a s) : After (readLoop body a) s ok fail := by
  apply After.bind_iff.mpr
  apply After.get_iff.mpr
  refine After.loop inv (fun _ t => t.reader.content.length) (fun a t keeps => ?_) start
    (Nat.lt_succ_self _)
  refine (step a t keeps).mono (fun next u after => ?_) fun _ _ failed => failed
  cases next <;> exact after

end Rules

end HttpSocksProxy.Http
