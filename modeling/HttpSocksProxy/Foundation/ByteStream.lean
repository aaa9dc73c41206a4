import Mathlib.Data.List.Basic

/-! A buffered reader of a byte stream that arrives in pieces: reading a line, an
exact number of bytes, or whatever is there. A read may also fail for a reason
of its own, after some number of reads. -/
namespace ByteStream

structure Reader (E : Type) where
  buffer : List UInt8
  pieces : List (List UInt8)
  fault : Option (Nat × E)

inductive Failure (E : Type) where
  | incomplete (received : List UInt8)
  | overrun
  | raised (e : E)
  deriving DecidableEq

theorem bind_error {x : Except E A} {f : A → Except E B} :
    x.bind f = .error e ↔ x = .error e ∨ ∃ a, x = .ok a ∧ f a = .error e := by
  cases x <;> simp [Except.bind]

theorem bind_ok {x : Except E A} {f : A → Except E B} :
    x.bind f = .ok b ↔ ∃ a, x = .ok a ∧ f a = .ok b := by
  cases x <;> simp [Except.bind]

theorem toOption_some {x : Except E A} : x.toOption = some a ↔ x = .ok a := by
  cases x <;> simp [Except.toOption]

namespace Reader
variable {E : Type}

/-- The bytes still to be read. -/
def content (r : Reader E) : List UInt8 := r.buffer ++ r.pieces.flatten

/-- A reader of these bytes, none of which has arrived yet. -/
def ofPieces (pieces : List (List UInt8)) : Reader E := ⟨[], pieces, none⟩

/-- Waits for pieces until the buffer is ready or the stream ends. -/
def fetch (ready : List UInt8 → Bool) : List UInt8 → List (List UInt8) → List UInt8 × List (List UInt8)
  | buffer, [] => (buffer, [])
  | buffer, piece :: later =>
    if ready buffer then (buffer, piece :: later) else fetch ready (buffer ++ piece) later

def fetched (ready : List UInt8 → Bool) (r : Reader E) (fault : Option (Nat × E)) : Reader E :=
  ⟨(fetch ready r.buffer r.pieces).1, (fetch ready r.buffer r.pieces).2, fault⟩

/-- Waits for a ready buffer, unless this read fails. -/
def await (ready : List UInt8 → Bool) (r : Reader E) : Except (Failure E) (Reader E) :=
  match r.fault with
  | none => .ok (r.fetched ready none)
  | some (0, e) => .error (.raised e)
  | some (n + 1, e) => .ok (r.fetched ready (some (n, e)))

/-- Takes bytes off the buffer. -/
def split (n : Nat) (r : Reader E) : List UInt8 × Reader E :=
  (r.buffer.take n, { r with buffer := r.buffer.drop n })

def readexactly (n : Nat) (r : Reader E) :
    Except (Failure E) (List UInt8 × Reader E) :=
  (r.await (n ≤ ·.length)).bind fun r =>
    if n ≤ r.buffer.length then .ok (r.split n) else .error (.incomplete r.buffer)

def newline : UInt8 := 10

/-- A line with its newline, or the rest of a stream that ends without one. -/
def readline (limit : Nat) (r : Reader E) :
    Except (Failure E) (List UInt8 × Reader E) :=
  (r.await fun buffer => newline ∈ buffer || limit < buffer.length).bind fun r =>
    if limit < r.buffer.idxOf newline then .error .overrun
    else .ok (r.split (r.buffer.idxOf newline + 1))

/-- At most `n` bytes; none when the stream has ended. -/
def read (n : Nat) (r : Reader E) :
    Except (Failure E) (List UInt8 × Reader E) :=
  (r.await (· ≠ [])).bind fun r => .ok (r.split n)

theorem fetch_content (ready : List UInt8 → Bool) (buffer : List UInt8) (pieces : List (List UInt8)) :
    (fetch ready buffer pieces).1 ++ (fetch ready buffer pieces).2.flatten =
      buffer ++ pieces.flatten := by
  induction pieces generalizing buffer with
  | nil => rfl
  | cons piece later ih =>
    unfold fetch
    split
    · rfl
    · rw [ih, List.flatten_cons, List.append_assoc]

/-- Waiting ends with a ready buffer, or with the whole stream in the buffer. -/
theorem fetch_ready (ready : List UInt8 → Bool) (buffer : List UInt8) (pieces : List (List UInt8)) :
    ready (fetch ready buffer pieces).1 = true ∨ (fetch ready buffer pieces).2 = [] := by
  induction pieces generalizing buffer with
  | nil => exact .inr rfl
  | cons piece later ih =>
    unfold fetch
    split
    case isTrue done => exact .inl done
    case isFalse => exact ih _

variable {r r' : Reader E}

/-- After this many reads. -/
def Spent (n : Nat) (r r' : Reader E) : Prop := r.fault = r'.fault.map fun (k, e) => (n + k, e)

/-- None of the first reads fails for a reason of its own. -/
def Steady (n : Nat) (r : Reader E) : Prop := ∀ k e, r.fault = some (k, e) → n ≤ k

theorem Spent.refl (r : Reader E) : Spent 0 r r := by simp [Spent]

theorem Spent.trans {r'' : Reader E} (first : Spent m r r') (last : Spent n r' r'') : Spent (m + n) r r'' := by
  rw [Spent, first, last, Option.map_map]
  simp only [Function.comp_def, Nat.add_assoc]

theorem Spent.healthy (spent : Spent n r r') (healthy : r.fault = none) : r'.fault = none := by
  rw [Spent, healthy] at spent
  exact Option.map_eq_none_iff.mp spent.symm

theorem Spent.steady (spent : Spent m r r') (steady : Steady n r') : Steady (m + n) r := by
  intro k e fault
  rw [spent, Option.map_eq_some_iff] at fault
  obtain ⟨⟨k, e⟩, left, same⟩ := fault
  cases same
  exact Nat.add_le_add_left (steady k e left) m

theorem await_ok (waited : r.await ready = .ok r') : r'.content = r.content ∧
    (ready r'.buffer = true ∨ r'.content = r'.buffer) ∧ Spent 1 r r' := by
  obtain ⟨fault, rfl, spent⟩ :
      ∃ fault, r' = r.fetched ready fault ∧ r.fault = fault.map fun (k, e) => (1 + k, e) := by
    unfold await at waited
    cases counted : r.fault with
    | none =>
      simp only [counted, Except.ok.injEq] at waited
      exact ⟨none, waited.symm, rfl⟩
    | some count =>
      obtain ⟨_ | n, e⟩ := count
      · simp [counted] at waited
      · simp only [counted, Except.ok.injEq] at waited
        exact ⟨some (n, e), waited.symm, by simp [Nat.add_comm]⟩
  refine ⟨fetch_content ready r.buffer r.pieces, ?_, spent⟩
  exact (fetch_ready ready r.buffer r.pieces).imp_right fun none => by simp [content, fetched, none]

/-- Waiting fails for the reader's own reason only. -/
theorem await_error (failed : r.await ready = .error reason) :
    ∃ e, reason = .raised e ∧ r.fault = some (0, e) := by
  unfold await at failed
  cases counted : r.fault with
  | none => simp [counted] at failed
  | some count =>
    obtain ⟨_ | n, e⟩ := count
    · simp only [counted, Except.error.injEq] at failed
      exact ⟨e, failed.symm, rfl⟩
    · simp [counted] at failed

theorem await_faultless (healthy : r.fault = none) (ready : List UInt8 → Bool) :
    ∃ r', r.await ready = .ok r' := by
  simp [await, healthy]

theorem split_content (n : Nat) (r : Reader E) : (r.split n).1 ++ (r.split n).2.content = r.content := by
  simp only [split, content]
  rw [← List.append_assoc, List.take_append_drop]

theorem readexactly_ok (done : r.readexactly n = .ok (bytes, r')) :
    r.content = bytes ++ r'.content ∧ bytes.length = n ∧ Spent 1 r r' := by
  obtain ⟨waited, arrived, done⟩ := bind_ok.mp done
  obtain ⟨same, _, fault⟩ := await_ok arrived
  split at done
  case isFalse => cases done
  case isTrue enough =>
    cases done
    refine ⟨?_, List.length_take_of_le enough, fault⟩
    rw [← same]
    exact (split_content n waited).symm

/-- An exact read fails when the stream is too short, or for a reason of its own. -/
theorem readexactly_error (failed : r.readexactly n = .error reason) :
    (∃ received, reason = .incomplete received ∧ r.content.length < n) ∨
      ∃ e, reason = .raised e ∧ r.fault = some (0, e) := by
  rcases bind_error.mp failed with failed | ⟨waited, arrived, failed⟩
  · exact .inr (await_error failed)
  · obtain ⟨same, ready, _⟩ := await_ok arrived
    split at failed
    case isTrue => cases failed
    case isFalse missing =>
      cases failed
      refine .inl ⟨_, rfl, ?_⟩
      rcases ready with ready | whole
      · exact absurd (by simpa using ready) missing
      · rw [← same, whole]
        omega

/-- An exact read of a healthy stream succeeds when the bytes are there. -/
theorem readexactly_content (healthy : r.fault = none) (enough : n ≤ r.content.length) :
    ∃ r', r.readexactly n = .ok (r.content.take n, r') ∧ r'.content = r.content.drop n ∧
      r'.fault = none := by
  obtain ⟨waited, arrived⟩ := await_faultless healthy (n ≤ ·.length)
  obtain ⟨same, ready, spent⟩ := await_ok arrived
  have there : n ≤ waited.buffer.length := by
    rcases ready with ready | whole
    · simpa using ready
    · rwa [← whole, same]
  refine ⟨(waited.split n).2, ?_, ?_, spent.healthy healthy⟩
  · rw [readexactly, arrived, Except.bind, if_pos there, ← same, content,
      List.take_append_of_le_length there]
    rfl
  · rw [← same, content, content, List.drop_append_of_le_length there]
    rfl

/-- An exact read of a healthy stream fails when the stream is too short. -/
theorem readexactly_short (healthy : r.fault = none) (short : r.content.length < n) :
    ∃ received, r.readexactly n = .error (.incomplete received) := by
  obtain ⟨waited, arrived⟩ := await_faultless healthy (n ≤ ·.length)
  obtain ⟨same, _, _⟩ := await_ok arrived
  have missing : ¬ n ≤ waited.buffer.length := by
    have : waited.buffer.length ≤ waited.content.length := by simp [content]
    rw [same] at this
    omega
  exact ⟨waited.buffer, by rw [readexactly, arrived, Except.bind, if_neg missing]⟩

/-- A buffer that has the newline, is too long, or holds the whole stream tells
where the line ends. -/
theorem split_line (limit : Nat)
    (ready : newline ∈ r.buffer ∨ limit < r.buffer.length ∨ r.content = r.buffer) :
    (limit < r.buffer.idxOf newline ↔ limit < r.content.idxOf newline) ∧
      (¬ limit < r.buffer.idxOf newline →
        (r.split (r.buffer.idxOf newline + 1)).1 = r.content.take (r.content.idxOf newline + 1) ∧
        (r.split (r.buffer.idxOf newline + 1)).2.content =
          r.content.drop (r.content.idxOf newline + 1)) := by
  by_cases found : newline ∈ r.buffer
  case pos =>
    have index : r.content.idxOf newline = r.buffer.idxOf newline :=
      List.idxOf_append_of_mem found
    have inside : r.buffer.idxOf newline + 1 ≤ r.buffer.length := List.idxOf_lt_length_of_mem found
    rw [index]
    refine ⟨Iff.rfl, fun _ => ⟨?_, ?_⟩⟩
    · rw [content, List.take_append_of_le_length inside]
      rfl
    · rw [content, content, List.drop_append_of_le_length inside]
      rfl
  case neg =>
    have last := List.idxOf_eq_length found
    rcases ready with there | long | whole
    · contradiction
    · refine ⟨⟨fun _ => ?_, fun _ => by omega⟩, fun short => by omega⟩
      rw [content, List.idxOf_append_of_notMem found]
      omega
    · rw [whole]
      refine ⟨Iff.rfl, fun _ => ⟨rfl, ?_⟩⟩
      have rest : r.pieces.flatten = [] := by simpa [content] using whole
      simp [split, content, rest]

theorem readline_ok (done : r.readline limit = .ok (line, r')) :
    r.content.idxOf newline ≤ limit ∧ line = r.content.take (r.content.idxOf newline + 1) ∧
      r'.content = r.content.drop (r.content.idxOf newline + 1) ∧ Spent 1 r r' := by
  obtain ⟨waited, arrived, done⟩ := bind_ok.mp done
  obtain ⟨same, ready, fault⟩ := await_ok arrived
  obtain ⟨index, taken⟩ := split_line (r := waited) limit (by simpa [or_assoc] using ready)
  split at done
  case isTrue => cases done
  case isFalse short =>
    cases done
    obtain ⟨line, rest⟩ := taken short
    rw [← same]
    exact ⟨Nat.le_of_not_lt (index.not.mp short), line, rest, fault⟩

/-- A line is not read when it is over the limit, or for a reason of its own. -/
theorem readline_error (failed : r.readline limit = .error reason) :
    (reason = .overrun ∧ limit < r.content.idxOf newline) ∨
      ∃ e, reason = .raised e ∧ r.fault = some (0, e) := by
  rcases bind_error.mp failed with failed | ⟨waited, arrived, failed⟩
  · exact .inr (await_error failed)
  · obtain ⟨same, ready, _⟩ := await_ok arrived
    obtain ⟨index, _⟩ := split_line (r := waited) limit (by simpa [or_assoc] using ready)
    rw [same] at index
    split at failed
    case isTrue long =>
      cases failed
      exact .inl ⟨rfl, index.mp long⟩
    case isFalse => cases failed

theorem read_ok (done : r.read n = .ok (bytes, r')) : r.content = bytes ++ r'.content ∧
    bytes.length ≤ n ∧ (0 < n → bytes = [] → r.content = []) ∧ Spent 1 r r' := by
  obtain ⟨waited, arrived, done⟩ := bind_ok.mp done
  obtain ⟨same, ready, fault⟩ := await_ok arrived
  cases done
  refine ⟨?_, List.length_take_le _ _, fun positive none => ?_, fault⟩
  · rw [← same]
    exact (split_content n waited).symm
  · have empty : waited.buffer = [] := by
      rcases List.take_eq_nil_iff.mp none with zero | empty
      · omega
      · exact empty
    rcases ready with ready | whole
    · simp [empty] at ready
    · rw [← same, whole, empty]

theorem read_error (failed : r.read n = .error reason) :
    ∃ e, reason = .raised e ∧ r.fault = some (0, e) := by
  rcases bind_error.mp failed with failed | ⟨_, _, taken⟩
  · exact await_error failed
  · cases taken

/-- A read from an empty buffer takes from the next piece. -/
theorem read_piece (filled : piece ≠ []) (n : Nat) (later : List (List UInt8)) :
    (⟨[], piece :: later, none⟩ : Reader E).read n = .ok (piece.take n, ⟨piece.drop n, later, none⟩) := by
  have fetched : fetch (· ≠ []) [] (piece :: later) = (piece, later) := by
    cases later <;> simp [fetch, filled]
  simp only [read, await, Reader.fetched, fetched]
  rfl

end Reader
end ByteStream
