import HttpSocksProxy.Http.Handler
import HttpSocksProxy.Http.Relaying
import HttpSocksProxy.Http.Sanitized

/-! Where a body ends: what `_forward_request_body` writes upstream is one complete
body under the framing of the request, and the emitted head announces that framing. -/
namespace HttpSocksProxy.Http
open ByteStream Effect
open ByteStream.Reader (newline)

/-- A handler that sends on what it has read, and never runs out of fuel. -/
def Relays (x : Handler α) (s : Session) (ok : α → List UInt8 → Session → Prop) : Prop :=
  After x s (fun a t => ∃ bytes, Moved s t bytes ∧ ok a bytes t) fun e _ => e ≠ .exhausted

/-- When the body relay returns, it has sent one complete body and nothing else. -/
theorem forwardRequestBody_relays (maxHeaderBytes : Nat) (framing : Framing) :
    Relays (forwardRequestBody maxHeaderBytes framing) s fun _ body _ => Complete framing body := by
  refine (forwardRequestBody_after maxHeaderBytes framing s).mono ?_ fun _ _ stopped => stopped.1
  rintro _ t ⟨body, passed, complete⟩
  exact ⟨body, passed.toMoved, complete⟩

/-- The name of the last transfer coding of a value. -/
def lastCoding (value : Text) : Text := lower (strip (value.rtakeWhile (· ≠ 44)))

/-- The framing that the fields of a message announce; `none` when they are ambiguous. -/
def announced (fields : List (Text × Text)) : Option Framing :=
  match fields.filter (fun f => lower f.1 = transferEncoding),
    fields.filter (fun f => lower f.1 = contentLength) with
  | [], [] => some .none
  | [], [(_, value)] =>
    if value ≠ [] ∧ value.all isAsciiDigit then (InetText.numeralValue 10 (str value)).map .length else none
  | [(_, value)], [] => if lastCoding value = chunked then some (.chunked value) else none
  | _, _ => none

theorem strip_strip (t : Text) : strip (strip t) = strip t := by
  have first : (strip t).dropWhile isSpace = strip t := by
    cases same : strip t with
    | nil => rfl
    | cons b rest =>
      obtain ⟨more, whole⟩ : strip t <+: t.dropWhile isSpace := List.rdropWhile_prefix _ _
      rw [same] at whole
      have outside := List.head?_dropWhile_not isSpace t
      rw [← whole] at outside
      exact List.dropWhile_cons_of_neg (by simpa using outside)
  rw [strip, first]
  exact List.rdropWhile_idempotent isSpace _

theorem chunked_ascii (known : lower t = chunked) : isAscii t = true := by
  have all : ∀ n < 256, lowerChar (UInt8.ofNat n) < 128 → UInt8.ofNat n < 128 := by decide +kernel
  have small : ∀ b ∈ lower t, b < 128 := by
    rw [known]
    simpa using List.all_eq_true.mp (show chunked.all (· < 128) by decide)
  simp only [isAscii, List.all_eq_true, decide_eq_true_eq]
  intro b member
  simpa using all b.toNat b.toNat_lt (by simpa using small _ (List.mem_map_of_mem member))

theorem intercalate_concat (sep : Text) (before : List Text) (last : Text) :
    ∃ front, sep.intercalate (before ++ [last]) = front ++ last ∧ (front = [] ∨ sep <:+ front) := by
  induction before with
  | nil => exact ⟨[], by simp, .inl rfl⟩
  | cons first before ih =>
    obtain ⟨front, same, ends⟩ := ih
    refine ⟨first ++ sep ++ front, ?_, .inr ?_⟩
    · rw [List.cons_append, List.intercalate_cons_of_ne_nil (by simp), same]
      simp
    · rcases ends with rfl | ends
      · simp
      · exact ends.trans (List.suffix_append _ _)

theorem rtakeWhile_sep {p : UInt8 → Bool} (ends : p sep = false) (inner : ∀ b ∈ after, p b = true) :
    (before ++ sep :: after).rtakeWhile p = after := by
  have inner : ∀ b ∈ after.reverse, p b = true := fun b member => inner b (List.mem_reverse.mp member)
  rw [List.rtakeWhile, List.reverse_append, List.reverse_cons, List.append_assoc,
    List.takeWhile_append_of_pos inner]
  simp [ends]

/-- The emitted transfer codings end in `chunked`. -/
theorem lastCoding_codings {headers : List MessageHead.Field}
    (valid : validatedFraming headers = .ok (.chunked codings)) :
    lastCoding (utf8 codings) = chunked := by
  obtain ⟨rfl, before, last, items, named⟩ := framing_chunked valid
  have listed : last ∈ elements (getAll transferEncoding headers) := by
    rw [items]
    simp
  obtain ⟨_, _, piece, _, single, rfl⟩ := mem_elements listed
  have comma : ∀ b ∈ strip piece, decide (b ≠ 44) = true := fun b member =>
    decide_eq_true fun same => single (same ▸ (strip_within piece).subset member)
  rw [strip_strip] at named
  have plain : utf8 (strip piece) = strip piece := utf8_ascii (chunked_ascii named)
  obtain ⟨front, same, ends⟩ := intercalate_concat (latin ", ") before (strip piece)
  rw [items, same, utf8_append, plain, lastCoding]
  rcases ends with rfl | ⟨front, rfl⟩
  · rw [utf8_nil, List.nil_append, List.rtakeWhile_eq_self_iff.mpr comma, strip_strip, named]
  · have space : ∀ b ∈ 32 :: strip piece, decide (b ≠ 44) = true := by
      intro b member
      rcases List.mem_cons.mp member with rfl | inside
      · rfl
      · exact comma b inside
    have parts : utf8 (front ++ latin ", ") ++ strip piece = utf8 front ++ 44 :: 32 :: strip piece := by
      rw [utf8_append, List.append_assoc]
      rfl
    rw [parts, rtakeWhile_sep rfl space]
    have blank : strip (32 :: strip piece) = strip (strip piece) := rfl
    rw [blank, strip_strip, named]

theorem announced_fields {r : Request} (a : Accepted r) :
    ∃ framing, announced a.fields = some framing ∧
      ∀ body, Complete framing body ↔ Complete a.framing body := by
  obtain ⟨_, hostLength, hostTransfer, connectionLength, connectionTransfer⟩ := own_distinct
  have different : contentLength ≠ transferEncoding := by decide
  have transfer : a.fields.filter (fun f => lower f.1 = transferEncoding) =
      a.framing.pairs.filter fun f => lower f.1 = transferEncoding := by
    rw [filter_own a fun f other => by simp_all [own]]
    simp [lower_own, hostTransfer, connectionTransfer]
  have length : a.fields.filter (fun f => lower f.1 = contentLength) =
      a.framing.pairs.filter fun f => lower f.1 = contentLength := by
    rw [filter_own a fun f other => by simp_all [own]]
    simp [lower_own, hostLength, connectionLength]
  have valid := a.framed
  simp only [announced]
  rw [transfer, length]
  cases framing : a.framing with
  | none => exact ⟨.none, rfl, fun _ => Iff.rfl⟩
  | length n =>
    have printed : decimal n ≠ [] ∧ (decimal n).all isAsciiDigit = true := by
      constructor
      · simpa [decimal] using InetText.numeral_ne_nil 10 n
      · simpa using decimal_digits n
    refine ⟨.length n, ?_, fun _ => Iff.rfl⟩
    simp only [Framing.pairs, List.filter_cons, lower_own, different, decide_true, decide_false,
      List.filter_nil, if_true]
    simp [printed, numeralValue_decimal]
  | chunked codings =>
    rw [framing] at valid
    refine ⟨.chunked (utf8 codings), ?_, fun _ => Iff.rfl⟩
    simp only [Framing.pairs, List.filter_cons, lower_own, different.symm, decide_true, decide_false,
      List.filter_nil, if_true]
    simp [lastCoding_codings valid]

/-- One request in, one message out. When the relay returns, the bytes it wrote are
the emitted head and the one complete body, under the framing that head announces,
at the start of what the client sent; no other reading of the upstream bytes ends
anywhere else, whatever is written after them. -/
theorem request_delimited {r : Request} (a : Accepted r) (maxHeaderBytes : Nat) (s : Session) :
    After (relayRequest maxHeaderBytes a) s
      (fun _ t => ∃ framing body, s.reader.content = body ++ t.reader.content ∧
        t.upstream = s.upstream ++ a.headBytes ++ body ∧
        (∀ more, ∃ start fields, MessageHead.read (a.headBytes ++ body ++ more) =
          some (start, fields, body ++ more) ∧ announced fields = some framing) ∧
        Complete framing body ∧
        ∀ p more, p <+: body ++ more → Complete framing p → p = body)
      fun e _ => e ≠ .exhausted := by
  obtain ⟨framing, announces, same⟩ := announced_fields a
  apply After.bind_iff.mpr
  apply After.modify_iff.mpr
  apply After.bind_iff.mpr
  apply drain_after _ fun _ known => known
  intro t drained _
  apply After.bind_iff.mpr
  apply After.modify_iff.mpr
  refine (forwardRequestBody_relays maxHeaderBytes a.framing).mono ?_ fun _ _ failed => failed
  rintro _ u ⟨body, moved, complete⟩
  refine ⟨framing, body, ?_, ?_, fun more => ?_, (same body).mpr complete, ?_⟩
  · exact drained.consumed.trans moved.consumed
  · rw [moved.written]
    simp [drained.written]
  · rw [List.append_assoc]
    exact ⟨a.startLine, a.fields, a.read_headBytes (body ++ more), announces⟩
  · rintro p more ⟨rest, stands⟩ other
    exact Complete.unique other ((same body).mpr complete) stands

end HttpSocksProxy.Http
