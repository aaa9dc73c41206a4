import HttpSocksProxy.Stable.Probes

/-! What `_check_wpad_detail` makes of a response: its verdict against the head of
the response, however the bytes arrive. -/
namespace HttpSocksProxy.Probes
open ByteStream Health
open Http (latin partition)

def blankLine : List UInt8 := [13, 10, 13, 10]

/-- Everything up to a first blank line. -/
structure IsHead (head : List UInt8) : Prop where
  ends : blankLine <:+ head
  first : ¬ blankLine <:+: head.dropLast

/-- The second word of a status line. -/
def statusCode (line : List UInt8) : List UInt8 := (partition 32 (partition 32 line).2).1

/-- A head with the status code 200, whose fields mention `proxy-autoconfig`. -/
def Announces (head : List UInt8) : Prop := ∃ line fields, head = line ++ [13, 10] ++ fields ∧
  ¬ [13, 10] <:+: line ∧ latin "HTTP/" <+: line ∧ statusCode line = latin "200" ∧
  latin "proxy-autoconfig" <:+: lowerAscii fields

/-- The head is complete, within the limit, and says what the probe asks for. -/
def Announced (maxHeader : Nat) (stream : List UInt8) : Prop :=
  ∃ head, head <+: stream ∧ IsHead head ∧ head.length ≤ maxHeader ∧ Announces head

def Config.maxHeader (config : Config) : Nat := min 8192 config.httpMaxHeaderBytes

/-- A connection that fails nowhere and brings these bytes, in any pieces, before the
deadline. -/
structure Timely (config : Config) (stream : List UInt8) (p : Peer) : Prop where
  connects : p.connect = .ok ()
  writes : p.write = .ok ()
  drains : p.drain = .ok ()
  closes : p.close = .ok ()
  healthy : p.reader.fault = none
  content : p.reader.content = stream
  early : ∀ turn, p.clock turn < p.clock 0 + config.healthProbeTimeout

/-- One verdict for all ways in which the stream arrives, and the right one. -/
def Judges (config : Config) (stream : List UInt8) : Prop :=
  (∀ p p', Timely config stream p → Timely config stream p' →
    checkWpadDetail config p = checkWpadDetail config p') ∧
  ∀ p, Timely config stream p →
    (checkWpadDetail config p = .ok ⟨true, "ok".toList⟩ ↔ Announced config.maxHeader stream)

/-- What one read can bring together with the end of a head. -/
def inSight (head tail : List UInt8) : List UInt8 := head ++ tail.take 1023

/-- The bytes behind a head do not change what is found in it, and what is found in
it is where it belongs. -/
structure Plain (maxHeader : Nat) (head tail : List UInt8) : Prop where
  fits : (inSight head tail).length ≤ maxHeader
  status : latin "200" <:+: inSight head tail → latin "200" <:+: head
  content : latin "200" <:+: head → latin "proxy-autoconfig" <:+: lowerAscii (inSight head tail) →
    latin "proxy-autoconfig" <:+: lowerAscii head
  placed : latin "200" <:+: head → latin "proxy-autoconfig" <:+: lowerAscii head → Announces head

/-- Every head within the limit is plain. -/
def AllPlain (maxHeader : Nat) (stream : List UInt8) : Prop :=
  ∀ head tail, stream = head ++ tail → IsHead head → head.length ≤ maxHeader → Plain maxHeader head tail

theorem holds_iff {bytes part : List UInt8} : holds bytes part = true ↔ part <:+: bytes := by
  simp only [holds, List.any_eq_true, List.mem_tails, List.isPrefixOf_iff_prefix,
    List.infix_iff_prefix_suffix]
  exact exists_congr fun _ => and_comm

/-- The checks of the response, once its header has been read. -/
def judged (response : List UInt8) : Probe :=
  if !holds response (latin "200") then ⟨false, "HTTP status not 200".toList⟩
  else if !holds (lowerAscii response) (latin "proxy-autoconfig") then
    ⟨false, "PAC content-type missing".toList⟩
  else ⟨true, "ok".toList⟩

def verdict : Except Str (List UInt8) → Probe
  | .error detail => ⟨false, detail⟩
  | .ok response => judged response

section Heads
variable {head head' stream : List UInt8}

theorem IsHead.unique (first : IsHead head) (second : IsHead head') (before : head <+: stream)
    (before' : head' <+: stream) : head = head' := by
  have shorter {a b : List UInt8} (a_head : IsHead a) (b_head : IsHead b) (inside : a <+: b) : a = b := by
    by_contra other
    have less : a <+: b.dropLast := by
      refine List.prefix_of_prefix_length_le inside (List.dropLast_prefix b) ?_
      have := inside.length_le
      have : a.length ≠ b.length := fun same => other (inside.eq_of_length same)
      rw [List.length_dropLast]
      omega
    exact b_head.first (a_head.ends.isInfix.trans less.isInfix)
  rcases List.prefix_or_prefix_of_prefix before before' with inside | inside
  · exact shorter first second inside
  · exact (shorter second first inside).symm

/-- A response with a blank line starts with a head. -/
theorem head_of_blank {response : List UInt8} (blank : blankLine <:+: response) :
    ∃ head, head <+: response ∧ IsHead head := by
  induction response using List.reverseRecOn with
  | nil => simp [blankLine] at blank
  | append_singleton bytes b ih =>
    by_cases earlier : blankLine <:+: bytes
    · obtain ⟨head, before, first⟩ := ih earlier
      exact ⟨head, before.trans (List.prefix_append _ _), first⟩
    · refine ⟨bytes ++ [b], List.prefix_rfl, ?_, by simpa using earlier⟩
      obtain ⟨left, right, split⟩ := blank
      rcases right.eq_nil_or_concat with rfl | ⟨more, last, rfl⟩
      · exact ⟨left, by simpa using split⟩
      · refine absurd ⟨left, more, ?_⟩ earlier
        rw [List.concat_eq_append, ← List.append_assoc] at split
        exact (List.append_inj' split rfl).1

theorem IsHead.blank (first : IsHead head) (before : head <+: stream) : blankLine <:+: stream :=
  first.ends.isInfix.trans before.isInfix

/-- A head is longer than what is read before its blank line. -/
theorem IsHead.beyond (first : IsHead head) (missing : holds response blankLine ≠ true)
    (before : head <+: stream) (begun : response <+: stream) : response.length < head.length := by
  by_contra short
  have inside := List.prefix_of_prefix_length_le before begun (Nat.le_of_not_lt short)
  exact missing (holds_iff.mpr (first.blank inside))

end Heads

/-- What the loop can come to on a stream that arrives in time. -/
inductive Reads (maxHeader : Nat) (stream : List UInt8) : Except Str (List UInt8) → Prop where
  | whole : head <+: response → response <+: stream → IsHead head → response.length ≤ maxHeader →
      response.length ≤ head.length + 1023 → Reads maxHeader stream (.ok response)
  | overshot : head <+: stream → IsHead head → head.length ≤ maxHeader → maxHeader < stream.length →
      maxHeader < head.length + 1023 → Reads maxHeader stream (.error "response header too large".toList)
  | large : (∀ head, head <+: stream → IsHead head → maxHeader < head.length) → maxHeader < stream.length →
      Reads maxHeader stream (.error "response header too large".toList)
  | incomplete : (∀ head, head <+: stream → ¬ IsHead head) → stream.length ≤ maxHeader →
      Reads maxHeader stream (.error "incomplete response header".toList)

theorem readHeader_reads (early : ∀ n, clock n < deadline) (healthy : reader.fault = none)
    (content : response ++ reader.content = stream) (small : response.length ≤ maxHeader)
    (near : ∀ head, head <+: response → IsHead head → response.length ≤ head.length + 1023) :
    ∃ result, readHeader deadline maxHeader clock turn response reader = .ok result ∧
      Reads maxHeader stream result := by
  fun_induction readHeader deadline maxHeader clock turn response reader with
  | case1 turn response reader done =>
    obtain ⟨head, before, first⟩ := head_of_blank (holds_iff.mp done)
    exact ⟨_, rfl, .whole before ⟨_, content⟩ first small (near head before first)⟩
  | case2 turn response reader _ late => exact absurd (early turn) (not_lt.mpr (sub_nonpos.mp late))
  | case3 turn response reader _ _ reason failed =>
    obtain ⟨e, _, fault⟩ := Reader.read_error failed
    rw [healthy] at fault
    cases fault
  | case4 turn response reader missing _ later done =>
    obtain ⟨rest, _, ended, _⟩ := Reader.read_ok done
    have whole : response = stream := by
      rw [← content, ended (by omega) rfl, List.append_nil]
    refine ⟨_, rfl, .incomplete (fun head before first => ?_) (whole ▸ small)⟩
    exact missing (holds_iff.mpr (first.blank (whole ▸ before)))
  | case5 turn response reader missing _ b more later done long =>
    obtain ⟨rest, few, _⟩ := Reader.read_ok done
    have grown : (response ++ b :: more) ++ later.content = stream := by
      rw [List.append_assoc, ← rest, content]
    have over_limit : maxHeader < stream.length := by
      rw [← grown, List.length_append]
      omega
    by_cases found : ∃ head, head <+: stream ∧ IsHead head ∧ head.length ≤ maxHeader
    · obtain ⟨head, before, first, fits⟩ := found
      have beyond := first.beyond missing before ⟨_, content⟩
      refine ⟨_, rfl, .overshot before first fits over_limit ?_⟩
      rw [List.length_append] at long
      omega
    · refine ⟨_, rfl, .large (fun head before first => ?_) over_limit⟩
      exact Nat.lt_of_not_le fun fits => found ⟨head, before, first, fits⟩
  | case6 turn response reader missing _ b more later done fits ih =>
    obtain ⟨rest, few, _, spent⟩ := Reader.read_ok done
    apply ih (spent.healthy healthy)
    · rw [List.append_assoc, ← rest, content]
    · exact Nat.le_of_not_lt fits
    · intro head before first
      have beyond := first.beyond missing before (List.prefix_append _ _)
      rw [List.length_append]
      omega

/-- The probe on a connection of this kind is its loop, and the checks behind it. -/
theorem checkWpadDetail_read (connects : p.connect = .ok ()) (writes : p.write = .ok ())
    (drains : p.drain = .ok ()) (closes : p.close = .ok ())
    (done : readHeader (p.clock 0 + config.healthProbeTimeout) config.maxHeader p.clock 1 [] p.reader =
      .ok result) : checkWpadDetail config p = .ok (verdict result) := by
  have body : p.closing (.ok (verdict result)) = .ok (verdict result) := by
    simp only [Peer.closing, closes]
    cases p.waitClosed <;> rfl
  rw [← body]
  simp only [checkWpadDetail, connects, writes, drains]
  rw [show min 8192 config.httpMaxHeaderBytes = config.maxHeader from rfl, done]
  cases result with
  | error detail => rfl
  | ok response =>
    simp only [verdict, judged]
    cases holds response (latin "200") <;>
      cases holds (lowerAscii response) (latin "proxy-autoconfig") <;> rfl

theorem checkWpadDetail_timely (timely : Timely config stream p) : ∃ result,
    checkWpadDetail config p = .ok (verdict result) ∧ Reads config.maxHeader stream result := by
  have start : [] ++ p.reader.content = stream := timely.content
  obtain ⟨result, done, reads⟩ := readHeader_reads timely.early timely.healthy start
    (Nat.zero_le config.maxHeader) fun _ _ _ => Nat.zero_le _
  exact ⟨result, checkWpadDetail_read timely.connects timely.writes timely.drains timely.closes done, reads⟩

section Pieces
variable {maxHeader : Nat} {clock : Nat → ℚ} {deadline : ℚ} (early : ∀ n, clock n < deadline)
include early

/-- One turn of the loop, on the next piece. -/
theorem readHeader_piece (missing : ¬ blankLine <:+: response) (filled : piece ≠ [])
    (small : response.length ≤ maxHeader) (later : List (List UInt8)) :
    readHeader deadline maxHeader clock turn response ⟨[], piece :: later, none⟩ =
      let n := min 1024 (maxHeader + 1 - response.length)
      if maxHeader < (response ++ piece.take n).length then .ok (.error "response header too large".toList)
      else readHeader deadline maxHeader clock (turn + 1) (response ++ piece.take n)
        ⟨piece.drop n, later, none⟩ := by
  have missing : holds response [13, 10, 13, 10] = false :=
    Bool.eq_false_iff.mpr (holds_iff.not.mpr missing)
  have intime : ¬ deadline - clock turn ≤ 0 := not_le.mpr (sub_pos.mpr (early turn))
  obtain ⟨b, bytes, rfl⟩ := List.exists_cons_of_ne_nil filled
  obtain ⟨n, positive⟩ : ∃ n, min 1024 (maxHeader + 1 - response.length) = n + 1 :=
    Nat.exists_eq_succ_of_ne_zero (by omega)
  rw [readHeader, missing, if_neg Bool.false_ne_true, if_neg intime, Reader.read_piece (by simp), positive]
  rfl

/-- The stream arrives byte by byte, and the loop takes them one by one. -/
theorem readHeader_bytes (bytes : List UInt8) (missing : ¬ blankLine <:+: (response ++ bytes).dropLast)
    (small : (response ++ bytes).length ≤ maxHeader) (later : List (List UInt8)) :
    readHeader deadline maxHeader clock turn response ⟨[], bytes.map ([·]) ++ later, none⟩ =
      readHeader deadline maxHeader clock (turn + bytes.length) (response ++ bytes) ⟨[], later, none⟩ := by
  induction bytes generalizing response turn with
  | nil => simp
  | cons b bytes ih =>
    have inside : response <+: (response ++ b :: bytes).dropLast := by
      rw [List.dropLast_append_of_ne_nil (by simp)]
      exact List.prefix_append _ _
    have same : response ++ b :: bytes = (response ++ [b]) ++ bytes := by simp
    have shorter : response.length < (response ++ b :: bytes).length := by simp
    have taken : [b].take (min 1024 (maxHeader + 1 - response.length)) = [b] :=
      List.take_of_length_le (by rw [List.length_singleton]; omega)
    have fits : ¬ maxHeader < (response ++ [b]).length := by
      rw [List.length_append, List.length_cons] at small
      rw [List.length_append, List.length_singleton]
      omega
    have dropped : [b].drop (min 1024 (maxHeader + 1 - response.length)) = [] :=
      List.drop_of_length_le (by rw [List.length_singleton]; omega)
    rw [List.map_cons, List.cons_append,
      readHeader_piece early (fun blank => missing (blank.trans inside.isInfix)) (by simp) (by omega)]
    dsimp only
    rw [taken, dropped, if_neg fits, ih (same ▸ missing) (same ▸ small), same, List.length_cons]
    congr 1
    omega

/-- Bytes that end with a head are done with as soon as they are read. -/
theorem readHeader_head (first : IsHead head) (small : head.length ≤ maxHeader) (later : List (List UInt8)) :
    readHeader deadline maxHeader clock turn [] ⟨[], head.map ([·]) ++ later, none⟩ = .ok (.ok head) := by
  have done : holds head [13, 10, 13, 10] = true := holds_iff.mpr first.ends.isInfix
  have missing : ¬ blankLine <:+: ([] ++ head).dropLast := first.first
  rw [readHeader_bytes early head missing small, List.nil_append, readHeader, done, if_pos rfl]

/-- All that the last read of the loop can bring comes with the end of the head. -/
theorem readHeader_inSight (first : IsHead (before ++ [last])) (small : (before ++ [last]).length ≤ maxHeader)
    (tail : List UInt8) :
    readHeader deadline maxHeader clock turn [] ⟨[], before.map ([·]) ++ [last :: tail], none⟩ =
      .ok (if maxHeader < (inSight (before ++ [last]) tail).length then
          .error "response header too large".toList
        else .ok (inSight (before ++ [last]) tail)) := by
  have missing : ¬ blankLine <:+: before := by simpa using first.first
  have length : before.length < maxHeader := by simpa using small
  obtain ⟨n, count⟩ : ∃ n, min 1024 (maxHeader + 1 - before.length) = n + 1 :=
    Nat.exists_eq_succ_of_ne_zero (by omega)
  have taken : before ++ (last :: tail).take (n + 1) = before ++ [last] ++ tail.take n := by simp
  have total : (before ++ [last] ++ tail.take n).length = before.length + 1 + min n tail.length := by
    simp only [List.length_append, List.length_singleton, List.length_take]
  have sight : (inSight (before ++ [last]) tail).length = before.length + 1 + min 1023 tail.length := by
    simp only [inSight, List.length_append, List.length_singleton, List.length_take]
  rw [readHeader_bytes early before (fun blank => missing (blank.trans (List.dropLast_prefix _).isInfix))
    (by rw [List.nil_append]; omega), List.nil_append,
    readHeader_piece early missing (by simp) (by omega)]
  dsimp only
  rw [count, taken, total, sight]
  split
  case isTrue long => rw [if_pos (by omega)]
  case isFalse short =>
    have same : tail.take n = tail.take 1023 := List.take_eq_take_iff.mpr (by omega)
    have done : holds (before ++ [last] ++ tail.take n) [13, 10, 13, 10] = true :=
      holds_iff.mpr (first.blank (List.prefix_append _ _))
    rw [if_neg (by omega), readHeader, done, if_pos rfl, same, inSight]

end Pieces

/-- A connection on which every call works, with these pieces to be read. -/
def delivering (pieces : List (List UInt8)) : Peer :=
  ⟨.ok (), .ok (), .ok (), .ofPieces pieces, .ok (), .ok (), fun _ => 0⟩

theorem delivering_timely (positive : 0 < config.healthProbeTimeout) (whole : pieces.flatten = stream) :
    Timely config stream (delivering pieces) :=
  ⟨rfl, rfl, rfl, rfl, rfl, whole, fun _ => by simpa [delivering] using positive⟩

theorem delivering_early {config : Config} (positive : 0 < config.healthProbeTimeout) (n : Nat) :
    (delivering pieces).clock n < (delivering pieces).clock 0 + config.healthProbeTimeout := by
  simpa [delivering] using positive

/-- A verdict on the head alone is a possible one, and so is that on all that is in sight. -/
theorem possible_verdicts (positive : 0 < config.healthProbeTimeout) (first : IsHead head)
    (small : head.length ≤ config.maxHeader) (tail : List UInt8) :
    (∃ p, Timely config (head ++ tail) p ∧ checkWpadDetail config p = .ok (judged head)) ∧
    ∃ p, Timely config (head ++ tail) p ∧ checkWpadDetail config p = .ok
      (if config.maxHeader < (inSight head tail).length then ⟨false, "response header too large".toList⟩
        else judged (inSight head tail)) := by
  have single (bytes : List UInt8) : (bytes.map ([·])).flatten = bytes := by
    rw [← List.flatMap_def, List.flatMap_singleton']
  constructor
  · refine ⟨delivering (head.map ([·]) ++ [tail]), delivering_timely positive (by simp [single]), ?_⟩
    exact checkWpadDetail_read rfl rfl rfl rfl (readHeader_head (delivering_early positive) first small _)
  · obtain rfl | ⟨before, last, rfl⟩ := head.eq_nil_or_concat
    · exact absurd first.ends (by simp [blankLine])
    · rw [List.concat_eq_append] at first small ⊢
      refine ⟨delivering (before.map ([·]) ++ [last :: tail]), delivering_timely positive ?_, ?_⟩
      · simp [single]
      rw [checkWpadDetail_read rfl rfl rfl rfl
        (readHeader_inSight (delivering_early positive) first small tail)]
      split <;> rfl

theorem judged_ok : judged response = ⟨true, "ok".toList⟩ ↔
    latin "200" <:+: response ∧ latin "proxy-autoconfig" <:+: lowerAscii response := by
  simp only [judged, ← holds_iff]
  cases holds response (latin "200") <;> cases holds (lowerAscii response) (latin "proxy-autoconfig") <;> simp

theorem judged_large : judged response ≠ ⟨false, "response header too large".toList⟩ := by
  simp only [judged]
  split
  · simp
  · split <;> simp

theorem judged_eq_iff : judged response = judged response' ↔
    (latin "200" <:+: response ↔ latin "200" <:+: response') ∧
      (latin "200" <:+: response → (latin "proxy-autoconfig" <:+: lowerAscii response ↔
        latin "proxy-autoconfig" <:+: lowerAscii response')) := by
  simp only [judged, ← holds_iff]
  cases holds response (latin "200") <;> cases holds response' (latin "200") <;>
    cases holds (lowerAscii response) (latin "proxy-autoconfig") <;>
    cases holds (lowerAscii response') (latin "proxy-autoconfig") <;> simp

/-- What a head announces is found in it. -/
theorem Announces.seen (announces : Announces head) :
    latin "200" <:+: head ∧ latin "proxy-autoconfig" <:+: lowerAscii head := by
  obtain ⟨line, fields, rfl, _, _, status, content⟩ := announces
  have word : statusCode line <:+: line := (List.takeWhile_prefix _).isInfix.trans
    ((List.tail_suffix _).trans (List.dropWhile_suffix _)).isInfix
  constructor
  · rw [← status]
    exact word.trans ⟨[], [13, 10] ++ fields, by simp⟩
  · rw [lowerAscii, List.map_append]
    exact content.trans (List.suffix_append _ _).isInfix

/-- Plain bytes behind a head leave its verdict alone, however many of them are read. -/
theorem Plain.judged (plain : Plain maxHeader head tail) (begun : head <+: response)
    (inside : response <+: inSight head tail) : judged response = judged head := by
  have lowered {a b : List UInt8} (before : a <+: b) : lowerAscii a <:+: lowerAscii b :=
    (before.map _).isInfix
  refine judged_eq_iff.mpr
    ⟨⟨fun seen => ?_, fun seen => seen.trans begun.isInfix⟩, fun seen => ⟨fun named => ?_, ?_⟩⟩
  · exact plain.status (seen.trans inside.isInfix)
  · exact plain.content (plain.status (seen.trans inside.isInfix)) (named.trans (lowered inside))
  · exact fun named => named.trans (lowered begun)

theorem Timely.positive (timely : Timely config stream p) : 0 < config.healthProbeTimeout := by
  have early := timely.early 0
  linarith

theorem plain_verdict (timely : Timely config (head ++ tail) p) (first : IsHead head)
    (small : head.length ≤ config.maxHeader) (plain : Plain config.maxHeader head tail) :
    checkWpadDetail config p = .ok (judged head) := by
  have sight : (inSight head tail).length = head.length + min 1023 tail.length := by
    simp only [inSight, List.length_append, List.length_take]
  have before : head <+: head ++ tail := List.prefix_append _ _
  obtain ⟨result, done, reads⟩ := checkWpadDetail_timely timely
  rw [done]
  cases reads with
  | @whole head' response begun inside first' _ near =>
    obtain rfl := first.unique first' before (begun.trans inside)
    have whole := inside.length_le
    rw [List.length_append] at whole
    have sighted : response <+: inSight head tail :=
      List.prefix_of_prefix_length_le inside (List.prefix_append_right_inj head |>.mpr (List.take_prefix _ _))
        (by omega)
    exact congrArg Except.ok (plain.judged begun sighted)
  | overshot before' first' _ long near =>
    obtain rfl := first.unique first' before before'
    have fits := plain.fits
    rw [List.length_append] at long
    omega
  | large beyond => exact absurd (beyond head before first) (Nat.not_lt_of_le small)
  | incomplete missing => exact absurd first (missing head before)

theorem headless_verdict (timely : Timely config stream p)
    (beyond : ∀ head, head <+: stream → IsHead head → config.maxHeader < head.length) :
    checkWpadDetail config p = .ok ⟨false, if config.maxHeader < stream.length then
      "response header too large".toList else "incomplete response header".toList⟩ := by
  obtain ⟨result, done, reads⟩ := checkWpadDetail_timely timely
  rw [done]
  cases reads with
  | @whole head' response begun inside first small near =>
    have long := beyond head' (begun.trans inside) first
    have := begun.length_le
    omega
  | overshot before first small => exact absurd (beyond _ before first) (Nat.not_lt_of_le small)
  | large _ long => rw [if_pos long]; rfl
  | incomplete _ short => rw [if_neg (Nat.not_lt_of_le short)]; rfl

/-- The verdict is that on the head exactly when the head is plain, where one is
within the limit. -/
theorem wpad_judged_iff (config : Config) (stream : List UInt8) : Judges config stream ↔
    config.healthProbeTimeout ≤ 0 ∨ AllPlain config.maxHeader stream := by
  constructor
  · rintro ⟨same, right⟩
    rcases le_or_gt config.healthProbeTimeout 0 with none | positive
    · exact .inl none
    refine .inr ?_
    rintro head tail rfl first small
    obtain ⟨⟨p, timely, verdict⟩, p', timely', verdict'⟩ := possible_verdicts positive first small tail
    have agree := same p p' timely timely'
    rw [verdict, verdict', Except.ok.injEq] at agree
    have right := right p timely
    rw [verdict, Except.ok.injEq, judged_ok] at right
    split at agree
    case isTrue => exact absurd agree judged_large
    case isFalse fits =>
      obtain ⟨status, content⟩ := judged_eq_iff.mp agree
      refine ⟨Nat.le_of_not_lt fits, status.mpr, fun seen => (content seen).mpr, fun seen named => ?_⟩
      obtain ⟨head', before', first', _, announces⟩ := right.mp ⟨seen, named⟩
      rwa [first.unique first' (List.prefix_append _ _) before']
  · rintro (none | plain)
    · exact ⟨fun p _ timely => absurd timely.positive (not_lt.mpr none),
        fun p timely => absurd timely.positive (not_lt.mpr none)⟩
    by_cases found : ∃ head tail, stream = head ++ tail ∧ IsHead head ∧ head.length ≤ config.maxHeader
    · obtain ⟨head, tail, rfl, first, small⟩ := found
      have plain := plain head tail rfl first small
      refine ⟨fun p p' timely timely' => ?_, fun p timely => ?_⟩
      · rw [plain_verdict timely first small plain, plain_verdict timely' first small plain]
      · rw [plain_verdict timely first small plain, Except.ok.injEq, judged_ok]
        constructor
        · rintro ⟨seen, named⟩
          exact ⟨head, List.prefix_append _ _, first, small, plain.placed seen named⟩
        · rintro ⟨head', before, first', _, announces⟩
          rw [first.unique first' (List.prefix_append _ _) before]
          exact announces.seen
    · have beyond (head : List UInt8) (before : head <+: stream) (first : IsHead head) :
          config.maxHeader < head.length := by
        obtain ⟨tail, rfl⟩ := before
        exact Nat.lt_of_not_le fun small => found ⟨head, tail, rfl, first, small⟩
      refine ⟨fun p p' timely timely' => ?_, fun p timely => ?_⟩
      · rw [headless_verdict timely beyond, headless_verdict timely' beyond]
      · rw [headless_verdict timely beyond, Except.ok.injEq]
        refine iff_of_false (fun same => Bool.false_ne_true (congrArg Probe.okay same)) ?_
        rintro ⟨head, before, first, small, _⟩
        exact absurd (beyond head before first) (Nat.not_lt_of_le small)

def notFound : List UInt8 :=
  latin "HTTP/1.0 404 Not Found\r\nContent-Type: application/x-ns-proxy-autoconfig\r\n\r\n"

/-- A listener that answers 404 passes when the first bytes of its page come with the
head, and fails when they come later. -/
theorem page_passes_for_status :
    checkWpadDetail {} (delivering [notFound ++ latin "200"]) = .ok ⟨true, "ok".toList⟩ ∧
    checkWpadDetail {} (delivering [notFound, latin "200"]) = .ok ⟨false, "HTTP status not 200".toList⟩ ∧
    ¬ ∀ config stream, Judges config stream := by
  have passes : checkWpadDetail {} (delivering [notFound ++ latin "200"]) = .ok ⟨true, "ok".toList⟩ := by
    decide +kernel
  have fails : checkWpadDetail {} (delivering [notFound, latin "200"]) =
      .ok ⟨false, "HTTP status not 200".toList⟩ := by
    decide +kernel
  refine ⟨passes, fails, fun all => ?_⟩
  have positive : 0 < ({} : Config).healthProbeTimeout := by decide +kernel
  have together : Timely {} (notFound ++ latin "200") (delivering [notFound ++ latin "200"]) :=
    delivering_timely positive (by simp)
  have apart : Timely {} (notFound ++ latin "200") (delivering [notFound, latin "200"]) :=
    delivering_timely positive (by simp)
  have same := (all {} _).1 _ _ together apart
  rw [passes, fails] at same
  cases same

end HttpSocksProxy.Probes
