import HttpSocksProxy.Dns.Name

/-! The binary parser, and `from_wire_parser` with its compression pointers. -/
namespace HttpSocksProxy.Dns

/-- `struct.pack("!H", n)`. -/
def packShort (n : Nat) : List UInt8 := [(n / 256).toUInt8, n.toUInt8]

inductive WireError where
  | formError
  | badPointer
  | badLabelType
  | name (e : NameError)
  deriving DecidableEq, Repr

/-- `dns.wire.Parser`. -/
structure Parser where
  wire : List UInt8
  limit : Nat
  current : Nat
  furthest : Nat
  deriving DecidableEq

namespace Parser
variable {p q : Parser}

def remaining (p : Parser) : Int := p.limit - p.current

/-- `Parser(wire, current)`. -/
def ofWire (wire : List UInt8) (current : Nat) : Except WireError Parser :=
  if current ≤ wire.length then .ok ⟨wire, wire.length, current, current⟩
  else .error .formError

theorem ofWire_ok {p : Parser} (opened : ofWire message position = .ok p) :
    p.wire = message ∧ p.limit = message.length ∧ p.current = position ∧ p.furthest = position := by
  unfold ofWire at opened
  split at opened
  · cases opened; exact ⟨rfl, rfl, rfl, rfl⟩
  · cases opened

theorem ofWire_inside (inside : position ≤ message.length) : ∃ p, ofWire message position = .ok p :=
  ⟨_, if_pos inside⟩

def getBytes (size : Nat) (p : Parser) : Except WireError (List UInt8 × Parser) :=
  if p.remaining < size then .error .formError
  else .ok ((p.wire.drop p.current).take size,
    { p with current := p.current + size, furthest := max p.furthest (p.current + size) })

def getUint8 (p : Parser) : Except WireError (Nat × Parser) :=
  (p.getBytes 1).map fun (bytes, p) => ((bytes.headD 0).toNat, p)

def seek (position : Nat) (p : Parser) : Except WireError Parser :=
  if p.limit < position then .error .formError else .ok { p with current := position }

def restoreFurthest (p : Parser) : Parser := { p with current := p.furthest }

/-- Reading on over `n` bytes. -/
structure Moved (n : Nat) (p q : Parser) : Prop where
  wire : q.wire = p.wire
  limit : q.limit = p.limit
  current : q.current = p.current + n
  furthest : q.furthest = max p.furthest (p.current + n)
  inside : p.current + n ≤ p.limit

/-- The parser ends where its message does, or before. -/
def Whole (p : Parser) : Prop := p.limit ≤ p.wire.length

theorem Moved.whole (moved : Moved n p q) (whole : p.Whole) : q.Whole := by
  rw [Whole, moved.wire, moved.limit]
  exact whole

theorem getBytes_ok (got : p.getBytes size = .ok (bytes, q)) :
    Moved size p q ∧ bytes = (p.wire.drop p.current).take size := by
  unfold getBytes remaining at got
  split at got
  case isTrue => cases got
  case isFalse inside =>
    cases got
    exact ⟨⟨rfl, rfl, rfl, rfl, by omega⟩, rfl⟩

theorem getUint8_ok (got : p.getUint8 = .ok (value, q)) :
    Moved 1 p q ∧ value = ((p.wire.drop p.current).headD 0).toNat := by
  unfold getUint8 at got
  cases read : p.getBytes 1 with
  | error e => rw [read] at got; cases got
  | ok result =>
    obtain ⟨bytes, q'⟩ := result
    rw [read] at got
    cases got
    obtain ⟨moved, rfl⟩ := getBytes_ok read
    refine ⟨moved, ?_⟩
    cases p.wire.drop p.current <;> rfl

theorem getBytes_prefix (here : bytes <+: p.wire.drop p.current) (size : bytes.length = n)
    (inside : p.current + n ≤ p.limit) : ∃ q, p.getBytes n = .ok (bytes, q) ∧ Moved n p q := by
  have fits : ¬ p.remaining < n := by
    unfold remaining
    omega
  have same : (p.wire.drop p.current).take n = bytes := by
    rw [← size]
    exact (List.prefix_iff_eq_take.mp here).symm
  refine ⟨_, ?_, (getBytes_ok (if_neg fits)).1⟩
  rw [getBytes, if_neg fits, same]

theorem getUint8_prefix (here : b :: rest <+: p.wire.drop p.current) (inside : p.current + 1 ≤ p.limit) :
    ∃ q, p.getUint8 = .ok (b.toNat, q) ∧ Moved 1 p q := by
  have first : [b] <+: p.wire.drop p.current := List.prefix_append [b] rest |>.trans here
  obtain ⟨q, read, moved⟩ := getBytes_prefix (n := 1) first rfl inside
  exact ⟨q, by rw [getUint8, read]; rfl, moved⟩

theorem seek_inside (inside : position ≤ p.limit) : ∃ q, p.seek position = .ok q :=
  ⟨_, if_neg (not_lt.mpr inside)⟩

theorem seek_ok (sought : p.seek position = .ok q) :
    q.wire = p.wire ∧ q.limit = p.limit ∧ q.current = position ∧ q.furthest = p.furthest := by
  unfold seek at sought
  split at sought
  · cases sought
  · cases sought; exact ⟨rfl, rfl, rfl, rfl⟩

end Parser

/-- The loop of `from_wire_parser`. A pointer leads below the last one, and a
label further on, which is why the loop ends. -/
def readLabels (p : Parser) (biggestPointer : Nat) (labels : List Label) :
    Except WireError (List Label × Parser) :=
  match _counted : p.getUint8 with
  | .error e => .error e
  | .ok (count, afterCount) =>
    if count = 0 then .ok (labels ++ [[]], afterCount)
    else if count < 64 then
      match _taken : afterCount.getBytes count with
      | .error e => .error e
      | .ok (label, afterLabel) => readLabels afterLabel biggestPointer (labels ++ [label])
    else if 192 ≤ count then
      match _lower : afterCount.getUint8 with
      | .error e => .error e
      | .ok (low, afterPointer) =>
        let current := (count &&& 0x3F) * 256 + low
        if biggestPointer ≤ current then .error .badPointer
        else match afterPointer.seek current with
          | .error e => .error e
          | .ok there => readLabels there current labels
    else .error .badLabelType
termination_by (biggestPointer, p.limit - p.current)
decreasing_by
  · obtain ⟨⟨_, limit, current, _, inside⟩, _⟩ := Parser.getUint8_ok _counted
    obtain ⟨⟨_, limit', current', _, inside'⟩, _⟩ := Parser.getBytes_ok _taken
    exact Prod.Lex.right _ (by omega)
  · exact Prod.Lex.left _ _ (by omega)

/-- `from_wire_parser`. -/
def fromWireParser (p : Parser) : Except WireError (Name × Parser) :=
  match readLabels p p.current [] with
  | .error e => .error e
  | .ok (labels, q) =>
    match make labels with
    | .error e => .error (.name e)
    | .ok name => .ok (name, q.restoreFurthest)

/-- `from_wire`: the name at this offset and the number of bytes it takes there. -/
def fromWire (message : List UInt8) (current : Nat) : Except WireError (Name × Nat) :=
  match Parser.ofWire message current with
  | .error e => .error e
  | .ok p => (fromWireParser p).map fun (name, p) => (name, p.current - current)

/-- The compressed names of a message: the labels that are read at a position,
where a first pointer leads below `bound`, and the furthest position of that. -/
inductive Reads (wire : List UInt8) : Nat → Nat → List Label → Nat → Prop where
  | root (here : [0] <+: wire.drop start) : Reads wire bound start [[]] (start + 1)
  | label (some : label ≠ []) (short : label.length ≤ 63)
      (here : label.length.toUInt8 :: label <+: wire.drop start)
      (rest : Reads wire bound (start + (label.length + 1)) labels stop) :
      Reads wire bound start (label :: labels) stop
  | pointer (below : target < bound) (low : target ≤ 0x3FFF)
      (here : packShort (0xC000 + target) <+: wire.drop start)
      (there : Reads wire target target labels stop) :
      Reads wire bound start labels (max (start + 2) stop)

theorem prefix_drop_append {bytes wire : List UInt8} (here : bytes <+: wire.drop start) (some : bytes ≠ [])
    (more : List UInt8) : bytes <+: (wire ++ more).drop start := by
  have inside : start < wire.length := by
    by_contra beyond
    rw [List.drop_eq_nil_of_le (not_lt.mp beyond), List.prefix_nil] at here
    exact some here
  rw [List.drop_append_of_le_length inside.le]
  exact here.trans (List.prefix_append _ _)

theorem prefix_drop_length {bytes wire : List UInt8} (here : bytes <+: wire.drop start) (some : bytes ≠ []) :
    start + bytes.length ≤ wire.length := by
  have size := here.length_le
  have positive := List.length_pos_iff.mpr some
  rw [List.length_drop] at size
  omega

namespace Reads
variable {wire : List UInt8}

theorem append (reads : Reads wire bound start labels stop) (more : List UInt8) :
    Reads (wire ++ more) bound start labels stop := by
  induction reads with
  | root here => exact .root (prefix_drop_append here (by simp) more)
  | label some short here _ ih => exact .label some short (prefix_drop_append here (by simp) more) ih
  | pointer below low here _ ih => exact .pointer below low (prefix_drop_append here (by simp [packShort]) more) ih

theorem mono (reads : Reads wire bound start labels stop) (weaker : bound ≤ bound') :
    Reads wire bound' start labels stop := by
  induction reads with
  | root here => exact .root here
  | label some short here _ ih => exact .label some short here (ih weaker)
  | pointer below low here there _ => exact .pointer (by omega) low here there

theorem stop_le (reads : Reads wire bound start labels stop) : start < stop ∧ stop ≤ wire.length := by
  induction reads with
  | root here =>
    have := prefix_drop_length here (by simp)
    exact ⟨by omega, this⟩
  | label some short here rest ih => exact ⟨by omega, ih.2⟩
  | pointer below low here there ih =>
    have : _ + 2 ≤ _ := prefix_drop_length here (by simp [packShort])
    exact ⟨by omega, by omega⟩

end Reads

theorem packShort_pointer (low : target ≤ 0x3FFF) : ∃ high rest : UInt8,
    packShort (0xC000 + target) = [high, rest] ∧ 192 ≤ high.toNat ∧
      (high.toNat &&& 0x3F) * 256 + rest.toNat = target := by
  refine ⟨_, _, rfl, ?_, ?_⟩
  · simp only [Nat.toUInt8_eq, UInt8.toNat_ofNat']
    omega
  · rw [show (0x3F : Nat) = 2 ^ 6 - 1 from rfl, Nat.and_two_pow_sub_one_eq_mod]
    simp only [Nat.toUInt8_eq, UInt8.toNat_ofNat']
    omega

section Steps
variable {p p' p'' : Parser} (bound : Nat) (passed : List Label)

theorem readLabels_root (counted : p.getUint8 = .ok (0, p')) :
    readLabels p bound passed = .ok (passed ++ [[]], p') := by
  rw [readLabels]
  split
  case h_1 failed => rw [counted] at failed; cases failed
  case h_2 again =>
    rw [counted] at again
    cases again
    rw [if_pos rfl]

theorem readLabels_label (counted : p.getUint8 = .ok (count, p')) (some : count ≠ 0) (short : count < 64)
    (taken : p'.getBytes count = .ok (label, p'')) :
    readLabels p bound passed = readLabels p'' bound (passed ++ [label]) := by
  rw [readLabels]
  split
  case h_1 failed => rw [counted] at failed; cases failed
  case h_2 again =>
    rw [counted] at again
    cases again
    rw [if_neg some, if_pos short]
    split
    case h_1 failed => rw [taken] at failed; cases failed
    case h_2 again =>
      rw [taken] at again
      cases again
      rfl

theorem readLabels_pointer {there : Parser} (counted : p.getUint8 = .ok (count, p')) (mark : 192 ≤ count)
    (second : p'.getUint8 = .ok (low, p'')) (target : (count &&& 0x3F) * 256 + low = current)
    (below : current < bound) (sought : p''.seek current = .ok there) :
    readLabels p bound passed = readLabels there current passed := by
  subst target
  rw [readLabels]
  split
  case h_1 failed => rw [counted] at failed; cases failed
  case h_2 again =>
    rw [counted] at again
    cases again
    rw [if_neg (by omega), if_neg (by omega), if_pos mark]
    split
    case h_1 failed => rw [second] at failed; cases failed
    case h_2 again =>
      rw [second] at again
      cases again
      simp only [sought, if_neg (not_le.mpr below)]

end Steps

/-- The loop reads what stands there, and the furthest it has been is behind it. -/
theorem readLabels_reads {wire : List UInt8} (reads : Reads wire bound start labels stop) :
    ∀ (p : Parser) (passed : List Label), p.wire = wire → p.current = start → stop ≤ p.limit →
      ∃ q, readLabels p bound passed = .ok (passed ++ labels, q) ∧ q.wire = p.wire ∧ q.limit = p.limit ∧
        q.furthest = max p.furthest stop := by
  induction reads with
  | root here =>
    intro p passed wire current inside
    subst wire current
    obtain ⟨q, counted, moved⟩ := Parser.getUint8_prefix here inside
    exact ⟨q, readLabels_root _ passed counted, moved.wire, moved.limit, moved.furthest⟩
  | @label label start bound labels stop some short here rest ih =>
    intro p passed wire current inside
    subst wire current
    have after := rest.stop_le
    obtain ⟨p', counted, moved⟩ := Parser.getUint8_prefix here (by omega)
    have count : label.length.toUInt8.toNat = label.length := by
      simp only [Nat.toUInt8_eq, UInt8.toNat_ofNat']
      omega
    have here' : label <+: p'.wire.drop p'.current := by
      rw [moved.wire, moved.current, ← List.drop_drop]
      obtain ⟨tail, whole⟩ := here
      rw [← whole]
      exact ⟨tail, rfl⟩
    obtain ⟨p'', taken, moved'⟩ := Parser.getBytes_prefix here' rfl
      (by rw [moved.current, moved.limit]; omega)
    rw [count] at counted
    have step := readLabels_label bound passed counted
      (mt List.length_eq_zero_iff.mp some) (by omega) taken
    obtain ⟨q, done, wire, limit, furthest⟩ := ih p'' (passed ++ [label]) (moved'.wire.trans moved.wire)
      (by rw [moved'.current, moved.current]; omega) (by rw [moved'.limit, moved.limit]; exact inside)
    refine ⟨q, ?_, wire.trans (moved'.wire.trans moved.wire), limit.trans (moved'.limit.trans moved.limit), ?_⟩
    · rw [step, done, List.append_assoc, List.singleton_append]
    · rw [furthest, moved'.furthest, moved.furthest, moved.current]
      omega
  | @pointer target bound start labels stop below low here there ih =>
    intro p passed wire current inside
    subst wire current
    obtain ⟨high, rest, packed, mark, value⟩ := packShort_pointer low
    rw [packed] at here
    obtain ⟨p', counted, moved⟩ := Parser.getUint8_prefix here (by omega)
    have here' : [rest] <+: p'.wire.drop p'.current := by
      rw [moved.wire, moved.current, ← List.drop_drop]
      obtain ⟨tail, whole⟩ := here
      rw [← whole]
      exact ⟨tail, rfl⟩
    obtain ⟨p'', second, moved'⟩ := Parser.getUint8_prefix here' (by rw [moved.current, moved.limit]; omega)
    have span := there.stop_le
    have limit : p''.limit = p.limit := moved'.limit.trans moved.limit
    obtain ⟨next, sought⟩ : ∃ next, p''.seek target = .ok next := Parser.seek_inside (by omega)
    obtain ⟨nextWire, nextLimit, nextCurrent, nextFurthest⟩ := Parser.seek_ok sought
    have step := readLabels_pointer bound passed counted mark second value below sought
    obtain ⟨q, done, wire, limit', furthest⟩ := ih next passed (nextWire.trans (moved'.wire.trans moved.wire))
      nextCurrent (by omega)
    refine ⟨q, step.trans done, wire.trans (nextWire.trans (moved'.wire.trans moved.wire)), by omega, ?_⟩
    rw [furthest, nextFurthest, moved'.furthest, moved.furthest, moved.current]
    omega

/-- What has been read is the bytes that stand there. -/
theorem getUint8_here {p q : Parser} (whole : p.Whole) (counted : p.getUint8 = .ok (count, q)) :
    [count.toUInt8] <+: p.wire.drop p.current ∧ count < 256 := by
  obtain ⟨moved, rfl⟩ := Parser.getUint8_ok counted
  have inside := moved.inside
  unfold Parser.Whole at whole
  cases here : p.wire.drop p.current with
  | nil =>
    rw [List.drop_eq_nil_iff] at here
    omega
  | cons b rest => exact ⟨⟨rest, by simp⟩, b.toNat_lt⟩

theorem pointer_packShort (mark : 192 ≤ high) (byte : high < 256) (byte' : low < 256) :
    [high.toUInt8, low.toUInt8] = packShort (0xC000 + ((high &&& 0x3F) * 256 + low)) ∧
      (high &&& 0x3F) * 256 + low ≤ 0x3FFF := by
  rw [show (0x3F : Nat) = 2 ^ 6 - 1 from rfl, Nat.and_two_pow_sub_one_eq_mod]
  refine ⟨?_, by omega⟩
  have first : (0xC000 + (high % 2 ^ 6 * 256 + low)) / 256 = high := by omega
  have second : (0xC000 + (high % 2 ^ 6 * 256 + low)).toUInt8 = low.toUInt8 := by
    apply UInt8.toNat_inj.mp
    simp only [Nat.toUInt8_eq, UInt8.toNat_ofNat']
    omega
  rw [packShort, first, second]

theorem prefix_drop_cons {wire : List UInt8} (first : [b] <+: wire.drop start)
    (rest : bytes <+: wire.drop (start + 1)) : b :: bytes <+: wire.drop start := by
  obtain ⟨tail, whole⟩ := first
  rw [← List.drop_drop, ← whole] at rest
  rw [← whole]
  exact (List.prefix_cons_inj b).mpr rest

/-- What the loop accepts stands there. -/
theorem readLabels_ok {p q : Parser} (whole : p.Whole) (done : readLabels p bound passed = .ok (all, q)) :
    ∃ labels stop, all = passed ++ labels ∧ Reads p.wire bound p.current labels stop ∧ stop ≤ p.limit ∧
      q.wire = p.wire ∧ q.limit = p.limit ∧ q.furthest = max p.furthest stop := by
  fun_induction readLabels p bound passed with
  | case1 => cases done
  | case2 p _ passed q' counted =>
    cases done
    obtain ⟨here, _⟩ := getUint8_here whole counted
    obtain ⟨moved, _⟩ := Parser.getUint8_ok counted
    exact ⟨[[]], _, rfl, .root here, moved.inside, moved.wire, moved.limit, moved.furthest⟩
  | case3 => cases done
  | case4 p bound passed count p' counted some short label p'' taken ih =>
    obtain ⟨first, _⟩ := getUint8_here whole counted
    obtain ⟨moved, _⟩ := Parser.getUint8_ok counted
    obtain ⟨moved', bytes⟩ := Parser.getBytes_ok taken
    obtain ⟨labels, stop, rfl, reads, within, wire, limit, furthest⟩ := ih (moved'.whole (moved.whole whole)) done
    have size : label.length = count := by
      have inside := moved'.inside
      have whole' := moved.whole whole
      unfold Parser.Whole at whole'
      rw [bytes, List.length_take, List.length_drop]
      omega
    have rest : label <+: p.wire.drop (p.current + 1) := by
      rw [bytes, moved.wire, moved.current]
      exact List.take_prefix _ _
    have after : p''.current = p.current + (label.length + 1) := by
      rw [moved'.current, moved.current, size]
      omega
    rw [moved'.wire, moved.wire, after] at reads
    have span := reads.stop_le
    refine ⟨label :: labels, stop, by simp, .label ?_ (by omega) (prefix_drop_cons (size ▸ first) rest) reads,
      ?_, ?_, ?_, ?_⟩
    · rintro rfl
      exact some size.symm
    · rw [moved'.limit, moved.limit] at within
      exact within
    · rw [wire, moved'.wire, moved.wire]
    · rw [limit, moved'.limit, moved.limit]
    · rw [furthest, moved'.furthest, moved.furthest, moved.current]
      omega
  | case5 => cases done
  | case6 => cases done
  | case7 => cases done
  | case8 p bound passed count p' counted _ _ mark low p'' second current below next sought ih =>
    obtain ⟨moved, _⟩ := Parser.getUint8_ok counted
    obtain ⟨moved', _⟩ := Parser.getUint8_ok second
    obtain ⟨first, byte⟩ := getUint8_here whole counted
    obtain ⟨rest, byte'⟩ := getUint8_here (moved.whole whole) second
    obtain ⟨nextWire, nextLimit, nextCurrent, nextFurthest⟩ := Parser.seek_ok sought
    have nextWhole : next.Whole := by
      rw [Parser.Whole, nextWire, nextLimit]
      exact moved'.whole (moved.whole whole)
    obtain ⟨labels, stop, rfl, reads, within, wire, limit, furthest⟩ := ih nextWhole done
    obtain ⟨packed, fits⟩ := pointer_packShort mark byte byte'
    rw [moved.wire, moved.current] at rest
    rw [nextWire, moved'.wire, moved.wire, nextCurrent] at reads
    have inside := moved'.inside
    rw [moved.current, moved.limit] at inside
    rw [nextLimit, moved'.limit, moved.limit] at within
    refine ⟨labels, _, rfl, .pointer (not_le.mp below) fits (packed ▸ prefix_drop_cons first rest) reads,
      by omega, ?_, ?_, ?_⟩
    · rw [wire, nextWire, moved'.wire, moved.wire]
    · rw [limit, nextLimit, moved'.limit, moved.limit]
    · rw [furthest, nextFurthest, moved'.furthest, moved.furthest, moved.current]
      omega
  | case9 => cases done

/-- A name that stands at the parser's position, from where nothing further on
has been read, and the parser behind it. -/
theorem fromWireParser_reads {p : Parser} (fresh : p.furthest ≤ p.current)
    (reads : Reads p.wire p.current p.current labels stop) (inside : stop ≤ p.limit) (valid : Valid labels) :
    ∃ q, fromWireParser p = .ok (⟨labels, valid⟩, q) ∧ q.wire = p.wire ∧ q.limit = p.limit ∧
      q.current = stop ∧ q.furthest = stop := by
  obtain ⟨q, read, wire, limit, furthest⟩ := readLabels_reads reads p [] rfl rfl inside
  have behind : q.furthest = stop := by
    have := reads.stop_le
    omega
  refine ⟨q.restoreFurthest, ?_, wire, limit, behind, behind⟩
  simp only [fromWireParser, read, List.nil_append, make_valid valid]

theorem fromWireParser_ok {p q : Parser} (whole : p.Whole) (fresh : p.furthest ≤ p.current)
    (done : fromWireParser p = .ok (name, q)) :
    Reads p.wire p.current p.current name.labels q.current ∧ q.current ≤ p.limit ∧ q.wire = p.wire ∧
      q.limit = p.limit ∧ q.furthest = q.current := by
  unfold fromWireParser at done
  split at done
  case h_1 => cases done
  case h_2 labels q' read =>
    split at done
    case h_1 => cases done
    case h_2 name' made =>
      cases done
      obtain ⟨labels', stop, rfl, reads, inside, wire, limit, furthest⟩ := readLabels_ok whole read
      have behind : q'.furthest = stop := by
        have := reads.stop_le
        omega
      refine ⟨?_, behind.trans_le inside, wire, limit, rfl⟩
      change Reads _ _ _ _ q'.furthest
      rw [make_ok made, behind]
      exact reads

/-- `from_wire` accepts exactly the compressed names of the message, whose
pointers lead strictly backwards, and uses them up to the furthest position. -/
theorem fromWire_grammar (message : List UInt8) (current : Nat) (name : Name) (used : Nat) :
    fromWire message current = .ok (name, used) ↔
      Reads message current current name.labels (current + used) := by
  unfold fromWire
  constructor
  · intro done
    split at done
    case h_1 => cases done
    case h_2 p opened =>
      cases read : fromWireParser p with
      | error e => rw [read] at done; cases done
      | ok result =>
        obtain ⟨name', q⟩ := result
        rw [read] at done
        cases done
        obtain ⟨rfl, limit, rfl, furthest⟩ := Parser.ofWire_ok opened
        obtain ⟨reads, _⟩ := fromWireParser_ok limit.le furthest.le read
        rw [Nat.add_sub_cancel' (Nat.le_of_lt reads.stop_le.1)]
        exact reads
  · intro reads
    have span := reads.stop_le
    have inside : current ≤ message.length := by omega
    obtain ⟨p, opened⟩ := Parser.ofWire_inside inside
    obtain ⟨rfl, limit, rfl, furthest⟩ := Parser.ofWire_ok opened
    obtain ⟨q, read, _, _, current, _⟩ := fromWireParser_reads furthest.le reads (by omega) name.valid
    simp only [opened, read, Except.map, current, Nat.add_sub_cancel_left]

end HttpSocksProxy.Dns
