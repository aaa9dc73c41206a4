import HttpSocksProxy.Dns.Compression
import HttpSocksProxy.Socks.Address

/-! `dns.renderer.Renderer`: questions and records are written one after another,
an rdata length is patched in behind its rdata, and what makes the message too
big is rolled back. -/
namespace HttpSocksProxy.Dns
open Socks

/-- `struct.pack("!I")`. -/
def packLong (n : UInt32) : List UInt8 := packPort (n / 65536).toUInt16 ++ packPort n.toUInt16

def unpackLong (bytes : List UInt8) : UInt32 :=
  (unpackPort (bytes.take 2)).toUInt32 * 65536 + (unpackPort (bytes.drop 2)).toUInt32

inductive Section where
  | question
  | answer
  | authority
  | additional
  deriving DecidableEq, Repr

def Section.number : Section → Nat
  | .question => 0
  | .answer => 1
  | .authority => 2
  | .additional => 3

/-- A part of an rdata: a fixed number of bytes, or a name. -/
inductive Field where
  | fixed (n : Nat)
  | domain (compressing : Bool)
  deriving DecidableEq, Repr

/-- How a class of rdata is laid out, and whether it ends with all that remains. -/
structure Layout where
  fields : List Field
  trailing : Bool
  deriving DecidableEq, Repr

/-- `get_rdata_class`: NS, CNAME and PTR, DNAME, SOA, MX, and in the class IN also
A, AAAA and SRV. The rdata of any other type is left as raw bytes, which the classes
of the code check and take apart. -/
def layout (rdclass rdtype : UInt16) : Layout :=
  if rdtype = 2 ∨ rdtype = 5 ∨ rdtype = 12 then ⟨[.domain true], false⟩
  else if rdtype = 39 then ⟨[.domain false], false⟩
  else if rdtype = 6 then ⟨[.domain true, .domain true, .fixed 20], false⟩
  else if rdtype = 15 then ⟨[.fixed 2, .domain true], false⟩
  else if rdclass = 1 ∧ rdtype = 1 then ⟨[.fixed 4], false⟩
  else if rdclass = 1 ∧ rdtype = 28 then ⟨[.fixed 16], false⟩
  else if rdclass = 1 ∧ rdtype = 33 then ⟨[.fixed 6, .domain true], false⟩
  else ⟨[], true⟩

/-- The types whose rdata is laid out as the code has it. -/
abbrev LaidOut (rdclass rdtype : UInt16) : Prop := (layout rdclass rdtype).trailing = false

inductive Value where
  | bytes (b : List UInt8)
  | name (n : Name)
  deriving DecidableEq

def Field.Takes : Field → Value → Prop
  | .fixed n, .bytes b => b.length = n
  | .domain _, .name _ => True
  | _, _ => False

structure Rdata where
  values : List Value
  tail : List UInt8
  deriving DecidableEq

structure Rdata.Fits (l : Layout) (rd : Rdata) : Prop where
  values : List.Forall₂ Field.Takes l.fields rd.values
  tail : l.trailing = false → rd.tail = []

structure Rdataset where
  rdclass : UInt16
  rdtype : UInt16
  ttl : UInt32
  rdatas : List Rdata
  fits : ∀ rd ∈ rdatas, rd.Fits (layout rdclass rdtype)

/-- `random.shuffle`: the rdatas of an rdataset, in any order. -/
structure Rdataset.Shuffled (rds : Rdataset) where
  rdatas : List Rdata
  perm : rdatas.Perm rds.rdatas

/-- What is raised while a name or a record is written. -/
inductive WriteError where
  | name (e : NameError)
  | assertion
  deriving DecidableEq, Repr

inductive RenderError where
  | write (e : WriteError)
  | tooBig
  | formError
  | structError
  | valueError
  deriving DecidableEq, Repr

abbrev Rendering := EStateM WriteError Output

def naming (x : Writing Unit) : Rendering Unit := fun o =>
  match x o with
  | .ok _ o => .ok () o
  | .error e o => .error (.name e) o

def write (bytes : List UInt8) : Rendering Unit := modify (·.write bytes)

def tell : Rendering Nat := return (← get).file.length

/-- Writes over what is there, and goes back to the end of the file. -/
def Output.patch (position : Nat) (bytes : List UInt8) (o : Output) : Output :=
  { o with file := o.file.take position ++ bytes ++ o.file.drop (position + bytes.length) }

/-- `_rollback`. -/
def Output.rollback (position : Nat) (o : Output) : Output :=
  ⟨o.file.take position, o.compress.filter (·.2 < position)⟩

section Records
variable (origin : Option Name)

def writeFields : List Field → List Value → Rendering Unit
  | .fixed _ :: fields, .bytes b :: values => do
    write b
    writeFields fields values
  | .domain compressing :: fields, .name n :: values => do
    naming (toWire n compressing origin false)
    writeFields fields values
  | _, _ => pure ()

/-- `Rdata.to_wire`. -/
def writeRdata (l : Layout) (rd : Rdata) : Rendering Unit := do
  writeFields origin l.fields rd.values
  write rd.tail

def recordHeader (rdtype rdclass : UInt16) (ttl : UInt32) (rdlen : Nat) : List UInt8 :=
  packPort rdtype ++ packPort rdclass ++ packLong ttl ++ packShort rdlen

/-- One turn of the loop in `Rdataset.to_wire`. -/
def writeRecord (owner : Name) (rds : Rdataset) (rd : Rdata) : Rendering Unit := do
  naming (toWire owner true origin false)
  write (recordHeader rds.rdtype rds.rdclass rds.ttl 0)
  let start ← tell
  writeRdata origin (layout rds.rdclass rds.rdtype) rd
  let stop ← tell
  if 65536 ≤ stop - start then throw .assertion
  modify (·.patch (start - 2) (packShort (stop - start)))

def writeRecords (owner : Name) (rds : Rdataset) : List Rdata → Rendering Unit
  | [] => pure ()
  | rd :: rest => do
    writeRecord origin owner rds rd
    writeRecords owner rds rest

/-- `Rdataset.to_wire`; what it returns is the number of records. -/
def writeRdataset (owner : Name) (rds : Rdataset) (l : rds.Shuffled) : Rendering Nat := do
  if rds.rdatas = [] then
    naming (toWire owner true origin false)
    write (recordHeader rds.rdtype rds.rdclass 0 0)
    return 1
  writeRecords origin owner rds l.rdatas
  return rds.rdatas.length

def writeQuestion (qname : Name) (rdtype rdclass : UInt16) : Rendering Unit := do
  naming (toWire qname true origin false)
  write (packPort rdtype ++ packPort rdclass)

end Records

/-- `_track_size`. -/
def trackSize (maxSize : Nat) (x : Rendering A) : EStateM RenderError Output A := fun o =>
  match x o with
  | .error e t => .error (.write e) t
  | .ok a t => if maxSize < t.file.length then .error .tooBig (t.rollback o.file.length) else .ok a t

structure Renderer where
  output : Output
  id : UInt16
  flags : UInt16
  maxSize : Nat
  origin : Option Name
  current : Section
  counts : Section → Nat
  reserved : Nat

namespace Renderer

/-- `Renderer.__init__`. -/
def init (id flags : UInt16) (maxSize : Nat) (origin : Option Name) : Renderer where
  output := ⟨List.replicate 12 0, []⟩
  id := id
  flags := flags
  maxSize := maxSize
  origin := origin
  current := .question
  counts := fun _ => 0
  reserved := 0

abbrev Step := EStateM RenderError Renderer

/-- `_set_section`. -/
def setSection (s : Section) : Step Unit := do
  if s.number < (← get).current.number then throw .formError
  modify ({ · with current := s })

/-- Writes under `_track_size`. -/
def tracked (x : Option Name → Rendering A) : Step A := fun r =>
  match trackSize r.maxSize (x r.origin) r.output with
  | .ok a o => .ok a { r with output := o }
  | .error e o => .error e { r with output := o }

def count (s : Section) (n : Nat) (r : Renderer) : Renderer :=
  { r with counts := fun s' => if s' = s then r.counts s' + n else r.counts s' }

def addQuestion (qname : Name) (rdtype rdclass : UInt16) : Step Unit := do
  setSection .question
  tracked fun origin => writeQuestion origin qname rdtype rdclass
  modify (count .question 1)

def addRdataset (s : Section) (owner : Name) (rds : Rdataset) (l : rds.Shuffled) : Step Unit := do
  setSection s
  let n ← tracked fun origin => writeRdataset origin owner rds l
  modify (count s n)

def header (r : Renderer) : List UInt8 :=
  packPort r.id ++ packPort r.flags ++ packShort (r.counts .question) ++ packShort (r.counts .answer) ++
    packShort (r.counts .authority) ++ packShort (r.counts .additional)

def writeHeader : Step Unit := do
  let r ← get
  if ∃ s ∈ [Section.question, .answer, .authority, .additional], 65536 ≤ r.counts s then throw .structError
  modify fun r => { r with output := r.output.patch 0 r.header }

def reserve (size : Nat) : Step Unit := do
  if (← get).maxSize < size then throw .valueError
  modify fun r => { r with reserved := r.reserved + size, maxSize := r.maxSize - size }

def releaseReserved : Step Unit :=
  modify fun r => { r with maxSize := r.maxSize + r.reserved, reserved := 0 }

inductive Op where
  | question (qname : Name) (rdtype rdclass : UInt16)
  | rdataset (s : Section) (owner : Name) (rds : Rdataset) (l : rds.Shuffled)
  | header
  | reserve (size : Nat)
  | release

def perform : Op → Step Unit
  | .question qname rdtype rdclass => addQuestion qname rdtype rdclass
  | .rdataset s owner rds l => addRdataset s owner rds l
  | .header => writeHeader
  | .reserve size => reserve size
  | .release => releaseReserved

/-- A step of the renderer; what raises may have changed it too. -/
def step (r : Renderer) (op : Op) : Option (Option RenderError × Renderer) :=
  match perform op r with
  | .ok _ r => some (none, r)
  | .error e r => some (some e, r)

end Renderer

/-- What a computation does that returns: it appends to the file and to the table.
On any file of the same length where the table stands, whatever follows, `Q`
holds of where it wrote, and the table stands. -/
def Renders (x : Rendering A) (Q : A → List UInt8 → Nat → Nat → Prop) : Prop :=
  ∀ o a o', x o = .ok a o' → ∃ chunk added, o' = ⟨o.file ++ chunk, o.compress ++ added⟩ ∧
    (∀ e ∈ added, o.file.length ≤ e.2) ∧
    ∀ wire : List UInt8, wire.length = o.file.length → (∀ e ∈ o.compress, Stands wire e) →
      (∀ e ∈ o.compress ++ added, Stands (wire ++ chunk) e) ∧
      ∀ more, Q a (wire ++ chunk ++ more) wire.length (wire.length + chunk.length)

/-- The labels that a name is written with. -/
def absolute (origin : Option Name) (n : Name) : List Label :=
  if n.isAbsolute then n.labels else n.labels ++ (origin.map Name.labels).getD []

theorem wireLabels_absolute (labels : wireLabels n origin = .ok all) : all = absolute origin n := by
  unfold wireLabels at labels
  unfold absolute
  split_ifs at labels ⊢
  · cases labels; rfl
  · split at labels
    · cases labels
    · split_ifs at labels
      cases labels
      rfl

namespace Renders
variable {x : Rendering A} {Q Q' : A → List UInt8 → Nat → Nat → Prop}

theorem mono (renders : Renders x Q) (weaker : ∀ a wire start stop, Q a wire start stop → Q' a wire start stop) :
    Renders x Q' := by
  intro o a o' done
  obtain ⟨chunk, added, same, behind, spec⟩ := renders o a o' done
  refine ⟨chunk, added, same, behind, fun wire size stands => ?_⟩
  obtain ⟨table, holds⟩ := spec wire size stands
  exact ⟨table, fun more => weaker _ _ _ _ (holds more)⟩

theorem pure (a : A) : Renders (Pure.pure a) fun b _ start stop => b = a ∧ stop = start := by
  intro o b o' done
  cases done
  refine ⟨[], [], by simp, by simp, fun wire _ stands => ⟨by simpa using stands, fun _ => ⟨rfl, rfl⟩⟩⟩

theorem bind {f : A → Rendering B} {R : A → B → List UInt8 → Nat → Nat → Prop} (first : Renders x Q)
    (last : ∀ a, Renders (f a) (R a)) : Renders (x >>= f) fun b wire start stop =>
      ∃ a middle, Q a wire start middle ∧ R a b wire middle stop := by
  intro o b o' done
  simp only [Bind.bind, EStateM.bind] at done
  split at done
  case h_2 => cases done
  case h_1 a middle ran =>
    obtain ⟨chunk, added, rfl, behind, spec⟩ := first o a middle ran
    obtain ⟨chunk', added', rfl, behind', spec'⟩ := last a _ b o' done
    refine ⟨chunk ++ chunk', added ++ added', by simp, fun e member => ?_, fun wire size stands => ?_⟩
    · rcases List.mem_append.mp member with old | new
      · exact behind e old
      · have := behind' e new
        rw [List.length_append] at this
        omega
    · obtain ⟨table, holds⟩ := spec wire size stands
      obtain ⟨table', holds'⟩ := spec' (wire ++ chunk) (by simp [size]) table
      rw [List.append_assoc, List.append_assoc] at table'
      refine ⟨table', fun more => ⟨a, wire.length + chunk.length, ?_, ?_⟩⟩
      · have := holds (chunk' ++ more)
        simpa only [List.append_assoc] using this
      · have := holds' more
        simpa only [List.append_assoc, List.length_append, Nat.add_assoc] using this

theorem write (bytes : List UInt8) : Renders (write bytes) fun _ wire start stop =>
    bytes <+: wire.drop start ∧ stop = start + bytes.length := by
  intro o a o' done
  cases done
  refine ⟨bytes, [], by simp [Output.write], by simp, fun wire _ stands => ⟨?_, fun more => ⟨?_, rfl⟩⟩⟩
  · rw [List.append_nil]
    exact fun e member => (stands e member).append bytes
  · rw [List.append_assoc, List.drop_left]
    exact List.prefix_append _ _

theorem tell : Renders tell fun a _ start stop => a = start ∧ stop = start := by
  intro o a o' done
  cases done
  exact ⟨[], [], by simp, by simp, fun wire size stands => ⟨by simpa using stands, fun _ => ⟨size.symm, rfl⟩⟩⟩

theorem naming (n : Name) (compressing : Bool) (origin : Option Name) :
    Renders (naming (toWire n compressing origin false)) fun _ wire start stop =>
      ∃ read : Name, Reads wire start start read.labels stop ∧
        read.labels.map lower = (absolute origin n).map lower := by
  intro o a o' done
  unfold Dns.naming at done
  split at done
  case h_2 => cases done
  case h_1 written =>
    cases done
    obtain ⟨labels, chunk, added, found, valid, rfl, behind, spec⟩ := toWire_ok written
    refine ⟨chunk, added, rfl, behind, fun wire size stands => ?_⟩
    obtain ⟨⟨read, reads, same⟩, table⟩ := spec wire size stands
    refine ⟨table, fun more => ⟨⟨read, ?_⟩, reads.append more, ?_⟩⟩
    · exact valid_lower.mp (same ▸ valid_lower.mpr valid)
    · rw [← wireLabels_absolute found]
      exact same

end Renders

/-- The parts of an rdata that stand one after another. -/
inductive FieldsAt (wire : List UInt8) : Nat → List Field → List Value → Nat → Prop where
  | nil : FieldsAt wire start [] [] start
  | fixed (size : b.length = n) (here : b <+: wire.drop start) (rest : FieldsAt wire (start + n) fields values stop) :
      FieldsAt wire start (.fixed n :: fields) (.bytes b :: values) stop
  | domain {n : Name} (here : Reads wire start start n.labels next) (rest : FieldsAt wire next fields values stop) :
      FieldsAt wire start (.domain compressing :: fields) (.name n :: values) stop

structure RdataAt (wire : List UInt8) (start : Nat) (l : Layout) (rd : Rdata) (stop : Nat) : Prop where
  fields : FieldsAt wire start l.fields rd.values (stop - rd.tail.length)
  tail : rd.tail <+: wire.drop (stop - rd.tail.length)
  whole : rd.tail.length ≤ stop
  bare : l.trailing = false → rd.tail = []

structure Record where
  name : Name
  rdtype : UInt16
  rdclass : UInt16
  ttl : UInt32
  rdata : Rdata
  deriving DecidableEq

structure RecordAt (wire : List UInt8) (start : Nat) (r : Record) (stop : Nat) : Prop where
  body : ∃ next, Reads wire start start r.name.labels next ∧ next + 10 ≤ stop ∧ stop - (next + 10) < 65536 ∧
    recordHeader r.rdtype r.rdclass r.ttl (stop - (next + 10)) <+: wire.drop next ∧
    RdataAt wire (next + 10) (layout r.rdclass r.rdtype) r.rdata stop

inductive RecordsAt (wire : List UInt8) : Nat → List Record → Nat → Prop where
  | nil : RecordsAt wire start [] start
  | cons (first : RecordAt wire start r middle) (rest : RecordsAt wire middle records stop) :
      RecordsAt wire start (r :: records) stop

/-- What is read for a value: the same bytes, or the absolute name up to case. -/
def Value.Same (origin : Option Name) : Value → Value → Prop
  | .bytes b, .bytes b' => b' = b
  | .name n, .name n' => n'.labels.map lower = (absolute origin n).map lower
  | _, _ => False

structure Record.Same (origin : Option Name) (r r' : Record) : Prop where
  name : r'.name.labels.map lower = (absolute origin r.name).map lower
  fixed : r'.rdtype = r.rdtype ∧ r'.rdclass = r.rdclass ∧ r'.ttl = r.ttl
  values : List.Forall₂ (Value.Same origin) r.rdata.values r'.rdata.values
  tail : r'.rdata.tail = r.rdata.tail

/-- The records of an rdataset, as they are written. -/
def records (owner : Name) (rds : Rdataset) (l : rds.Shuffled) : List Record :=
  l.rdatas.map fun rd => ⟨owner, rds.rdtype, rds.rdclass, rds.ttl, rd⟩

theorem writeFields_renders (origin : Option Name) (takes : List.Forall₂ Field.Takes fields values) :
    Renders (writeFields origin fields values) fun _ wire start stop =>
      ∃ read, FieldsAt wire start fields read stop ∧ List.Forall₂ (Value.Same origin) values read := by
  induction takes with
  | nil =>
    apply (Renders.pure ()).mono
    rintro _ wire start stop ⟨_, rfl⟩
    exact ⟨[], .nil, .nil⟩
  | @cons field value fields values take _ ih =>
    match field, value, take with
    | .fixed n, .bytes b, size =>
      apply ((Renders.write b).bind fun _ => ih).mono
      rintro _ wire start stop ⟨_, middle, ⟨here, rfl⟩, read, rest, same⟩
      exact ⟨.bytes b :: read, .fixed size here (size ▸ rest), .cons rfl same⟩
    | .domain compressing, .name n, _ =>
      apply ((Renders.naming n compressing origin).bind fun _ => ih).mono
      rintro _ wire start stop ⟨_, middle, ⟨m, here, folded⟩, read, rest, same⟩
      exact ⟨.name m :: read, .domain here rest, .cons folded same⟩

theorem writeRdata_renders (origin : Option Name) {rd : Rdata} (fits : rd.Fits l) :
    Renders (writeRdata origin l rd) fun _ wire start stop =>
      ∃ read, RdataAt wire start l read stop ∧ List.Forall₂ (Value.Same origin) rd.values read.values ∧
        read.tail = rd.tail := by
  apply ((writeFields_renders origin fits.values).bind fun _ => Renders.write rd.tail).mono
  rintro _ wire start stop ⟨_, middle, ⟨read, fields, same⟩, tail, rfl⟩
  refine ⟨⟨read, rd.tail⟩, ⟨?_, ?_, Nat.le_add_left _ _, fits.tail⟩, same, rfl⟩
  · rwa [Nat.add_sub_cancel]
  · rwa [Nat.add_sub_cancel]

/-- A length that is written first and patched in behind what it counts. -/
def counted (before : List UInt8) (x : Rendering Unit) : Rendering Unit := do
  write (before ++ packShort 0)
  let start ← tell
  x
  let stop ← tell
  if 65536 ≤ stop - start then throw .assertion
  modify (·.patch (start - 2) (packShort (stop - start)))

theorem counted_ok {x : Rendering Unit} (done : counted before x o = .ok () o') :
    ∃ middle, x (o.write (before ++ packShort 0)) = .ok () middle ∧
      middle.file.length - (o.file.length + (before.length + 2)) < 65536 ∧
      o' = middle.patch (o.file.length + before.length)
        (packShort (middle.file.length - (o.file.length + (before.length + 2)))) := by
  have start : (o.write (before ++ packShort 0)).file.length = o.file.length + (before.length + 2) := by
    simp [Output.write, packShort]
  simp only [counted, write, tell, Effect.run_bind, Effect.run_modify, Effect.run_get, Effect.run_pure,
    start] at done
  cases ran : x (o.write (before ++ packShort 0)) with
  | error e t => rw [ran] at done; cases done
  | ok a middle =>
    rw [ran] at done
    refine ⟨middle, rfl, ?_⟩
    simp only at done
    split at done
    case isTrue => cases done
    case isFalse small =>
      cases done
      exact ⟨Nat.lt_of_not_le small, by rw [Nat.add_sub_assoc (Nat.le_add_left 2 _), Nat.add_sub_cancel]⟩

theorem patch_placeholder (front before rest : List UInt8) (n : Nat) (compress : List (Name × Nat)) :
    Output.patch (front.length + before.length) (packShort n) ⟨front ++ (before ++ packShort 0) ++ rest, compress⟩ =
      ⟨front ++ (before ++ packShort n ++ rest), compress⟩ := by
  have split : front ++ (before ++ packShort 0) ++ rest = (front ++ before) ++ (packShort 0 ++ rest) := by simp
  have size : front.length + before.length = (front ++ before).length := List.length_append.symm
  simp only [Output.patch, split, size, List.take_left]
  rw [show (packShort n).length = (packShort 0).length from rfl, ← List.length_append, ← List.append_assoc,
    List.drop_left]
  simp

theorem counted_renders {x : Rendering Unit} {Q : Unit → List UInt8 → Nat → Nat → Prop}
    (renders : Renders x Q) (before : List UInt8) : Renders (counted before x) fun _ wire start stop =>
      start + (before.length + 2) ≤ stop ∧ stop - (start + (before.length + 2)) < 65536 ∧
        before ++ packShort (stop - (start + (before.length + 2))) <+: wire.drop start ∧
        Q () wire (start + (before.length + 2)) stop := by
  intro o a o' done
  obtain ⟨middle, ran, small, rfl⟩ := counted_ok done
  obtain ⟨chunk, added, rfl, behind, spec⟩ := renders _ _ _ ran
  have size : (o.file ++ (before ++ packShort 0) ++ chunk).length -
      (o.file.length + (before.length + 2)) = chunk.length := by
    simp only [List.length_append, packShort, List.length_cons, List.length_nil]
    omega
  simp only [Output.write] at small behind spec ⊢
  rw [size] at small ⊢
  rw [patch_placeholder]
  refine ⟨before ++ packShort chunk.length ++ chunk, added, rfl, fun e member => ?_, fun wire same stands => ?_⟩
  · have := behind e member
    rw [List.length_append] at this
    omega
  · obtain ⟨table, holds⟩ := spec (wire ++ (before ++ packShort chunk.length))
      (by simp [packShort, same]) fun e member => (stands e member).append _
    have start : (wire ++ (before ++ packShort chunk.length)).length = wire.length + (before.length + 2) := by
      simp [packShort]
    have stop : wire.length + (before ++ packShort chunk.length ++ chunk).length =
        wire.length + (before.length + 2) + chunk.length := by
      simp [packShort]
      omega
    refine ⟨by simpa only [List.append_assoc] using table, fun more => ?_⟩
    have behindCount := holds more
    rw [start] at behindCount
    rw [stop, Nat.add_sub_cancel_left]
    refine ⟨Nat.le_add_right _ _, small, ?_, by simpa only [List.append_assoc] using behindCount⟩
    rw [List.append_assoc, List.append_assoc, List.drop_left]
    exact List.prefix_append _ _

theorem writeRecord_renders (origin : Option Name) (owner : Name) {rds : Rdataset} (member : rd ∈ rds.rdatas) :
    Renders (writeRecord origin owner rds rd) fun _ wire start stop => ∃ r, RecordAt wire start r stop ∧
      Record.Same origin ⟨owner, rds.rdtype, rds.rdclass, rds.ttl, rd⟩ r := by
  have body := counted_renders (writeRdata_renders origin (rds.fits rd member))
    (packPort rds.rdtype ++ packPort rds.rdclass ++ packLong rds.ttl)
  apply ((Renders.naming owner true origin).bind fun _ => body).mono
  rintro _ wire start stop ⟨_, next, ⟨name, here, folded⟩, inside, small, header, read, rdata, values, tail⟩
  exact ⟨⟨name, rds.rdtype, rds.rdclass, rds.ttl, read⟩, ⟨next, here, inside, small, header, rdata⟩,
    folded, ⟨rfl, rfl, rfl⟩, values, tail⟩

theorem writeRecords_renders (origin : Option Name) (owner : Name) (rds : Rdataset)
    (members : ∀ rd ∈ rdatas, rd ∈ rds.rdatas) :
    Renders (writeRecords origin owner rds rdatas) fun _ wire start stop => ∃ read, RecordsAt wire start read stop ∧
      List.Forall₂ (Record.Same origin)
        (rdatas.map fun rd => ⟨owner, rds.rdtype, rds.rdclass, rds.ttl, rd⟩) read := by
  induction rdatas with
  | nil =>
    apply (Renders.pure ()).mono
    rintro _ wire start stop ⟨_, rfl⟩
    exact ⟨[], .nil, .nil⟩
  | cons rd rdatas ih =>
    have first := writeRecord_renders origin owner (members rd List.mem_cons_self)
    apply (first.bind fun _ => ih fun rd member => members rd (List.mem_cons_of_mem _ member)).mono
    rintro _ wire start stop ⟨_, middle, ⟨r, here, same⟩, read, rest, later⟩
    exact ⟨r :: read, .cons here rest, .cons same later⟩

theorem writeRdataset_renders (origin : Option Name) (owner : Name) {rds : Rdataset} (l : rds.Shuffled)
    (some : rds.rdatas ≠ []) : Renders (writeRdataset origin owner rds l) fun n wire start stop =>
      n = rds.rdatas.length ∧
      ∃ read, RecordsAt wire start read stop ∧ List.Forall₂ (Record.Same origin) (records owner rds l) read := by
  unfold writeRdataset
  rw [if_neg some]
  apply ((writeRecords_renders origin owner rds fun _ => l.perm.mem_iff.mp).bind fun _ => Renders.pure _).mono
  rintro n wire start stop ⟨_, middle, ⟨read, here, same⟩, rfl, rfl⟩
  exact ⟨rfl, read, here, same⟩

structure Question where
  name : Name
  rdtype : UInt16
  rdclass : UInt16
  deriving DecidableEq

structure QuestionAt (wire : List UInt8) (start : Nat) (q : Question) (stop : Nat) : Prop where
  body : ∃ next, Reads wire start start q.name.labels next ∧ stop = next + 4 ∧
    packPort q.rdtype ++ packPort q.rdclass <+: wire.drop next

inductive QuestionsAt (wire : List UInt8) : Nat → List Question → Nat → Prop where
  | nil : QuestionsAt wire start [] start
  | cons (first : QuestionAt wire start q middle) (rest : QuestionsAt wire middle questions stop) :
      QuestionsAt wire start (q :: questions) stop

structure Question.Same (origin : Option Name) (q q' : Question) : Prop where
  name : q'.name.labels.map lower = (absolute origin q.name).map lower
  fixed : q'.rdtype = q.rdtype ∧ q'.rdclass = q.rdclass

theorem RecordsAt.append (here : RecordsAt wire start rs middle) (next : RecordsAt wire middle rs' stop) :
    RecordsAt wire start (rs ++ rs') stop := by
  induction here with
  | nil => exact next
  | cons first _ ih => exact .cons first (ih next)

theorem QuestionsAt.append (here : QuestionsAt wire start qs middle) (next : QuestionsAt wire middle qs' stop) :
    QuestionsAt wire start (qs ++ qs') stop := by
  induction here with
  | nil => exact next
  | cons first _ ih => exact .cons first (ih next)

theorem writeQuestion_renders (origin : Option Name) (qname : Name) (rdtype rdclass : UInt16) :
    Renders (writeQuestion origin qname rdtype rdclass) fun _ wire start stop =>
      ∃ q, QuestionAt wire start q stop ∧ Question.Same origin ⟨qname, rdtype, rdclass⟩ q := by
  apply ((Renders.naming qname true origin).bind fun _ => Renders.write (packPort rdtype ++ packPort rdclass)).mono
  rintro _ wire start stop ⟨_, next, ⟨name, here, folded⟩, fixed, rfl⟩
  exact ⟨⟨name, rdtype, rdclass⟩, ⟨next, here, rfl, fixed⟩, folded, rfl, rfl⟩

theorem trackSize_ok {x : Rendering A} (done : trackSize maxSize x o = .ok a o') :
    x o = .ok a o' ∧ o'.file.length ≤ maxSize := by
  unfold trackSize at done
  split at done
  case h_1 => cases done
  case h_2 ran =>
    split_ifs at done with large
    cases done
    exact ⟨ran, Nat.le_of_not_lt large⟩

theorem trackSize_error {x : Rendering A} (failed : trackSize maxSize x o = .error e o') :
    (∃ w, e = .write w) ∨ e = .tooBig := by
  unfold trackSize at failed
  split at failed
  · cases failed; exact .inl ⟨_, rfl⟩
  · split_ifs at failed
    cases failed
    exact .inr rfl

/-- What makes the message too big leaves no trace. -/
theorem trackSize_tooBig {x : Rendering A} {Q : A → List UInt8 → Nat → Nat → Prop} (renders : Renders x Q)
    (below : ∀ e ∈ o.compress, e.2 < o.file.length)
    (failed : trackSize maxSize x o = .error .tooBig o') : o' = o := by
  unfold trackSize at failed
  split at failed
  case h_1 => cases failed
  case h_2 a t ran =>
    split_ifs at failed with large
    cases failed
    obtain ⟨chunk, added, rfl, behind, _⟩ := renders _ _ _ ran
    have old : o.compress.filter (·.2 < o.file.length) = o.compress :=
      List.filter_eq_self.mpr fun e member => decide_eq_true (below e member)
    have new : added.filter (·.2 < o.file.length) = [] :=
      List.filter_eq_nil_iff.mpr fun e member => by simpa using behind e member
    simp only [Output.rollback, List.take_left, List.filter_append, old, new, List.append_nil]

end HttpSocksProxy.Dns
