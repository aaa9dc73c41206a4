import HttpSocksProxy.Dns.Wire
import HttpSocksProxy.Foundation.Effect

/-! `to_wire`: names are written under a table of the names that stand in the
file already. -/
namespace HttpSocksProxy.Dns

/-- The file that names are written to, and the names in it that a pointer can
lead to. -/
structure Output where
  file : List UInt8
  compress : List (Name × Nat)
  deriving DecidableEq

abbrev Writing := EStateM NameError Output

def Output.write (bytes : List UInt8) (o : Output) : Output := { o with file := o.file ++ bytes }

/-- `compress[n] = file.tell()`, for a position that a pointer can hold. -/
def Output.enter (n : Name) (o : Output) : Output :=
  if 1 < n.labels.length ∧ o.file.length ≤ 0x3FFF then
    { o with compress := o.compress ++ [(n, o.file.length)] }
  else o

/-- `compress.get`: names are equal up to case, and so are their hashes. -/
def lookup (compress : List (Name × Nat)) (n : Name) : Option Nat :=
  (compress.find? (·.1.same n)).map (·.2)

def raising (x : Except NameError A) : Writing A :=
  match x with
  | .ok a => pure a
  | .error e => throw e

/-- A label as it is written. -/
def written (canonicalize : Bool) (label : Label) : List UInt8 :=
  label.length.toUInt8 :: if canonicalize then lower label else label

/-- The loop of `to_wire`. -/
def writeLabels (compressing canonicalize : Bool) : List Label → Writing Unit
  | [] => pure ()
  | label :: labels => do
    let n ← raising (make (label :: labels))
    let o ← get
    match if compressing then lookup o.compress n else none with
    | some pos => set (o.write (packShort (0xC000 + pos)))
    | none => do
      let o := if compressing then o.enter n else o
      set (o.write (written canonicalize label))
      writeLabels compressing canonicalize labels

/-- The labels that are written for a name. -/
def wireLabels (n : Name) (origin : Option Name) : Except NameError (List Label) :=
  if n.isAbsolute then .ok n.labels
  else match origin with
    | none => .error .needAbsoluteNameOrOrigin
    | some origin =>
      if origin.isAbsolute then .ok (n.labels ++ origin.labels) else .error .needAbsoluteNameOrOrigin

/-- `to_wire`. -/
def toWire (n : Name) (compressing : Bool) (origin : Option Name) (canonicalize : Bool) : Writing Unit := do
  let labels ← raising (wireLabels n origin)
  writeLabels compressing canonicalize labels

/-- `to_wire` without a file. -/
def toBytes (n : Name) (origin : Option Name) (canonicalize : Bool) : Except NameError (List UInt8) :=
  (wireLabels n origin).map fun labels => labels.flatMap (written canonicalize)

/-- An entry of the compression table stands in the file where it says. -/
def Stands (wire : List UInt8) (e : Name × Nat) : Prop :=
  e.2 ≤ 0x3FFF ∧ ∃ labels stop, Reads wire e.2 e.2 labels stop ∧ labels.map lower = e.1.labels.map lower

theorem Stands.append (stands : Stands wire e) (more : List UInt8) : Stands (wire ++ more) e := by
  obtain ⟨low, labels, stop, reads, same⟩ := stands
  exact ⟨low, labels, stop, reads.append more, same⟩

theorem lookup_some (found : lookup compress n = some pos) :
    ∃ m, (m, pos) ∈ compress ∧ m.labels.map lower = n.labels.map lower := by
  obtain ⟨⟨m, pos'⟩, first, rfl⟩ := Option.map_eq_some_iff.mp found
  have ⟨same, member⟩ := And.intro (List.find?_some first) (List.mem_of_find?_eq_some first)
  exact ⟨m, member, Name.same_iff.mp same⟩

section Cases
variable (compressing canonicalize : Bool) (valid : Valid (label :: labels)) (o : Output)

theorem writeLabels_known (found : lookup o.compress ⟨label :: labels, valid⟩ = some pos) :
    writeLabels true canonicalize (label :: labels) o = .ok () (o.write (packShort (0xC000 + pos))) := by
  simp only [writeLabels, make_valid valid, raising, Effect.run_bind, Effect.run_pure, Effect.run_get,
    Effect.run_set, if_true, found]

theorem writeLabels_new
    (missing : (if compressing then lookup o.compress ⟨label :: labels, valid⟩ else none) = none) :
    writeLabels compressing canonicalize (label :: labels) o =
      writeLabels compressing canonicalize labels
        ((if compressing then o.enter ⟨label :: labels, valid⟩ else o).write (written canonicalize label)) := by
  simp only [writeLabels, make_valid valid, raising, Effect.run_bind, Effect.run_pure, Effect.run_get,
    Effect.run_set, missing]

theorem length_written (canonicalize : Bool) (label : Label) :
    (written canonicalize label).length = label.length + 1 := by
  cases canonicalize <;> simp [written, length_lower]

theorem written_label (canonicalize : Bool) (label : Label) :
    ∃ label', written canonicalize label = label'.length.toUInt8 :: label' ∧
      lower label' = lower label ∧ label'.length = label.length := by
  cases canonicalize with
  | false => exact ⟨label, rfl, rfl, rfl⟩
  | true => exact ⟨lower label, by simp [written, length_lower], lower_lower label, length_lower⟩

theorem enter_entry (n : Name) : ∃ entry, (if compressing then o.enter n else o) = ⟨o.file, o.compress ++ entry⟩ ∧
    ∀ e ∈ entry, e = (n, o.file.length) ∧ 1 < n.labels.length ∧ o.file.length ≤ 0x3FFF := by
  by_cases entered : compressing = true ∧ 1 < n.labels.length ∧ o.file.length ≤ 0x3FFF
  · refine ⟨[(n, o.file.length)], ?_, fun e member => ⟨List.mem_singleton.mp member, entered.2⟩⟩
    rw [if_pos entered.1, Output.enter, if_pos entered.2]
  · refine ⟨[], ?_, by simp⟩
    rw [List.append_nil]
    split
    case isTrue on => rw [Output.enter, if_neg fun fits => entered ⟨on, fits⟩]
    case isFalse => rfl

end Cases

/-- What writing labels does: it appends to the file and to the table. On any
file of the same length where the entries for names that are no longer than these
labels stand below `start`, the labels can be read, and what was added stands. -/
theorem writeLabels_spec (compressing canonicalize : Bool) (valid : Valid labels)
    (rooted : labels.getLast? = some []) (o : Output) (within : start ≤ o.file.length) :
    ∃ chunk added, writeLabels compressing canonicalize labels o =
        .ok () ⟨o.file ++ chunk, o.compress ++ added⟩ ∧ (∀ e ∈ added, o.file.length ≤ e.2) ∧
      ∀ wire : List UInt8, wire.length = o.file.length →
        (∀ e ∈ o.compress, e.1.labels.length ≤ labels.length → e.2 < start ∧ Stands wire e) →
        (∃ read, Reads (wire ++ chunk) start wire.length read (wire.length + chunk.length) ∧
          read.map lower = labels.map lower) ∧
        ∀ e ∈ added, Stands (wire ++ chunk) e := by
  induction labels generalizing o with
  | nil => simp at rooted
  | cons label labels ih =>
    cases known : if compressing then lookup o.compress ⟨label :: labels, valid⟩ else none with
    | some pos =>
      obtain ⟨rfl, found⟩ := Option.ite_none_right_eq_some.mp known
      refine ⟨packShort (0xC000 + pos), [], ?_, by simp, fun wire size old => ⟨?_, by simp⟩⟩
      · rw [writeLabels_known canonicalize valid o found, List.append_nil]
        rfl
      · obtain ⟨m, member, same⟩ := lookup_some found
        have length : m.labels.length = (label :: labels).length := by
          simpa using congrArg List.length same
        obtain ⟨below, low, read, stop, reads, folded⟩ := old _ member length.le
        have pointed : Reads (wire ++ packShort (0xC000 + pos)) start wire.length read
            (max (wire.length + 2) stop) := by
          refine .pointer below low ?_ (reads.append _)
          rw [List.drop_left]
        rw [Nat.max_eq_left (Nat.le_add_right_of_le reads.stop_le.2)] at pointed
        exact ⟨read, pointed, folded.trans same⟩
    | none =>
      have step := writeLabels_new compressing canonicalize valid o known
      obtain ⟨entry, entered, fresh⟩ := enter_entry compressing o ⟨label :: labels, valid⟩
      rw [entered] at step
      have size := length_written canonicalize label
      cases labels with
      | nil =>
        obtain rfl : label = [] := Option.some.inj rooted
        have none : entry = [] := List.eq_nil_iff_forall_not_mem.mpr fun e member => by
          simpa using (fresh e member).2.1
        have bytes : written canonicalize [] = [0] := by cases canonicalize <;> rfl
        refine ⟨[0], [], ?_, by simp, fun wire _ _ => ⟨⟨[[]], .root ?_, rfl⟩, by simp⟩⟩
        · rw [step, none, bytes]
          rfl
        · rw [List.drop_left]
      | cons next labels =>
        have some : label ≠ [] := by
          rintro rfl
          exact valid.rooted (by simp)
        have longer : start ≤ (o.file ++ written canonicalize label).length := by
          rw [List.length_append]
          omega
        obtain ⟨chunk, added, wrote, behind, spec⟩ := ih valid.tail rooted
          ⟨o.file ++ written canonicalize label, o.compress ++ entry⟩ longer
        refine ⟨written canonicalize label ++ chunk, entry ++ added, ?_, fun e member => ?_,
          fun wire same old => ?_⟩
        · rw [step, ← List.append_assoc, ← List.append_assoc]
          exact wrote
        · rcases List.mem_append.mp member with new | later
          · rw [(fresh e new).1]
          · have := behind e later
            rw [List.length_append] at this
            exact Nat.le_of_add_right_le this
        · obtain ⟨label', bytes, case, length⟩ := written_label canonicalize label
          have start' : (wire ++ written canonicalize label).length = wire.length + (label'.length + 1) := by
            rw [List.length_append, size, length]
          obtain ⟨⟨read, reads, folded⟩, stand⟩ := spec (wire ++ written canonicalize label)
            (by rw [List.length_append, List.length_append, same]) fun e member short => by
              rcases List.mem_append.mp member with before | new
              · obtain ⟨below, stands⟩ := old e before (Nat.le_succ_of_le short)
                exact ⟨below, stands.append _⟩
              · rw [(fresh e new).1] at short
                exact absurd short (Nat.not_succ_le_self _)
          rw [List.append_assoc] at reads stand
          rw [start'] at reads
          have whole : Reads (wire ++ (written canonicalize label ++ chunk)) start wire.length (label' :: read)
              (wire.length + (written canonicalize label ++ chunk).length) := by
            have stop : wire.length + (written canonicalize label ++ chunk).length =
                wire.length + (label'.length + 1) + chunk.length := by
              rw [List.length_append, size, length]
              omega
            refine .label ?_ (length ▸ valid.short label List.mem_cons_self) ?_ (stop ▸ reads)
            · rintro rfl
              exact some (List.length_eq_zero_iff.mp length.symm)
            · rw [List.drop_left, bytes]
              exact List.prefix_append _ _
          refine ⟨⟨_, whole, by rw [List.map_cons, List.map_cons, case, folded]⟩, fun e member => ?_⟩
          rcases List.mem_append.mp member with new | later
          · obtain ⟨rfl, _, low⟩ := fresh e new
            refine ⟨low, _, _, (same ▸ whole).mono (by omega), ?_⟩
            rw [List.map_cons, List.map_cons, case, folded]
          · exact stand e later

theorem wireLabels_ok (labels : wireLabels n origin = .ok all) : all.getLast? = some [] ∧
    (∀ label ∈ all, label.length ≤ 63) ∧ [] ∉ all.dropLast := by
  unfold wireLabels at labels
  split_ifs at labels with absolute
  · cases labels
    exact ⟨by simpa [Name.isAbsolute] using absolute, n.valid.short, n.valid.rooted⟩
  · split at labels
    · cases labels
    case h_2 origin =>
      split_ifs at labels with rooted
      cases labels
      have some := Name.isAbsolute_ne_nil rooted
      refine ⟨?_, fun label member => ?_, fun empty => ?_⟩
      · rw [List.getLast?_append_of_ne_nil _ some]
        simpa [Name.isAbsolute] using rooted
      · exact (List.mem_append.mp member).elim (n.valid.short label) (origin.valid.short label)
      · rw [List.dropLast_append_of_ne_nil some] at empty
        exact (List.mem_append.mp empty).elim (mt Name.isAbsolute_iff.mpr absolute) origin.valid.rooted

theorem make_long (short : ∀ label ∈ labels, label.length ≤ 63) (long : 255 < wireLength labels) :
    make labels = .error .nameTooLong := by
  have within : labels.any (63 < ·.length) = false := by simpa using short
  have refused : validateLabels labels = .error .nameTooLong := by
    rw [validateLabels, if_neg (by simp [within]), if_pos long]
  unfold make
  split
  case h_1 passed => rw [refused] at passed; cases passed
  case h_2 e failed =>
    rw [refused] at failed
    exact congrArg _ (Except.error.inj failed).symm

theorem writeLabels_long (rooted : labels.getLast? = some []) (short : ∀ label ∈ labels, label.length ≤ 63)
    (long : 255 < wireLength labels) (compressing canonicalize : Bool) (o : Output) :
    writeLabels compressing canonicalize labels o = .error .nameTooLong o := by
  cases labels with
  | nil => simp at rooted
  | cons label labels =>
    rw [writeLabels, make_long short long]
    rfl

theorem length_flatMap_written (labels : List Label) :
    (labels.flatMap (written canonicalize)).length = wireLength labels := by
  simp [wireLength, List.length_flatMap, length_written]

theorem writeLabels_plain (valid : Valid labels) (canonicalize : Bool) (o : Output) :
    writeLabels false canonicalize labels o = .ok () (o.write (labels.flatMap (written canonicalize))) := by
  induction labels generalizing o with
  | nil => simp [writeLabels, Output.write, Effect.run_pure]
  | cons label labels ih =>
    rw [writeLabels_new false canonicalize valid o (if_neg Bool.false_ne_true), if_neg Bool.false_ne_true,
      ih valid.tail]
    simp [Output.write]

/-- Without compression the file gets the bytes that `to_wire` returns without a
file, except that only the file is refused a name that is too long. -/
theorem toWire_plain (n : Name) (origin : Option Name) (canonicalize : Bool) (o : Output) :
    toWire n false origin canonicalize o =
      match toBytes n origin canonicalize with
      | .error e => .error e o
      | .ok bytes => if bytes.length ≤ 255 then .ok () (o.write bytes) else .error .nameTooLong o := by
  unfold toWire toBytes
  cases found : wireLabels n origin with
  | error e => rfl
  | ok labels =>
    obtain ⟨rooted, short, once⟩ := wireLabels_ok found
    change writeLabels false canonicalize labels o = if (labels.flatMap _).length ≤ 255 then _ else _
    rw [length_flatMap_written]
    by_cases fits : wireLength labels ≤ 255
    · rw [if_pos fits, writeLabels_plain ⟨short, fits, once⟩]
    · rw [if_neg fits, writeLabels_long rooted short (Nat.lt_of_not_le fits)]

/-- A name that has been written can be read on any file of the same length where
the table stands, and the table still stands there. -/
theorem toWire_ok (done : toWire n compressing origin canonicalize o = .ok () o') :
    ∃ labels chunk added, wireLabels n origin = .ok labels ∧ Valid labels ∧
      o' = ⟨o.file ++ chunk, o.compress ++ added⟩ ∧ (∀ e ∈ added, o.file.length ≤ e.2) ∧
      ∀ wire : List UInt8, wire.length = o.file.length → (∀ e ∈ o.compress, Stands wire e) →
        (∃ read, Reads (wire ++ chunk) wire.length wire.length read (wire.length + chunk.length) ∧
          read.map lower = labels.map lower) ∧
        ∀ e ∈ o.compress ++ added, Stands (wire ++ chunk) e := by
  unfold toWire at done
  cases found : wireLabels n origin with
  | error e => rw [found] at done; cases done
  | ok labels =>
    rw [found] at done
    obtain ⟨rooted, short, once⟩ := wireLabels_ok found
    have fits : wireLength labels ≤ 255 := by
      by_contra long
      have refused := writeLabels_long rooted short (Nat.lt_of_not_le long) compressing canonicalize o
      cases refused.symm.trans done
    have valid : Valid labels := ⟨short, fits, once⟩
    obtain ⟨chunk, added, wrote, behind, spec⟩ := writeLabels_spec compressing canonicalize valid rooted o (Nat.le_refl _)
    obtain rfl : _ = o' := EStateM.Result.ok.inj (wrote.symm.trans done) |>.2
    refine ⟨labels, chunk, added, rfl, valid, rfl, behind, fun wire size stands => ?_⟩
    obtain ⟨reads, new⟩ := spec wire size fun e member _ => by
      obtain ⟨low, read, stop, reads, same⟩ := stands e member
      have := reads.stop_le
      exact ⟨by omega, low, read, stop, reads, same⟩
    refine ⟨size ▸ reads, fun e member => ?_⟩
    exact (List.mem_append.mp member).elim (fun old => (stands e old).append chunk) (new e)

/-- A name that cannot be written leaves the file and the table as they are. -/
theorem toWire_error (failed : toWire n compressing origin canonicalize o = .error e o') : o' = o := by
  unfold toWire at failed
  cases found : wireLabels n origin with
  | error e =>
    rw [found] at failed
    cases failed
    rfl
  | ok labels =>
    rw [found] at failed
    obtain ⟨rooted, short, once⟩ := wireLabels_ok found
    by_cases fits : wireLength labels ≤ 255
    · obtain ⟨_, _, wrote, _, _⟩ :=
        writeLabels_spec compressing canonicalize ⟨short, fits, once⟩ rooted o (Nat.le_refl _)
      cases wrote.symm.trans failed
    · have refused := writeLabels_long rooted short (Nat.lt_of_not_le fits) compressing canonicalize o
      exact (EStateM.Result.error.inj (refused.symm.trans failed)).2.symm

end HttpSocksProxy.Dns
