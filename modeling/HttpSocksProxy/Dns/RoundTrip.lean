import Mathlib.Data.List.Forall2
import HttpSocksProxy.Dns.Message
import HttpSocksProxy.Foundation.Transition

/-! Runs of the renderer: what it has written can be read back as a message,
whatever was rolled back on the way. -/
namespace HttpSocksProxy.Dns
open Transition Renderer

abbrev Past := List (Op × Option RenderError)

/-- The questions that a run has written. -/
def Past.questions : Past → List Question
  | [] => []
  | (.question qname rdtype rdclass, none) :: past => Past.questions past ++ [⟨qname, rdtype, rdclass⟩]
  | _ :: past => Past.questions past

/-- The records that a run has written to a section. -/
def Past.records (s : Section) : Past → List Record
  | [] => []
  | (.rdataset s' owner rds l, none) :: past =>
    if s' = s then Past.records s past ++ Dns.records owner rds l else Past.records s past
  | _ :: past => Past.records s past

def Past.all (past : Past) : List Record :=
  past.records .answer ++ past.records .authority ++ past.records .additional

/-- A file that starts with a header, and the table stands behind any header. -/
structure Output.Headed (o : Output) : Prop where
  size : 12 ≤ o.file.length
  table : ∀ header : List UInt8, header.length = 12 → ∀ e ∈ o.compress, Stands (header ++ o.file.drop 12) e

theorem Output.Headed.below (headed : Headed o) : ∀ e ∈ o.compress, e.2 < o.file.length := by
  intro e member
  have header : (o.file.take 12).length = 12 := by
    rw [List.length_take]
    exact Nat.min_eq_left headed.size
  obtain ⟨_, labels, stop, reads, _⟩ := headed.table _ header e member
  rw [List.take_append_drop] at reads
  have := reads.stop_le
  omega

/-- What is written extends the file behind any header. -/
theorem Renders.extend {x : Rendering A} {Q : A → List UInt8 → Nat → Nat → Prop} (renders : Renders x Q)
    (headed : o.Headed) (done : x o = .ok a o') : o'.Headed ∧ ∃ chunk, o'.file = o.file ++ chunk ∧
      ∀ header : List UInt8, header.length = 12 → ∀ more,
        Q a (header ++ o.file.drop 12 ++ (chunk ++ more)) o.file.length (o.file.length + chunk.length) := by
  obtain ⟨chunk, added, rfl, behind, spec⟩ := renders o a o' done
  have whole (header : List UInt8) (twelve : header.length = 12) :
      (header ++ o.file.drop 12).length = o.file.length := by
    have := headed.size
    rw [List.length_append, List.length_drop]
    omega
  refine ⟨⟨?_, fun header twelve => ?_⟩, chunk, rfl, fun header twelve more => ?_⟩
  · have := headed.size
    rw [List.length_append]
    omega
  · have := (spec _ (whole header twelve) (headed.table header twelve)).1
    rwa [List.drop_append_of_le_length headed.size, ← List.append_assoc]
  · have := (spec _ (whole header twelve) (headed.table header twelve)).2 more
    rwa [whole header twelve, List.append_assoc] at this

/-- The message so far, behind any header and before anything. -/
structure Laid (id flags : UInt16) (maxSize : Nat) (origin : Option Name) (past : Past) (r : Renderer) : Prop where
  fields : r.id = id ∧ r.flags = flags ∧ r.origin = origin ∧ r.maxSize + r.reserved = maxSize
  headed : r.output.Headed
  bounded : r.output.file.length ≤ max 12 maxSize
  content : ∀ header : List UInt8, header.length = 12 → ∀ more, ∃ qs middle rs,
    QuestionsAt (header ++ r.output.file.drop 12 ++ more) 12 qs middle ∧
      RecordsAt (header ++ r.output.file.drop 12 ++ more) middle rs r.output.file.length ∧
      List.Forall₂ (Question.Same origin) past.questions qs ∧ List.Forall₂ (Record.Same origin) past.all rs
  questions : r.counts .question = past.questions.length
  records : ∀ s, s ≠ .question → r.counts s = (past.records s).length
  later : ∀ s, r.current.number < s.number → past.records s = []
  ordinary : ∀ s, ∀ record ∈ past.records s, Ordinary record.rdtype

/-- Steps that raise nothing in the middle of a name or a record; and the records
go to a section of records, are of a type that is laid out, and there is one. -/
def Renderable (_ : Renderer) : Op × Option RenderError → Prop
  | (_, some (.write _)) => False
  | (.rdataset s _ rds _, _) => s ≠ .question ∧ rds.rdatas ≠ [] ∧ LaidOut rds.rdclass rds.rdtype
  | _ => True

variable {id flags : UInt16} {maxSize : Nat} {origin : Option Name} {past : Past} {r r' : Renderer}

theorem laid_init : Laid id flags maxSize origin [] (init id flags maxSize origin) where
  fields := ⟨rfl, rfl, rfl, rfl⟩
  headed := ⟨Nat.le_refl 12, by simp [init]⟩
  bounded := Nat.le_max_left _ _
  content := fun header twelve more => ⟨[], 12, [], .nil, .nil, .nil, .nil⟩
  questions := rfl
  records := fun _ _ => rfl
  later := fun _ _ => rfl
  ordinary := fun _ _ none => by cases none

/-- A step that raised has written nothing. -/
theorem Past.raised (op : Op) (e : RenderError) (past : Past) :
    Past.questions ((op, some e) :: past) = past.questions ∧
      ∀ s, Past.records s ((op, some e) :: past) = past.records s := by
  cases op <;> exact ⟨rfl, fun _ => rfl⟩

/-- How a question or an rdataset is added. -/
theorem place_cases {x : Option Name → Rendering A} {Q : A → List UInt8 → Nat → Nat → Prop}
    (renders : Renders (x r.origin) Q) (headed : r.output.Headed) (s : Section) (k : A → Nat)
    (placed : (do setSection s; let a ← tracked x; modify (count s (k a)) : Step Unit) r = result) :
    (∃ e t, result = .error (.write e) t) ∨
    (∃ e c, r.current.number ≤ c.number ∧ result = .error e { r with current := c }) ∨
    (r.current.number ≤ s.number ∧ ∃ a o, x r.origin r.output = .ok a o ∧ o.file.length ≤ r.maxSize ∧
      result = .ok () (count s (k a) { r with output := o, current := s })) := by
  subst placed
  by_cases early : s.number < r.current.number
  · refine .inr (.inl ⟨.formError, r.current, Nat.le_refl _, ?_⟩)
    simp only [setSection, Effect.run_bind, Effect.run_get, if_pos early, Effect.run_throw]
  · have order := Nat.le_of_not_lt early
    have set : setSection s r = .ok () { r with current := s } := by
      simp only [setSection, Effect.run_bind, Effect.run_get, if_neg early]
      rfl
    simp only [Effect.run_bind, set, tracked]
    cases ran : trackSize r.maxSize (x r.origin) r.output with
    | ok a o =>
      obtain ⟨done, small⟩ := trackSize_ok ran
      exact .inr (.inr ⟨order, a, o, done, small, rfl⟩)
    | error e o =>
      rcases trackSize_error ran with ⟨w, rfl⟩ | rfl
      · exact .inl ⟨w, _, rfl⟩
      · obtain rfl := trackSize_tooBig renders headed.below ran
        exact .inr (.inl ⟨.tooBig, s, order, rfl⟩)

/-- A step that raised, but not in the middle of a record, leaves the message as
it was. -/
theorem Laid.raised (laid : Laid id flags maxSize origin past r) (op : Op) (e : RenderError) {c : Section}
    (later : r.current.number ≤ c.number) :
    Laid id flags maxSize origin ((op, some e) :: past) { r with current := c } where
  fields := laid.fields
  headed := laid.headed
  bounded := laid.bounded
  content := by
    simpa only [Past.all, Past.raised] using laid.content
  questions := by
    rw [(Past.raised op e past).1]
    exact laid.questions
  records := by
    simpa only [Past.raised] using laid.records
  later := fun s behind => by
    rw [(Past.raised op e past).2]
    exact laid.later s (Nat.lt_of_le_of_lt later behind)
  ordinary := by
    simpa only [Past.raised] using laid.ordinary

theorem Past.all_append (s : Section) (records : s ≠ .question) (past : Past) (owner : Name) (rds : Rdataset)
    (l : rds.Shuffled) (later : ∀ s', s.number < s'.number → past.records s' = []) :
    Past.all ((.rdataset s owner rds l, none) :: past) = past.all ++ Dns.records owner rds l := by
  cases s with
  | question => exact absurd rfl records
  | answer =>
    simp [Past.all, Past.records, later .authority (by decide), later .additional (by decide)]
  | authority => simp [Past.all, Past.records, later .additional (by decide)]
  | additional => simp [Past.all, Past.records]

theorem Past.all_nil (later : ∀ s, 0 < s.number → Past.records s past = []) : past.all = [] := by
  simp [Past.all, later .answer (by decide), later .authority (by decide), later .additional (by decide)]

/-- One more rdataset. -/
theorem Laid.rdataset (laid : Laid id flags maxSize origin past r) {s : Section} (kind : s ≠ .question)
    (order : r.current.number ≤ s.number) {owner : Name} {rds : Rdataset} {l : rds.Shuffled}
    (some : rds.rdatas ≠ []) (kept : LaidOut rds.rdclass rds.rdtype)
    (done : writeRdataset origin owner rds l r.output = .ok n o) (small : o.file.length ≤ r.maxSize) :
    Laid id flags maxSize origin ((.rdataset s owner rds l, none) :: past)
      (count s n { r with output := o, current := s }) := by
  obtain ⟨headed, chunk, file, spec⟩ := (writeRdataset_renders origin owner l some).extend laid.headed done
  have later (s' : Section) (behind : s.number < s'.number) : past.records s' = [] :=
    laid.later s' (Nat.lt_of_le_of_lt order behind)
  have size := laid.headed.size
  have number : n = rds.rdatas.length := (spec (List.replicate 12 0) rfl []).1
  exact {
    fields := laid.fields
    headed := headed
    bounded := by
      have := laid.fields.2.2.2
      simp only [count]
      omega
    content := fun header twelve more => by
      obtain ⟨qs, middle, rs, asked, answered, sameQs, sameRs⟩ := laid.content header twelve (chunk ++ more)
      obtain ⟨_, read, here, same⟩ := spec header twelve more
      refine ⟨qs, middle, rs ++ read, ?_, ?_, sameQs, ?_⟩
      · simpa only [count, file, List.drop_append_of_le_length size, List.append_assoc] using asked
      · simp only [count, file, List.drop_append_of_le_length size, List.append_assoc] at answered here ⊢
        rw [List.length_append]
        exact answered.append here
      · rw [Past.all_append s kind past owner rds l later]
        exact List.rel_append sameRs same
    questions := by
      simpa only [count, if_neg kind.symm, Past.questions] using laid.questions
    records := fun s' kind' => by
      simp only [count, Past.records]
      by_cases same : s = s'
      · subst same
        rw [if_pos rfl, if_pos rfl, laid.records s kind, List.length_append, number, Dns.records, List.length_map,
          l.perm.length_eq]
      · rw [if_neg (Ne.symm same), if_neg same, laid.records s' kind']
    later := fun s' behind => by
      have differ : s ≠ s' := by
        rintro rfl
        exact absurd behind (Nat.lt_irrefl _)
      rw [Past.records, if_neg differ]
      exact later s' behind
    ordinary := fun s' record member => by
      rw [Past.records] at member
      split at member
      · rcases List.mem_append.mp member with old | new
        · exact laid.ordinary s' record old
        · obtain ⟨rd, _, rfl⟩ := List.mem_map.mp new
          exact kept.ordinary
      · exact laid.ordinary s' record member }

/-- One more question. -/
theorem Laid.question (laid : Laid id flags maxSize origin past r) (first : r.current.number ≤ 0)
    (done : writeQuestion origin qname rdtype rdclass r.output = .ok () o) (small : o.file.length ≤ r.maxSize) :
    Laid id flags maxSize origin ((.question qname rdtype rdclass, none) :: past)
      (count .question 1 { r with output := o, current := .question }) := by
  obtain ⟨headed, chunk, file, spec⟩ := (writeQuestion_renders origin qname rdtype rdclass).extend laid.headed done
  have none : past.all = [] := Past.all_nil fun s later => laid.later s (by omega)
  have size := laid.headed.size
  exact {
    fields := laid.fields
    headed := headed
    bounded := by
      have := laid.fields.2.2.2
      simp only [count]
      omega
    content := fun header twelve more => by
      obtain ⟨qs, middle, rs, asked, answered, sameQs, sameRs⟩ := laid.content header twelve (chunk ++ more)
      obtain ⟨q, here, same⟩ := spec header twelve more
      rw [none] at sameRs
      cases sameRs
      cases answered
      refine ⟨qs ++ [q], _, [], ?_, .nil, ?_, ?_⟩
      · simp only [count, file, List.drop_append_of_le_length size, List.append_assoc] at asked here ⊢
        rw [List.length_append]
        exact asked.append (.cons here .nil)
      · exact List.rel_append sameQs (.cons same .nil)
      · rw [show Past.all ((.question qname rdtype rdclass, Option.none) :: past) = past.all from rfl, none]
        exact .nil
    questions := by
      simp only [count, if_true, Past.questions, List.length_append, laid.questions]
      rfl
    records := fun s kind => by
      simpa only [count, if_neg kind, Past.records] using laid.records s kind
    later := fun s behind => by
      have first : 0 < s.number := behind
      exact laid.later s (by omega)
    ordinary := laid.ordinary }

theorem Output.patch_header (o : Output) (header : List UInt8) (twelve : header.length = 12) :
    o.patch 0 header = { o with file := header ++ o.file.drop 12 } := by
  rw [Output.patch, twelve]
  rfl

/-- Another header. -/
theorem Laid.header (laid : Laid id flags maxSize origin past r) (header : List UInt8) (twelve : header.length = 12) :
    Laid id flags maxSize origin ((.header, none) :: past) { r with output := r.output.patch 0 header } := by
  have size := laid.headed.size
  have length : (header ++ r.output.file.drop 12).length = r.output.file.length := by
    rw [List.length_append, List.length_drop]
    omega
  have body : (header ++ r.output.file.drop 12).drop 12 = r.output.file.drop 12 := by
    rw [← twelve, List.drop_left]
  rw [Output.patch_header _ header twelve]
  exact {
    fields := laid.fields
    headed := ⟨by rw [length]; exact size, by rw [body]; exact laid.headed.table⟩
    bounded := by
      rw [length]
      exact laid.bounded
    content := by
      rw [length, body]
      exact laid.content
    questions := laid.questions
    records := laid.records
    later := laid.later
    ordinary := laid.ordinary }

/-- Room that is reserved or released. -/
theorem Laid.resize (laid : Laid id flags maxSize origin past r) (size room : Nat) (sum : size + room = maxSize)
    (op : Op) (kind : op = .release ∨ ∃ n, op = .reserve n) :
    Laid id flags maxSize origin ((op, none) :: past) { r with reserved := room, maxSize := size } := by
  obtain ⟨same, ours, kept, _⟩ := laid.fields
  rcases kind with rfl | ⟨n, rfl⟩
  all_goals exact ⟨⟨same, ours, kept, sum⟩, laid.headed, laid.bounded, laid.content, laid.questions, laid.records,
    laid.later, laid.ordinary⟩

theorem writeHeader_eq (r : Renderer) : writeHeader r =
    if ∃ s ∈ [Section.question, .answer, .authority, .additional], 65536 ≤ r.counts s then .error .structError r
    else .ok () { r with output := r.output.patch 0 r.header } := by
  simp only [writeHeader, Effect.run_bind, Effect.run_get]
  split
  · rfl
  · rfl

theorem reserve_eq (size : Nat) (r : Renderer) : reserve size r =
    if r.maxSize < size then .error .valueError r
    else .ok () { r with reserved := r.reserved + size, maxSize := r.maxSize - size } := by
  simp only [reserve, Effect.run_bind, Effect.run_get]
  split
  · rfl
  · rfl

theorem header_length (r : Renderer) : r.header.length = 12 := rfl

theorem laid_step (laid : Laid id flags maxSize origin past r) {l : Op × Option RenderError}
    (stepped : guarded (byOutput step) Renderable r l r') : Laid id flags maxSize origin (l :: past) r' := by
  obtain ⟨allowed, moved⟩ := stepped
  obtain ⟨op, outcome⟩ := l
  simp only [byOutput, step] at moved
  have ours := laid.fields.2.2.1
  cases op with
  | question qname rdtype rdclass =>
    rcases place_cases (writeQuestion_renders r.origin qname rdtype rdclass) laid.headed .question (fun _ => 1)
      (rfl : _ = perform (.question qname rdtype rdclass) r) with
      ⟨e, t, same⟩ | ⟨e, c, order, same⟩ | ⟨order, a, o, done, small, same⟩
    · rw [same] at moved
      cases moved
      exact allowed.elim
    · rw [same] at moved
      cases moved
      exact laid.raised _ e order
    · rw [same] at moved
      cases moved
      rw [ours] at done
      exact laid.question order done small
  | rdataset s owner rds l =>
    obtain ⟨kind, some, kept⟩ : s ≠ .question ∧ rds.rdatas ≠ [] ∧ LaidOut rds.rdclass rds.rdtype := by
      cases outcome with
      | none => exact allowed
      | some e => cases e <;> first | exact allowed.elim | exact allowed
    rcases place_cases (writeRdataset_renders r.origin owner l some) laid.headed s (fun n => n)
      (rfl : _ = perform (.rdataset s owner rds l) r) with
      ⟨e, t, same⟩ | ⟨e, c, order, same⟩ | ⟨order, n, o, done, small, same⟩
    · rw [same] at moved
      cases moved
      exact allowed.elim
    · rw [same] at moved
      cases moved
      exact laid.raised _ e order
    · rw [same] at moved
      cases moved
      rw [ours] at done
      exact laid.rdataset kind order some kept done small
  | header =>
    rw [show perform .header r = writeHeader r from rfl, writeHeader_eq] at moved
    split at moved
    case h_1 written =>
      split_ifs at written
      cases written
      cases moved
      exact laid.header r.header (header_length r)
    case h_2 raised =>
      split_ifs at raised
      cases raised
      cases moved
      exact laid.raised _ _ (Nat.le_refl r.current.number)
  | reserve size =>
    rw [show perform (.reserve size) r = reserve size r from rfl, reserve_eq] at moved
    split at moved
    case h_1 written =>
      split_ifs at written with large
      cases written
      cases moved
      exact laid.resize _ _ (by have := laid.fields.2.2.2; omega) _ (.inr ⟨size, rfl⟩)
    case h_2 raised =>
      split_ifs at raised
      cases raised
      cases moved
      exact laid.raised _ _ (Nat.le_refl r.current.number)
  | release =>
    cases moved
    exact laid.resize _ 0 laid.fields.2.2.2 _ (.inl rfl)

theorem laid_run (run : Run (guarded (byOutput step) Renderable) (init id flags maxSize origin) past r) :
    Laid id flags maxSize origin past r :=
  run.record laid_init fun laid stepped => laid_step laid stepped

theorem RecordsAt.split (here : RecordsAt wire start (rs ++ rs') stop) :
    ∃ middle, RecordsAt wire start rs middle ∧ RecordsAt wire middle rs' stop := by
  induction rs generalizing start with
  | nil => exact ⟨start, .nil, here⟩
  | cons r rs ih =>
    cases here with
    | cons first rest =>
      obtain ⟨middle, before, after⟩ := ih rest
      exact ⟨middle, .cons first before, after⟩

theorem forall₂_split {R : A → B → Prop} {xs ys : List A} {zs : List B} (all : List.Forall₂ R (xs ++ ys) zs) :
    ∃ as bs, zs = as ++ bs ∧ List.Forall₂ R xs as ∧ List.Forall₂ R ys bs :=
  ⟨_, _, (List.take_append_drop xs.length zs).symm, (List.forall₂_take_append zs xs ys all.flip).flip,
    (List.forall₂_drop_append zs xs ys all.flip).flip⟩

theorem Record.Same.clamped (same : Record.Same origin record record') :
    Record.Same origin record.clamped record'.clamped := by
  obtain ⟨name, ⟨rdtype, rdclass, ttl⟩, values, tail⟩ := same
  refine ⟨name, ⟨rdtype, rdclass, ?_⟩, values, tail⟩
  simp only [Record.clamped, rdtype, ttl]

theorem ordinary_same {found : List Record} (all : List.Forall₂ (Record.Same origin) rs found)
    (ordinary : ∀ record ∈ rs, Ordinary record.rdtype) : ∀ record ∈ found, Ordinary record.rdtype := by
  induction all with
  | nil => simp
  | cons same _ ih =>
    obtain ⟨first, rest⟩ := List.forall_mem_cons.mp ordinary
    exact List.forall_mem_cons.mpr ⟨same.fixed.1 ▸ first, ih rest⟩

/-- What the reader finds in the header. -/
theorem header_fields (r : Renderer) (small : ∀ s, r.counts s < 65536) :
    let number (i : Nat) := Socks.unpackPort ((r.header.drop (2 * i)).take 2)
    number 0 = r.id ∧ number 1 = r.flags ∧ (number 2).toNat = r.counts .question ∧
      (number 3).toNat = r.counts .answer ∧ (number 4).toNat = r.counts .authority ∧
      (number 5).toNat = r.counts .additional := by
  have value (s : Section) : (r.counts s).toUInt16.toNat = r.counts s := by
    have := small s
    simp only [Nat.toUInt16_eq, UInt16.toNat_ofNat']
    omega
  simp only [header, packShort_packPort (small _)]
  refine ⟨Socks.unpackPort_packPort r.id, Socks.unpackPort_packPort r.flags, ?_, ?_, ?_, ?_⟩
  all_goals exact (congrArg UInt16.toNat (Socks.unpackPort_packPort _)).trans (value _)

theorem header_done (done : r.step .header = some (none, r')) :
    (∀ s, r.counts s < 65536) ∧ r' = { r with output := r.output.patch 0 r.header } := by
  rw [step, show perform .header r = writeHeader r from rfl, writeHeader_eq] at done
  split at done
  case h_1 written =>
    split_ifs at written with large
    cases written
    cases done
    refine ⟨fun s => ?_, rfl⟩
    by_contra many
    exact large ⟨s, by cases s <;> decide, Nat.le_of_not_lt many⟩
  case h_2 => cases done

/-- What has been laid out is read back. -/
theorem Laid.read (laid : Laid id flags maxSize origin past r) (done : r.step .header = some (none, r')) :
    r'.output.file.length ≤ max 12 maxSize ∧ ∃ m, readMessage r'.output.file = .ok m ∧
      m.id = id ∧ m.flags = flags ∧
      List.Forall₂ (Question.Same origin) past.questions m.question ∧
      List.Forall₂ (fun written read => Record.Same origin written.clamped read) (past.records .answer) m.answer ∧
      List.Forall₂ (fun written read => Record.Same origin written.clamped read) (past.records .authority) m.authority ∧
      List.Forall₂ (fun written read => Record.Same origin written.clamped read) (past.records .additional)
        m.additional := by
  obtain ⟨small, rfl⟩ := header_done done
  have twelve := header_length r
  rw [Output.patch_header _ _ twelve]
  obtain ⟨same, ours, _, _⟩ := laid.fields
  obtain ⟨f0, f1, f2, f3, f4, f5⟩ := header_fields r small
  obtain ⟨qs, middle, rs, asked, answered, sameQs, sameRs⟩ := laid.content r.header twelve []
  rw [List.append_nil] at asked answered
  obtain ⟨rs', additional, rfl, sameRs', sameAdditional⟩ := forall₂_split sameRs
  obtain ⟨answer, authority, rfl, sameAnswer, sameAuthority⟩ := forall₂_split sameRs'
  obtain ⟨_, before, atAdditional⟩ := answered.split
  obtain ⟨_, atAnswer, atAuthority⟩ := before.split
  have size : (r.header ++ r.output.file.drop 12).length = r.output.file.length := by
    have := laid.headed.size
    rw [List.length_append, List.length_drop, twelve]
    omega
  have ordinary (s : Section) := laid.ordinary s
  have q := readQuestions_upTo asked (atAnswer.le.trans (atAuthority.le.trans atAdditional.le))
  have a := readRecords_upTo atAnswer (atAuthority.le.trans atAdditional.le) (ordinary_same sameAnswer (ordinary _)) .answer
  have b := readRecords_upTo atAuthority atAdditional.le (ordinary_same sameAuthority (ordinary _)) .authority
  have c := readRecords_upTo atAdditional (Nat.le_refl _) (ordinary_same sameAdditional (ordinary _)) .additional
  rw [← sameQs.length_eq, ← laid.questions, ← f2, ← size] at q
  rw [← sameAnswer.length_eq, ← laid.records _ (by decide), ← f3, ← size] at a
  rw [← sameAuthority.length_eq, ← laid.records _ (by decide), ← f4, ← size] at b
  rw [← sameAdditional.length_eq, ← laid.records _ (by decide), ← f5, ← size] at c
  have enough := laid.headed.size
  generalize message : r.header ++ r.output.file.drop 12 = wire at *
  have header : (Parser.upTo wire wire.length 0).getBytes 12 = .ok (r.header, Parser.upTo wire wire.length (0 + 12)) := by
    refine getBytes_upTo ?_ twelve (by omega)
    rw [List.drop_zero, ← message]
    exact List.prefix_append _ _
  have long : ¬ (Parser.upTo wire wire.length 0).remaining < 12 := by
    simp only [Parser.remaining, Parser.upTo]
    omega
  have done : ¬ (Parser.upTo wire wire.length wire.length).remaining ≠ 0 := by
    simp [Parser.remaining, Parser.upTo]
  refine ⟨size ▸ laid.bounded, ⟨id, flags, qs, answer.map Record.clamped, authority.map Record.clamped,
    additional.map Record.clamped⟩, ?_, rfl, rfl, sameQs, ?_, ?_, ?_⟩
  · have opened : (⟨wire, wire.length, 0, 0⟩ : Parser) = Parser.upTo wire wire.length 0 := rfl
    rw [readMessage, opened]
    simp only [bind, Except.bind, pure, Except.pure, if_neg long, header, Except.mapError, q, a, b, c, if_neg done,
      f0, f1, same, ours]
  · exact List.forall₂_map_right_iff.mpr (sameAnswer.imp fun _ _ => Record.Same.clamped)
  · exact List.forall₂_map_right_iff.mpr (sameAuthority.imp fun _ _ => Record.Same.clamped)
  · exact List.forall₂_map_right_iff.mpr (sameAdditional.imp fun _ _ => Record.Same.clamped)

end HttpSocksProxy.Dns
