import HttpSocksProxy.Stable.Interfaces

/-! The registry after any history of refreshes. What it says of one interface
depends on the reports of that interface only, and the grace period of a
missing interface is read off them. Histories have the newest refresh first. -/
namespace HttpSocksProxy.Interfaces

structure Refresh where
  scans : List Scan
  now : ℚ

def Refresh.completes (r : Refresh) : Bool := (scanFailure r.scans).isNone

/-- A refresh that raises changes nothing. -/
def refreshed (config : Config) (records : Records) (r : Refresh) : Records :=
  match refresh config records r.scans r.now with
  | .ok records => records
  | .error _ => records

def recordsAfter (config : Config) : List Refresh → Records
  | [] => .empty
  | r :: past => refreshed config (recordsAfter config past) r

/-- Times at which an interface was looked for, with what was seen. -/
abbrev Reports := List (ℚ × Option Sighting)

def Refresh.report (name : Str) (r : Refresh) : ℚ × Option Sighting :=
  (r.now, (mergeScans r.scans).get? name)

def reports (name : Str) (history : List Refresh) : Reports :=
  (history.filter Refresh.completes).map (Refresh.report name)

def recordFrom (config : Config) : Reports → Option Record
  | [] => none
  | (now, some s) :: _ => some (s.seen now)
  | (now, none) :: past => (recordFrom config past).bind (Record.missed config now)

theorem get?_refreshed (config : Config) (records : Records) (r : Refresh) (name : Str) :
    (refreshed config records r).get? name =
      if r.completes then
        match (mergeScans r.scans).get? name with
        | some s => some (s.seen r.now)
        | none => (records.get? name).bind (Record.missed config r.now)
      else records.get? name := by
  unfold refreshed refresh Refresh.completes
  cases scanFailure r.scans with
  | some e => rfl
  | none => exact get?_commit ..

theorem get?_recordsAfter (config : Config) (history : List Refresh) (name : Str) :
    (recordsAfter config history).get? name = recordFrom config (reports name history) := by
  induction history with
  | nil => rfl
  | cons r past ih =>
    rw [recordsAfter, get?_refreshed, ih]
    simp only [reports]
    rw [List.filter_cons]
    split
    case isTrue =>
      rw [List.map_cons, Refresh.report]
      cases (mergeScans r.scans).get? name <;> rfl
    case isFalse => rfl

/-- The times of the newest looks that missed the interface. -/
def absences : Reports → List ℚ
  | (now, none) :: past => now :: absences past
  | (_, some _) :: _ | [] => []

def lastReport : Reports → Option (ℚ × Sighting)
  | (now, some s) :: _ => some (now, s)
  | (_, none) :: past => lastReport past
  | [] => none

def aged (config : Config) (last : ℚ) (s : Sighting) (absent : List ℚ) : Record where
  toSighting := s
  available := match absent.head?, absent.getLast? with
    | some newest, some first => !(config.scans ≤ absent.length && config.grace ≤ newest - first)
    | _, _ => true
  missCount := absent.length
  firstMissingAt := absent.getLast?
  lastSeen := last

theorem missed_aged (config : Config) (last now : ℚ) (s : Sighting) (absent : List ℚ) :
    (aged config last s absent).missed config now =
      if now - last ≤ config.ttl then some (aged config last s (now :: absent)) else none := by
  have seen : (aged config last s absent).lastSeen = last := rfl
  simp only [Record.missed]
  rw [seen]
  by_cases late : now - last ≤ config.ttl
  · rw [if_pos late, if_neg (not_lt.mpr late)]
    simp only [aged, List.length_cons, List.head?_cons, List.getLast?_cons]
    rfl
  · rw [if_neg late, if_pos (not_le.mp late)]

/-- A record outlives its absences while none of them comes later than the
cache keeps it, and then says how many there were and since when. -/
theorem recordFrom_eq (config : Config) (looks : Reports) :
    recordFrom config looks = (lastReport looks).bind fun (last, s) =>
      if ∀ t ∈ absences looks, t - last ≤ config.ttl then some (aged config last s (absences looks))
      else none := by
  induction looks with
  | nil => rfl
  | cons look past ih =>
    obtain ⟨now, seen⟩ := look
    cases seen with
    | some s => simp [recordFrom, lastReport, absences, aged, Sighting.seen]
    | none =>
      rw [recordFrom, ih, lastReport, absences]
      cases lastReport past with
      | none => rfl
      | some report =>
        obtain ⟨last, s⟩ := report
        simp only [Option.bind_some, List.forall_mem_cons]
        by_cases kept : ∀ t ∈ absences past, t - last ≤ config.ttl
        · rw [if_pos kept, Option.bind_some, missed_aged]
          simp only [and_iff_left kept]
        · rw [if_neg kept, if_neg fun all => kept all.2]
          rfl

/-- Missing from as many consecutive refreshes, and for as long, as the
registry asks for. -/
def LongAbsent (config : Config) (looks : Reports) : Prop :=
  config.scans ≤ (absences looks).length ∧ ∃ newest first, (absences looks).head? = some newest ∧
    (absences looks).getLast? = some first ∧ config.grace ≤ newest - first

theorem aged_available_iff {config : Config} {last : ℚ} {s : Sighting} {looks : Reports} :
    (aged config last s (absences looks)).available = true ↔ ¬ LongAbsent config looks := by
  simp only [aged, LongAbsent]
  have positive : 0 < config.scans := by
    simp only [Config.scans]
    omega
  cases absences looks with
  | nil => simp [positive.ne']
  | cons newest rest =>
    simp only [List.head?_cons, List.getLast?_cons, Option.some.injEq, exists_and_left, exists_eq_left',
      Bool.not_eq_true', Bool.and_eq_false_iff, decide_eq_false_iff_not, not_and_or]

/-- Some refresh recorded the interface, and it has been missing from fewer
refreshes than `missing_scans`, or for less time than `missing_grace`. -/
def InGrace (config : Config) (now : ℚ) (looks : Reports) : Prop :=
  (∃ look ∈ looks, look.2.isSome) ∧ ((absences looks).length < config.scans ∨
    ∃ first, (absences looks).getLast? = some first ∧ now - first < config.grace)

def GraceKept (config : Config) (now : ℚ) (history : List Refresh) : Prop :=
  ∀ name, InGrace config now (reports name history) →
    ∃ record, (name, record) ∈ listed (recordsAfter config history) ∧ record.available = true

/-- The refreshes that miss an interface in its grace period come at most
`cache_ttl` after the last one that reported it. -/
def CacheOutlivesGrace (config : Config) (now : ℚ) (history : List Refresh) : Prop :=
  ∀ name, InGrace config now (reports name history) →
    ∀ last s, lastReport (reports name history) = some (last, s) →
      ∀ t ∈ absences (reports name history), t - last ≤ config.ttl

theorem lastReport_isSome {looks : Reports} :
    (∃ look ∈ looks, look.2.isSome) ↔ ∃ last s, lastReport looks = some (last, s) := by
  induction looks with
  | nil => simp [lastReport]
  | cons look past ih =>
    obtain ⟨now, seen⟩ := look
    cases seen with
    | some s => simp [lastReport]
    | none => simpa [lastReport] using ih

/-- An absence is no later than the newest refresh. -/
theorem absences_before {looks : Reports} (before : ∀ look ∈ looks, look.1 ≤ now) :
    ∀ t ∈ absences looks, t ≤ now := by
  induction looks with
  | nil => simp [absences]
  | cons look past ih =>
    obtain ⟨time, seen⟩ := look
    cases seen with
    | some s => simp [absences]
    | none =>
      obtain ⟨first, rest⟩ := List.forall_mem_cons.mp before
      exact List.forall_mem_cons.mpr ⟨first, ih rest⟩

theorem InGrace.not_longAbsent {looks : Reports} (grace : InGrace config now looks)
    (before : ∀ look ∈ looks, look.1 ≤ now) : ¬ LongAbsent config looks := by
  rintro ⟨many, newest, first, starts, ends, long⟩
  rcases grace.2 with few | ⟨found, here, short⟩
  · omega
  · cases Option.some.inj (here.symm.trans ends)
    have recent := absences_before before newest (List.mem_of_mem_head? starts)
    linarith

/-- After any refreshes at nondecreasing times, the interfaces in their grace
period are all listed as available just when no refresh that missed one of
them came later than its record is cached. -/
theorem grace_kept_iff (config : Config) {history : List Refresh}
    (ordered : ∀ r ∈ history, r.now ≤ now) :
    GraceKept config now history ↔ CacheOutlivesGrace config now history := by
  have before (name : Str) : ∀ look ∈ reports name history, look.1 ≤ now := by
    intro look member
    obtain ⟨r, kept, rfl⟩ := List.mem_map.mp member
    exact ordered r (List.mem_filter.mp kept).1
  apply forall_congr'
  intro name
  apply forall_congr'
  intro grace
  obtain ⟨last, s, reported⟩ := lastReport_isSome.mp grace.1
  simp only [mem_listed, get?_recordsAfter, recordFrom_eq, reported, Option.bind_some,
    Option.some.injEq, Prod.mk.injEq]
  constructor
  · rintro ⟨record, found, _⟩ _ _ ⟨rfl, rfl⟩
    by_contra late
    rw [if_neg late] at found
    contradiction
  · intro timely
    rw [if_pos (timely last s ⟨rfl, rfl⟩)]
    exact ⟨_, rfl, aged_available_iff.mpr (grace.not_longAbsent (before name))⟩

theorem lastReport_mem {looks : Reports} (reported : lastReport looks = some (last, s)) :
    (last, some s) ∈ looks := by
  induction looks with
  | nil => contradiction
  | cons look past ih =>
    obtain ⟨now, seen⟩ := look
    cases seen with
    | some s =>
      cases Option.some.inj reported
      exact List.mem_cons_self
    | none => exact List.mem_cons_of_mem _ (ih reported)

def en0 : Entry := ⟨"en0".toList, some ⟨.inet, "192.168.1.2".toList⟩⟩

/-- One missed refresh soon after a report. -/
theorem grace_kept_briefly : GraceKept {} 5 [⟨[.ok []], 5⟩, ⟨[.ok [en0]], 0⟩] := by
  apply (grace_kept_iff {} (by simp)).mpr
  intro name _ last s reported t absent
  have times : ∀ look ∈ reports name [⟨[.ok []], 5⟩, ⟨[.ok [en0]], 0⟩], 0 ≤ look.1 ∧ look.1 ≤ 5 := by
    intro look member
    obtain ⟨r, kept, rfl⟩ := List.mem_map.mp member
    rcases List.mem_cons.mp (List.mem_filter.mp kept).1 with rfl | old
    · simp [Refresh.report]
    · rw [List.mem_singleton.mp old]
      simp [Refresh.report]
  have recent := absences_before (fun look member => (times look member).2) t absent
  have since := (times _ (lastReport_mem reported)).1
  have long : (5 : ℚ) ≤ Config.ttl {} := by decide
  linarith

/-- A pause longer than the cache keeps a record, with the interface missing
from the first refresh after it. -/
def pause : List Refresh := [⟨[.ok []], 200⟩, ⟨[.ok [en0]], 0⟩]

theorem reports_of_pause : reports en0.name pause =
    [(200, none), (0, some ⟨.localLink, some "192.168.1.2".toList, none⟩)] := by
  decide +kernel

/-- The record is gone at the first missed refresh. -/
theorem grace_cut_by_pause : ¬ GraceKept {} 200 pause := by
  intro kept
  have grace : InGrace {} 200 (reports en0.name pause) := by
    rw [reports_of_pause]
    exact ⟨⟨_, List.mem_cons_of_mem _ List.mem_cons_self, rfl⟩, .inl (by decide)⟩
  obtain ⟨record, member, _⟩ := kept en0.name grace
  have gone : recordFrom {} [(200, none), (0, some ⟨.localLink, some "192.168.1.2".toList, none⟩)] =
      none := by
    decide +kernel
  rw [mem_listed, get?_recordsAfter, reports_of_pause, gone] at member
  contradiction

end HttpSocksProxy.Interfaces
