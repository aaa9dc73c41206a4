import HttpSocksProxy.Foundation.RankedChoice
import HttpSocksProxy.Stable.Interfaces

/-! The outbound interface that `resolve` picks for `Auto`: which candidates it
probes, and what it falls back on. -/
namespace HttpSocksProxy.Interfaces
open RankedChoice

def kindOf (item : Str × Record) : Kind := item.2.kind

/-- The kinds that `classify_interface` can give. -/
def Kind.all : List Kind := [bridge, cellular, tunnel, localLink, other]

theorem Kind.mem_all (k : Kind) : k ∈ all := by cases k <;> decide

/-- What may carry outbound traffic, in registry order. -/
def candidates (records : Records) : List (Str × Record) := records.entries.filter candidate

/-- The candidates by score. -/
def ranked (preferVpn : Bool) (records : Records) : List (Str × Record) :=
  rank kindOf (score .outbound preferVpn) (candidates records)

/-- The candidates that are probed in turn when the current one does not pass:
the best of each kind by score, then the rest by score, cut at five. -/
def tried (preferVpn : Bool) (records : Records) : List (Str × Record) :=
  (order kindOf (ranked preferVpn records)).take 5

theorem candidates_nodup (records : Records) : (candidates records).Nodup :=
  (List.Nodup.of_map _ records.keyed).filter _

theorem ranked_nodup (preferVpn : Bool) (records : Records) : (ranked preferVpn records).Nodup :=
  rank_nodup (candidates_nodup records)

theorem mem_tried (member : item ∈ tried preferVpn records) : item ∈ candidates records :=
  mem_rank.mp (mem_order.mp (List.mem_of_mem_take member))

/-- A name stands for one candidate. -/
theorem candidate_unique {records : Records} (first : a ∈ candidates records)
    (second : b ∈ candidates records) (same : a.1 = b.1) : a = b := by
  obtain ⟨name, r⟩ := a
  obtain ⟨name', r'⟩ := b
  obtain rfl : name = name' := same
  have first := OrderedDict.get?_eq_some.mpr (List.mem_filter.mp first).1
  have second := OrderedDict.get?_eq_some.mpr (List.mem_filter.mp second).1
  rw [Option.some.inj (first.symm.trans second)]

/-- The first part is what leads its kind among the items, kinds seen before
apart, and the second part is the rest. -/
theorem byKind_eq {items : List (Str × Record)} (distinct : items.Nodup) (seen : List Kind) :
    byKind seen items = (items.filter fun a => kindOf a ∉ seen && leads kindOf items a,
      items.filter fun a => !(kindOf a ∉ seen && leads kindOf items a)) := by
  induction items generalizing seen with
  | nil => rfl
  | cons item rest ih =>
    obtain ⟨absent, distinct⟩ := List.nodup_cons.mp distinct
    -- a later item leads just when its kind is another one and it leads the rest
    have later : ∀ a ∈ rest, leads kindOf (item :: rest) a =
        (kindOf a ≠ kindOf item && leads kindOf rest a) := by
      intro a member
      have other : item ≠ a := fun same => absent (same ▸ member)
      by_cases same : kindOf item = kindOf a
      · simp [leads, same, other]
      · simp [leads, same, Ne.symm same]
    have first : leads kindOf (item :: rest) item = true := by simp [leads]
    rw [byKind]
    split
    case isTrue known =>
      have known : kindOf item ∈ seen := known
      have same : ∀ a ∈ rest, (kindOf a ∉ seen && leads kindOf (item :: rest) a) =
          (kindOf a ∉ seen && leads kindOf rest a) := by
        intro a member
        rw [later a member]
        by_cases other : kindOf a = kindOf item
        · simp [other, known]
        · simp [other]
      rw [ih distinct seen]
      simp only [List.filter_cons, known, not_true_eq_false, decide_false, Bool.false_and,
        Bool.false_eq_true, if_false, Bool.not_false, if_true]
      rw [List.filter_congr same, List.filter_congr fun a member => congrArg _ (same a member)]
    case isFalse fresh =>
      have fresh : kindOf item ∉ seen := fresh
      have same : ∀ a ∈ rest, (kindOf a ∉ seen && leads kindOf (item :: rest) a) =
          (kindOf a ∉ item.2.kind :: seen && leads kindOf rest a) := by
        intro a member
        rw [later a member, show item.2.kind = kindOf item from rfl]
        by_cases other : kindOf a = kindOf item
        · simp [other]
        · simp [other]
      rw [ih distinct]
      simp only [List.filter_cons, fresh, not_false_eq_true, decide_true, first, Bool.and_self, if_true,
        Bool.not_true, Bool.false_eq_true, if_false]
      rw [List.filter_congr same, List.filter_congr fun a member => congrArg _ (same a member)]

theorem byKind_tried (preferVpn : Bool) (records : Records) :
    ((byKind [] (ranked preferVpn records)).1 ++ (byKind [] (ranked preferVpn records)).2).take 5 =
      tried preferVpn records := by
  rw [byKind_eq (ranked_nodup preferVpn records), tried, order]
  simp

/-- `resolve` of `Auto` for outbound traffic: the current candidate if it
passes, else the first that passes among those tried, else the best one. -/
theorem resolve_auto (records : Records) (probe : Str → Bool) (currentName : Option Str)
    (preferVpn : Bool) : resolve records probe auto .outbound currentName preferVpn =
      match (((candidates records).find? fun item => some item.1 = currentName).filter (probed probe)).or
          (((tried preferVpn records).find? (probed probe)).or (ranked preferVpn records).head?) with
      | some item => .ok (resolved auto item)
      | none => .error "No usable IPv4 interfaces are available".toList := by
  rw [← byKind_tried]
  simp only [resolve, if_true, resolveAuto, reduceCtorEq, decide_false, Bool.false_or]
  rfl

/-- What `resolve` of `Auto` returns where it returns something. -/
theorem resolve_auto_ok {records : Records} :
    resolve records probe auto .outbound currentName preferVpn = .ok r ↔ ∃ item,
      (((candidates records).find? fun item => some item.1 = currentName).filter (probed probe)).or
        (((tried preferVpn records).find? (probed probe)).or (ranked preferVpn records).head?) = some item ∧
      r = resolved auto item := by
  rw [resolve_auto]
  split
  case h_1 item found =>
    simp only [found, Except.ok.injEq, Option.some.injEq, exists_eq_left']
    exact eq_comm
  case h_2 none_found => simp [none_found]

/-- The current candidate is found by its name. -/
theorem find_current {records : Records} (here : current ∈ candidates records) :
    (candidates records).find? (fun item => some item.1 = some current.1) = some current := by
  have found : ((candidates records).find? fun item => some item.1 = some current.1).isSome := by
    rw [List.find?_isSome]
    exact ⟨current, here, by simp⟩
  obtain ⟨item, found⟩ := Option.isSome_iff_exists.mp found
  have same : item.1 = current.1 := by simpa using List.find?_some found
  rw [found, candidate_unique (List.mem_of_find?_eq_some found) here same]

theorem head_mem_tried {records : Records} (first : (ranked preferVpn records).head? = some item) :
    item ∈ tried preferVpn records := by
  obtain ⟨rest, sorted⟩ := List.head?_eq_some_iff.mp first
  simp [tried, order, sorted, leads]

/-- With a candidate in use, `Auto` moves to another interface only if that
one passed the probe, exactly when the current one passes, or one of those
tried does, or the current one is the best by score. -/
theorem auto_steady_iff {records : Records} (probe : Str → Bool) (preferVpn : Bool)
    (here : current ∈ candidates records) :
    (∀ r, resolve records probe auto .outbound (some current.1) preferVpn = .ok r → r.name ≠ current.1 →
        ∃ item ∈ candidates records, item.1 = r.name ∧ probed probe item = true) ↔
      probed probe current = true ∨ (∃ item ∈ tried preferVpn records, probed probe item = true) ∨
        (ranked preferVpn records).head? = some current := by
  simp only [resolve_auto_ok, find_current here]
  cases healthy : probed probe current with
  | true => simp [Option.filter_some, healthy, resolved]
  | false =>
    simp only [Option.filter_some, healthy, Bool.false_eq_true, if_false, Option.none_or, false_or]
    cases chosen : (tried preferVpn records).find? (probed probe) with
    | some item =>
      have member := List.mem_of_find?_eq_some chosen
      have passes := List.find?_some chosen
      refine iff_of_true ?_ (.inl ⟨item, member, passes⟩)
      rintro r ⟨_, ⟨⟩, rfl⟩ _
      exact ⟨item, mem_tried member, rfl, passes⟩
    | none =>
      have none_passes := List.find?_eq_none.mp chosen
      have no_tried : ¬ ∃ item ∈ tried preferVpn records, probed probe item = true :=
        fun ⟨item, member, passes⟩ => none_passes item member passes
      simp only [Option.none_or, no_tried, false_or]
      constructor
      · intro steady
        obtain ⟨best, first⟩ : ∃ best, (ranked preferVpn records).head? = some best := by
          rw [← Option.isSome_iff_exists, List.isSome_head?]
          exact List.ne_nil_of_mem (mem_rank.mpr here)
        have member := head_mem_tried first
        by_cases same : best.1 = current.1
        · rw [first, candidate_unique (mem_tried member) here same]
        · obtain ⟨item, there, named, passes⟩ := steady (resolved auto best) ⟨best, first, rfl⟩ same
          obtain rfl := candidate_unique there (mem_tried member) named
          exact absurd passes (none_passes item member)
      · rintro first r ⟨item, found, rfl⟩ other
        obtain rfl := Option.some.inj (found.symm.trans first)
        exact absurd rfl other

/-- A tunnel and the cellular interface. -/
def twoRoutes : Records where
  entries := [("utun0".toList, { kind := .tunnel, ipv4 := some "10.8.0.2".toList, lastSeen := 0 }),
    ("pdp_ip0".toList, { kind := .cellular, ipv4 := some "10.0.0.2".toList, lastSeen := 0 })]
  keyed := by decide

def cellular : Str × Record :=
  ("pdp_ip0".toList, { kind := .cellular, ipv4 := some "10.0.0.2".toList, lastSeen := 0 })

theorem ranked_twoRoutes : ranked true twoRoutes = twoRoutes.entries :=
  List.mergeSort_of_pairwise (by decide)

theorem cellular_candidate : cellular ∈ candidates twoRoutes := List.mem_filter.mpr ⟨by decide, rfl⟩

/-- The interface in use passes the probe and stays. -/
theorem cellular_kept : ∃ r,
    resolve twoRoutes (· = "10.0.0.2".toList) auto .outbound (some cellular.1) true = .ok r ∧
      (r.name ≠ cellular.1 → ∃ item ∈ candidates twoRoutes, item.1 = r.name ∧
        probed (· = "10.0.0.2".toList) item = true) := by
  have chosen : resolve twoRoutes (· = "10.0.0.2".toList) auto .outbound (some cellular.1) true =
      .ok (resolved auto cellular) := by
    rw [resolve_auto, find_current cellular_candidate]
    rfl
  exact ⟨_, chosen, (auto_steady_iff _ true cellular_candidate).mpr (.inl rfl) _ chosen⟩

/-- No probe passes, and `Auto` leaves the interface in use for another one
that failed the same probe. -/
theorem outage_moves_auto : cellular ∈ candidates twoRoutes ∧ ∃ r,
    resolve twoRoutes (fun _ => false) auto .outbound (some cellular.1) true = .ok r ∧
      r.name ≠ cellular.1 ∧
      ¬ ∃ item ∈ candidates twoRoutes, item.1 = r.name ∧ probed (fun _ => false) item = true := by
  refine ⟨cellular_candidate, resolved auto (twoRoutes.entries.head (by decide)), ?_, by decide, ?_⟩
  · rw [resolve_auto, tried, ranked_twoRoutes]
    rfl
  · rintro ⟨item, _, _, passes⟩
    simp [probed] at passes

/-- When the best candidate of some kind passes the probe, `Auto` resolves to
one that passes, and unless the current one does, to the first that passes of
those tried. -/
theorem no_kind_crowded_out (records : Records) (probe : Str → Bool) (currentName : Option Str)
    (preferVpn : Bool) :
    ((∃ item, HighestRanked kindOf (score .outbound preferVpn) (candidates records) item ∧
        probed probe item = true) →
      ∃ item ∈ candidates records, probed probe item = true ∧
        resolve records probe auto .outbound currentName preferVpn = .ok (resolved auto item)) ∧
    ((∀ current ∈ candidates records, some current.1 = currentName → probed probe current = false) →
      ∀ item, (tried preferVpn records).find? (probed probe) = some item →
        resolve records probe auto .outbound currentName preferVpn = .ok (resolved auto item)) := by
  have moves : (∀ current ∈ candidates records, some current.1 = currentName → probed probe current = false) →
      ∀ item, (tried preferVpn records).find? (probed probe) = some item →
        resolve records probe auto .outbound currentName preferVpn = .ok (resolved auto item) := by
    intro unhealthy item found
    rw [resolve_auto, found]
    cases here : (candidates records).find? fun item => some item.1 = currentName with
    | none => rfl
    | some current =>
      have named : some current.1 = currentName := by simpa using List.find?_some here
      have fails := unhealthy current (List.mem_of_find?_eq_some here) named
      simp [Option.filter_some, fails]
  refine ⟨?_, moves⟩
  rintro ⟨best, highest, passes⟩
  by_cases healthy : ∃ current ∈ candidates records, some current.1 = currentName ∧ probed probe current = true
  · obtain ⟨current, here, rfl, okay⟩ := healthy
    refine ⟨current, here, okay, ?_⟩
    rw [resolve_auto, find_current here]
    simp [Option.filter_some, okay]
  · have unhealthy : ∀ current ∈ candidates records, some current.1 = currentName →
        probed probe current = false := by
      intro current here named
      exact Bool.eq_false_iff.mpr fun okay => healthy ⟨current, here, named, okay⟩
    have member : best ∈ ranked preferVpn records := by
      obtain ⟨before, after, whole, _⟩ := highest
      rw [ranked, mem_rank, whole]
      simp
    have first : leads kindOf (ranked preferVpn records) best = true := by
      rw [ranked, leads_rank]
      exact highest.leads
    obtain ⟨item, found⟩ := leader_found (ranked_nodup preferVpn records)
      (fun item _ => Kind.mem_all (kindOf item)) (show Kind.all.length ≤ 5 from le_rfl) member first passes
    exact ⟨item, mem_tried (List.mem_of_find?_eq_some found), List.find?_some found,
      moves unhealthy item found⟩

theorem cellular_chosen : ∃ item ∈ candidates twoRoutes, probed (· = "10.0.0.2".toList) item = true ∧
    resolve twoRoutes (· = "10.0.0.2".toList) auto .outbound none true = .ok (resolved auto item) := by
  apply (no_kind_crowded_out twoRoutes (· = "10.0.0.2".toList) none true).1
  refine ⟨cellular, ⟨[twoRoutes.entries.head (by decide)], [], by decide, ?_, by simp⟩, rfl⟩
  decide

end HttpSocksProxy.Interfaces
