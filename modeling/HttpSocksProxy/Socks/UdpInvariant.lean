import HttpSocksProxy.Socks.Udp

/-! The invariant of a `UdpForwarder` over its runs. -/
namespace HttpSocksProxy.Udp
open InetText AgingTable

/-- A waiting call remembers what its client's datagram asked for. -/
def Asked (hosts : ConnectHosts) (past : List Label) (call : Pending) : Prop :=
  ∃ request, Heard past call.client request ∧ request.payload = call.payload ∧
    request.address = call.address ∧ resolveNow hosts request.kind request.address = none

/-- The lock, the table with its bound, owners and times, and the waiting calls. -/
structure Inv (cfg : Config) (past : List Label) (last : Key → Option ℚ) (s : State) : Prop where
  keyed : Keyed s.connections
  bounded : s.connections.length ≤ cfg.maxMappings
  ordered : ∀ m ∈ s.connections, m.seen ≤ s.now
  tracks : Tracks cfg.mappingTtl s.now s.connections last
  owned : ∀ m ∈ s.connections, s.lockedClient = some m.value
  addressed : ∀ m ∈ s.connections, Addressed cfg.connectHosts past m.value m.key
  expected : ∀ client, s.lockedClient = some client → expects cfg client = true
  waiting : ∀ call ∈ s.pending, s.lockedClient = some call.client ∧ Asked cfg.connectHosts past call
  attached : ∀ f, s.serverConn f = true → s.clientConn = true
  inhabited : ∀ m ∈ s.connections, s.clientConn = true

theorem inv_init (cfg : Config) (start : ℚ) : Inv cfg [] (lastActivity []) (.init start) where
  keyed := List.nodup_nil
  bounded := Nat.zero_le _
  ordered := by simp [State.init]
  tracks := ⟨by simp [State.init], by simp [lastActivity]⟩
  owned := by simp [State.init]
  addressed := by simp [State.init]
  expected := by simp [State.init]
  waiting := by simp [State.init]
  attached := by rintro (_ | _) <;> simp [State.serverConn, State.init]
  inhabited := by simp [State.init]

namespace Inv
variable {cfg : Config} {past past' : List Label} {last : Key → Option ℚ} {s : State}
  (inv : Inv cfg past last s)
include inv

theorem mono (longer : past ⊆ past') : Inv cfg past' last s where
  __ := inv
  addressed m member := (inv.addressed m member).mono longer
  waiting call member := by
    obtain ⟨locked, request, heard, asked⟩ := inv.waiting call member
    exact ⟨locked, request, heard.mono longer, asked⟩

theorem expired : Inv cfg past last (expired cfg s) where
  __ := inv
  keyed := inv.keyed.sublist (expire_sublist _ _ _)
  bounded := (expire_sublist _ _ _).length_le.trans inv.bounded
  ordered m kept := inv.ordered m (mem_expire.mp kept).1
  tracks := inv.tracks.expire
  owned m kept := inv.owned m (mem_expire.mp kept).1
  addressed m kept := inv.addressed m (mem_expire.mp kept).1
  inhabited m kept := inv.inhabited m (mem_expire.mp kept).1

theorem enter (expected : expects cfg sender = true)
    (unlocked : s.lockedClient = none ∨ s.lockedClient = some sender) :
    Inv cfg past last (enter cfg s sender) := by
  have same {client : SocketAddress} (locked : s.lockedClient = some client) : some sender = some client := by
    rcases unlocked with none | same
    · simp [none] at locked
    · rw [← same, locked]
  have entered : Inv cfg past last { s with lockedClient := some sender } := {
    inv with
    owned := fun m member => same (inv.owned m member)
    expected := by
      rintro client ⟨⟩
      exact expected
    waiting := fun call member => ⟨same (inv.waiting call member).1, (inv.waiting call member).2⟩ }
  exact entered.expired

theorem prelude (moved : Prelude cfg s l.event u) : Inv cfg (l :: past) last u := by
  have kept := inv.mono (List.subset_cons_self l past)
  generalize event : l.event = e at moved
  cases moved with
  | openedClient => exact { kept with attached := fun _ _ => rfl, inhabited := fun _ _ => rfl }
  | @openedServer f there =>
    cases f <;> exact { kept with attached := fun _ _ => there }
  | refused => exact kept
  | admitted expected unlocked => exact kept.enter expected unlocked
  | @waiting sender data request expected unlocked parsed later =>
    have entered := kept.enter expected unlocked
    refine { entered with waiting := fun call member => ?_ }
    rcases List.mem_append.mp member with earlier | new
    · exact entered.waiting call earlier
    · rw [List.mem_singleton.mp new]
      exact ⟨rfl, request, ⟨l, by simp, data, event, parsed⟩, rfl, rfl, later⟩
  | taken => exact { kept with waiting := fun call member => kept.waiting call (List.mem_of_mem_eraseIdx member) }
  | dropped => exact { kept with waiting := fun call member => kept.waiting call (List.mem_of_mem_eraseIdx member) }
  | expired => exact kept.expired
  | passed forward =>
    have onward : s.now ≤ s.now + _ := le_add_of_nonneg_right forward
    exact {
      kept with
      ordered := fun m member => (kept.ordered m member).trans onward
      tracks := kept.tracks.later onward }

theorem assign (locked : s.lockedClient = some client)
    (known : Addressed cfg.connectHosts past client key) (there : s.clientConn = true) :
    Inv cfg past
      (forgotten (surplus cfg.maxMappings (stored cfg s key client)) (touched key s.now last))
      (assign cfg s key client) := by
  have origin {m : Mapping} (kept : m ∈ (Udp.assign cfg s key client).connections) :
      m = ⟨key, client, s.now⟩ ∨ m ∈ s.connections := by
    have member := (mem_expire.mp ((evict_sublist _ _).subset kept)).1
    exact (mem_store member).imp_right And.left
  have keyed := (inv.keyed.store ⟨key, client, s.now⟩).sublist
    (expire_sublist cfg.mappingTtl s.now _)
  exact {
    inv with
    keyed := keyed.sublist (evict_sublist _ _)
    bounded := length_evict keyed _
    ordered := fun m kept => by
      rcases origin kept with rfl | earlier
      · exact le_rfl
      · exact inv.ordered m earlier
    tracks := (inv.tracks.store ⟨key, client, s.now⟩).expire.evict _
    owned := fun m kept => by
      rcases origin kept with rfl | earlier
      · exact locked
      · exact inv.owned m earlier
    addressed := fun m kept => by
      rcases origin kept with rfl | earlier
      · exact known
      · exact inv.addressed m earlier
    inhabited := fun _ _ => there }

/-- A mapping survives the pruning that follows its assignment. -/
theorem assign_survives (key : Key) (client : SocketAddress) :
    ⟨key, client, s.now⟩ ∈ (Udp.assign cfg s key client).connections := by
  have fresh : s.now - s.now ≤ cfg.mappingTtl := by
    rw [sub_self]
    exact (by norm_num : (0 : ℚ) ≤ 5).trans cfg.patient
  exact prune_store_survives inv.ordered cfg.nonempty inv.bounded fresh

theorem refresh (member : m ∈ s.connections) :
    Inv cfg past (touched m.key s.now last)
      { s with connections := store s.connections { m with seen := s.now } } := by
  have present : m.key ∈ s.connections.map Entry.key := mem_keys member
  exact {
    inv with
    keyed := inv.keyed.store _
    bounded := by simpa [length_store, present] using inv.bounded
    ordered := fun old kept => by
      rcases mem_store kept with rfl | ⟨earlier, _⟩
      · exact le_rfl
      · exact inv.ordered old earlier
    tracks := inv.tracks.store _
    owned := fun old kept => by
      rcases mem_store kept with rfl | ⟨earlier, _⟩
      · exact inv.owned m member
      · exact inv.owned old earlier
    addressed := fun old kept => by
      rcases mem_store kept with rfl | ⟨earlier, _⟩
      · exact inv.addressed m member
      · exact inv.addressed old earlier
    inhabited := fun _ _ => inv.inhabited m member }

theorem close : Inv cfg past (fun _ => none) (closeAll s) where
  __ := inv
  keyed := List.nodup_nil
  bounded := Nat.zero_le _
  ordered := by simp [closeAll]
  tracks := ⟨by simp [closeAll], by simp⟩
  owned := by simp [closeAll]
  addressed := by simp [closeAll]
  attached := by rintro (_ | _) <;> simp [State.serverConn, closeAll]
  inhabited := by simp [closeAll]

theorem cause (moved : Prelude cfg s l.event u) (cause : Cause cfg s u l.event payload client key) :
    u.lockedClient = some client ∧ ∃ request, Heard (l :: past) client request ∧
      request.leadsTo cfg.connectHosts key ∧ request.payload = payload := by
  generalize event : l.event = e at moved cause
  cases cause with
  | literal parsed locked now address =>
    refine ⟨locked, _, ⟨l, by simp, _, event, parsed⟩, ?_, rfl⟩
    rwa [Request.leadsTo, now]
  | answered member same address =>
    obtain ⟨locked, request, heard, payload, asked, later⟩ := inv.waiting _ member
    refine ⟨same ▸ locked, request, heard.mono (List.subset_cons_self l past), ?_, payload⟩
    rw [Request.leadsTo, later, asked]
    exact ⟨_, address⟩

end Inv

theorem prelude_now (moved : Prelude cfg s e u) (still : ∀ seconds, e ≠ .passed seconds) :
    u.now = s.now := by
  cases moved with
  | @openedServer f => cases f <;> rfl
  | passed => exact absurd rfl (still _)
  | _ => rfl

theorem cause_now (moved : Prelude cfg s e u) (cause : Cause cfg s u e payload client key) :
    u.now = s.now :=
  prelude_now moved fun seconds waited => by
    subst waited
    cases cause

theorem lastActivity_cons (running : l.event ≠ .close) : lastActivity (l :: past) key =
    if .evicted key ∈ l.outputs then none
    else if .mapped key ∈ l.outputs then some l.time else lastActivity past key := by
  obtain ⟨time, event, outputs⟩ := l
  cases event <;> first | rfl | exact absurd rfl running

theorem lastActivity_quiet (running : l.event ≠ .close)
    (plain : ∀ o ∈ l.outputs, ∃ n, o = .outbound n) : lastActivity (l :: past) = lastActivity past := by
  funext key
  have none : .evicted key ∉ l.outputs ∧ .mapped key ∉ l.outputs := by
    constructor <;> intro member <;> obtain ⟨_, ⟨⟩⟩ := plain _ member
  rw [lastActivity_cons running, if_neg none.1, if_neg none.2]

theorem lastActivity_forwarded (running : l.event ≠ .close) {counted : List Output} {keys : List Key}
    (plain : ∀ o ∈ counted, ∃ n, o = .outbound n)
    (outputs : l.outputs = counted ++ .mapped key :: keys.map .evicted ++ [.upstream f payload peer]) :
    lastActivity (l :: past) = forgotten keys (touched key l.time (lastActivity past)) := by
  funext k
  have evicted : .evicted k ∈ l.outputs ↔ k ∈ keys := by
    have unlisted : .evicted k ∉ counted := fun member => by obtain ⟨_, ⟨⟩⟩ := plain _ member
    simp [outputs, unlisted]
  have mapped : .mapped k ∈ l.outputs ↔ k = key := by
    have unlisted : .mapped k ∉ counted := fun member => by obtain ⟨_, ⟨⟩⟩ := plain _ member
    simp [outputs, unlisted]
  rw [lastActivity_cons running, forgotten, touched]
  simp only [evicted, mapped]
  congr

theorem lastActivity_replied (running : l.event ≠ .close) {replies : List Output}
    (plain : ∀ o ∈ replies, ∃ datagram peer, o = .client datagram peer)
    (outputs : l.outputs = [.mapped key, .inbound n] ++ replies) :
    lastActivity (l :: past) = touched key l.time (lastActivity past) := by
  funext k
  have evicted : .evicted k ∉ l.outputs := by
    have unlisted : .evicted k ∉ replies := fun member => by obtain ⟨_, _, ⟨⟩⟩ := plain _ member
    simp [outputs, unlisted]
  have mapped : .mapped k ∈ l.outputs ↔ k = key := by
    have unlisted : .mapped k ∉ replies := fun member => by obtain ⟨_, _, ⟨⟩⟩ := plain _ member
    simp [outputs, unlisted]
  rw [lastActivity_cons running, if_neg evicted, touched]
  simp only [mapped]

theorem inv_step (inv : Inv cfg past (lastActivity past) s) (stepped : step cfg s l t) :
    Inv cfg (l :: past) (lastActivity (l :: past)) t := by
  obtain ⟨time, handled⟩ := stepped
  rcases handle_effect inv.bounded handled with ⟨closing, _, rfl⟩ | ⟨u, moved, finish⟩
  · have forgets : lastActivity (l :: past) = fun _ => none := by
      obtain ⟨_, _, _⟩ := l
      subst closing
      rfl
    rw [forgets]
    exact (inv.mono (List.subset_cons_self l past)).close
  · have entered := inv.prelude moved
    have running : l.event ≠ .close := by
      rintro closing
      rw [closing] at moved
      cases moved
    generalize result : l.outputs = outputs at finish
    cases finish with
    | quiet plain => rwa [lastActivity_quiet running (result ▸ plain)]
    | @forwarded counted payload client key plain cause there =>
      obtain ⟨locked, request, heard, leads, rfl⟩ := inv.cause moved cause
      rw [lastActivity_forwarded running plain result, time, ← cause_now moved cause]
      apply entered.assign locked ⟨request, heard, leads, l, by simp, ?_⟩ (entered.attached _ there)
      simp [result]
    | @replied f data sender m replies reply member same sent _ =>
      have now : u.now = s.now := prelude_now moved fun seconds waited => by
        rw [waited] at reply
        cases reply
      have plain : ∀ o ∈ replies, ∃ datagram peer, o = .client datagram peer := by
        rcases sent with rfl | ⟨address, rfl⟩
        · simp
        · exact fun o only => ⟨_, _, List.mem_singleton.mp only⟩
      rw [lastActivity_replied running plain result, time, ← now]
      exact entered.refresh member

theorem inv_run (run : Transition.Run (step cfg) (.init start) past s) :
    Inv cfg past (lastActivity past) s :=
  run.record (P := fun past s => Inv cfg past (lastActivity past) s) (inv_init cfg start) inv_step

/-- A datagram goes upstream for a cause, and its mapping is assigned with it. -/
theorem upstream_cause (inv : Inv cfg past last s) (stepped : step cfg s l t)
    (sent : .upstream f payload peer ∈ l.outputs) :
    ∃ u client, Prelude cfg s l.event u ∧ Cause cfg s u l.event payload client (f, peer) ∧
      t = assign cfg u (f, peer) client := by
  rcases handle_effect inv.bounded stepped.2 with ⟨_, none, _⟩ | ⟨u, moved, finish⟩
  · simp [none] at sent
  · generalize l.outputs = outputs at finish sent
    cases finish with
    | quiet plain => obtain ⟨_, ⟨⟩⟩ := plain _ sent
    | @forwarded counted payload' client key plain cause there =>
      obtain ⟨rfl, rfl⟩ : key = (f, peer) ∧ payload' = payload := by
        have unlisted : .upstream f payload peer ∉ counted :=
          fun member => by obtain ⟨_, ⟨⟩⟩ := plain _ member
        obtain ⟨rfl, rfl, rfl⟩ := by simpa [unlisted] using sent
        exact ⟨rfl, rfl⟩
      exact ⟨u, client, moved, cause, rfl⟩
    | replied _ _ _ replies =>
      rcases replies with rfl | ⟨address, rfl⟩ <;> simp at sent

end HttpSocksProxy.Udp
