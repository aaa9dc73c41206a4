import Mathlib.Tactic.Linarith
import HttpSocksProxy.Dns.Resolution

/-! How many queries a resolution sends: the pauses between the rounds grow until the
lifetime is over, if only the wall clock keeps up with the one of the event loop. -/
namespace HttpSocksProxy.Dns.Resolve
open Transition

/-- The backoff after a number of rounds. -/
def pause : Nat → ℚ
  | 0 => 1 / 10
  | k + 1 => min (pause k * 2) 2

/-- All the pauses before a round. -/
def slept : Nat → ℚ
  | 0 => 0
  | k + 1 => slept k + pause k

theorem pause_pos (k : Nat) : 0 < pause k := by
  induction k with
  | zero => norm_num [pause]
  | succ k ih => exact lt_min (by linarith) (by norm_num)

theorem slept_mono (before : j ≤ k) : slept j ≤ slept k := by
  induction before with
  | refl => exact le_rfl
  | step _ ih =>
    have := pause_pos
    exact ih.trans (le_add_of_nonneg_right (this _).le)

/-- Time passes so that the wall clock is not behind the one of the event loop. -/
def steady (s : State) (l : Label) : Bool :=
  match l.1 with
  | .passed _ drift => s.now ≤ s.wall + drift
  | _ => true

def sent (past : List Label) : Nat := past.countP (·.2.isSome)

@[simp] theorem sent_quiet : sent ((e, none) :: past) = sent past := by simp [sent]

@[simp] theorem sent_query : sent ((e, some q) :: past) = sent past + 1 := by simp [sent]

/-- What is left to send after `count` queries, in round `k` for the name after the
first `b`, with `more` queries besides those to the current nameservers. -/
structure Spending (r : Resolver) (rounds b k more count : Nat) (s : Resolution) : Prop where
  names : s.qnamesToTry.length = b + 1 + s.qnames.length
  backoff : s.backoff = pause k
  total : count ≤ 2 * r.nameservers.length * rounds * (b + 1)
  left : count + more + 2 * s.currentNameservers.length ≤
    2 * r.nameservers.length * rounds * b + 2 * r.nameservers.length * (k + 1)

def Within (r : Resolver) (rounds count : Nat) (s : State) : Prop :=
  match s.phase with
  | .requesting => ∃ b, s.resolution.qnamesToTry.length = b + s.resolution.qnames.length ∧
      count ≤ 2 * r.nameservers.length * rounds * b
  | .choosing => ∃ b k, slept k ≤ s.now - s.start ∧
      Spending r rounds b k s.resolution.retryWithTcp.toNat count s.resolution
  | .sleeping attempt wake => ∃ b k, slept k ≤ wake - s.start ∧
      Spending r rounds b k (1 + (!attempt.tcp).toNat) count s.resolution
  | .querying q => ∃ b k, slept k ≤ s.now - s.start ∧ k < rounds ∧
      Spending r rounds b k (!q.tcp).toNat count s.resolution
  | .returned _ | .raised _ => count ≤ 2 * r.nameservers.length * rounds * s.resolution.qnamesToTry.length

structure Clocked (s : State) : Prop where
  forward : s.start ≤ s.now
  ahead : s.now ≤ s.wall

variable {r : Resolver} {past : List Label} {s t : State}

theorem Spending.ended {s : Resolution} (spending : Spending r rounds b k more count s) :
    count ≤ 2 * r.nameservers.length * rounds * s.qnamesToTry.length := by
  refine spending.total.trans (Nat.mul_le_mul_left _ ?_)
  rw [spending.names]
  exact Nat.le_add_right _ _

/-- Another nameserver. -/
theorem Spending.nextNameserver {s : Resolution} (spending : Spending r rounds b k s.retryWithTcp.toNat count s)
    (ready : Ready r past s .choosing) (chosen : s.nextNameserver r = .ok (attempt, s')) :
    ∃ k', slept k' ≤ slept k + attempt.backoff ∧ Spending r rounds b k' (1 + (!attempt.tcp).toNat) count s' := by
  obtain ⟨names, backoff, total, left⟩ := spending
  obtain ⟨trying, waiting⟩ := ready
  have few : s.nameservers.length ≤ r.nameservers.length := by
    rw [← trying.dropped.length_eq, List.length_append]
    exact Nat.le_add_right _ _
  have known : s.retryWithTcp = true → s.nameserver ≠ none := by
    intro retry
    rw [if_pos retry] at waiting
    obtain ⟨nameserver, last, _⟩ := waiting
    exact last ▸ Option.some_ne_none nameserver
  have once (tcp : Bool) : (!tcp).toNat ≤ 1 := Bool.toNat_le _
  rcases Resolution.nextNameserver_cases (r := r) known with
    ⟨retry, nameserver, last, next⟩ | ⟨first, nameserver, others, current, next⟩ |
      ⟨first, current, nameserver, others, all, next⟩ | ⟨first, all, next⟩
  all_goals cases chosen.symm.trans next
  · refine ⟨k, (add_zero _).ge, names, backoff, total, ?_⟩
    rw [retry] at left
    exact left
  · refine ⟨k, (add_zero _).ge, names, backoff, total, ?_⟩
    have := once s.tcp
    rw [first, current, List.length_cons] at left
    simp only [Bool.toNat_false] at left ⊢
    omega
  · refine ⟨k + 1, ?_, names, ?_, total, ?_⟩
    · rw [slept, ← backoff]
    · simp only [pause, backoff]
    · have := once s.tcp
      rw [all, List.length_cons] at few
      rw [first, current] at left
      simp only [Bool.toNat_false, List.length_nil] at left ⊢
      rw [Nat.mul_succ _ (k + 1)]
      omega

/-- One query more, in a round that began in time. -/
theorem Spending.sent {s : Resolution} (spending : Spending r rounds b k (1 + more) count s) (early : k < rounds) :
    Spending r rounds b k more (count + 1) s := by
  obtain ⟨names, backoff, _, left⟩ := spending
  have round : 2 * r.nameservers.length * (k + 1) ≤ 2 * r.nameservers.length * rounds := Nat.mul_le_mul_left _ early
  refine ⟨names, backoff, ?_, ?_⟩
  · rw [Nat.mul_succ]
    omega
  · omega

/-- After a failure. -/
theorem Spending.failed {s : Resolution} (spending : Spending r rounds b k (!q.tcp).toNat count s)
    (once : s.retryWithTcp = false) (noted : f.Of q outcome) :
    Spending r rounds b k (s.failed r f).retryWithTcp.toNat count (s.failed r f) := by
  obtain ⟨names, backoff, total, left⟩ := spending
  have again : (s.failed r f).retryWithTcp.toNat ≤ (!q.tcp).toNat := by
    rw [← noted.tcp]
    simp only [Resolution.failed, once, Bool.false_or]
    exact Bool.toNat_le_toNat fun both => (Bool.and_eq_true_iff.mp both).2
  refine ⟨names, backoff, total, ?_⟩
  simp only [Resolution.failed] at again ⊢
  omega

theorem settle_clocks (s : State) (result : (Option ChainingResult × Bool) × Resolution) :
    (s.settle result).now = s.now ∧ (s.settle result).wall = s.wall ∧ (s.settle result).start = s.start := by
  obtain ⟨⟨answer, done⟩, resolution⟩ := result
  cases answer with
  | some answer => exact ⟨rfl, rfl, rfl⟩
  | none => cases done <;> exact ⟨rfl, rfl, rfl⟩

theorem clocked_step (clocked : Clocked s) (moves : Moves r s e o t) (steadily : steady s (e, o) = true) :
    Clocked t := by
  obtain ⟨forward, ahead⟩ := clocked
  cases moves with
  | passed later =>
    have kept := of_decide_eq_true steadily
    exact ⟨by simp only; linarith, by simp only; linarith⟩
  | settled =>
    obtain ⟨now, wall, start⟩ := settle_clocks s _
    exact ⟨by rw [now, start]; exact forward, by rw [now, wall]; exact ahead⟩
  | _ => exact ⟨forward, ahead⟩

theorem within_replied (within : Within r rounds count s) (ready : Ready r past s.resolution s.phase)
    (here : s.phase = .querying q) (judged : s.resolution.queryResult r outcome = .ok result) :
    Within r rounds count (s.settle result) := by
  rw [here] at ready
  rw [Within, here] at within
  obtain ⟨b, k, sleeping, early, spending⟩ := within
  obtain ⟨trying, asking, _⟩ := ready
  have present := asking.mixed.subset List.mem_cons_self
  rcases Resolution.queryResult_cases (r := r) q asking.last asking.reached.1 asking.attempt present outcome with
    ⟨f, noted, same⟩ | ⟨_, _, _, _, _, ⟨_, _, same⟩ | ⟨_, same⟩⟩ | ⟨response, _, _, same⟩ | ⟨_, _, _, same⟩
  all_goals cases judged.symm.trans same
  · exact ⟨b, k, sleeping, spending.failed asking.once noted⟩
  · exact spending.ended
  · exact ⟨b + 1, spending.names, spending.total⟩

theorem within_step (late : r.lifetime ≤ slept rounds) (clocked : Clocked s)
    (within : Within r rounds (sent past) s) (ready : Ready r past s.resolution s.phase) (moves : Moves r s e o t) :
    Within r rounds (sent ((e, o) :: past)) t := by
  cases moves with
  | passed forward =>
    rw [sent_quiet]
    simp only [Within] at within ⊢
    split at within
    case h_1 => exact within
    case h_2 =>
      obtain ⟨b, k, sleeping, spending⟩ := within
      exact ⟨b, k, by linarith, spending⟩
    case h_3 => exact within
    case h_4 =>
      obtain ⟨b, k, sleeping, rest⟩ := within
      exact ⟨b, k, by linarith, rest⟩
    case h_5 => exact within
    case h_6 => exact within
  | @requested order qname qnames here shuffled next =>
    rw [Within, here] at within
    obtain ⟨b, names, total⟩ := within
    rw [sent_quiet]
    refine ⟨b, 0, sub_nonneg.mpr clocked.forward, ?_, rfl, ?_, ?_⟩
    · rw [next, List.length_cons] at names
      simp only [Resolution.prepare]
      omega
    · rw [Nat.mul_succ]
      exact Nat.le_add_right_of_le total
    · simp only [Resolution.prepare, shuffled.length_eq, Bool.toNat_false]
      omega
  | denied here last =>
    rw [Within, here] at within
    obtain ⟨b, names, total⟩ := within
    rw [last] at names
    simp only [Within, State.fail, sent_quiet]
    rw [names]
    exact total
  | @chosen attempt _ here next =>
    rw [here] at ready
    rw [Within, here] at within
    obtain ⟨b, k, sleeping, spending⟩ := within
    obtain ⟨k', longer, spending'⟩ := spending.nextNameserver ready next
    rw [sent_quiet]
    exact ⟨b, k', by simp only; linarith, spending'⟩
  | unchosen here failed =>
    rw [Within, here] at within
    obtain ⟨b, k, _, spending⟩ := within
    rw [sent_quiet]
    exact spending.ended
  | @sent attempt wake _ q here awake time query =>
    rw [Within, here] at within
    obtain ⟨b, k, sleeping, spending⟩ := within
    obtain ⟨soon, _⟩ := Resolver.computeTimeout_ok time
    have early : k < rounds := by
      by_contra beyond
      have := slept_mono (not_lt.mp beyond)
      have := clocked.ahead
      linarith
    subst query
    rw [sent_query]
    exact ⟨b, k, by simp only; linarith, early, spending.sent early⟩
  | expired here time =>
    rw [Within, here] at within
    obtain ⟨b, k, _, spending⟩ := within
    rw [sent_quiet]
    exact spending.ended
  | settled here judged =>
    rw [sent_quiet]
    exact within_replied within ready here judged
  | ended here judged =>
    rw [Within, here] at within
    obtain ⟨b, k, _, _, spending⟩ := within
    rw [sent_quiet]
    exact spending.ended
  | cancelled here =>
    rw [sent_quiet]
    rcases here with ⟨attempt, wake, here⟩ | ⟨q, here⟩
    · rw [Within, here] at within
      obtain ⟨b, k, _, spending⟩ := within
      exact spending.ended
    · rw [Within, here] at within
      obtain ⟨b, k, _, _, spending⟩ := within
      exact spending.ended

theorem within_total (within : Within r rounds count s) :
    count ≤ 2 * r.nameservers.length * rounds * s.resolution.qnamesToTry.length := by
  unfold Within at within
  split at within
  case h_1 =>
    obtain ⟨b, names, total⟩ := within
    refine total.trans (Nat.mul_le_mul_left _ ?_)
    rw [names]
    exact Nat.le_add_right _ _
  case h_2 =>
    obtain ⟨b, k, _, spending⟩ := within
    exact spending.ended
  case h_3 =>
    obtain ⟨b, k, _, spending⟩ := within
    exact spending.ended
  case h_4 =>
    obtain ⟨b, k, _, _, spending⟩ := within
    exact spending.ended
  case h_5 => exact within
  case h_6 => exact within

/-- The five seconds of a resolver that is not configured otherwise. -/
theorem reset_rounds (domain : Name) (nameservers : List String) :
    (Resolver.reset domain nameservers).lifetime ≤ slept 6 := by
  change (5 : ℚ) ≤ slept 6
  norm_num [slept, pause]

/-- While the wall clock is not behind, a resolution sends altogether at most two queries
for each nameserver, each name and each of the rounds that fit into the lifetime,
whatever it is answered. -/
theorem queries_bounded (late : r.lifetime ≤ slept rounds)
    (run : Run (guarded (byOutput (step r)) fun s l => steady s l = true)
      (.init candidates tcp raiseOnNoAnswer now) past s) :
    sent past ≤ 2 * r.nameservers.length * rounds * candidates.length := by
  have initial : Clocked (.init candidates tcp raiseOnNoAnswer now) ∧
      Within r rounds 0 (.init candidates tcp raiseOnNoAnswer now) :=
    ⟨⟨le_rfl, le_rfl⟩, 0, (Nat.zero_add _).symm, Nat.zero_le _⟩
  have whole := run.record (P := fun past s => Inv r candidates tcp raiseOnNoAnswer past s ∧
    Clocked s ∧ Within r rounds (sent past) s) ⟨inv_run .start, initial⟩ ?_
  · rw [← whole.1.asks.names]
    exact within_total whole.2.2
  · rintro past s l t ⟨inv, clocked, within⟩ ⟨steadily, stepped⟩
    have moves := step_moves stepped
    exact ⟨inv_step inv moves, clocked_step clocked moves steadily, within_step late clocked within inv.ready moves⟩

/-- Timeouts leave both nameservers in the mix for another round. -/
def silence : List Event :=
  [.request ["192.0.2.1", "192.0.2.2"], .choose, .wake, .passed 2 0, .replied (.raised .other), .choose, .wake,
    .passed 2 0, .replied (.raised .other), .choose, .passed (1 / 10) 0, .wake, .passed (9 / 10) 0,
    .replied (.raised .other), .choose, .wake]

def playSteady (r : Resolver) (qname : Name) : List Event → Option (List Label × State) :=
  execute (fun s e => (step r s e).filter fun moved => steady s (e, moved.1)) (fun _ e o => (e, o))
    (.init [qname] false true 0)

theorem queries_bounded_silence : ∃ past s,
    Run (guarded (byOutput (step twoNameservers)) fun s l => steady s l = true) (.init [.root] false true 0) past s ∧
      sent past = 3 ∧ sent past ≤ 24 := by
  have played : (playSteady twoNameservers .root silence).map (sent ·.1) = some 3 := by decide +kernel
  obtain ⟨⟨past, s⟩, played, three⟩ := Option.map_eq_some_iff.mp played
  have run : Run (guarded (byOutput (step twoNameservers)) fun s l => steady s l = true) _ past s :=
    Run.of_outputs_guarded played
  have late : twoNameservers.lifetime ≤ slept 6 := reset_rounds _ _
  exact ⟨past, s, run, three, queries_bounded late run⟩

end HttpSocksProxy.Dns.Resolve
