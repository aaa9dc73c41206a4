import Mathlib.Tactic.Linarith
import HttpSocksProxy.Foundation.History
import HttpSocksProxy.Stable.Supervisor

/-! How long the supervisor waits between two generations, and when it pauses.
The record of a run says how each generation ended and what the loop did then. -/
namespace HttpSocksProxy.Supervisor
open Transition History

inductive Mark where
  | failed
  | requested
  | healed
  | backsOff (delay : ℚ)
  | pauses (delay : ℚ)
  deriving DecidableEq

namespace Mark

/-- A generation ended through the `except` block. -/
def ending : Mark → Bool
  | failed | requested => true
  | _ => false

def failing : Mark → Bool
  | failed => true
  | _ => false

def requesting : Mark → Bool
  | requested => true
  | _ => false

def backing : Mark → Bool
  | backsOff _ => true
  | _ => false

/-- A pause, or the end of a generation that had been healthy long enough. -/
def resets : Mark → Bool
  | healed | pauses _ => true
  | _ => false

end Mark

/-- Whether the generation had been healthy for long. -/
def restored (config : Config) (since : Option ℚ) (now : ℚ) : Bool :=
  since.any fun since => config.healthyBackoffReset ≤ now - since

def resting : Phase → List Mark
  | .backingOff delay true => [.pauses delay]
  | .backingOff delay false => [.backsOff delay]
  | _ => []

/-- What a step adds to the record, newest first. -/
def marks (config : Config) (s : State) : Event × Output → List Mark
  | (.goesOn _, .startRaised _) => if s.firstStart then [] else [.failed]
  | (.goesOn o, _) =>
    match s.phase, o with
    | .waiting _ _, .change .recover => [.requested]
    | .waiting _ _, .change (.task _) => [.failed]
    | .settling since, .time now =>
      if s.stopAsync then []
      else resting (settle config s since now).phase ++ if restored config since now then [.healed] else []
    | _, _ => []
  | _ => []

/-- A label keeps what the step adds to the record beside the event. -/
def recorded (config : Config) (s : State) (l : (Event × Output) × List Mark) (t : State) : Prop :=
  moves config s l.1 t ∧ l.2 = marks config s l.1

def record (past : List ((Event × Output) × List Mark)) : List Mark := past.flatMap (·.2)

/-- Where the loop is, as far as the counters are concerned: trying a
generation, done with one, or waiting before the next. -/
inductive Stage where
  | trying
  | ended
  | resting (delay : ℚ) (pausing : Bool)
  deriving DecidableEq

def Phase.stage : Phase → Stage
  | stopping .. | settling _ | firstFailed _ | firstTold | leftLoop | cancelled | returned => .ended
  | backingOff delay pausing => .resting delay pausing
  | _ => .trying

/-- All that a step can do to the counters, with what it records. -/
inductive Books (config : Config) (s : State) : List Mark → State → Prop where
  | idle : t.consecutive = s.consecutive → t.delay = s.delay →
      t.phase.stage = s.phase.stage ∨ s.phase.stage = .trying ∧ t.phase.stage = .ended → Books config s [] t
  | ends : s.phase.stage = .trying → t.phase.stage = .ended → m = .failed ∨ m = .requested →
      t.consecutive = s.consecutive + 1 → t.delay = s.delay → Books config s [m] t
  | pauses (healed : Bool) : s.phase.stage = .ended → t.phase.stage = .resting config.restartPause true →
      config.maxConsecutiveRestarts ≤ ↑(if healed then 0 else s.consecutive) →
      Books config s (.pauses config.restartPause :: if healed then [.healed] else []) t
  | backsOff (healed : Bool) : s.phase.stage = .ended → t.phase.stage = .resting delay false →
      t.consecutive = (if healed then 0 else s.consecutive) →
      delay = (if healed then config.restartInitialDelay else s.delay) → t.delay = delay →
      ↑t.consecutive < config.maxConsecutiveRestarts →
      Books config s (.backsOff delay :: if healed then [.healed] else []) t
  | waited : s.phase.stage = .resting delay pausing → t.phase.stage = .trying →
      t.consecutive = (if pausing then 0 else s.consecutive) →
      t.delay = (if pausing then config.restartInitialDelay
        else min (s.delay * config.restartBackoff) config.restartMaxDelay) → Books config s [] t

theorem unopened_stage {phase : Phase} (early : phase.unopened = true) : phase.stage = .trying := by
  cases phase <;> simp_all [Phase.unopened, Phase.stage]

theorem beforeRoute_stage {phase : Phase} (before : phase.beforeRoute = true) : phase.stage = .trying := by
  cases phase <;> simp_all [Phase.beforeRoute, Phase.stage]

theorem beforeRoute_marks (before : s.phase.beforeRoute = true) :
    marks config s (.goesOn o, .quiet) = [] := by
  cases here : s.phase <;> rw [here] at before <;> first
    | contradiction
    | simp only [marks, here]

theorem startRaised_books (opened : Finset (Nat × Resource)) (trying : s.phase.stage = .trying)
    (raised : startRaised { s with opened } e = (out, t)) :
    Books config s (marks config s (.goesOn o, out)) t := by
  simp only [startRaised] at raised
  split at raised
  case isTrue first =>
    cases raised
    simp only [marks, first, if_true]
    apply Books.idle
    · rfl
    · rfl
    · exact .inr ⟨trying, rfl⟩
  case isFalse later =>
    cases raised
    simp only [marks, later]
    apply Books.ends trying
    · rfl
    · exact .inl rfl
    · rfl
    · rfl

theorem settle_books (config : Config) (here : s.phase = .settling since) (now : ℚ) :
    Books config s (marks config s (.goesOn (.time now), .quiet)) (settle config s since now) := by
  have ended : s.phase.stage = .ended := by rw [here]; rfl
  simp only [marks, here]
  cases stopped : s.stopAsync with
  | true =>
    simp only [settle, stopped]
    exact .idle rfl rfl (.inl ended.symm)
  | false =>
    have settled : settle config s since now =
        if config.maxConsecutiveRestarts ≤ ↑(if restored config since now then 0 else s.consecutive) then
          { s with
            consecutive := if restored config since now then 0 else s.consecutive
            delay := if restored config since now then config.restartInitialDelay else s.delay
            phase := .backingOff config.restartPause true }
        else
          { s with
            consecutive := if restored config since now then 0 else s.consecutive
            delay := if restored config since now then config.restartInitialDelay else s.delay
            phase := .backingOff
              (if restored config since now then config.restartInitialDelay else s.delay) false } := by
      simp only [settle, stopped]
      rfl
    simp only [Bool.false_eq_true, if_false]
    rw [settled]
    by_cases enough :
        config.maxConsecutiveRestarts ≤ ↑(if restored config since now then 0 else s.consecutive)
    · rw [if_pos enough]
      exact .pauses (restored config since now) ended rfl enough
    · rw [if_neg enough]
      simp only [resting, List.singleton_append]
      apply Books.backsOff (restored config since now) ended
      · rfl
      · rfl
      · rfl
      · rfl
      · exact not_le.mp enough

theorem openNext_books (here : s.phase = .opening g part)
    (moved : openNext config s g part o = some (out, t)) :
    Books config s (marks config s (.goesOn o, out)) t := by
  have trying : s.phase.stage = .trying := by rw [here]; rfl
  cases part <;> cases o <;> first
    | contradiction
    | cases Option.some.inj moved
      simp only [marks, here]
      exact .idle rfl rfl (.inl trying.symm)

theorem changed_books (here : s.phase = .waiting g since) (ended : changed s g since c = some t) :
    Books config s (marks config s (.goesOn (.change c), .quiet)) t := by
  have trying : s.phase.stage = .trying := by rw [here]; rfl
  simp only [marks, here]
  cases c with
  | stop =>
    simp only [changed, Option.ite_none_right_eq_some, Option.some.injEq] at ended
    obtain ⟨_, rfl⟩ := ended
    exact .idle rfl rfl (.inr ⟨trying, rfl⟩)
  | recover =>
    simp only [changed, Option.ite_none_right_eq_some, Option.some.injEq] at ended
    obtain ⟨_, rfl⟩ := ended
    exact .ends trying rfl (.inr rfl) rfl rfl
  | task =>
    simp only [changed, Option.ite_none_right_eq_some, Option.some.injEq] at ended
    obtain ⟨_, rfl⟩ := ended
    exact .ends trying rfl (.inl rfl) rfl rfl

theorem recorded_books (moved : recorded config s l t) : Books config s l.2 t := by
  obtain ⟨⟨event, out⟩, ms⟩ := l
  obtain ⟨moved, marked⟩ := moved
  change ms = marks config s (event, out) at marked
  subst marked
  cases event with
  | stopSet | recoverSet =>
    cases Option.some.inj moved
    exact .idle rfl rfl (.inl rfl)
  | gone p =>
    simp only [moves, step, Option.ite_none_right_eq_some, Option.some.injEq, Prod.mk.injEq] at moved
    obtain ⟨_, rfl, rfl⟩ := moved
    exact .idle rfl rfl (.inl rfl)
  | goesOn o =>
    cases goOn_goes moved with
    | leaves here _ | begins here _ | routes here | resolves here | constructs here | first here _
    | again here _ | announces here | undoes here _ | tells here | told here | cancels here _
    | returns here _ | cancelTold here | cleans here _ =>
      simp only [marks, here]
      exact .idle rfl rfl (by simp [here, Phase.stage])
    | looks before after =>
      rw [beforeRoute_marks before]
      exact .idle rfl rfl (.inl ((beforeRoute_stage after).trans (beforeRoute_stage before).symm))
    | raises early raised => exact startRaised_books s.opened (unopened_stage early) raised
    | opens here moved => exact openNext_books here moved
    | undone here _ raised =>
      exact startRaised_books _ (by rw [here]; rfl) raised
    | changes here ended => exact changed_books here ended
    | cleaned here _ =>
      simp only [marks, here]
      refine .idle rfl rfl (.inl ?_)
      rw [here]
      dsimp only
      split <;> rfl
    | settles here => exact settle_books config here _
    | waits here _ =>
      simp only [marks, here]
      exact .waited (by rw [here]; rfl) rfl rfl rfl

/-- Where the loop comes to after its first start only. -/
def Phase.later : Phase → Bool
  | waiting .. | stopping .. | settling _ | backingOff .. => true
  | _ => false

theorem beforeRoute_later {phase : Phase} (before : phase.beforeRoute = true) : phase.later = false := by
  cases phase <;> simp_all [Phase.beforeRoute, Phase.later]

theorem settle_firstStart (config : Config) (s : State) (since : Option ℚ) (now : ℚ) :
    (settle config s since now).firstStart = s.firstStart := by
  simp only [settle]
  split
  · rfl
  · split <;> split <;> rfl

theorem changed_firstStart (ended : changed s g since c = some t) : t.firstStart = s.firstStart := by
  cases c <;> simp only [changed, Option.ite_none_right_eq_some, Option.some.injEq] at ended <;>
    obtain ⟨_, rfl⟩ := ended <;> rfl

def Unstarted (history : List Mark) (s : State) : Prop :=
  s.firstStart = true → history = [] ∧ s.phase.later = false

theorem unstarted_goes (unstarted : Unstarted history s) (goes : Goes config s o out t) :
    Unstarted (marks config s (.goesOn o, out) ++ history) t := by
  have idle {phase : Phase} (early : phase.later = false) (unmarked : marks config s (.goesOn o, out) = [])
      (same : t.firstStart = s.firstStart) (next : t.phase = phase) :
      Unstarted (marks config s (.goesOn o, out) ++ history) t := by
    intro first
    rw [unmarked, next]
    exact ⟨(unstarted (same ▸ first)).1, early⟩
  have raising {opened : Finset (Nat × Resource)} {e : Str}
      (raised : startRaised { s with opened } e = (out, t)) :
      Unstarted (marks config s (.goesOn o, out) ++ history) t := by
    simp only [startRaised] at raised
    split at raised
    case isTrue first => cases raised; exact idle rfl (by simp only [marks, first, if_true]) rfl rfl
    case isFalse later => cases raised; exact fun first => absurd first later
  have early {phase : Phase} (here : s.phase = phase) (later : phase.later = true)
      (same : t.firstStart = s.firstStart) :
      Unstarted (marks config s (.goesOn o, out) ++ history) t := by
    intro first
    have before := (unstarted (same ▸ first)).2
    rw [here, later] at before
    contradiction
  cases goes with
  | leaves here _ | begins here _ | routes here | resolves here | constructs here | first here _
  | undoes here _ | tells here | told here | cancels here _ | returns here _ | cancelTold here =>
    exact idle rfl (by simp only [marks, here]) rfl rfl
  | looks before after =>
    exact idle (beforeRoute_later after) (beforeRoute_marks before) rfl rfl
  | raises _ raised => exact raising raised
  | @opens g part _ _ _ here moved =>
    cases part <;> cases o <;> first
      | contradiction
      | cases Option.some.inj moved
        exact idle rfl (by simp only [marks, here]) rfl rfl
  | undone here _ raised => exact raising raised
  | again _ later => exact fun first => absurd first (by rw [later]; exact Bool.false_ne_true)
  | announces here => exact fun first => absurd first Bool.false_ne_true
  | changes here ended => exact early here rfl (changed_firstStart ended)
  | cleans here _ | cleaned here _ => exact early here rfl rfl
  | settles here => exact early here rfl (settle_firstStart config s _ _)
  | waits here _ => exact early here rfl rfl

/-- The first start needs no mark of its own, as nothing is recorded before it. -/
theorem unstarted_run (run : Run (recorded config) (init config counter stopRequested) past s) :
    Unstarted (record past) s := by
  apply run.record
  · exact fun _ => ⟨rfl, rfl⟩
  · rintro past s ⟨⟨event, out⟩, ms⟩ t unstarted ⟨moved, marked⟩
    change ms = marks config s (event, out) at marked
    subst marked
    cases event with
    | stopSet | recoverSet =>
      cases Option.some.inj moved
      exact unstarted
    | gone p =>
      simp only [moves, step, Option.ite_none_right_eq_some, Option.some.injEq, Prod.mk.injEq] at moved
      obtain ⟨_, rfl, rfl⟩ := moved
      exact unstarted
    | goesOn o => exact unstarted_goes unstarted (goOn_goes moved)

/-- Generations that ended since the last reset. -/
def endings : List Mark → Nat := tally Mark.resets Mark.ending

/-- Waits since the last reset. -/
def waits : List Mark → Nat := tally Mark.resets Mark.backing

/-- The counter is the number of generations that ended since the last reset,
and it is below the limit while another generation is to follow. -/
def Counted (config : Config) (history : List Mark) (s : State) : Prop :=
  match s.phase.stage with
  | .trying | .resting _ false => s.consecutive = endings history ∧
      (1 ≤ config.maxConsecutiveRestarts → ↑s.consecutive < config.maxConsecutiveRestarts)
  | .ended => s.consecutive = endings history ∧
      (1 ≤ config.maxConsecutiveRestarts → ↑s.consecutive ≤ config.maxConsecutiveRestarts)
  | .resting _ true => endings history = 0

theorem counted_books (counted : Counted config history s) (books : Books config s ms t) :
    Counted config (ms ++ history) t := by
  cases books with
  | idle same _ next =>
    rcases next with next | ⟨before, next⟩
    · simpa only [Counted, same, next, List.nil_append] using counted
    · simp only [Counted, before] at counted
      simp only [Counted, next, same, List.nil_append]
      exact ⟨counted.1, fun positive => (counted.2 positive).le⟩
  | ends before next kind more _ =>
    simp only [Counted, before] at counted
    simp only [Counted, next, more, counted.1]
    constructor
    · rcases kind with rfl | rfl <;> simp [endings, Mark.resets, Mark.ending]
    · intro positive
      have below := counted.2 positive
      rw [counted.1] at below
      omega
  | pauses healed _ next _ =>
    simp only [Counted, next]
    rfl
  | backsOff healed before next more _ _ below =>
    simp only [Counted, before] at counted
    simp only [Counted, next]
    refine ⟨?_, fun _ => below⟩
    cases healed with
    | true => simpa [endings, Mark.resets, Mark.ending] using more
    | false => simpa [endings, Mark.resets, Mark.ending, counted.1] using more
  | @waited _ pausing _ before next more _ =>
    simp only [Counted, before] at counted
    simp only [Counted, next, List.nil_append]
    cases pausing with
    | true =>
      simp only [if_true] at more
      rw [more]
      exact ⟨counted.symm, fun positive => positive⟩
    | false =>
      simp only [Bool.false_eq_true, if_false] at more
      rw [more]
      exact counted

theorem counted_run (run : Run (recorded config) (init config counter stopRequested) past s) :
    Counted config (record past) s := by
  apply run.record
  · exact ⟨rfl, fun positive => positive⟩
  · intro past s l t counted moved
    exact counted_books counted (recorded_books moved)

/-- The delay of the wait that `k` waits precede. -/
def scheduled (config : Config) (k : Nat) : ℚ :=
  min (config.restartInitialDelay * config.restartBackoff ^ k) config.restartMaxDelay

/-- Delays that can grow, up to the maximum. -/
structure Config.Growing (config : Config) : Prop where
  positive : 0 < config.restartInitialDelay
  small : config.restartInitialDelay ≤ config.restartMaxDelay
  grows : 1 ≤ config.restartBackoff

theorem scheduled_zero (growing : config.Growing) : scheduled config 0 = config.restartInitialDelay := by
  rw [scheduled, pow_zero, mul_one, min_eq_left growing.small]

theorem scheduled_succ (growing : config.Growing) (k : Nat) :
    scheduled config (k + 1) = min (scheduled config k * config.restartBackoff) config.restartMaxDelay := by
  have most : 0 < config.restartMaxDelay := growing.positive.trans_le growing.small
  have capped : config.restartMaxDelay ≤ config.restartMaxDelay * config.restartBackoff :=
    le_mul_of_one_le_right most.le growing.grows
  have factor : 0 ≤ config.restartBackoff := zero_le_one.trans growing.grows
  rw [scheduled, scheduled, pow_succ, ← mul_assoc, min_mul_of_nonneg _ _ factor, min_assoc, min_eq_right capped]

theorem scheduled_mono (growing : config.Growing) (fewer : k ≤ n) :
    scheduled config k ≤ scheduled config n := by
  apply min_le_min_right
  apply mul_le_mul_of_nonneg_left _ growing.positive.le
  exact pow_le_pow_right₀ growing.grows fewer

def Delayed (config : Config) (history : List Mark) (s : State) : Prop :=
  match s.phase.stage with
  | .trying | .ended => s.delay = scheduled config (waits history)
  | .resting _ false => ∃ k, waits history = k + 1 ∧ s.delay = scheduled config k
  | .resting _ true => waits history = 0

theorem delayed_books (growing : config.Growing) (delayed : Delayed config history s)
    (books : Books config s ms t) : Delayed config (ms ++ history) t := by
  cases books with
  | idle _ same next =>
    rcases next with next | ⟨before, next⟩
    · simpa only [Delayed, same, next, List.nil_append] using delayed
    · simpa only [Delayed, same, before, next, List.nil_append] using delayed
  | ends before next kind _ same =>
    simp only [Delayed, before] at delayed
    simp only [Delayed, next, same, delayed]
    rcases kind with rfl | rfl <;> simp [waits, Mark.resets, Mark.backing]
  | pauses healed _ next _ =>
    simp only [Delayed, next]
    rfl
  | backsOff healed before next _ chosen same _ =>
    simp only [Delayed, before] at delayed
    simp only [Delayed, next, same, chosen]
    cases healed with
    | true =>
      refine ⟨0, ?_, (scheduled_zero growing).symm⟩
      simp [waits, Mark.resets, Mark.backing]
    | false =>
      refine ⟨waits history, ?_, delayed⟩
      simp [waits, Mark.resets, Mark.backing]
  | @waited _ pausing _ before next _ same =>
    simp only [Delayed, before] at delayed
    simp only [Delayed, next, same, List.nil_append]
    cases pausing with
    | true =>
      rw [delayed, scheduled_zero growing]
      rfl
    | false =>
      obtain ⟨k, count, current⟩ := delayed
      rw [count, scheduled_succ growing, current]
      rfl

/-- What is asked of each wait and each pause, given what was recorded before. -/
def Orderly (config : Config) (m : Mark) (earlier : List Mark) : Prop :=
  match m with
  | .backsOff delay =>
    delay = scheduled config (waits earlier) ∧ ↑(endings earlier) < config.maxConsecutiveRestarts
  | .pauses delay =>
    delay = config.restartPause ∧ ↑(endings earlier) = config.maxConsecutiveRestarts
  | _ => True

theorem orderly_books (growing : config.Growing) (allowed : 1 ≤ config.maxConsecutiveRestarts)
    (counted : Counted config history s) (delayed : Delayed config history s)
    (orderly : Each (Orderly config) history) (books : Books config s ms t) :
    Each (Orderly config) (ms ++ history) := by
  cases books with
  | idle | waited => exact orderly
  | ends _ _ kind =>
    rw [List.singleton_append, each_cons]
    refine ⟨?_, orderly⟩
    rcases kind with rfl | rfl <;> trivial
  | pauses healed before _ enough =>
    simp only [Counted, before] at counted
    cases healed with
    | true =>
      have impossible : config.maxConsecutiveRestarts ≤ 0 := enough
      omega
    | false =>
      rw [List.cons_append, each_cons]
      refine ⟨⟨rfl, ?_⟩, orderly⟩
      have most := counted.2 allowed
      simp only [Bool.false_eq_true, if_false, List.nil_append] at enough ⊢
      rw [← counted.1]
      omega
  | backsOff healed before next more chosen _ below =>
    simp only [Counted, before] at counted
    simp only [Delayed, before] at delayed
    rw [more] at below
    cases healed with
    | true =>
      rw [List.cons_append, each_cons]
      refine ⟨⟨?_, allowed⟩, ?_⟩
      · rw [chosen]
        exact (scheduled_zero growing).symm
      · rw [if_pos rfl, List.singleton_append, each_cons]
        exact ⟨trivial, orderly⟩
    | false =>
      rw [List.cons_append, each_cons]
      refine ⟨⟨chosen.trans delayed, ?_⟩, orderly⟩
      rw [if_neg Bool.false_ne_true, List.nil_append, ← counted.1]
      exact below

theorem orderly_run (growing : config.Growing) (allowed : 1 ≤ config.maxConsecutiveRestarts)
    (run : Run (recorded config) (init config counter stopRequested) past s) :
    Each (Orderly config) (record past) ∧ Delayed config (record past) s := by
  induction run with
  | start => exact ⟨each_nil, (scheduled_zero growing).symm⟩
  | next earlier moved ih =>
    obtain ⟨orderly, delayed⟩ := ih
    have books := recorded_books moved
    have counted := counted_run earlier
    exact ⟨orderly_books growing allowed counted delayed orderly books, delayed_books growing delayed books⟩

theorem counted_most (allowed : 1 ≤ config.maxConsecutiveRestarts) (counted : Counted config history s) :
    ↑(endings history) ≤ config.maxConsecutiveRestarts := by
  simp only [Counted] at counted
  split at counted
  · rw [← counted.1]
    exact (counted.2 allowed).le
  · rw [← counted.1]
    exact (counted.2 allowed).le
  · rw [← counted.1]
    exact counted.2 allowed
  · rw [counted]
    exact zero_le_one.trans allowed

/-- In every run of the supervisor the wait after `k` others since the last
reset is requested with the `k`-th delay of the schedule; the delays of an
episode do not decrease and stay within the maximum; at most as many
generations end in it as the limit says, another is tried only below the limit,
and at the limit the wait is the pause. The record begins with the first start. -/
theorem bounded_retrying (positive : 0 < config.restartInitialDelay)
    (small : config.restartInitialDelay ≤ config.restartMaxDelay) (grows : 1 ≤ config.restartBackoff)
    (allowed : 1 ≤ config.maxConsecutiveRestarts)
    (run : Run (recorded config) (init config counter stopRequested) past s) :
    (∀ delay earlier, (.backsOff delay :: earlier) <:+ record past →
      delay = min (config.restartInitialDelay * config.restartBackoff ^ waits earlier) config.restartMaxDelay ∧
      ↑(endings earlier) < config.maxConsecutiveRestarts) ∧
    (∀ delay later newer earlier, (.backsOff later :: (newer ++ .backsOff delay :: earlier)) <:+ record past →
      (∀ m ∈ newer, m.resets = false) → delay ≤ later ∧ later ≤ config.restartMaxDelay) ∧
    (∀ delay earlier, (.pauses delay :: earlier) <:+ record past →
      delay = config.restartPause ∧ ↑(endings earlier) = config.maxConsecutiveRestarts) ∧
    ↑(endings (record past)) ≤ config.maxConsecutiveRestarts ∧
    (s.phase.stage = .trying → ↑(endings (record past)) < config.maxConsecutiveRestarts) ∧
    (s.firstStart = true → record past = []) := by
  have growing : config.Growing := ⟨positive, small, grows⟩
  obtain ⟨orderly, -⟩ := orderly_run growing allowed run
  have counted := counted_run run
  refine ⟨fun delay earlier => orderly _ _, ?_, fun delay earlier => orderly _ _, counted_most allowed counted, ?_,
    fun first => (unstarted_run run first).1⟩
  · intro delay later newer earlier waited within
    obtain ⟨last, -⟩ := orderly _ _ waited
    have before : (.backsOff delay :: earlier) <:+ record past :=
      (List.suffix_append newer _).trans ((List.suffix_cons _ _).trans waited)
    obtain ⟨first, -⟩ := orderly _ _ before
    have fewer : waits earlier ≤ waits (newer ++ .backsOff delay :: earlier) := by
      have grown := @tally_grows _ Mark.backing Mark.resets _ (.backsOff delay :: earlier) within
      have one_more : waits (.backsOff delay :: earlier) = waits earlier + 1 := by
        simp [waits, Mark.resets, Mark.backing]
      simp only [waits] at grown one_more ⊢
      omega
    rw [first, last]
    exact ⟨scheduled_mono growing fewer, min_le_right _ _⟩
  · intro trying
    simp only [Counted, trying] at counted
    rw [← counted.1]
    exact counted.2 allowed

/-- A generation starts, ends as told, and is cleaned up; the loop rests. -/
def generation (ended : List Event) : List Event :=
  [.goesOn .done, .goesOn .done, .goesOn .done, .goesOn (.selected "Auto".toList), .goesOn .done, .goesOn .done,
    .goesOn .done, .goesOn .done, .goesOn .done, .goesOn .done, .goesOn .done, .goesOn .done,
    .goesOn (.time 5), .goesOn .done] ++ ended ++
  [.goesOn .done, .goesOn .done, .goesOn .done, .goesOn .done, .gone (1, .wpadThread),
    .goesOn .done, .goesOn (.time 8)]

def gone (tasks : List Task) : List Event := tasks.map fun t => .gone (1, .task t)

def requestedOnce : List Event :=
  generation (.recoverSet :: .goesOn (.change .recover) :: gone Task.all)

def failedOnce : List Event :=
  generation (gone [.health] ++ .goesOn (.change (.task .health)) ::
    gone [.socksListener, .httpListener, .watchdog, .scheduler])

def follow (config : Config) (events : List Event) : Option (List ((Event × Output) × List Mark) × State) :=
  execute (step config) (fun s event out => ((event, out), marks config s (event, out)))
    (init config 0 false) events

theorem run_of_follow {config : Config} (followed : follow config events = some (past, s)) :
    Run (recorded config) (init config 0 false) past s := by
  simp only [follow] at followed
  apply Run.of_execute _ followed
  intro s event out t moved
  exact ⟨moved, rfl⟩

/-- One failure is followed by a wait of the initial delay. -/
theorem first_wait : ∃ past s, Run (recorded {}) (init {} 0 false) past s ∧
    record past = [.backsOff 1, .failed] ∧ (1 : ℚ) = min (1 * 2 ^ waits [.failed]) 8 := by
  have followed : (follow {} failedOnce).map (fun r => record r.1) = some [.backsOff 1, .failed] := by
    decide +kernel
  obtain ⟨⟨past, s⟩, followed, marked⟩ := Option.map_eq_some_iff.mp followed
  have run := run_of_follow followed
  have bounded :=
    bounded_retrying (by decide +kernel) (by decide +kernel) (by decide +kernel) (by decide) run
  refine ⟨past, s, run, marked, (bounded.1 1 [.failed] ?_).1⟩
  rw [marked]

/-- Failures since the last reset. -/
def failures : List Mark → Nat := tally Mark.resets Mark.failing

/-- Requested restarts since the last reset. -/
def requests : List Mark → Nat := tally Mark.resets Mark.requesting

theorem endings_eq (history : List Mark) : endings history = failures history + requests history := by
  induction history with
  | nil => rfl
  | cons m history ih =>
    simp only [endings, failures, requests, tally_cons] at ih ⊢
    cases m <;> simp [Mark.resets, Mark.ending, Mark.failing, Mark.requesting, ih] <;> omega

/-- A pause follows as many failures as the limit says exactly when no
generation of the episode ended by request, unless the limit asks for none. -/
def PausesOnFailure (config : Config) (m : Mark) (earlier : List Mark) : Prop :=
  ∀ delay, m = .pauses delay → (config.maxConsecutiveRestarts ≤ ↑(failures earlier) ↔
    config.maxConsecutiveRestarts ≤ 0 ∨ requests earlier = 0)

theorem failures_enough {config : Config} (some_ended : config.maxConsecutiveRestarts ≤ ↑(endings history))
    (most : 1 ≤ config.maxConsecutiveRestarts → ↑(endings history) ≤ config.maxConsecutiveRestarts) :
    config.maxConsecutiveRestarts ≤ ↑(failures history) ↔
      config.maxConsecutiveRestarts ≤ 0 ∨ requests history = 0 := by
  rw [endings_eq] at some_ended most
  omega

theorem pauses_books (counted : Counted config history s) (held : Each (PausesOnFailure config) history)
    (books : Books config s ms t) : Each (PausesOnFailure config) (ms ++ history) := by
  have other {m : Mark} {earlier} (waits : ∀ delay, m ≠ .pauses delay) :
      PausesOnFailure config m earlier :=
    fun delay pause => absurd pause (waits delay)
  cases books with
  | idle | waited => exact held
  | ends _ _ kind =>
    rw [List.singleton_append, each_cons]
    refine ⟨other ?_, held⟩
    rcases kind with rfl | rfl <;> simp
  | pauses healed before _ enough =>
    simp only [Counted, before] at counted
    rw [List.cons_append, each_cons]
    cases healed with
    | true =>
      refine ⟨fun _ _ => failures_enough enough fun positive => ?_, ?_⟩
      · exact zero_le_one.trans positive
      · rw [if_pos rfl, List.singleton_append, each_cons]
        exact ⟨other (by simp), held⟩
    | false =>
      simp only [Bool.false_eq_true, if_false, List.nil_append, counted.1] at enough counted ⊢
      exact ⟨fun _ _ => failures_enough enough counted.2, held⟩
  | backsOff healed =>
    rw [List.cons_append, each_cons]
    refine ⟨other (by simp), ?_⟩
    cases healed with
    | true =>
      rw [if_pos rfl, List.singleton_append, each_cons]
      exact ⟨other (by simp), held⟩
    | false => exact held

/-- In every run, at each pause: as many generations have failed since the last
reset as the limit says exactly when none of them ended by request. -/
theorem pauses_on_failures_iff (config : Config)
    (run : Run (recorded config) (init config counter stopRequested) past s)
    (paused : (.pauses delay :: earlier) <:+ record past) :
    config.maxConsecutiveRestarts ≤ ↑(failures earlier) ↔
      config.maxConsecutiveRestarts ≤ 0 ∨ requests earlier = 0 := by
  have held : Each (PausesOnFailure config) (record past) := by
    clear paused
    induction run with
    | start => exact each_nil
    | next earlier moved ih => exact pauses_books (counted_run earlier) ih (recorded_books moved)
  exact held _ _ paused delay rfl

/-- With a limit of one, a failure leads to a pause. -/
theorem pause_after_failure : ∃ past s, Run (recorded { maxConsecutiveRestarts := 1 })
    (init { maxConsecutiveRestarts := 1 } 0 false) past s ∧
    record past = [.pauses 60, .failed] ∧ 1 ≤ failures [.failed] := by
  have followed : (follow { maxConsecutiveRestarts := 1 } failedOnce).map (fun r => record r.1) =
      some [.pauses 60, .failed] := by decide +kernel
  obtain ⟨⟨past, s⟩, followed, marked⟩ := Option.map_eq_some_iff.mp followed
  have run := run_of_follow followed
  refine ⟨past, s, run, marked, ?_⟩
  have paused : (.pauses 60 :: [.failed]) <:+ record past := by rw [marked]
  exact Int.ofNat_le.mp ((pauses_on_failures_iff _ run paused).mpr (.inr rfl))

/-- With a limit of one, so does a restart that the user asked for. -/
theorem pause_after_request : ∃ past s, Run (recorded { maxConsecutiveRestarts := 1 })
    (init { maxConsecutiveRestarts := 1 } 0 false) past s ∧
    record past = [.pauses 60, .requested] ∧ failures [.requested] = 0 := by
  have followed : (follow { maxConsecutiveRestarts := 1 } requestedOnce).map (fun r => record r.1) =
      some [.pauses 60, .requested] := by decide +kernel
  obtain ⟨⟨past, s⟩, followed, marked⟩ := Option.map_eq_some_iff.mp followed
  exact ⟨past, s, run_of_follow followed, marked, rfl⟩

end HttpSocksProxy.Supervisor
