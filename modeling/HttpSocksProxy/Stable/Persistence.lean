import HttpSocksProxy.Stable.Health

/-! The listeners that the reason of a recovery names, and when one of them
really failed throughout the confirmation. -/
namespace HttpSocksProxy.Health
open Transition

/-- The listeners the reason lists: those that failed the last attempt and are
structurally dead, or else all that failed it. -/
def blamed (structural : Listener → Bool) (confirmed : Detailed) : List Listener :=
  let dead := (failed confirmed).filter (!structural ·)
  if dead ≠ [] then dead else failed confirmed

theorem judge_reason (judged : judge structural confirmed = .recovery reason) :
    reason = "listener structurally unavailable after confirmation: ".toList ++
        commaList ((blamed structural confirmed).map Listener.name) ∨
      reason = "confirmed listener health failure: ".toList ++ commaList
        ((blamed structural confirmed).map fun l =>
          l.name ++ " (".toList ++ (confirmed l).detail ++ ")".toList) := by
  simp only [judge] at judged
  split at judged
  case isTrue => contradiction
  case isFalse failing =>
    have failing : failed confirmed ≠ [] := by
      obtain ⟨l, fails⟩ := allOkay_eq_false.mp (Bool.not_eq_true _ ▸ failing)
      exact List.ne_nil_of_mem (mem_failed.mpr fails)
    split at judged
    case isTrue dead =>
      left
      rw [blamed, if_pos dead]
      exact (Verdict.recovery.inj judged).symm
    case isFalse alive =>
      right
      rw [blamed, if_neg alive]
      split at judged
      case isTrue => contradiction
      case isFalse =>
        rw [← Verdict.recovery.inj judged, formatHealthFailures]
        split
        case h_1 none_failed => exact absurd (List.map_eq_nil_iff.mp none_failed) failing
        case h_2 => rfl

/-- Structurally dead, or failing in every confirmation attempt. -/
def Persistent (config : Config) (r : Round) (l : Listener) : Prop :=
  r.structural l = false ∨ ∀ k < config.attempts, (r.confirmation k l).okay = false

/-- The attempts fail by turns: each has a failing listener, but every listener
passes one of them, and those that fail the last one are structurally alive and
not all three. -/
structure ByTurns (config : Config) (r : Round) : Prop where
  failing : ∀ k < config.attempts, ∃ l, (r.confirmation k l).okay = false
  passing : ∀ l, ∃ k < config.attempts, (r.confirmation k l).okay = true
  alive : ∀ l, (r.confirmation (config.attempts - 1) l).okay = false → r.structural l = true
  answered : ∃ l, (r.confirmation (config.attempts - 1) l).okay = true

/-- The last attempt decides whom the reason blames. -/
theorem mem_blamed {structural : Listener → Bool} {confirmed : Detailed} :
    l ∈ blamed structural confirmed ↔ (confirmed l).okay = false ∧
      (structural l = false ∨ ∀ other, (confirmed other).okay = false → structural other = true) := by
  simp only [blamed]
  split
  case isTrue dead =>
    obtain ⟨other, there⟩ := List.exists_mem_of_ne_nil _ dead
    obtain ⟨fails, lost⟩ : (confirmed other).okay = false ∧ structural other = false := by
      simpa [mem_failed] using there
    have some_dead : ¬ ∀ other, (confirmed other).okay = false → structural other = true := by
      intro alive
      rw [alive other fails] at lost
      contradiction
    simp [mem_failed, some_dead]
  case isFalse alive =>
    have alive : ∀ other, (confirmed other).okay = false → structural other = true := by
      simpa [List.filter_eq_nil_iff, mem_failed] using alive
    exact ⟨fun there => ⟨mem_failed.mp there, .inr alive⟩, fun fails => mem_failed.mpr fails.1⟩

/-- Whenever a round raises `RecoveryRequired`, some listener that the reason
names is structurally dead or failed in every attempt, exactly when that round
does not confirm on attempts that fail by turns. -/
theorem blame_persistent_iff (config : Config) (r : Round)
    (run : Run (monitorStep config) (.running {}) past (.running w)) :
    (∀ reason, (healthRound config w r).outcome = .recovery reason →
        ∃ l ∈ blamed r.structural (confirmListenerHealth config r.confirmation), Persistent config r l) ↔
      ¬ (r.failing config = true ∧ (past.takeWhile (counts config)).length + 1 = config.threshold ∧
        ByTurns config r) := by
  obtain ⟨tally, below⟩ := tallied_run run w rfl
  have raises := @healthRound_recovery config w r
  rw [reached_iff below, judge_recovery, tally] at raises
  simp only [mem_blamed]
  constructor
  · rintro named ⟨failing, enough, turns⟩
    have unconfirmed := (confirm_failing config r.confirmation).mpr turns.failing
    have last := confirm_last unconfirmed
    obtain ⟨reason, raised⟩ := raises.mpr
      ⟨failing, enough, unconfirmed, .inr (by rw [last]; exact turns.answered)⟩
    obtain ⟨l, ⟨fails, _⟩, persists⟩ := named reason raised
    rw [last] at fails
    rcases persists with dead | throughout
    · rw [turns.alive l fails] at dead
      contradiction
    · obtain ⟨k, inside, passes⟩ := turns.passing l
      rw [throughout k inside] at passes
      contradiction
  · intro steady reason raised
    obtain ⟨failing, enough, unconfirmed, shown⟩ := raises.mp ⟨reason, raised⟩
    rw [confirm_last unconfirmed] at shown ⊢
    by_cases dead : ∃ l, (r.confirmation (config.attempts - 1) l).okay = false ∧ r.structural l = false
    · obtain ⟨l, fails, dead⟩ := dead
      exact ⟨l, ⟨fails, .inl dead⟩, .inl dead⟩
    · have answered := shown.resolve_left dead
      have alive : ∀ l, (r.confirmation (config.attempts - 1) l).okay = false → r.structural l = true := by
        simpa using dead
      obtain ⟨l, throughout⟩ : ∃ l, ∀ k < config.attempts, (r.confirmation k l).okay = false := by
        by_contra turns
        have passing : ∀ l, ∃ k < config.attempts, (r.confirmation k l).okay = true := by
          simpa using turns
        have failing_each := (confirm_failing config _).mp unconfirmed
        exact steady ⟨failing, enough, failing_each, passing, alive, answered⟩
      have positive := config.attempts_pos
      exact ⟨l, ⟨throughout _ (by omega), .inr alive⟩, .inr throughout⟩

/-- HTTP fails in every attempt, and is named. -/
theorem http_blamed :
    ∃ l ∈ blamed httpDownRound.structural (confirmListenerHealth {} httpDownRound.confirmation),
      Persistent {} httpDownRound l := by
  have run : Run (monitorStep {}) (.running {}) [(httpDownRound, .warned)] (.running ⟨1, true⟩) :=
    .next .start ⟨{}, rfl, rfl, rfl⟩
  apply (blame_persistent_iff {} httpDownRound run).mpr _ _ rfl
  rintro ⟨_, _, turns⟩
  obtain ⟨k, _, passes⟩ := turns.passing .http
  contradiction

/-- In each attempt another listener fails, and only there. -/
def turnsRound : Round where
  backgrounded := false
  probed := httpDown
  confirmation k l := ⟨Listener.all[k]? ≠ some l, "connect timeout".toList⟩
  structural _ := true

/-- WPAD is named, which passed two of the three attempts. -/
theorem transient_blamed : ∃ past w reason, Run (monitorStep {}) (.running {}) past (.running w) ∧
    (healthRound {} w turnsRound).outcome = .recovery reason ∧
    ∀ l ∈ blamed turnsRound.structural (confirmListenerHealth {} turnsRound.confirmation),
      ¬ Persistent {} turnsRound l := by
  refine ⟨[(turnsRound, .warned)], ⟨1, true⟩, _, .next .start ⟨{}, rfl, rfl, rfl⟩, rfl, ?_⟩
  intro l named
  have only : l = .wpad := by
    revert named
    cases l <;> decide
  subst only
  rintro (dead | throughout)
  · contradiction
  · exact absurd (throughout 0 (by decide)) (by decide)

end HttpSocksProxy.Health
