import Folio.Retry.Run

/-!
# What a run comes to

One step of a run is cut off in front of its attempt, within it or within the wait
behind it, or it ends the run, or another step follows.  An attempt whose outcome is no
transient failure is the only one of its run.  In general, what every attempt preserves
holds of the state behind the run.
-/

namespace Folio

/-- Whether an outcome is no failure that is worth another attempt. -/
def Final {α : Type} (outcome : Except Failure α) : Prop :=
  ∀ failure, outcome = .error failure → failure.isTransient = false

theorem Final.ok {α : Type} (value : α) : Final (.ok value) := by
  rintro failure ⟨⟩

theorem Final.error {α : Type} {failure : Failure} (final : failure.isTransient = false) :
    Final (.error failure : Except Failure α) := by
  rintro other ⟨⟩
  exact final

/-- Cancellation that has not happened has not happened any earlier. -/
theorem cancelledBy_mono {cancelAt : Option Nat} {earlier later : Nat} (order : earlier ≤ later)
    (running : cancelledBy cancelAt later = false) : cancelledBy cancelAt earlier = false := by
  cases cancelAt with
  | none => rfl
  | some moment =>
      have inTime := of_decide_eq_false running
      exact decide_eq_false (by omega)

namespace RetryPolicy

variable {σ α : Type}

/-- What a run comes to whose last attempt came to `outcome`. -/
def verdict (policy : RetryPolicy) (outcome : Except Failure α) : Except Failure α :=
  match outcome with
  | .ok answer => .ok answer
  | .error failure =>
      .error (if failure.isTransient then .exhausted policy.attempts.toNat failure else failure)

theorem verdict_of_final (policy : RetryPolicy) {outcome : Except Failure α}
    (final : Final outcome) : policy.verdict outcome = outcome := by
  cases outcome with
  | ok answer => rfl
  | error failure =>
      have lasting := final failure rfl
      simp only [verdict, lasting, Bool.false_eq_true, if_false]

/-- A run starts with as many attempts as its policy allows. -/
theorem budget_run (policy : RetryPolicy) :
    0 + (policy.attempts.toNat - 1) + 1 = policy.attempts.toNat := by
  have allowsOne : policy.attempts.toNat ≠ 0 := fun none =>
    policy.attempts_ne_zero (UInt32.toNat_inj.1 none)
  omega

/-! ## One step -/

section Step

variable (policy : RetryPolicy) (wait : Wait) {cancelAt : Option Nat} {attempt : σ → Attempt σ α}
  {left started now : Nat} {state : σ}

theorem runFrom_of_cancelled (past : cancelledBy cancelAt now = true) :
    policy.runFrom wait cancelAt attempt left started now state =
      cutOff cancelAt started now state [] := by
  rw [runFrom, if_pos past]

/-- An attempt that is cut off is all that is left of a run. -/
theorem runFrom_of_cut_attempt (running : cancelledBy cancelAt now = false)
    (broken : cancelledBy cancelAt (now + (attempt state).takes) = true) :
    policy.runFrom wait cancelAt attempt left started now state =
      cutOff cancelAt (started + 1) now (attempt state).state
        [.attempt now (cutAt cancelAt now)] := by
  rw [runFrom, if_neg (ne_true_of_eq_false running)]
  exact if_pos broken

/-- The attempt of a run that is final, or the last one that is allowed, is all that is left of it. -/
theorem runFrom_of_ends (budget : started + left + 1 = policy.attempts.toNat)
    (inTime : cancelledBy cancelAt (now + (attempt state).takes) = false)
    (ends : left = 0 ∨ Final (attempt state).result) :
    policy.runFrom wait cancelAt attempt left started now state =
      ⟨policy.verdict (attempt state).result, started + 1, now + (attempt state).takes,
        (attempt state).state, [.attempt now (now + (attempt state).takes)]⟩ := by
  have running := cancelledBy_mono (Nat.le_add_right now (attempt state).takes) inTime
  rw [runFrom, if_neg (ne_true_of_eq_false running)]
  dsimp only
  rw [if_neg (ne_true_of_eq_false inTime)]
  cases outcome : (attempt state).result with
  | ok answer => rfl
  | error failure =>
      rcases ends with none | final
      · subst none
        cases transient : failure.isTransient with
        | false => simp only [verdict, transient, Bool.false_eq_true, if_false]
        | true =>
            have counted : started + 1 = policy.attempts.toNat := budget
            simp only [verdict, transient, if_true, counted]
      · have lasting := final failure outcome
        simp only [verdict, lasting, Bool.false_eq_true, if_false]

/-- A failure after which another attempt is made, if one is left. -/
theorem exists_transient {outcome : Except Failure α} (another : ¬Final outcome) :
    ∃ failure, outcome = .error failure ∧ failure.isTransient = true := by
  cases outcome with
  | ok answer => exact absurd (Final.ok answer) another
  | error failure =>
      exact ⟨failure, rfl, Bool.of_not_eq_false fun lasting => another (Final.error lasting)⟩

/-- A wait that is cut off is the last that a run does. -/
theorem runFrom_of_cut_wait (another : ¬Final (attempt state).result)
    (inTime : cancelledBy cancelAt (now + (attempt state).takes) = false) :
    let ended := now + (attempt state).takes
    let asked := policy.delayAfter (started + 1)
    cancelledBy cancelAt (ended + wait asked ended) = true →
    policy.runFrom wait cancelAt attempt (left + 1) started now state =
      cutOff cancelAt (started + 1) ended (attempt state).state
        [.attempt now ended, .wait asked ended (cutAt cancelAt ended)] := by
  intro ended asked broken
  have running := cancelledBy_mono (Nat.le_add_right now (attempt state).takes) inTime
  obtain ⟨failure, outcome, transient⟩ := exists_transient another
  rw [runFrom, if_neg (ne_true_of_eq_false running)]
  dsimp only
  rw [if_neg (ne_true_of_eq_false inTime), outcome]
  dsimp only
  rw [if_pos transient]
  exact if_pos broken

/-- Behind an attempt that another one may help, a run waits and goes on. -/
theorem runFrom_of_transient (another : ¬Final (attempt state).result) :
    let ended := now + (attempt state).takes
    let asked := policy.delayAfter (started + 1)
    let resumed := ended + wait asked ended
    cancelledBy cancelAt resumed = false →
    policy.runFrom wait cancelAt attempt (left + 1) started now state =
      (policy.runFrom wait cancelAt attempt left (started + 1) resumed (attempt state).state).behind
        [.attempt now ended, .wait asked ended resumed] := by
  intro ended asked resumed running
  have inTime : cancelledBy cancelAt ended = false :=
    cancelledBy_mono (Nat.le_add_right ended (wait asked ended)) running
  have begun := cancelledBy_mono (Nat.le_add_right now (attempt state).takes) inTime
  obtain ⟨failure, outcome, transient⟩ := exists_transient another
  conv => lhs; rw [runFrom, if_neg (ne_true_of_eq_false begun)]
  dsimp only
  rw [if_neg (ne_true_of_eq_false inTime), outcome]
  dsimp only
  rw [if_pos transient]
  exact if_neg (ne_true_of_eq_false running)

end Step

/-! ## What attempts preserve -/

/-- A run whose first attempt takes no time and is final ends with it, unless it is cancelled. -/
theorem run_of_final (policy : RetryPolicy) (wait : Wait) (cancelAt : Option Nat)
    {attempt : σ → Attempt σ α} (now : Nat) {state : σ} (immediate : (attempt state).takes = 0)
    (final : Final (attempt state).result) :
    policy.run wait cancelAt attempt now state =
      if cancelledBy cancelAt now then cutOff cancelAt 0 now state []
      else ⟨(attempt state).result, 1, now, (attempt state).state, [.attempt now now]⟩ := by
  rw [run]
  cases cancelled : cancelledBy cancelAt now with
  | true => exact policy.runFrom_of_cancelled wait cancelled
  | false =>
      have inTime : cancelledBy cancelAt (now + (attempt state).takes) = false := by
        rw [immediate, Nat.add_zero, cancelled]
      rw [policy.runFrom_of_ends wait policy.budget_run inTime (Or.inr final),
        policy.verdict_of_final final, immediate]
      rfl

/-- What every attempt preserves holds behind a run. -/
theorem preserved_runFrom (policy : RetryPolicy) (wait : Wait) (cancelAt : Option Nat)
    {attempt : σ → Attempt σ α} {Holds : σ → Prop}
    (preserved : ∀ state, Holds state → Holds (attempt state).state)
    (left started now : Nat) {state : σ} (holds : Holds state) :
    Holds (policy.runFrom wait cancelAt attempt left started now state).state := by
  fun_induction runFrom policy wait cancelAt attempt left started now state with
  | case1 => exact holds
  | case2 => exact preserved _ holds
  | case3 => exact preserved _ holds
  | case4 => exact preserved _ holds
  | case5 => exact preserved _ holds
  | case6 started now state _ _ _ _ _ _ _ _ _ _ _ ih => exact ih (preserved state holds)
  | case7 => exact preserved _ holds

/-- A run that is not cancelled before it begins makes its first attempt. -/
theorem preserved_run (policy : RetryPolicy) (wait : Wait) {cancelAt : Option Nat}
    {attempt : σ → Attempt σ α} {Holds : σ → Prop}
    (preserved : ∀ state, Holds state → Holds (attempt state).state)
    {now : Nat} (running : cancelledBy cancelAt now = false) {state : σ}
    (first : Holds (attempt state).state) :
    Holds (policy.run wait cancelAt attempt now state).state := by
  unfold run
  generalize policy.attempts.toNat - 1 = left
  generalize 0 = started
  fun_cases runFrom policy wait cancelAt attempt left started now state with
  | case1 =>
      rename_i cancelled
      rw [running] at cancelled
      cases cancelled
  | case6 =>
      exact preserved_runFrom policy wait cancelAt preserved _ _ _ first
  | _ => exact first

/--
What attempts preserve, unless they end with some failure that is not worth another attempt, holds
behind a run that did not end with that failure.
-/
theorem holds_runFrom (policy : RetryPolicy) (wait : Wait) (cancelAt : Option Nat)
    {attempt : σ → Attempt σ α} {fatal : Failure} (final : fatal.isTransient = false)
    (immediate : ∀ state, (attempt state).takes = 0) {Holds : σ → Prop}
    (preserved : ∀ state, Holds state → (attempt state).result ≠ .error fatal →
      Holds (attempt state).state)
    (left started now : Nat) {state : σ} (holds : Holds state)
    (survived : (policy.runFrom wait cancelAt attempt left started now state).result ≠ .error fatal) :
    Holds (policy.runFrom wait cancelAt attempt left started now state).state := by
  have worthwhile : ∀ {failure : Failure}, failure.isTransient = true →
      (.error failure : Except Failure α) ≠ .error fatal := by
    rintro _ transient ⟨⟩
    rw [final] at transient
    cases transient
  fun_induction runFrom policy wait cancelAt attempt left started now state with
  | case1 => exact holds
  | case2 left started now state running played ended late =>
      -- An attempt that takes no time cannot be cut off.
      have instant : ended = now := by
        change now + (attempt state).takes = now
        rw [immediate, Nat.add_zero]
      rw [instant] at late
      exact absurd late running
  | case3 left started now state _ _ _ _ _ answer outcome =>
      exact preserved state holds (by rw [outcome]; nofun)
  | case4 started now state _ _ _ _ _ failure outcome transient =>
      exact preserved state holds (by rw [outcome]; exact worthwhile transient)
  | case5 started now state _ _ _ _ failure outcome transient =>
      exact preserved state holds (by rw [outcome]; exact worthwhile transient)
  | case6 started now state _ _ _ _ failure outcome transient _ _ _ _ ih =>
      exact ih (preserved state holds (by rw [outcome]; exact worthwhile transient)) survived
  | case7 left started now state _ _ _ _ _ failure outcome =>
      exact preserved state holds (by rw [outcome]; exact survived)

/--
A run that succeeds ends with an attempt that does, made in a state in which holds what the failed
attempts before it preserved.
-/
theorem exists_last_of_runFrom (policy : RetryPolicy) (wait : Wait) (cancelAt : Option Nat)
    {attempt : σ → Attempt σ α} {Holds : σ → Prop}
    (preserved : ∀ state failure, Holds state → (attempt state).result = .error failure →
      Holds (attempt state).state)
    (left started now : Nat) {state : σ} (holds : Holds state) {answer : α}
    (succeeded : (policy.runFrom wait cancelAt attempt left started now state).result = .ok answer) :
    ∃ last, Holds last ∧ (attempt last).result = .ok answer ∧
      (policy.runFrom wait cancelAt attempt left started now state).state = (attempt last).state := by
  fun_induction runFrom policy wait cancelAt attempt left started now state with
  | case1 => cases succeeded
  | case2 => cases succeeded
  | case3 left started now state _ _ _ _ _ answer outcome =>
      cases succeeded
      exact ⟨state, holds, outcome, rfl⟩
  | case4 => cases succeeded
  | case5 => cases succeeded
  | case6 started now state _ _ _ _ failure outcome _ _ _ _ _ ih =>
      exact ih (preserved state failure holds outcome) succeeded
  | case7 => cases succeeded

end RetryPolicy

end Folio
