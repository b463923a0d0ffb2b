import Folio.Proofs.Retry.Run
import Mathlib.Order.Bounds.Basic

/-!
# What a run does, moment by moment

A run that nobody cancels makes attempts, each in the state behind the one before, up to
the first one that is final or up to the last one that is allowed.  Between two attempts
it asks for the wait that the schedule says, and it does nothing else, however long it is
made to wait.
-/

namespace Folio

/-! ## Attempts in a row -/

namespace Attempt

variable {σ α : Type}

/-- The attempt after `n` others, each made in the state behind the one before. -/
def nth (attempt : σ → Attempt σ α) (state : σ) : Nat → Attempt σ α
  | 0 => attempt state
  | n + 1 => nth attempt (attempt state).state n

end Attempt

/-- The duration of a wait that was asked for. -/
def Activity.asked? : Activity → Option Duration
  | attempt _ _ => none
  | wait asked _ _ => some asked

/-- How long attempts take, for how long one wants to wait after each, and how long one then does. -/
structure Pace where
  takes : Nat → Nat
  asked : Nat → Duration
  wait : Wait

namespace Pace

/-- When the attempt after `n` others begins, if the first one begins at the moment `now`. -/
def begins (pace : Pace) (now : Nat) : Nat → Nat
  | 0 => now
  | n + 1 =>
      let ended := pace.begins now n + pace.takes n
      ended + pace.wait (pace.asked n) ended

def ends (pace : Pace) (now n : Nat) : Nat := pace.begins now n + pace.takes n

/-- What is done up to the end of the attempt after `n` others. -/
def timeline (pace : Pace) (now : Nat) : Nat → List Activity
  | 0 => [.attempt (pace.begins now 0) (pace.ends now 0)]
  | n + 1 =>
      pace.timeline now n ++
        [.wait (pace.asked n) (pace.ends now n) (pace.begins now (n + 1)),
          .attempt (pace.begins now (n + 1)) (pace.ends now (n + 1))]

/-- What is asked for between the attempts is what the pace tells, in order. -/
theorem asked_timeline (pace : Pace) (now n : Nat) :
    (pace.timeline now n).filterMap Activity.asked? = (List.range n).map pace.asked := by
  induction n with
  | zero => rfl
  | succ n ih =>
      rw [timeline, List.filterMap_append, ih, List.range_succ, List.map_append]
      rfl

/-- The pace behind the first attempt and the wait after it. -/
def tail (pace : Pace) : Pace :=
  { pace with takes := fun n => pace.takes (n + 1), asked := fun n => pace.asked (n + 1) }

theorem begins_tail (pace : Pace) (now n : Nat) :
    pace.tail.begins (pace.begins now 1) n = pace.begins now (n + 1) := by
  induction n with
  | zero => rfl
  | succ n ih =>
      rw [begins, ih]
      rfl

theorem ends_tail (pace : Pace) (now n : Nat) :
    pace.tail.ends (pace.begins now 1) n = pace.ends now (n + 1) :=
  congrArg (· + pace.takes (n + 1)) (pace.begins_tail now n)

/-- A timeline begins with the first attempt and the wait after it. -/
theorem timeline_succ (pace : Pace) (now n : Nat) :
    pace.timeline now (n + 1) =
      .attempt now (pace.ends now 0) ::
        .wait (pace.asked 0) (pace.ends now 0) (pace.begins now 1) ::
          pace.tail.timeline (pace.begins now 1) n := by
  induction n with
  | zero => rfl
  | succ n ih =>
      rw [timeline, ih]
      simp only [timeline, begins_tail, ends_tail, List.cons_append]
      rfl

end Pace

namespace RetryPolicy

variable {σ α : Type}

/-- Whether a run ends with the attempt after `n` others: it is final, or none is left. -/
def EndsAfter (policy : RetryPolicy) (attempt : σ → Attempt σ α) (state : σ) (n : Nat) : Prop :=
  n + 1 = policy.attempts.toNat ∨ Final (Attempt.nth attempt state n).result

/--
The pace of a run when `started` attempts have failed: after each further one it asks for the wait
after that many failures.
-/
def paceFrom (policy : RetryPolicy) (wait : Wait) (attempt : σ → Attempt σ α) (started : Nat)
    (state : σ) : Pace where
  takes := fun n => (Attempt.nth attempt state n).takes
  asked := fun n => policy.delayAfter (started + n + 1)
  wait := wait

/-! ## The loop -/

section Loop

variable (policy : RetryPolicy) (wait : Wait) (attempt : σ → Attempt σ α) {started left : Nat}

theorem tail_paceFrom (started : Nat) (state : σ) :
    (policy.paceFrom wait attempt started state).tail =
      policy.paceFrom wait attempt (started + 1) (attempt state).state := by
  have counted : ∀ n, started + (n + 1) + 1 = started + 1 + n + 1 := by omega
  simp only [Pace.tail, paceFrom, counted]
  rfl

/--
A run with `left` more attempts behind the next one makes attempts up to the first that is final, or
all of them.
-/
theorem runFrom_eq (now : Nat) (state : σ) (budget : started + left + 1 = policy.attempts.toNat) :
    ∃ last, IsLeast {n | n = left ∨ Final (Attempt.nth attempt state n).result} last ∧
      policy.runFrom wait none attempt left started now state =
        ⟨policy.verdict (Attempt.nth attempt state last).result, started + last + 1,
          (policy.paceFrom wait attempt started state).ends now last,
          (Attempt.nth attempt state last).state,
          (policy.paceFrom wait attempt started state).timeline now last⟩ := by
  induction left generalizing started now state with
  | zero =>
      refine ⟨0, ⟨Or.inl rfl, fun n _ => Nat.zero_le n⟩, ?_⟩
      exact policy.runFrom_of_ends wait budget rfl (Or.inl rfl)
  | succ left ih =>
      by_cases final : Final (attempt state).result
      · refine ⟨0, ⟨Or.inr final, fun n _ => Nat.zero_le n⟩, ?_⟩
        exact policy.runFrom_of_ends wait budget rfl (Or.inr final)
      · have budgetLater : started + 1 + left + 1 = policy.attempts.toNat := by omega
        obtain ⟨last, ⟨ends, least⟩, later⟩ :=
          ih ((policy.paceFrom wait attempt started state).begins now 1) (attempt state).state
            budgetLater
        refine ⟨last + 1, ⟨?_, ?_⟩, ?_⟩
        · rcases ends with all | finalLater
          · exact Or.inl (congrArg (· + 1) all)
          · exact Or.inr finalLater
        · rintro (_ | n) (all | finalThere)
          · cases all
          · exact absurd finalThere final
          · exact Nat.succ_le_succ (least (Or.inl (Nat.succ.inj all)))
          · exact Nat.succ_le_succ (least (Or.inr finalThere))
        · have counted : started + 1 + last + 1 = started + (last + 1) + 1 := by omega
          rw [← policy.tail_paceFrom, Pace.ends_tail, counted] at later
          rw [Pace.timeline_succ, policy.runFrom_of_transient wait final rfl]
          exact congrArg (fun run : Run σ α =>
            run.behind [.attempt now _, .wait (policy.delayAfter (started + 1)) _ _]) later

end Loop

/-! ## Whole runs -/

/-- The entry of the schedule that is used after that many failures is one of its entries. -/
theorem getElem?_delays (policy : RetryPolicy) (failures : Nat) :
    policy.delays[min failures (policy.delays.length - 1)]? = some (policy.delayAfter failures) := by
  have entries := List.length_pos_iff.2 policy.delays_ne_nil
  have inRange : min failures (policy.delays.length - 1) < policy.delays.length := by omega
  exact List.getElem?_eq_getElem inRange

/--
Whether a run that nobody cancels is over with the attempt after `last` others, and has done and come
to what follows from that.
-/
structure RunsUntil (policy : RetryPolicy) (wait : Wait) (attempt : σ → Attempt σ α) (now : Nat)
    (state : σ) (last : Nat) : Prop where
  /-- The attempt is the first that is final, or the last one that is allowed. -/
  first : IsLeast {n | policy.EndsAfter attempt state n} last
  /-- The run makes the attempts up to this one, waits between them, and does nothing else. -/
  activities : (policy.run wait none attempt now state).activities =
    (policy.paceFrom wait attempt 0 state).timeline now last
  /-- It asks to wait for what the schedule says, once after each failure but the last. -/
  asked : (policy.run wait none attempt now state).activities.filterMap Activity.asked? =
    (List.range last).map fun n => policy.delayAfter (n + 1)
  ended : (policy.run wait none attempt now state).ended =
    (policy.paceFrom wait attempt 0 state).ends now last
  started : (policy.run wait none attempt now state).started = last + 1
  result : (policy.run wait none attempt now state).result =
    policy.verdict (Attempt.nth attempt state last).result
  state : (policy.run wait none attempt now state).state = (Attempt.nth attempt state last).state
  /-- The attempts can be counted with thirty-two bits. -/
  counted : last + 1 ≤ policy.attempts.toNat ∧ policy.attempts.toNat < UInt32.size

/-- The attempt that ends a run that nobody cancels. -/
theorem exists_runsUntil (policy : RetryPolicy) (wait : Wait) (attempt : σ → Attempt σ α)
    (now : Nat) (state : σ) : ∃ last, policy.RunsUntil wait attempt now state last := by
  obtain ⟨last, least, runs⟩ := policy.runFrom_eq wait attempt now state policy.budget_run
  rw [Nat.zero_add] at runs
  have ends : ∀ n, n + 1 = policy.attempts.toNat ↔ n = policy.attempts.toNat - 1 := by
    have := policy.budget_run
    omega
  have allowed : last ≤ policy.attempts.toNat - 1 := least.2 (Or.inl rfl)
  refine ⟨last, ?_, ?_, ?_, ?_, ?_, ?_, ?_, ?_, policy.attempts.toNat_lt⟩
  · simpa only [EndsAfter, ends] using least
  · rw [run, runs]
  · rw [run, runs, Pace.asked_timeline]
    simp only [paceFrom, Nat.zero_add]
  · rw [run, runs]
  · rw [run, runs]
  · rw [run, runs]
  · rw [run, runs]
  · exact (Nat.succ_le_succ allowed).trans (ends _ |>.2 rfl).le

/--
A run that nobody cancels makes attempts up to the first one that is final or the last one that is
allowed, and comes to what that attempt came to, or to its failure as the last of all.  After each
attempt but that one it waits, and asks to wait for the entry of the schedule that the number of
failures tells, or the last entry where there are fewer; it does nothing else.
-/
theorem run_until_final (policy : RetryPolicy) (wait : Wait) (attempt : σ → Attempt σ α) (now : Nat)
    (state : σ) :
    (∀ failures, policy.delays[min failures (policy.delays.length - 1)]? =
      some (policy.delayAfter failures)) ∧
    ∃ last, policy.RunsUntil wait attempt now state last :=
  ⟨policy.getElem?_delays, policy.exists_runsUntil wait attempt now state⟩

end RetryPolicy

end Folio
