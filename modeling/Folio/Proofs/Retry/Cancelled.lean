import Folio.Proofs.Retry.Timeline

/-!
# Cancelled runs

A run that is cancelled does what it would have done anyway up to the moment of
cancellation, and ends there.  What is under way at that moment, an attempt or a wait, is
broken off, and nothing is begun any more.  A run that is over by then is not changed.
-/

namespace Folio

/-! ## What is done before a moment -/

namespace Activity

def begun : Activity → Nat
  | attempt begun _ | wait _ begun _ => begun

def isAttempt : Activity → Bool
  | attempt _ _ => true
  | wait _ _ _ => false

/-- An activity that is broken off at a moment, unless it is over by then. -/
def brokenOff (moment : Nat) : Activity → Activity
  | attempt begun ended => attempt begun (min ended moment)
  | wait asked begun ended => wait asked begun (min ended moment)

/-- What of some activities is done before a moment. -/
def before (moment : Nat) (activities : List Activity) : List Activity :=
  (activities.filter (·.begun < moment)).map (brokenOff moment)

def attemptCount (activities : List Activity) : Nat := activities.countP isAttempt

variable {moment : Nat} {activities : List Activity}

theorem before_eq_nil (late : ∀ activity ∈ activities, moment ≤ activity.begun) :
    before moment activities = [] := by
  have none : activities.filter (·.begun < moment) = [] := by
    apply List.filter_eq_nil_iff.2
    intro activity mem
    simpa using late activity mem
  rw [before, none, List.map_nil]

theorem before_cons {activity : Activity} (early : activity.begun < moment) :
    before moment (activity :: activities) = activity.brokenOff moment :: before moment activities := by
  simp [before, early]

theorem attemptCount_attempt (begun ended : Nat) :
    attemptCount (attempt begun ended :: activities) = attemptCount activities + 1 :=
  List.countP_cons_of_pos rfl

theorem attemptCount_wait (asked : Duration) (begun ended : Nat) :
    attemptCount (wait asked begun ended :: activities) = attemptCount activities :=
  List.countP_cons_of_neg Bool.false_ne_true

end Activity

theorem cancelledBy_some_iff {cancelAt moment : Nat} :
    cancelledBy (some cancelAt) moment = true ↔ cancelAt ≤ moment := decide_eq_true_iff

theorem cancelledBy_some_eq_false_iff {cancelAt moment : Nat} :
    cancelledBy (some cancelAt) moment = false ↔ moment < cancelAt :=
  decide_eq_false_iff_not.trans Nat.not_le

namespace RetryPolicy

variable {σ α : Type}

/-! ## Where a run begins and how often it attempts -/

/-- A run does nothing before it begins. -/
theorem begun_runFrom (policy : RetryPolicy) (wait : Wait) (cancelAt : Option Nat)
    (attempt : σ → Attempt σ α) (left started now : Nat) (state : σ) :
    let run := policy.runFrom wait cancelAt attempt left started now state
    (∀ activity ∈ run.activities, now ≤ activity.begun) ∧ now ≤ run.ended := by
  fun_induction runFrom policy wait cancelAt attempt left started now state with
  | case1 => exact ⟨List.forall_mem_nil _, Nat.le_max_left _ _⟩
  | case2 => exact ⟨List.forall_mem_singleton.2 (Nat.le_refl _), Nat.le_max_left _ _⟩
  | case5 =>
      refine ⟨?_, Nat.le_trans (Nat.le_add_right _ _) (Nat.le_max_left _ _)⟩
      exact List.forall_mem_cons.2
        ⟨Nat.le_refl _, List.forall_mem_singleton.2 (Nat.le_add_right _ _)⟩
  | case6 started now state _ played ended _ failure _ _ left asked resumed _ ih =>
      obtain ⟨behind, ends⟩ := ih
      have order : now ≤ ended := Nat.le_add_right _ _
      have waited : now ≤ resumed := Nat.le_trans order (Nat.le_add_right _ _)
      refine ⟨?_, Nat.le_trans waited ends⟩
      exact List.forall_mem_cons.2 ⟨Nat.le_refl now, List.forall_mem_cons.2
        ⟨order, fun activity mem => Nat.le_trans waited (behind activity mem)⟩⟩
  | _ => exact ⟨List.forall_mem_singleton.2 (Nat.le_refl _), Nat.le_add_right _ _⟩

/-- A run that nobody cancels begins with an attempt, and does nothing else before this is over. -/
theorem exists_runFrom (policy : RetryPolicy) (wait : Wait) (attempt : σ → Attempt σ α)
    {left started : Nat} (now : Nat) (state : σ)
    (budget : started + left + 1 = policy.attempts.toNat) :
    let ended := now + (attempt state).takes
    let run := policy.runFrom wait none attempt left started now state
    ∃ rest, run.activities = .attempt now ended :: rest ∧
      (∀ activity ∈ rest, ended ≤ activity.begun) ∧ ended ≤ run.ended := by
  intro ended run
  by_cases ends : left = 0 ∨ Final (attempt state).result
  · have single : run = _ := policy.runFrom_of_ends wait budget rfl ends
    rw [single]
    exact ⟨[], rfl, List.forall_mem_nil _, Nat.le_refl _⟩
  · obtain ⟨more, another⟩ := not_or.1 ends
    obtain ⟨left, rfl⟩ := Nat.exists_eq_succ_of_ne_zero more
    have goesOn : run = _ := policy.runFrom_of_transient wait another rfl
    rw [goesOn]
    let resumed := ended + wait (policy.delayAfter (started + 1)) ended
    have waited : ended ≤ resumed := Nat.le_add_right _ _
    obtain ⟨behind, laterEnds⟩ :=
      policy.begun_runFrom wait none attempt left (started + 1) resumed (attempt state).state
    refine ⟨.wait _ ended resumed :: _, rfl, ?_, Nat.le_trans waited laterEnds⟩
    exact List.forall_mem_cons.2
      ⟨Nat.le_refl ended, fun activity mem => Nat.le_trans waited (behind activity mem)⟩

/-- A run counts the attempts that it makes, and leaves the state behind the last of them. -/
theorem started_runFrom (policy : RetryPolicy) (wait : Wait) (cancelAt : Option Nat)
    (attempt : σ → Attempt σ α) (left started now : Nat) (state : σ) :
    let run := policy.runFrom wait cancelAt attempt left started now state
    run.started = started + Activity.attemptCount run.activities ∧
      run.state = (fun state => (attempt state).state)^[Activity.attemptCount run.activities] state := by
  fun_induction runFrom policy wait cancelAt attempt left started now state with
  | case6 started now state _ played ended _ failure _ _ left asked resumed _ ih =>
      obtain ⟨counted, stateBehind⟩ := ih
      dsimp only [Run.behind, List.cons_append, List.nil_append]
      rw [Activity.attemptCount_attempt, Activity.attemptCount_wait, counted, stateBehind,
        Function.iterate_succ_apply]
      exact ⟨by omega, rfl⟩
  | _ => exact ⟨rfl, rfl⟩

/-! ## Comparing runs -/

/--
Whether a run that is cancelled at a moment goes like the one that nobody cancels up to that moment,
and ends there if that one goes on.
-/
structure CutsOff (cancelAt now : Nat) (plain cut : Run σ α) : Prop where
  activities : cut.activities = Activity.before cancelAt plain.activities
  unchanged : plain.ended < cancelAt → cut = plain
  cancelled : cancelAt ≤ plain.ended →
    cut.result = .error .cancelled ∧ cut.ended = max now cancelAt

namespace CutsOff

variable {cancelAt now ended resumed : Nat} {plain cut : Run σ α}

/-- A run that ends in time with its first attempt is not changed. -/
theorem of_single {result : Except Failure α} {started : Nat} {state : σ} (order : now ≤ ended)
    (inTime : ended < cancelAt) :
    CutsOff cancelAt now ⟨result, started, ended, state, [.attempt now ended]⟩
      ⟨result, started, ended, state, [.attempt now ended]⟩ := by
  refine ⟨?_, fun _ => rfl, fun late => absurd inTime (Nat.not_lt.2 late)⟩
  have early : (Activity.attempt now ended).begun < cancelAt := Nat.lt_of_le_of_lt order inTime
  rw [Activity.before_cons early, Activity.brokenOff, Nat.min_eq_left (Nat.le_of_lt inTime)]
  rfl

/-- What is done in front of a run in time does not change how it is cut off. -/
theorem behind_wait (later : CutsOff cancelAt resumed plain cut) (asked : Duration)
    (order : now ≤ ended) (wait : ended ≤ resumed) (inTime : resumed < cancelAt) :
    CutsOff cancelAt now (plain.behind [.attempt now ended, .wait asked ended resumed])
      (cut.behind [.attempt now ended, .wait asked ended resumed]) := by
  have endedInTime : ended < cancelAt := Nat.lt_of_le_of_lt wait inTime
  have earlyAttempt : (Activity.attempt now ended).begun < cancelAt :=
    Nat.lt_of_le_of_lt order endedInTime
  have earlyWait : (Activity.wait asked ended resumed).begun < cancelAt := endedInTime
  refine ⟨?_, ?_, ?_⟩
  · dsimp only [Run.behind, List.cons_append, List.nil_append]
    rw [Activity.before_cons earlyAttempt, Activity.before_cons earlyWait, Activity.brokenOff,
      Activity.brokenOff, Nat.min_eq_left (Nat.le_of_lt endedInTime),
      Nat.min_eq_left (Nat.le_of_lt inTime), later.activities]
  · intro finished
    rw [later.unchanged finished]
  · intro goesOn
    obtain ⟨result, stopped⟩ := later.cancelled goesOn
    refine ⟨result, stopped.trans ?_⟩
    omega

/-- A run that is broken off after what the other one does in time is cut off. -/
theorem of_broken {done : List Activity} {started moment : Nat} {state : σ}
    (activities : done = Activity.before cancelAt plain.activities) (late : cancelAt ≤ plain.ended)
    (same : max moment cancelAt = max now cancelAt) :
    CutsOff cancelAt now plain (cutOff (some cancelAt) started moment state done) :=
  ⟨activities, fun finished => absurd late (Nat.not_le.2 finished), fun _ => ⟨rfl, same⟩⟩

end CutsOff

theorem cutAt_some {cancelAt now : Nat} (running : now < cancelAt) :
    cutAt (some cancelAt) now = cancelAt := Nat.max_eq_right (Nat.le_of_lt running)

section Step

variable (policy : RetryPolicy) (wait : Wait) {cancelAt : Nat} {attempt : σ → Attempt σ α}
  {left started now : Nat} {state : σ}

/-- Cancelled before its first attempt: nothing that follows begins in time. -/
theorem cutsOff_of_past (past : cancelAt ≤ now) :
    CutsOff cancelAt now (policy.runFrom wait none attempt left started now state)
      (policy.runFrom wait (some cancelAt) attempt left started now state) := by
  rw [policy.runFrom_of_cancelled wait (cancelledBy_some_iff.2 past)]
  obtain ⟨later, ends⟩ := policy.begun_runFrom wait none attempt left started now state
  have nothing := Activity.before_eq_nil fun activity mem => Nat.le_trans past (later activity mem)
  exact .of_broken nothing.symm (Nat.le_trans past ends) rfl

/-- Cancelled within its first attempt, whatever that would have come to. -/
theorem cutsOff_of_cut_attempt (budget : started + left + 1 = policy.attempts.toNat)
    (running : now < cancelAt) (broken : cancelAt ≤ now + (attempt state).takes) :
    CutsOff cancelAt now (policy.runFrom wait none attempt left started now state)
      (policy.runFrom wait (some cancelAt) attempt left started now state) := by
  rw [policy.runFrom_of_cut_attempt wait (cancelledBy_some_eq_false_iff.2 running)
    (cancelledBy_some_iff.2 broken), cutAt_some running]
  obtain ⟨rest, begins, behind, ends⟩ := policy.exists_runFrom wait attempt now state budget
  have nothing : Activity.before cancelAt rest = [] :=
    Activity.before_eq_nil fun activity mem => Nat.le_trans broken (behind activity mem)
  refine .of_broken ?_ (Nat.le_trans broken ends) rfl
  rw [begins, Activity.before_cons running, nothing, Activity.brokenOff, Nat.min_eq_right broken]

/-- Cancelled within the wait behind its first attempt. -/
theorem cutsOff_of_cut_wait (another : ¬Final (attempt state).result)
    (inTime : now + (attempt state).takes < cancelAt) :
    let ended := now + (attempt state).takes
    cancelAt ≤ ended + wait (policy.delayAfter (started + 1)) ended →
    CutsOff cancelAt now (policy.runFrom wait none attempt (left + 1) started now state)
      (policy.runFrom wait (some cancelAt) attempt (left + 1) started now state) := by
  intro ended broken
  rw [policy.runFrom_of_cut_wait wait another (cancelledBy_some_eq_false_iff.2 inTime)
    (cancelledBy_some_iff.2 broken), policy.runFrom_of_transient wait another rfl,
    cutAt_some inTime]
  have order : now ≤ ended := Nat.le_add_right _ _
  have early : now < cancelAt := Nat.lt_of_le_of_lt order inTime
  obtain ⟨behind, ends⟩ :=
    policy.begun_runFrom wait none attempt left (started + 1) _ (attempt state).state
  have nothing := Activity.before_eq_nil fun activity mem =>
    Nat.le_trans broken (behind activity mem)
  refine .of_broken ?_ (Nat.le_trans broken ends) ?_
  · dsimp only [Run.behind, List.cons_append, List.nil_append]
    rw [Activity.before_cons early, Activity.before_cons inTime, nothing, Activity.brokenOff,
      Activity.brokenOff, Nat.min_eq_left (Nat.le_of_lt inTime), Nat.min_eq_right broken]
  · omega

/-- Over with its first attempt, unless cancelled by then. -/
theorem cutsOff_of_ends (budget : started + left + 1 = policy.attempts.toNat)
    (ends : left = 0 ∨ Final (attempt state).result)
    (inTime : now + (attempt state).takes < cancelAt) :
    CutsOff cancelAt now (policy.runFrom wait none attempt left started now state)
      (policy.runFrom wait (some cancelAt) attempt left started now state) := by
  rw [policy.runFrom_of_ends wait budget rfl ends,
    policy.runFrom_of_ends wait budget (cancelledBy_some_eq_false_iff.2 inTime) ends]
  exact .of_single (Nat.le_add_right _ _) inTime

end Step

/-- Cancellation falls before the first attempt, within it, within the wait behind it, or later. -/
theorem cutsOff_runFrom (policy : RetryPolicy) (wait : Wait) (cancelAt : Nat)
    (attempt : σ → Attempt σ α) (left started now : Nat) (state : σ)
    (budget : started + left + 1 = policy.attempts.toNat) :
    CutsOff cancelAt now (policy.runFrom wait none attempt left started now state)
      (policy.runFrom wait (some cancelAt) attempt left started now state) := by
  rcases Nat.lt_or_ge now cancelAt with running | past
  case inr => exact policy.cutsOff_of_past wait past
  rcases Nat.lt_or_ge (now + (attempt state).takes) cancelAt with inTime | broken
  case inr => exact policy.cutsOff_of_cut_attempt wait budget running broken
  by_cases final : Final (attempt state).result
  case pos => exact policy.cutsOff_of_ends wait budget (Or.inr final) inTime
  match left with
  | 0 => exact policy.cutsOff_of_ends wait budget (Or.inl rfl) inTime
  | left + 1 =>
      let ended := now + (attempt state).takes
      let resumed := ended + wait (policy.delayAfter (started + 1)) ended
      rcases Nat.lt_or_ge resumed cancelAt with waited | broken
      · have later := cutsOff_runFrom policy wait cancelAt attempt left (started + 1) resumed
          (attempt state).state (by omega)
        rw [policy.runFrom_of_transient wait final rfl,
          policy.runFrom_of_transient wait final (cancelledBy_some_eq_false_iff.2 waited)]
        exact later.behind_wait _ (Nat.le_add_right _ _) (Nat.le_add_right _ _) waited
      · exact policy.cutsOff_of_cut_wait wait final inTime broken

/--
A run that is over before it is cancelled is the run that nobody cancels.  Any other one comes to
cancellation, at that moment or, where this has passed, at once.  It does what the run that nobody
cancels does before that moment and nothing else: what is under way is broken off, the attempts that
it makes are those begun before, and it leaves the state behind them.
-/
theorem cancellation_cuts_off (policy : RetryPolicy) (wait : Wait) (attempt : σ → Attempt σ α)
    (now cancelAt : Nat) (state : σ) :
    let plain := policy.run wait none attempt now state
    let cut := policy.run wait (some cancelAt) attempt now state
    CutsOff cancelAt now plain cut ∧
    cut.started = Activity.attemptCount (Activity.before cancelAt plain.activities) ∧
    cut.state = (fun state => (attempt state).state)^[cut.started] state := by
  intro plain cut
  have cutsOff : CutsOff cancelAt now plain cut :=
    policy.cutsOff_runFrom wait cancelAt attempt _ 0 now state policy.budget_run
  obtain ⟨counted, stateBehind⟩ :=
    policy.started_runFrom wait (some cancelAt) attempt (policy.attempts.toNat - 1) 0 now state
  rw [Nat.zero_add] at counted
  refine ⟨cutsOff, ?_, ?_⟩
  · rw [← cutsOff.activities]
    exact counted
  · change cut.started = _ at counted
    rw [counted]
    exact stateBehind

end RetryPolicy

end Folio
