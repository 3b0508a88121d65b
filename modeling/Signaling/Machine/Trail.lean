import Mathlib.Data.List.Basic

namespace Machine

variable {σ ε : Type*}

/-- A finite run of a partial step function. The list holds every step taken, the latest
first, as the state the step left and its event. -/
inductive Trail (step : σ → ε → Option σ) (initial : σ) : List (σ × ε) → σ → Prop
  | start : Trail step initial [] initial
  | next {past s e t} : Trail step initial past s → step s e = some t →
      Trail step initial ((s, e) :: past) t

/-- `good` holds of every state the run went through, each with the steps before it. -/
def Always (good : List (σ × ε) → σ → Prop) : List (σ × ε) → σ → Prop
  | [], s => good [] s
  | (r, e) :: past, s => good ((r, e) :: past) s ∧ Always good past r

/-- `allowed` holds of every step of the run, judged by the state before it and the steps
before that. -/
def Throughout (allowed : List (σ × ε) → σ → ε → Prop) : List (σ × ε) → Prop
  | [] => True
  | (s, e) :: past => allowed past s e ∧ Throughout allowed past

/-- Runs the events in order. `past` is what has been done already. -/
def execute (step : σ → ε → Option σ) : List (σ × ε) → σ → List ε → Option (List (σ × ε) × σ)
  | past, s, [] => some (past, s)
  | past, s, e :: rest =>
    match step s e with
    | some t => execute step ((s, e) :: past) t rest
    | none => none

instance decidableThroughout {allowed : List (σ × ε) → σ → ε → Prop}
    [∀ past s e, Decidable (allowed past s e)] : ∀ past, Decidable (Throughout allowed past)
  | [] => isTrue trivial
  | (s, e) :: past =>
    haveI : Decidable (Throughout allowed past) := decidableThroughout past
    inferInstanceAs (Decidable (allowed past s e ∧ Throughout allowed past))

/-- The event was the last one, and the state before it and the run up to there pass the check. -/
def endsWith [DecidableEq ε] (e : ε) (check : σ → List (σ × ε) → Bool) : List (σ × ε) → Bool
  | [] => false
  | (s, e') :: past => e' = e && check s past

theorem endsWith_iff [DecidableEq ε] {e : ε} {check : σ → List (σ × ε) → Bool}
    {steps : List (σ × ε)} : endsWith e check steps = true ↔
      ∃ s past, steps = (s, e) :: past ∧ check s past = true := by
  cases steps with
  | nil => simp [endsWith]
  | cons last past =>
    obtain ⟨s, e'⟩ := last
    simp only [endsWith, Bool.and_eq_true, decide_eq_true_eq, List.cons.injEq, Prod.mk.injEq]
    constructor
    · rintro ⟨rfl, passed⟩
      exact ⟨s, past, ⟨⟨rfl, rfl⟩, rfl⟩, passed⟩
    · rintro ⟨_, _, ⟨⟨rfl, rfl⟩, rfl⟩, passed⟩
      exact ⟨rfl, passed⟩

variable {step : σ → ε → Option σ} {initial : σ}

theorem Always.here {good : List (σ × ε) → σ → Prop} {past : List (σ × ε)} {s : σ}
    (always : Always good past s) : good past s := by
  cases past with
  | nil => exact always
  | cons => exact always.1

theorem Throughout.and {one two : List (σ × ε) → σ → ε → Prop} {past : List (σ × ε)}
    (first : Throughout one past) (second : Throughout two past) :
    Throughout (fun past s e => one past s e ∧ two past s e) past := by
  induction past with
  | nil => trivial
  | cons last past ih => exact ⟨⟨first.1, second.1⟩, ih first.2 second.2⟩

theorem Throughout.imp {one two : List (σ × ε) → σ → ε → Prop} {past : List (σ × ε)} (all : Throughout one past)
    (implies : ∀ {past s e}, one past s e → two past s e) : Throughout two past := by
  induction past with
  | nil => trivial
  | cons last past ih => exact ⟨implies all.1, ih all.2⟩

theorem Trail.execute {past final : List (σ × ε)} {s t : σ} {events : List ε}
    (run : Trail step initial past s) (done : execute step past s events = some (final, t)) :
    Trail step initial final t := by
  induction events generalizing past s with
  | nil =>
    cases Option.some.inj done
    exact run
  | cons e rest ih =>
    rw [Machine.execute] at done
    split at done
    · rename_i next stepped
      exact ih (run.next stepped) done
    · simp at done

theorem execute_trail {final : List (σ × ε)} {t : σ} {events : List ε}
    (done : execute step [] initial events = some (final, t)) : Trail step initial final t :=
  Trail.start.execute done

/-- A run is computed once, and what is checked of its outcome may then be used as a fact. -/
theorem execute_check (check : List (σ × ε) × σ → Bool) {events : List ε}
    (passed : (execute step [] initial events).any check = true) :
    ∃ past s, execute step [] initial events = some (past, s) ∧ check (past, s) = true := by
  obtain ⟨⟨past, s⟩, done, checked⟩ := (Option.any_eq_true _ _).mp passed
  exact ⟨past, s, done, checked⟩

theorem Trail.trans {past later : List (σ × ε)} {s t : σ} (run : Trail step initial past s)
    (onward : Trail step s later t) : Trail step initial (later ++ past) t := by
  induction onward with
  | start => exact run
  | next _ stepped ih => exact ih.next stepped

/-- A measure that every step decreases bounds the length of a run. -/
theorem Trail.length_add_le {measure : σ → Nat}
    (decreases : ∀ s e t, step s e = some t → measure t < measure s)
    {past : List (σ × ε)} {s : σ} (run : Trail step initial past s) :
    past.length + measure s ≤ measure initial := by
  induction run with
  | start => simp
  | next previous stepped ih =>
    have less := decreases _ _ _ stepped
    simp only [List.length_cons]
    omega

/-- The invariant rule. The steps before the current one may be used as hypotheses. -/
theorem Trail.invariant (good : List (σ × ε) → σ → Prop) (atStart : good [] initial)
    (kept : ∀ past s e t, Trail step initial past s → good past s → step s e = some t →
      good ((s, e) :: past) t)
    {past : List (σ × ε)} {s : σ} (run : Trail step initial past s) : good past s := by
  induction run with
  | start => exact atStart
  | next previous stepped ih => exact kept _ _ _ _ previous ih stepped

/-- The invariant rule for runs all of whose steps are allowed. -/
theorem Trail.invariant_of_allowed (good : List (σ × ε) → σ → Prop)
    {allowed : List (σ × ε) → σ → ε → Prop} (atStart : good [] initial)
    (kept : ∀ past s e t, Trail step initial past s → good past s → allowed past s e →
      step s e = some t → good ((s, e) :: past) t)
    {past : List (σ × ε)} {s : σ} (run : Trail step initial past s)
    (within : Throughout allowed past) : good past s := by
  induction run with
  | start => exact atStart
  | next previous stepped ih => exact kept _ _ _ _ previous (ih within.2) within.1 stepped

/-- The invariant rule for runs that were `good` in every earlier state and are so now. -/
theorem Trail.invariant_of_always {good : List (σ × ε) → σ → Prop}
    (kept : List (σ × ε) → σ → Prop) (atStart : kept [] initial)
    (carried : ∀ past s e t, Trail step initial past s → kept past s → good ((s, e) :: past) t →
      step s e = some t → kept ((s, e) :: past) t)
    {past : List (σ × ε)} {s : σ} (run : Trail step initial past s)
    (always : Always good past s) : kept past s := by
  induction run with
  | start => exact atStart
  | next previous stepped ih => exact carried _ _ _ _ previous (ih always.2) always.1 stepped

/-- A run of allowed steps is one of steps that are allowed for another reason, when they are so after such a
run. -/
theorem Trail.throughout_of_allowed {allowed other : List (σ × ε) → σ → ε → Prop}
    (holds : ∀ past s e t, Trail step initial past s → Throughout allowed past → allowed past s e →
      step s e = some t → other past s e)
    {past : List (σ × ε)} {s : σ} (run : Trail step initial past s) (within : Throughout allowed past) :
    Throughout other past := by
  induction run with
  | start => trivial
  | next previous stepped ih => exact ⟨holds _ _ _ _ previous within.2 within.1 stepped, ih within.2⟩

/-- What holds at every point of every allowed run holds all along such a run. -/
theorem Trail.always_of_allowed {good : List (σ × ε) → σ → Prop}
    {allowed : List (σ × ε) → σ → ε → Prop}
    (holds : ∀ past s, Trail step initial past s → Throughout allowed past → good past s)
    {past : List (σ × ε)} {s : σ} (run : Trail step initial past s)
    (within : Throughout allowed past) : Always good past s := by
  induction run with
  | start => exact holds _ _ .start trivial
  | next previous stepped ih => exact ⟨holds _ _ (previous.next stepped) within, ih within.2⟩

/-- When a good state is only reached by a step that is allowed, a run that stays good is one of allowed
steps. -/
theorem Trail.throughout_of_always {good : List (σ × ε) → σ → Prop}
    {allowed : List (σ × ε) → σ → ε → Prop}
    (needed : ∀ past s e t, Trail step initial past s → step s e = some t → good ((s, e) :: past) t →
      allowed past s e)
    {past : List (σ × ε)} {s : σ} (run : Trail step initial past s) (always : Always good past s) :
    Throughout allowed past := by
  induction run with
  | start => trivial
  | next previous stepped ih => exact ⟨needed _ _ _ _ previous stepped always.1, ih always.2⟩

/-- What holds at every point that a run can reach holds all along a run. -/
theorem Trail.always {good : List (σ × ε) → σ → Prop}
    (holds : ∀ past s, Trail step initial past s → good past s)
    {past : List (σ × ε)} {s : σ} (run : Trail step initial past s) : Always good past s := by
  induction run with
  | start => exact holds _ _ .start
  | next previous stepped ih => exact ⟨holds _ _ (previous.next stepped), ih⟩

/-- When `good` survives a step exactly if the step is allowed, a run stays good exactly if
all its steps are allowed. -/
theorem Trail.always_iff {good : List (σ × ε) → σ → Prop}
    {allowed : List (σ × ε) → σ → ε → Prop} (atStart : good [] initial)
    (exact : ∀ past s e t, Trail step initial past s → Always good past s → step s e = some t →
      (good ((s, e) :: past) t ↔ allowed past s e))
    {past : List (σ × ε)} {s : σ} (run : Trail step initial past s) :
    Always good past s ↔ Throughout allowed past := by
  induction run with
  | start => exact ⟨fun _ => trivial, fun _ => atStart⟩
  | next previous stepped ih =>
    constructor
    · intro always
      exact ⟨(exact _ _ _ _ previous always.2 stepped).mp always.1, ih.mp always.2⟩
    · intro within
      have before := ih.mpr within.2
      exact ⟨(exact _ _ _ _ previous before stepped).mpr within.1, before⟩

/-- The same for runs within bounds that keep an invariant. -/
theorem Trail.always_iff_of_allowed {good : List (σ × ε) → σ → Prop}
    {within allowed : List (σ × ε) → σ → ε → Prop} (kept : List (σ × ε) → σ → Prop)
    (atStart : kept [] initial) (goodAtStart : good [] initial)
    (carried : ∀ past s e t, Trail step initial past s → kept past s → within past s e →
      step s e = some t → kept ((s, e) :: past) t)
    (exact : ∀ past s e t, kept past s → within past s e → Always good past s → step s e = some t →
      (good ((s, e) :: past) t ↔ allowed past s e))
    {past : List (σ × ε)} {s : σ} (run : Trail step initial past s) (bounds : Throughout within past) :
    Always good past s ↔ Throughout allowed past := by
  induction run with
  | start => exact ⟨fun _ => trivial, fun _ => goodAtStart⟩
  | next previous stepped ih =>
    have before := previous.invariant_of_allowed kept atStart carried bounds.2
    constructor
    · intro always
      exact ⟨(exact _ _ _ _ before bounds.1 always.2 stepped).mp always.1, (ih bounds.2).mp always.2⟩
    · intro all
      have always := (ih bounds.2).mpr all.2
      exact ⟨(exact _ _ _ _ before bounds.1 always stepped).mpr all.1, always⟩

/-- When an invariant of the allowed steps makes a step good exactly if it is allowed, all steps of a
run are good exactly if all are allowed. -/
theorem Trail.throughout_iff {good allowed : List (σ × ε) → σ → ε → Prop} (kept : List (σ × ε) → σ → Prop)
    (atStart : kept [] initial)
    (carried : ∀ past s e t, Trail step initial past s → kept past s → allowed past s e →
      step s e = some t → kept ((s, e) :: past) t)
    (exact : ∀ past s e t, kept past s → step s e = some t → (good past s e ↔ allowed past s e))
    {past : List (σ × ε)} {s : σ} (run : Trail step initial past s) :
    Throughout good past ↔ Throughout allowed past := by
  induction run with
  | start => exact Iff.rfl
  | next previous stepped ih =>
    have now (within : Throughout allowed _) :=
      exact _ _ _ _ (previous.invariant_of_allowed kept atStart carried within) stepped
    constructor
    · intro all
      have within := ih.mp all.2
      exact ⟨(now within).mp all.1, within⟩
    · intro within
      exact ⟨(now within.2).mpr within.1, ih.mpr within.2⟩

end Machine
