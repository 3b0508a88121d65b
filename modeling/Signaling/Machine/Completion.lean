import Signaling.Machine.Trail

/-! Runs that can neither stall nor go on forever. -/
namespace Machine

variable {σ ε : Type*} {step : σ → ε → Option σ} {helps : σ → ε → Prop} {good final : σ → Prop} {measure : σ → Nat}
  {initial s : σ} {past : List (σ × ε)} {n : Nat}

/-- A good state is final, or a step that helps can be taken; and such a step leads to a good state of lower
measure. -/
structure Completes (step : σ → ε → Option σ) (helps : σ → ε → Prop) (good final : σ → Prop) (measure : σ → Nat) :
    Prop where
  goesOn : ∀ s, good s → final s ∨ ∃ e, helps s e ∧ (step s e).isSome = true
  kept : ∀ s e t, good s → helps s e → step s e = some t → good t ∧ measure t < measure s

/-- Runs of steps that help have no more than so many steps, and where one cannot be continued it has reached a
final state. -/
structure Ends (step : σ → ε → Option σ) (helps : σ → ε → Prop) (final : σ → Prop) (initial : σ) (n : Nat) : Prop where
  bounded : ∀ past s, Trail step initial past s → Throughout (fun _ => helps) past → past.length ≤ n
  completed : ∀ past s, Trail step initial past s → Throughout (fun _ => helps) past →
    (∀ e, helps s e → step s e = none) → final s

theorem Completes.along (completes : Completes step helps good final measure) (start : good initial)
    (run : Trail step initial past s) (within : Throughout (fun _ => helps) past) :
    good s ∧ past.length + measure s ≤ measure initial := by
  refine run.invariant_of_allowed (fun past s => good s ∧ past.length + measure s ≤ measure initial) ?_ ?_ within
  · exact ⟨start, by simp⟩
  · intro past s e t _ here helpful stepped
    obtain ⟨there, less⟩ := completes.kept s e t here.1 helpful stepped
    have before := here.2
    exact ⟨there, by rw [List.length_cons]; omega⟩

theorem Completes.ends (completes : Completes step helps good final measure) (start : good initial) :
    Ends step helps final initial (measure initial) where
  bounded past s run within := by
    have along := (completes.along start run within).2
    omega
  completed past s run within stuck := by
    refine (completes.goesOn s (completes.along start run within).1).resolve_right ?_
    rintro ⟨e, helpful, able⟩
    rw [stuck e helpful] at able
    cases able

theorem Ends.mono (ends : Ends step helps final initial n) {m : Nat} (le : n ≤ m) : Ends step helps final initial m :=
  ⟨fun past s run within => Nat.le_trans (ends.bounded past s run within) le, ends.completed⟩

end Machine
