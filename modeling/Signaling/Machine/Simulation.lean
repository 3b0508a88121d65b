import Signaling.Machine.Trail

/-! Runs of one system as runs of another that is to be seen in it. -/
namespace Machine

variable {σ ε τ φ : Type*} {step : σ → ε → Option σ} {step' : τ → φ → Option τ} {initial : σ} {initial' : τ}

/-- The events that a run shows of another system, the latest first. -/
def visible (shown : σ → ε → Option φ) (past : List (σ × ε)) : List φ :=
  past.filterMap fun taken => shown taken.1 taken.2

theorem reverse_visible_cons (shown : σ → ε → Option φ) (s : σ) (e : ε) (past : List (σ × ε)) :
    (visible shown ((s, e) :: past)).reverse = (visible shown past).reverse ++ (shown s e).toList := by
  cases seen : shown s e <;> simp [visible, seen]

/-- What a step shows of the other system is a step of it; a step that shows nothing leaves it where it is. -/
def Follows (step' : τ → φ → Option τ) (related : τ → σ → Prop) (u : τ) (t : σ) : Option φ → Prop
  | some f => ∃ u', step' u f = some u' ∧ related u' t
  | none => related u t

/-- When every allowed step is followed, every run of allowed steps shows a run of the other system that ends
in a related state. -/
theorem Trail.simulated_of_allowed {related : τ → σ → Prop} {shown : σ → ε → Option φ}
    {allowed : List (σ × ε) → σ → ε → Prop} (atStart : related initial' initial)
    (followed : ∀ past s e t u, Trail step initial past s → related u s → allowed past s e →
      step s e = some t → Follows step' related u t (shown s e))
    {past : List (σ × ε)} {s : σ} (run : Trail step initial past s) (within : Throughout allowed past) :
    ∃ past' u, Trail step' initial' past' u ∧ related u s ∧ past'.map Prod.snd = visible shown past := by
  induction run with
  | start => exact ⟨[], initial', .start, atStart, rfl⟩
  | @next past s e t previous stepped ih =>
    obtain ⟨past', u, run', here, events⟩ := ih within.2
    have follows := followed past s e t u previous here within.1 stepped
    cases seen : shown s e with
    | none =>
      rw [seen] at follows
      exact ⟨past', u, run', follows, by simp [visible, seen, events]⟩
    | some f =>
      rw [seen] at follows
      obtain ⟨u', moved, there⟩ := follows
      exact ⟨(u, f) :: past', u', run'.next moved, there, by simp [visible, seen, events]⟩

/-- The same for runs of any steps. -/
theorem Trail.simulated {related : τ → σ → Prop} {shown : σ → ε → Option φ} (atStart : related initial' initial)
    (followed : ∀ past s e t u, Trail step initial past s → related u s → step s e = some t →
      Follows step' related u t (shown s e))
    {past : List (σ × ε)} {s : σ} (run : Trail step initial past s) :
    ∃ past' u, Trail step' initial' past' u ∧ related u s ∧ past'.map Prod.snd = visible shown past := by
  have all : Throughout (fun _ _ _ => True) past := by
    induction run with
    | start => trivial
    | next _ _ ih => exact ⟨trivial, ih⟩
  exact run.simulated_of_allowed atStart (fun _ _ _ _ _ run here _ stepped => followed _ _ _ _ _ run here stepped) all

/-- Steps that are allowed show steps that are allowed in the other system. -/
theorem Trail.simulated_within {related : τ → σ → Prop} {shown : σ → ε → Option φ}
    {allowed : List (σ × ε) → σ → ε → Prop} (allowed' : List (τ × φ) → τ → φ → Prop) (atStart : related initial' initial)
    (followed : ∀ past s e t u, Trail step initial past s → related u s → step s e = some t →
      Follows step' related u t (shown s e))
    (kept : ∀ past past' s e u f, related u s → allowed past s e → shown s e = some f → allowed' past' u f)
    {past : List (σ × ε)} {s : σ} (run : Trail step initial past s) (within : Throughout allowed past) :
    ∃ past' u, Trail step' initial' past' u ∧ related u s ∧ Throughout allowed' past' := by
  induction run with
  | start => exact ⟨[], initial', .start, atStart, trivial⟩
  | @next past s e t previous stepped ih =>
    obtain ⟨past', u, run', here, before⟩ := ih within.2
    have follows := followed past s e t u previous here stepped
    cases seen : shown s e with
    | none =>
      rw [seen] at follows
      exact ⟨past', u, run', follows, before⟩
    | some f =>
      rw [seen] at follows
      obtain ⟨u', moved, there⟩ := follows
      exact ⟨(u, f) :: past', u', run'.next moved, there, kept past past' s e u f here within.1 seen, before⟩

end Machine
