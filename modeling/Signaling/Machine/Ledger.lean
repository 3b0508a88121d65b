import Mathlib.Algebra.GroupWithZero.Nat
import Signaling.Machine.Trail

/-! What the steps of a run charge, settle and use up, counted over the run. -/
namespace Machine

variable {σ ε : Type*} {step : σ → ε → Option σ} {initial : σ}

/-- How many steps of a run pass the test. -/
def count (test : σ → ε → Bool) (past : List (σ × ε)) : Nat := past.countP fun taken => test taken.1 taken.2

@[simp] theorem count_nil (test : σ → ε → Bool) : count test [] = 0 := rfl

theorem count_cons (test : σ → ε → Bool) (s : σ) (e : ε) (past : List (σ × ε)) :
    count test ((s, e) :: past) = count test past + (test s e).toNat := by
  rw [count, List.countP_cons]
  cases test s e <;> simp [count]

/-- When every step keeps what it charges and what it settles in balance with what is pending, so does
a run. -/
theorem Trail.balance {pending : σ → Nat} {charges settles : σ → ε → Bool}
    (balanced : ∀ past s e t, Trail step initial past s → step s e = some t →
      (settles s e).toNat + pending t = pending s + (charges s e).toNat)
    {past : List (σ × ε)} {s : σ} (run : Trail step initial past s) :
    count settles past + pending s = pending initial + count charges past := by
  induction run with
  | start => simp
  | next previous stepped ih =>
    have now := balanced _ _ _ _ previous stepped
    rw [count_cons, count_cons]
    omega

/-- A measure that no step increases bounds how often the steps that decrease it are taken. -/
theorem Trail.count_add_le {measure : σ → Nat} {counts : σ → ε → Bool}
    (kept : ∀ s e t, step s e = some t → (counts s e).toNat + measure t ≤ measure s)
    {past : List (σ × ε)} {s : σ} (run : Trail step initial past s) :
    count counts past + measure s ≤ measure initial := by
  induction run with
  | start => simp
  | next previous stepped ih =>
    have less := kept _ _ _ stepped
    rw [count_cons]
    omega

theorem sum_le {α : Type*} (f : α → Nat) {n : Nat} (entries : List α) (each : ∀ a ∈ entries, f a ≤ n) :
    (entries.map f).sum ≤ n * entries.length := by
  induction entries with
  | nil => simp
  | cons first rest ih =>
    obtain ⟨one, others⟩ := List.forall_mem_cons.mp each
    have later := ih others
    rw [List.map_cons, List.sum_cons, List.length_cons, Nat.mul_succ]
    omega

/-- The sum over a list of which one entry is replaced. -/
theorem sum_set {α : Type*} (f : α → Nat) {entries : List α} {i : Nat} {a : α} (b : α) (found : entries[i]? = some a) :
    ((entries.set i b).map f).sum + f a = (entries.map f).sum + f b := by
  induction entries generalizing i with
  | nil => simp at found
  | cons first rest ih =>
    cases i with
    | zero =>
      cases Option.some.inj found
      simp only [List.set_cons_zero, List.map_cons, List.sum_cons]
      omega
    | succ i =>
      have later := ih (i := i) (by simpa using found)
      simp only [List.set_cons_succ, List.map_cons, List.sum_cons]
      omega

end Machine
