import Mathlib.Data.List.Basic
import Mathlib.Logic.Function.Basic
import Mathlib.Tactic.SplitIfs

/-! Stores whose operations each read and write the entry of one key. Operations are listed the
latest first. -/
namespace Machine.Keyed

variable {κ β ρ ι Op : Type*} [DecidableEq κ] (key : Op → κ) (run : Op → β → β × ρ)

def apply (store : κ → β) (op : Op) : κ → β :=
  Function.update store (key op) (run op (store (key op))).1

def final (initial : κ → β) : List Op → κ → β
  | [] => initial
  | op :: before => apply key run (final initial before) op

/-- Every operation with what it returned. -/
def returns (initial : κ → β) : List Op → List (Op × ρ)
  | [] => []
  | op :: before =>
    (op, (run op (final key run initial before (key op))).2) :: returns initial before

variable {key run} {initial : κ → β} {k : κ} {ops ops' : List Op}

/-- The entry of a key is what the operations on that key make of it. -/
theorem final_filter :
    final key run initial ops k = final key run initial (ops.filter (key · = k)) k := by
  induction ops with
  | nil => rfl
  | cons op before ih =>
    by_cases same : key op = k
    · subst same
      simp [final, apply, ih]
    · simp [final, apply, same, Ne.symm same, ih]

/-- So is what they return. -/
theorem returns_filter : (returns key run initial ops).filter (fun done => key done.1 = k) =
    returns key run initial (ops.filter (key · = k)) := by
  induction ops with
  | nil => rfl
  | cons op before ih =>
    by_cases same : key op = k
    · subst same
      simp only [returns, decide_true, List.filter_cons_of_pos, ih]
      rw [final_filter]
    · simp [returns, same, ih]

theorem map_fst_returns (key : Op → κ) (run : Op → β → β × ρ) (initial : κ → β) (ops : List Op) :
    (returns key run initial ops).map Prod.fst = ops := by
  induction ops with
  | nil => rfl
  | cons op before ih => simp [returns, ih]

/-- The order of operations on different keys does not matter to the store. -/
theorem final_congr (same : ∀ k, ops.filter (key · = k) = ops'.filter (key · = k)) :
    final key run initial ops = final key run initial ops' := by
  funext k
  rw [final_filter, same k, ← final_filter]

/-- Two lists are equal when a map of them is, and when for every key, which the map shows, the
entries with that key are. -/
theorem eq_of_filter {γ δ : Type*} (show_ : γ → δ) (label : δ → κ) {xs ys : List γ}
    (shown : xs.map show_ = ys.map show_)
    (same : ∀ k, xs.filter (fun x => label (show_ x) = k) = ys.filter (fun y => label (show_ y) = k)) :
    xs = ys := by
  induction xs generalizing ys with
  | nil => exact (List.map_eq_nil_iff.mp shown.symm).symm
  | cons x xs ih =>
    obtain ⟨y, rest, rfl, head, tail⟩ := List.map_eq_cons_iff.mp shown.symm
    have both := same (label (show_ x))
    rw [List.filter_cons_of_pos (by simp), List.filter_cons_of_pos (by simp [head])] at both
    obtain ⟨rfl, _⟩ := List.cons_eq_cons.mp both
    refine congrArg _ (ih tail.symm fun k => ?_)
    have all := same k
    by_cases here : label (show_ x) = k
    · simpa [List.filter_cons, here] using all
    · simpa [List.filter_cons, here] using all

/-- Nor does it matter to what an owner of operations, who keeps to their order, gets back. -/
theorem returns_congr (run : Op → β → β × ρ) (initial : κ → β) [DecidableEq ι] {owner : Op → ι}
    (own : ∀ i, ops.filter (owner · = i) = ops'.filter (owner · = i))
    (same : ∀ k, ops.filter (key · = k) = ops'.filter (key · = k)) (i : ι) :
    (returns key run initial ops).filter (fun done => owner done.1 = i) =
      (returns key run initial ops').filter (fun done => owner done.1 = i) := by
  refine eq_of_filter Prod.fst key ?_ fun k => ?_
  · have shown (ops : List Op) : ((returns key run initial ops).filter (fun done => owner done.1 = i)).map
        Prod.fst = ops.filter (owner · = i) := by
      conv_rhs => rw [← map_fst_returns key run initial ops, List.filter_map]
      rfl
    rw [shown, shown, own]
  · have swap (ops : List Op) : ((returns key run initial ops).filter (fun done => owner done.1 = i)).filter
        (fun done => key done.1 = k) =
          (returns key run initial (ops.filter (key · = k))).filter (fun done => owner done.1 = i) := by
      rw [List.filter_comm, returns_filter]
    rw [swap, swap, same]

end Machine.Keyed
