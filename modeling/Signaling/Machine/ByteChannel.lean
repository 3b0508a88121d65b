import Mathlib.Data.List.Basic
import Mathlib.Tactic.SplitIfs

namespace Machine

variable {α : Type*} {size n : Nat} {queue bytes rest : List α} {shut : Bool}

/-- A `recv` that returns `n`: what it takes and what it leaves. It takes at most `size` of what is
queued, and nothing only where the queue is empty for good. -/
def granted (size : Nat) (queue : List α) (shut : Bool) (n : Nat) : Option (List α × List α) :=
  if n ≤ size ∧ n ≤ queue.length ∧ (n = 0 → (queue.isEmpty && shut) = true) then
    some (queue.take n, queue.drop n)
  else none

/-- The bytes received and those left behind are the queue. -/
theorem granted_split (grant : granted size queue shut n = some (bytes, rest)) :
    queue = bytes ++ rest ∧ bytes.length = n ∧ n ≤ size := by
  rw [granted] at grant
  split_ifs at grant with fits
  cases Option.some.inj grant
  exact ⟨(List.take_append_drop n queue).symm, List.length_take_of_le fits.2.1, fits.1⟩

theorem granted_nothing (grant : granted size queue shut n = some ([], rest)) : queue = [] ∧ shut = true := by
  obtain ⟨_, none, _⟩ := granted_split grant
  rw [granted] at grant
  split_ifs at grant with fits
  simpa using fits.2.2 none.symm

/-- A `recv` that returns as much as is queued leaves nothing. -/
theorem granted_all (grant : granted size queue shut n = some (bytes, rest)) (all : n = queue.length) : rest = [] := by
  obtain ⟨split, length, _⟩ := granted_split grant
  rw [split, List.length_append] at all
  exact List.length_eq_zero_iff.mp (by omega)

/-- A `recv` from an open channel finds something there. -/
theorem filled_of_granted (grant : granted size queue shut n = some (bytes, rest)) (open_ : shut = false) :
    queue ≠ [] := by
  rintro rfl
  obtain ⟨split, _⟩ := granted_split grant
  obtain ⟨none, _⟩ := List.append_eq_nil_iff.mp split.symm
  subst none
  have ended := (granted_nothing grant).2
  simp [open_] at ended

/-- One element can always be taken of those that are queued. -/
theorem granted_one (positive : 0 < size) (filled : queue ≠ []) :
    ∃ first rest, granted size queue shut 1 = some ([first], rest) := by
  cases queue with
  | nil => exact absurd rfl filled
  | cons first rest => exact ⟨first, rest, by simp [granted, show 1 ≤ size from positive]⟩

end Machine
