import Mathlib.Data.List.Basic
import Mathlib.Tactic.SplitIfs

/-! Tables whose entries are numbered and whose free numbers are reused, the lowest first. -/
namespace Machine.Slots

variable {α : Type*}

def lookup (table : List (Option α)) (n : Nat) : Option α := table[n]?.join

def lowestFree (table : List (Option α)) : Nat := table.findIdx (·.isNone)

/-- Puts the entry at the lowest free number, past the end when the table is full. -/
def occupy (table : List (Option α)) (a : α) : List (Option α) :=
  if lowestFree table < table.length then table.set (lowestFree table) (some a)
  else table ++ [some a]

def release (table : List (Option α)) (n : Nat) : List (Option α) := table.set n none

theorem lowestFree_le (table : List (Option α)) : lowestFree table ≤ table.length :=
  List.findIdx_le_length

@[simp] theorem lookup_lowestFree (table : List (Option α)) :
    lookup table (lowestFree table) = none := by
  by_cases inside : lowestFree table < table.length
  · have free : (table[lowestFree table]).isNone := List.findIdx_getElem
    simp only [lookup, List.getElem?_eq_getElem inside, Option.isNone_iff_eq_none.mp free]
    rfl
  · simp [lookup, List.getElem?_eq_none (Nat.not_lt.mp inside)]

theorem ne_lowestFree {table : List (Option α)} {n : Nat} {a : α} (found : lookup table n = some a) :
    n ≠ lowestFree table := by
  intro same
  simp [same] at found

theorem lookup_occupy (table : List (Option α)) (a : α) (n : Nat) :
    lookup (occupy table a) n = if n = lowestFree table then some a else lookup table n := by
  by_cases inside : lowestFree table < table.length
  · by_cases same : n = lowestFree table
    · subst n
      simp [occupy, lookup, inside]
    · simp [occupy, lookup, inside, same, Ne.symm same]
  · have full : lowestFree table = table.length := by have := lowestFree_le table; omega
    rcases Nat.lt_trichotomy n table.length with less | same | more
    · have other : n ≠ lowestFree table := by omega
      simp [occupy, lookup, inside, other, List.getElem?_append_left less]
    · simp [occupy, lookup, full, same]
    · have other : n ≠ lowestFree table := by omega
      have beyond : (table ++ [some a]).length ≤ n := by simp; omega
      simp [occupy, lookup, inside, other, List.getElem?_eq_none beyond,
        List.getElem?_eq_none (Nat.le_of_lt more)]

/-- Occupying a number says nothing about other entries. -/
theorem lookup_occupy_iff {table : List (Option α)} {a b : α} (differs : b ≠ a) (n : Nat) :
    lookup (occupy table a) n = some b ↔ lookup table n = some b := by
  rw [lookup_occupy]
  split_ifs with free
  · simp [free, Ne.symm differs]
  · rfl

theorem lookup_release (table : List (Option α)) (n m : Nat) :
    lookup (release table n) m = if m = n then none else lookup table m := by
  by_cases same : m = n
  · subst m
    by_cases inside : n < table.length
    · simp [lookup, release, inside]
    · simp [lookup, release, Nat.not_lt.mp inside]
  · simp [lookup, release, same, Ne.symm same]

/-- Releasing a number says nothing about other entries. -/
theorem lookup_release_iff {table : List (Option α)} {a b : α} {m : Nat}
    (held : lookup table m = some a) (differs : b ≠ a) (n : Nat) :
    lookup (release table m) n = some b ↔ lookup table n = some b := by
  rw [lookup_release]
  split_ifs with released
  · simp [released, held, Ne.symm differs]
  · rfl

end Machine.Slots
