import Mathlib.Data.List.Basic
import Signaling.Machine.CText

/-! `std::getline` on the input streams of the C++ library. -/
namespace Machine.GetLine
open Machine CText

/-- A stream on which no operation has failed: what is left of it, and whether its end was met. -/
structure Input where
  rest : Text
  eof : Bool
  deriving DecidableEq, Repr

/-- `std::getline(input, word, delimiter)`. It is `none` where that sets `failbit`: if the end was met
before, and if there is nothing to extract, the delimiter included. -/
def getline (delimiter : Char) (input : Input) : Option (Text × Input) :=
  if input.eof || input.rest.isEmpty then none
  else
    match input.rest.dropWhile (· != delimiter) with
    | [] => some (input.rest, ⟨[], true⟩)
    | _ :: rest => some (input.rest.takeWhile (· != delimiter), ⟨rest, false⟩)

variable {delimiter : Char} {input next : Input} {word rest : Text} {words : List Text}

theorem takeWhile_word (rest : Text) (free : delimiter ∉ word) :
    (word ++ delimiter :: rest).takeWhile (· != delimiter) = word ∧
      (word ++ delimiter :: rest).dropWhile (· != delimiter) = delimiter :: rest := by
  have differs : ∀ c ∈ word, (c != delimiter) = true := by
    intro c member
    have other : c ≠ delimiter := by
      rintro rfl
      exact free member
    simpa using other
  constructor
  · rw [List.takeWhile_append_of_pos differs]
    simp
  · rw [List.dropWhile_append_of_pos differs]
    simp

/-- The two ways to succeed: up to a delimiter, or to the end of what is left. -/
theorem getline_eq_some : getline delimiter input = some (word, next) ↔
    input.eof = false ∧ delimiter ∉ word ∧
      (input.rest = word ++ delimiter :: next.rest ∧ next.eof = false ∨
        input.rest = word ∧ word ≠ [] ∧ next = ⟨[], true⟩) := by
  constructor
  · intro found
    rw [getline] at found
    split_ifs at found with failed
    simp only [Bool.or_eq_true, List.isEmpty_iff, not_or, Bool.not_eq_true] at failed
    refine ⟨failed.1, ?_⟩
    split at found
    · rename_i whole
      cases Option.some.inj found
      refine ⟨fun member => ?_, Or.inr ⟨rfl, failed.2, rfl⟩⟩
      simpa using List.dropWhile_eq_nil_iff.mp whole delimiter member
    · rename_i c rest split
      cases Option.some.inj found
      refine ⟨fun member => ?_, Or.inl ⟨?_, rfl⟩⟩
      · simpa using List.mem_takeWhile_imp member
      · have stop := List.head?_dropWhile_not (· != delimiter) input.rest
        rw [split] at stop
        have same : c = delimiter := by simpa using stop
        subst same
        rw [← split, List.takeWhile_append_dropWhile]
  · rintro ⟨open_, free, ⟨split, goesOn⟩ | ⟨rfl, filled, rfl⟩⟩
    · obtain ⟨taken, dropped⟩ := takeWhile_word next.rest free
      rw [getline, open_, split, taken, dropped, if_neg (by simp)]
      cases next
      cases goesOn
      rfl
    · have none : input.rest.dropWhile (· != delimiter) = [] := by
        refine List.dropWhile_eq_nil_iff.mpr fun c member => ?_
        have other : c ≠ delimiter := by
          rintro rfl
          exact free member
        simpa using other
      rw [getline, open_, none, if_neg (by simpa using filled)]

theorem getline_shorter (found : getline delimiter input = some (word, next)) :
    next.rest.length < input.rest.length := by
  rcases (getline_eq_some.mp found).2.2 with ⟨split, _⟩ | ⟨same, filled, rfl⟩
  · rw [split, List.length_append, List.length_cons]
    omega
  · rw [same]
    exact List.length_pos_of_ne_nil filled

theorem getline_eof (met : input.eof = true) : getline delimiter input = none := by
  rw [getline, met, Bool.true_or, if_pos rfl]

/-- The words of `while (std::getline(input, word))`. -/
def lines (input : Input) : List Text :=
  match _found : getline '\n' input with
  | some (word, next) => word :: lines next
  | none => []
termination_by input.rest.length
decreasing_by exact getline_shorter _found

theorem lines_some (found : getline '\n' input = some (word, next)) : lines input = word :: lines next := by
  rw [lines]
  split
  · rename_i word' next' again
    cases Option.some.inj (found.symm.trans again)
    rfl
  · rename_i none
    simp [found] at none

theorem lines_none (failed : getline '\n' input = none) : lines input = [] := by
  rw [lines]
  split
  · rename_i again
    simp [failed] at again
  · rfl

/-- No line has a newline in it. -/
theorem newline_notMem_lines {line : Text} (member : line ∈ lines input) : '\n' ∉ line := by
  induction input using lines.induct with
  | case1 input word next found ih =>
    rw [lines_some found] at member
    rcases List.mem_cons.mp member with rfl | later
    · exact (getline_eq_some.mp found).2.1
    · exact ih later
  | case2 input failed =>
    simp [lines_none failed] at member

/-- The lines are the pieces between newlines, but for an empty last piece. -/
theorem splitOn_lines (unmet : input.eof = false) :
    ∃ last, input.rest.splitOn '\n' = lines input ++ last ∧ ∀ line ∈ last, line = [] := by
  induction input using lines.induct with
  | case1 input word next found ih =>
    rw [lines_some found]
    obtain ⟨_, free, ⟨split, goesOn⟩ | ⟨whole, _, rfl⟩⟩ := getline_eq_some.mp found
    · obtain ⟨last, later, empty⟩ := ih goesOn
      exact ⟨last, by rw [split, List.splitOn_append_cons_self_of_not_mem free, later, List.cons_append], empty⟩
    · exact ⟨[], by rw [whole, List.splitOn_eq_singleton free, lines_none (getline_eof rfl)]; rfl, by simp⟩
  | case2 input failed =>
    have nothing : input.rest = [] := by
      rw [getline, unmet, Bool.false_or] at failed
      split_ifs at failed with empty
      · exact List.isEmpty_iff.mp empty
      · split at failed <;> simp at failed
    exact ⟨[[]], by rw [lines_none failed, nothing, List.splitOn_nil]; rfl, by simp⟩

/-- What is written line by line is read line by line. -/
theorem lines_written (words : List Text) (free : ∀ word ∈ words, '\n' ∉ word) :
    lines ⟨words.flatMap (· ++ ['\n']), false⟩ = words := by
  induction words with
  | nil => exact lines_none rfl
  | cons word words ih =>
    have found : getline '\n' ⟨(word :: words).flatMap (· ++ ['\n']), false⟩ =
        some (word, ⟨words.flatMap (· ++ ['\n']), false⟩) :=
      getline_eq_some.mpr ⟨rfl, free word List.mem_cons_self, Or.inl ⟨by simp, rfl⟩⟩
    rw [lines_some found, ih fun other member => free other (List.mem_cons_of_mem _ member)]

end Machine.GetLine
