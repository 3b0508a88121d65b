import Mathlib.Data.List.TakeWhile
import Mathlib.Tactic.SplitIfs

/-! What parsing a C buffer with `strncmp`, `sscanf` and `strncpy` computes. A C string is the
list of the characters before its terminating NUL. -/
namespace Machine.CText

abbrev Text := List Char

def nul : Char := '\x00'

/-- `isspace` in the C locale: the blank and the control characters from tab to return. -/
def isSpace (c : Char) : Bool := c == ' ' || (9 ≤ c.toNat && c.toNat ≤ 13)

/-- The string that an array holds. -/
def ofBuffer (buffer : Text) : Text := buffer.takeWhile (· != nul)

/-- The contents of a zeroed array of `size` characters after the text was written to it. -/
def padded (size : Nat) (text : Text) : Text := text ++ List.replicate (size - text.length) nul

/-- A `%s` conversion: the word and the input after it, or `none` where the input ends first. -/
def scanWord (input : Text) : Option (Text × Text) :=
  let body := input.dropWhile isSpace
  let word := body.takeWhile (fun c => !isSpace c)
  if word = [] then none else some (word, body.drop word.length)

def scanDigits (input : Text) : Option Nat :=
  let digits := input.takeWhile Char.isDigit
  if digits = [] then none
  else some (digits.foldl (fun n c => 10 * n + (c.toNat - 48)) 0)

/-- A `%d` conversion, as an unbounded integer. -/
def scanInt (input : Text) : Option Int :=
  match input.dropWhile isSpace with
  | '-' :: rest => (scanDigits rest).map (fun n => -(n : Int))
  | '+' :: rest => (scanDigits rest).map (fun n => (n : Int))
  | rest => (scanDigits rest).map (fun n => (n : Int))

theorem differs_of_free {text : Text} (free : nul ∉ text) : ∀ c ∈ text, (c != nul) = true := by
  intro c member
  have differs : c ≠ nul := by
    rintro rfl
    exact free member
  simpa using differs

theorem ofBuffer_of_free {text : Text} (free : nul ∉ text) : ofBuffer text = text :=
  List.takeWhile_eq_self_iff.mpr (differs_of_free free)

/-- The string in a buffer is the part before its first NUL. -/
theorem ofBuffer_starts (bytes : Text) : ofBuffer bytes <+: bytes := List.takeWhile_prefix _

theorem nul_notMem_ofBuffer (text : Text) : nul ∉ ofBuffer text := by
  intro member
  simpa using List.mem_takeWhile_imp member

/-- A frame of a keyword, a field and what comes after a blank. -/
theorem nul_notMem_fields {keyword field rest : Text} (keywordFree : nul ∉ keyword) (fieldFree : nul ∉ field)
    (restFree : nul ∉ rest) : nul ∉ keyword ++ field ++ ' ' :: rest := by
  have blank : nul ≠ ' ' := by decide
  simp only [List.mem_append, List.mem_cons, not_or]
  exact ⟨⟨keywordFree, fieldFree⟩, blank, restFree⟩

/-- The string of a text ends at its first NUL, whatever follows. -/
theorem ofBuffer_append (text rest : Text) :
    ofBuffer (text ++ rest) = ofBuffer text ++ if nul ∈ text then [] else ofBuffer rest := by
  split_ifs with inside
  · have cut : (text.takeWhile (· != nul)).length ≠ text.length := by
      intro whole
      have same : ofBuffer text = text := (ofBuffer_starts text).eq_of_length whole
      exact nul_notMem_ofBuffer text (same.symm ▸ inside)
    rw [ofBuffer, List.takeWhile_append, if_neg cut, List.append_nil]
    rfl
  · rw [ofBuffer, List.takeWhile_append_of_pos (differs_of_free inside), ofBuffer_of_free inside]
    rfl

/-- The zeros after a text are no part of the string. -/
theorem ofBuffer_padded (size : Nat) (text : Text) : ofBuffer (padded size text) = ofBuffer text := by
  rw [ofBuffer, padded, List.takeWhile_append]
  split_ifs with whole
  · have free : text.takeWhile (· != nul) = text := (List.takeWhile_prefix _).eq_of_length whole
    simp [ofBuffer, free]
  · rfl

@[simp] theorem length_padded {size : Nat} {text : Text} (fits : text.length ≤ size) :
    (padded size text).length = size := by
  simp only [padded, List.length_append, List.length_replicate]
  omega

theorem le_length_padded (size : Nat) (text : Text) : size ≤ (padded size text).length := by
  simp only [padded, List.length_append, List.length_replicate]
  omega

theorem take_padded {size size' : Nat} {text : Text} (fits : text.length ≤ size) (le : size ≤ size') :
    (padded size' text).take size = padded size text := by
  rw [padded, List.take_append, List.take_of_length_le fits, List.take_replicate, padded]
  congr 2
  omega

theorem drop_padded {size size' : Nat} {text : Text} (fits : text.length ≤ size) (le : size ≤ size') :
    (padded size' text).drop size = List.replicate (size' - size) nul := by
  rw [padded, List.drop_append, List.drop_eq_nil_of_le fits, List.drop_replicate, List.nil_append]
  congr 1
  omega

@[simp] theorem ofBuffer_zeros (size : Nat) : ofBuffer (List.replicate size nul) = [] := by
  simp [ofBuffer]

/-- What a `%s` conversion finds: white space, the word, and then the end or more white space. -/
theorem scanWord_eq_some {input word rest : Text} : scanWord input = some (word, rest) ↔
    word ≠ [] ∧ (∀ c ∈ word, isSpace c = false) ∧ (∀ c ∈ rest.head?, isSpace c = true) ∧
      ∃ blanks, (∀ c ∈ blanks, isSpace c = true) ∧ input = blanks ++ (word ++ rest) := by
  constructor
  · intro scanned
    rw [scanWord] at scanned
    split_ifs at scanned with empty
    cases Option.some.inj scanned
    have split := List.takeWhile_append_dropWhile (p := fun c => !isSpace c) (l := input.dropWhile isSpace)
    have after : (input.dropWhile isSpace).drop ((input.dropWhile isSpace).takeWhile (fun c => !isSpace c)).length =
        (input.dropWhile isSpace).dropWhile (fun c => !isSpace c) :=
      (congrArg (List.drop _) split).symm.trans List.drop_left
    refine ⟨empty, fun c member => by simpa using List.mem_takeWhile_imp member, ?_, input.takeWhile isSpace,
      fun c member => List.mem_takeWhile_imp member, ?_⟩
    · rw [after]
      intro c first
      have stops := List.head?_dropWhile_not (fun c => !isSpace c) (input.dropWhile isSpace)
      rw [Option.mem_def.mp first] at stops
      simpa using stops
    · rw [after, split, List.takeWhile_append_dropWhile]
  · rintro ⟨filled, plain, ends, blanks, white, rfl⟩
    have start : (word ++ rest).dropWhile isSpace = word ++ rest := by
      cases word with
      | nil => exact absurd rfl filled
      | cons c word => simp [plain c List.mem_cons_self]
    have body : (blanks ++ (word ++ rest)).dropWhile isSpace = word ++ rest := by
      rw [List.dropWhile_append_of_pos white, start]
    have taken : (word ++ rest).takeWhile (fun c => !isSpace c) = word := by
      rw [List.takeWhile_append_of_pos fun c member => by simp [plain c member]]
      cases rest with
      | nil => simp
      | cons c rest => simp [ends c rfl]
    simp [scanWord, body, taken, filled]

theorem scanWord_eq_none {input : Text} : scanWord input = none ↔ ∀ c ∈ input, isSpace c = true := by
  constructor
  · intro failed
    rw [scanWord] at failed
    split_ifs at failed with empty
    have stops := List.head?_dropWhile_not isSpace input
    refine List.dropWhile_eq_nil_iff.mp ?_
    cases body : input.dropWhile isSpace with
    | nil => rfl
    | cons c body' =>
      rw [body] at stops empty
      have visible : isSpace c = false := stops
      simp [visible] at empty
  · intro white
    rw [scanWord, List.dropWhile_eq_nil_iff.mpr white]
    rfl

/-- The word that a `%s` conversion leaves in a zeroed array, with what stands before and after it. -/
theorem scanned_split (input : Text) : ∃ blanks rest,
    input = blanks ++ (((scanWord input).map Prod.fst).getD [] ++ rest) ∧
      (∀ c ∈ blanks, isSpace c = true) ∧ (∀ c ∈ ((scanWord input).map Prod.fst).getD [], isSpace c = false) ∧
      (∀ c ∈ rest.head?, isSpace c = true) ∧ (((scanWord input).map Prod.fst).getD [] = [] → rest = []) := by
  cases scanned : scanWord input with
  | none => exact ⟨input, [], by simp, scanWord_eq_none.mp scanned, by simp, by simp, fun _ => rfl⟩
  | some found =>
    obtain ⟨word, rest⟩ := found
    obtain ⟨filled, plain, ends, blanks, white, split⟩ := scanWord_eq_some.mp scanned
    exact ⟨blanks, rest, split, white, plain, ends, fun empty => absurd empty filled⟩

theorem isDigit_of_mem_toDigits {n : Nat} {c : Char} (member : c ∈ Nat.toDigits 10 n) : c.isDigit = true :=
  Nat.isDigit_of_mem_toDigits (by decide) (by decide) member

theorem scanDigits_toDigits (n : Nat) : scanDigits (Nat.toDigits 10 n) = some n := by
  have digits : (Nat.toDigits 10 n).takeWhile Char.isDigit = Nat.toDigits 10 n :=
    List.takeWhile_eq_self_iff.mpr fun c member => isDigit_of_mem_toDigits member
  have value : (Nat.toDigits 10 n).foldl (fun m c => 10 * m + (c.toNat - 48)) 0 = n :=
    Nat.ofDigitChars_eq_foldl.symm.trans Nat.ofDigitChars_ten_toDigits
  rw [scanDigits, digits, if_neg Nat.toDigits_ne_nil, value]

/-- What a `%d` conversion prints: a sign before the digits of a negative number. -/
theorem toString_toList (value : Int) : (toString value).toList =
    if 0 ≤ value then Nat.toDigits 10 value.toNat else '-' :: Nat.toDigits 10 (-value).toNat := by
  rw [Int.toString_eq_repr, Int.repr_eq_if]
  split_ifs
  · exact Nat.toList_repr
  · rw [String.toList_append, Nat.toList_repr]
    rfl

theorem mem_toString {value : Int} {c : Char} (member : c ∈ (toString value).toList) : c = '-' ∨ c.isDigit = true := by
  rw [toString_toList] at member
  split_ifs at member
  · exact Or.inr (isDigit_of_mem_toDigits member)
  · rcases List.mem_cons.mp member with sign | member
    · exact Or.inl sign
    · exact Or.inr (isDigit_of_mem_toDigits member)

theorem length_toString_le {value : Int} :
    (toString value).toList.length ≤ (Nat.toDigits 10 value.natAbs).length + 1 := by
  rw [toString_toList]
  split_ifs with natural
  · have same : value.toNat = value.natAbs := by omega
    rw [same]
    exact Nat.le_succ _
  · have opposite : (-value).toNat = value.natAbs := by omega
    rw [opposite]
    rfl

theorem isSpace_of_isDigit {c : Char} (digit : c.isDigit = true) : isSpace c = false := by
  have range : 48 ≤ c.toNat ∧ c.toNat ≤ 57 := Char.isDigit_iff_toNat.mp digit
  have notBlank : c ≠ ' ' := by
    rintro rfl
    exact absurd range (by decide)
  simp [isSpace, notBlank]
  omega

/-- The digits stand for themselves where no sign comes first. -/
theorem scanInt_digit {c : Char} {rest : Text} (digit : c.isDigit = true) :
    scanInt (c :: rest) = (scanDigits (c :: rest)).map (fun n => (n : Int)) := by
  have body : (c :: rest).dropWhile isSpace = c :: rest :=
    List.dropWhile_cons_of_neg (by simp [isSpace_of_isDigit digit])
  rw [scanInt, body]
  split
  · rename_i same
    cases same
    exact absurd digit (by decide)
  · rename_i same
    cases same
    exact absurd digit (by decide)
  · rfl

theorem scanInt_blank (input : Text) : scanInt (' ' :: input) = scanInt input := by
  rw [scanInt, List.dropWhile_cons_of_pos rfl, ← scanInt]

/-- A `%d` conversion reads what a `%d` conversion has printed. -/
theorem scanInt_toString (value : Int) : scanInt (toString value).toList = some value := by
  rw [toString_toList]
  split_ifs with sign
  · cases text : Nat.toDigits 10 value.toNat with
    | nil => exact absurd text Nat.toDigits_ne_nil
    | cons c rest =>
      rw [scanInt_digit (isDigit_of_mem_toDigits (text ▸ List.mem_cons_self)), ← text, scanDigits_toDigits]
      exact congrArg some (Int.toNat_of_nonneg sign)
  · have digits := scanDigits_toDigits (-value).toNat
    have minus : scanInt ('-' :: Nat.toDigits 10 (-value).toNat) =
        (scanDigits (Nat.toDigits 10 (-value).toNat)).map (fun n => -(n : Int)) := rfl
    have back : -((-value).toNat : Int) = value := by omega
    rw [minus, digits]
    exact congrArg some back

end Machine.CText
