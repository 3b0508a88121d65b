import Signaling.MapFile

namespace Signaling
open Machine CText GetLine

namespace ThreadSafeMap

/-- The form `key delimiter value` of a line, split at its first delimiter. -/
structure EntryLine (delimiter : Char) (key value line : Text) : Prop where
  text : line = key ++ delimiter :: value
  noDelimiter : delimiter ∉ key
  filled : value ≠ []

/-- The last line of the form for the key has the value. -/
def LastEntry (delimiter : Char) (lines : List Text) (key value : Text) : Prop :=
  ∃ before line after, lines = before ++ line :: after ∧ EntryLine delimiter key value line ∧
    ∀ later ∈ after, ∀ other, ¬EntryLine delimiter key other later

variable {m : ThreadSafeMap Text Text} {delimiter : Char} {line key value content : Text} {lines : List Text}
  {entries more : List (Text × Text)}

theorem parseLine_entry (one : '\n' ∉ line) :
    parseLine delimiter line = some (key, value) ↔ EntryLine delimiter key value line := by
  rw [parseLine_eq_some one]
  exact ⟨fun ⟨text, free, filled⟩ => ⟨text, free, filled⟩, fun entry => ⟨entry.text, entry.noDelimiter, entry.filled⟩⟩

theorem addAll_append : m.addAll (entries ++ more) = (m.addAll entries).addAll more :=
  List.foldl_append

/-- A line more adds its entry, if it is one, and nothing otherwise. -/
theorem getElem?_line (one : '\n' ∉ line) :
    (∃ value, EntryLine delimiter key value line ∧
      (m.addAll ([line].filterMap (parseLine delimiter))).Entry key value) ∨
    (∀ value, ¬EntryLine delimiter key value line) ∧
      (m.addAll ([line].filterMap (parseLine delimiter))).map_[key]? = m.map_[key]? := by
  cases parsed : parseLine delimiter line with
  | none =>
    refine Or.inr ⟨fun value entry => ?_, by simp [parsed, addAll]⟩
    simp [(parseLine_entry one).mpr entry] at parsed
  | some entry =>
    obtain ⟨key', value⟩ := entry
    have form := (parseLine_entry one).mp parsed
    have added : m.addAll ([line].filterMap (parseLine delimiter)) = m.add key' value := by simp [parsed, addAll]
    rw [added]
    by_cases same : key = key'
    · subst same
      exact Or.inl ⟨value, form, by rw [Entry, getElem?_add, if_pos rfl]⟩
    · refine Or.inr ⟨fun value' entry => same ?_, by rw [getElem?_add, if_neg same]⟩
      cases Option.some.inj (parsed.symm.trans ((parseLine_entry one).mpr entry))
      rfl

/-- Line by line, the last entry of a key counts, and no other line does. -/
theorem getElem?_lines (one : ∀ line ∈ lines, '\n' ∉ line) :
    (∃ value, LastEntry delimiter lines key value ∧
      (m.addAll (lines.filterMap (parseLine delimiter))).Entry key value) ∨
    (∀ line ∈ lines, ∀ value, ¬EntryLine delimiter key value line) ∧
      (m.addAll (lines.filterMap (parseLine delimiter))).map_[key]? = m.map_[key]? := by
  induction lines using List.reverseRecOn with
  | nil => exact Or.inr ⟨by simp, rfl⟩
  | append_singleton lines line ih =>
    rw [List.filterMap_append, addAll_append]
    rcases getElem?_line (one line (by simp)) with ⟨value, form, found⟩ | ⟨other, kept⟩
    · exact Or.inl ⟨value, ⟨lines, line, [], rfl, form, by simp⟩, found⟩
    · rcases ih fun line member => one line (List.mem_append_left _ member) with
        ⟨value, ⟨before, entry, after, rfl, form, last⟩, found⟩ | ⟨none, before⟩
      · refine Or.inl ⟨value, ⟨before, entry, after ++ [line], by simp, form, ?_⟩, kept.trans found⟩
        intro later member
        rcases List.mem_append.mp member with inside | final
        · exact last later inside
        · cases List.mem_singleton.mp final
          exact other
      · refine Or.inr ⟨fun later member => ?_, kept.trans before⟩
        rcases List.mem_append.mp member with inside | final
        · exact none later inside
        · cases List.mem_singleton.mp final
          exact other

theorem newline_notMem_splitOn (member : line ∈ content.splitOn '\n') : '\n' ∉ line := by
  obtain ⟨last, split, empty⟩ := @splitOn_lines ⟨content, false⟩ rfl
  rw [split] at member
  rcases List.mem_append.mp member with inside | final
  · exact newline_notMem_lines inside
  · rw [empty line final]
    exact List.not_mem_nil

/-- The empty piece after a last newline is no entry. -/
theorem fileEntries_splitOn :
    fileEntries (some content) delimiter = (content.splitOn '\n').filterMap (parseLine delimiter) := by
  obtain ⟨last, split, empty⟩ := @splitOn_lines ⟨content, false⟩ rfl
  have nothing : last.filterMap (parseLine delimiter) = [] := by
    refine List.filterMap_eq_nil_iff.mpr fun line member => ?_
    rw [empty line member]
    rfl
  rw [split, List.filterMap_append, nothing, List.append_nil, fileEntries]

/-- Reading a file sets each key that has an entry in it to that of its last line and leaves the others as
they were; and what was read from a file is what is read again from a file that it is written to. -/
theorem read_file (other : delimiter ≠ '\n') :
    (∀ key, (∃ value, LastEntry delimiter (content.splitOn '\n') key value ∧
        (m.readFromFile (some content) delimiter).Entry key value) ∨
      (∀ line ∈ content.splitOn '\n', ∀ value, ¬EntryLine delimiter key value line) ∧
        (m.readFromFile (some content) delimiter).map_[key]? = m.map_[key]?) ∧
    ∀ read, ({} : ThreadSafeMap Text Text).readFromFile (some content) delimiter = read →
      ({} : ThreadSafeMap Text Text).readFromFile (some (read.writeToFile delimiter)) delimiter = read := by
  constructor
  · intro key
    rw [readFromFile, fileEntries_splitOn]
    exact getElem?_lines fun line => newline_notMem_splitOn
  · rintro read rfl
    exact read_written other fun key value found => writable_of_mem_fileEntries (mem_of_read found)

/-- An empty line, a line without a value, and two entries of one key, the later one cut off at the end
of the file. -/
def mixedFile : Text := "test 1\n\nbob \ntest 2".toList

theorem mixed_file_read :
    (∃ value, LastEntry ' ' (mixedFile.splitOn '\n') "test".toList value ∧
      (storedUsers.readFromFile (some mixedFile) ' ').Entry "test".toList value) ∧
    ∀ read, ({} : ThreadSafeMap Text Text).readFromFile (some mixedFile) ' ' = read →
      ({} : ThreadSafeMap Text Text).readFromFile (some (read.writeToFile ' ')) ' ' = read := by
  obtain ⟨entries, again⟩ := @read_file storedUsers ' ' mixedFile (by decide)
  refine ⟨?_, again⟩
  rcases entries "test".toList with last | ⟨none, _⟩
  · exact last
  · have member : "test 2".toList ∈ mixedFile.splitOn '\n' := by decide
    exact absurd ⟨rfl, by decide, by decide⟩ (none _ member "2".toList)

end ThreadSafeMap

end Signaling
