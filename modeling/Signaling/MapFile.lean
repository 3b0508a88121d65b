import Signaling.ThreadSafeMap

namespace Signaling
open Machine CText GetLine

namespace ThreadSafeMap

/-- The entry can be told from its line. -/
structure Writable (delimiter : Char) (key value : Text) : Prop where
  noDelimiter : delimiter ∉ key
  keyLine : '\n' ∉ key
  valueLine : '\n' ∉ value
  filled : value ≠ []

def Entry (m : ThreadSafeMap Text Text) (key value : Text) : Prop := m.map_[key]? = some value

variable {m : ThreadSafeMap Text Text} {delimiter : Char} {line key value content : Text}

/-- A line is an entry if it has a delimiter with something after it; the first one counts. -/
theorem parseLine_eq_some (one : '\n' ∉ line) : parseLine delimiter line = some (key, value) ↔
    line = key ++ delimiter :: value ∧ delimiter ∉ key ∧ value ≠ [] := by
  constructor
  · intro parsed
    obtain ⟨⟨key', iss⟩, first, rest⟩ := Option.bind_eq_some_iff.mp parsed
    obtain ⟨⟨value', after⟩, second, same⟩ := Option.map_eq_some_iff.mp rest
    cases same
    obtain ⟨_, free, ⟨split, _⟩ | ⟨_, _, rfl⟩⟩ := getline_eq_some.mp first
    · rw [show line = key ++ delimiter :: iss.rest from split] at one ⊢
      obtain ⟨_, _, ⟨newline, _⟩ | ⟨same, filled, _⟩⟩ := getline_eq_some.mp second
      · simp [newline] at one
      · exact ⟨by rw [same], free, filled⟩
    · simp [getline_eof] at second
  · rintro ⟨rfl, free, filled⟩
    have noLine : '\n' ∉ value := fun member => one (by simp [member])
    have first : getline delimiter ⟨key ++ delimiter :: value, false⟩ = some (key, ⟨value, false⟩) :=
      getline_eq_some.mpr ⟨rfl, free, Or.inl ⟨rfl, rfl⟩⟩
    have second : getline '\n' ⟨value, false⟩ = some (value, ⟨[], true⟩) :=
      getline_eq_some.mpr ⟨rfl, noLine, Or.inr ⟨rfl, filled, rfl⟩⟩
    rw [parseLine, first]
    exact Option.map_eq_some_iff.mpr ⟨_, second, rfl⟩

theorem mem_fileEntries : (key, value) ∈ fileEntries (some content) delimiter ↔
    key ++ delimiter :: value ∈ lines ⟨content, false⟩ ∧ delimiter ∉ key ∧ value ≠ [] := by
  rw [fileEntries, List.mem_filterMap]
  constructor
  · rintro ⟨line, member, parsed⟩
    obtain ⟨rfl, rest⟩ := (parseLine_eq_some (newline_notMem_lines member)).mp parsed
    exact ⟨member, rest⟩
  · rintro ⟨member, rest⟩
    exact ⟨_, member, (parseLine_eq_some (newline_notMem_lines member)).mpr ⟨rfl, rest⟩⟩

/-- Whatever is read can be written. -/
theorem writable_of_mem_fileEntries (member : (key, value) ∈ fileEntries (some content) delimiter) :
    Writable delimiter key value := by
  obtain ⟨found, free, filled⟩ := mem_fileEntries.mp member
  have one := newline_notMem_lines found
  refine ⟨free, fun inside => one ?_, fun inside => one ?_, filled⟩
  · exact List.mem_append_left _ inside
  · exact List.mem_append_right _ (List.mem_cons_of_mem _ inside)

/-- An entry of a map that was filled from an empty one was added. -/
theorem mem_of_addAll {entries : List (Text × Text)}
    (found : (({} : ThreadSafeMap Text Text).addAll entries).Entry key value) : (key, value) ∈ entries := by
  rw [Entry, getElem?_addAll] at found
  cases last : (entries.filter (·.1 = key)).getLast? with
  | none => simp [last] at found
  | some entry =>
    rw [last, Option.map_some, Option.some_or] at found
    have member := List.mem_filter.mp (List.mem_of_getLast? last)
    obtain ⟨key', value'⟩ := entry
    cases Option.some.inj found
    cases of_decide_eq_true member.2
    exact member.1

/-- An entry of a map that was read into an empty one stood in the file. -/
theorem mem_of_read {file : Option Text}
    (found : (({} : ThreadSafeMap Text Text).readFromFile file delimiter).Entry key value) :
    (key, value) ∈ fileEntries file delimiter := mem_of_addAll found

theorem mem_toList : (key, value) ∈ m.map_.toList ↔ m.Entry key value :=
  Std.ExtTreeMap.mem_toList_iff_getElem?_eq_some

/-- The file of a map whose entries can all be told from their lines holds these entries. -/
theorem fileEntries_written (other : delimiter ≠ '\n')
    (writable : ∀ key value, m.Entry key value → Writable delimiter key value) :
    fileEntries (some (m.writeToFile delimiter)) delimiter = m.map_.toList := by
  have free : ∀ line ∈ m.map_.toList.map (fun entry => entry.1 ++ [delimiter] ++ entry.2), '\n' ∉ line := by
    intro line member
    obtain ⟨⟨key, value⟩, found, rfl⟩ := List.mem_map.mp member
    have entry := writable key value (mem_toList.mp found)
    simp [entry.keyLine, entry.valueLine, Ne.symm other]
  have read : lines ⟨m.writeToFile delimiter, false⟩ =
      m.map_.toList.map (fun entry => entry.1 ++ [delimiter] ++ entry.2) := by
    rw [← lines_written _ free, List.flatMap_map]
    rfl
  rw [fileEntries, read, List.filterMap_map]
  refine (List.filterMap_congr fun entry member => ?_).trans List.filterMap_some
  obtain ⟨key, value⟩ := entry
  have entry := writable key value (mem_toList.mp member)
  refine (parseLine_eq_some ?_).mpr ⟨by simp, entry.noDelimiter, entry.filled⟩
  simp [entry.keyLine, entry.valueLine, Ne.symm other]

theorem read_written (other : delimiter ≠ '\n')
    (writable : ∀ key value, m.Entry key value → Writable delimiter key value) :
    ({} : ThreadSafeMap Text Text).readFromFile (some (m.writeToFile delimiter)) delimiter = m := by
  refine ext_entries fun key => ?_
  rw [readFromFile, fileEntries_written other writable, getElem?_addAll]
  cases last : (m.map_.toList.filter (·.1 = key)).getLast? with
  | none =>
    have absent : m.map_[key]? = none := by
      refine Option.eq_none_iff_forall_ne_some.mpr fun value found => ?_
      have member : (key, value) ∈ m.map_.toList.filter (·.1 = key) :=
        List.mem_filter.mpr ⟨mem_toList.mpr found, by simp⟩
      rw [List.getLast?_eq_none_iff.mp last] at member
      simp at member
    simp [absent]
  | some entry =>
    obtain ⟨key', value⟩ := entry
    have member := List.mem_filter.mp (List.mem_of_getLast? last)
    cases of_decide_eq_true member.2
    have found : m.map_[key']? = some value := mem_toList.mp member.1
    simp [found]

/-- Writing a map and reading the file into an empty one gives the map back exactly if all its
entries can be told from their lines. -/
theorem read_written_iff (other : delimiter ≠ '\n') :
    ({} : ThreadSafeMap Text Text).readFromFile (some (m.writeToFile delimiter)) delimiter = m ↔
      ∀ key value, m.Entry key value → Writable delimiter key value := by
  constructor
  · intro same key value found
    rw [← same] at found
    exact writable_of_mem_fileEntries (mem_of_read found)
  · intro writable
    exact read_written other writable

/-- A map with an empty key and with a value that starts with the delimiter. -/
def storedUsers : ThreadSafeMap Text Text :=
  (({} : ThreadSafeMap Text Text).add "test".toList "123".toList).add [] " 12345".toList

theorem stored_users_read :
    ({} : ThreadSafeMap Text Text).readFromFile (some (storedUsers.writeToFile ' ')) ' ' = storedUsers := by
  refine (read_written_iff (by decide)).mpr fun key value found => ?_
  rw [Entry, storedUsers, getElem?_add, getElem?_add] at found
  split_ifs at found with empty test
  · cases Option.some.inj found
    subst empty
    exact ⟨by decide, by decide, by decide, by decide⟩
  · cases Option.some.inj found
    subst test
    exact ⟨by decide, by decide, by decide, by decide⟩
  · simp at found

end ThreadSafeMap

end Signaling
