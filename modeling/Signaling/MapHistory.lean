import Signaling.Machine.Keyed
import Signaling.MapAtomicity
import Signaling.MapReading

namespace Signaling
open Machine CText GetLine Keyed

namespace ThreadSafeMap

def MapCall.key : MapCall → Text
  | .add key _ | .edit key _ | .remove key | .get key | .contains key => key

/-- What a call makes of the entry of its key, and returns. -/
def MapCall.run : MapCall → Option Text → Option Text × Reply
  | .add _ value, _ => (some value, .nothing)
  | .edit _ value, entry => (entry.map fun _ => value, .nothing)
  | .remove _, _ => (none, .nothing)
  | .get _, entry => (entry, .value (entry.getD default))
  | .contains _, entry => (entry, .present entry.isSome)

def entryOf (m : ThreadSafeMap Text Text) (key : Text) : Option Text := m.map_[key]?

/-- A call with the thread that makes it; the calls of `readFromFile` are of none. -/
structure Taken where
  owner : Option Nat
  call : MapCall
  deriving DecidableEq, Repr

def Taken.key (taken : Taken) : Text := taken.call.key

def Taken.run (taken : Taken) : Option Text → Option Text × Reply := taken.call.run

def ofCall (call : Nat × MapCall) : Taken := ⟨some call.1, call.2⟩

def ofEntry (entry : Text × Text) : Taken := ⟨none, .add entry.1 entry.2⟩

/-- The sections of an interleaved `readFromFile` as calls. -/
def takenIn : List (Text × Text) → List Section → List Taken
  | entry :: entries, .addNext :: rest => ofEntry entry :: takenIn entries rest
  | entries, .call thread call :: rest => ofCall (thread, call) :: takenIn entries rest
  | _, _ => []

/-- A whole `readFromFile` between two lists of calls. -/
def takenAtOnce (before : List (Nat × MapCall)) (entries : List (Text × Text)) (after : List (Nat × MapCall)) :
    List Taken := before.map ofCall ++ entries.map ofEntry ++ after.map ofCall

/-- The calls on each key come in one order, and so do the calls of each thread. -/
structure SameOrders (ops ops' : List Taken) : Prop where
  onKey : ∀ key, ops.filter (·.key = key) = ops'.filter (·.key = key)
  byOwner : ∀ owner, ops.filter (·.owner = owner) = ops'.filter (·.owner = owner)

def runAll : ThreadSafeMap Text Text → List Taken → ThreadSafeMap Text Text × List (Taken × Reply)
  | m, [] => (m, [])
  | m, taken :: rest =>
    let (m', reply) := m.runCall taken.call
    let (final, done) := runAll m' rest
    (final, (taken, reply) :: done)

/-- What a thread other than that of `readFromFile` got back. -/
def logged (done : Taken × Reply) : Option Called := done.1.owner.map fun thread => ⟨thread, done.1.call, done.2⟩

variable {m final : ThreadSafeMap Text Text} {entries : List (Text × Text)} {taken : Taken}
  {call : MapCall} {calls before after : List (Nat × MapCall)} {steps : List Section} {log : List Called}
  {ops ops' : List Taken} {delimiter : Char} {file : Option Text}

/-- A call reads and writes the entry of its key. -/
theorem runCall_keyed : (m.runCall taken.call).1.entryOf = apply Taken.key Taken.run m.entryOf taken ∧
    (m.runCall taken.call).2 = (taken.run (m.entryOf taken.key)).2 := by
  obtain ⟨owner, call⟩ := taken
  cases call with
  | add key value =>
    refine ⟨funext fun k => ?_, rfl⟩
    show (m.add key value).map_[k]? = _
    rw [getElem?_add, apply, Function.update_apply]
    rfl
  | edit key value =>
    refine ⟨funext fun k => ?_, rfl⟩
    show (m.edit key value).map_[k]? = _
    rw [apply, Function.update_apply, edit]
    split_ifs with present same same
    · subst same
      rw [Std.ExtTreeMap.contains_eq_isSome_getElem?] at present
      obtain ⟨old, found⟩ := Option.isSome_iff_exists.mp present
      simp [Taken.run, Taken.key, MapCall.key, MapCall.run, entryOf, found]
    · exact getElem?_add.trans (if_neg same)
    · subst same
      rw [Std.ExtTreeMap.contains_eq_isSome_getElem?] at present
      have absent := Option.not_isSome_iff_eq_none.mp present
      simp [Taken.run, Taken.key, MapCall.key, MapCall.run, entryOf, absent]
    · rfl
  | remove key =>
    refine ⟨funext fun k => ?_, rfl⟩
    show (m.remove key).map_[k]? = _
    rw [remove, Std.ExtTreeMap.getElem?_erase, apply, Function.update_apply]
    by_cases same : k = key
    · subst same
      simp [Taken.run, Taken.key, MapCall.key, MapCall.run]
    · simp [Taken.key, MapCall.key, same, Ne.symm same, entryOf]
  | get key => exact ⟨(Function.update_eq_self key m.entryOf).symm, rfl⟩
  | contains key =>
    refine ⟨(Function.update_eq_self key m.entryOf).symm, ?_⟩
    exact congrArg Reply.present Std.ExtTreeMap.contains_eq_isSome_getElem?

theorem runAll_append : m.runAll (ops ++ ops') =
    (((m.runAll ops).1.runAll ops').1, (m.runAll ops).2 ++ ((m.runAll ops).1.runAll ops').2) := by
  induction ops generalizing m with
  | nil => rfl
  | cons taken rest ih =>
    simp only [List.cons_append, runAll, ih]

theorem runAll_keyed : (m.runAll ops).1.entryOf = Keyed.final Taken.key Taken.run m.entryOf ops.reverse ∧
    (m.runAll ops).2 = (returns Taken.key Taken.run m.entryOf ops.reverse).reverse := by
  induction ops using List.reverseRecOn with
  | nil => exact ⟨rfl, rfl⟩
  | append_singleton before taken ih =>
    obtain ⟨entries, returned⟩ := ih
    have last := @runCall_keyed (m.runAll before).1 taken
    rw [runAll_append, List.reverse_concat, Keyed.final, returns, List.reverse_cons, ← entries, ← returned,
      ← last.2]
    exact ⟨last.1, rfl⟩

/-- Calls in the same orders leave the same map and return the same to each of the threads. -/
theorem runAll_congr (same : SameOrders ops ops') : (m.runAll ops).1 = (m.runAll ops').1 ∧
    ∀ owner, (m.runAll ops).2.filter (·.1.owner = owner) = (m.runAll ops').2.filter (·.1.owner = owner) := by
  have onKey (key : Text) : ops.reverse.filter (·.key = key) = ops'.reverse.filter (·.key = key) := by
    rw [List.filter_reverse, List.filter_reverse, same.onKey]
  have byOwner (owner : Option Nat) :
      ops.reverse.filter (·.owner = owner) = ops'.reverse.filter (·.owner = owner) := by
    rw [List.filter_reverse, List.filter_reverse, same.byOwner]
  constructor
  · refine ext_entries fun k => ?_
    have equal : (m.runAll ops).1.entryOf = (m.runAll ops').1.entryOf := by
      rw [runAll_keyed.1, runAll_keyed.1, final_congr onKey]
    exact congrFun equal k
  · intro owner
    rw [runAll_keyed.2, runAll_keyed.2, List.filter_reverse, List.filter_reverse,
      returns_congr Taken.run m.entryOf byOwner onKey]

theorem runAll_calls : (m.runAll (calls.map ofCall)).1 = (m.runCalls calls).1 ∧
    (m.runAll (calls.map ofCall)).2.filterMap logged = (m.runCalls calls).2 := by
  induction calls generalizing m with
  | nil => exact ⟨rfl, rfl⟩
  | cons call calls ih =>
    obtain ⟨ends, returned⟩ := @ih (m.runCall call.2).1
    exact ⟨ends, congrArg (_ :: ·) returned⟩

theorem runAll_entries : (m.runAll (entries.map ofEntry)).1 = m.addAll entries ∧
    (m.runAll (entries.map ofEntry)).2.filterMap logged = [] := by
  induction entries generalizing m with
  | nil => exact ⟨rfl, rfl⟩
  | cons entry entries ih => exact ih

theorem runAll_of_interleave (run : interleave m entries steps = some (final, log)) :
    (m.runAll (takenIn entries steps)).1 = final ∧ (m.runAll (takenIn entries steps)).2.filterMap logged = log := by
  induction steps generalizing m entries log with
  | nil =>
    cases entries with
    | nil =>
      cases Option.some.inj run
      exact ⟨rfl, rfl⟩
    | cons entry entries => simp [interleave] at run
  | cons step steps ih =>
    cases step with
    | addNext =>
      cases entries with
      | nil => simp [interleave] at run
      | cons entry entries =>
        rw [interleave_addNext] at run
        exact ih run
    | call thread call =>
      rw [interleave_call] at run
      obtain ⟨⟨final', log'⟩, rest, same⟩ := Option.map_eq_some_iff.mp run
      cases same
      obtain ⟨ends, returned⟩ := ih rest
      have here : takenIn entries (.call thread call :: steps) = ofCall (thread, call) :: takenIn entries steps := by
        cases entries <;> rfl
      rw [here]
      exact ⟨ends, congrArg (_ :: ·) returned⟩

theorem ofThread_logged {done : List (Taken × Reply)} {thread : Nat} : ofThread thread (done.filterMap logged) =
    (done.filter (·.1.owner = some thread)).filterMap logged := by
  rw [ofThread, List.filter_filterMap, List.filterMap_filter]
  refine List.filterMap_congr fun returned _ => ?_
  obtain ⟨⟨owner, call⟩, reply⟩ := returned
  cases owner with
  | none => simp [logged]
  | some other =>
    by_cases same : other = thread
    · simp [logged, same]
    · simp [logged, same]

/-- An interleaved `readFromFile` ends like any order of the same calls in which it is one step, if that keeps the
order on each key and the order of each thread: the map is the same, and so is what each thread gets. -/
theorem outcome_of_orders (run : interleave m (fileEntries file delimiter) steps = some (final, log))
    (same : SameOrders (takenIn (fileEntries file delimiter) steps)
      (takenAtOnce before (fileEntries file delimiter) after)) :
    (((m.runCalls before).1.readFromFile file delimiter).runCalls after).1 = final ∧
      ∀ thread, ofThread thread ((m.runCalls before).2 ++
        (((m.runCalls before).1.readFromFile file delimiter).runCalls after).2) = ofThread thread log := by
  obtain ⟨ends, returned⟩ := runAll_of_interleave run
  obtain ⟨sameMap, sameReplies⟩ := @runAll_congr m _ _ same
  have whole : (m.runAll (takenAtOnce before (fileEntries file delimiter) after)).1 =
      (((m.runCalls before).1.readFromFile file delimiter).runCalls after).1 ∧
      (m.runAll (takenAtOnce before (fileEntries file delimiter) after)).2.filterMap logged =
        (m.runCalls before).2 ++ (((m.runCalls before).1.readFromFile file delimiter).runCalls after).2 := by
    rw [takenAtOnce, runAll_append, runAll_append]
    simp only [runAll_calls, runAll_entries, List.filterMap_append, List.append_nil, readFromFile, and_self]
  refine ⟨?_, fun thread => ?_⟩
  · rw [← whole.1, ← sameMap, ends]
  · rw [← whole.2, ← returned, ofThread_logged, ofThread_logged, sameReplies]

/-- One thread sees the first line of the file, and another one removes the second before it is there. -/
theorem half_read_ordered : ∃ final log,
    interleave {} (fileEntries (some "a 1\nb 2\n".toList) ' ')
      [.addNext, .call 1 (.contains ['a']), .call 2 (.remove ['b']), .addNext] = some (final, log) ∧
    (((runCalls {} [(2, .remove ['b'])]).1.readFromFile (some "a 1\nb 2\n".toList) ' ').runCalls
      [(1, .contains ['a'])]).1 = final ∧
    ∀ thread, ofThread thread ((runCalls {} [(2, .remove ['b'])]).2 ++
      (((runCalls {} [(2, .remove ['b'])]).1.readFromFile (some "a 1\nb 2\n".toList) ' ').runCalls
        [(1, .contains ['a'])]).2) = ofThread thread log := by
  have read : lines ⟨"a 1\nb 2\n".toList, false⟩ = ["a 1".toList, "b 2".toList] :=
    lines_written ["a 1".toList, "b 2".toList] (by decide)
  have entries : fileEntries (some "a 1\nb 2\n".toList) ' ' = [(['a'], ['1']), (['b'], ['2'])] := by
    rw [fileEntries, read]
    decide
  have run : interleave {} (fileEntries (some "a 1\nb 2\n".toList) ' ')
      [.addNext, .call 1 (.contains ['a']), .call 2 (.remove ['b']), .addNext] =
        some (((({} : ThreadSafeMap Text Text).add ['a'] ['1']).remove ['b']).add ['b'] ['2'],
          [⟨1, .contains ['a'], .present ((({} : ThreadSafeMap Text Text).add ['a'] ['1']).contains ['a'])⟩,
            ⟨2, .remove ['b'], .nothing⟩]) := by
    rw [entries]
    rfl
  have same : SameOrders (takenIn (fileEntries (some "a 1\nb 2\n".toList) ' ')
      [.addNext, .call 1 (.contains ['a']), .call 2 (.remove ['b']), .addNext])
      (takenAtOnce [(2, .remove ['b'])] (fileEntries (some "a 1\nb 2\n".toList) ' ') [(1, .contains ['a'])]) := by
    rw [entries]
    constructor
    · intro key
      by_cases onA : ['a'] = key
      · subst onA
        decide
      · simp [takenIn, takenAtOnce, ofEntry, ofCall, Taken.key, MapCall.key, List.filter_cons, onA]
    · intro owner
      by_cases one : some 1 = owner
      · subst one
        decide
      · by_cases two : some 2 = owner
        · subst two
          decide
        · simp [takenIn, takenAtOnce, ofEntry, ofCall, List.filter_cons, one, two]
  exact ⟨_, _, run, outcome_of_orders run same⟩

section Files
variable {files : List (Option Text)} {key value : Text}

/-- One `readFromFile` after the other. -/
def readFiles (m : ThreadSafeMap Text Text) (files : List (Option Text)) (delimiter : Char) :
    ThreadSafeMap Text Text := files.foldl (fun m file => m.readFromFile file delimiter) m

theorem readFiles_entries :
    m.readFiles files delimiter = m.addAll (files.flatMap fun file => fileEntries file delimiter) := by
  induction files generalizing m with
  | nil => rfl
  | cons file files ih =>
    rw [List.flatMap_cons, addAll, List.foldl_append]
    exact ih

/-- What was added to an empty map replaces the entries of its keys in another one. -/
theorem getElem?_addAll_over : (m.addAll entries).map_[key]? =
    (({} : ThreadSafeMap Text Text).addAll entries).map_[key]?.or m.map_[key]? := by
  rw [getElem?_addAll, getElem?_addAll, Option.or_assoc]
  simp

/-- Files that are read one after the other, whatever is in them, can be replaced by one, to which the map that is
read from them is written. -/
theorem files_compacted (other : delimiter ≠ '\n') :
    m.readFromFile (some ((({} : ThreadSafeMap Text Text).readFiles files delimiter).writeToFile delimiter))
      delimiter = m.readFiles files delimiter := by
  have writable : ∀ key value, (({} : ThreadSafeMap Text Text).readFiles files delimiter).Entry key value →
      Writable delimiter key value := by
    intro key value found
    rw [readFiles_entries] at found
    obtain ⟨file, _, member⟩ := List.mem_flatMap.mp (mem_of_addAll found)
    cases file with
    | none => simp [fileEntries] at member
    | some content => exact writable_of_mem_fileEntries member
  have again := read_written other writable
  refine ext_entries fun key => ?_
  calc (m.readFromFile (some ((({} : ThreadSafeMap Text Text).readFiles files delimiter).writeToFile delimiter))
        delimiter).map_[key]?
      = (({} : ThreadSafeMap Text Text).readFiles files delimiter).map_[key]?.or m.map_[key]? := by
        rw [readFromFile, getElem?_addAll_over, ← readFromFile, again]
    _ = (m.readFiles files delimiter).map_[key]? := by
        rw [readFiles_entries, readFiles_entries, ← getElem?_addAll_over]

theorem mixed_file_compacted : storedUsers.readFromFile (some ((({} : ThreadSafeMap Text Text).readFiles
      [some mixedFile, none, some "bob 3".toList] ' ').writeToFile ' ')) ' ' =
    storedUsers.readFiles [some mixedFile, none, some "bob 3".toList] ' ' :=
  files_compacted (by decide)

end Files

end ThreadSafeMap

end Signaling
