import Signaling.MapFile

namespace Signaling
open Machine CText GetLine

namespace ThreadSafeMap

/-- A call that takes the mutex once. -/
inductive MapCall
  | add (key value : Text)
  | edit (key value : Text)
  | remove (key : Text)
  | get (key : Text)
  | contains (key : Text)
  deriving DecidableEq, Repr

inductive Reply
  | nothing
  | value (value : Text)
  | present (present : Bool)
  deriving DecidableEq, Repr

/-- What a thread called, and what it got back. -/
structure Called where
  thread : Nat
  call : MapCall
  reply : Reply
  deriving DecidableEq, Repr

def runCall (m : ThreadSafeMap Text Text) : MapCall → ThreadSafeMap Text Text × Reply
  | .add key value => (m.add key value, .nothing)
  | .edit key value => (m.edit key value, .nothing)
  | .remove key => (m.remove key, .nothing)
  | .get key => (m, .value (m.get key))
  | .contains key => (m, .present (m.contains key))

/-- Calls of several threads, one after the other. -/
def runCalls : ThreadSafeMap Text Text → List (Nat × MapCall) → ThreadSafeMap Text Text × List Called
  | m, [] => (m, [])
  | m, (thread, call) :: rest =>
    let (m', reply) := m.runCall call
    let (final, log) := runCalls m' rest
    (final, ⟨thread, call, reply⟩ :: log)

/-- A section that holds the mutex: one `add` of `readFromFile`, or a call of another thread. -/
inductive Section
  | addNext
  | call (thread : Nat) (call : MapCall)
  deriving DecidableEq, Repr

/-- A `readFromFile` that has these entries still to add, interleaved with calls of other threads; it
is `none` where the sections are not those of a whole `readFromFile`. -/
def interleave : ThreadSafeMap Text Text → List (Text × Text) → List Section →
    Option (ThreadSafeMap Text Text × List Called)
  | m, [], [] => some (m, [])
  | m, entry :: entries, .addNext :: rest => interleave (m.add entry.1 entry.2) entries rest
  | m, entries, .call thread call :: rest =>
    let (m', reply) := m.runCall call
    (interleave m' entries rest).map fun (final, log) => (final, ⟨thread, call, reply⟩ :: log)
  | _, _, _ => none

def ofThread (thread : Nat) (log : List Called) : List Called := log.filter (·.thread = thread)

/-- Some order of whole calls, with `readFromFile` as one of them, gives every thread the same replies
to the same calls in the same order, and the same map. -/
def Serialisable (m : ThreadSafeMap Text Text) (file : Option Text) (delimiter : Char)
    (final : ThreadSafeMap Text Text) (log : List Called) : Prop :=
  ∃ before after, (((m.runCalls before).1.readFromFile file delimiter).runCalls after).1 = final ∧
    ∀ thread, ofThread thread ((m.runCalls before).2 ++
      (((m.runCalls before).1.readFromFile file delimiter).runCalls after).2) = ofThread thread log

/-- However a `readFromFile` of the file is interleaved, it could have been one step. -/
def ReadAtomic (file : Option Text) (delimiter : Char) : Prop :=
  ∀ m steps final log, interleave m (fileEntries file delimiter) steps = some (final, log) →
    Serialisable m file delimiter final log

/-- The number of lines with a delimiter and something after it. -/
def entryLines (file : Option Text) (delimiter : Char) : Nat :=
  match file with
  | some content => (lines ⟨content, false⟩).countP (fun line => delimiter ∈ line.dropLast)
  | none => 0

variable {m final : ThreadSafeMap Text Text} {delimiter : Char} {line : Text} {file : Option Text}
  {steps : List Section} {log : List Called} {calls : List (Nat × MapCall)}

theorem parseLine_isSome (one : '\n' ∉ line) :
    (parseLine delimiter line).isSome = decide (delimiter ∈ line.dropLast) := by
  rw [Bool.eq_iff_iff, Option.isSome_iff_exists, decide_eq_true_iff]
  constructor
  · rintro ⟨⟨key, value⟩, parsed⟩
    obtain ⟨rfl, _, filled⟩ := (parseLine_eq_some one).mp parsed
    rw [List.dropLast_append_cons, List.dropLast_cons_of_ne_nil filled]
    simp
  · intro inside
    obtain ⟨key, rest, split, free⟩ := List.eq_append_cons_of_mem inside
    have filled : line ≠ [] := by
      rintro rfl
      simp at inside
    have whole : line = key ++ delimiter :: (rest ++ [line.getLast filled]) := by
      rw [← List.cons_append, ← List.append_assoc, ← split, List.dropLast_append_getLast]
    exact ⟨_, (parseLine_eq_some one).mpr ⟨whole, free, by simp⟩⟩

theorem length_fileEntries : (fileEntries file delimiter).length = entryLines file delimiter := by
  cases file with
  | none => rfl
  | some content =>
    rw [fileEntries, entryLines, List.length_filterMap_eq_countP]
    exact List.countP_congr fun line member => by rw [parseLine_isSome (newline_notMem_lines member)]

theorem runCalls_cons {thread : Nat} {call : MapCall} : m.runCalls ((thread, call) :: calls) =
    (((m.runCall call).1.runCalls calls).1,
      ⟨thread, call, (m.runCall call).2⟩ :: ((m.runCall call).1.runCalls calls).2) := rfl

/-- A log says which calls were made. -/
theorem runCalls_of_log (logged : (m.runCalls calls).2 = log) :
    (m.runCalls calls).1 = (m.runCalls (log.map fun called => (called.thread, called.call))).1 := by
  subst logged
  induction calls generalizing m with
  | nil => rfl
  | cons call calls ih => exact ih

theorem interleave_addNext {entry : Text × Text} {entries : List (Text × Text)} :
    interleave m (entry :: entries) (.addNext :: steps) = interleave (m.add entry.1 entry.2) entries steps := by
  rw [interleave]

theorem interleave_call {entries : List (Text × Text)} {thread : Nat} {call : MapCall} :
    interleave m entries (.call thread call :: steps) =
      (interleave (m.runCall call).1 entries steps).map
        fun done => (done.1, ⟨thread, call, (m.runCall call).2⟩ :: done.2) := by
  cases entries <;> rw [interleave]

theorem runCalls_of_interleave (run : interleave m [] steps = some (final, log)) :
    ∃ calls, m.runCalls calls = (final, log) := by
  induction steps generalizing m log with
  | nil =>
    cases Option.some.inj run
    exact ⟨[], rfl⟩
  | cons step steps ih =>
    cases step with
    | addNext => simp [interleave] at run
    | call thread call =>
      rw [interleave_call] at run
      obtain ⟨⟨final', log'⟩, rest, same⟩ := Option.map_eq_some_iff.mp run
      cases same
      obtain ⟨calls, done⟩ := ih rest
      exact ⟨(thread, call) :: calls, by rw [runCalls_cons, done]⟩

/-- One entry is added in one step. -/
theorem runCalls_of_interleave_one {entry : Text × Text}
    (run : interleave m [entry] steps = some (final, log)) :
    ∃ before after, (((m.runCalls before).1.add entry.1 entry.2).runCalls after).1 = final ∧
      (m.runCalls before).2 ++ (((m.runCalls before).1.add entry.1 entry.2).runCalls after).2 = log := by
  induction steps generalizing m log with
  | nil => simp [interleave] at run
  | cons step steps ih =>
    cases step with
    | addNext =>
      rw [interleave_addNext] at run
      obtain ⟨calls, done⟩ := runCalls_of_interleave run
      exact ⟨[], calls, congrArg Prod.fst done, congrArg Prod.snd done⟩
    | call thread call =>
      rw [interleave_call] at run
      obtain ⟨⟨final', log'⟩, rest, same⟩ := Option.map_eq_some_iff.mp run
      cases same
      obtain ⟨before, after, ends, logged⟩ := ih rest
      exact ⟨(thread, call) :: before, after, ends, by rw [← logged]; rfl⟩

/-- A log all of whose threads see what one thread did is what that thread did. -/
theorem eq_of_ofThread {log' : List Called} (thread : Nat) (one : ∀ called ∈ log', called.thread = thread)
    (same : ∀ thread, ofThread thread log = ofThread thread log') : log = log' := by
  have whole : ofThread thread log' = log' :=
    List.filter_eq_self.mpr fun called member => by simp [one called member]
  have only : ∀ called ∈ log, called.thread = thread := by
    intro called member
    have kept : called ∈ ofThread called.thread log := List.mem_filter.mpr ⟨member, by simp⟩
    rw [same] at kept
    exact one called (List.mem_filter.mp kept).1
  rw [← whole, ← same, ofThread, List.filter_eq_self.mpr fun called member => by simp [only called member]]

/-- The calls of a thread that sees the first entry before the last one is there. -/
theorem interleave_between (first last : Text × Text) (mid : List (Text × Text)) :
    interleave {} (first :: (mid ++ [last]))
        (.addNext :: .call 1 (.contains first.1) ::
          (mid.map (fun _ => .addNext) ++ [.call 1 (.remove last.1), .addNext])) =
      some ((((({} : ThreadSafeMap Text Text).add first.1 first.2).addAll mid).remove last.1).add last.1 last.2,
        [⟨1, .contains first.1, .present true⟩, ⟨1, .remove last.1, .nothing⟩]) := by
  have rest : ∀ m : ThreadSafeMap Text Text,
      interleave m (mid ++ [last]) (mid.map (fun _ => .addNext) ++ [.call 1 (.remove last.1), .addNext]) =
        some (((m.addAll mid).remove last.1).add last.1 last.2, [⟨1, .remove last.1, .nothing⟩]) := by
    induction mid with
    | nil => intro m; rfl
    | cons entry mid ih => intro m; exact ih (m.add entry.1 entry.2)
  have seen : (({} : ThreadSafeMap Text Text).add first.1 first.2).contains first.1 = true := by
    simp [contains, add]
  rw [interleave_addNext, interleave_call]
  show (interleave (add {} first.1 first.2) (mid ++ [last]) _).map _ = _
  rw [rest, Option.map_some, runCall, seen]

/-- No order of whole calls lets a thread see an entry of the file in an empty map and then remove
another one that is there at the end. -/
theorem not_serialisable_between {first last : Text} (there : final.contains last = true) :
    ¬ Serialisable {} file delimiter final
      [⟨1, .contains first, .present true⟩, ⟨1, .remove last, .nothing⟩] := by
  rintro ⟨before, after, ends, same⟩
  have order := eq_of_ofThread 1 (by simp) same
  cases before with
  | cons call before =>
    obtain ⟨thread, call⟩ := call
    rw [runCalls_cons, List.cons_append] at order
    obtain ⟨head, -⟩ := List.cons.inj order
    -- a call before the `readFromFile` finds nothing
    cases head
  | nil =>
    have ended := runCalls_of_log order
    rw [ends] at ended
    rw [ended] at there
    simp [runCalls, runCall, remove, contains] at there

/-- A `readFromFile` is one step to the other threads exactly if it takes the mutex at most once. -/
theorem readAtomic_iff : ReadAtomic file delimiter ↔ entryLines file delimiter ≤ 1 := by
  rw [← length_fileEntries]
  constructor
  · intro atomic
    by_contra many
    obtain ⟨first, rest, entries⟩ := List.exists_cons_of_length_pos
      (show 0 < (fileEntries file delimiter).length by omega)
    have more : rest ≠ [] := by
      rintro rfl
      simp [entries] at many
    rw [← List.dropLast_append_getLast more] at entries
    have run := interleave_between first (rest.getLast more) rest.dropLast
    rw [← entries] at run
    exact not_serialisable_between (by simp [contains, add]) (atomic _ _ _ _ run)
  · intro few m steps final log run
    cases entries : fileEntries file delimiter with
    | nil =>
      rw [entries] at run
      obtain ⟨calls, done⟩ := runCalls_of_interleave run
      refine ⟨calls, [], ?_, fun thread => ?_⟩
      · simp [readFromFile, entries, addAll, runCalls, done]
      · simp [readFromFile, entries, addAll, runCalls, done]
    | cons entry rest =>
      rw [entries, List.length_cons] at few
      have alone : rest = [] := List.length_eq_zero_iff.mp (by omega)
      rw [alone] at entries
      rw [entries] at run
      obtain ⟨before, after, ends, logged⟩ := runCalls_of_interleave_one run
      refine ⟨before, after, ?_, fun thread => ?_⟩
      · simpa [readFromFile, entries, addAll] using ends
      · simpa [readFromFile, entries, addAll] using congrArg (ofThread thread) logged

/-- A thread sees the first line of the file and not the second. -/
theorem half_read_seen : ∃ final log,
    interleave {} (fileEntries (some "a 1\nb 2\n".toList) ' ')
      [.addNext, .call 1 (.contains ['a']), .call 1 (.remove ['b']), .addNext] = some (final, log) ∧
    ¬ Serialisable {} (some "a 1\nb 2\n".toList) ' ' final log := by
  have read : lines ⟨"a 1\nb 2\n".toList, false⟩ = ["a 1".toList, "b 2".toList] :=
    lines_written ["a 1".toList, "b 2".toList] (by decide)
  have entries : fileEntries (some "a 1\nb 2\n".toList) ' ' = [(['a'], ['1']), (['b'], ['2'])] := by
    rw [fileEntries, read]
    decide
  have run := interleave_between (['a'], ['1']) (['b'], ['2']) []
  rw [entries]
  exact ⟨_, _, run, not_serialisable_between (by simp [contains, add])⟩

end ThreadSafeMap

end Signaling
