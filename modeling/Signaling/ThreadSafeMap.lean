import Mathlib.Data.List.Induction
import Signaling.Machine.GetLine

namespace Signaling
open Machine CText GetLine

/-- The class of the same name. The mutex is not part of it: a function that takes it once is one
step, and `readFromFile` takes it in each `add`. -/
structure ThreadSafeMap (K V : Type) [Ord K] where
  map_ : Std.ExtTreeMap K V compare := ∅

namespace ThreadSafeMap

section Operations
variable {K V : Type} [Ord K] [Std.TransOrd K]

def add (m : ThreadSafeMap K V) (key : K) (value : V) : ThreadSafeMap K V :=
  { m with map_ := m.map_.insert key value }

def edit (m : ThreadSafeMap K V) (key : K) (value : V) : ThreadSafeMap K V :=
  if m.map_.contains key then { m with map_ := m.map_.insert key value } else m

def remove (m : ThreadSafeMap K V) (key : K) : ThreadSafeMap K V := { m with map_ := m.map_.erase key }

/-- `V()` where the key is absent. -/
def get [Inhabited V] (m : ThreadSafeMap K V) (key : K) : V := (m.map_[key]?).getD default

def contains (m : ThreadSafeMap K V) (key : K) : Bool := m.map_.contains key

end Operations

/-- The contents of the file, in the order of the map. -/
def writeToFile (m : ThreadSafeMap Text Text) (delimiter : Char) : Text :=
  m.map_.toList.flatMap fun entry => entry.1 ++ [delimiter] ++ entry.2 ++ ['\n']

/-- The body of the loop of `readFromFile` up to `add`. -/
def parseLine (delimiter : Char) (line : Text) : Option (Text × Text) :=
  (getline delimiter ⟨line, false⟩).bind fun (key, iss) =>
    (getline '\n' iss).map fun (value, _) => (key, value)

/-- What `readFromFile` hands to `add`, one call after the other; nothing where the file was not
opened. -/
def fileEntries (file : Option Text) (delimiter : Char) : List (Text × Text) :=
  match file with
  | some content => (lines ⟨content, false⟩).filterMap (parseLine delimiter)
  | none => []

def addAll (m : ThreadSafeMap Text Text) (entries : List (Text × Text)) : ThreadSafeMap Text Text :=
  entries.foldl (fun m entry => m.add entry.1 entry.2) m

def readFromFile (m : ThreadSafeMap Text Text) (file : Option Text) (delimiter : Char) :
    ThreadSafeMap Text Text :=
  m.addAll (fileEntries file delimiter)

section Lemmas
variable {m m' : ThreadSafeMap Text Text} {entries : List (Text × Text)} {key value k : Text}
  {delimiter : Char} {line : Text}

theorem ext_entries (same : ∀ k : Text, m.map_[k]? = m'.map_[k]?) : m = m' := by
  cases m
  cases m'
  exact congrArg ThreadSafeMap.mk (Std.ExtTreeMap.ext_getElem? same)

theorem getElem?_add : (m.add key value).map_[k]? = if k = key then some value else m.map_[k]? := by
  rw [add, Std.ExtTreeMap.getElem?_insert]
  by_cases same : k = key
  · subst same
    simp
  · simp [same, Ne.symm same]

/-- The last entry of a key counts. -/
theorem getElem?_addAll : (m.addAll entries).map_[k]? =
    (((entries.filter (·.1 = k)).getLast?).map Prod.snd).or m.map_[k]? := by
  induction entries using List.reverseRecOn with
  | nil => rfl
  | append_singleton entries entry ih =>
    rw [addAll, List.foldl_append]
    show ((addAll m entries).add entry.1 entry.2).map_[k]? = _
    rw [getElem?_add, ih]
    by_cases same : k = entry.1
    · subst same
      simp
    · simp [same, Ne.symm same]

end Lemmas

end ThreadSafeMap

end Signaling
