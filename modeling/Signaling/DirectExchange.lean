import Signaling.Machine.ByteChannel
import Signaling.Machine.CText

namespace Signaling
open Machine CText

/-- `BUFFER_SIZE` of `offerer.cpp`. -/
def offererBufferSize : Nat := 1024

/-- `BUFFER_SIZE` of `answerer.cpp`. -/
def answererBufferSize : Nat := 2048

/-- `int candidate_number = local_candidates.size()`. -/
@[irreducible] def candidateNumber (candidates : List Text) : Int := Int.bmod candidates.length 0x100000000

/-- The bytes of an `int`, the lowest first. -/
def intBytes (n : Int) : Text :=
  let low := (n % 0x100000000).toNat
  [low % 0x100, low / 0x100 % 0x100, low / 0x10000 % 0x100, low / 0x1000000].map Char.ofNat

/-- `message.dump()` of an object with these members. -/
def dumped (members : Text) : Text := '{' :: members

/-- The string in a zeroed array of `size` characters; without a NUL there its use is undefined. -/
def arrayText (size : Nat) (bytes : Text) : Option Text :=
  if (ofBuffer bytes).length < size then some (ofBuffer bytes) else none

theorem arrayText_eq_some {size : Nat} {bytes text : Text} :
    arrayText size bytes = some text ↔ text = ofBuffer bytes ∧ text.length < size := by
  rw [arrayText]
  split_ifs with short
  · rw [Option.some_inj]
    exact ⟨fun same => ⟨same.symm, same ▸ short⟩, fun split => split.1.symm⟩
  · refine iff_of_false (by simp) ?_
    rintro ⟨rfl, fits⟩
    exact short fits

/-- Where `main` of `offerer.cpp` is. -/
inductive OffererPhase
  | sendingSdp
  | waitingSdp
  | counting
  | sendingCandidates (candidateNumber : Int) (i : Nat)
  | waitingCount
  | waitingCandidate
  | messaging
  | ended
  deriving DecidableEq, Repr

/-- Where `main` of `answerer.cpp` is; `spinning` is its loop on `sdp_generated`. -/
inductive AnswererPhase
  | waitingSdp
  | spinning
  | waitingCount
  | waitingCandidate
  | counting
  | sendingCandidate
  | sleeping
  | ended
  deriving DecidableEq, Repr

/-- What both programs have. `remoteCandCount` is what `recv` wrote over the zero of
`remote_cand_count`, `added` what was passed to `addRemoteCandidate`, and `announced` the vector of
candidates at the moment when its size was taken. -/
structure Side where
  localSdp : Text := []
  localCandidates : List Text := []
  announced : Option (List Text) := none
  remoteSdp : Text := []
  remoteCandCount : Text := []
  added : List Text := []
  deriving DecidableEq, Repr

structure DirectExchange where
  offerer : Side := {}
  offererPhase : OffererPhase := .sendingSdp
  answerer : Side := {}
  answererPhase : AnswererPhase := .waitingSdp
  sdpGenerated : Bool := false
  toAnswerer : Text := []
  toOfferer : Text := []
  deriving DecidableEq, Repr

/-- A step of `main`. An exception that leaves it, or the `try` block that is all of it, may be raised on
what `recv` has returned. -/
inductive MainStep
  | go
  | recv (n : Nat) (raised : Bool)
  deriving DecidableEq, Repr

/-- Besides the steps of `main` the callbacks of its peer connection. -/
inductive ExchangeEvent
  | offererGathered (members : Text)
  | offererCandidate (candidate : Text)
  | offerer (a : MainStep)
  | answererGathered (members : Text)
  | answererCandidate (candidate : Text)
  | answerer (a : MainStep)
  deriving DecidableEq, Repr

namespace DirectExchange

def initial : DirectExchange := {}

/-- `main` of `offerer.cpp` from the connection on. -/
def offererStep (s : DirectExchange) (a : MainStep) : Option DirectExchange :=
  let side := s.offerer
  let shut := decide (s.answererPhase = .ended)
  match s.offererPhase, a with
  | .sendingSdp, .go =>
    some { s with toAnswerer := s.toAnswerer ++ ofBuffer side.localSdp, offererPhase := .waitingSdp }
  | .waitingSdp, .recv n raised =>
    (granted offererBufferSize s.toOfferer shut n).bind fun (bytes, rest) =>
      (arrayText offererBufferSize bytes).map fun text => { s with
        toOfferer := rest, offerer := { side with remoteSdp := text },
        offererPhase := if raised then .ended else .counting }
  | .counting, .go =>
    let number := candidateNumber side.localCandidates
    some { s with toAnswerer := s.toAnswerer ++ intBytes number,
                  offerer := { side with announced := some side.localCandidates },
                  offererPhase := .sendingCandidates number 0 }
  | .sendingCandidates number i, .go =>
    if i < number then
      (side.localCandidates[i]?).map fun candidate => { s with
        toAnswerer := s.toAnswerer ++ ofBuffer candidate,
        offererPhase := .sendingCandidates number (i + 1) }
    else some { s with offererPhase := .waitingCount }
  | .waitingCount, .recv n false =>
    (granted 4 s.toOfferer shut n).map fun (bytes, rest) => { s with
      toOfferer := rest, offerer := { side with remoteCandCount := bytes }, offererPhase := .waitingCandidate }
  | .waitingCandidate, .recv n raised =>
    (granted offererBufferSize s.toOfferer shut n).bind fun (bytes, rest) =>
      (arrayText offererBufferSize bytes).map fun text => { s with
        toOfferer := rest, offerer := { side with added := side.added ++ [text] },
        offererPhase := if raised then .ended else .messaging }
  | .messaging, .go => some { s with offererPhase := .ended }
  | _, _ => none

/-- `main` of `answerer.cpp` from the connection on. -/
def answererStep (s : DirectExchange) (a : MainStep) : Option DirectExchange :=
  let side := s.answerer
  let shut := decide (s.offererPhase = .ended)
  match s.answererPhase, a with
  | .waitingSdp, .recv n raised =>
    (granted answererBufferSize s.toAnswerer shut n).bind fun (bytes, rest) =>
      (arrayText answererBufferSize bytes).map fun text => { s with
        toAnswerer := rest, answerer := { side with remoteSdp := text },
        answererPhase := if raised then .ended else .spinning }
  | .spinning, .go =>
    if s.sdpGenerated then
      some { s with toOfferer := s.toOfferer ++ ofBuffer side.localSdp, answererPhase := .waitingCount }
    else none
  | .waitingCount, .recv n false =>
    (granted 4 s.toAnswerer shut n).map fun (bytes, rest) => { s with
      toAnswerer := rest, answerer := { side with remoteCandCount := bytes }, answererPhase := .waitingCandidate }
  | .waitingCandidate, .recv n raised =>
    (granted answererBufferSize s.toAnswerer shut n).bind fun (bytes, rest) =>
      (arrayText answererBufferSize bytes).map fun text => { s with
        toAnswerer := rest, answerer := { side with added := side.added ++ [text] },
        answererPhase := if raised then .ended else .counting }
  | .counting, .go =>
    some { s with toOfferer := s.toOfferer ++ intBytes (candidateNumber side.localCandidates),
                  answerer := { side with announced := some side.localCandidates },
                  answererPhase := .sendingCandidate }
  | .sendingCandidate, .go =>
    -- `at(0)` throws where the vector is empty, and nothing catches that
    match side.localCandidates with
    | [] => some { s with answererPhase := .ended }
    | myLocalCand :: _ =>
      some { s with toOfferer := s.toOfferer ++ myLocalCand, answererPhase := .sleeping }
  | .sleeping, .go => some { s with answererPhase := .ended }
  | _, _ => none

/-- The two programs and their callbacks, one step at a time. The answerer's peer connection has nothing
to gather for before it has the offer. -/
def step (s : DirectExchange) : ExchangeEvent → Option DirectExchange
  | .offererGathered members => some { s with offerer := { s.offerer with localSdp := dumped members } }
  | .offererCandidate candidate => some { s with
      offerer := { s.offerer with localCandidates := s.offerer.localCandidates ++ [candidate] } }
  | .offerer a => s.offererStep a
  | .answererGathered members =>
    if s.answererPhase = .waitingSdp then none
    else some { s with answerer := { s.answerer with localSdp := dumped members }, sdpGenerated := true }
  | .answererCandidate candidate =>
    if s.answererPhase = .waitingSdp then none
    else some { s with
      answerer := { s.answerer with localCandidates := s.answerer.localCandidates ++ [candidate] } }
  | .answerer a => s.answererStep a

/-- The ways of `offererStep`. -/
inductive Offered (s : DirectExchange) : MainStep → DirectExchange → Prop
  | sendSdp : s.offererPhase = .sendingSdp →
      Offered s .go { s with
        toAnswerer := s.toAnswerer ++ ofBuffer s.offerer.localSdp, offererPhase := .waitingSdp }
  | receiveSdp {n raised bytes rest text} : s.offererPhase = .waitingSdp →
      granted offererBufferSize s.toOfferer (decide (s.answererPhase = .ended)) n = some (bytes, rest) →
      arrayText offererBufferSize bytes = some text →
      Offered s (.recv n raised) { s with
        toOfferer := rest, offerer := { s.offerer with remoteSdp := text },
        offererPhase := if raised then .ended else .counting }
  | sendCount : s.offererPhase = .counting →
      Offered s .go { s with
        toAnswerer := s.toAnswerer ++ intBytes (candidateNumber s.offerer.localCandidates),
        offerer := { s.offerer with announced := some s.offerer.localCandidates },
        offererPhase := .sendingCandidates (candidateNumber s.offerer.localCandidates) 0 }
  | sendCandidate {number i candidate} : s.offererPhase = .sendingCandidates number i →
      i < number → s.offerer.localCandidates[i]? = some candidate →
      Offered s .go { s with
        toAnswerer := s.toAnswerer ++ ofBuffer candidate,
        offererPhase := .sendingCandidates number (i + 1) }
  | sentCandidates {number i} : s.offererPhase = .sendingCandidates number i →
      number ≤ i → Offered s .go { s with offererPhase := .waitingCount }
  | receiveCount {n bytes rest} : s.offererPhase = .waitingCount →
      granted 4 s.toOfferer (decide (s.answererPhase = .ended)) n = some (bytes, rest) →
      Offered s (.recv n false) { s with
        toOfferer := rest, offerer := { s.offerer with remoteCandCount := bytes }, offererPhase := .waitingCandidate }
  | receiveCandidate {n raised bytes rest text} : s.offererPhase = .waitingCandidate →
      granted offererBufferSize s.toOfferer (decide (s.answererPhase = .ended)) n = some (bytes, rest) →
      arrayText offererBufferSize bytes = some text →
      Offered s (.recv n raised) { s with
        toOfferer := rest, offerer := { s.offerer with added := s.offerer.added ++ [text] },
        offererPhase := if raised then .ended else .messaging }
  | finish : s.offererPhase = .messaging → Offered s .go { s with offererPhase := .ended }

/-- The ways of `answererStep`. -/
inductive Answered (s : DirectExchange) : MainStep → DirectExchange → Prop
  | receiveSdp {n raised bytes rest text} : s.answererPhase = .waitingSdp →
      granted answererBufferSize s.toAnswerer (decide (s.offererPhase = .ended)) n = some (bytes, rest) →
      arrayText answererBufferSize bytes = some text →
      Answered s (.recv n raised) { s with
        toAnswerer := rest, answerer := { s.answerer with remoteSdp := text },
        answererPhase := if raised then .ended else .spinning }
  | sendSdp : s.answererPhase = .spinning → s.sdpGenerated = true →
      Answered s .go { s with
        toOfferer := s.toOfferer ++ ofBuffer s.answerer.localSdp, answererPhase := .waitingCount }
  | receiveCount {n bytes rest} : s.answererPhase = .waitingCount →
      granted 4 s.toAnswerer (decide (s.offererPhase = .ended)) n = some (bytes, rest) →
      Answered s (.recv n false) { s with
        toAnswerer := rest, answerer := { s.answerer with remoteCandCount := bytes },
        answererPhase := .waitingCandidate }
  | receiveCandidate {n raised bytes rest text} : s.answererPhase = .waitingCandidate →
      granted answererBufferSize s.toAnswerer (decide (s.offererPhase = .ended)) n = some (bytes, rest) →
      arrayText answererBufferSize bytes = some text →
      Answered s (.recv n raised) { s with
        toAnswerer := rest, answerer := { s.answerer with added := s.answerer.added ++ [text] },
        answererPhase := if raised then .ended else .counting }
  | sendCount : s.answererPhase = .counting →
      Answered s .go { s with
        toOfferer := s.toOfferer ++ intBytes (candidateNumber s.answerer.localCandidates),
        answerer := { s.answerer with announced := some s.answerer.localCandidates },
        answererPhase := .sendingCandidate }
  | noCandidate : s.answererPhase = .sendingCandidate → s.answerer.localCandidates = [] →
      Answered s .go { s with answererPhase := .ended }
  | sendCandidate {myLocalCand more} : s.answererPhase = .sendingCandidate →
      s.answerer.localCandidates = myLocalCand :: more →
      Answered s .go { s with toOfferer := s.toOfferer ++ myLocalCand, answererPhase := .sleeping }
  | finish : s.answererPhase = .sleeping → Answered s .go { s with answererPhase := .ended }

/-- The ways of `step`. -/
inductive Moved (s : DirectExchange) : ExchangeEvent → DirectExchange → Prop
  | offererGathered (members : Text) : Moved s (.offererGathered members)
      { s with offerer := { s.offerer with localSdp := dumped members } }
  | offererCandidate (candidate : Text) : Moved s (.offererCandidate candidate)
      { s with offerer := { s.offerer with localCandidates := s.offerer.localCandidates ++ [candidate] } }
  | offerer {a t} : s.Offered a t → Moved s (.offerer a) t
  | answererGathered (members : Text) : s.answererPhase ≠ .waitingSdp → Moved s (.answererGathered members)
      { s with answerer := { s.answerer with localSdp := dumped members }, sdpGenerated := true }
  | answererCandidate (candidate : Text) : s.answererPhase ≠ .waitingSdp → Moved s (.answererCandidate candidate)
      { s with answerer := { s.answerer with localCandidates := s.answerer.localCandidates ++ [candidate] } }
  | answerer {a t} : s.Answered a t → Moved s (.answerer a) t

section Steps
variable {s t : DirectExchange} {e : ExchangeEvent} {a : MainStep}

theorem offererStep_offered (stepped : s.offererStep a = some t) : s.Offered a t := by
  unfold offererStep at stepped
  dsimp only at stepped
  split at stepped
  · rename_i atPhase
    cases Option.some.inj stepped
    exact .sendSdp atPhase
  · rename_i atPhase
    obtain ⟨⟨bytes, rest⟩, grant, stepped⟩ := Option.bind_eq_some_iff.mp stepped
    obtain ⟨text, read, same⟩ := Option.map_eq_some_iff.mp stepped
    cases same
    exact .receiveSdp atPhase grant read
  · rename_i atPhase
    cases Option.some.inj stepped
    exact .sendCount atPhase
  · rename_i atPhase
    split_ifs at stepped with more
    · obtain ⟨candidate, found, same⟩ := Option.map_eq_some_iff.mp stepped
      cases same
      exact .sendCandidate atPhase more found
    · cases Option.some.inj stepped
      exact .sentCandidates atPhase (Int.not_lt.mp more)
  · rename_i atPhase
    obtain ⟨⟨bytes, rest⟩, grant, same⟩ := Option.map_eq_some_iff.mp stepped
    cases same
    exact .receiveCount atPhase grant
  · rename_i atPhase
    obtain ⟨⟨bytes, rest⟩, grant, stepped⟩ := Option.bind_eq_some_iff.mp stepped
    obtain ⟨text, read, same⟩ := Option.map_eq_some_iff.mp stepped
    cases same
    exact .receiveCandidate atPhase grant read
  · rename_i atPhase
    cases Option.some.inj stepped
    exact .finish atPhase
  · simp at stepped

theorem answererStep_answered (stepped : s.answererStep a = some t) : s.Answered a t := by
  unfold answererStep at stepped
  dsimp only at stepped
  split at stepped
  · rename_i atPhase
    obtain ⟨⟨bytes, rest⟩, grant, stepped⟩ := Option.bind_eq_some_iff.mp stepped
    obtain ⟨text, read, same⟩ := Option.map_eq_some_iff.mp stepped
    cases same
    exact .receiveSdp atPhase grant read
  · rename_i atPhase
    split_ifs at stepped with generated
    cases Option.some.inj stepped
    exact .sendSdp atPhase generated
  · rename_i atPhase
    obtain ⟨⟨bytes, rest⟩, grant, same⟩ := Option.map_eq_some_iff.mp stepped
    cases same
    exact .receiveCount atPhase grant
  · rename_i atPhase
    obtain ⟨⟨bytes, rest⟩, grant, stepped⟩ := Option.bind_eq_some_iff.mp stepped
    obtain ⟨text, read, same⟩ := Option.map_eq_some_iff.mp stepped
    cases same
    exact .receiveCandidate atPhase grant read
  · rename_i atPhase
    cases Option.some.inj stepped
    exact .sendCount atPhase
  · rename_i atPhase
    split at stepped
    · rename_i none
      cases Option.some.inj stepped
      exact .noCandidate atPhase none
    · rename_i found
      cases Option.some.inj stepped
      exact .sendCandidate atPhase found
  · rename_i atPhase
    cases Option.some.inj stepped
    exact .finish atPhase
  · simp at stepped

theorem step_moved (stepped : s.step e = some t) : s.Moved e t := by
  cases e with
  | offererGathered members =>
    cases Option.some.inj stepped
    exact .offererGathered members
  | offererCandidate candidate =>
    cases Option.some.inj stepped
    exact .offererCandidate candidate
  | offerer a => exact .offerer (offererStep_offered stepped)
  | answererGathered members =>
    rw [step] at stepped
    split_ifs at stepped with waits
    cases Option.some.inj stepped
    exact .answererGathered members waits
  | answererCandidate candidate =>
    rw [step] at stepped
    split_ifs at stepped with waits
    cases Option.some.inj stepped
    exact .answererCandidate candidate waits
  | answerer a => exact .answerer (answererStep_answered stepped)

end Steps

end DirectExchange

/-- The exchange of descriptions after both have been gathered, and of one candidate each. -/
def oneCandidateEach : List ExchangeEvent :=
  [.offererCandidate "a".toList, .offererGathered [], .offerer .go, .answerer (.recv 1 false),
    .answererCandidate "b".toList, .answererGathered [], .answerer .go, .offerer (.recv 1 false), .offerer .go,
    .offerer .go, .offerer .go, .answerer (.recv 4 false), .answerer (.recv 1 false), .answerer .go, .answerer .go,
    .offerer (.recv 4 false), .offerer (.recv 1 false), .offerer .go, .answerer .go]

end Signaling
