import Signaling.ExchangeEnd
import Signaling.Machine.Completion

namespace Signaling
open Machine CText

namespace DirectExchange

/-- A step of one of the programs, or the callback that the answerer waits for. -/
def Pushes (s : DirectExchange) : ExchangeEvent → Prop
  | .offerer _ | .answerer _ => True
  | .answererGathered _ => s.answererPhase = .spinning ∧ s.sdpGenerated = false
  | .offererGathered _ | .offererCandidate _ | .answererCandidate _ => False

/-- The offerer has not announced its candidates yet. -/
def announces (s : DirectExchange) : Bool :=
  match s.offererPhase with
  | .sendingSdp | .waitingSdp | .counting => true
  | _ => false

/-- The offerer has gathered what it has still to send: a description, and a candidate that is not empty. -/
structure Gathered (s : DirectExchange) : Prop where
  description : s.offererPhase = .sendingSdp → s.offerer.localSdp ≠ []
  candidate : s.announces = true → ∃ candidate ∈ s.offerer.localCandidates.take
    (candidateNumber s.offerer.localCandidates).toNat, ofBuffer candidate ≠ []

/-- The steps that `main` of `offerer.cpp` has left. -/
def offererLeft (s : DirectExchange) : Nat :=
  match s.offererPhase with
  | .sendingSdp => 7 + (candidateNumber s.offerer.localCandidates).toNat
  | .waitingSdp => 6 + (candidateNumber s.offerer.localCandidates).toNat
  | .counting => 5 + (candidateNumber s.offerer.localCandidates).toNat
  | .sendingCandidates number i => 4 + (number.toNat - i)
  | .waitingCount => 3
  | .waitingCandidate => 2
  | .messaging => 1
  | .ended => 0

/-- The steps that both programs have left, with the callback of the answerer. -/
def left (s : DirectExchange) : Nat := s.offererLeft + s.answererPhase.left + (!s.sdpGenerated).toNat

/-- Both programs have ended. -/
def Ended (s : DirectExchange) : Prop := s.offererPhase = .ended ∧ s.answererPhase = .ended

section Steps
variable {past : List (DirectExchange × ExchangeEvent)} {s t : DirectExchange} {e : ExchangeEvent} {a : MainStep}

theorem Gathered.fed (gathered : s.Gathered) : s.Fed e := by
  cases e with
  | offerer a =>
    cases a with
    | go => exact ⟨gathered.description, fun counting => gathered.candidate (by simp [announces, counting])⟩
    | recv n raised => trivial
  | _ => trivial

/-- What is gathered stays, and is not asked for twice. -/
theorem Gathered.offerer (gathered : s.Gathered) (offered : s.Offered a t) :
    t.Gathered ∧ t.offererLeft < s.offererLeft := by
  cases offered with
  | sendSdp atPhase =>
    refine ⟨⟨by simp, fun _ => gathered.candidate (by simp [announces, atPhase])⟩, ?_⟩
    simp only [offererLeft, atPhase]
    omega
  | @receiveSdp n raised _ _ _ atPhase =>
    have candidate := gathered.candidate (by simp [announces, atPhase])
    refine ⟨⟨by cases raised <;> simp, fun _ => candidate⟩, ?_⟩
    cases raised with
    | true =>
      simp only [offererLeft, atPhase, if_true]
      omega
    | false => simp [offererLeft, atPhase]
  | sendCount atPhase =>
    refine ⟨⟨by simp, by simp [announces]⟩, ?_⟩
    simp only [offererLeft, atPhase]
    omega
  | sendCandidate atPhase more =>
    refine ⟨⟨by simp, by simp [announces]⟩, ?_⟩
    simp only [offererLeft, atPhase]
    omega
  | sentCandidates atPhase =>
    refine ⟨⟨by simp, by simp [announces]⟩, ?_⟩
    simp only [offererLeft, atPhase]
    omega
  | receiveCount atPhase => exact ⟨⟨by simp, by simp [announces]⟩, by simp [offererLeft, atPhase]⟩
  | @receiveCandidate n raised _ _ _ atPhase =>
    refine ⟨⟨by cases raised <;> simp, by cases raised <;> simp [announces]⟩, ?_⟩
    cases raised <;> simp [offererLeft, atPhase]
  | finish atPhase => exact ⟨⟨by simp, by simp [announces]⟩, by simp [offererLeft, atPhase]⟩

/-- The answerer touches nothing of the offerer but the channels. -/
theorem Answered.others (answered : s.Answered a t) :
    t.offerer = s.offerer ∧ t.offererPhase = s.offererPhase ∧ t.sdpGenerated = s.sdpGenerated := by
  cases answered <;> exact ⟨rfl, rfl, rfl⟩

theorem Offered.others (offered : s.Offered a t) :
    t.answererPhase = s.answererPhase ∧ t.sdpGenerated = s.sdpGenerated := by
  cases offered <;> exact ⟨rfl, rfl⟩

theorem Gathered.of_offerer (gathered : s.Gathered) (same : t.offerer = s.offerer)
    (phase : t.offererPhase = s.offererPhase) : t.Gathered ∧ t.offererLeft = s.offererLeft := by
  refine ⟨⟨?_, ?_⟩, by rw [offererLeft, offererLeft, same, phase]⟩
  · rw [same, phase]
    exact gathered.description
  · rw [announces, same, phase]
    exact gathered.candidate

theorem Gathered.step (gathered : s.Gathered) (pushes : s.Pushes e) (stepped : s.step e = some t) :
    t.Gathered ∧ t.left < s.left := by
  cases step_moved stepped with
  | offererGathered | offererCandidate | answererCandidate => exact pushes.elim
  | answererGathered =>
    refine ⟨⟨gathered.description, gathered.candidate⟩, ?_⟩
    simp only [left, offererLeft, pushes.2, Bool.not_false, Bool.not_true, Bool.toNat_true, Bool.toNat_false]
    omega
  | offerer offered =>
    obtain ⟨there, less⟩ := gathered.offerer offered
    obtain ⟨phase, generated⟩ := offered.others
    refine ⟨there, ?_⟩
    simp only [left, phase, generated]
    omega
  | answerer answered =>
    obtain ⟨side, phase, generated⟩ := answered.others
    obtain ⟨there, same⟩ := gathered.of_offerer side phase
    have less := left_step stepped
    rw [show (s.byAnswerer (.answerer _)).toNat = 1 from rfl] at less
    refine ⟨there, ?_⟩
    simp only [left, same, generated]
    omega

/-- One of the programs can go on, the callback comes, or both have ended. -/
theorem Staged.goes_on (staged : Staged past s) (flowing : s.Flowing) :
    s.Ended ∨ ∃ e, s.Pushes e ∧ (s.step e).isSome = true := by
  rcases staged.moves flowing with ended | ⟨spinning, ungenerated⟩ | ⟨a, offerer | answerer⟩
  · exact Or.inl ended
  · exact Or.inr ⟨.answererGathered [], ⟨spinning, ungenerated⟩, by simp [DirectExchange.step, spinning]⟩
  · exact Or.inr ⟨.offerer a, trivial, offerer⟩
  · exact Or.inr ⟨.answerer a, trivial, answerer⟩

end Steps

end DirectExchange

end Signaling
