import Mathlib.Data.List.Infix
import Signaling.DirectExchange

namespace Signaling
open Machine CText

theorem candidateNumber_le (candidates : List Text) : candidateNumber candidates ≤ candidates.length := by
  unfold candidateNumber
  simp only [Int.bmod]
  omega

namespace DirectExchange

/-- The candidates are texts that fit the other side's array, and neither side counts none. -/
def Proper (s : DirectExchange) : ExchangeEvent → Prop
  | .offererCandidate candidate =>
    candidate ≠ [] ∧ nul ∉ candidate ∧ candidate.length < answererBufferSize
  | .answererCandidate candidate =>
    candidate ≠ [] ∧ nul ∉ candidate ∧ candidate.length < offererBufferSize
  | .offerer .go => s.offererPhase = .counting → s.offerer.localCandidates ≠ []
  | .answerer .go => s.answererPhase = .counting → s.answerer.localCandidates ≠ []
  | _ => True

/-- A description is received with one `recv`. -/
def WholeSdp (s : DirectExchange) : ExchangeEvent → Prop
  | .offerer (.recv n _) => s.offererPhase = .waitingSdp → n = s.toOfferer.length
  | .answerer (.recv n _) => s.answererPhase = .waitingSdp → n = s.toAnswerer.length
  | _ => True

instance (s : DirectExchange) (e : ExchangeEvent) : Decidable (s.Proper e) := by
  unfold Proper
  cases_type* ExchangeEvent MainStep <;> infer_instance

instance (s : DirectExchange) (e : ExchangeEvent) : Decidable (s.WholeSdp e) := by
  unfold WholeSdp
  cases_type* ExchangeEvent MainStep <;> infer_instance

/-- The number of candidates that the offerer has sent. -/
def candidatesSent (candidates : List Text) : OffererPhase → Nat
  | .sendingCandidates _ i => i
  | _ => (candidateNumber candidates).toNat

/-- All that the offerer has sent after its description. -/
def offeredStream (s : DirectExchange) : Text :=
  s.offerer.announced.elim [] fun candidates => intBytes (candidateNumber candidates) ++
    (candidates.take (candidatesSent candidates s.offererPhase)).flatMap ofBuffer

/-- All that the answerer has sent after its description. -/
def answeredStream (s : DirectExchange) : Text :=
  s.answerer.announced.elim [] fun candidates => intBytes (candidateNumber candidates) ++
    if s.answererPhase = .sendingCandidate then [] else candidates.headD []

/-- The descriptions are exchanged before anything else. -/
structure Ordered (s : DirectExchange) : Prop where
  first : s.offererPhase = .sendingSdp → s.answererPhase = .waitingSdp ∧ s.toAnswerer = []
  opening : s.answererPhase = .waitingSdp ∨ s.answererPhase = .spinning →
    s.toOfferer = [] ∧ (s.offererPhase = .sendingSdp ∨ s.offererPhase = .waitingSdp)
  spinning : s.answererPhase = .spinning → s.toAnswerer = []
  waiting : s.offererPhase = .waitingSdp → s.answererPhase = .waitingSdp ∨ s.answererPhase = .spinning ∨
    s.answererPhase = .ended ∧ s.answerer.announced = none ∨ s.answererPhase = .waitingCount ∧ s.toAnswerer = []

/-- What the answerer has still to receive is what the offerer has sent after its description. -/
structure Offering (s : DirectExchange) : Prop where
  proper : ∀ candidate ∈ s.offerer.localCandidates, candidate ≠ [] ∧ nul ∉ candidate
  listed : ∀ candidates ∈ s.offerer.announced, candidates <+: s.offerer.localCandidates
  before : s.offererPhase = .sendingSdp ∨ s.offererPhase = .waitingSdp ∨ s.offererPhase = .counting →
    s.offerer.announced = none
  sending : ∀ number i, s.offererPhase = .sendingCandidates number i →
    ∃ candidates, s.offerer.announced = some candidates ∧ number = candidateNumber candidates ∧ i ≤ number.toNat
  count : s.answererPhase = .waitingCount → s.toAnswerer = s.offeredStream
  candidate : s.answererPhase = .waitingCandidate →
    s.answerer.remoteCandCount ++ s.toAnswerer = s.offeredStream ∧ s.answerer.remoteCandCount.length ≤ 4 ∧
      (s.answerer.remoteCandCount ≠ [] ∨ s.offererPhase = .ended ∧ s.offerer.announced = none)
  unadded : s.answererPhase = .waitingSdp ∨ s.answererPhase = .spinning ∨ s.answererPhase = .waitingCount ∨
    s.answererPhase = .waitingCandidate → s.answerer.added = []

/-- What the offerer has still to receive is what the answerer has sent after its description. -/
structure Answering (s : DirectExchange) : Prop where
  proper : ∀ candidate ∈ s.answerer.localCandidates, candidate ≠ [] ∧ nul ∉ candidate
  listed : ∀ candidates ∈ s.answerer.announced, candidates ≠ [] ∧ candidates <+: s.answerer.localCandidates
  before : s.answererPhase = .waitingSdp ∨ s.answererPhase = .spinning ∨ s.answererPhase = .waitingCount ∨
    s.answererPhase = .waitingCandidate ∨ s.answererPhase = .counting → s.answerer.announced = none
  sending : s.answererPhase = .sendingCandidate → ∃ candidates, s.answerer.announced = some candidates
  count : s.offererPhase = .counting ∨ (∃ number i, s.offererPhase = .sendingCandidates number i) ∨
    s.offererPhase = .waitingCount → s.toOfferer = s.answeredStream
  candidate : s.offererPhase = .waitingCandidate →
    s.offerer.remoteCandCount ++ s.toOfferer = s.answeredStream ∧ s.offerer.remoteCandCount.length ≤ 4 ∧
      (s.offerer.remoteCandCount ≠ [] ∨ s.answererPhase = .ended ∧ s.answerer.announced = none)
  unadded : s.offererPhase ≠ .messaging → s.offererPhase ≠ .ended → s.offerer.added = []

section Order
variable {s t : DirectExchange} {e : ExchangeEvent} {a : MainStep}

/-- The offerer goes on after its description when the answerer has sent its own. -/
theorem Ordered.past (ordered : s.Ordered) (sent : s.offererPhase ≠ .sendingSdp)
    (received : s.offererPhase ≠ .waitingSdp) : s.answererPhase ≠ .waitingSdp ∧ s.answererPhase ≠ .spinning := by
  constructor
  · intro waits
    exact (ordered.opening (Or.inl waits)).2.elim sent received
  · intro spins
    exact (ordered.opening (Or.inr spins)).2.elim sent received

theorem ordered_of_past (past : s.answererPhase ≠ .waitingSdp ∧ s.answererPhase ≠ .spinning)
    (sent : s.offererPhase ≠ .sendingSdp) (received : s.offererPhase ≠ .waitingSdp) : s.Ordered where
  first sending := absurd sending sent
  opening early := early.elim (fun waits => absurd waits past.1) (fun spins => absurd spins past.2)
  spinning spins := absurd spins past.2
  waiting waits := absurd waits received

theorem Ordered.offerer (ordered : s.Ordered) (offered : s.Offered a t) : t.Ordered := by
  cases offered with
  | sendSdp atPhase =>
    have start := (ordered.first atPhase).1
    exact ⟨by simp, fun early => ⟨(ordered.opening early).1, Or.inr rfl⟩, by simp [start], fun _ => Or.inl start⟩
  | @receiveSdp n raised bytes rest text atPhase grant =>
    have past : s.answererPhase ≠ .waitingSdp ∧ s.answererPhase ≠ .spinning := by
      constructor
      · intro waits
        exact filled_of_granted grant (by simp [waits]) (ordered.opening (Or.inl waits)).1
      · intro spins
        exact filled_of_granted grant (by simp [spins]) (ordered.opening (Or.inr spins)).1
    cases raised <;> exact ordered_of_past past (by simp) (by simp)
  | @receiveCandidate n raised _ _ _ atPhase =>
    have past := ordered.past (by simp [atPhase]) (by simp [atPhase])
    cases raised <;> exact ordered_of_past past (by simp) (by simp)
  | sendCount atPhase | sendCandidate atPhase | sentCandidates atPhase | receiveCount atPhase | finish atPhase =>
    exact ordered_of_past (ordered.past (by simp [atPhase]) (by simp [atPhase])) (by simp) (by simp)

/-- The offerer is past its description when the answerer has received something after it. -/
theorem Ordered.later (ordered : s.Ordered) (phase : s.answererPhase = .waitingCandidate ∨
    s.answererPhase = .counting ∨ s.answererPhase = .sendingCandidate ∨ s.answererPhase = .sleeping) :
    s.offererPhase ≠ .sendingSdp ∧ s.offererPhase ≠ .waitingSdp := by
  constructor
  · intro sending
    have waits := (ordered.first sending).1
    simp [waits] at phase
  · intro waiting
    rcases ordered.waiting waiting with waits | spins | ⟨ended, _⟩ | ⟨counts, _⟩
    · simp [waits] at phase
    · simp [spins] at phase
    · simp [ended] at phase
    · simp [counts] at phase

theorem Ordered.answerer (ordered : s.Ordered) (answering : s.Answering) (whole : s.WholeSdp (.answerer a))
    (answered : s.Answered a t) : t.Ordered := by
  cases answered with
  | @receiveSdp n raised bytes rest text atPhase grant =>
    have empty := granted_all grant (whole atPhase)
    obtain ⟨quiet, early⟩ := ordered.opening (Or.inl atPhase)
    have waits : s.offererPhase = .waitingSdp := by
      rcases early with sending | waits
      · exact absurd (ordered.first sending).2 (filled_of_granted grant (by simp [sending]))
      · exact waits
    have unannounced := answering.before (Or.inl atPhase)
    refine ⟨by simp [waits], fun _ => ⟨quiet, Or.inr waits⟩, fun _ => empty, fun _ => ?_⟩
    cases raised with
    | true => exact Or.inr (Or.inr (Or.inl ⟨rfl, unannounced⟩))
    | false => exact Or.inr (Or.inl rfl)
  | sendSdp atPhase =>
    obtain ⟨_, early⟩ := ordered.opening (Or.inr atPhase)
    have waits : s.offererPhase = .waitingSdp := by
      rcases early with sending | waits
      · simp [(ordered.first sending).1] at atPhase
      · exact waits
    exact ⟨by simp [waits], by simp, by simp, fun _ => Or.inr (Or.inr (Or.inr ⟨rfl, ordered.spinning atPhase⟩))⟩
  | receiveCount atPhase grant =>
    have sent : s.offererPhase ≠ .sendingSdp := by
      intro sending
      simp [(ordered.first sending).1] at atPhase
    have received : s.offererPhase ≠ .waitingSdp := by
      intro waiting
      rcases ordered.waiting waiting with waits | spins | ⟨ended, _⟩ | ⟨_, empty⟩
      · simp [waits] at atPhase
      · simp [spins] at atPhase
      · simp [ended] at atPhase
      · exact filled_of_granted grant (by simp [waiting]) empty
    exact ordered_of_past (by simp) sent received
  | @receiveCandidate n raised _ _ _ atPhase =>
    obtain ⟨sent, received⟩ := ordered.later (Or.inl atPhase)
    cases raised <;> exact ordered_of_past (by simp) sent received
  | sendCount atPhase | noCandidate atPhase | sendCandidate atPhase | finish atPhase =>
    obtain ⟨sent, received⟩ := ordered.later (by simp [atPhase])
    exact ordered_of_past (by simp) sent received

theorem Ordered.step (ordered : s.Ordered) (answering : s.Answering) (whole : s.WholeSdp e)
    (stepped : s.step e = some t) : t.Ordered := by
  cases step_moved stepped with
  | offerer offered => exact ordered.offerer offered
  | answerer answered => exact ordered.answerer answering whole answered
  | offererGathered | offererCandidate | answererGathered | answererCandidate =>
    exact ⟨ordered.first, ordered.opening, ordered.spinning, ordered.waiting⟩

end Order

section Offering
variable {s t : DirectExchange} {e : ExchangeEvent} {a : MainStep}

theorem offeredStream_eq_nil : s.offeredStream = [] ↔ s.offerer.announced = none := by
  unfold offeredStream
  cases s.offerer.announced with
  | none => simp
  | some candidates => simp [intBytes]

@[simp] theorem candidatesSent_sending {candidates : List Text} {number : Int} {i : Nat} :
    candidatesSent candidates (.sendingCandidates number i) = i := rfl

/-- What the offerer sends after its description is added to its stream. -/
theorem Offering.sends (offering : s.Offering) (stepped : s.Offered a t) (later : s.offererPhase ≠ .sendingSdp) :
    ∃ more, t.toAnswerer = s.toAnswerer ++ more ∧ t.offeredStream = s.offeredStream ++ more := by
  cases stepped with
  | sendSdp atPhase => exact absurd atPhase later
  | receiveSdp atPhase =>
    have unannounced := offering.before (Or.inr (Or.inl atPhase))
    exact ⟨[], by simp, by simp [offeredStream, unannounced]⟩
  | sendCount atPhase =>
    have unannounced := offering.before (Or.inr (Or.inr atPhase))
    refine ⟨intBytes (candidateNumber s.offerer.localCandidates), by simp, ?_⟩
    simp [offeredStream, unannounced]
  | @sendCandidate number i candidate atPhase more found =>
    obtain ⟨candidates, announced, rfl, _⟩ := offering.sending number i atPhase
    refine ⟨ofBuffer candidate, by simp, ?_⟩
    have size := candidateNumber_le candidates
    have inside : i < candidates.length := by omega
    have same : candidates[i]? = some candidate := by
      rw [← found]
      exact List.prefix_iff_getElem?.mp (offering.listed candidates announced) i inside ▸ List.getElem?_eq_getElem inside
    simp [offeredStream, announced, atPhase, List.take_add_one, same]
  | @sentCandidates number i atPhase done =>
    obtain ⟨candidates, announced, rfl, reached⟩ := offering.sending number i atPhase
    have all : (candidateNumber candidates).toNat = i := by omega
    refine ⟨[], by simp, ?_⟩
    have sent : candidatesSent candidates .waitingCount = i := all
    simp [offeredStream, announced, atPhase, sent]
  | receiveCount atPhase =>
    refine ⟨[], by simp, ?_⟩
    simp [offeredStream, atPhase, candidatesSent]
  | @receiveCandidate n raised _ _ _ atPhase =>
    refine ⟨[], by simp, ?_⟩
    cases raised <;> simp [offeredStream, atPhase, candidatesSent]
  | finish atPhase =>
    refine ⟨[], by simp, ?_⟩
    simp [offeredStream, atPhase, candidatesSent]

theorem Offered.answerer_eq (stepped : s.Offered a t) :
    t.answerer = s.answerer ∧ t.answererPhase = s.answererPhase ∧ s.offererPhase ≠ .ended := by
  cases stepped with
  | sendSdp atPhase | receiveSdp atPhase | sendCount atPhase | sendCandidate atPhase | sentCandidates atPhase
  | receiveCount atPhase | receiveCandidate atPhase | finish atPhase => exact ⟨rfl, rfl, by simp [atPhase]⟩

/-- The answerer receives the longer stream. -/
theorem Offering.grown (offering : s.Offering) (stepped : s.Offered a t) (later : s.offererPhase ≠ .sendingSdp)
    (proper : ∀ candidate ∈ t.offerer.localCandidates, candidate ≠ [] ∧ nul ∉ candidate)
    (listed : ∀ candidates ∈ t.offerer.announced, candidates <+: t.offerer.localCandidates)
    (before : t.offererPhase = .sendingSdp ∨ t.offererPhase = .waitingSdp ∨ t.offererPhase = .counting →
      t.offerer.announced = none)
    (sending : ∀ number i, t.offererPhase = .sendingCandidates number i →
      ∃ candidates, t.offerer.announced = some candidates ∧ number = candidateNumber candidates ∧ i ≤ number.toNat) :
    t.Offering := by
  obtain ⟨more, queue, stream⟩ := offering.sends stepped later
  obtain ⟨same, phase, alive⟩ := stepped.answerer_eq
  refine ⟨proper, listed, before, sending, fun waits => ?_, fun waits => ?_, fun early => ?_⟩
  · rw [queue, stream, offering.count (phase ▸ waits)]
  · obtain ⟨joined, small, some_⟩ := offering.candidate (phase ▸ waits)
    refine ⟨?_, same ▸ small, Or.inl (same ▸ some_.resolve_right fun gone => alive gone.1)⟩
    rw [same, queue, stream, ← joined, List.append_assoc]
  · rw [same]
    exact offering.unadded (phase ▸ early)

theorem Offering.offerer (offering : s.Offering) (ordered : s.Ordered) (stepped : s.Offered a t) : t.Offering := by
  have grown := offering.grown stepped
  cases stepped with
  | sendSdp atPhase =>
    have start := (ordered.first atPhase).1
    exact ⟨offering.proper, offering.listed, fun _ => offering.before (Or.inl atPhase), by simp, by simp [start],
      by simp [start], offering.unadded⟩
  | @receiveSdp n raised _ _ _ atPhase =>
    have unannounced := offering.before (Or.inr (Or.inl atPhase))
    exact grown (by simp [atPhase]) offering.proper offering.listed (fun _ => unannounced) (by cases raised <;> simp)
  | sendCount atPhase =>
    refine grown (by simp [atPhase]) offering.proper ?_ (by simp) ?_
    · intro candidates announced
      cases Option.some.inj announced
      exact List.prefix_refl _
    · intro number i sending
      obtain ⟨rfl, rfl⟩ := OffererPhase.sendingCandidates.inj sending
      exact ⟨_, rfl, rfl, Nat.zero_le _⟩
  | @sendCandidate number i candidate atPhase more found =>
    obtain ⟨candidates, announced, numbered, reached⟩ := offering.sending number i atPhase
    refine grown (by simp [atPhase]) offering.proper offering.listed (by simp) ?_
    intro number' i' sending
    obtain ⟨rfl, rfl⟩ := OffererPhase.sendingCandidates.inj sending
    exact ⟨candidates, announced, numbered, by omega⟩
  | sentCandidates atPhase | receiveCount atPhase | finish atPhase =>
    exact grown (by simp [atPhase]) offering.proper offering.listed (by simp) (by simp)
  | @receiveCandidate n raised _ _ _ atPhase =>
    exact grown (by simp [atPhase]) offering.proper offering.listed (by cases raised <;> simp)
      (by cases raised <;> simp)

theorem Offering.answerer (offering : s.Offering) (ordered : s.Ordered) (stepped : s.Answered a t) :
    t.Offering := by
  have stream : t.offeredStream = s.offeredStream := by
    cases stepped <;> rfl
  cases stepped with
  | @receiveSdp n raised _ _ _ atPhase =>
    refine ⟨offering.proper, offering.listed, offering.before, offering.sending, ?_, ?_,
      fun _ => offering.unadded (Or.inl atPhase)⟩
    · cases raised <;> simp
    · cases raised <;> simp
  | sendSdp atPhase =>
    have early := (ordered.opening (Or.inr atPhase)).2
    have unannounced := offering.before (early.elim Or.inl fun waits => Or.inr (Or.inl waits))
    refine ⟨offering.proper, offering.listed, offering.before, offering.sending, fun _ => ?_, by simp,
      fun _ => offering.unadded (Or.inr (Or.inl atPhase))⟩
    rw [stream, offeredStream_eq_nil.mpr unannounced]
    exact ordered.spinning atPhase
  | @receiveCount n bytes rest atPhase grant =>
    have whole := offering.count atPhase
    obtain ⟨split, length, small⟩ := granted_split grant
    refine ⟨offering.proper, offering.listed, offering.before, offering.sending, by simp, fun _ => ⟨?_, ?_, ?_⟩,
      fun _ => offering.unadded (Or.inr (Or.inr (Or.inl atPhase)))⟩
    · rw [stream, ← whole]
      exact split.symm
    · exact length.le.trans small
    · by_cases none : bytes = []
      · subst none
        obtain ⟨empty, ended⟩ := granted_nothing grant
        exact Or.inr ⟨of_decide_eq_true ended, offeredStream_eq_nil.mp (whole.symm.trans empty)⟩
      · exact Or.inl none
  | @receiveCandidate n raised _ _ _ atPhase =>
    refine ⟨offering.proper, offering.listed, offering.before, offering.sending, ?_, ?_, ?_⟩
    · cases raised <;> simp
    · cases raised <;> simp
    · cases raised <;> simp
  | sendCount | noCandidate | sendCandidate | finish =>
    exact ⟨offering.proper, offering.listed, offering.before, offering.sending, by simp, by simp, by simp⟩

theorem Offering.step (offering : s.Offering) (ordered : s.Ordered) (proper : s.Proper e)
    (stepped : s.step e = some t) : t.Offering := by
  cases step_moved stepped with
  | offerer offered => exact offering.offerer ordered offered
  | answerer answered => exact offering.answerer ordered answered
  | offererCandidate candidate =>
    refine ⟨fun other member => ?_, fun candidates announced => ?_, offering.before, offering.sending, offering.count,
      offering.candidate, offering.unadded⟩
    · rcases List.mem_append.mp member with before | new
      · exact offering.proper other before
      · cases List.mem_singleton.mp new
        exact ⟨proper.1, proper.2.1⟩
    · exact (offering.listed candidates announced).trans (List.prefix_append _ _)
  | offererGathered | answererGathered | answererCandidate =>
    exact ⟨offering.proper, offering.listed, offering.before, offering.sending, offering.count, offering.candidate,
      offering.unadded⟩

end Offering

section Answering
variable {s t : DirectExchange} {e : ExchangeEvent} {a : MainStep}

theorem answeredStream_eq_nil : s.answeredStream = [] ↔ s.answerer.announced = none := by
  unfold answeredStream
  cases s.answerer.announced with
  | none => simp
  | some candidates => simp [intBytes]

/-- What the answerer sends after its description is added to its stream. -/
theorem Answering.sends (answering : s.Answering) (stepped : s.Answered a t) (later : s.answererPhase ≠ .spinning) :
    ∃ more, t.toOfferer = s.toOfferer ++ more ∧ t.answeredStream = s.answeredStream ++ more := by
  cases stepped with
  | sendSdp atPhase => exact absurd atPhase later
  | receiveSdp atPhase | receiveCount atPhase | receiveCandidate atPhase =>
    have unannounced := answering.before (by simp [atPhase])
    exact ⟨[], by simp, by simp [answeredStream, unannounced]⟩
  | sendCount atPhase =>
    have unannounced := answering.before (by simp [atPhase])
    refine ⟨intBytes (candidateNumber s.answerer.localCandidates), by simp, ?_⟩
    simp [answeredStream, unannounced]
  | noCandidate atPhase none =>
    obtain ⟨candidates, announced⟩ := answering.sending atPhase
    obtain ⟨filled, starts⟩ := answering.listed candidates announced
    rw [none] at starts
    exact absurd (List.prefix_nil.mp starts) filled
  | @sendCandidate myLocalCand more atPhase found =>
    obtain ⟨candidates, announced⟩ := answering.sending atPhase
    obtain ⟨filled, starts⟩ := answering.listed candidates announced
    have first : candidates.headD [] = myLocalCand := by
      cases candidates with
      | nil => exact absurd rfl filled
      | cons c candidates =>
        rw [found] at starts
        exact (List.cons_prefix_cons.mp starts).1
    refine ⟨myLocalCand, by simp, ?_⟩
    simp only [answeredStream, announced, Option.elim_some, atPhase, first]
    simp
  | finish atPhase =>
    refine ⟨[], by simp, ?_⟩
    simp [answeredStream, atPhase]

theorem Answered.offerer_eq (stepped : s.Answered a t) :
    t.offerer = s.offerer ∧ t.offererPhase = s.offererPhase ∧ s.answererPhase ≠ .ended := by
  cases stepped with
  | receiveSdp atPhase | sendSdp atPhase | receiveCount atPhase | receiveCandidate atPhase | sendCount atPhase
  | noCandidate atPhase | sendCandidate atPhase | finish atPhase => exact ⟨rfl, rfl, by simp [atPhase]⟩

/-- The offerer receives the longer stream. -/
theorem Answering.grown (answering : s.Answering) (stepped : s.Answered a t) (later : s.answererPhase ≠ .spinning)
    (proper : ∀ candidate ∈ t.answerer.localCandidates, candidate ≠ [] ∧ nul ∉ candidate)
    (listed : ∀ candidates ∈ t.answerer.announced, candidates ≠ [] ∧ candidates <+: t.answerer.localCandidates)
    (before : t.answererPhase = .waitingSdp ∨ t.answererPhase = .spinning ∨ t.answererPhase = .waitingCount ∨
      t.answererPhase = .waitingCandidate ∨ t.answererPhase = .counting → t.answerer.announced = none)
    (sending : t.answererPhase = .sendingCandidate → ∃ candidates, t.answerer.announced = some candidates) :
    t.Answering := by
  obtain ⟨more, queue, stream⟩ := answering.sends stepped later
  obtain ⟨same, phase, alive⟩ := stepped.offerer_eq
  refine ⟨proper, listed, before, sending, fun waits => ?_, fun waits => ?_, fun talks ends => ?_⟩
  · rw [queue, stream, answering.count (phase ▸ waits)]
  · obtain ⟨joined, small, some_⟩ := answering.candidate (phase ▸ waits)
    refine ⟨?_, same ▸ small, Or.inl (same ▸ some_.resolve_right fun gone => alive gone.1)⟩
    rw [same, queue, stream, ← joined, List.append_assoc]
  · rw [same]
    exact answering.unadded (phase ▸ talks) (phase ▸ ends)

theorem Answering.answerer (answering : s.Answering) (ordered : s.Ordered) (proper : s.Proper (.answerer a))
    (stepped : s.Answered a t) : t.Answering := by
  have grown := answering.grown stepped
  cases stepped with
  | @receiveSdp n raised _ _ _ atPhase =>
    have unannounced := answering.before (by simp [atPhase])
    exact grown (by simp [atPhase]) answering.proper answering.listed (fun _ => unannounced) (by cases raised <;> simp)
  | sendSdp atPhase =>
    obtain ⟨_, early⟩ := ordered.opening (Or.inr atPhase)
    refine ⟨answering.proper, answering.listed, fun _ => answering.before (by simp [atPhase]), by simp, ?_, ?_,
      answering.unadded⟩
    · intro counts
      rcases early with sends | waits
      · simp [sends] at counts
      · simp [waits] at counts
    · intro waits
      rcases early with sends | waiting
      · simp [sends] at waits
      · simp [waiting] at waits
  | receiveCount atPhase =>
    have unannounced := answering.before (by simp [atPhase])
    exact grown (by simp [atPhase]) answering.proper answering.listed (fun _ => unannounced) (by simp)
  | @receiveCandidate n raised _ _ _ atPhase =>
    have unannounced := answering.before (by simp [atPhase])
    exact grown (by simp [atPhase]) answering.proper answering.listed (fun _ => unannounced) (by cases raised <;> simp)
  | sendCount atPhase =>
    refine grown (by simp [atPhase]) answering.proper ?_ (by simp) (fun _ => ⟨_, rfl⟩)
    intro candidates announced
    cases Option.some.inj announced
    exact ⟨proper atPhase, List.prefix_refl _⟩
  | noCandidate atPhase | sendCandidate atPhase | finish atPhase =>
    exact grown (by simp [atPhase]) answering.proper answering.listed (by simp) (by simp)

theorem Answering.offerer (answering : s.Answering) (ordered : s.Ordered) (whole : s.WholeSdp (.offerer a))
    (stepped : s.Offered a t) : t.Answering := by
  have stream : t.answeredStream = s.answeredStream := by
    cases stepped <;> rfl
  cases stepped with
  | sendSdp atPhase =>
    exact ⟨answering.proper, answering.listed, answering.before, answering.sending, by simp, by simp,
      fun _ _ => answering.unadded (by simp [atPhase]) (by simp [atPhase])⟩
  | @receiveSdp n raised bytes rest text atPhase grant =>
    have empty := granted_all grant (whole atPhase)
    have unannounced : s.answerer.announced = none := by
      rcases ordered.waiting atPhase with waits | spins | ⟨_, none⟩ | ⟨counts, _⟩
      · exact answering.before (Or.inl waits)
      · exact answering.before (Or.inr (Or.inl spins))
      · exact none
      · exact answering.before (Or.inr (Or.inr (Or.inl counts)))
    refine ⟨answering.proper, answering.listed, answering.before, answering.sending, fun _ => ?_, ?_, fun _ _ => ?_⟩
    · rw [stream, answeredStream_eq_nil.mpr unannounced]
      exact empty
    · cases raised <;> simp
    · exact answering.unadded (by simp [atPhase]) (by simp [atPhase])
  | sendCount atPhase =>
    exact ⟨answering.proper, answering.listed, answering.before, answering.sending,
      fun _ => answering.count (Or.inl atPhase), by simp,
      fun _ _ => answering.unadded (by simp [atPhase]) (by simp [atPhase])⟩
  | sendCandidate atPhase | sentCandidates atPhase =>
    exact ⟨answering.proper, answering.listed, answering.before, answering.sending,
      fun _ => answering.count (Or.inr (Or.inl ⟨_, _, atPhase⟩)), by simp,
      fun _ _ => answering.unadded (by simp [atPhase]) (by simp [atPhase])⟩
  | @receiveCount n bytes rest atPhase grant =>
    have all := answering.count (Or.inr (Or.inr atPhase))
    obtain ⟨split, length, small⟩ := granted_split grant
    refine ⟨answering.proper, answering.listed, answering.before, answering.sending, by simp, fun _ => ⟨?_, ?_, ?_⟩,
      fun _ _ => answering.unadded (by simp [atPhase]) (by simp [atPhase])⟩
    · rw [stream, ← all]
      exact split.symm
    · exact length.le.trans small
    · by_cases none : bytes = []
      · subst none
        obtain ⟨empty, ended⟩ := granted_nothing grant
        exact Or.inr ⟨of_decide_eq_true ended, answeredStream_eq_nil.mp (all.symm.trans empty)⟩
      · exact Or.inl none
  | @receiveCandidate n raised _ _ _ atPhase =>
    refine ⟨answering.proper, answering.listed, answering.before, answering.sending, ?_, ?_, ?_⟩
    · cases raised <;> simp
    · cases raised <;> simp
    · cases raised <;> simp
  | finish =>
    exact ⟨answering.proper, answering.listed, answering.before, answering.sending, by simp, by simp, by simp⟩

theorem Answering.step (answering : s.Answering) (ordered : s.Ordered) (proper : s.Proper e) (whole : s.WholeSdp e)
    (stepped : s.step e = some t) : t.Answering := by
  cases step_moved stepped with
  | offerer offered => exact answering.offerer ordered whole offered
  | answerer answered => exact answering.answerer ordered proper answered
  | offererGathered | offererCandidate | answererGathered =>
    exact ⟨answering.proper, answering.listed, answering.before, answering.sending, answering.count,
      answering.candidate, answering.unadded⟩
  | answererCandidate candidate =>
    refine ⟨fun other member => ?_, fun candidates announced => ?_, answering.before, answering.sending,
      answering.count, answering.candidate, answering.unadded⟩
    · rcases List.mem_append.mp member with before | new
      · exact answering.proper other before
      · cases List.mem_singleton.mp new
        exact ⟨proper.1, proper.2.1⟩
    · obtain ⟨filled, starts⟩ := answering.listed candidates announced
      exact ⟨filled, starts.trans (List.prefix_append _ _)⟩

end Answering

section Regular
variable {s t : DirectExchange} {e : ExchangeEvent}

/-- What is known of a state in which the descriptions have been exchanged whole. -/
structure Regular (s : DirectExchange) : Prop where
  ordered : s.Ordered
  offering : s.Offering
  answering : s.Answering

theorem regular_initial : initial.Regular where
  ordered := ⟨by simp [initial], by simp [initial], by simp [initial], by simp [initial]⟩
  offering := ⟨by simp [initial], by simp [initial], by simp [initial], by simp [initial], by simp [initial],
    by simp [initial], by simp [initial]⟩
  answering := ⟨by simp [initial], by simp [initial], by simp [initial], by simp [initial], by simp [initial],
    by simp [initial], by simp [initial]⟩

theorem Regular.step (regular : s.Regular) (proper : s.Proper e) (whole : s.WholeSdp e)
    (stepped : s.step e = some t) : t.Regular where
  ordered := regular.ordered.step regular.answering whole stepped
  offering := regular.offering.step regular.ordered proper stepped
  answering := regular.answering.step regular.ordered proper whole stepped

end Regular

end DirectExchange

end Signaling
