import Signaling.ExchangeStreams
import Signaling.Machine.Trail

namespace Signaling
open Machine CText

/-- What has been passed to `addRemoteCandidate` is all that the other side has announced, and as many as
it has announced. -/
def Side.Gets (side other : Side) : Prop := side.added ≠ [] →
  other.announced = some side.added ∧ candidateNumber side.added = side.added.length

namespace DirectExchange

def Exchanged (_ : List (DirectExchange × ExchangeEvent)) (s : DirectExchange) : Prop :=
  s.answerer.Gets s.offerer ∧ s.offerer.Gets s.answerer

/-- The other side has announced one candidate, and it and its count are received with one `recv` each. -/
def Single (s : DirectExchange) : ExchangeEvent → Prop
  | .offerer (.recv n _) => s.offererPhase = .waitingCandidate → s.offerer.remoteCandCount.length = 4 ∧
      ∃ candidate, s.answerer.announced = some [candidate] ∧ n = candidate.length
  | .answerer (.recv n _) => s.answererPhase = .waitingCandidate → s.answerer.remoteCandCount.length = 4 ∧
      ∃ candidate, s.offerer.announced = some [candidate] ∧ n = candidate.length
  | _ => True

instance {n : Nat} : ∀ announced : Option (List Text),
    Decidable (∃ candidate, announced = some [candidate] ∧ n = candidate.length)
  | some [candidate] => decidable_of_iff (n = candidate.length) (by simp)
  | none | some [] | some (_ :: _ :: _) => isFalse (by simp)

instance (s : DirectExchange) (e : ExchangeEvent) : Decidable (s.Single e) := by
  unfold Single
  cases_type* ExchangeEvent MainStep <;> infer_instance

end DirectExchange

section Texts
variable {count queue bytes rest sent candidate : Text}

theorem candidateNumber_one : candidateNumber [candidate] = 1 := by
  unfold candidateNumber
  show Int.bmod 1 0x100000000 = 1
  decide

/-- What is left of a count of one that is split starts with a NUL, and so does what is received then. -/
theorem left_of_split_count (some_ : count ≠ []) (short : count.length < 4)
    (stream : count ++ queue = '\x01' :: nul :: nul :: nul :: sent) : ∃ more, queue = nul :: more := by
  rcases count with _ | ⟨a, _ | ⟨b, _ | ⟨c, _ | ⟨d, more⟩⟩⟩⟩
  · exact absurd rfl some_
  · exact ⟨_, (List.cons.inj stream).2⟩
  · exact ⟨_, (List.cons.inj (List.cons.inj stream).2).2⟩
  · exact ⟨_, (List.cons.inj (List.cons.inj (List.cons.inj stream).2).2).2⟩
  · simp only [List.length_cons] at short
    omega

/-- One candidate comes through as it is exactly where neither its count nor itself is split. -/
theorem received_candidate_iff (filled : candidate ≠ []) (free : nul ∉ candidate) (some_ : count ≠ [])
    (stream : count ++ queue = intBytes (candidateNumber [candidate]) ++ sent)
    (whole : sent = [] ∨ sent = candidate) (small : count.length ≤ 4) (split : queue = bytes ++ rest) :
    ofBuffer bytes = candidate ↔ count.length = 4 ∧ bytes.length = candidate.length := by
  have one : intBytes 1 = ['\x01', nul, nul, nul] := by decide
  rw [candidateNumber_one, one] at stream
  have left (short : count.length ≠ 4) : ∃ more, queue = nul :: more :=
    left_of_split_count some_ (lt_of_le_of_ne small short) stream
  have rest_ (full : count.length = 4) : queue = sent := (List.append_inj stream full).2
  constructor
  · intro same
    have full : count.length = 4 := by
      by_contra short
      obtain ⟨more, starts⟩ := left short
      rw [split] at starts
      cases bytes with
      | nil => exact filled same.symm
      | cons c bytes =>
        rw [(List.cons.inj starts).1] at same
        exact filled same.symm
    refine ⟨full, ?_⟩
    rcases whole with none | all
    · obtain ⟨blank, _⟩ := List.append_eq_nil_iff.mp ((split.symm.trans (rest_ full)).trans none)
      rw [blank] at same
      exact absurd same.symm filled
    · have parts : bytes ++ rest = candidate := (split.symm.trans (rest_ full)).trans all
      have plain : nul ∉ bytes := fun inside => free (parts ▸ List.mem_append_left _ inside)
      rw [← ofBuffer_of_free plain, same]
  · rintro ⟨full, length⟩
    rcases whole with none | all
    · obtain ⟨blank, _⟩ := List.append_eq_nil_iff.mp ((split.symm.trans (rest_ full)).trans none)
      rw [blank] at length
      exact absurd (List.length_eq_zero_iff.mp length.symm) filled
    · have parts : bytes ++ rest = candidate ++ [] := by
        rw [List.append_nil, ← all, ← rest_ full, split]
      rw [(List.append_inj parts length).1, ofBuffer_of_free free]

/-- What is passed on is the list announced exactly where that is of one candidate which comes through. -/
theorem announced_iff {announced : Option (List Text)} {n : Nat}
    (proper : ∀ candidate, announced = some [candidate] → candidate ≠ [] ∧ nul ∉ candidate)
    (stream : ∀ candidate, announced = some [candidate] → ∃ sent, (sent = [] ∨ sent = candidate) ∧
      count ++ queue = intBytes (candidateNumber [candidate]) ++ sent)
    (some_ : announced ≠ none → count ≠ []) (small : count.length ≤ 4) (split : queue = bytes ++ rest)
    (length : bytes.length = n) : announced = some [ofBuffer bytes] ↔
      count.length = 4 ∧ ∃ candidate, announced = some [candidate] ∧ n = candidate.length := by
  have through {candidate : Text} (one : announced = some [candidate]) :
      ofBuffer bytes = candidate ↔ count.length = 4 ∧ bytes.length = candidate.length := by
    obtain ⟨filled, free⟩ := proper candidate one
    obtain ⟨sent, whole, joined⟩ := stream candidate one
    exact received_candidate_iff filled free (some_ (by simp [one])) joined whole small split
  constructor
  · intro one
    obtain ⟨full, all⟩ := (through one).mp rfl
    exact ⟨full, _, one, length ▸ all⟩
  · rintro ⟨full, candidate, one, all⟩
    rw [one, (through one).mpr ⟨full, length.trans all⟩]

end Texts

namespace DirectExchange

section Exchange
variable {s t : DirectExchange} {e : ExchangeEvent} {a : MainStep} {n : Nat} {raised : Bool}
  {past : List (DirectExchange × ExchangeEvent)}

theorem gets_single {side side' other : Side} {text : Text} (unadded : side.added = [])
    (added : side'.added = side.added ++ [text]) : side'.Gets other ↔ other.announced = some [text] := by
  have number : candidateNumber [text] = 1 := candidateNumber_one
  rw [unadded, List.nil_append] at added
  simp [Side.Gets, added, number]

/-- The answerer's `recv` of the candidates. -/
theorem Regular.answerer_gets (regular : s.Regular) (atPhase : s.answererPhase = .waitingCandidate)
    {bytes rest : Text} (grant : granted answererBufferSize s.toAnswerer (decide (s.offererPhase = .ended)) n =
      some (bytes, rest)) : s.offerer.announced = some [ofBuffer bytes] ↔ s.answerer.remoteCandCount.length = 4 ∧
        ∃ candidate, s.offerer.announced = some [candidate] ∧ n = candidate.length := by
  obtain ⟨joined, small, some_⟩ := regular.offering.candidate atPhase
  obtain ⟨split, length, _⟩ := granted_split grant
  have proper (candidate : Text) (one : s.offerer.announced = some [candidate]) : candidate ≠ [] ∧ nul ∉ candidate :=
    regular.offering.proper candidate ((regular.offering.listed _ one).subset List.mem_cons_self)
  refine announced_iff proper (fun candidate one => ?_) ?_ small split length
  · obtain ⟨_, free⟩ := proper candidate one
    refine ⟨([candidate].take (candidatesSent [candidate] s.offererPhase)).flatMap ofBuffer, ?_, ?_⟩
    · cases candidatesSent [candidate] s.offererPhase with
      | zero => exact Or.inl rfl
      | succ => exact Or.inr (by simp [ofBuffer_of_free free])
    · rw [joined, offeredStream, one]
      rfl
  · intro announced
    exact some_.resolve_right fun gone => announced gone.2

/-- The offerer's `recv` of the candidate. -/
theorem Regular.offerer_gets (regular : s.Regular) (atPhase : s.offererPhase = .waitingCandidate)
    {bytes rest : Text} (grant : granted offererBufferSize s.toOfferer (decide (s.answererPhase = .ended)) n =
      some (bytes, rest)) : s.answerer.announced = some [ofBuffer bytes] ↔ s.offerer.remoteCandCount.length = 4 ∧
        ∃ candidate, s.answerer.announced = some [candidate] ∧ n = candidate.length := by
  obtain ⟨joined, small, some_⟩ := regular.answering.candidate atPhase
  obtain ⟨split, length, _⟩ := granted_split grant
  have proper (candidate : Text) (one : s.answerer.announced = some [candidate]) : candidate ≠ [] ∧ nul ∉ candidate :=
    regular.answering.proper candidate ((regular.answering.listed _ one).2.subset List.mem_cons_self)
  refine announced_iff proper (fun candidate one => ?_) ?_ small split length
  · refine ⟨if s.answererPhase = .sendingCandidate then [] else candidate, ?_, ?_⟩
    · split_ifs
      · exact Or.inl rfl
      · exact Or.inr rfl
    · rw [joined, answeredStream, one]
      rfl
  · intro announced
    exact some_.resolve_right fun gone => announced gone.2

theorem gets_mono {side side' other other' : Side} (gets : side.Gets other) (added : side'.added = side.added)
    (announced : ∀ candidates, other.announced = some candidates → other'.announced = some candidates) :
    side'.Gets other' := by
  intro passed
  rw [added] at passed ⊢
  exact ⟨announced _ (gets passed).1, (gets passed).2⟩

theorem Regular.offerer_exact (regular : s.Regular) (exchanged : Exchanged past s) (stepped : s.Offered a t) :
    Exchanged ((s, .offerer a) :: past) t ↔ s.Single (.offerer a) := by
  obtain ⟨answerer, offerer⟩ := exchanged
  cases stepped with
  | @receiveCandidate n raised bytes rest text atPhase grant read =>
    obtain ⟨rfl, _⟩ := arrayText_eq_some.mp read
    have empty := regular.answering.unadded (by simp [atPhase]) (by simp [atPhase])
    have gets := regular.offerer_gets atPhase grant
    constructor
    · intro exchanged _
      exact gets.mp ((gets_single empty rfl).mp exchanged.2)
    · intro one
      exact ⟨gets_mono answerer rfl fun _ => id, (gets_single empty rfl).mpr (gets.mpr (one atPhase))⟩
  | sendCount atPhase =>
    refine iff_of_true ⟨fun passed => ?_, gets_mono offerer rfl fun _ => id⟩ trivial
    have announced := (answerer passed).1
    rw [regular.offering.before (Or.inr (Or.inr atPhase))] at announced
    exact absurd announced (by simp)
  | receiveSdp atPhase | receiveCount atPhase =>
    exact iff_of_true ⟨gets_mono answerer rfl fun _ => id, gets_mono offerer rfl fun _ => id⟩ (by simp [Single, atPhase])
  | sendSdp | sendCandidate | sentCandidates | finish =>
    exact iff_of_true ⟨gets_mono answerer rfl fun _ => id, gets_mono offerer rfl fun _ => id⟩ trivial

theorem Regular.answerer_exact (regular : s.Regular) (exchanged : Exchanged past s) (stepped : s.Answered a t) :
    Exchanged ((s, .answerer a) :: past) t ↔ s.Single (.answerer a) := by
  obtain ⟨answerer, offerer⟩ := exchanged
  cases stepped with
  | @receiveCandidate n raised bytes rest text atPhase grant read =>
    obtain ⟨rfl, _⟩ := arrayText_eq_some.mp read
    have empty := regular.offering.unadded (by simp [atPhase])
    have gets := regular.answerer_gets atPhase grant
    constructor
    · intro exchanged _
      exact gets.mp ((gets_single empty rfl).mp exchanged.1)
    · intro one
      exact ⟨(gets_single empty rfl).mpr (gets.mpr (one atPhase)), gets_mono offerer rfl fun _ => id⟩
  | sendCount atPhase =>
    refine iff_of_true ⟨gets_mono answerer rfl fun _ => id, fun passed => ?_⟩ trivial
    have announced := (offerer passed).1
    rw [regular.answering.before (by simp [atPhase])] at announced
    exact absurd announced (by simp)
  | receiveSdp atPhase | receiveCount atPhase =>
    exact iff_of_true ⟨gets_mono answerer rfl fun _ => id, gets_mono offerer rfl fun _ => id⟩ (by simp [Single, atPhase])
  | sendSdp | noCandidate | sendCandidate | finish =>
    exact iff_of_true ⟨gets_mono answerer rfl fun _ => id, gets_mono offerer rfl fun _ => id⟩ trivial

theorem Regular.exact (regular : s.Regular) (exchanged : Exchanged past s) (stepped : s.step e = some t) :
    Exchanged ((s, e) :: past) t ↔ s.Single e := by
  cases step_moved stepped with
  | offerer offered => exact regular.offerer_exact exchanged offered
  | answerer answered => exact regular.answerer_exact exchanged answered
  | offererGathered | offererCandidate | answererGathered | answererCandidate =>
    exact iff_of_true ⟨gets_mono exchanged.1 rfl fun _ => id, gets_mono exchanged.2 rfl fun _ => id⟩ trivial

/-- Each side passes on what the other has announced on just those runs on which every list is of one
candidate and neither that nor its count is split. -/
theorem candidates_exchanged_iff (run : Trail DirectExchange.step initial past s)
    (proper : Throughout (fun _ => Proper) past) (whole : Throughout (fun _ => WholeSdp) past) :
    Always Exchanged past s ↔ Throughout (fun _ => Single) past := by
  refine run.always_iff_of_allowed (fun _ => Regular) regular_initial ?_ ?_ ?_ (proper.and whole)
  · exact ⟨fun passed => absurd rfl passed, fun passed => absurd rfl passed⟩
  · intro past s e t _ regular allowed stepped
    exact regular.step allowed.1 allowed.2 stepped
  · intro past s e t regular _ always stepped
    exact regular.exact always.here stepped

end Exchange

end DirectExchange

theorem one_candidate_exchanged : ∃ past s,
    execute DirectExchange.step [] DirectExchange.initial oneCandidateEach = some (past, s) ∧
      s.answerer.added = ["a".toList] ∧ s.offerer.added = ["b".toList] ∧ Always DirectExchange.Exchanged past s := by
  have ran : (execute DirectExchange.step [] DirectExchange.initial oneCandidateEach).any (fun r =>
      decide ((r.2.answerer.added = ["a".toList] ∧ r.2.offerer.added = ["b".toList]) ∧
        Throughout (fun _ => DirectExchange.Proper) r.1 ∧ Throughout (fun _ => DirectExchange.WholeSdp) r.1 ∧
        Throughout (fun _ => DirectExchange.Single) r.1)) = true := by
    decide +kernel
  obtain ⟨past, s, done, checked⟩ := execute_check _ ran
  obtain ⟨added, proper, whole, single⟩ := of_decide_eq_true checked
  exact ⟨past, s, done, added.1, added.2,
    (DirectExchange.candidates_exchanged_iff (execute_trail done) proper whole).mpr single⟩

/-- The offerer has two candidates, and each `recv` gets all that has been sent. -/
def twoCandidates : List ExchangeEvent :=
  [.offererCandidate "a".toList, .offererCandidate "c".toList, .offererGathered [], .offerer .go,
    .answerer (.recv 1 false), .answererCandidate "b".toList, .answererGathered [], .answerer .go,
    .offerer (.recv 1 false), .offerer .go, .offerer .go, .offerer .go, .offerer .go, .answerer (.recv 4 false),
    .answerer (.recv 2 false)]

theorem two_candidates_merged : ∃ past s,
    execute DirectExchange.step [] DirectExchange.initial twoCandidates = some (past, s) ∧
      Throughout (fun _ => DirectExchange.Proper) past ∧ s.answerer.added = ["ac".toList] ∧
      ¬Always DirectExchange.Exchanged past s := by
  have ran : (execute DirectExchange.step [] DirectExchange.initial twoCandidates).any (fun r =>
      decide (Throughout (fun _ => DirectExchange.Proper) r.1 ∧ r.2.answerer.added = ["ac".toList] ∧
        r.2.offerer.announced = some ["a".toList, "c".toList])) = true := by
    decide +kernel
  obtain ⟨past, s, done, checked⟩ := execute_check _ ran
  obtain ⟨proper, added, announced⟩ := of_decide_eq_true checked
  refine ⟨past, s, done, proper, added, fun always => ?_⟩
  have all := announced.symm.trans (always.here.1 (added.trans_ne (by decide))).1
  rw [show s.answerer.added = _ from added] at all
  exact absurd all (by decide)

end Signaling
