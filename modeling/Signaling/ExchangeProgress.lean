import Signaling.DirectExchange
import Signaling.Machine.Trail

namespace Signaling
open Machine CText

/-- `main` is in `recv`. -/
def OffererPhase.receives : OffererPhase → Bool
  | .waitingSdp | .waitingCount | .waitingCandidate => true
  | _ => false

def AnswererPhase.receives : AnswererPhase → Bool
  | .waitingSdp | .waitingCount | .waitingCandidate => true
  | _ => false

/-- A description that has been gathered is sent as one that is not empty. -/
def Side.Sendable (side : Side) : Prop := side.localSdp ≠ [] → ofBuffer side.localSdp ≠ []

namespace DirectExchange

/-- Each program waits for the other. -/
structure Deadlocked (s : DirectExchange) : Prop where
  offerer : s.offererPhase.receives = true
  answerer : s.answererPhase.receives = true
  toAnswerer : s.toAnswerer = []
  toOfferer : s.toOfferer = []

/-- The offerer sends a description that has been gathered, and a candidate that is not empty. -/
def Fed (s : DirectExchange) : ExchangeEvent → Prop
  | .offerer .go => (s.offererPhase = .sendingSdp → s.offerer.localSdp ≠ []) ∧
      (s.offererPhase = .counting → ∃ candidate ∈ s.offerer.localCandidates.take
        (candidateNumber s.offerer.localCandidates).toNat, ofBuffer candidate ≠ [])
  | _ => True

instance (s : DirectExchange) (e : ExchangeEvent) : Decidable (s.Fed e) := by
  unfold Fed
  cases_type* ExchangeEvent MainStep <;> infer_instance

/-- The number of bytes that the offerer has certainly sent after its description, where candidate `j` is
not empty. -/
def followed (j : Nat) : OffererPhase → Nat
  | .sendingCandidates _ i => if j < i then 5 else 4
  | .waitingCount | .waitingCandidate => 5
  | _ => 0

/-- Candidate `j` is one that the offerer sends, and it is not empty. -/
def Promised (s : DirectExchange) (j : Nat) : Prop := ∀ number i,
  s.offererPhase = .sendingCandidates number i → j < number ∧
    ∃ candidate, s.offerer.localCandidates[j]? = some candidate ∧ ofBuffer candidate ≠ []

/-- What is on the channels when somebody waits. -/
structure Flowing (s : DirectExchange) : Prop where
  sendable : s.offerer.Sendable ∧ s.answerer.Sendable
  generated : s.sdpGenerated = true → s.answerer.localSdp ≠ []
  first : s.offererPhase = .sendingSdp → s.answererPhase = .waitingSdp
  offered : s.answererPhase = .waitingSdp → s.toOfferer = [] ∧
    (s.offererPhase = .sendingSdp ∧ s.toAnswerer = [] ∨ s.offererPhase = .waitingSdp ∧ s.toAnswerer ≠ [])
  spinning : s.answererPhase = .spinning → s.toOfferer = [] ∧ s.offererPhase = .waitingSdp
  answered : s.offererPhase = .waitingSdp → s.answererPhase = .waitingSdp ∨ s.answererPhase = .spinning ∨
    s.answererPhase = .ended ∨ s.toOfferer ≠ []
  followed : ∃ j, s.Promised j ∧
    (s.answererPhase = .waitingCount → followed j s.offererPhase ≤ s.toAnswerer.length) ∧
    (s.answererPhase = .waitingCandidate → followed j s.offererPhase ≤ s.toAnswerer.length + 4)

section Steps
variable {s t : DirectExchange} {e : ExchangeEvent} {a : MainStep} {i j n : Nat} {number : Int}
  {queue bytes rest : Text} {size : Nat} {shut : Bool}

theorem length_intBytes (n : Int) : (intBytes n).length = 4 := rfl

theorem sendable_dumped (members : Text) : ofBuffer (dumped members) ≠ [] := by
  simp [dumped, ofBuffer, show '{' ≠ nul by decide]

theorem arrayText_one (c : Char) (large : 1 < size) : ∃ text, arrayText size [c] = some text :=
  ⟨_, arrayText_eq_some.mpr ⟨rfl, (ofBuffer_starts [c]).length_le.trans_lt large⟩⟩

/-- In a deadlock, and in no other state in which both programs are in `recv`, neither can go on. -/
theorem deadlocked_iff : s.Deadlocked ↔ s.offererPhase.receives = true ∧ s.answererPhase.receives = true ∧
    (∀ a, s.offererStep a = none) ∧ ∀ a, s.answererStep a = none := by
  constructor
  · rintro ⟨offerer, answerer, toAnswerer, toOfferer⟩
    refine ⟨offerer, answerer, fun a => ?_, fun a => ?_⟩
    · have open_ : decide (s.answererPhase = .ended) = false := by
        cases atPhase : s.answererPhase <;> simp_all [AnswererPhase.receives]
      by_contra moves
      obtain ⟨t, stepped⟩ := Option.ne_none_iff_exists'.mp moves
      cases offererStep_offered stepped with
      | receiveSdp _ grant | receiveCount _ grant | receiveCandidate _ grant =>
        exact filled_of_granted grant open_ toOfferer
      | sendSdp atPhase | sendCount atPhase | sendCandidate atPhase | sentCandidates atPhase | finish atPhase =>
        simp [atPhase, OffererPhase.receives] at offerer
    · have open_ : decide (s.offererPhase = .ended) = false := by
        cases atPhase : s.offererPhase <;> simp_all [OffererPhase.receives]
      by_contra moves
      obtain ⟨t, stepped⟩ := Option.ne_none_iff_exists'.mp moves
      cases answererStep_answered stepped with
      | receiveSdp _ grant | receiveCount _ grant | receiveCandidate _ grant =>
        exact filled_of_granted grant open_ toAnswerer
      | sendSdp atPhase | sendCount atPhase | noCandidate atPhase | sendCandidate atPhase | finish atPhase =>
        simp [atPhase, AnswererPhase.receives] at answerer
  · rintro ⟨offerer, answerer, offererBlocked, answererBlocked⟩
    refine ⟨offerer, answerer, ?_, ?_⟩
    · by_contra filled
      have one (size : Nat) (positive : 0 < size) : ∃ first rest,
          granted size s.toAnswerer (decide (s.offererPhase = .ended)) 1 = some ([first], rest) :=
        granted_one positive filled
      have blocked := answererBlocked (.recv 1 false)
      cases atPhase : s.answererPhase with
      | waitingSdp | waitingCandidate =>
        obtain ⟨first, rest, grant⟩ := one answererBufferSize (by decide)
        obtain ⟨text, read⟩ := arrayText_one first (show 1 < answererBufferSize by decide)
        simp [answererStep, atPhase, grant, read] at blocked
      | waitingCount =>
        obtain ⟨first, rest, grant⟩ := one 4 (by decide)
        simp [answererStep, atPhase, grant] at blocked
      | spinning | counting | sendingCandidate | sleeping | ended =>
        simp [atPhase, AnswererPhase.receives] at answerer
    · by_contra filled
      have one (size : Nat) (positive : 0 < size) : ∃ first rest,
          granted size s.toOfferer (decide (s.answererPhase = .ended)) 1 = some ([first], rest) :=
        granted_one positive filled
      have blocked := offererBlocked (.recv 1 false)
      cases atPhase : s.offererPhase with
      | waitingSdp | waitingCandidate =>
        obtain ⟨first, rest, grant⟩ := one offererBufferSize (by decide)
        obtain ⟨text, read⟩ := arrayText_one first (show 1 < offererBufferSize by decide)
        simp [offererStep, atPhase, grant, read] at blocked
      | waitingCount =>
        obtain ⟨first, rest, grant⟩ := one 4 (by decide)
        simp [offererStep, atPhase, grant] at blocked
      | sendingSdp | counting | sendingCandidates | messaging | ended =>
        simp [atPhase, OffererPhase.receives] at offerer

/-- Some candidate among those that the offerer is going to send is the first that is not empty. -/
theorem exists_promised {candidates : List Text} (number : Int)
    (fed : ∃ candidate ∈ candidates.take number.toNat, ofBuffer candidate ≠ []) :
    ∃ j : Nat, j < number ∧ ∃ candidate, candidates[j]? = some candidate ∧ ofBuffer candidate ≠ [] := by
  obtain ⟨candidate, member, filled⟩ := fed
  obtain ⟨j, inside, found⟩ := List.mem_iff_getElem.mp member
  have below : j < number.toNat := inside.trans_le (List.length_take_le _ _)
  refine ⟨j, by omega, candidate, ?_, filled⟩
  rw [← found, List.getElem_take, List.getElem?_eq_getElem]

/-- Candidate `j` is on the channel after its turn. -/
theorem followed_grows {candidates : List Text} {candidate : Text}
    (there : ∃ candidate, candidates[j]? = some candidate ∧ ofBuffer candidate ≠ [])
    (found : candidates[i]? = some candidate) (number : Int) :
    followed j (.sendingCandidates number (i + 1)) ≤
      followed j (.sendingCandidates number i) + (ofBuffer candidate).length := by
  simp only [followed]
  by_cases turn : j = i
  · subst turn
    obtain ⟨_, same, filled⟩ := there
    cases Option.some.inj (found.symm.trans same)
    have positive := List.length_pos_iff.mpr filled
    simp only [lt_irrefl, if_false, Nat.lt_succ_self, if_true]
    omega
  · split_ifs <;> omega

/-- The answerer has sent its description once the offerer has received something. -/
theorem Flowing.past (flowing : s.Flowing) (sent : s.offererPhase ≠ .sendingSdp) (received : s.offererPhase ≠ .waitingSdp) :
    s.answererPhase ≠ .waitingSdp ∧ s.answererPhase ≠ .spinning := by
  constructor
  · intro waiting
    rcases (flowing.offered waiting).2 with ⟨sending, _⟩ | ⟨waits, _⟩
    · exact sent sending
    · exact received waits
  · intro spinning
    exact received (flowing.spinning spinning).2

theorem flowing_of_past (sendable : s.offerer.Sendable ∧ s.answerer.Sendable)
    (generated : s.sdpGenerated = true → s.answerer.localSdp ≠ [])
    (past : s.answererPhase ≠ .waitingSdp ∧ s.answererPhase ≠ .spinning)
    (later : s.offererPhase ≠ .sendingSdp ∧ s.offererPhase ≠ .waitingSdp)
    (followed : ∃ j, s.Promised j ∧
      (s.answererPhase = .waitingCount → followed j s.offererPhase ≤ s.toAnswerer.length) ∧
      (s.answererPhase = .waitingCandidate → followed j s.offererPhase ≤ s.toAnswerer.length + 4)) : s.Flowing where
  sendable := sendable
  generated := generated
  first sending := absurd sending later.1
  offered waiting := absurd waiting past.1
  spinning spinning := absurd spinning past.2
  answered waiting := absurd waiting later.2
  followed := followed

theorem Flowing.offerer (flowing : s.Flowing) (fed : s.Fed (.offerer a)) (offered : s.Offered a t) :
    t.Flowing := by
  obtain ⟨j, promised, atCount, atCandidate⟩ := flowing.followed
  cases offered with
  | sendSdp atPhase =>
    have start := flowing.first atPhase
    have filled := flowing.sendable.1 (fed.1 atPhase)
    refine ⟨flowing.sendable, flowing.generated, by simp, fun _ => ⟨(flowing.offered start).1, Or.inr ⟨rfl, ?_⟩⟩,
      by simp [start], fun _ => Or.inl start, j, by simp [Promised], by simp [start], by simp [start]⟩
    simp [filled]
  | @receiveSdp n raised bytes rest text atPhase grant =>
    have past : s.answererPhase ≠ .waitingSdp ∧ s.answererPhase ≠ .spinning := by
      constructor
      · intro waiting
        exact filled_of_granted grant (by simp [waiting]) (flowing.offered waiting).1
      · intro spinning
        exact filled_of_granted grant (by simp [spinning]) (flowing.spinning spinning).1
    refine flowing_of_past flowing.sendable flowing.generated past (by cases raised <;> simp) ⟨j, ?_, ?_, ?_⟩
    · cases raised <;> simp [Promised]
    · cases raised <;> simp [DirectExchange.followed]
    · cases raised <;> simp [DirectExchange.followed]
  | sendCount atPhase =>
    have past := flowing.past (by simp [atPhase]) (by simp [atPhase])
    obtain ⟨j, inside, there⟩ := exists_promised _ (fed.2 atPhase)
    refine flowing_of_past flowing.sendable flowing.generated past (by simp) ⟨j, ?_, ?_, ?_⟩
    · intro number i sending
      obtain ⟨rfl, rfl⟩ := OffererPhase.sendingCandidates.inj sending
      exact ⟨inside, there⟩
    · simp [DirectExchange.followed, length_intBytes]
    · simp [DirectExchange.followed, length_intBytes]
  | @sendCandidate number i candidate atPhase more found =>
    have past := flowing.past (by simp [atPhase]) (by simp [atPhase])
    obtain ⟨inside, there⟩ := promised number i atPhase
    have grows := followed_grows there found number
    rw [atPhase] at atCount atCandidate
    refine flowing_of_past flowing.sendable flowing.generated past (by simp) ⟨j, ?_, ?_, ?_⟩
    · intro number' i' sending
      cases sending
      exact ⟨inside, there⟩
    · intro waiting
      have before := atCount waiting
      simp only [List.length_append]
      omega
    · intro waiting
      have before := atCandidate waiting
      simp only [List.length_append]
      omega
  | @sentCandidates number i atPhase done =>
    have past := flowing.past (by simp [atPhase]) (by simp [atPhase])
    obtain ⟨inside, _⟩ := promised number i atPhase
    have sent : DirectExchange.followed j s.offererPhase = 5 := by
      rw [atPhase, DirectExchange.followed, if_pos (by omega)]
    rw [sent] at atCount atCandidate
    exact flowing_of_past flowing.sendable flowing.generated past (by simp) ⟨j, by simp [Promised], atCount, atCandidate⟩
  | receiveCount atPhase =>
    have past := flowing.past (by simp [atPhase]) (by simp [atPhase])
    rw [atPhase] at atCount atCandidate
    exact flowing_of_past flowing.sendable flowing.generated past (by simp) ⟨j, by simp [Promised], atCount, atCandidate⟩
  | @receiveCandidate n raised bytes rest text atPhase =>
    have past := flowing.past (by simp [atPhase]) (by simp [atPhase])
    refine flowing_of_past flowing.sendable flowing.generated past (by cases raised <;> simp) ⟨j, ?_, ?_, ?_⟩
    · cases raised <;> simp [Promised]
    · cases raised <;> simp [DirectExchange.followed]
    · cases raised <;> simp [DirectExchange.followed]
  | finish atPhase =>
    have past := flowing.past (by simp [atPhase]) (by simp [atPhase])
    exact flowing_of_past flowing.sendable flowing.generated past (by simp)
      ⟨j, by simp [Promised], by simp [DirectExchange.followed], by simp [DirectExchange.followed]⟩

theorem Flowing.answerer (flowing : s.Flowing) (answered : s.Answered a t) : t.Flowing := by
  obtain ⟨j, promised, atCount, atCandidate⟩ := flowing.followed
  have notFirst (later : s.answererPhase ≠ .waitingSdp) : s.offererPhase ≠ .sendingSdp :=
    fun sending => later (flowing.first sending)
  cases answered with
  | @receiveSdp n raised bytes rest text atPhase grant =>
    obtain ⟨empty, before⟩ := flowing.offered atPhase
    have waits : s.offererPhase = .waitingSdp := by
      rcases before with ⟨sending, none⟩ | ⟨waits, _⟩
      · exact absurd none (filled_of_granted grant (by simp [sending]))
      · exact waits
    refine ⟨flowing.sendable, flowing.generated, by simp [waits], ?_, fun _ => ⟨empty, waits⟩, fun _ => ?_,
      j, promised, ?_, ?_⟩
    · cases raised <;> simp
    · cases raised <;> simp
    · cases raised <;> simp
    · cases raised <;> simp
  | sendSdp atPhase generated =>
    obtain ⟨empty, waits⟩ := flowing.spinning atPhase
    have filled := flowing.sendable.2 (flowing.generated generated)
    refine ⟨flowing.sendable, flowing.generated, by simp [waits], by simp, by simp, fun _ => ?_, j, promised, ?_, by simp⟩
    · exact Or.inr (Or.inr (Or.inr (by simp [filled])))
    · simp [waits, DirectExchange.followed]
  | @receiveCount n bytes rest atPhase grant =>
    obtain ⟨split, length, small⟩ := granted_split grant
    have before := atCount atPhase
    rw [split, List.length_append] at before
    refine ⟨flowing.sendable, flowing.generated, fun sending => absurd sending (notFirst (by simp [atPhase])),
      by simp, by simp, fun waits => ?_, j, promised, by simp, fun _ => ?_⟩
    · simpa [atPhase] using flowing.answered waits
    · show DirectExchange.followed j s.offererPhase ≤ rest.length + 4
      omega
  | @receiveCandidate n raised bytes rest text atPhase =>
    refine ⟨flowing.sendable, flowing.generated, fun sending => absurd sending (notFirst (by simp [atPhase])),
      ?_, ?_, fun waits => ?_, j, promised, ?_, ?_⟩
    · cases raised <;> simp
    · cases raised <;> simp
    · have filled : s.toOfferer ≠ [] := by simpa [atPhase] using flowing.answered waits
      exact Or.inr (Or.inr (Or.inr filled))
    · cases raised <;> simp
    · cases raised <;> simp
  | sendCount atPhase =>
    refine ⟨flowing.sendable, flowing.generated, fun sending => absurd sending (notFirst (by simp [atPhase])),
      by simp, by simp, fun waits => ?_, j, promised, by simp, by simp⟩
    exact Or.inr (Or.inr (Or.inr (by simp [intBytes])))
  | noCandidate atPhase =>
    exact ⟨flowing.sendable, flowing.generated, fun sending => absurd sending (notFirst (by simp [atPhase])),
      by simp, by simp, fun _ => Or.inr (Or.inr (Or.inl rfl)), j, promised, by simp, by simp⟩
  | sendCandidate atPhase =>
    refine ⟨flowing.sendable, flowing.generated, fun sending => absurd sending (notFirst (by simp [atPhase])),
      by simp, by simp, fun waits => ?_, j, promised, by simp, by simp⟩
    have filled : s.toOfferer ≠ [] := by simpa [atPhase] using flowing.answered waits
    exact Or.inr (Or.inr (Or.inr (by simp [filled])))
  | finish atPhase =>
    exact ⟨flowing.sendable, flowing.generated, fun sending => absurd sending (notFirst (by simp [atPhase])),
      by simp, by simp, fun _ => Or.inr (Or.inr (Or.inl rfl)), j, promised, by simp, by simp⟩

theorem Flowing.step (flowing : s.Flowing) (fed : s.Fed e) (stepped : s.step e = some t) : t.Flowing := by
  cases step_moved stepped with
  | offererGathered members =>
    exact ⟨⟨fun _ => sendable_dumped members, flowing.sendable.2⟩, flowing.generated, flowing.first, flowing.offered,
      flowing.spinning, flowing.answered, flowing.followed⟩
  | offererCandidate candidate =>
    obtain ⟨j, promised, waits⟩ := flowing.followed
    refine ⟨flowing.sendable, flowing.generated, flowing.first, flowing.offered, flowing.spinning, flowing.answered,
      j, fun number i sending => ?_, waits⟩
    obtain ⟨inside, found, there, filled⟩ := promised number i sending
    exact ⟨inside, found, List.getElem?_append_left (List.getElem?_eq_some_iff.mp there).1 ▸ there, filled⟩
  | offerer offered => exact flowing.offerer fed offered
  | answererGathered members =>
    exact ⟨⟨flowing.sendable.1, fun _ => sendable_dumped members⟩, by simp [dumped], flowing.first, flowing.offered,
      flowing.spinning, flowing.answered, flowing.followed⟩
  | answererCandidate candidate =>
    exact ⟨flowing.sendable, flowing.generated, flowing.first, flowing.offered, flowing.spinning, flowing.answered,
      flowing.followed⟩
  | answerer answered => exact flowing.answerer answered

theorem flowing_initial : initial.Flowing where
  sendable := ⟨fun filled => absurd rfl filled, fun filled => absurd rfl filled⟩
  generated := by simp [initial]
  first _ := rfl
  offered _ := ⟨rfl, Or.inl ⟨rfl, rfl⟩⟩
  spinning := by simp [initial]
  answered := by simp [initial]
  followed := ⟨0, by simp [Promised, initial], by simp [initial], by simp [initial]⟩

/-- Somebody who waits has something coming, or the other one does not wait. -/
theorem Flowing.not_deadlocked (flowing : s.Flowing) : ¬s.Deadlocked := by
  rintro ⟨offerer, answerer, toAnswerer, toOfferer⟩
  obtain ⟨j, _, atCount, atCandidate⟩ := flowing.followed
  have sent (later : s.answererPhase = .waitingCount ∨ s.answererPhase = .waitingCandidate) :
      DirectExchange.followed j s.offererPhase = 5 := by
    cases atPhase : s.offererPhase with
    | waitingSdp =>
      rcases flowing.answered atPhase with waits | spins | ended | filled
      · simp [waits] at later
      · simp [spins] at later
      · simp [ended] at later
      · exact absurd toOfferer filled
    | waitingCount | waitingCandidate => rfl
    | sendingSdp | counting | sendingCandidates | messaging | ended => simp [atPhase, OffererPhase.receives] at offerer
  cases atPhase : s.answererPhase with
  | waitingSdp =>
    rcases (flowing.offered atPhase).2 with ⟨sending, _⟩ | ⟨_, filled⟩
    · simp [sending, OffererPhase.receives] at offerer
    · exact filled toAnswerer
  | waitingCount =>
    have bytes := atCount atPhase
    simp [sent (Or.inl atPhase), toAnswerer] at bytes
  | waitingCandidate =>
    have bytes := atCandidate atPhase
    simp [sent (Or.inr atPhase), toAnswerer] at bytes
  | spinning | counting | sendingCandidate | sleeping | ended => simp [atPhase, AnswererPhase.receives] at answerer

/-- Where the offerer sends a description that has been gathered and a candidate that is not empty, the
programs never wait for each other. -/
theorem exchange_progress {past : List (DirectExchange × ExchangeEvent)} (run : Trail step initial past s)
    (fed : Throughout (fun _ => Fed) past) : Always (fun _ s => ¬s.Deadlocked) past s := by
  refine run.always_of_allowed (fun past s run fed => ?_) fed
  have flowing : s.Flowing := by
    refine run.invariant_of_allowed (fun _ => Flowing) flowing_initial ?_ fed
    intro past s e t _ flowing allowed stepped
    exact flowing.step allowed stepped
  exact flowing.not_deadlocked

end Steps

end DirectExchange

theorem one_candidate_progress : ∃ past s,
    execute DirectExchange.step [] DirectExchange.initial oneCandidateEach = some (past, s) ∧
      Always (fun _ s => ¬s.Deadlocked) past s := by
  have ran : (execute DirectExchange.step [] DirectExchange.initial oneCandidateEach).any (fun r =>
      decide (Throughout (fun _ => DirectExchange.Fed) r.1)) = true := by
    decide +kernel
  obtain ⟨past, s, done, checked⟩ := execute_check _ ran
  exact ⟨past, s, done, DirectExchange.exchange_progress (execute_trail done) (of_decide_eq_true checked)⟩

/-- The offerer does not wait for its description to be gathered. -/
theorem early_offer_deadlocks : ∃ past s,
    execute DirectExchange.step [] DirectExchange.initial [.offerer .go, .offererGathered []] = some (past, s) ∧
      s.Deadlocked :=
  ⟨_, _, rfl, rfl, rfl, rfl, rfl⟩

end Signaling
