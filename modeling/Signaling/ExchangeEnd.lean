import Signaling.ExchangeProgress
import Signaling.ExchangeStreams
import Signaling.Machine.Ledger

namespace Signaling
open Machine CText

/-- The number of candidates announced, as an upper limit of the loop that sends them. -/
def Side.limit (side : Side) : Nat := side.announced.elim 0 fun candidates => (candidateNumber candidates).toNat

/-- What `main` of `answerer.cpp` has left to do. -/
def AnswererPhase.left : AnswererPhase → Nat
  | .waitingSdp => 7
  | .spinning => 6
  | .waitingCount => 5
  | .waitingCandidate => 4
  | .counting => 3
  | .sendingCandidate => 2
  | .sleeping => 1
  | .ended => 0

namespace DirectExchange

def byOfferer (_ : DirectExchange) : ExchangeEvent → Bool
  | .offerer _ => true
  | _ => false

def byAnswerer (_ : DirectExchange) : ExchangeEvent → Bool
  | .answerer _ => true
  | _ => false

/-- The answerer waits for its callback, or the offerer for the line that the user enters. -/
def AwaitsOutside (s : DirectExchange) : Prop :=
  s.answererPhase = .spinning ∧ s.sdpGenerated = false ∨ s.offererPhase = .messaging

/-- The steps that `main` of `offerer.cpp` has taken when it is where it is. -/
def stage (s : DirectExchange) : Nat :=
  match s.offererPhase with
  | .sendingSdp => 0
  | .waitingSdp => 1
  | .counting => 2
  | .sendingCandidates _ i => 3 + i
  | .waitingCount => 4 + s.offerer.limit
  | .waitingCandidate => 5 + s.offerer.limit
  | .messaging => 6 + s.offerer.limit
  | .ended => 7 + s.offerer.limit

/-- How far the programs are, and what they have added by then. -/
structure Staged (past : List (DirectExchange × ExchangeEvent)) (s : DirectExchange) : Prop where
  sending : ∀ number i, s.offererPhase = .sendingCandidates number i → i ≤ s.offerer.limit ∧
    number.toNat = s.offerer.limit ∧ number ≤ s.offerer.localCandidates.length
  unannounced : s.offererPhase = .sendingSdp ∨ s.offererPhase = .waitingSdp ∨ s.offererPhase = .counting →
    s.offerer.announced = none
  taken : count byOfferer past = s.stage ∨ s.offererPhase = .ended ∧ count byOfferer past ≤ s.stage
  offererAdded : s.offererPhase ≠ .messaging → s.offererPhase ≠ .ended → s.offerer.added = []
  answererAdded : 4 ≤ s.answererPhase.left → s.answerer.added = []
  most : s.offerer.added.length ≤ 1 ∧ s.answerer.added.length ≤ 1

section Steps
variable {past : List (DirectExchange × ExchangeEvent)} {s t : DirectExchange} {e : ExchangeEvent} {a : MainStep}

theorem limit_announced {side : Side} {candidates : List Text} (announced : side.announced = some candidates) :
    side.limit = (candidateNumber candidates).toNat := by
  rw [Side.limit, announced, Option.elim_some]

theorem Staged.offerer (staged : Staged past s) (offered : s.Offered a t) : Staged ((s, .offerer a) :: past) t := by
  have one : count byOfferer ((s, .offerer a) :: past) = count byOfferer past + 1 := count_cons _ _ _ _
  have before (open_ : s.offererPhase ≠ .ended) : count byOfferer past = s.stage :=
    staged.taken.resolve_right fun ended => open_ ended.1
  cases offered with
  | sendSdp atPhase =>
    have now := before (by simp [atPhase])
    have free := staged.unannounced (Or.inl atPhase)
    have added := staged.offererAdded (by simp [atPhase]) (by simp [atPhase])
    exact ⟨by simp, fun _ => free, Or.inl (by simp [one, now, stage, atPhase]), fun _ _ => added, staged.answererAdded,
      staged.most⟩
  | @receiveSdp n raised _ _ _ atPhase =>
    have now := before (by simp [atPhase])
    have free := staged.unannounced (Or.inr (Or.inl atPhase))
    have added := staged.offererAdded (by simp [atPhase]) (by simp [atPhase])
    refine ⟨by cases raised <;> simp, fun _ => free, ?_, fun _ _ => added, staged.answererAdded, staged.most⟩
    cases raised with
    | true =>
      refine Or.inr ⟨rfl, ?_⟩
      rw [one, now]
      simp only [stage, atPhase, if_true]
      omega
    | false => exact Or.inl (by simp [one, now, stage, atPhase])
  | sendCount atPhase =>
    have now := before (by simp [atPhase])
    have added := staged.offererAdded (by simp [atPhase]) (by simp [atPhase])
    refine ⟨?_, by simp, Or.inl (by simp [one, now, stage, atPhase]), fun _ _ => added, staged.answererAdded,
      staged.most⟩
    intro number i sending
    obtain ⟨rfl, rfl⟩ := OffererPhase.sendingCandidates.inj sending
    exact ⟨Nat.zero_le _, (limit_announced rfl).symm, candidateNumber_le _⟩
  | sendCandidate atPhase more =>
    have now := before (by simp [atPhase])
    have added := staged.offererAdded (by simp [atPhase]) (by simp [atPhase])
    obtain ⟨within, limit, enough⟩ := staged.sending _ _ atPhase
    refine ⟨?_, by simp, Or.inl (by simp [one, now, stage, atPhase, Nat.add_assoc]), fun _ _ => added,
      staged.answererAdded, staged.most⟩
    intro number i sending
    cases sending
    exact ⟨by show _ ≤ s.offerer.limit; omega, limit, enough⟩
  | sentCandidates atPhase done =>
    have now := before (by simp [atPhase])
    have added := staged.offererAdded (by simp [atPhase]) (by simp [atPhase])
    obtain ⟨within, limit, enough⟩ := staged.sending _ _ atPhase
    refine ⟨by simp, by simp, Or.inl ?_, fun _ _ => added, staged.answererAdded, staged.most⟩
    rw [one, now]
    simp only [stage, atPhase]
    omega
  | receiveCount atPhase =>
    have now := before (by simp [atPhase])
    have added := staged.offererAdded (by simp [atPhase]) (by simp [atPhase])
    refine ⟨by simp, by simp, Or.inl ?_, fun _ _ => added, staged.answererAdded, staged.most⟩
    rw [one, now]
    simp only [stage, atPhase, Side.limit]
    omega
  | @receiveCandidate n raised _ _ _ atPhase =>
    have now := before (by simp [atPhase])
    have added := staged.offererAdded (by simp [atPhase]) (by simp [atPhase])
    refine ⟨by cases raised <;> simp, by cases raised <;> simp, ?_, ?_, staged.answererAdded, ?_⟩
    · rw [one, now]
      cases raised with
      | true =>
        refine Or.inr ⟨rfl, ?_⟩
        simp only [stage, atPhase, Side.limit, if_true]
        omega
      | false =>
        refine Or.inl ?_
        simp only [stage, atPhase, Side.limit, Bool.false_eq_true, if_false]
        omega
    · cases raised <;> simp
    · exact ⟨by simp [added], staged.most.2⟩
  | finish atPhase =>
    have now := before (by simp [atPhase])
    refine ⟨by simp, by simp, Or.inl ?_, by simp, staged.answererAdded, staged.most⟩
    rw [one, now]
    simp only [stage, atPhase]
    omega

theorem Staged.answerer (staged : Staged past s) (answered : s.Answered a t) :
    Staged ((s, .answerer a) :: past) t := by
  have none : count byOfferer ((s, .answerer a) :: past) = count byOfferer past := count_cons _ _ _ _
  have kept (sameOfferer : t.offerer = s.offerer) (samePhase : t.offererPhase = s.offererPhase)
      (added : 4 ≤ t.answererPhase.left → t.answerer.added = []) (most : t.answerer.added.length ≤ 1) :
      Staged ((s, .answerer a) :: past) t := by
    have sameStage : t.stage = s.stage := by simp only [stage, samePhase, sameOfferer]
    refine ⟨?_, ?_, ?_, ?_, added, ?_, most⟩
    · rw [sameOfferer, samePhase]
      exact staged.sending
    · rw [sameOfferer, samePhase]
      exact staged.unannounced
    · rw [none, sameStage, samePhase]
      exact staged.taken
    · rw [sameOfferer, samePhase]
      exact staged.offererAdded
    · rw [sameOfferer]
      exact staged.most.1
  cases answered with
  | receiveSdp atPhase | sendSdp atPhase | receiveCount atPhase =>
    have added := staged.answererAdded (by simp [atPhase, AnswererPhase.left])
    exact kept rfl rfl (fun _ => added) staged.most.2
  | @receiveCandidate n raised _ _ _ atPhase =>
    have added := staged.answererAdded (by simp [atPhase, AnswererPhase.left])
    refine kept rfl rfl ?_ (by simp [added])
    cases raised <;> simp [AnswererPhase.left]
  | sendCount atPhase | noCandidate atPhase | sendCandidate atPhase | finish atPhase =>
    exact kept rfl rfl (by simp [AnswererPhase.left]) staged.most.2

theorem Staged.step (staged : Staged past s) (stepped : s.step e = some t) : Staged ((s, e) :: past) t := by
  cases step_moved stepped with
  | offerer offered => exact staged.offerer offered
  | answerer answered => exact staged.answerer answered
  | offererGathered | answererGathered | answererCandidate =>
    exact ⟨staged.sending, staged.unannounced, staged.taken, staged.offererAdded, staged.answererAdded, staged.most⟩
  | offererCandidate =>
    refine ⟨fun number i sending => ?_, staged.unannounced, staged.taken, staged.offererAdded, staged.answererAdded,
      staged.most⟩
    obtain ⟨within, limit, enough⟩ := staged.sending number i sending
    refine ⟨within, limit, ?_⟩
    simp only [List.length_append]
    omega

theorem staged_initial : Staged [] initial :=
  ⟨by simp [initial], fun _ => rfl, Or.inl rfl, fun _ _ => rfl, fun _ => rfl, by simp [initial]⟩

/-- Every step of `main` of `answerer.cpp` leaves less to do. -/
theorem left_step (stepped : s.step e = some t) :
    (s.byAnswerer e).toNat + t.answererPhase.left ≤ s.answererPhase.left := by
  cases step_moved stepped with
  | offererGathered | offererCandidate | answererGathered | answererCandidate => simp [byAnswerer]
  | offerer offered => cases offered <;> simp [byAnswerer]
  | answerer answered =>
    cases answered with
    | @receiveSdp n raised _ _ _ atPhase | @receiveCandidate n raised _ _ _ atPhase =>
      cases raised <;> simp [byAnswerer, atPhase, AnswererPhase.left]
    | sendSdp atPhase | receiveCount atPhase | sendCount atPhase | noCandidate atPhase | sendCandidate atPhase
    | finish atPhase => simp [byAnswerer, atPhase, AnswererPhase.left]

/-- A `recv` returns once something is there or the other side is gone. -/
theorem granted_of_shut {size : Nat} {queue : Text} (large : 1 < size) :
    ∃ n bytes rest text, granted size queue true n = some (bytes, rest) ∧ arrayText size bytes = some text := by
  cases queue with
  | nil => exact ⟨0, [], [], [], by simp [granted], arrayText_eq_some.mpr ⟨rfl, by simp; omega⟩⟩
  | cons c queue =>
    obtain ⟨first, rest, grant⟩ : ∃ first rest, granted size (c :: queue) true 1 = some ([first], rest) :=
      granted_one (by omega) (List.cons_ne_nil c queue)
    obtain ⟨text, read⟩ := arrayText_one first large
    exact ⟨1, [first], rest, text, grant, read⟩

/-- What is not a `recv` can be done at once. -/
theorem Staged.offerer_moves (staged : Staged past s) (busy : s.offererPhase.receives = false)
    (open_ : s.offererPhase ≠ .ended) : (s.offererStep .go).isSome = true := by
  cases atPhase : s.offererPhase with
  | sendingSdp | counting | messaging => simp [offererStep, atPhase]
  | sendingCandidates number i =>
    simp only [offererStep, atPhase]
    split_ifs with more
    · obtain ⟨_, _, enough⟩ := staged.sending number i atPhase
      have inside : i < s.offerer.localCandidates.length := by omega
      simp [List.getElem?_eq_getElem inside]
    · rfl
  | waitingSdp | waitingCount | waitingCandidate => simp [atPhase, OffererPhase.receives] at busy
  | ended => exact absurd atPhase open_

theorem answerer_moves (busy : s.answererPhase.receives = false) : s.answererPhase = .ended ∨
    s.answererPhase = .spinning ∧ s.sdpGenerated = false ∨ (s.answererStep .go).isSome = true := by
  cases atPhase : s.answererPhase with
  | spinning =>
    cases generated : s.sdpGenerated with
    | true => exact Or.inr (Or.inr (by simp [answererStep, atPhase, generated]))
    | false => exact Or.inr (Or.inl ⟨rfl, rfl⟩)
  | counting | sleeping => exact Or.inr (Or.inr (by simp [answererStep, atPhase]))
  | sendingCandidate =>
    cases found : s.answerer.localCandidates <;> exact Or.inr (Or.inr (by simp [answererStep, atPhase, found]))
  | waitingSdp | waitingCount | waitingCandidate => simp [atPhase, AnswererPhase.receives] at busy
  | ended => exact Or.inl rfl

/-- A program whose peer has ended gets out of its `recv`. -/
theorem offerer_reads (waits : s.offererPhase.receives = true) (gone : s.answererPhase = .ended) :
    ∃ a, (s.offererStep a).isSome = true := by
  have shut : decide (s.answererPhase = .ended) = true := decide_eq_true gone
  obtain ⟨n, bytes, rest, text, grant, read⟩ :=
    @granted_of_shut offererBufferSize s.toOfferer (by decide)
  obtain ⟨m, some_, left, _, four, _⟩ := @granted_of_shut 4 s.toOfferer (by decide)
  cases atPhase : s.offererPhase with
  | waitingSdp | waitingCandidate => exact ⟨.recv n false, by simp [offererStep, atPhase, shut, grant, read]⟩
  | waitingCount => exact ⟨.recv m false, by simp [offererStep, atPhase, shut, four]⟩
  | sendingSdp | counting | sendingCandidates | messaging | ended => simp [atPhase, OffererPhase.receives] at waits

theorem answerer_reads (waits : s.answererPhase.receives = true) (gone : s.offererPhase = .ended) :
    ∃ a, (s.answererStep a).isSome = true := by
  have shut : decide (s.offererPhase = .ended) = true := decide_eq_true gone
  obtain ⟨n, bytes, rest, text, grant, read⟩ :=
    @granted_of_shut answererBufferSize s.toAnswerer (by decide)
  obtain ⟨m, some_, left, _, four, _⟩ := @granted_of_shut 4 s.toAnswerer (by decide)
  cases atPhase : s.answererPhase with
  | waitingSdp | waitingCandidate => exact ⟨.recv n false, by simp [answererStep, atPhase, shut, grant, read]⟩
  | waitingCount => exact ⟨.recv m false, by simp [answererStep, atPhase, shut, four]⟩
  | spinning | counting | sendingCandidate | sleeping | ended => simp [atPhase, AnswererPhase.receives] at waits

/-- One of the programs can go on, or both have ended, or the answerer waits for its callback. -/
theorem Staged.moves (staged : Staged past s) (flowing : s.Flowing) :
    s.offererPhase = .ended ∧ s.answererPhase = .ended ∨ s.answererPhase = .spinning ∧ s.sdpGenerated = false ∨
      ∃ a, (s.offererStep a).isSome = true ∨ (s.answererStep a).isSome = true := by
  by_cases offererWaits : s.offererPhase.receives = true
  · by_cases answererWaits : s.answererPhase.receives = true
    · have moves := mt deadlocked_iff.mpr flowing.not_deadlocked
      simp only [offererWaits, answererWaits, true_and, not_and_or, not_forall] at moves
      rcases moves with ⟨a, moves⟩ | ⟨a, moves⟩
      · exact Or.inr (Or.inr ⟨a, Or.inl (Option.isSome_iff_ne_none.mpr moves)⟩)
      · exact Or.inr (Or.inr ⟨a, Or.inr (Option.isSome_iff_ne_none.mpr moves)⟩)
    · rcases answerer_moves (Bool.eq_false_iff.mpr answererWaits) with gone | spins | moves
      · obtain ⟨a, moves⟩ := offerer_reads offererWaits gone
        exact Or.inr (Or.inr ⟨a, Or.inl moves⟩)
      · exact Or.inr (Or.inl spins)
      · exact Or.inr (Or.inr ⟨.go, Or.inr moves⟩)
  · by_cases gone : s.offererPhase = .ended
    · by_cases answererWaits : s.answererPhase.receives = true
      · obtain ⟨a, moves⟩ := answerer_reads answererWaits gone
        exact Or.inr (Or.inr ⟨a, Or.inr moves⟩)
      · rcases answerer_moves (Bool.eq_false_iff.mpr answererWaits) with ended | spins | moves
        · exact Or.inl ⟨gone, ended⟩
        · exact Or.inr (Or.inl spins)
        · exact Or.inr (Or.inr ⟨.go, Or.inr moves⟩)
    · exact Or.inr (Or.inr ⟨.go, Or.inl (staged.offerer_moves (Bool.eq_false_iff.mpr offererWaits) gone)⟩)

theorem staged_of_run (run : Trail step initial past s) : Staged past s :=
  run.invariant Staged staged_initial fun _ _ _ _ _ staged stepped => staged.step stepped

theorem flowing_of_run (run : Trail step initial past s) (fed : Throughout (fun _ => Fed) past) : s.Flowing := by
  refine run.invariant_of_allowed (fun _ => Flowing) flowing_initial ?_ fed
  intro past s e t _ flowing allowed stepped
  exact flowing.step allowed stepped

/-- Both programs end: `main` of the offerer takes at most seven steps and one for each candidate it announced,
that of the answerer at most seven; neither adds more than one remote candidate, whatever number was announced
to it; and where the offerer sent a gathered description and a candidate, one of them can go on until both have
ended, unless the answerer waits for its callback or the offerer for the user. -/
theorem exchange_ends (run : Trail step initial past s) :
    count byOfferer past ≤ 7 + s.offerer.limit ∧ count byAnswerer past ≤ 7 ∧
      s.offerer.added.length ≤ 1 ∧ s.answerer.added.length ≤ 1 ∧
      (Throughout (fun _ => Fed) past → s.offererPhase = .ended ∧ s.answererPhase = .ended ∨ s.AwaitsOutside ∨
        ∃ a, (s.offererStep a).isSome = true ∨ (s.answererStep a).isSome = true) := by
  have staged := staged_of_run run
  have less (s : DirectExchange) (e : ExchangeEvent) (t : DirectExchange) (stepped : step s e = some t) :
      (byAnswerer s e).toNat + t.answererPhase.left ≤ s.answererPhase.left := left_step stepped
  have answerer : count byAnswerer past + s.answererPhase.left ≤ 7 := run.count_add_le less
  have goesOn (fed : Throughout (fun _ => Fed) past) :=
    (staged.moves (flowing_of_run run fed)).imp_right fun moves =>
      moves.imp_left (Or.inl (b := s.offererPhase = .messaging))
  refine ⟨?_, by omega, staged.most.1, staged.most.2, goesOn⟩
  have most : s.stage ≤ 7 + s.offerer.limit := by
    unfold stage
    cases atPhase : s.offererPhase with
    | sendingCandidates number i =>
      have within := (staged.sending number i atPhase).1
      show 3 + i ≤ _
      omega
    | sendingSdp | waitingSdp | counting | waitingCount | waitingCandidate | messaging | ended =>
      dsimp only
      omega
  rcases staged.taken with same | ⟨_, fewer⟩
  · omega
  · omega

end Steps

end DirectExchange

/-- Up to where the offerer waits for the user, and the answerer has sent its candidate. -/
theorem one_candidate_ends : ∃ past s,
    execute DirectExchange.step [] DirectExchange.initial (oneCandidateEach.take 17) = some (past, s) ∧
      s.offerer.limit = 1 ∧ s.offererPhase = .messaging ∧ s.answererPhase = .sleeping ∧
      count DirectExchange.byOfferer past ≤ 7 + s.offerer.limit ∧ count DirectExchange.byAnswerer past ≤ 7 ∧
      s.offerer.added.length ≤ 1 ∧ s.answerer.added.length ≤ 1 ∧
      (s.offererPhase = .ended ∧ s.answererPhase = .ended ∨ s.AwaitsOutside ∨
        ∃ a, (s.offererStep a).isSome = true ∨ (s.answererStep a).isSome = true) := by
  have ran : (execute DirectExchange.step [] DirectExchange.initial (oneCandidateEach.take 17)).any (fun r =>
      decide (r.2.offerer.limit = 1 ∧ r.2.offererPhase = .messaging ∧ r.2.answererPhase = .sleeping ∧
        Throughout (fun _ => DirectExchange.Fed) r.1)) = true := by
    decide +kernel
  obtain ⟨past, s, done, checked⟩ := execute_check _ ran
  obtain ⟨one, offerer, answerer, fed⟩ := of_decide_eq_true checked
  obtain ⟨most, few, added, added', goesOn⟩ := DirectExchange.exchange_ends (execute_trail done)
  exact ⟨past, s, done, one, offerer, answerer, most, few, added, added', goesOn fed⟩

end Signaling
