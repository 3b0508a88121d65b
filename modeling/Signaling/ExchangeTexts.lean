import Signaling.DirectExchange
import Signaling.Machine.Trail

namespace Signaling
open Machine CText

abbrev ExchangeHistory := List (DirectExchange × ExchangeEvent)

/-- The bytes of the count that a program has sent, if it has. -/
def Side.count (side : Side) : Option Text :=
  side.announced.map fun candidates => intBytes (candidateNumber candidates)

namespace DirectExchange

/-- The description that a step of the offerer sends. -/
def offers (s : DirectExchange) : ExchangeEvent → Option Text
  | .offerer .go => if s.offererPhase = .sendingSdp then some (ofBuffer s.offerer.localSdp) else none
  | _ => none

/-- The description that a step of the answerer sends. -/
def answers (s : DirectExchange) : ExchangeEvent → Option Text
  | .answerer .go => if s.answererPhase = .spinning then some (ofBuffer s.answerer.localSdp) else none
  | _ => none

/-- The text that the offerer has sent, empty where it has sent none. -/
def offerSent (past : ExchangeHistory) : Text := (past.findSome? fun step => step.1.offers step.2).getD []

def answerSent (past : ExchangeHistory) : Text := (past.findSome? fun step => step.1.answers step.2).getD []

/-- Every `recv` returns as many of the bytes queued as fit its buffer. -/
def FullRecv (_ : ExchangeHistory) (s : DirectExchange) : ExchangeEvent → Prop
  | .offerer (.recv n _) =>
    n = min (if s.offererPhase = .waitingCount then 4 else offererBufferSize) s.toOfferer.length
  | .answerer (.recv n _) =>
    n = min (if s.answererPhase = .waitingCount then 4 else answererBufferSize) s.toAnswerer.length
  | _ => True

/-- Each text ends within the buffer of the other program. -/
def TextFits (_ : ExchangeHistory) (s : DirectExchange) (e : ExchangeEvent) : Prop :=
  (∀ text ∈ s.offers e, text.length < answererBufferSize) ∧ ∀ text ∈ s.answers e, text.length < offererBufferSize

instance (past : ExchangeHistory) (s : DirectExchange) (e : ExchangeEvent) : Decidable (FullRecv past s e) := by
  unfold FullRecv
  cases_type* ExchangeEvent MainStep <;> infer_instance

instance (past : ExchangeHistory) (s : DirectExchange) (e : ExchangeEvent) : Decidable (TextFits past s e) :=
  inferInstanceAs (Decidable (_ ∧ _))

/-- What is queued where a program waits for a text or a count is the text or the count that the other
program has sent, as the array and the four bytes get it; and so is what the program has received. -/
structure Delivered (past : ExchangeHistory) (s : DirectExchange) : Prop where
  offer : s.answererPhase = .waitingSdp → s.toAnswerer ≠ [] →
    arrayText answererBufferSize (s.toAnswerer.take answererBufferSize) = some (offerSent past)
  answer : s.offererPhase = .waitingSdp → s.toOfferer ≠ [] →
    arrayText offererBufferSize (s.toOfferer.take offererBufferSize) = some (answerSent past)
  offerParsed : s.answererPhase ≠ .waitingSdp → s.answerer.remoteSdp = offerSent past
  answerParsed : s.offererPhase ≠ .sendingSdp → s.offererPhase ≠ .waitingSdp →
    s.offerer.remoteSdp = answerSent past
  offererCount : s.answererPhase = .waitingCount → s.toAnswerer ≠ [] → s.offerer.count = some (s.toAnswerer.take 4)
  answererCount : s.offererPhase = .waitingCount → s.toOfferer ≠ [] → s.answerer.count = some (s.toOfferer.take 4)
  offererCounted : s.answerer.remoteCandCount ≠ [] → s.offerer.count = some s.answerer.remoteCandCount
  answererCounted : s.offerer.remoteCandCount ≠ [] → s.answerer.count = some s.offerer.remoteCandCount

/-- No count has been sent. -/
structure Uncounted (s : DirectExchange) : Prop where
  offerer : s.offerer.announced = none
  answerer : s.answerer.announced = none
  offererCount : s.offerer.remoteCandCount = []
  answererCount : s.answerer.remoteCandCount = []

end DirectExchange

/-- The count is still ahead of the offerer. -/
def OffererPhase.beforeCount : OffererPhase → Bool
  | .counting | .sendingCandidates .. | .waitingCount => true
  | _ => false

/-- What is queued starts with the count of the other program. -/
def Side.Starts (side : Side) (queue : Text) : Prop :=
  match side.count with
  | some count => count <+: queue
  | none => queue = []

/-- The bytes received for a count are the count of the other program. -/
def Side.Counted (side other : Side) : Prop := side.remoteCandCount ≠ [] → other.count = some side.remoteCandCount

namespace DirectExchange

def OfferFits (past : ExchangeHistory) : Prop := (offerSent past).length < answererBufferSize

def AnswerFits (past : ExchangeHistory) : Prop := (answerSent past).length < offererBufferSize

/-- Both descriptions are through. -/
structure Counting (past : ExchangeHistory) (s : DirectExchange) : Prop where
  fit : OfferFits past ∧ AnswerFits past
  offererPast : s.offererPhase ≠ .sendingSdp ∧ s.offererPhase ≠ .waitingSdp
  answererPast : s.answererPhase ≠ .waitingSdp ∧ s.answererPhase ≠ .spinning
  offer : s.answerer.remoteSdp = offerSent past
  answer : s.offerer.remoteSdp = answerSent past
  offererBefore : s.offererPhase = .counting → s.offerer.announced = none
  offererAfter : ∀ number i, s.offererPhase = .sendingCandidates number i → s.offerer.announced ≠ none
  answererBefore : s.answererPhase = .waitingCount ∨ s.answererPhase = .waitingCandidate ∨
    s.answererPhase = .counting → s.answerer.announced = none
  answererAfter : s.answererPhase = .sendingCandidate → s.answerer.announced ≠ none
  toAnswerer : s.answererPhase = .waitingCount → s.offerer.Starts s.toAnswerer
  toOfferer : s.offererPhase.beforeCount = true → s.answerer.Starts s.toOfferer
  counts : s.answerer.Counted s.offerer ∧ s.offerer.Counted s.answerer

/-- How far the exchange of the descriptions is. -/
inductive Stage (past : ExchangeHistory) (s : DirectExchange) : Prop
  | start : s.Uncounted → s.offererPhase = .sendingSdp → s.answererPhase = .waitingSdp → s.toAnswerer = [] →
      s.toOfferer = [] → offerSent past = [] → answerSent past = [] → Stage past s
  | offered : s.Uncounted → s.offererPhase = .waitingSdp → s.answererPhase = .waitingSdp →
      s.toAnswerer = offerSent past → s.toOfferer = [] → answerSent past = [] → Stage past s
  | parsed : s.Uncounted → s.offererPhase = .waitingSdp → s.answererPhase = .spinning ∨ s.answererPhase = .ended →
      s.toAnswerer = [] → s.toOfferer = [] → OfferFits past → s.answerer.remoteSdp = offerSent past →
      answerSent past = [] → Stage past s
  | answered : s.Uncounted → s.offererPhase = .waitingSdp → s.answererPhase = .waitingCount → s.toAnswerer = [] →
      s.toOfferer = answerSent past → OfferFits past → s.answerer.remoteSdp = offerSent past → Stage past s
  | counting : Counting past s → Stage past s

section Texts
variable {past : ExchangeHistory} {s t : DirectExchange} {e : ExchangeEvent} {a : MainStep} {side other : Side}
  {queue bytes rest text more : Text} {n size : Nat} {shut : Bool}

theorem offerSent_quiet (quiet : s.offers e = none) : offerSent ((s, e) :: past) = offerSent past := by
  rw [offerSent, List.findSome?_cons, quiet]
  rfl

theorem answerSent_quiet (quiet : s.answers e = none) : answerSent ((s, e) :: past) = answerSent past := by
  rw [answerSent, List.findSome?_cons, quiet]
  rfl

theorem offerSent_sends (sends : s.offers e = some text) : offerSent ((s, e) :: past) = text := by
  rw [offerSent, List.findSome?_cons, sends]
  rfl

theorem answerSent_sends (sends : s.answers e = some text) : answerSent ((s, e) :: past) = text := by
  rw [answerSent, List.findSome?_cons, sends]
  rfl

theorem offers_free (sends : s.offers e = some text) : nul ∉ text := by
  unfold offers at sends
  split at sends
  · split_ifs at sends
    cases Option.some.inj sends
    exact nul_notMem_ofBuffer _
  · simp at sends

theorem answers_free (sends : s.answers e = some text) : nul ∉ text := by
  unfold answers at sends
  split at sends
  · split_ifs at sends
    cases Option.some.inj sends
    exact nul_notMem_ofBuffer _
  · simp at sends

theorem free_latest {sent : DirectExchange × ExchangeEvent → Option Text}
    (free : ∀ step text, sent step = some text → nul ∉ text) : nul ∉ (past.findSome? sent).getD [] := by
  cases latest : past.findSome? sent with
  | none => simp
  | some text =>
    obtain ⟨_, _, sends⟩ := List.exists_of_findSome?_eq_some latest
    exact free _ text sends

theorem free_offerSent : nul ∉ offerSent past := free_latest fun _ _ => offers_free

theorem free_answerSent : nul ∉ answerSent past := free_latest fun _ _ => answers_free

/-- A text without NUL is a string in an array exactly if it is shorter. -/
theorem arrayText_take (free : nul ∉ text) :
    arrayText size (text.take size) = if text.length < size then some text else none := by
  have plain : nul ∉ text.take size := fun inside => free (List.mem_of_mem_take inside)
  rw [arrayText, ofBuffer_of_free plain, List.length_take]
  by_cases short : text.length < size
  · rw [if_pos (by omega), if_pos short, List.take_of_length_le short.le]
  · rw [if_neg (by omega), if_neg short]

theorem short_of_array (free : nul ∉ text) (positive : ([] : Text).length < size)
    (read : text ≠ [] → arrayText size (text.take size) = some text) : text.length < size := by
  by_cases empty : text = []
  · rwa [empty]
  · have whole := read empty
    rw [arrayText_take free] at whole
    split_ifs at whole with short
    exact short

/-- A `recv` that takes all it can. -/
theorem granted_full (grant : granted size queue shut (min size queue.length) = some (bytes, rest)) :
    bytes = queue.take size ∧ rest = queue.drop size := by
  rw [granted] at grant
  split_ifs at grant
  cases Option.some.inj grant
  rcases Nat.le_total size queue.length with le | le
  · rw [Nat.min_eq_left le]
    exact ⟨rfl, rfl⟩
  · rw [Nat.min_eq_right le, List.take_length, List.drop_length, List.take_of_length_le le, List.drop_eq_nil_of_le le]
    exact ⟨rfl, rfl⟩

/-- A text that is received is all that was queued. -/
theorem received_text (grant : granted size queue shut (min size queue.length) = some (bytes, rest))
    (read : arrayText size bytes = some text) (free : nul ∉ queue) :
    text = queue ∧ rest = [] ∧ queue.length < size := by
  obtain ⟨rfl, rfl⟩ := granted_full grant
  rw [arrayText_take free] at read
  split_ifs at read with short
  exact ⟨(Option.some.inj read).symm, List.drop_eq_nil_of_le short.le, short⟩

theorem length_count {count : Text} (sent : side.count = some count) : count.length = 4 := by
  obtain ⟨_, _, rfl⟩ := Option.map_eq_some_iff.mp sent
  rfl

/-- The first four bytes of what starts with a count are the count. -/
theorem count_of_starts (starts : side.Starts queue) (filled : queue ≠ []) : side.count = some (queue.take 4) := by
  rw [Side.Starts] at starts
  cases sent : side.count with
  | none =>
    rw [sent] at starts
    exact absurd starts filled
  | some count =>
    rw [sent] at starts
    obtain ⟨rest, rfl⟩ := starts
    rw [List.take_left' (length_count sent)]

theorem count_eq_none : side.count = none ↔ side.announced = none := Option.map_eq_none_iff

theorem starts_nothing (unannounced : side.announced = none) : side.Starts queue ↔ queue = [] := by
  rw [Side.Starts, count_eq_none.mpr unannounced]

theorem starts_append (announced : side.announced ≠ none) (starts : side.Starts queue) : side.Starts (queue ++ more) := by
  rw [Side.Starts] at starts ⊢
  cases sent : side.count with
  | none => exact absurd (count_eq_none.mp sent) announced
  | some count =>
    rw [sent] at starts
    exact starts.trans (List.prefix_append queue more)

/-- A program that has received a count has received the one that was queued. -/
theorem counted_of_full {shut : Bool} (starts : other.Starts queue)
    (grant : granted 4 queue shut (min 4 queue.length) = some (side.remoteCandCount, rest)) : side.Counted other := by
  intro some_
  obtain ⟨same, _⟩ := granted_full grant
  rw [same]
  refine count_of_starts starts fun empty => some_ ?_
  rw [same, empty]
  rfl

end Texts

section Steps
variable {past past' : ExchangeHistory} {s t : DirectExchange} {e : ExchangeEvent} {a : MainStep}

theorem Counting.of_sent (counting : Counting past s) (offer : offerSent past' = offerSent past)
    (answer : answerSent past' = answerSent past) : Counting past' s :=
  { counting with
    fit := by simpa only [OfferFits, AnswerFits, offer, answer] using counting.fit
    offer := counting.offer.trans offer.symm
    answer := counting.answer.trans answer.symm }

/-- What the offerer does when both descriptions are through. -/
theorem Counting.offerer (counting : Counting past s) (full : FullRecv past s (.offerer a)) (stepped : s.Offered a t) :
    Counting past t := by
  obtain ⟨fit, offererPast, answererPast, offer, answer, offererBefore, offererAfter, answererBefore, answererAfter,
    toAnswerer, toOfferer, counts⟩ := counting
  cases stepped with
  | sendSdp atPhase => exact absurd atPhase offererPast.1
  | receiveSdp atPhase => exact absurd atPhase offererPast.2
  | sendCount atPhase =>
    have unannounced := offererBefore atPhase
    refine ⟨fit, by simp, answererPast, offer, answer, by simp, by simp, answererBefore, answererAfter, fun waits => ?_,
      fun _ => toOfferer (by rw [atPhase]; rfl), fun some_ => ?_, counts.2⟩
    · rw [(starts_nothing unannounced).mp (toAnswerer waits)]
      exact List.prefix_rfl
    · have none := counts.1 some_
      rw [count_eq_none.mpr unannounced] at none
      simp at none
  | @sendCandidate number i candidate atPhase more found =>
    have announced := offererAfter number i atPhase
    exact ⟨fit, by simp, answererPast, offer, answer, by simp, fun _ _ _ => announced, answererBefore, answererAfter,
      fun waits => starts_append announced (toAnswerer waits), fun _ => toOfferer (by rw [atPhase]; rfl), counts⟩
  | sentCandidates atPhase =>
    exact ⟨fit, by simp, answererPast, offer, answer, by simp, by simp, answererBefore, answererAfter, toAnswerer,
      fun _ => toOfferer (by rw [atPhase]; rfl), counts⟩
  | @receiveCount n bytes rest atPhase grant =>
    have all : n = min 4 s.toOfferer.length := by simpa [FullRecv, atPhase] using full
    subst all
    exact ⟨fit, by simp, answererPast, offer, answer, by simp, by simp, answererBefore, answererAfter, toAnswerer,
      by simp [OffererPhase.beforeCount], counts.1, counted_of_full (toOfferer (by rw [atPhase]; rfl)) grant⟩
  | @receiveCandidate n raised bytes rest text atPhase =>
    cases raised <;> exact ⟨fit, by simp, answererPast, offer, answer, by simp, by simp, answererBefore, answererAfter,
      toAnswerer, by simp [OffererPhase.beforeCount], counts⟩
  | finish atPhase =>
    exact ⟨fit, by simp, answererPast, offer, answer, by simp, by simp, answererBefore, answererAfter, toAnswerer,
      by simp [OffererPhase.beforeCount], counts⟩

theorem Counting.answerer (counting : Counting past s) (full : FullRecv past s (.answerer a))
    (stepped : s.Answered a t) : Counting past t := by
  obtain ⟨fit, offererPast, answererPast, offer, answer, offererBefore, offererAfter, answererBefore, answererAfter,
    toAnswerer, toOfferer, counts⟩ := counting
  cases stepped with
  | receiveSdp atPhase => exact absurd atPhase answererPast.1
  | sendSdp atPhase => exact absurd atPhase answererPast.2
  | @receiveCount n bytes rest atPhase grant =>
    have all : n = min 4 s.toAnswerer.length := by simpa [FullRecv, atPhase] using full
    subst all
    exact ⟨fit, offererPast, by simp, offer, answer, offererBefore, offererAfter,
      fun _ => answererBefore (Or.inl atPhase), by simp, by simp, toOfferer,
      counted_of_full (toAnswerer atPhase) grant, counts.2⟩
  | @receiveCandidate n raised bytes rest text atPhase =>
    have unannounced := answererBefore (Or.inr (Or.inl atPhase))
    cases raised <;> exact ⟨fit, offererPast, by simp, offer, answer, offererBefore, offererAfter, fun _ => unannounced,
      by simp, by simp, toOfferer, counts⟩
  | sendCount atPhase =>
    have unannounced := answererBefore (Or.inr (Or.inr atPhase))
    refine ⟨fit, offererPast, by simp, offer, answer, offererBefore, offererAfter, by simp, by simp, by simp,
      fun waits => ?_, counts.1, fun some_ => ?_⟩
    · rw [(starts_nothing unannounced).mp (toOfferer waits)]
      exact List.prefix_rfl
    · have none := counts.2 some_
      rw [count_eq_none.mpr unannounced] at none
      simp at none
  | noCandidate atPhase | finish atPhase =>
    exact ⟨fit, offererPast, by simp, offer, answer, offererBefore, offererAfter, by simp, by simp, by simp, toOfferer,
      counts⟩
  | sendCandidate atPhase =>
    have announced := answererAfter atPhase
    exact ⟨fit, offererPast, by simp, offer, answer, offererBefore, offererAfter, by simp, by simp, by simp,
      fun waits => starts_append announced (toOfferer waits), counts⟩

theorem Stage.counting_of (stage : Stage past s) (sent : s.offererPhase ≠ .sendingSdp)
    (received : s.offererPhase ≠ .waitingSdp) : Counting past s := by
  cases stage with
  | start _ phase => exact absurd phase sent
  | offered _ phase | parsed _ phase | answered _ phase => exact absurd phase received
  | counting counting => exact counting

/-- A step that neither sends nor receives a count. -/
theorem Uncounted.kept (uncounted : s.Uncounted) (offerer : t.offerer.announced = s.offerer.announced)
    (answerer : t.answerer.announced = s.answerer.announced)
    (offererCount : t.offerer.remoteCandCount = s.offerer.remoteCandCount)
    (answererCount : t.answerer.remoteCandCount = s.answerer.remoteCandCount) : t.Uncounted where
  offerer := offerer.trans uncounted.offerer
  answerer := answerer.trans uncounted.answerer
  offererCount := offererCount.trans uncounted.offererCount
  answererCount := answererCount.trans uncounted.answererCount

/-- The offerer has received the answer, and nothing is queued. -/
theorem Uncounted.counting (uncounted : s.Uncounted) (fit : OfferFits past ∧ AnswerFits past)
    (offererPast : s.offererPhase = .counting ∨ s.offererPhase = .ended)
    (answererPast : s.answererPhase = .waitingCount ∨ s.answererPhase = .ended) (toAnswerer : s.toAnswerer = [])
    (toOfferer : s.toOfferer = []) (offer : s.answerer.remoteSdp = offerSent past)
    (answer : s.offerer.remoteSdp = answerSent past) : Counting past s where
  fit := fit
  offererPast := by rcases offererPast with phase | phase <;> simp [phase]
  answererPast := by rcases answererPast with phase | phase <;> simp [phase]
  offer := offer
  answer := answer
  offererBefore _ := uncounted.offerer
  offererAfter number i sending := by rcases offererPast with phase | phase <;> simp [phase] at sending
  answererBefore _ := uncounted.answerer
  answererAfter sending := by rcases answererPast with phase | phase <;> simp [phase] at sending
  toAnswerer _ := (starts_nothing uncounted.offerer).mpr toAnswerer
  toOfferer _ := (starts_nothing uncounted.answerer).mpr toOfferer
  counts := ⟨fun some_ => absurd uncounted.answererCount some_, fun some_ => absurd uncounted.offererCount some_⟩

/-- What the offerer has in its queue when it receives the answer. -/
theorem Stage.answer_queued (stage : Stage past s) (waiting : s.offererPhase = .waitingSdp)
    (filled : s.answererPhase ≠ .ended → s.toOfferer ≠ []) : s.Uncounted ∧
      (s.answererPhase = .waitingCount ∨ s.answererPhase = .ended) ∧ s.toAnswerer = [] ∧
        s.toOfferer = answerSent past ∧ OfferFits past ∧ s.answerer.remoteSdp = offerSent past := by
  cases stage with
  | start _ phase => simp [phase] at waiting
  | offered _ _ waits _ quiet => exact absurd quiet (filled (by simp [waits]))
  | parsed uncounted _ phase queue quiet fits parsed none =>
    have ended : s.answererPhase = .ended := by
      refine phase.resolve_left fun spins => ?_
      exact filled (by simp [spins]) quiet
    exact ⟨uncounted, Or.inr ended, queue, quiet.trans none.symm, fits, parsed⟩
  | answered uncounted _ phase queue sent fits parsed => exact ⟨uncounted, Or.inl phase, queue, sent, fits, parsed⟩
  | counting counting => exact absurd waiting counting.offererPast.2

theorem Stage.offerer (stage : Stage past s) (full : FullRecv past s (.offerer a))
    (offered : s.Offered a t) : Stage ((s, .offerer a) :: past) t := by
  have answer : answerSent ((s, .offerer a) :: past) = answerSent past := answerSent_quiet rfl
  by_cases sending : s.offererPhase = .sendingSdp
  · cases stage with
    | start uncounted _ waits queue quiet _ none =>
      cases offered with
      | sendSdp =>
        have sends : s.offers (.offerer .go) = some (ofBuffer s.offerer.localSdp) := if_pos sending
        exact .offered (uncounted.kept rfl rfl rfl rfl) rfl waits (by simp [queue, offerSent_sends sends]) quiet
          (answer.trans none)
      | receiveSdp atPhase | sendCount atPhase | sendCandidate atPhase | sentCandidates atPhase
      | receiveCount atPhase | receiveCandidate atPhase | finish atPhase => simp [sending] at atPhase
    | offered _ phase | parsed _ phase | answered _ phase => simp [phase] at sending
    | counting counting => exact absurd sending counting.offererPast.1
  have offer : offerSent ((s, .offerer a) :: past) = offerSent past := by
    refine offerSent_quiet ?_
    cases a with
    | go => exact if_neg sending
    | recv => rfl
  by_cases waiting : s.offererPhase = .waitingSdp
  · cases offered with
    | @receiveSdp n raised bytes rest text _ grant read =>
      have all : n = min offererBufferSize s.toOfferer.length := by simpa [FullRecv, waiting] using full
      subst all
      have past_ : (if raised then .ended else .counting : OffererPhase) = .counting ∨
          (if raised then .ended else .counting : OffererPhase) = .ended := by cases raised <;> simp
      obtain ⟨uncounted, phase, queue, sent, fits, parsed⟩ := stage.answer_queued waiting fun running =>
        filled_of_granted grant (by simpa using running)
      obtain ⟨rfl, rfl, short⟩ := received_text grant read (sent ▸ free_answerSent)
      have fit : OfferFits past ∧ AnswerFits past := ⟨fits, by rwa [AnswerFits, ← sent]⟩
      refine .counting (Counting.of_sent ?_ offer answer)
      exact Uncounted.counting (uncounted.kept rfl rfl rfl rfl) fit past_ phase queue rfl parsed sent
    | sendSdp atPhase | sendCount atPhase | sendCandidate atPhase | sentCandidates atPhase
    | receiveCount atPhase | receiveCandidate atPhase | finish atPhase => simp [waiting] at atPhase
  · exact .counting (((stage.counting_of sending waiting).offerer full offered).of_sent offer answer)

theorem Stage.answerer (stage : Stage past s) (full : FullRecv past s (.answerer a))
    (answered : s.Answered a t) : Stage ((s, .answerer a) :: past) t := by
  have offer : offerSent ((s, .answerer a) :: past) = offerSent past := offerSent_quiet rfl
  cases stage with
  | start _ phase waits queue =>
    cases answered with
    | receiveSdp _ grant => exact absurd queue (filled_of_granted grant (by simp [phase]))
    | sendSdp atPhase | receiveCount atPhase | receiveCandidate atPhase | sendCount atPhase | noCandidate atPhase
    | sendCandidate atPhase | finish atPhase => simp [waits] at atPhase
  | offered uncounted phase waits sent quiet none =>
    cases answered with
    | @receiveSdp n raised bytes rest text _ grant read =>
      have all : n = min answererBufferSize s.toAnswerer.length := by simpa [FullRecv, waits] using full
      subst all
      obtain ⟨rfl, rfl, short⟩ := received_text grant read (sent ▸ free_offerSent)
      have past_ : (if raised then .ended else .spinning : AnswererPhase) = .spinning ∨
          (if raised then .ended else .spinning : AnswererPhase) = .ended := by cases raised <;> simp
      exact .parsed (uncounted.kept rfl rfl rfl rfl) phase past_ rfl quiet (by rwa [OfferFits, offer, ← sent])
        (sent.trans offer.symm) ((answerSent_quiet rfl).trans none)
    | sendSdp atPhase | receiveCount atPhase | receiveCandidate atPhase | sendCount atPhase | noCandidate atPhase
    | sendCandidate atPhase | finish atPhase => simp [waits] at atPhase
  | parsed uncounted phase past_ queue quiet fits parsed none =>
    cases answered with
    | sendSdp spins =>
      have sends : s.answers (.answerer .go) = some (ofBuffer s.answerer.localSdp) := if_pos spins
      exact .answered (uncounted.kept rfl rfl rfl rfl) phase rfl queue (by simp [quiet, answerSent_sends sends])
        (by rwa [OfferFits, offer]) (parsed.trans offer.symm)
    | receiveSdp atPhase | receiveCount atPhase | receiveCandidate atPhase | sendCount atPhase | noCandidate atPhase
    | sendCandidate atPhase | finish atPhase => simp [atPhase] at past_
  | answered _ phase waits queue =>
    cases answered with
    | receiveCount _ grant => exact absurd queue (filled_of_granted grant (by simp [phase]))
    | sendSdp atPhase | receiveSdp atPhase | receiveCandidate atPhase | sendCount atPhase | noCandidate atPhase
    | sendCandidate atPhase | finish atPhase => simp [waits] at atPhase
  | counting counting =>
    have answer : answerSent ((s, .answerer a) :: past) = answerSent past := by
      refine answerSent_quiet ?_
      cases a with
      | go => exact if_neg counting.answererPast.2
      | recv => rfl
    exact .counting ((counting.answerer full answered).of_sent offer answer)

theorem Stage.of_sent (stage : Stage past s) (offer : offerSent past' = offerSent past)
    (answer : answerSent past' = answerSent past) : Stage past' s := by
  cases stage with
  | start uncounted sending waits queue quiet none noAnswer =>
    exact .start uncounted sending waits queue quiet (offer.trans none) (answer.trans noAnswer)
  | offered uncounted phase waits sent quiet none =>
    exact .offered uncounted phase waits (sent.trans offer.symm) quiet (answer.trans none)
  | parsed uncounted phase past_ queue quiet fits parsed none =>
    exact .parsed uncounted phase past_ queue quiet (by rwa [OfferFits, offer]) (parsed.trans offer.symm)
      (answer.trans none)
  | answered uncounted phase waits queue sent fits parsed =>
    exact .answered uncounted phase waits queue (sent.trans answer.symm) (by rwa [OfferFits, offer])
      (parsed.trans offer.symm)
  | counting counting => exact .counting (counting.of_sent offer answer)

/-- The callbacks of the peer connections change nothing that has been sent. -/
theorem Stage.callback (stage : Stage past s) (offererSdp answererSdp : Text)
    (offererCandidates answererCandidates : List Text) (generated : Bool) : Stage past { s with
      offerer := { s.offerer with localSdp := offererSdp, localCandidates := offererCandidates },
      answerer := { s.answerer with localSdp := answererSdp, localCandidates := answererCandidates },
      sdpGenerated := generated } := by
  have kept (uncounted : s.Uncounted) : Uncounted { s with
      offerer := { s.offerer with localSdp := offererSdp, localCandidates := offererCandidates },
      answerer := { s.answerer with localSdp := answererSdp, localCandidates := answererCandidates },
      sdpGenerated := generated } :=
    uncounted.kept rfl rfl rfl rfl
  cases stage with
  | start uncounted sending waits queue quiet none noAnswer =>
    exact .start (kept uncounted) sending waits queue quiet none noAnswer
  | offered uncounted phase waits sent quiet none => exact .offered (kept uncounted) phase waits sent quiet none
  | parsed uncounted phase past_ queue quiet fits parsed none =>
    exact .parsed (kept uncounted) phase past_ queue quiet fits parsed none
  | answered uncounted phase waits queue sent fits parsed =>
    exact .answered (kept uncounted) phase waits queue sent fits parsed
  | counting counting =>
    exact .counting ⟨counting.fit, counting.offererPast, counting.answererPast, counting.offer, counting.answer,
      counting.offererBefore, counting.offererAfter, counting.answererBefore, counting.answererAfter,
      counting.toAnswerer, counting.toOfferer, counting.counts⟩

theorem Stage.step (stage : Stage past s) (full : FullRecv past s e) (stepped : s.step e = some t) :
    Stage ((s, e) :: past) t := by
  cases step_moved stepped with
  | offerer offered => exact stage.offerer full offered
  | answerer answered => exact stage.answerer full answered
  | offererGathered | offererCandidate | answererGathered | answererCandidate =>
    exact (stage.callback _ _ _ _ _).of_sent (offerSent_quiet rfl) (answerSent_quiet rfl)

theorem Stage.delivered (stage : Stage past s) (fits : OfferFits past ∧ AnswerFits past) : Delivered past s := by
  have offer : arrayText answererBufferSize ((offerSent past).take answererBufferSize) = some (offerSent past) :=
    (arrayText_take free_offerSent).trans (if_pos fits.1)
  have answer : arrayText offererBufferSize ((answerSent past).take offererBufferSize) = some (answerSent past) :=
    (arrayText_take free_answerSent).trans (if_pos fits.2)
  cases stage with
  | start uncounted sending waits queue quiet =>
    exact ⟨fun _ filled => absurd queue filled, by simp [sending], by simp [waits], by simp [sending], by simp [waits],
      by simp [sending], by simp [uncounted.answererCount], by simp [uncounted.offererCount]⟩
  | offered uncounted phase waits sent quiet =>
    exact ⟨fun _ _ => sent ▸ offer, fun _ filled => absurd quiet filled, by simp [waits], by simp [phase],
      by simp [waits], by simp [phase], by simp [uncounted.answererCount], by simp [uncounted.offererCount]⟩
  | parsed uncounted phase past_ queue quiet _ parsed =>
    exact ⟨fun _ filled => absurd queue filled, fun _ filled => absurd quiet filled, fun _ => parsed, by simp [phase],
      fun _ filled => absurd queue filled, by simp [phase], by simp [uncounted.answererCount],
      by simp [uncounted.offererCount]⟩
  | answered uncounted phase waits queue sent _ parsed =>
    exact ⟨by simp [waits], fun _ _ => sent ▸ answer, fun _ => parsed, by simp [phase],
      fun _ filled => absurd queue filled, by simp [phase], by simp [uncounted.answererCount],
      by simp [uncounted.offererCount]⟩
  | counting counting =>
    exact ⟨fun waits => absurd waits counting.answererPast.1, fun waits => absurd waits counting.offererPast.2,
      fun _ => counting.offer, fun _ _ => counting.answer,
      fun waits filled => count_of_starts (counting.toAnswerer waits) filled,
      fun waits filled => count_of_starts (counting.toOfferer (by rw [waits]; rfl)) filled, counting.counts.1,
      counting.counts.2⟩

theorem Stage.fits (stage : Stage past s) (delivered : Delivered past s) : OfferFits past ∧ AnswerFits past := by
  have nothing : ([] : Text).length < answererBufferSize ∧ ([] : Text).length < offererBufferSize := by decide
  cases stage with
  | start _ _ _ _ _ none noAnswer =>
    exact ⟨by rw [OfferFits, none]; exact nothing.1, by rw [AnswerFits, noAnswer]; exact nothing.2⟩
  | offered _ _ waits sent _ none =>
    refine ⟨short_of_array free_offerSent nothing.1 fun filled => ?_, by rw [AnswerFits, none]; exact nothing.2⟩
    exact sent ▸ delivered.offer waits (sent.symm ▸ filled)
  | parsed _ _ _ _ _ fits _ none => exact ⟨fits, by rw [AnswerFits, none]; exact nothing.2⟩
  | answered _ phase _ _ sent fits =>
    refine ⟨fits, short_of_array free_answerSent nothing.2 fun filled => ?_⟩
    exact sent ▸ delivered.answer phase (sent.symm ▸ filled)
  | counting counting => exact counting.fit

/-- At each stage the descriptions that have been sent come through exactly if they fit. -/
theorem Stage.kept_iff (stage : Stage past s) : Delivered past s ↔ OfferFits past ∧ AnswerFits past :=
  ⟨stage.fits, stage.delivered⟩

theorem fits_cons (fits : OfferFits past ∧ AnswerFits past) :
    OfferFits ((s, e) :: past) ∧ AnswerFits ((s, e) :: past) ↔ TextFits past s e := by
  refine and_congr ?_ ?_
  · cases sends : s.offers e with
    | none => simpa [OfferFits, offerSent_quiet sends] using fits.1
    | some text => simp [OfferFits, offerSent_sends sends]
  · cases sends : s.answers e with
    | none => simpa [AnswerFits, answerSent_quiet sends] using fits.2
    | some text => simp [AnswerFits, answerSent_sends sends]

theorem stage_start : Stage [] initial := .start ⟨rfl, rfl, rfl, rfl⟩ rfl rfl rfl rfl rfl rfl

theorem delivered_start : Delivered [] initial :=
  stage_start.delivered ⟨(by decide : 0 < answererBufferSize), (by decide : 0 < offererBufferSize)⟩

/-- On the runs where every `recv` takes all it can, the texts and the counts that are read are those that were
sent exactly if each text ends within the other program's buffer. -/
theorem texts_delivered_iff (run : Trail DirectExchange.step initial past s) (full : Throughout FullRecv past) :
    Always Delivered past s ↔ Throughout TextFits past := by
  refine run.always_iff_of_allowed Stage stage_start delivered_start
    (fun past s e t _ stage full stepped => stage.step full stepped) ?_ full
  intro past s e t stage full always stepped
  rw [(stage.step full stepped).kept_iff]
  exact fits_cons (stage.kept_iff.mp always.here)

end Steps

end DirectExchange

open DirectExchange

theorem short_texts_delivered : ∃ past s, execute step [] initial oneCandidateEach = some (past, s) ∧
    s.offererPhase = .ended ∧ Always Delivered past s := by
  have ran : (execute step [] initial oneCandidateEach).any (fun r =>
      decide (r.2.offererPhase = .ended ∧ Throughout FullRecv r.1 ∧ Throughout TextFits r.1)) = true := by
    decide +kernel
  obtain ⟨past, s, done, checked⟩ := execute_check _ ran
  obtain ⟨ended, full, fits⟩ := of_decide_eq_true checked
  exact ⟨past, s, done, ended, (texts_delivered_iff (execute_trail done) full).mpr fits⟩

/-- The answerer sends a text of 1030 characters. -/
def longAnswer : List ExchangeEvent :=
  [.offererGathered [], .offerer .go, .answerer (.recv 1 false), .answererGathered (List.replicate 1029 'v'),
    .answerer .go]

/-- The offerer's buffer gets no terminator, and the rest of the text is left to be read as the count. -/
theorem long_answer_cut : ∃ past s, execute step [] initial longAnswer = some (past, s) ∧ Throughout FullRecv past ∧
    arrayText offererBufferSize (s.toOfferer.take offererBufferSize) = none ∧
      (s.toOfferer.drop offererBufferSize).take 4 = "vvvv".toList ∧ ¬Always Delivered past s := by
  have ran : (execute step [] initial longAnswer).any (fun r =>
      decide (Throughout FullRecv r.1 ∧ r.2.offererPhase = .waitingSdp ∧ r.2.toOfferer ≠ [] ∧
        arrayText offererBufferSize (r.2.toOfferer.take offererBufferSize) = none ∧
          (r.2.toOfferer.drop offererBufferSize).take 4 = "vvvv".toList)) = true := by
    decide +kernel
  obtain ⟨past, s, done, checked⟩ := execute_check _ ran
  obtain ⟨full, waits, filled, cut, left⟩ := of_decide_eq_true checked
  refine ⟨past, s, done, full, cut, left, fun always => ?_⟩
  have whole := always.here.answer waits filled
  rw [cut] at whole
  simp at whole

end Signaling
