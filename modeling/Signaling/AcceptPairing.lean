import Signaling.CallbackQueues

namespace Signaling
open Machine CText

/-- The thread waits on the descriptor for the reply to its INVITE with the number. -/
def Server.waits (s : Server) (i : Nat) (fd : Int) (number : Nat) : Prop :=
  ∃ h, s.threads[i]? = some h ∧ h.phase = .waiting fd number

/-- The thread is about to forward what it read as the reply to its INVITE with the number. -/
def Server.forwards (s : Server) (i : Nat) (incoming : Tagged Text) (number : Nat) : Prop :=
  ∃ h, s.threads[i]? = some h ∧ h.phase = .forwarding incoming number

/-- The last step, if it forwarded a reply, forwarded the one to the INVITE of its own CALL. -/
def AcceptPaired : History → Server → Prop
  | (r, .thread i .forward) :: _, _ =>
    ∀ incoming number, r.forwards i incoming number → incoming.invite = some number
  | _, _ => True

def Phase.awaits (phase : Phase) (fd : Int) : Bool :=
  match phase with
  | .waiting receiverFd _ => receiverFd = fd
  | _ => false

/-- The descriptor to which an INVITE is about to be sent. -/
def Phase.target : Phase → Option Int
  | .inviting _ _ _ receiverFd => some receiverFd
  | _ => none

/-- Nobody waits for a reply on the descriptor. -/
def Server.Unawaited (s : Server) (fd : Int) : Prop := ∀ h ∈ s.threads, h.phase.awaits fd = false

/-- An INVITE may go to the descriptor: it is not a connection that `accept` returned, and nobody
waits on it if it is a callback connection. -/
def Server.Free (s : Server) (fd : Int) : Prop :=
  match s.endpoint fd with
  | some (.callback _ _) => s.Unawaited fd
  | some (.client _) | some .unserved => False
  | _ => True

/-- An INVITE goes to a free descriptor, and no descriptor number is given out while somebody waits
on it. -/
def OneAtATime (_ : History) (s : Server) : Event → Prop
  | .thread i .invite => ∀ h ∈ s.threads[i]?, ∀ fd ∈ h.phase.target, s.Free fd
  | .thread _ (.socket true) | .accept true => s.Unawaited (Slots.lowestFree s.descriptors)
  | _ => True

instance (s : Server) (fd : Int) : Decidable (s.Unawaited fd) :=
  inferInstanceAs (Decidable (∀ h ∈ s.threads, h.phase.awaits fd = false))

instance (s : Server) (fd : Int) : Decidable (s.Free fd) :=
  match there : s.endpoint fd with
  | some (.callback _ _) => decidable_of_iff (s.Unawaited fd) (by simp [Server.Free, there])
  | some (.client _) | some .unserved => isFalse (by simp [Server.Free, there])
  | none | some .standard | some .listening => isTrue (by simp [Server.Free, there])

instance (past : History) (s : Server) (e : Event) : Decidable (OneAtATime past s e) := by
  unfold OneAtATime
  cases_type* Event Action Bool <;> infer_instance

def Event.pairs : Event → Bool
  | .thread _ .invite | .thread _ (.answer _) => true
  | _ => false

/-- What makes replies and INVITEs match: on a callback connection at most the INVITE of the one
handler that waits there is outstanding. -/
structure Paired (s : Server) : Prop where
  awaited : ∀ n i k, Slots.lookup s.descriptors n = some (.callback i k) →
    s.outstanding (.callback i k) = [] ∨
      ∃ j number, s.waits j n number ∧ s.outstanding (.callback i k) = [some number]
  alone : ∀ n i k, Slots.lookup s.descriptors n = some (.callback i k) →
    ∀ j j' number number', s.waits j n number → s.waits j' n number' → j = j'
  plain : ∀ n x, Slots.lookup s.descriptors n = some x → x.accepted = true →
    ∀ j number, ¬s.waits j n number
  forwarded : ∀ j incoming number, s.forwards j incoming number →
    incoming.invite = some number ∧ (received incoming.content).bind acceptTest = some true

section Moves
variable {i : Nat} {h h' : Handler} {w w' : Shared} {a : Action} {e : Endpoint}

theorem Handler.Moved.waiting_iff (moved : h.Moved i w a h' w')
    (quiet : (Event.thread i a).pairs = false) (fd : Int) (number : Nat) :
    h'.phase = .waiting fd number ↔ h.phase = .waiting fd number := by
  cases moved with
  | invite | accepted | declined => simp [Event.pairs] at quiet
  | _ => simp_all [Handler.goto]

theorem Handler.Moved.forwarding (moved : h.Moved i w a h' w')
    (quiet : (Event.thread i a).pairs = false) {incoming : Tagged Text} {number : Nat}
    (forwarding : h'.phase = .forwarding incoming number) :
    h.phase = .forwarding incoming number := by
  cases moved with
  | invite | accepted | declined => simp [Event.pairs] at quiet
  | _ => simp_all [Handler.goto]

/-- Only INVITEs and the replies to them change what is outstanding. -/
theorem Handler.Moved.outstanding_eq (moved : h.Moved i w a h' w')
    (quiet : (Event.thread i a).pairs = false) (untouched : w.Untouched)
    (replies : ∀ message, h.phase = .replying message → message.asksReply = false)
    (forwards : ∀ incoming number, h.phase = .forwarding incoming number →
      (received incoming.content).bind acceptTest = some true) :
    w'.outstanding e = w.outstanding e := by
  cases moved with
  | invite | accepted | declined => simp [Event.pairs] at quiet
  | connect _ possible => exact Shared.outstanding_connected untouched possible
  | greet | exitReply | exitNotice =>
    exact Shared.outstanding_send_of_quiet (fixed_asks_nothing _ (by simp))
  | reply atPhase => exact Shared.outstanding_send_of_quiet (replies _ atPhase)
  | forward atPhase => exact Shared.outstanding_send_of_quiet (accept_asks_nothing (forwards _ _ atPhase))
  | _ => rfl

end Moves

section Steps
variable {past : History} {s t : Server} {e : Event} {i j number : Nat} {fd : Int} {h h' : Handler}

theorem Server.Unawaited.not_waits (nobody : s.Unawaited fd) : ¬s.waits j fd number := by
  rintro ⟨g, atThread, waiting⟩
  have := nobody g (List.mem_of_getElem? atThread)
  simp [waiting, Phase.awaits] at this

theorem Server.waits_thread (atThread : s.threads[i]? = some h) :
    s.waits i fd number ↔ h.phase = .waiting fd number := by
  simp [waits, atThread]

/-- Who waits after a thread has moved. -/
theorem Server.waits_set (atThread : s.threads[i]? = some h)
    (threads : t.threads = s.threads.set i h') : t.waits j fd number ↔
      if j = i then h'.phase = .waiting fd number else s.waits j fd number := by
  simp only [waits, threads, threads_set atThread]
  split_ifs <;> simp

theorem Server.forwards_set (atThread : s.threads[i]? = some h)
    (threads : t.threads = s.threads.set i h') {incoming : Tagged Text} :
    t.forwards j incoming number ↔
      if j = i then h'.phase = .forwarding incoming number else s.forwards j incoming number := by
  simp only [forwards, threads, threads_set atThread]
  split_ifs <;> simp

theorem Server.waits_step (stepped : s.step e = some t) (quiet : e.pairs = false) :
    t.waits j fd number ↔ s.waits j fd number := by
  cases step_moved stepped with
  | accept =>
    constructor
    · rintro ⟨g, after, waiting⟩
      rcases threads_push after with before | ⟨_, rfl⟩
      · exact ⟨g, before, waiting⟩
      · simp at waiting
    · rintro ⟨g, before, waiting⟩
      exact ⟨g, thread_kept stepped before (by simp), waiting⟩
  | acceptLate | acceptFails | interrupt | listener => rfl
  | thread atThread moved =>
    rw [waits_set atThread rfl]
    split_ifs with same
    · rw [moved.waiting_iff quiet, same, waits_thread atThread]
    · rfl

theorem Server.forwards_step {incoming : Tagged Text} (stepped : s.step e = some t)
    (quiet : e.pairs = false) (after : t.forwards j incoming number) :
    s.forwards j incoming number := by
  obtain ⟨g, atThread, forwarding⟩ := after
  rcases thread_origin stepped atThread with ⟨before, _⟩ | ⟨a, g', rfl, before, moved⟩ | ⟨_, _, rfl⟩
  · exact ⟨g, before, forwarding⟩
  · exact ⟨g', before, moved.forwarding quiet forwarding⟩
  · simp at forwarding

theorem Server.outstanding_step {x : Endpoint} (wired : Wired s) (paired : Paired s)
    (stepped : s.step e = some t) (quiet : e.pairs = false) :
    t.outstanding x <+: s.outstanding x := by
  cases step_moved stepped with
  | accept | acceptLate | acceptFails | interrupt => exact List.prefix_rfl
  | listener moved => exact Shared.outstanding_listen moved
  | @thread i a h h' w' atThread moved =>
    have same : w'.outstanding x = s.outstanding x :=
      moved.outstanding_eq quiet wired.untouched (fun message => wired.replies i h message atThread)
        (fun incoming number forwarding => (paired.forwarded i incoming number ⟨h, atThread, forwarding⟩).2)
    exact same ▸ List.prefix_rfl

theorem paired_initial : Paired Server.initial where
  awaited n i k _ := Or.inl rfl
  alone _ _ _ _ j j' _ _ waits := by
    obtain ⟨h, atThread, _⟩ := waits
    simp [Server.initial] at atThread
  plain _ _ _ _ j _ waits := by
    obtain ⟨h, atThread, _⟩ := waits
    simp [Server.initial] at atThread
  forwarded j _ _ forwards := by
    obtain ⟨h, atThread, _⟩ := forwards
    simp [Server.initial] at atThread

/-- An entry that a step adds to the table is at a number on which nobody waits, and nothing is
outstanding on it. -/
theorem entry_origin (wired : Wired s) (allowed : OneAtATime past s e) (stepped : s.step e = some t)
    {n : Nat} {x : Endpoint} (found : Slots.lookup t.descriptors n = some x) :
    Slots.lookup s.descriptors n = some x ∨
      s.Unawaited n ∧ (x.accepted = true ∨ s.outstanding x = []) := by
  cases Server.step_table stepped with
  | kept shrunk => exact Or.inl (shrunk n x found)
  | accepted accepted table =>
    rw [table, Slots.lookup_occupy] at found
    split_ifs at found with free
    · cases Option.some.inj found
      exact Or.inr ⟨free ▸ allowed, Or.inl accepted⟩
    · exact Or.inl found
  | @opened i h h' before after counted table =>
    rw [table, Slots.lookup_occupy] at found
    split_ifs at found with free
    · cases Option.some.inj found
      obtain ⟨outbound, inbound⟩ := wired.untouched _ _ (wired.absent before).1
      exact Or.inr ⟨free ▸ allowed, Or.inr (by simp [Shared.outstanding, outbound, inbound])⟩
    · exact Or.inl found

/-- A step that neither sends an INVITE nor reads a reply. -/
theorem Paired.quiet (paired : Paired s) (wired : Wired s) (allowed : OneAtATime past s e)
    (stepped : s.step e = some t) (quiet : e.pairs = false) : Paired t where
  awaited n i k found := by
    have shrunk := Server.outstanding_step (x := .callback i k) wired paired stepped quiet
    have before : s.outstanding (.callback i k) = [] ∨
        ∃ j number, s.waits j n number ∧ s.outstanding (.callback i k) = [some number] := by
      rcases entry_origin wired allowed stepped found with old | ⟨_, accepted | nothing⟩
      · exact paired.awaited n i k old
      · simp [Endpoint.accepted] at accepted
      · exact Or.inl nothing
    rcases before with nothing | ⟨j, number, waits, one⟩
    · rw [nothing, List.prefix_nil] at shrunk
      exact Or.inl shrunk
    · rw [one, List.prefix_cons_iff] at shrunk
      rcases shrunk with nothing | ⟨rest, same, none⟩
      · exact Or.inl nothing
      · refine Or.inr ⟨j, number, (Server.waits_step stepped quiet).mpr waits, ?_⟩
        rw [same, List.prefix_nil.mp none]
  alone n i k found j j' number number' waits waits' := by
    rw [Server.waits_step stepped quiet] at waits waits'
    rcases entry_origin wired allowed stepped found with old | ⟨nobody, _⟩
    · exact paired.alone n i k old j j' number number' waits waits'
    · exact absurd waits nobody.not_waits
  plain n x found accepted j number waits := by
    rw [Server.waits_step stepped quiet] at waits
    rcases entry_origin wired allowed stepped found with old | ⟨nobody, _⟩
    · exact paired.plain n x old accepted j number waits
    · exact nobody.not_waits waits
  forwarded j incoming number forwards :=
    paired.forwarded j incoming number (Server.forwards_step stepped quiet forwards)

/-- An INVITE that goes to a free descriptor is the only one outstanding there. -/
theorem Paired.invite {message : Tagged Outgoing} (paired : Paired s) (wired : Wired s)
    (free : s.Free fd) (atThread : s.threads[i]? = some h) (notWaiting : ∀ fd c, h.phase ≠ .waiting fd c)
    (threads : t.threads = s.threads.set i (h.goto (.waiting fd number)))
    (table : t.descriptors = s.descriptors) (numbered : message.invite = some number)
    (sent : ∀ x, t.outstanding x = (s.send fd message).outstanding x) : Paired t := by
  have kept {j c : Nat} {fd' : Int} (waits : s.waits j fd' c) : t.waits j fd' c := by
    rw [Server.waits_set atThread threads]
    split_ifs with same
    · subst same
      exact absurd ((Server.waits_thread atThread).mp waits) (notWaiting fd' c)
    · exact waits
  have nobody {n i' k : Nat} (found : Slots.lookup s.descriptors n = some (.callback i' k))
      (same : fd = n) : s.Unawaited n := by
    subst same
    have there : s.endpoint n = some (.callback i' k) := found
    simpa [Server.Free, there] using free
  refine ⟨?_, ?_, ?_, ?_⟩
  · intro n i' k found
    rw [table] at found
    rw [sent]
    rcases Shared.outstanding_send message with same | ⟨there, _, added⟩
    · rw [same]
      rcases paired.awaited n i' k found with nothing | ⟨j, c, waits, one⟩
      · exact Or.inl nothing
      · exact Or.inr ⟨j, c, kept waits, one⟩
    · obtain ⟨m, same, found'⟩ := Shared.endpoint_eq_some.mp there
      cases wired.injective n m i' k found found'
      have before : s.outstanding (.callback i' k) = [] := by
        rcases paired.awaited n i' k found with nothing | ⟨j, c, waits, _⟩
        · exact nothing
        · exact absurd waits (nobody found same).not_waits
      refine Or.inr ⟨i, number, ?_, ?_⟩
      · rw [Server.waits_set atThread threads, if_pos rfl, same]
        rfl
      · rw [added, before, numbered, List.nil_append]
  · intro n i' k found j j' c c' waits waits'
    rw [table] at found
    rw [Server.waits_set atThread threads] at waits waits'
    split_ifs at waits waits' with here here'
    · exact here.trans here'.symm
    · exact absurd waits' (nobody found (by cases waits; rfl)).not_waits
    · exact absurd waits (nobody found (by cases waits'; rfl)).not_waits
    · exact paired.alone n i' k found j j' c c' waits waits'
  · intro n x found accepted j c waits
    rw [table] at found
    rw [Server.waits_set atThread threads] at waits
    split_ifs at waits with here
    · cases waits
      have there : s.endpoint n = some x := found
      cases x with
      | client | unserved => simp [Server.Free, there] at free
      | standard | listening | callback => simp [Endpoint.accepted] at accepted
    · exact paired.plain n x found accepted j c waits
  · intro j incoming c forwards
    rw [Server.forwards_set atThread threads] at forwards
    split_ifs at forwards with here
    · simp [Handler.goto] at forwards
    · exact paired.forwarded j incoming c forwards

/-- The one handler that waits on a connection reads the one reply that is outstanding there. -/
theorem Paired.answer {foreign : Text} {incoming : Tagged Text} {w' : Shared} (paired : Paired s)
    (atThread : s.threads[i]? = some h) (waiting : h.phase = .waiting fd number)
    (read : s.readReply fd foreign = some (incoming, w'))
    (threads : t.threads = s.threads.set i h') (shared : t.toShared = w')
    (onward : ∀ m c, h'.phase = .forwarding m c → m = incoming ∧ c = number ∧
      (received m.content).bind acceptTest = some true)
    (done : ∀ fd c, h'.phase ≠ .waiting fd c) : Paired t := by
  have before {j c : Nat} {fd' : Int} (waits : t.waits j fd' c) : j ≠ i ∧ s.waits j fd' c := by
    rw [Server.waits_set atThread threads] at waits
    split_ifs at waits with same
    · exact absurd waits (done fd' c)
    · exact ⟨same, waits⟩
  have mine : s.waits i fd number := (Server.waits_thread atThread).mpr waiting
  have table : t.descriptors = s.descriptors := by rw [shared, Shared.readReply_descriptors read]
  have single {n i' k : Nat} (found : Slots.lookup s.descriptors n = some (.callback i' k))
      (same : fd = n) : s.outstanding (.callback i' k) = [] ∨
        s.outstanding (.callback i' k) = [some number] := by
    subst same
    rcases paired.awaited n i' k found with nothing | ⟨j, c, waits, one⟩
    · exact Or.inl nothing
    · cases paired.alone n i' k found j i c number waits mine
      cases waiting.symm.trans ((Server.waits_thread atThread).mp waits)
      exact Or.inr one
  have readReply_first (x : Endpoint) := Shared.outstanding_readReply (e := x) read
  refine ⟨?_, ?_, ?_, ?_⟩
  · intro n i' k found
    rw [table] at found
    rw [shared]
    rcases readReply_first (.callback i' k) with ⟨there, first⟩ | ⟨same, empty⟩
    · obtain ⟨m, equal, found'⟩ := Shared.endpoint_eq_some.mp there
      rcases single found' equal with nothing | one
      · simp [first] at nothing
      · rw [first] at one
        exact Or.inl (List.cons.inj one).2
    · rw [same]
      by_cases here : fd = n
      · subst here
        exact Or.inl (empty i' k found rfl)
      rcases paired.awaited n i' k found with nothing | ⟨j, c, waits, one⟩
      · exact Or.inl nothing
      · refine Or.inr ⟨j, c, ?_, one⟩
        rw [Server.waits_set atThread threads, if_neg ?_]
        · exact waits
        · rintro rfl
          cases waiting.symm.trans ((Server.waits_thread atThread).mp waits)
          exact here rfl
  · intro n i' k found j j' c c' waits waits'
    exact paired.alone n i' k (table ▸ found) j j' c c' (before waits).2 (before waits').2
  · intro n x found accepted j c waits
    exact paired.plain n x (table ▸ found) accepted j c (before waits).2
  · intro j m c forwards
    rw [Server.forwards_set atThread threads] at forwards
    split_ifs at forwards with here
    · obtain ⟨rfl, rfl, accepted⟩ := onward m c forwards
      refine ⟨?_, accepted⟩
      rcases Shared.readReply_source read with ⟨i', k, there, some⟩ | ⟨x, there, foreign⟩ | blank
      · obtain ⟨n, equal, found⟩ := Shared.endpoint_eq_some.mp there
        rcases readReply_first (.callback i' k) with ⟨_, first⟩ | ⟨_, empty⟩
        · rcases single found equal with nothing | one
          · exact absurd nothing some
          · rw [first] at one
            exact (List.cons.inj one).1
        · exact absurd (empty i' k there rfl) some
      · obtain ⟨n, rfl, found⟩ := Shared.endpoint_eq_some.mp there
        exact absurd mine (paired.plain n x found foreign i _)
      · have refused : (received []).bind acceptTest = Option.some false := by decide
        simp [blank, refused] at accepted
    · exact paired.forwarded j m c forwards

theorem Paired.step (paired : Paired s) (wired : Wired s) (allowed : OneAtATime past s e)
    (stepped : s.step e = some t) : Paired t := by
  cases quiet : e.pairs with
  | false => exact paired.quiet wired allowed stepped quiet
  | true =>
    cases e with
    | thread i a =>
      cases Server.step_moved stepped with
      | @thread _ _ h h' w' atThread moved =>
        cases moved with
        | invite atPhase =>
          exact paired.invite wired (allowed h atThread _ (by rw [atPhase]; rfl)) atThread
            (by simp [atPhase]) rfl (by simp) rfl (fun _ => rfl)
        | accepted atPhase read tested =>
          refine paired.answer atThread atPhase read rfl rfl ?_ (by simp [Handler.goto])
          rintro m c same
          cases same
          exact ⟨rfl, rfl, tested⟩
        | declined atPhase read tested =>
          exact paired.answer atThread atPhase read rfl rfl (by simp [Handler.goto]) (by simp [Handler.goto])
        | _ => simp [Event.pairs] at quiet
    | _ => simp [Event.pairs] at quiet

theorem paired_of_run (run : ServerRun past s) (allowed : Throughout OneAtATime past) : Paired s :=
  run.invariant_of_allowed (fun _ s => Paired s) paired_initial
    (fun _ _ _ _ previous paired permitted stepped =>
      paired.step (wired_of_run previous) permitted stepped) allowed

/-- In a run whose INVITEs go to free descriptors, and in which no number is given out while somebody
waits on it, every forwarded ACCEPT is the reply to the INVITE of the same CALL. -/
theorem accept_paired (run : ServerRun past s) (allowed : Throughout OneAtATime past) :
    Always AcceptPaired past s := by
  refine run.always_of_allowed (fun past s run allowed => ?_) allowed
  cases run with
  | start => trivial
  | @next past s e t previous stepped =>
    cases e with
    | thread i a =>
      cases a with
      | forward =>
        intro incoming number forwards
        exact ((paired_of_run previous allowed.2).forwarded i incoming number forwards).1
      | stop | recv | socket | connect | greet | reply | hasUser | getUser | invite | answer
      | exitReply | exitNotice | close | finish => trivial
    | accept | interrupt | listener => trivial

end Steps

/-- Bob in session 0 and two callers, all logged in and connected. -/
def threeClients : List Event :=
  [.accept true, .accept true, .accept true] ++
    session 0 (connects ++ sends "SIGNUP bob pw" ++ sends "LOGIN bob pw") ++
    session 1 (connects ++ sends "SIGNUP amy pw" ++ sends "LOGIN amy pw") ++
    session 2 (connects ++ sends "SIGNUP eve pw" ++ sends "LOGIN eve pw")

/-- Bob's listener takes the greeting and answers one INVITE. -/
def bobAnswers : List Event :=
  [.listener (.callback 0 0) (.dispatch none), .listener (.callback 0 0) (.dispatch (some "sdp".toList))]

/-- Amy calls bob, and eve calls him when amy has her reply. -/
def inTurnRun : List Event :=
  threeClients ++ session 1 (rings "bob") ++ bobAnswers ++ session 1 [.answer [], .forward] ++
    session 2 (rings "bob")

theorem in_turn_paired : ∃ past s, execute Server.step [] Server.initial inTurnRun = some (past, s) ∧
    s.invites = 2 ∧ Always AcceptPaired past s := by
  have ran : (execute Server.step [] Server.initial inTurnRun).any (fun r =>
      decide (r.2.invites = 2 ∧ Throughout OneAtATime r.1)) = true := by
    decide +kernel
  obtain ⟨past, s, done, checked⟩ := execute_check _ ran
  obtain ⟨sent, allowed⟩ := of_decide_eq_true checked
  exact ⟨past, s, done, sent, accept_paired (execute_trail done) allowed⟩

/-- Amy and eve both call bob, and the handler of eve reads the reply that bob gives to amy. -/
def crossedRun : List Event :=
  threeClients ++ session 1 (rings "bob") ++ session 2 (rings "bob") ++ bobAnswers ++
    session 2 [.answer [], .forward]

theorem crossed_not_paired : ∃ past s,
    execute Server.step [] Server.initial crossedRun = some (past, s) ∧ ¬Always AcceptPaired past s := by
  have ran : (execute Server.step [] Server.initial crossedRun).any (fun r =>
      endsWith (.thread 2 .forward) (fun before _ =>
        decide ((before.threads[2]?).map Handler.phase =
          some (.forwarding ⟨clientFrame "ACCEPT sdp", some 0⟩ 1))) r.1) = true := by
    decide +kernel
  obtain ⟨past, s, done, checked⟩ := execute_check _ ran
  refine ⟨past, s, done, fun always => ?_⟩
  obtain ⟨before, earlier, rfl, facts⟩ := endsWith_iff.mp checked
  obtain ⟨h, atThread, forwarding⟩ := Option.map_eq_some_iff.mp (of_decide_eq_true facts)
  have own := always.here _ _ ⟨h, atThread, forwarding⟩
  simp at own

end Signaling
