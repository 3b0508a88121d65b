import Signaling.Machine.Ledger
import Signaling.ReplyMatching
import Signaling.StoreCalls

namespace Signaling
open Machine CText

/-- The steps that a handler has left when it takes up no more commands. -/
def Phase.left : Phase → Nat
  | .returned => 0
  | .closed => 1
  | .closing => 2
  | .loop | .notifying => 3
  | .replying _ | .greeting | .forwarding .. | .exiting => 4
  | .connecting | .waiting .. => 5
  | .opening | .inviting .. => 6
  | .looking .. => 7
  | .calling .. => 8

/-- A step of the accept loop or of a handler. -/
def Event.own : Event → Bool
  | .accept _ | .thread .. => true
  | .interrupt | .listener .. => false

/-- The steps that the server has left after SIGINT. -/
def Server.left (s : Server) : Nat := (s.threads.map (·.phase.left)).sum + s.accepting.toNat

/-- What has happened to a server since it was stopped: it took up no command, left the store and the
sessions as they were, and came closer to its end with every step. -/
structure Winding (s : Server) (past : History) (t : Server) : Prop where
  stopped : t.running = false
  store : t.userStore = s.userStore
  sessions : t.threads.length = s.threads.length
  silent : ∀ taken ∈ past, taken.1.dispatched taken.2 = none
  bounded : count (fun _ e => e.own) past + t.left ≤ s.left

/-- What comes on the descriptor comes from a client: it is a connection that `accept` returned. -/
def Shared.Foreign (w : Shared) (fd : Int) : Prop :=
  w.endpoint fd = some .unserved ∨ ∃ i, w.endpoint fd = some (.client i)

/-- What a handler does not do alone: it gets bytes of a client, or sees in its loop that the server was stopped. -/
def Shared.Outside (w : Shared) (h : Handler) : Action → Prop
  | .stop | .recv _ => True
  | .answer _ => ∃ fd number, h.phase = .waiting fd number ∧ w.Foreign fd
  | _ => False

/-- The handler is in a `recv`: that of its loop, or that of the CALL branch, on a connection that `accept` returned
or on a callback connection from which nothing has come yet. -/
def Shared.Receiving (w : Shared) (h : Handler) : Prop :=
  h.phase = .loop ∨ ∃ fd number, h.phase = .waiting fd number ∧ (w.Foreign fd ∨
    ∃ i k, w.endpoint fd = some (.callback i k) ∧ w.peer (.callback i k) = .listening ∧ w.inbound (.callback i k) = [])

section Steps
variable {s t : Server} {past : History} {e : Event} {w w' : Shared} {i : Nat} {h h' : Handler} {a : Action}

theorem Handler.hears_stopped (stopped : w.running = false) : h.hears w a = none := by
  cases a with
  | recv bytes => simp [hears, stopped]
  | stop | socket | connect | greet | reply | hasUser | getUser | invite | answer | forward | exitReply
  | exitNotice | close | finish => rfl

/-- A handler that takes up no command comes closer to its end with every step. -/
theorem Handler.Moved.left_lt (moved : h.Moved i w a h' w') (deaf : h.hears w a = none) :
    h'.phase.left < h.phase.left := by
  cases moved with
  | client _ heard | signup _ heard | login _ heard | call _ heard | refuse _ heard | logout _ heard
  | exit _ heard | ignored _ heard =>
    rw [deaf] at heard
    simp at heard
  | stop atPhase | hangup atPhase | socket atPhase | socketFails atPhase | connect atPhase
  | connectFails atPhase | greet atPhase | reply atPhase | hasUser atPhase | hasNoUser atPhase
  | getUser atPhase | noUser atPhase | invite atPhase | accepted atPhase | declined atPhase | forward atPhase
  | exitReply atPhase | exitReplyFails atPhase | exitNotice atPhase | close atPhase | finish atPhase
  | closeAgain atPhase => rw [atPhase]; simp [Handler.goto, Phase.left]

/-- A step of the accept loop or of a handler brings a stopped server closer to its end. -/
theorem Server.left_le (stopped : s.running = false) (stepped : s.step e = some t) :
    e.own.toNat + t.left ≤ s.left := by
  cases step_moved stepped with
  | accept running => simp [stopped] at running
  | acceptLate _ accepting => simp [Event.own, left, accepting]; omega
  | acceptFails => simp [Event.own, left, accepting_of_accept stepped]; omega
  | interrupt | listener => simp [Event.own, left]
  | @thread i a h h' w' atThread moved =>
    have less := moved.left_lt (Handler.hears_stopped stopped)
    have total := sum_set (fun h : Handler => h.phase.left) h' atThread
    simp only [Event.own, left, Bool.toNat_true]
    omega

theorem Server.step_stopped (stopped : s.running = false) (stepped : s.step e = some t) :
    t.running = false ∧ s.dispatched e = none ∧ t.threads.length = s.threads.length := by
  have silent : s.dispatched e = none := by
    refine Option.eq_none_iff_forall_ne_some.mpr fun ⟨i, h, command⟩ taken => ?_
    obtain ⟨a, _, _, heard⟩ := dispatched_iff.mp taken
    simp [Handler.hears_stopped stopped] at heard
  cases step_moved stepped with
  | accept running => simp [stopped] at running
  | acceptLate | acceptFails => exact ⟨stopped, silent, rfl⟩
  | interrupt => exact ⟨rfl, silent, rfl⟩
  | listener moved =>
    refine ⟨?_, silent, rfl⟩
    rw [Shared.listen_eq moved]
    exact stopped
  | thread _ moved => exact ⟨moved.running_eq.trans stopped, silent, List.length_set⟩

theorem Winding.step {r : Server} (winding : Winding r past s) (stepped : s.step e = some t) :
    Winding r ((s, e) :: past) t := by
  obtain ⟨stopped, silent, sessions⟩ := Server.step_stopped winding.stopped stepped
  have quiet : s.storeCall e = none := by rw [Server.storeCall, silent]; rfl
  have fewer := Server.left_le winding.stopped stepped
  refine ⟨stopped, ?_, sessions.trans winding.sessions, ?_, ?_⟩
  · rw [Server.step_userStore stepped, quiet]
    exact winding.store
  · exact List.forall_mem_cons.mpr ⟨silent, winding.silent⟩
  · have bounded := winding.bounded
    rw [count_cons]
    omega

theorem Phase.left_le (phase : Phase) : phase.left ≤ 8 := by
  cases phase <;> simp [left]

theorem Server.left_le_sessions (s : Server) : s.left ≤ 8 * s.threads.length + 1 := by
  have each := sum_le (fun h : Handler => h.phase.left) s.threads fun h _ => h.phase.left_le
  have one := Bool.toNat_le s.accepting
  rw [left]
  omega

/-- From SIGINT on the server takes up no command and never changes the store, and its accept loop and
handlers together take at most eight steps for each session and one more. -/
theorem winds_down (run : Trail Server.step s past t) (stopped : s.running = false) :
    Winding s past t ∧ count (fun _ e => e.own) past ≤ 8 * s.threads.length + 1 := by
  have winding : Winding s past t := by
    refine run.invariant (fun past t => Winding s past t) ?_ ?_
    · exact ⟨stopped, rfl, rfl, by simp, by simp⟩
    · intro past s e t _ winding stepped
      exact winding.step stepped
  have bounded := winding.bounded
  have sessions := s.left_le_sessions
  exact ⟨winding, by omega⟩

/-- What listeners have written to the server are answers to INVITEs. -/
def Server.Answers (s : Server) : Prop := ∀ x, ∀ reply ∈ s.inbound x, ∃ sdp, acceptFrame sdp = some reply.content

theorem acceptTest_answer {sdp frame : Text} (framed : acceptFrame sdp = some frame) :
    (received frame).bind acceptTest = some true := by
  have starts : ofBuffer ("ACCEPT ".toList ++ sdp) = "ACCEPT ".toList ++ ofBuffer sdp := by
    rw [ofBuffer_append, if_neg (by decide)]
    rfl
  rw [acceptFrame] at framed
  split_ifs at framed with short
  cases Option.some.inj framed
  have length : (ofBuffer ("ACCEPT ".toList ++ sdp)).length < socketBufferSize := by
    have whole : ("ACCEPT ".toList ++ sdp).length = 7 + sdp.length := List.length_append
    have cut := (ofBuffer_starts ("ACCEPT ".toList ++ sdp)).length_le
    omega
  have le : ("ACCEPT ".toList ++ sdp).length ≤ socketBufferSize := by
    rw [List.length_append]
    exact short.le
  rw [received, ofBuffer_padded, length_padded le, if_pos ⟨le_rfl, length⟩, starts, Option.bind_some]
  exact acceptTest_text

theorem Handler.Moved.inbound_le (moved : h.Moved i w a h' w') {x : Endpoint} {reply : Tagged Text}
    (member : reply ∈ w'.inbound x) : reply ∈ w.inbound x := by
  cases moved with
  | greet | reply | invite | forward | exitReply | exitNotice =>
    rw [Shared.send_eq] at member
    exact member
  | connect => rwa [Shared.connected_inbound] at member
  | accepted _ read | declined _ read =>
    cases Shared.readReply_read read with
    | @reply j k _ _ _ queue =>
      dsimp only at member
      by_cases same : x = .callback j k
      · subst same
        rw [Function.update_self] at member
        exact queue ▸ List.mem_cons_of_mem _ member
      · rwa [Function.update_of_ne same] at member
    | gone | foreign | nothing => exact member
  | _ => exact member

theorem answers_of_run (run : ServerRun past s) : s.Answers := by
  refine run.invariant (fun _ s => s.Answers) (fun x reply member => by simp [Server.initial] at member) ?_
  intro past s e t _ answers stepped
  cases Server.step_moved stepped with
  | accept | acceptLate | acceptFails | interrupt => exact answers
  | thread _ moved => exact fun x reply member => answers x reply (moved.inbound_le member)
  | @listener e _ _ moved =>
    cases Shared.listen_moved moved with
    | quit | leave | pass => exact answers
    | @answer sdp message _ _ _ answer _ _ _ _ _ framed =>
      intro x reply member
      dsimp only at member
      by_cases same : x = e
      · subst same
        rw [Function.update_self, List.mem_append, List.mem_singleton] at member
        rcases member with before | rfl
        · exact answers x reply before
        · exact ⟨sdp, framed⟩
      · exact answers x reply (by simpa [same] using member)

theorem Shared.readReply_none {fd : Int} {foreign : Text} : w.readReply fd foreign = none ↔
    ∃ i k, w.endpoint fd = some (.callback i k) ∧ w.peer (.callback i k) = .listening ∧
      w.inbound (.callback i k) = [] := by
  rw [readReply]
  constructor
  · intro blocked
    split at blocked
    · rename_i i k there
      split at blocked
      · simp at blocked
      · rename_i queue
        split_ifs at blocked with listening
        exact ⟨i, k, there, listening, queue⟩
    · simp at blocked
    · simp at blocked
    · simp at blocked
  · rintro ⟨i, k, there, listening, queue⟩
    simp [there, listening, queue]

/-- Whatever `recv` gets in the CALL branch can be tested. -/
theorem Server.Answers.tested {fd : Int} {incoming : Tagged Text} (answers : s.Answers)
    (read : s.readReply fd [] = some (incoming, w')) : ∃ accepted, (received incoming.content).bind acceptTest =
      some accepted := by
  cases Shared.readReply_read read with
  | @reply j k _ _ _ queue =>
    obtain ⟨sdp, framed⟩ := answers (.callback j k) incoming (queue ▸ List.mem_cons_self)
    exact ⟨true, acceptTest_answer framed⟩
  | gone | foreign | nothing => exact ⟨false, rfl⟩

theorem Server.step_none_iff (atThread : s.threads[i]? = some h) :
    s.step (.thread i a) = none ↔ h.step i s.toShared a = none := by
  rw [step, atThread, Option.bind_some, Option.map_eq_none_iff]

/-- A handler that has not returned and is in no `recv` can go on alone. -/
theorem Server.able_of_awake (run : ServerRun past s) (open_ : h.phase ≠ .returned) (awake : ¬ s.Receiving h) :
    ∃ a, ¬ s.Outside h a ∧ (h.step i s.toShared a).isSome = true := by
  cases atPhase : h.phase with
  | returned => exact absurd atPhase open_
  | loop => exact absurd (Or.inl atPhase) awake
  | opening => exact ⟨.socket false, id, by simp [Handler.step, atPhase]⟩
  | connecting => exact ⟨.connect false, id, by simp [Handler.step, atPhase, Handler.connectToClient]⟩
  | greeting => exact ⟨.greet, id, by simp [Handler.step, atPhase]⟩
  | replying => exact ⟨.reply, id, by simp [Handler.step, atPhase]⟩
  | calling => exact ⟨.hasUser, id, by simp [Handler.step, atPhase]⟩
  | looking receiver =>
    refine ⟨.getUser 0, id, ?_⟩
    cases found : s.userStore.getUser receiver <;> simp [Handler.step, atPhase, found]
  | inviting => exact ⟨.invite, id, by simp [Handler.step, atPhase]⟩
  | waiting fd number =>
    have own : ¬ s.Foreign fd := fun foreign => awake (Or.inr ⟨fd, number, atPhase, Or.inl foreign⟩)
    cases read : s.readReply fd [] with
    | none => exact absurd (Or.inr ⟨fd, number, atPhase, Or.inr (Shared.readReply_none.mp read)⟩) awake
    | some got =>
      obtain ⟨accepted, tested⟩ := (answers_of_run run).tested read
      refine ⟨.answer [], ?_, ?_⟩
      · rintro ⟨fd', number', there, foreign⟩
        cases atPhase.symm.trans there
        exact own foreign
      · simp only [Handler.step, atPhase, read, Option.bind_some, tested, Option.map_some, Option.isSome_some]
  | forwarding => exact ⟨.forward, id, by simp [Handler.step, atPhase]⟩
  | exiting => exact ⟨.exitReply false, id, by simp [Handler.step, atPhase]⟩
  | notifying => exact ⟨.exitNotice, id, by simp [Handler.step, atPhase]⟩
  | closing => exact ⟨.close, id, by simp [Handler.step, atPhase]⟩
  | closed => exact ⟨.finish, id, by simp [Handler.step, atPhase]⟩

/-- In a `recv` a handler does nothing alone, and after its last step nothing at all. -/
theorem Handler.step_blocked (blocked : h.phase = .returned ∨ w.Receiving h) (alone : ¬ w.Outside h a) :
    h.step i w a = none := by
  rcases blocked with atPhase | looping | ⟨fd, number, atPhase, other⟩
  · cases a <;> simp [Handler.step, atPhase]
  · cases a with
    | stop | recv => exact absurd trivial alone
    | _ => simp [Handler.step, looping]
  · cases a with
    | answer foreign =>
      rcases other with client | silent
      · exact absurd ⟨fd, number, atPhase, client⟩ alone
      · simp [Handler.step, atPhase, (@Shared.readReply_none _ fd foreign).mpr silent]
    | _ => simp [Handler.step, atPhase]

/-- A handler that has not returned can take a step of its own unless it is in a `recv`, that of its loop or
that of the CALL branch on a connection of a client or of a listener that runs. -/
theorem blocked_iff (run : ServerRun past s) (atThread : s.threads[i]? = some h) :
    (∀ a, ¬ s.Outside h a → s.step (.thread i a) = none) ↔ h.phase = .returned ∨ s.Receiving h := by
  simp only [Server.step_none_iff atThread]
  constructor
  · intro stuck
    by_contra neither
    obtain ⟨open_, awake⟩ := not_or.mp neither
    obtain ⟨a, alone, able⟩ := Server.able_of_awake (i := i) run open_ awake
    rw [stuck a alone] at able
    cases able
  · exact fun blocked a alone => Handler.step_blocked blocked alone

end Steps

/-- A client connects, and SIGINT comes while the server waits for it. -/
def signalled : List Event := .accept true :: session 0 connects ++ [.interrupt]

/-- The client sends one more command. -/
def afterSignal : List Event :=
  session 0 [.recv (clientFrame "SIGNUP bob pw"), .close, .finish] ++ [.accept false]

theorem signalled_winds_down : ∃ before s past t,
    execute Server.step [] Server.initial signalled = some (before, s) ∧
      execute Server.step [] s afterSignal = some (past, t) ∧ Winding s past t ∧
        count (fun _ e => e.own) past ≤ 8 * s.threads.length + 1 := by
  have ran : (execute Server.step [] Server.initial signalled).any (fun r =>
      decide (r.2.running = false) && (execute Server.step [] r.2 afterSignal).isSome) = true := by
    decide +kernel
  obtain ⟨before, s, first, checked⟩ := execute_check _ ran
  obtain ⟨stopped, some⟩ := Bool.and_eq_true_iff.mp checked
  obtain ⟨⟨past, t⟩, second⟩ := Option.isSome_iff_exists.mp some
  exact ⟨before, s, past, t, first, second, winds_down (execute_trail second) (of_decide_eq_true stopped)⟩

/-- bob, logged in, calls himself. -/
def callsHimself : List Event :=
  .accept true :: session 0 (connects ++ sends "SIGNUP bob pw" ++ sends "LOGIN bob pw" ++ rings "bob")

theorem caller_blocked : ∃ past s h, execute Server.step [] Server.initial callsHimself = some (past, s) ∧
    s.threads[0]? = some h ∧ ∀ a, ¬ s.Outside h a → s.step (.thread 0 a) = none := by
  have ran : (execute Server.step [] Server.initial callsHimself).any (fun r =>
      decide ((r.2.threads[0]?).map Handler.phase = some (.waiting 5 0) ∧
        r.2.endpoint 5 = some (.callback 0 0) ∧ r.2.peer (.callback 0 0) = .listening ∧
          r.2.inbound (.callback 0 0) = [])) = true := by
    decide +kernel
  obtain ⟨past, s, done, checked⟩ := execute_check _ ran
  obtain ⟨phase, there, listening, queue⟩ := of_decide_eq_true checked
  obtain ⟨h, atThread, waiting⟩ := Option.map_eq_some_iff.mp phase
  exact ⟨past, s, h, done, atThread, (blocked_iff (execute_trail done) atThread).mpr
    (Or.inr (Or.inr ⟨5, 0, waiting, Or.inr ⟨0, 0, there, listening, queue⟩⟩))⟩

end Signaling
