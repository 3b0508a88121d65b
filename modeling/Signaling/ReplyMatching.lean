import Signaling.Dialogue

namespace Signaling
open Machine CText RequestReply

/-- The handler has left its loop. -/
def Phase.outside : Phase → Bool
  | .notifying | .closing | .closed | .returned => true
  | _ => false

/-- The client sends nothing any more. -/
def ClientPhase.done : ClientPhase → Bool
  | .leaving | .left | .closed => true
  | _ => false

namespace Dialogue

/-- Besides that the connection is private, CLIENT is handled without failure, and there is no signal
before the client's own. -/
def Calm (d : Dialogue) (e : DialogueEvent) : Prop :=
  d.Private e ∧ match e with
    | .client .interrupt => False
    | .handler (.socket ok) | .handler (.connect ok) => ok = true
    | .others w => d.client.running = true → w.running = true
    | _ => True

instance (d : Dialogue) (e : DialogueEvent) : Decidable (d.Calm e) := by
  unfold Calm
  cases_type* DialogueEvent ClientAction Action <;> infer_instance

/-- The last step, if the client read from the connection, read what the handler wrote in the branch
of the client's last message. -/
def Answered : Past → Dialogue → Prop
  | (d, .reply) :: _, _ => ∃ n message, d.origins.head? = some n ∧ d.replies.head? = some message ∧
      n + 1 = d.sent.length ∧ (d.sent[n]?).bind replyTo = some message.content ∧
      d.client.phase.awaits = some message.content
  | (_, .replyFails) :: _, _ => False
  | _, _ => True

/-- Replies are matched with the messages that ask for them, the connection carries nothing else, and
nothing is left on it when the client closes it. -/
structure Matched (past : Past) (d : Dialogue) : Prop where
  answered : Answered past d
  asked : ∀ n ∈ d.origins, ((d.sent[n]?).bind replyTo).isSome = true
  empty : d.client.phase = .closed → d.replies = []

/-- The client gets just what it waits for, and the handler does not leave its loop before EXIT. -/
structure Served (d : Dialogue) : Prop where
  accounted : d.Accounted
  all : d.owed = d.awaited
  running : d.client.running = true → d.world.running = true
  stopped : d.client.running = false → d.client.phase = .left ∨ d.client.phase = .closed
  outside : d.handler.phase.outside = true → d.line.waiting replyTo = [] ∧ d.client.phase.done = true
  whole : ∀ request ∈ d.sent, request ≠ []

end Dialogue

section Client
variable {c c' : Client} {a : ClientAction} {message reply : Option Text}

/-- A client that is done only closes the connection. -/
theorem Client.Acted.done (acted : c.Acted a c' message) (finished : c.phase.done = true) (other : a ≠ .interrupt) :
    message = none ∧ c'.phase = .closed := by
  cases acted with
  | interrupt => exact absurd rfl other
  | close => exact ⟨rfl, rfl⟩
  | sendExit atPhase =>
    rcases atPhase with ⟨atPhase, _⟩ | ⟨atPhase, _⟩ <;> simp [atPhase, ClientPhase.done] at finished
  | start atPhase | leave atPhase | signUpLogin atPhase | call atPhase | stay atPhase | logout atPhase =>
    simp [atPhase, ClientPhase.done] at finished

/-- Only the reply to EXIT makes the client stop. -/
theorem Client.receive_running (read : c.receive reply = some c') :
    c.phase = .leaving ∧ c'.phase = .left ∧ (c'.running = true → c.running = true) ∨
      c.phase ≠ .leaving ∧ c'.running = c.running := by
  cases receive_received read with
  | signed atPhase | signingFails atPhase => exact Or.inr ⟨by simp [atPhase], rfl⟩
  | @loggedOut fromExit _ next atPhase same =>
    subst same
    exact Or.inr ⟨by simp [atPhase], by cases fromExit <;> rfl⟩
  | @logoutFails fromExit atPhase => exact Or.inr ⟨by simp [atPhase], by cases fromExit <;> rfl⟩
  | leave atPhase | leavingFails atPhase => exact Or.inl ⟨atPhase, rfl, fun on => (Bool.and_eq_true_iff.mp on).1⟩

theorem leaving_of_done {phase : ClientPhase} (finished : phase.done = true) (waits : phase.awaits.isSome = true) :
    phase = .leaving := by
  cases phase <;> first | rfl | simp [ClientPhase.done, ClientPhase.awaits] at finished waits

end Client

section Handler
variable {i : Nat} {h h' : Handler} {w w' : Shared} {a : Action} {bytes : Text}

theorem Handler.Moved.running_eq (moved : h.Moved i w a h' w') : w'.running = w.running := by
  cases moved with
  | greet | reply | invite | forward | exitReply | exitNotice => rw [Shared.send_eq]
  | connect => rw [Shared.connected_eq]
  | accepted _ read | declined _ read => rw [Shared.readReply_eq read]
  | _ => rfl

end Handler

section Moves
variable {i : Nat} {h h' : Handler} {w w' : Shared} {a : Action}

/-- A handler that takes a command stays in its loop. -/
theorem Handler.Moved.inside {bytes : Text} (moved : h.Moved i w (.recv bytes) h' w')
    (heard : h.hears w (.recv bytes) ≠ none) : h'.phase.outside = false := by
  cases moved with
  | hangup _ none => exact absurd none heard
  | ignored atPhase => rw [atPhase]; rfl
  | client | signup | login | call | refuse | logout | exit => rfl

/-- A handler closes its connection after it has left its loop, and owes nothing then. -/
theorem Handler.Moved.ends (moved : h.Moved i w a h' w') (open_ : h.ended = false) (ended : h'.ended = true) :
    h.phase = .closing := by
  cases moved with
  | close atPhase => exact atPhase
  | finish atPhase | closeAgain atPhase => simp [Handler.ended, atPhase] at open_
  | ignored => exact absurd (open_.symm.trans ended) (by decide)
  | _ => simp [Handler.ended, Handler.goto] at ended

/-- The ways to leave the loop. -/
theorem Handler.Moved.leaves (moved : h.Moved i w a h' w') (inside : h.phase.outside = false)
    (outside : h'.phase.outside = true) : a = .stop ∧ w.running = false ∨
      (∃ bytes, a = .recv bytes ∧ h.hears w a = none) ∨ a = .socket false ∨ a = .connect false ∨
      ∃ ok, a = .exitReply ok ∧ h.phase = .exiting := by
  cases moved with
  | stop _ off => exact Or.inl ⟨rfl, off⟩
  | hangup _ none => exact Or.inr (Or.inl ⟨_, rfl, none⟩)
  | socketFails => exact Or.inr (Or.inr (Or.inl rfl))
  | connectFails => exact Or.inr (Or.inr (Or.inr (Or.inl rfl)))
  | exitReply atPhase | exitReplyFails atPhase => exact Or.inr (Or.inr (Or.inr (Or.inr ⟨_, rfl, atPhase⟩)))
  | exitNotice atPhase | close atPhase | finish atPhase | closeAgain atPhase => simp [atPhase, Phase.outside] at inside
  | ignored => exact absurd (inside.symm.trans outside) (by decide)
  | _ => simp [Phase.outside, Handler.goto] at outside

theorem Handler.Moved.not_recv {bytes : Text} (moved : h.Moved i w (.recv bytes) h' w') : h.phase = .loop := by
  cases moved with
  | hangup atPhase | client atPhase | signup atPhase | login atPhase | call atPhase | refuse atPhase
  | logout atPhase | exit atPhase | ignored atPhase => exact atPhase

end Moves

theorem Handler.not_ended {h : Handler} (inside : h.phase.outside = false) : h.ended = false := by
  unfold Handler.ended
  cases atPhase : h.phase <;> first | rfl | simp [atPhase, Phase.outside] at inside

namespace Dialogue
variable {d d' : Dialogue}

theorem Served.client {a : ClientAction} (served : d.Served) (calm : d.Calm (.client a))
    (stepped : d.step (.client a) = some d') : d'.Served := by
  have accounted := served.accounted.step calm.1 stepped
  have other : a ≠ .interrupt := by
    rintro rfl
    exact calm.2
  obtain ⟨c, message, acted, rfl⟩ := step_client stepped
  have still (finished : d.client.phase.done = true) := acted.done finished other
  have stopped (finished : d.client.phase = .left ∨ d.client.phase = .closed) : c.phase = .left ∨ c.phase = .closed := by
    have done : d.client.phase.done = true := by rcases finished with atPhase | atPhase <;> rw [atPhase] <;> rfl
    exact Or.inr (still done).2
  rcases acted.sends with ⟨request, rfl, sends⟩ | ⟨rfl, same, running⟩
  · have inside : d.handler.phase.outside = false := by
      by_contra outside
      have nothing := (still (served.outside (Bool.not_eq_false _ ▸ outside)).2).1
      simp at nothing
    refine ⟨accounted, owed_sent served.accounted sends (Handler.not_ended inside), ?_, ?_, ?_, ?_⟩
    · exact fun on => served.running (sends.running ▸ on)
    · exact fun off => stopped (served.stopped (sends.running ▸ off))
    · exact fun outside => absurd (inside.symm.trans outside) (by decide)
    · intro other member
      rcases List.mem_append.mp member with before | new
      · exact served.whole other before
      · cases List.mem_singleton.mp new
        rintro rfl
        exact absurd sends.whole (by decide)
  · rw [Option.toList_none, List.append_nil] at accounted ⊢
    refine ⟨accounted, ?_, ?_, ?_, ?_, served.whole⟩
    · refine Eq.trans served.all ?_
      rw [awaited, awaited, same]
    · exact fun on => served.running (running other ▸ on)
    · exact fun off => stopped (served.stopped (running other ▸ off))
    · intro outside
      obtain ⟨nothing, done⟩ := served.outside outside
      refine ⟨nothing, ?_⟩
      rw [show c.phase = .closed from (still done).2]
      rfl

/-- A client that waits gets its reply before the handler closes the connection. -/
theorem Served.not_lost (served : d.Served) (queue : d.replies = []) (ended : d.handler.ended = true) :
    d.client.phase.awaits = none := by
  have nothing : d.owed = [] := by
    rw [owed, if_pos ended]
    show d.origins.zip (d.replies.map (·.content)) = []
    rw [queue, List.map_nil, List.zip_nil_right]
  have none : d.awaited = [] := served.all.symm.trans nothing
  simpa [awaited] using none

theorem Served.reply (served : d.Served) (stepped : d.step .reply = some d') : d'.Served := by
  have accounted := served.accounted.reply stepped
  rcases step_reply stepped with ⟨message, rest, buffer, c, queue, _, read, rfl⟩ | ⟨queue, ended, c, read, rfl⟩
  · obtain ⟨waits, idle⟩ := Client.receive_awaits read
    refine ⟨accounted, ?_, ?_, ?_, ?_, served.whole⟩
    · exact (accounted.clear idle).trans (awaited_idle idle).symm
    · intro on
      rcases Client.receive_running read with ⟨_, _, was⟩ | ⟨_, same⟩
      · exact served.running (was on)
      · exact served.running (same ▸ on)
    · intro off
      rcases Client.receive_running read with ⟨_, left, _⟩ | ⟨_, same⟩
      · exact Or.inl left
      · rcases served.stopped (same ▸ off) with atPhase | atPhase <;> simp [atPhase, ClientPhase.awaits] at waits
    · intro outside
      obtain ⟨nothing, done⟩ := served.outside outside
      refine ⟨nothing, ?_⟩
      rcases Client.receive_running read with ⟨_, left, _⟩ | ⟨other, _⟩
      · rw [show c.phase = .left from left]
        rfl
      · exact absurd (leaving_of_done done waits) other
  · have waits := (Client.receive_awaits read).1
    simp [served.not_lost queue ended] at waits

theorem Served.others {w : Shared} (served : d.Served) (calm : d.Calm (.others w)) :
    ({ d with world := w } : Dialogue).Served := by
  have same : ({ d with world := w } : Dialogue).line = d.line := by
    simp only [line, replies, connection]
    rw [show w.outbound (.client d.session) = d.world.outbound (.client d.session) from calm.1.1]
  refine ⟨served.accounted.others calm.1, ?_, calm.2, served.stopped, ?_, served.whole⟩
  · rw [owed, same]
    exact served.all
  · rw [same]
    exact served.outside

/-- What is left to show of a step of the handler. -/
theorem Served.after {h' : Handler} {w' : Shared} {taken : Nat} (served : d.Served)
    (d'_eq : d' = d.handled taken h' w')
    (accounted : d'.Accounted) (running : w'.running = d.world.running)
    (kept : d.client.phase.awaits.isSome = true → d'.owed = d.owed)
    (outside : h'.phase.outside = true → d'.line.waiting replyTo = [] ∧ d.client.phase.done = true) : d'.Served := by
  subst d'_eq
  refine ⟨accounted, ?_, ?_, served.stopped, outside, served.whole⟩
  · cases waits : d.client.phase.awaits with
    | none => exact (accounted.clear waits).trans (awaited_idle waits).symm
    | some message => exact (kept (by rw [waits]; rfl)).trans served.all
  · exact fun on => running.trans (served.running on)

/-- A client that waits has not stopped, nor has the server. -/
theorem Served.on (served : d.Served) (waits : d.client.phase.awaits.isSome = true) :
    d.client.phase ≠ .closed ∧ d.world.running = true := by
  constructor
  · intro atPhase
    simp [atPhase, ClientPhase.awaits] at waits
  · cases on : d.client.running with
    | true => exact served.running on
    | false => rcases served.stopped on with atPhase | atPhase <;> simp [atPhase, ClientPhase.awaits] at waits

/-- Nobody waits for a handler that hangs up. -/
theorem Served.hangup {h' : Handler} {w' : Shared} {bytes : Text} {taken : Nat} (served : d.Served)
    (takes : d.takes (.recv bytes) = some taken) (run : d.handler.step d.session d.world (.recv bytes) = some (h', w'))
    (heard : d.handler.hears d.world (.recv bytes) = none) : d.client.phase = .left ∨ d.client.phase = .closed := by
  rcases Handler.hangup_cause run heard with rfl | off
  · rcases takes_recv takes with ⟨next, _⟩ | ⟨_, closed, _⟩
    · exact absurd rfl (served.whole _ (List.mem_of_getElem? next))
    · exact Or.inr closed
  · cases on : d.client.running with
    | true => exact absurd ((served.running on).symm.trans off) (by decide)
    | false => exact served.stopped on

/-- The handler goes on owing the reply to a client that waits for it. -/
theorem Served.handler_owed {a : Action} {h' : Handler} {w' : Shared} {taken : Nat} (served : d.Served)
    (calm : d.Calm (.handler a)) (takes : d.takes a = some taken)
    (run : d.handler.step d.session d.world a = some (h', w')) (waits : d.client.phase.awaits.isSome = true) :
    (d.handled taken h' w').owed = d.owed := by
  have moved := Handler.step_moved run
  have accounted := served.accounted
  rcases moved.onConnection accounted.connected accounted.apart (invited calm.1) with
    ⟨bytes, rfl, same, idle, owes⟩ | ⟨message, other, busy, done, wrote⟩ | ⟨other, same, idle, quiet⟩
  · have atLoop := moved.not_recv
    have open_ : d.handler.ended = false := by rw [Handler.ended, atLoop]
    cases heard : d.handler.hears d.world (.recv bytes) with
    | none =>
      rcases served.hangup takes run heard with atPhase | atPhase <;> simp [atPhase, ClientPhase.awaits] at waits
    | some command =>
      have inside := moved.inside (by simp [heard])
      rw [owed_open open_, owed_open (Handler.not_ended inside)]
      exact owed_heard takes same idle heard (owes.trans (by rw [heard]; rfl))
  · have open_ : d.handler.ended = false := by
      unfold Handler.ended
      split <;> simp_all [Phase.owes]
    have open' : h'.ended = false := by
      by_contra ended
      have closing := moved.ends open_ (Bool.not_eq_false _ ▸ ended)
      simp [closing, Phase.owes] at busy
    have still : (d.handled d.taken h' w').handler.ended = false := open'
    rw [takes_other takes other, owed_open open_, owed_open still]
    exact owed_written accounted.even busy done wrote
  · rcases quiet with before | rfl
    · have line : (d.handled taken h' w').line = d.line := by
        rw [takes_other takes other, line_handled same, idle, ← before]
        rfl
      cases open_ : d.handler.ended with
      | true =>
        have still : (d.handled taken h' w').handler.ended = true := (ended_handler moved open_).1
        rw [owed_ended still, owed_ended open_, line]
      | false =>
        rw [owed_open open_, owed, line]
        split_ifs with ended
        · have outside : d.handler.phase.outside = true := by rw [moved.ends open_ ended]; rfl
          exact (Line.owed_settled replyTo d.line before (served.outside outside).1).symm
        · rfl
    · simp only [Dialogue.takes, Bool.false_eq_true, false_or] at takes
      split_ifs at takes with closed
      exact absurd closed (served.on waits).1

theorem Served.nothing_waiting (served : d.Served) (inside : d.handler.phase.outside = false)
    (idle : d.client.phase.awaits = none) : d.line.waiting replyTo = [] := by
  have nothing := served.accounted.clear idle
  rw [owed_open (Handler.not_ended inside), Line.owed] at nothing
  exact (List.append_eq_nil_iff.mp nothing).2

/-- A client whose EXIT is being handled waits for that reply and nothing else. -/
theorem Served.exiting (served : d.Served) (atPhase : d.handler.phase = .exiting) :
    d.line.waiting replyTo = [] ∧ d.client.phase.done = true := by
  have open_ : d.handler.ended = false := by rw [Handler.ended, atPhase]
  have writing : d.line.writing = some .exitReply := by rw [line, atPhase]; rfl
  have all := served.all
  rw [owed_open open_, Line.owed, writing, awaited] at all
  cases waits : d.client.phase.awaits with
  | none => simp [waits] at all
  | some reply =>
    rw [waits, Option.map_some, Option.toList_some, Option.map_some, Option.toList_some, List.append_assoc] at all
    rcases List.append_eq_singleton_iff.mp all with ⟨_, same⟩ | ⟨_, none⟩
    · obtain ⟨reply_eq, nothing⟩ := List.cons.inj same
      obtain ⟨-, rfl⟩ := Prod.mk.inj reply_eq
      refine ⟨nothing, ?_⟩
      cases atClient : d.client.phase with
      | leaving => rfl
      | signing signUp => cases signUp <;> simp [atClient, ClientPhase.awaits] at waits
      | loggingOut | starting | menu | exiting | left | closed => simp [atClient, ClientPhase.awaits] at waits
    · simp at none

/-- The handler leaves its loop in the branch of EXIT, or when the client has stopped. -/
theorem Served.handler_outside {a : Action} {h' : Handler} {w' : Shared} {taken : Nat} (served : d.Served)
    (calm : d.Calm (.handler a)) (takes : d.takes a = some taken)
    (run : d.handler.step d.session d.world a = some (h', w')) (outside : h'.phase.outside = true) :
    (d.handled taken h' w').line.waiting replyTo = [] ∧ d.client.phase.done = true := by
  have moved := Handler.step_moved run
  have fewer : ((d.handled taken h' w').line.waiting replyTo).Sublist (d.line.waiting replyTo) :=
    Line.waiting_sublist replyTo d.line (le_of_takes takes)
  have left (stopped : d.client.phase = .left ∨ d.client.phase = .closed) (inside : d.handler.phase.outside = false) :
      d.line.waiting replyTo = [] ∧ d.client.phase.done = true := by
    rcases stopped with atPhase | atPhase <;>
      exact ⟨served.nothing_waiting inside (by rw [atPhase]; rfl), by rw [atPhase]; rfl⟩
  have both : d.line.waiting replyTo = [] ∧ d.client.phase.done = true := by
    cases inside : d.handler.phase.outside with
    | true => exact served.outside inside
    | false =>
      rcases moved.leaves inside outside with ⟨rfl, off⟩ | ⟨bytes, rfl, heard⟩ | rfl | rfl | ⟨ok, rfl, exiting⟩
      · refine left ?_ inside
        cases on : d.client.running with
        | true => exact absurd ((served.running on).symm.trans off) (by decide)
        | false => exact served.stopped on
      · exact left (served.hangup takes run heard) inside
      · exact (Bool.false_ne_true calm.2).elim
      · exact (Bool.false_ne_true calm.2).elim
      · exact served.exiting exiting
  exact ⟨List.sublist_nil.mp (both.1 ▸ fewer), both.2⟩

theorem Served.handler {a : Action} (served : d.Served) (calm : d.Calm (.handler a))
    (stepped : d.step (.handler a) = some d') : d'.Served := by
  have accounted := served.accounted.step calm.1 stepped
  obtain ⟨taken, h', w', takes, run, same⟩ := step_handler stepped
  refine served.after same accounted (Handler.step_moved run).running_eq ?_ ?_
  · exact fun waits => same ▸ served.handler_owed calm takes run waits
  · exact fun outside => same ▸ served.handler_outside calm takes run outside

theorem Served.step {e : DialogueEvent} (served : d.Served) (calm : d.Calm e) (stepped : d.step e = some d') :
    d'.Served := by
  cases e with
  | client => exact served.client calm stepped
  | reply => exact served.reply stepped
  | replyFails =>
    obtain ⟨queue, ended, c, read, _⟩ := step_replyFails stepped
    have waits := (Client.receive_awaits read).1
    simp [served.not_lost queue ended] at waits
  | gathered =>
    have accounted := served.accounted.step calm.1 stepped
    cases Option.some.inj stepped
    exact ⟨accounted, served.all, served.running, served.stopped, served.outside, served.whole⟩
  | handler => exact served.handler calm stepped
  | others w =>
    cases Option.some.inj stepped
    exact served.others calm

theorem served_opened {i n : Nat} {w : Shared} (fresh : Fresh i n w) (on : w.running = true) :
    (opened i n w).Served where
  accounted := accounted_opened fresh
  all := ((accounted_opened fresh).clear rfl).trans (awaited_idle rfl).symm
  running _ := on
  stopped off := by simp [opened] at off
  outside outside := by simp [opened, Phase.outside] at outside
  whole := by simp [opened]

theorem served {i n : Nat} {w : Shared} {past : Past} (fresh : Fresh i n w) (on : w.running = true)
    (run : Trail step (opened i n w) past d) (calm : Throughout (fun _ => Calm) past) : d.Served := by
  refine run.invariant_of_allowed (fun _ => Served) (served_opened fresh on) ?_ calm
  intro past d e d' _ served calm stepped
  exact served.step calm stepped

/-- Only messages that ask for a reply have one. -/
theorem Accounted.origins_asked (accounted : d.Accounted) :
    ∀ n ∈ d.origins, ((d.sent[n]?).bind replyTo).isSome = true := by
  intro n member
  cases queue : d.replies with
  | nil =>
    have none : d.origins = [] := List.length_eq_zero_iff.mp (accounted.even.trans (by rw [queue]; rfl))
    simp [none] at member
  | cons message rest =>
    obtain ⟨last, origins, _, asked, _⟩ := accounted.reads queue
    rw [origins] at member
    cases List.mem_singleton.mp member
    rw [asked]
    rfl

theorem answered_step {past : Past} {e : DialogueEvent} (served : d.Served) (stepped : d.step e = some d') :
    Answered ((d, e) :: past) d' := by
  cases e with
  | reply =>
    rcases step_reply stepped with ⟨message, rest, _, _, queue, _⟩ | ⟨queue, ended, _, read, _⟩
    · obtain ⟨n, origins, last, asked, waits⟩ := served.accounted.reads queue
      exact ⟨n, message, by rw [origins]; rfl, by rw [queue]; rfl, last, asked, waits⟩
    · have waits := (Client.receive_awaits read).1
      simp [served.not_lost queue ended] at waits
  | replyFails =>
    obtain ⟨queue, ended, _, read, _⟩ := step_replyFails stepped
    have waits := (Client.receive_awaits read).1
    simp [served.not_lost queue ended] at waits
  | client | gathered | handler | others => trivial

/-- On a private connection without failures and early signals every reply the client reads is the one
to the message it sent last, the connection carries no others, and none is left when it is closed. -/
theorem replies_matched {i n : Nat} {w : Shared} {past : Past} (fresh : Fresh i n w) (on : w.running = true)
    (run : Trail step (opened i n w) past d) (calm : Throughout (fun _ => Calm) past) :
    Always Matched past d := by
  refine run.always_of_allowed (fun past d run calm => ?_) calm
  have now := served fresh on run calm
  refine ⟨?_, now.accounted.origins_asked, fun closed => ?_⟩
  · cases run with
    | start => trivial
    | next previous stepped => exact answered_step (served fresh on previous calm.2) stepped
  · exact (now.accounted.quiet (by rw [closed]; rfl)).2

end Dialogue

/-- The user signs up, calls himself before he has logged in and leaves. -/
def signUpAndLeave : List DialogueEvent :=
  clientConnects ++ [.client (.choose (.signUpLogin true bob pw)), .handler (.recv (clientFrame "SIGNUP bob pw")),
    .handler .reply, .reply, .client (.choose (.call bob)), .client (.choose .exit),
    .handler (.recv (clientFrame "CALL bob ")), .handler (.recv (clientFrame "LOGOUT bob")), .handler .reply, .reply,
    .client .exit, .handler (.recv (clientFrame "EXIT EXIT")), .handler (.exitReply true), .handler .exitNotice,
    .reply, .client .close, .handler .close]

theorem replies_of_leaving_matched : ∃ past d,
    execute Dialogue.step [] (Dialogue.opened 0 4 justAccepted) signUpAndLeave = some (past, d) ∧
      d.client.phase = .closed ∧ Always Dialogue.Matched past d := by
  have ran : (execute Dialogue.step [] (Dialogue.opened 0 4 justAccepted) signUpAndLeave).any (fun r =>
      decide (r.2.client.phase = .closed ∧ Throughout (fun _ => Dialogue.Calm) r.1)) = true := by
    decide +kernel
  obtain ⟨past, d, done, checked⟩ := execute_check _ ran
  obtain ⟨closed, calm⟩ := of_decide_eq_true checked
  exact ⟨past, d, done, closed,
    Dialogue.replies_matched ⟨by decide, by decide⟩ (by decide) (execute_trail done) calm⟩

end Signaling
