import Signaling.Client
import Signaling.DescriptorOwnership
import Signaling.Machine.RequestReply
import Signaling.Machine.Trail

namespace Signaling
open Machine CText RequestReply

/-- The reply that the client waits for. -/
def ClientPhase.awaits : ClientPhase → Option Outgoing
  | .signing signUp => some (if signUp then .signupReply else .loginReply)
  | .loggingOut _ => some .logoutReply
  | .leaving => some .exitReply
  | .starting | .menu | .exiting | .left | .closed => none

/-- What the client does next may be to send a message. -/
def ClientPhase.sends : ClientPhase → Bool
  | .starting | .menu | .exiting => true
  | .signing _ | .loggingOut _ | .leaving | .left | .closed => false

/-- The reply that the handler has still to write. -/
def Phase.owes : Phase → Option Outgoing
  | .replying message => some message
  | .exiting => some .exitReply
  | _ => none

/-- The descriptor that the INVITE goes to. -/
def Phase.receiverFd : Phase → Option Int
  | .inviting _ _ _ receiverFd => some receiverFd
  | _ => none

/-- A client and its handler, with the memory of the server. `sent` is all that the client has
written and `taken` the number of messages the handler has read of it; `origins` holds for each reply
under way the number of the message in whose branch it was written. -/
structure Dialogue where
  session : Nat
  client : Client := {}
  handler : Handler
  world : Shared
  sent : List Text := []
  taken : Nat := 0
  origins : List Nat := []

/-- `gathered` is the write of `local_sdp` by the callback of the peer connection, `others` a step of
everybody else in the server. -/
inductive DialogueEvent
  | client (a : ClientAction)
  | reply
  | replyFails
  | gathered (localSdp : Text)
  | handler (a : Action)
  | others (w : Shared)

namespace Dialogue

/-- Session `i`, just accepted on descriptor `n`. -/
def opened (i n : Nat) (w : Shared) : Dialogue := { session := i, handler := { clientSocket := n }, world := w }

def connection (d : Dialogue) : Endpoint := .client d.session

def replies (d : Dialogue) : List (Tagged Outgoing) := d.world.outbound d.connection

/-- The number of messages taken after the action, where the queues let it happen: `recv` gets the next
message, or nothing from a client that has closed, and only to such a client does `send` fail. -/
def takes (d : Dialogue) : Action → Option Nat
  | .recv bytes =>
    if d.sent[d.taken]? = some bytes then some (d.taken + 1)
    else if bytes = [] ∧ d.sent.length ≤ d.taken ∧ d.client.phase = .closed then some d.taken
    else none
  | .exitReply ok => if ok ∨ d.client.phase = .closed then some d.taken else none
  | _ => some d.taken

/-- What was written to the connection since the state `d` was written for the message taken last. -/
def numbered (d : Dialogue) (taken : Nat) (w' : Shared) : List Nat :=
  d.origins ++ List.replicate ((w'.outbound d.connection).length - d.replies.length) (taken - 1)

/-- The handler has taken a step. -/
def handled (d : Dialogue) (taken : Nat) (h' : Handler) (w' : Shared) : Dialogue :=
  { d with handler := h', world := w', taken := taken, origins := d.numbered taken w' }

def step (d : Dialogue) : DialogueEvent → Option Dialogue
  | .client a => (d.client.act a).map fun (c, message) => { d with client := c, sent := d.sent ++ message.toList }
  | .reply =>
    match d.replies with
    | message :: rest =>
      (received (message.content.frame.take socketBufferSize)).bind fun buffer =>
        (d.client.receive (some buffer)).map fun c => { d with
          client := c, origins := d.origins.tail,
          world := { d.world with outbound := Function.update d.world.outbound d.connection rest } }
    | [] =>
      if d.handler.ended then (d.client.receive (some [])).map fun c => { d with client := c }
      else none
  | .replyFails =>
    if d.replies = [] ∧ d.handler.ended then (d.client.receive none).map fun c => { d with client := c }
    else none
  | .gathered localSdp => some { d with client := { d.client with localSdp := localSdp } }
  | .handler a => (d.takes a).bind fun taken =>
    (d.handler.step d.session d.world a).map fun (h', w') => d.handled taken h' w'
  | .others w => some { d with world := w }

/-- Nobody else writes to the connection, and as long as it is open nobody else touches the descriptors
of the handler. -/
def Private (d : Dialogue) : DialogueEvent → Prop
  | .handler .invite => ∀ receiverFd ∈ d.handler.phase.receiverFd,
      d.world.endpoint receiverFd ≠ some d.connection
  | .others w => w.outbound d.connection = d.replies ∧ (d.handler.ended = false →
      w.endpoint d.handler.clientSocket = d.world.endpoint d.handler.clientSocket ∧
      w.endpoint d.handler.clientSocketFd = d.world.endpoint d.handler.clientSocketFd)
  | _ => True

instance (d : Dialogue) (e : DialogueEvent) : Decidable (d.Private e) := by
  unfold Private
  cases_type* DialogueEvent Action <;> infer_instance

/-- The connection has just been accepted. -/
structure Fresh (i n : Nat) (w : Shared) : Prop where
  accepted : w.endpoint n = some (.client i)
  quiet : w.outbound (.client i) = []

def line (d : Dialogue) : Line Text Outgoing where
  sent := d.sent
  taken := d.taken
  writing := d.handler.phase.owes
  replies := d.origins.zip (d.replies.map (·.content))

/-- All that the client can still get for what it has sent. -/
def owed (d : Dialogue) : List (Nat × Outgoing) :=
  if d.handler.ended then d.line.replies else d.line.owed replyTo

/-- What the client waits for: the reply to the message it sent last. -/
def awaited (d : Dialogue) : List (Nat × Outgoing) :=
  (d.client.phase.awaits.map (d.sent.length - 1, ·)).toList

/-- The client gets at most what it waits for. -/
structure Accounted (d : Dialogue) : Prop where
  within : d.taken ≤ d.sent.length
  even : d.origins.length = d.replies.length
  owed : List.Sublist d.owed d.awaited
  asked : ∀ message ∈ d.client.phase.awaits, d.sent.getLast?.bind replyTo = some message
  connected : d.handler.ended = false → d.world.endpoint d.handler.clientSocket = some d.connection
  apart : d.handler.ended = false → d.world.endpoint d.handler.clientSocketFd ≠ some d.connection

end Dialogue

section Connection
variable {i : Nat} {h h' : Handler} {w w' : Shared} {a : Action} {fd : Int} {message : Tagged Outgoing}
  {e : Endpoint}

theorem Shared.send_client (there : w.endpoint fd = some (.client i)) :
    (w.send fd message).outbound (.client i) = w.outbound (.client i) ++ [message] :=
  Shared.send_reached there rfl

/-- What a step of the handler does to its client's connection: it takes up a message, writes the
reply it owes, or does nothing to it. -/
theorem Handler.Moved.onConnection (moved : h.Moved i w a h' w')
    (connected : h.ended = false → w.endpoint h.clientSocket = some (.client i))
    (apart : h.ended = false → w.endpoint h.clientSocketFd ≠ some (.client i))
    (invited : a = .invite → ∀ receiverFd ∈ h.phase.receiverFd, w.endpoint receiverFd ≠ some (.client i)) :
    (∃ bytes, a = .recv bytes ∧ w'.outbound (.client i) = w.outbound (.client i) ∧
        h.phase.owes = none ∧ h'.phase.owes = (h.hears w a).bind Command.reply) ∨
      (∃ message, (∀ bytes, a ≠ .recv bytes) ∧ h.phase.owes = some message ∧ h'.phase.owes = none ∧
        w'.outbound (.client i) = w.outbound (.client i) ++ [⟨message, none⟩]) ∨
      (∀ bytes, a ≠ .recv bytes) ∧ w'.outbound (.client i) = w.outbound (.client i) ∧
        h'.phase.owes = none ∧ (h.phase.owes = none ∨ a = .exitReply false) := by
  cases moved with
  | hangup atPhase heard | client atPhase heard | signup atPhase heard | login atPhase heard
  | logout atPhase heard | exit atPhase heard | call atPhase heard | refuse atPhase heard =>
    exact Or.inl ⟨_, rfl, rfl, by rw [atPhase]; rfl, by rw [heard]; rfl⟩
  | ignored atPhase heard =>
    exact Or.inl ⟨_, rfl, rfl, by rw [atPhase]; rfl, by rw [heard, atPhase]; rfl⟩
  | reply atPhase | exitReply atPhase =>
    have open_ : h.ended = false := by rw [Handler.ended, atPhase]
    exact Or.inr (Or.inl ⟨_, by simp, by rw [atPhase]; rfl, rfl, Shared.send_client (connected open_)⟩)
  | greet atPhase | forward atPhase | exitNotice atPhase =>
    have open_ : h.ended = false := by rw [Handler.ended, atPhase]
    exact Or.inr (Or.inr ⟨by simp, Shared.send_elsewhere (apart open_), rfl, Or.inl (by rw [atPhase]; rfl)⟩)
  | invite atPhase =>
    have elsewhere := invited rfl _ (by rw [atPhase]; rfl)
    exact Or.inr (Or.inr ⟨by simp, Shared.send_elsewhere elsewhere, rfl, Or.inl (by rw [atPhase]; rfl)⟩)
  | accepted atPhase read | declined atPhase read =>
    exact Or.inr (Or.inr ⟨by simp, by rw [Shared.readReply_eq read], rfl, Or.inl (by rw [atPhase]; rfl)⟩)
  | connect atPhase =>
    exact Or.inr (Or.inr ⟨by simp, by rw [Shared.connected_outbound], rfl, Or.inl (by rw [atPhase]; rfl)⟩)
  | exitReplyFails => exact Or.inr (Or.inr ⟨by simp, rfl, rfl, Or.inr rfl⟩)
  | stop atPhase | socket atPhase | socketFails atPhase | connectFails atPhase | hasUser atPhase
  | hasNoUser atPhase | getUser atPhase | noUser atPhase | close atPhase | finish atPhase | closeAgain atPhase =>
    exact Or.inr (Or.inr ⟨by simp, rfl, rfl, Or.inl (by rw [atPhase]; rfl)⟩)

theorem Shared.endpoint_congr (same : w'.descriptors = w.descriptors) : w'.endpoint fd = w.endpoint fd := by
  cases fd with
  | ofNat n => simp only [Shared.endpoint, same]
  | negSucc n => rfl

/-- A handler keeps its connection apart from its callback connection until it closes it. -/
theorem Handler.Moved.keepsConnection (moved : h.Moved i w a h' w')
    (connected : h.ended = false → w.endpoint h.clientSocket = some (.client i))
    (apart : h.ended = false → w.endpoint h.clientSocketFd ≠ some (.client i)) (open_ : h'.ended = false) :
    w'.endpoint h'.clientSocket = some (.client i) ∧ w'.endpoint h'.clientSocketFd ≠ some (.client i) := by
  cases quiet : a.changesTable with
  | false =>
    have table := moved.descriptors_eq quiet
    cases moved with
    | socket | close | finish | closeAgain => simp [Action.changesTable] at quiet
    | socketFails atPhase =>
      have nowhere : w.endpoint (-1) = none := rfl
      exact ⟨connected (by rw [Handler.ended, atPhase]), by simp [nowhere]⟩
    | ignored => exact ⟨connected open_, apart open_⟩
    | reply atPhase | stop atPhase | hangup atPhase | client atPhase | signup atPhase | login atPhase
    | call atPhase | refuse atPhase | logout atPhase | exit atPhase | connect atPhase | connectFails atPhase
    | greet atPhase | hasUser atPhase | hasNoUser atPhase | getUser atPhase | noUser atPhase | invite atPhase
    | accepted atPhase | declined atPhase | forward atPhase | exitReply atPhase | exitReplyFails atPhase
    | exitNotice atPhase =>
      have before : h.ended = false := by rw [Handler.ended, atPhase]
      exact ⟨(Shared.endpoint_congr table).trans (connected before),
        fun there => apart before ((Shared.endpoint_congr table).symm.trans there)⟩
  | true =>
    cases moved with
    | close | finish | closeAgain => simp [Handler.ended, Handler.goto] at open_
    | socket atPhase =>
      have before := connected (by rw [Handler.ended, atPhase])
      refine ⟨(Slots.lookup_occupy_iff (by simp) _).mpr before, ?_⟩
      simp [Shared.endpoint, Shared.allocate, Slots.lookup_occupy]
    | _ => simp [Action.changesTable] at quiet

end Connection

section Client
variable {c c' : Client} {a : ClientAction} {message : Option Text} {request : Text}

/-- A function of the menu that sends a message waits for the reply to it, if one is written to it. -/
structure Sends (c c' : Client) (request : Text) : Prop where
  sender : c.phase.sends = true
  waits : c'.phase.awaits = replyTo request
  whole : request.length = socketBufferSize
  running : c'.running = c.running

theorem idle_of_sends {phase : ClientPhase} (sends : phase.sends = true) : phase.awaits = none := by
  cases phase <;> first | rfl | simp [ClientPhase.sends] at sends

/-- What the client does on its own: it sends a message, or nothing changes about its waiting. -/
theorem Client.Acted.sends (acted : c.Acted a c' message) :
    (∃ request, message = some request ∧ Sends c c' request) ∨
      message = none ∧ c'.phase.awaits = c.phase.awaits ∧ (a ≠ .interrupt → c'.running = c.running) := by
  cases acted with
  | start atPhase sent =>
    exact Or.inl ⟨_, rfl, by rw [atPhase]; rfl, by rw [replyTo_client sent]; rfl, length_printed sent, rfl⟩
  | @signUpLogin signUp _ _ _ atMenu _ sent =>
    refine Or.inl ⟨_, rfl, by rw [atMenu]; rfl, ?_, length_copied sent, rfl⟩
    rw [replyTo, commandOf_register sent]
    cases signUp <;> rfl
  | call atMenu _ sent =>
    exact Or.inl ⟨_, rfl, by rw [atMenu]; rfl, by rw [replyTo_call sent, atMenu]; rfl, length_printed sent, rfl⟩
  | logout atMenu sent =>
    refine Or.inl ⟨_, rfl, by rw [atMenu]; rfl, ?_, length_copied sent, rfl⟩
    rw [replyTo, commandOf_logout sent]
    rfl
  | sendExit atPhase sent =>
    refine Or.inl ⟨_, rfl, ?_, ?_, length_copied sent, rfl⟩
    · rcases atPhase with ⟨atPhase, _⟩ | ⟨atPhase, _⟩ <;> rw [atPhase] <;> rfl
    · rw [replyTo, commandOf_exit sent]
      rfl
  | leave atPhase | close atPhase => exact Or.inr ⟨rfl, by rw [atPhase]; rfl, fun _ => rfl⟩
  | stay => exact Or.inr ⟨rfl, rfl, fun _ => rfl⟩
  | interrupt => exact Or.inr ⟨rfl, rfl, fun other => absurd rfl other⟩

/-- Where the client goes on after a `recv`. -/
theorem Client.receive_phase {reply : Option Text} (read : c.receive reply = some c') :
    c.phase.awaits.isSome = true ∧ (c'.phase = .menu ∨ c'.phase = .left ∨ c'.phase = .exiting) := by
  have back (c : Client) : c.back.phase = .menu ∨ c.back.phase = .left ∨ c.back.phase = .exiting := by
    rw [Client.back, Client.goto]
    cases c.serverDisconnected <;> simp
  cases receive_received read with
  | signed atPhase | signingFails atPhase => exact ⟨by rw [atPhase]; rfl, back _⟩
  | @loggedOut fromExit _ _ atPhase | @logoutFails fromExit atPhase =>
    refine ⟨by rw [atPhase]; rfl, ?_⟩
    cases fromExit with
    | true => exact Or.inr (Or.inr rfl)
    | false => exact back _
  | leave atPhase | leavingFails atPhase => exact ⟨by rw [atPhase]; rfl, Or.inr (Or.inl rfl)⟩

/-- After its `recv` the client waits for nothing. -/
theorem Client.receive_awaits {reply : Option Text} (read : c.receive reply = some c') :
    c.phase.awaits.isSome = true ∧ c'.phase.awaits = none := by
  obtain ⟨waits, next⟩ := receive_phase read
  refine ⟨waits, ?_⟩
  rcases next with atPhase | atPhase | atPhase <;> rw [atPhase] <;> rfl

end Client

namespace Dialogue
variable {d d' : Dialogue} {a : Action} {h' : Handler} {w' : Shared} {taken : Nat}

theorem step_handler (stepped : d.step (.handler a) = some d') :
    ∃ taken h' w', d.takes a = some taken ∧ d.handler.step d.session d.world a = some (h', w') ∧
      d' = d.handled taken h' w' := by
  obtain ⟨taken, takes, stepped⟩ := Option.bind_eq_some_iff.mp stepped
  obtain ⟨⟨h', w'⟩, run, same⟩ := Option.map_eq_some_iff.mp stepped
  exact ⟨taken, h', w', takes, run, same.symm⟩

theorem step_client {a : ClientAction} (stepped : d.step (.client a) = some d') :
    ∃ c message, d.client.Acted a c message ∧
      d' = { d with client := c, sent := d.sent ++ message.toList } := by
  obtain ⟨⟨c, message⟩, done, same⟩ := Option.map_eq_some_iff.mp stepped
  exact ⟨c, message, Client.act_acted done, same.symm⟩

/-- The client reads the next reply, or nothing after the handler has closed the connection. -/
theorem step_reply (stepped : d.step .reply = some d') :
    (∃ message rest buffer c, d.replies = message :: rest ∧
      received (message.content.frame.take socketBufferSize) = some buffer ∧
      d.client.receive (some buffer) = some c ∧ d' = { d with
        client := c, origins := d.origins.tail,
        world := { d.world with outbound := Function.update d.world.outbound d.connection rest } }) ∨
    d.replies = [] ∧ d.handler.ended = true ∧
      ∃ c, d.client.receive (some []) = some c ∧ d' = { d with client := c } := by
  simp only [step] at stepped
  split at stepped
  · rename_i message rest queue
    obtain ⟨buffer, read, stepped⟩ := Option.bind_eq_some_iff.mp stepped
    obtain ⟨c, done, same⟩ := Option.map_eq_some_iff.mp stepped
    exact Or.inl ⟨message, rest, buffer, c, queue, read, done, same.symm⟩
  · rename_i queue
    split_ifs at stepped with ended
    obtain ⟨c, done, same⟩ := Option.map_eq_some_iff.mp stepped
    exact Or.inr ⟨queue, ended, c, done, same.symm⟩

theorem step_replyFails (stepped : d.step .replyFails = some d') :
    d.replies = [] ∧ d.handler.ended = true ∧
      ∃ c, d.client.receive none = some c ∧ d' = { d with client := c } := by
  simp only [step] at stepped
  split_ifs at stepped with lost
  obtain ⟨c, done, same⟩ := Option.map_eq_some_iff.mp stepped
  exact ⟨lost.1, lost.2, c, done, same.symm⟩

theorem takes_recv {bytes : Text} (takes : d.takes (.recv bytes) = some taken) :
    d.sent[d.taken]? = some bytes ∧ taken = d.taken + 1 ∨
      bytes = [] ∧ d.client.phase = .closed ∧ taken = d.taken := by
  simp only [Dialogue.takes] at takes
  split_ifs at takes with next closed
  · exact Or.inl ⟨next, (Option.some.inj takes).symm⟩
  · exact Or.inr ⟨closed.1, closed.2.2, (Option.some.inj takes).symm⟩

theorem takes_other (takes : d.takes a = some taken) (other : ∀ bytes, a ≠ .recv bytes) : taken = d.taken := by
  cases a with
  | recv bytes => exact absurd rfl (other bytes)
  | exitReply ok =>
    simp only [Dialogue.takes] at takes
    split_ifs at takes
    exact (Option.some.inj takes).symm
  | _ => exact (Option.some.inj takes).symm

theorem le_of_takes (takes : d.takes a = some taken) : d.taken ≤ taken := by
  cases a with
  | recv bytes => rcases takes_recv takes with ⟨_, rfl⟩ | ⟨_, _, rfl⟩ <;> omega
  | _ => exact (takes_other takes (by simp)).ge

/-- A command taken up is that of the message. -/
theorem commandOf_heard {h : Handler} {w : Shared} {bytes : Text} {command : Command}
    (heard : h.hears w (.recv bytes) = some command) : commandOf bytes = some command ∧ bytes ≠ [] := by
  rw [Handler.hears] at heard
  split_ifs at heard with both
  refine ⟨heard, ?_⟩
  rintro rfl
  exact both.2 rfl

theorem numbered_same (same : w'.outbound d.connection = d.replies) : d.numbered taken w' = d.origins := by
  simp [numbered, same]

theorem invited (private_ : d.Private (.handler a)) (invite : a = .invite) :
    ∀ receiverFd ∈ d.handler.phase.receiverFd, d.world.endpoint receiverFd ≠ some d.connection := by
  subst invite
  exact private_

theorem line_handled (same : w'.outbound d.connection = d.replies) :
    (d.handled taken h' w').line = { d.line with taken := taken, writing := h'.phase.owes } := by
  have queue : (d.handled taken h' w').replies = d.replies := same
  simp only [line, queue]
  rw [show (d.handled taken h' w').origins = d.origins from numbered_same same]
  rfl

theorem line_written {message : Outgoing} (even : d.origins.length = d.replies.length)
    (wrote : w'.outbound d.connection = d.replies ++ [⟨message, none⟩]) :
    (d.handled d.taken h' w').line =
      { d.line with writing := h'.phase.owes, replies := d.line.replies ++ [(d.taken - 1, message)] } := by
  have queue : (d.handled d.taken h' w').replies = d.replies ++ [⟨message, none⟩] := wrote
  have number : (d.handled d.taken h' w').origins = d.origins ++ [d.taken - 1] := by
    simp [handled, numbered, wrote]
  have sizes : d.origins.length = (d.replies.map (·.content)).length := by simpa using even
  simp only [line, queue, number, List.map_append, List.zip_append sizes]
  rfl

/-- The reply to a message that the handler takes up is owed as before. -/
theorem owed_heard {bytes : Text} {command : Command} (takes : d.takes (.recv bytes) = some taken)
    (same : w'.outbound d.connection = d.replies) (idle : d.handler.phase.owes = none)
    (heard : d.handler.hears d.world (.recv bytes) = some command) (owes : h'.phase.owes = command.reply) :
    (d.handled taken h' w').line.owed replyTo = d.line.owed replyTo := by
  obtain ⟨read, filled⟩ := commandOf_heard heard
  rcases takes_recv takes with ⟨next, rfl⟩ | ⟨empty, _⟩
  · have answer : replyTo bytes = command.reply := by rw [replyTo, read, Option.bind_some]
    rw [line_handled same, owes, ← answer]
    exact Line.owed_take replyTo d.line next idle
  · exact absurd empty filled

theorem owed_written {message : Outgoing} (even : d.origins.length = d.replies.length)
    (busy : d.handler.phase.owes = some message) (done : h'.phase.owes = none)
    (wrote : w'.outbound d.connection = d.replies ++ [⟨message, none⟩]) :
    (d.handled d.taken h' w').line.owed replyTo = d.line.owed replyTo := by
  rw [line_written even wrote, done]
  exact Line.owed_write replyTo d.line busy

/-- A step of the handler adds nothing to what is owed. -/
theorem owed_handler (accounted : d.Accounted) (private_ : d.Private (.handler a)) (takes : d.takes a = some taken)
    (moved : d.handler.Moved d.session d.world a h' w') :
    ((d.handled taken h' w').line.owed replyTo).Sublist (d.line.owed replyTo) := by
  rcases moved.onConnection accounted.connected accounted.apart (invited private_) with
    ⟨bytes, rfl, same, idle, owes⟩ | ⟨message, other, busy, done, wrote⟩ | ⟨other, same, idle, _⟩
  · cases heard : d.handler.hears d.world (.recv bytes) with
    | none =>
      rw [line_handled same, owes, heard]
      exact Line.owed_dismiss replyTo d.line (le_of_takes takes)
    | some command =>
      rw [owed_heard takes same idle heard (owes.trans (by rw [heard]; rfl))]
  · rw [takes_other takes other, owed_written accounted.even busy done wrote]
  · rw [takes_other takes other, line_handled same, idle]
    exact Line.owed_dismiss replyTo d.line le_rfl

/-- What is under way when the handler has closed its connection stays under way. -/
theorem ended_handler (moved : d.handler.Moved d.session d.world a h' w') (ended : d.handler.ended = true) :
    h'.ended = true ∧ w'.outbound d.connection = d.replies := by
  cases moved with
  | finish | closeAgain => exact ⟨rfl, rfl⟩
  | ignored atPhase | stop atPhase | hangup atPhase | client atPhase | signup atPhase | login atPhase
  | call atPhase | refuse atPhase | logout atPhase | exit atPhase | socket atPhase | socketFails atPhase
  | connect atPhase | connectFails atPhase | greet atPhase | reply atPhase | hasUser atPhase | hasNoUser atPhase
  | getUser atPhase | noUser atPhase | invite atPhase | accepted atPhase | declined atPhase | forward atPhase
  | exitReply atPhase | exitReplyFails atPhase | exitNotice atPhase | close atPhase =>
    simp [Handler.ended, atPhase] at ended

theorem owed_open (open_ : d.handler.ended = false) : d.owed = d.line.owed replyTo := by
  rw [owed, open_]
  rfl

theorem owed_ended (ended : d.handler.ended = true) : d.owed = d.line.replies := if_pos ended

theorem owed_sublist : d.owed.Sublist (d.line.owed replyTo) := by
  rw [owed]
  split_ifs
  · exact Line.replies_sublist_owed replyTo d.line
  · exact List.Sublist.refl _

/-- A step of the handler takes nothing away from the connection. -/
theorem length_replies_le (accounted : d.Accounted) (private_ : d.Private (.handler a))
    (moved : d.handler.Moved d.session d.world a h' w') : d.replies.length ≤ (w'.outbound d.connection).length := by
  rcases moved.onConnection accounted.connected accounted.apart (invited private_) with
    ⟨_, _, same, _⟩ | ⟨_, _, _, _, wrote⟩ | ⟨_, same, _⟩
  · exact (congrArg List.length same).symm.le
  · rw [show w'.outbound d.connection = d.replies ++ [_] from wrote, List.length_append]
    omega
  · exact (congrArg List.length same).symm.le

theorem takes_le (within : d.taken ≤ d.sent.length) (takes : d.takes a = some taken) : taken ≤ d.sent.length := by
  cases a with
  | recv bytes =>
    rcases takes_recv takes with ⟨next, rfl⟩ | ⟨_, _, rfl⟩
    · exact (List.getElem?_eq_some_iff.mp next).1
    · exact within
  | _ => exact takes_other takes (by simp) ▸ within

theorem Accounted.handler (accounted : d.Accounted) (private_ : d.Private (.handler a))
    (stepped : d.step (.handler a) = some d') : d'.Accounted := by
  obtain ⟨taken, h', w', takes, run, rfl⟩ := step_handler stepped
  have moved := Handler.step_moved run
  have below := takes_le accounted.within takes
  refine ⟨below, ?_, ?_, accounted.asked, ?_, ?_⟩
  · have grows := length_replies_le accounted private_ moved
    have even := accounted.even
    show (d.numbered taken w').length = (w'.outbound d.connection).length
    rw [numbered, List.length_append, List.length_replicate]
    omega
  · refine List.Sublist.trans ?_ accounted.owed
    cases ended : d.handler.ended with
    | true =>
      obtain ⟨still, queue⟩ := ended_handler moved ended
      rw [owed_ended ended, owed_ended (show (d.handled taken h' w').handler.ended = true from still),
        line_handled queue]
    | false =>
      rw [owed_open ended]
      exact owed_sublist.trans (owed_handler accounted private_ takes moved)
  · intro open_
    exact (moved.keepsConnection accounted.connected accounted.apart open_).1
  · intro open_
    exact (moved.keepsConnection accounted.connected accounted.apart open_).2

theorem awaited_idle (idle : d.client.phase.awaits = none) : d.awaited = [] := by
  rw [awaited, idle]
  rfl

theorem Accounted.clear (accounted : d.Accounted) (idle : d.client.phase.awaits = none) : d.owed = [] :=
  List.sublist_nil.mp (awaited_idle idle ▸ accounted.owed)

/-- What is owed to a client that has sent a message is the reply to that, if there is one. -/
theorem owed_sent {c : Client} {request : Text} (accounted : d.Accounted) (sends : Sends d.client c request)
    (open_ : d.handler.ended = false) : ({ d with client := c, sent := d.sent ++ [request] } : Dialogue).owed =
      ({ d with client := c, sent := d.sent ++ [request] } : Dialogue).awaited := by
  have clear := accounted.clear (idle_of_sends sends.sender)
  rw [Dialogue.owed, if_neg (by simp [open_])] at clear ⊢
  have more := Line.owed_send replyTo d.line request accounted.within
  show Line.owed replyTo { d.line with sent := d.line.sent ++ [request] } = _
  rw [more, clear, List.nil_append, awaited, ← sends.waits]
  simp [line]

/-- A client that sends a message waits for its reply, and for no other. -/
theorem Accounted.client {a : ClientAction} (accounted : d.Accounted) (stepped : d.step (.client a) = some d') :
    d'.Accounted := by
  obtain ⟨c, message, acted, rfl⟩ := step_client stepped
  rcases acted.sends with ⟨request, rfl, sends⟩ | ⟨rfl, still, _⟩
  · refine ⟨?_, accounted.even, ?_, ?_, accounted.connected, accounted.apart⟩
    · show d.taken ≤ (d.sent ++ [request]).length
      have within := accounted.within
      rw [List.length_append]
      omega
    · cases ended : d.handler.ended with
      | true =>
        have clear := accounted.clear (idle_of_sends sends.sender)
        rw [Dialogue.owed, if_pos ended] at clear ⊢
        show d.line.replies.Sublist _
        rw [clear]
        exact List.nil_sublist _
      | false => exact (owed_sent accounted sends ended) ▸ List.Sublist.refl _
    · intro message waits
      rw [Option.toList_some, List.getLast?_concat, Option.bind_some, ← sends.waits]
      exact waits
  · rw [Option.toList_none, List.append_nil]
    have same : ({ d with client := c } : Dialogue).awaited = d.awaited := by rw [awaited, still]; rfl
    refine ⟨accounted.within, accounted.even, ?_, ?_, accounted.connected, accounted.apart⟩
    · rw [same]
      exact accounted.owed
    · intro message waits
      exact accounted.asked message (still ▸ waits)

theorem replies_sublist_awaited (accounted : d.Accounted) : d.line.replies.Sublist d.awaited := by
  refine List.Sublist.trans ?_ accounted.owed
  rw [Dialogue.owed]
  split_ifs
  · exact List.Sublist.refl _
  · exact Line.replies_sublist_owed replyTo d.line

/-- What the client reads is all there is, and the reply to the message it sent last. -/
theorem Accounted.next (accounted : d.Accounted) {message : Tagged Outgoing} {rest : List (Tagged Outgoing)}
    (queue : d.replies = message :: rest) : ∃ n, d.origins = [n] ∧ rest = [] ∧
      d.awaited = [(n, message.content)] ∧ d.client.phase.awaits = some message.content ∧
      n = d.sent.length - 1 := by
  have even := accounted.even
  rw [queue] at even
  obtain ⟨n, more, origins⟩ := List.exists_cons_of_length_pos (show 0 < d.origins.length by simp [even])
  have there := replies_sublist_awaited accounted
  simp only [line, origins, queue, List.map_cons, List.zip_cons_cons, awaited] at there
  cases waits : d.client.phase.awaits with
  | none => simp [waits] at there
  | some reply =>
    rw [waits] at there
    have single : (more.zip (rest.map (·.content))).length = 0 := by
      have le := there.length_le
      simp only [Option.map_some, Option.toList_some, List.length_cons, List.length_nil] at le
      omega
    have sizes : more.length = rest.length := by
      rw [origins, List.length_cons, List.length_cons] at even
      omega
    rw [List.length_zip, List.length_map, sizes, Nat.min_self, List.length_eq_zero_iff] at single
    subst single
    have none : more = [] := List.length_eq_zero_iff.mp sizes
    subst none
    have same := there.eq_of_length rfl
    cases same
    exact ⟨_, origins, rfl, by rw [awaited, waits]; rfl, rfl, rfl⟩

/-- The reply was written in the branch of the message that asks for it. -/
theorem Accounted.reads (accounted : d.Accounted) {message : Tagged Outgoing} {rest : List (Tagged Outgoing)}
    (queue : d.replies = message :: rest) : ∃ n, d.origins = [n] ∧ n + 1 = d.sent.length ∧
      (d.sent[n]?).bind replyTo = some message.content ∧ d.client.phase.awaits = some message.content := by
  obtain ⟨n, origins, _, _, waits, last⟩ := accounted.next queue
  have asked := accounted.asked _ waits
  rw [List.getLast?_eq_getElem?] at asked
  obtain ⟨request, there, _⟩ := Option.bind_eq_some_iff.mp asked
  have inside := (List.getElem?_eq_some_iff.mp there).1
  exact ⟨n, origins, by omega, last ▸ asked, waits⟩

/-- A message that asks for a reply is the last one sent when the handler takes it up. -/
theorem Accounted.heard {bytes : Text} {command : Command} {message : Outgoing} (accounted : d.Accounted)
    (takes : d.takes (.recv bytes) = some taken) (heard : d.handler.hears d.world (.recv bytes) = some command)
    (asks : command.reply = some message) : d.client.phase.awaits = some message ∧ d.sent.getLast? = some bytes ∧
      d.line.waiting replyTo ≠ [] ∧ ({ d.line with taken := taken } : Line Text Outgoing).waiting replyTo = [] := by
  obtain ⟨read, filled⟩ := commandOf_heard heard
  obtain ⟨next, rfl⟩ := (takes_recv takes).resolve_right fun empty => filled empty.1
  have answer : replyTo bytes = some message := by rw [replyTo, read, Option.bind_some, asks]
  have waiting := Line.waiting_take replyTo d.line next
  rw [answer, Option.map_some, Option.toList_some, List.singleton_append] at waiting
  have open_ : d.handler.ended = false := by rw [Handler.ended, (Handler.hears_recv heard).1]
  have there : (d.line.waiting replyTo).Sublist d.awaited := by
    refine List.Sublist.trans ?_ accounted.owed
    rw [owed_open open_, Line.owed]
    exact List.sublist_append_right _ _
  rw [waiting, awaited] at there
  cases waits : d.client.phase.awaits with
  | none => simp [waits] at there
  | some reply =>
    rw [waits, Option.map_some, Option.toList_some] at there
    have rest := List.length_eq_zero_iff.mp (Nat.le_zero.mp (Nat.le_of_succ_le_succ there.length_le))
    rw [rest] at there
    have same := there.eq_of_length rfl
    obtain ⟨number, reply_eq⟩ := Prod.mk.inj (List.cons.inj same).1
    refine ⟨by rw [reply_eq], ?_, by simp [waiting], rest⟩
    rw [List.getLast?_eq_getElem?, ← number]
    exact next

/-- A client that does not wait has nothing coming. -/
theorem Accounted.quiet (accounted : d.Accounted) (idle : d.client.phase.awaits = none) :
    d.handler.phase.owes = none ∧ d.replies = [] := by
  have clear := accounted.clear idle
  constructor
  · cases ended : d.handler.ended with
    | true =>
      unfold Handler.ended at ended
      cases atPhase : d.handler.phase <;> first | rfl | simp [atPhase] at ended
    | false =>
      rw [owed_open ended, Line.owed, List.append_eq_nil_iff, List.append_eq_nil_iff] at clear
      simpa [line] using clear.1.2
  · cases queue : d.replies with
    | nil => rfl
    | cons message rest =>
      obtain ⟨_, _, _, _, waits⟩ := accounted.reads queue
      simp [idle] at waits

/-- A client that gets nothing more stops waiting. -/
theorem Accounted.lost {c : Client} (accounted : d.Accounted) (queue : d.replies = []) (ended : d.handler.ended = true)
    (idle : c.phase.awaits = none) : ({ d with client := c } : Dialogue).Accounted := by
  refine ⟨accounted.within, accounted.even, ?_, by simp [idle], accounted.connected, accounted.apart⟩
  have nothing : ({ d with client := c } : Dialogue).owed = [] := by
    rw [Dialogue.owed, if_pos ended]
    show d.origins.zip (d.replies.map (·.content)) = []
    rw [queue, List.map_nil, List.zip_nil_right]
  rw [nothing]
  exact List.nil_sublist _

theorem Accounted.reply (accounted : d.Accounted) (stepped : d.step .reply = some d') : d'.Accounted := by
  rcases step_reply stepped with ⟨message, rest, buffer, c, queue, _, read, rfl⟩ | ⟨queue, ended, c, read, rfl⟩
  · obtain ⟨n, origins, rfl, awaited, _, _⟩ := accounted.next queue
    obtain ⟨_, idle⟩ := Client.receive_awaits read
    refine ⟨accounted.within, by simp [origins, replies, connection], ?_, by simp [idle], accounted.connected,
      accounted.apart⟩
    have first : d.line.replies = [(n, message.content)] := by simp [line, origins, queue]
    have after : ({ d with client := c, origins := d.origins.tail, world := { d.world with
        outbound := Function.update d.world.outbound d.connection [] } } : Dialogue).line =
        { d.line with replies := [] } := by simp [line, origins]
    rw [Dialogue.owed, after]
    cases ended : d.handler.ended with
    | true =>
      rw [if_pos rfl]
      exact List.nil_sublist _
    | false =>
      have all := accounted.owed
      rw [Dialogue.owed, if_neg (by simp [ended]), Line.owed_read replyTo d.line first, awaited] at all
      rw [if_neg (by decide), List.sublist_nil.mp (List.cons_sublist_cons.mp all)]
      exact List.nil_sublist _
  · exact accounted.lost queue ended (Client.receive_awaits read).2

theorem Accounted.replyFails (accounted : d.Accounted) (stepped : d.step .replyFails = some d') :
    d'.Accounted := by
  obtain ⟨queue, ended, c, read, rfl⟩ := step_replyFails stepped
  exact accounted.lost queue ended (Client.receive_awaits read).2

theorem Accounted.others {w : Shared} (accounted : d.Accounted) (private_ : d.Private (.others w)) :
    ({ d with world := w } : Dialogue).Accounted := by
  obtain ⟨queue, table⟩ := private_
  have same : ({ d with world := w } : Dialogue).line = d.line := by
    simp only [line, replies, connection]
    rw [show w.outbound (.client d.session) = d.world.outbound (.client d.session) from queue]
  refine ⟨accounted.within, ?_, ?_, accounted.asked, ?_, ?_⟩
  · exact accounted.even.trans (congrArg List.length queue.symm)
  · rw [Dialogue.owed, same]
    exact accounted.owed
  · exact fun open_ => (table open_).1.trans (accounted.connected open_)
  · exact fun open_ there => accounted.apart open_ ((table open_).2.symm.trans there)

theorem Accounted.step {e : DialogueEvent} (accounted : d.Accounted) (private_ : d.Private e)
    (stepped : d.step e = some d') : d'.Accounted := by
  cases e with
  | client => exact accounted.client stepped
  | reply => exact accounted.reply stepped
  | replyFails => exact accounted.replyFails stepped
  | gathered =>
    cases Option.some.inj stepped
    exact ⟨accounted.within, accounted.even, accounted.owed, accounted.asked, accounted.connected, accounted.apart⟩
  | handler => exact accounted.handler private_ stepped
  | others w =>
    cases Option.some.inj stepped
    exact accounted.others private_

theorem accounted_opened {i n : Nat} {w : Shared} (fresh : Fresh i n w) : (opened i n w).Accounted where
  within := le_rfl
  even := (congrArg List.length fresh.quiet).symm
  owed := List.nil_sublist _
  asked := by simp [opened, ClientPhase.awaits]
  connected _ := fresh.accepted
  apart _ := by
    have nowhere : w.endpoint (-1) = none := rfl
    simp [opened, nowhere]

/-- The steps of a run, the latest first. -/
abbrev Past := List (Dialogue × DialogueEvent)

/-- What is owed is accounted for on every run on which the connection is private. -/
theorem accounted {i n : Nat} {w : Shared} {past : Past} (fresh : Fresh i n w)
    (run : Trail step (opened i n w) past d) (private_ : Throughout (fun _ => Private) past) : d.Accounted := by
  refine run.invariant_of_allowed (fun _ => Accounted) (accounted_opened fresh) ?_ private_
  intro past d e d' _ accounted private_ stepped
  exact accounted.step private_ stepped

end Dialogue

/-- A server that has accepted its first session. -/
def justAccepted : Shared :=
  { descriptors := [some .standard, some .standard, some .standard, some .listening, some (.client 0)] }

/-- The client sends CLIENT, and the handler connects to it. -/
def clientConnects : List DialogueEvent :=
  [.client (.start "127.0.0.1".toList 9000), .handler (.recv (clientFrame "CLIENT 127.0.0.1 9000")),
    .handler (.socket true), .handler (.connect true), .handler .greet]

end Signaling
