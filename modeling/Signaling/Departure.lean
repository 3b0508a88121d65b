import Signaling.FlagAgreement
import Signaling.ReplyMatching

namespace Signaling
open Machine CText RequestReply

/-- The username that the branch of a command leaves in the handler's variable. -/
def Command.username : Command → Option Text
  | .signup username _ | .login username _ => some username
  | _ => none

/-- `exit_user` has come back from its `logout_user`, or was called before any name was typed. -/
def ClientPhase.parting : ClientPhase → Bool
  | .exiting | .leaving | .left | .closed => true
  | _ => false

section Client
variable {c c' : Client} {choice : Choice} {message : Option Text}

/-- A connected client goes from the menu to its EXIT only when no name has been typed. -/
theorem Client.openMenu_parting (on : c.running = true) (connected : c.serverDisconnected = false)
    (atMenu : c.phase = .menu) (done : c.openMenu choice = some (c', message)) (parting : c'.phase.parting = true) :
    c'.username = none ∧ c'.isLogin = c.isLogin := by
  unfold openMenu at done
  rw [if_neg (by simp [on, connected])] at done
  have out {fromExit : Bool} {request : Text} (sent : c.logoutUser fromExit = some (c', request)) :
      c'.phase.parting = false := by
    obtain ⟨_, _, same⟩ := Option.map_eq_some_iff.mp sent
    cases same
    rfl
  cases choice with
  | signUpLogin =>
    obtain ⟨request, rfl, sent⟩ := sent_of_map done
    obtain ⟨_, _, same⟩ := Option.map_eq_some_iff.mp sent
    cases same
    simp [ClientPhase.parting] at parting
  | call =>
    dsimp only at done
    split_ifs at done with login
    · obtain ⟨request, rfl, sent⟩ := sent_of_map done
      obtain ⟨_, _, same⟩ := Option.map_eq_some_iff.mp sent
      cases same
      simp [atMenu, ClientPhase.parting] at parting
    · cases Option.some.inj done
      simp [atMenu, ClientPhase.parting] at parting
  | logout =>
    obtain ⟨request, rfl, sent⟩ := sent_of_map done
    simp [out sent] at parting
  | exit =>
    obtain ⟨request, rfl, sent⟩ := sent_of_map done
    rw [exitUser] at sent
    split_ifs at sent with named
    · simp [out sent] at parting
    · obtain ⟨_, _, same⟩ := Option.map_eq_some_iff.mp sent
      cases same
      exact ⟨Option.not_isSome_iff_eq_none.mp named, rfl⟩
  | other =>
    cases Option.some.inj done
    simp [atMenu, ClientPhase.parting] at parting

end Client

/-- Back from a function of the menu, on a connection that is not lost. -/
theorem Client.back_connected {c : Client} (connected : c.serverDisconnected = false) : c.back.phase = .menu := by
  simp [back, goto, connected]

theorem Handler.Moved.username_or {i : Nat} {h h' : Handler} {w w' : Shared} {a : Action}
    (moved : h.Moved i w a h' w') : h'.username = ((h.hears w a).bind Command.username).getD h.username := by
  cases moved with
  | hangup _ heard | client _ heard | signup _ heard | login _ heard | call _ heard | refuse _ heard
  | logout _ heard | exit _ heard | ignored _ heard => rw [heard]; rfl
  | _ => rfl

/-- The reply that a waiting client reads is not empty. -/
theorem awaited_filled {phase : ClientPhase} {message : Outgoing} (waits : phase.awaits = some message) :
    received (message.frame.take socketBufferSize) ≠ some [] := by
  cases phase with
  | signing signUp =>
    cases Option.some.inj waits
    exact reply_filled signUp
  | loggingOut => cases Option.some.inj waits; decide +kernel
  | leaving => cases Option.some.inj waits; decide +kernel
  | starting | menu | exiting | left | closed => simp [ClientPhase.awaits] at waits

namespace Dialogue

/-- The store's key for the name that the client has typed. -/
def key (d : Dialogue) : Text := ofBuffer (typed d.client.username)

/-- The other sessions leave the record of the name alone. -/
def Spares (name : Text) (d : Dialogue) : DialogueEvent → Prop
  | .others w => w.userStore.users name = d.world.userStore.users name
  | _ => True

instance (name : Text) (d : Dialogue) (e : DialogueEvent) : Decidable (Spares name d e) := by
  unfold Spares
  cases_type* DialogueEvent <;> infer_instance

/-- The handler knows the name that the client has typed from the branch of its SIGNUP or LOGIN on, and a client
that has come out of `logout_user` in `exit_user` takes itself for logged out. -/
structure Departing (d : Dialogue) : Prop where
  served : d.Served
  connected : d.client.serverDisconnected = false
  blank : d.client.username = none → d.client.isLogin = false
  request : ∀ signUp, d.client.phase = .signing signUp → ∃ username password : Word,
    d.client.username = some username ∧
      copied (registerRequest signUp username.text password.text) = d.sent.getLast?
  named : d.handler.username = d.key ∨
    (∃ signUp, d.client.phase = .signing signUp) ∧ d.line.waiting replyTo ≠ []
  parting : d.client.phase.parting = true → d.client.isLogin = false

/-- The LOGOUT that a client waits for clears the name's flag if that is the name typed last, and the flag is clear
as long as the client goes on to leave. -/
structure Cleared (name : Text) (d : Dialogue) : Prop where
  loggedOut : ∀ fromExit, d.client.phase = .loggingOut fromExit → d.line.waiting replyTo = [] → d.key = name →
    d.world.userStore.isLogin name = some false
  parting : d.client.phase.parting = true → d.client.username ≠ none → d.key = name →
    d.world.userStore.isLogin name = some false

variable {d d' : Dialogue}

/-- A reply under way is all that the client has to come. -/
theorem Served.nothing_left (served : d.Served) {message : Tagged Outgoing} {rest : List (Tagged Outgoing)}
    (queue : d.replies = message :: rest) : d.line.waiting replyTo = [] := by
  cases ended : d.handler.ended with
  | true =>
    refine (served.outside ?_).1
    unfold Handler.ended at ended
    cases atPhase : d.handler.phase <;> first | rfl | simp [atPhase] at ended
  | false =>
    obtain ⟨n, origins, _⟩ := served.accounted.next queue
    have all := congrArg List.length served.all
    have first : d.line.replies = [(n, message.content)] := by simp [line, origins, queue]
    have one : d.awaited.length ≤ 1 := by rw [awaited]; cases d.client.phase.awaits <;> simp
    rw [owed_open ended, Line.owed, first, List.length_append, List.length_append] at all
    simp only [List.length_cons, List.length_nil] at all
    exact List.length_eq_zero_iff.mp (by omega)

theorem Departing.atMenu (served : d.Served) (connected : d.client.serverDisconnected = false)
    (blank : d.client.username = none → d.client.isLogin = false) (named : d.handler.username = d.key)
    (menu : d.client.phase = .menu) : d.Departing :=
  ⟨served, connected, blank, by simp [menu], Or.inl named, by simp [menu, ClientPhase.parting]⟩

/-- The flag is of no concern to a client that neither logs out nor leaves. -/
theorem Cleared.busy {name : Text} (busy : ∀ fromExit, d.client.phase ≠ .loggingOut fromExit)
    (stays : d.client.phase.parting = false) : d.Cleared name :=
  ⟨fun fromExit atPhase => absurd atPhase (busy fromExit), fun parting => absurd parting (by simp [stays])⟩

theorem Cleared.atMenu {name : Text} (menu : d.client.phase = .menu) : d.Cleared name :=
  .busy (by simp [menu]) (by simp [menu, ClientPhase.parting])

/-- A client's request goes on waiting while the handler does something else. -/
theorem Served.still_waiting {a : Action} {h' : Handler} {w' : Shared} {taken : Nat} (served : d.Served)
    (after : (d.handled taken h' w').Served) (private_ : d.Private (.handler a)) (takes : d.takes a = some taken)
    (moved : d.handler.Moved d.session d.world a h' w') (silent : (d.handler.hears d.world a).bind Command.reply = none)
    (waiting : d.line.waiting replyTo ≠ []) : (d.handled taken h' w').line.waiting replyTo ≠ [] := by
  have accounted := served.accounted
  have open_ : d.handler.ended = false := by
    by_contra ended
    refine waiting (served.outside ?_).1
    rw [Bool.not_eq_false, Handler.ended] at ended
    cases atPhase : d.handler.phase <;> first | rfl | simp [atPhase] at ended
  -- the client waits for one reply, and it is this one
  have all := congrArg List.length served.all
  have one : d.awaited.length ≤ 1 := by rw [awaited]; cases d.client.phase.awaits <;> simp
  have some := List.length_pos_of_ne_nil waiting
  rw [owed_open open_, Line.owed, List.length_append, List.length_append] at all
  have none : d.line.replies = [] := List.length_eq_zero_iff.mp (by omega)
  have quiet : d.handler.phase.owes = .none := by
    cases busy : d.line.writing with
    | none => exact busy
    | some => simp only [busy, Option.map_some, Option.toList_some, List.length_singleton] at all; omega
  have next : (d.handled taken h' w').line.replies = [] ∧ (d.handled taken h' w').line.writing = .none := by
    rcases moved.onConnection accounted.connected accounted.apart (invited private_) with
      ⟨_, rfl, same, _, owes⟩ | ⟨_, _, busy, _⟩ | ⟨_, same, idle, _⟩
    · rw [line_handled same]
      exact ⟨none, owes.trans silent⟩
    · simp [quiet] at busy
    · rw [line_handled same]
      exact ⟨none, idle⟩
  intro nothing
  have owed : (d.handled taken h' w').owed = [] := by
    rw [Dialogue.owed]
    split_ifs
    · exact next.1
    · rw [Line.owed, next.1, next.2, nothing]
      rfl
  have awaited : d.awaited = [] := after.all.symm.trans owed
  rw [awaited, List.length_nil] at all
  omega

/-- A request that asks for a reply waits until the handler takes it. -/
theorem waiting_sent {c : Client} {a : ClientAction} {request : Text} (within : d.taken ≤ d.sent.length)
    (acted : d.client.Acted a c (some request)) (asks : c.phase.awaits ≠ none) :
    ({ d with client := c, sent := d.sent ++ [request] } : Dialogue).line.waiting replyTo ≠ [] := by
  obtain ⟨_, same, sends⟩ := acted.sends.resolve_right fun silent => by simp at silent
  cases same
  intro nothing
  have added := Line.waiting_send replyTo d.line request within
  rw [show ({ d.line with sent := d.line.sent ++ [request] } : Line Text Outgoing).waiting replyTo = [] from nothing,
    ← sends.waits] at added
  cases waits : c.phase.awaits with
  | none => exact asks waits
  | some => simp [waits] at added

/-- At the menu a client that is connected has not been told to stop. -/
theorem Departing.on (departing : d.Departing) (atMenu : d.client.phase = .menu) : d.client.running = true := by
  by_contra off
  rcases departing.served.stopped (Bool.not_eq_true _ ▸ off) with atPhase | atPhase <;> simp [atMenu] at atPhase

theorem Departing.client {a : ClientAction} (departing : d.Departing) (calm : d.Calm (.client a))
    (stepped : d.step (.client a) = some d') : d'.Departing := by
  have served := departing.served.step calm stepped
  have other : a ≠ .interrupt := by
    rintro rfl
    exact calm.2
  obtain ⟨⟨c, message⟩, done, same⟩ := Option.map_eq_some_iff.mp stepped
  have acted := Client.act_acted done
  replace same : { d with client := c, sent := d.sent ++ message.toList } = d' := same
  subst same
  have named (idle : ∀ signUp, d.client.phase ≠ .signing signUp) : d.handler.username = d.key :=
    departing.named.resolve_right fun signs => signs.1.elim idle
  cases acted with
  | interrupt => exact absurd rfl other
  | start atPhase =>
    exact .atMenu served departing.connected departing.blank (named (by simp [atPhase])) rfl
  | call atMenu | stay atMenu =>
    exact .atMenu served departing.connected departing.blank (named (by simp [atMenu])) atMenu
  | signUpLogin _ _ sent =>
    refine ⟨served, departing.connected, by simp, ?_, Or.inr ⟨⟨_, rfl⟩, ?_⟩, by simp [ClientPhase.parting]⟩
    · rintro signUp atPhase
      cases atPhase
      exact ⟨_, _, rfl, sent.trans List.getLast?_concat.symm⟩
    · exact waiting_sent departing.served.accounted.within (Client.act_acted done) (by simp [ClientPhase.awaits])
  | logout atMenu =>
    exact ⟨served, departing.connected, departing.blank, by simp [Client.goto], Or.inl (named (by simp [atMenu])),
      by simp [Client.goto, ClientPhase.parting]⟩
  | leave atMenu =>
    obtain ⟨nameless, login⟩ := Client.openMenu_parting (departing.on atMenu) departing.connected atMenu
      (by simpa [Client.act, atMenu] using done) rfl
    exact ⟨served, departing.connected, departing.blank, by simp [Client.goto], Or.inl (named (by simp [atMenu])),
      fun _ => departing.blank nameless⟩
  | sendExit atPhase =>
    have idle : ∀ signUp, d.client.phase ≠ .signing signUp := by
      rcases atPhase with ⟨atPhase, _⟩ | ⟨atPhase, _⟩ <;> simp [atPhase]
    refine ⟨served, departing.connected, departing.blank, by simp [Client.goto], Or.inl (named idle), fun _ => ?_⟩
    rcases atPhase with ⟨atMenu, rfl⟩ | ⟨atPhase, _⟩
    · obtain ⟨nameless, _⟩ := Client.openMenu_parting (departing.on atMenu) departing.connected atMenu
        (by simpa [Client.act, atMenu] using done) rfl
      exact departing.blank nameless
    · exact departing.parting (by rw [atPhase]; rfl)
  | close atPhase =>
    exact ⟨served, departing.connected, departing.blank, by simp [Client.goto],
      Or.inl (named (by simp [atPhase])), fun _ => departing.parting (by rw [atPhase]; rfl)⟩

theorem Cleared.client {name : Text} {a : ClientAction} (cleared : d.Cleared name) (departing : d.Departing)
    (calm : d.Calm (.client a)) (stepped : d.step (.client a) = some d') : d'.Cleared name := by
  have other : a ≠ .interrupt := by
    rintro rfl
    exact calm.2
  obtain ⟨⟨c, message⟩, done, same⟩ := Option.map_eq_some_iff.mp stepped
  have acted := Client.act_acted done
  replace same : { d with client := c, sent := d.sent ++ message.toList } = d' := same
  subst same
  cases acted with
  | interrupt => exact absurd rfl other
  | start => exact .busy (by simp [Client.goto]) rfl
  | call atMenu | stay atMenu => exact .atMenu atMenu
  | signUpLogin => exact .busy (by simp) rfl
  | logout =>
    refine ⟨fun _ _ nothing => absurd nothing ?_, by simp [Client.goto, ClientPhase.parting]⟩
    exact waiting_sent departing.served.accounted.within (Client.act_acted done) (by simp [Client.goto, ClientPhase.awaits])
  | leave atMenu =>
    have nameless := (Client.openMenu_parting (departing.on atMenu) departing.connected atMenu
      (by simpa [Client.act, atMenu] using done) rfl).1
    exact ⟨by simp [Client.goto], fun _ some => absurd nameless some⟩
  | sendExit atPhase =>
    refine ⟨by simp [Client.goto], fun _ some same => ?_⟩
    rcases atPhase with ⟨atMenu, rfl⟩ | ⟨atPhase, _⟩
    · have nameless := (Client.openMenu_parting (departing.on atMenu) departing.connected atMenu
        (by simpa [Client.act, atMenu] using done) rfl).1
      exact absurd nameless some
    · exact cleared.parting (by rw [atPhase]; rfl) some same
  | close atPhase => exact ⟨by simp [Client.goto], fun _ => cleared.parting (by rw [atPhase]; rfl)⟩

/-- The step of the handler that serves what the client waits for. -/
theorem Departing.serves {bytes : Text} {command : Command} {w' : Shared} (departing : d.Departing)
    (waits : d.client.phase.awaits.isSome = true) (heard : d.handler.hears d.world (.recv bytes) = some command)
    (last : d.sent.getLast? = some bytes) (effect : w'.userStore =
      (command.storeCall d.session d.handler d.world.userStore).elim d.world.userStore (·.apply d.world.userStore)) :
    (command.username.getD d.handler.username) = d.key ∧
      ((∃ fromExit, d.client.phase = .loggingOut fromExit) → w'.userStore.isLogin d.key = some false) ∧
      (d.client.phase = .leaving → w'.userStore = d.world.userStore) := by
  obtain ⟨asked, waiting⟩ := Option.isSome_iff_exists.mp waits
  have answer : command.reply = some asked := by
    have replied := departing.served.accounted.asked asked waiting
    rw [last, Option.bind_some, replyTo, (commandOf_heard heard).1, Option.bind_some] at replied
    exact replied
  have idle (other : ∀ signUp, d.client.phase ≠ .signing signUp) : d.handler.username = d.key :=
    departing.named.resolve_right fun signs => signs.1.elim other
  cases atPhase : d.client.phase with
  | signing signUp =>
    obtain ⟨username, password, name, request⟩ := departing.request signUp atPhase
    have sent := commandOf_register (request.trans last)
    have command_eq := Option.some.inj ((commandOf_heard heard).1.symm.trans sent)
    have key : d.key = ofBuffer username.text := by rw [key, name]; rfl
    refine ⟨?_, by simp, by simp⟩
    rw [command_eq, key]
    cases signUp <;> rfl
  | loggingOut fromExit =>
    rw [atPhase] at waiting
    cases Option.some.inj waiting
    have out : command = .logout := by cases command <;> first | rfl | simp [Command.reply] at answer
    subst out
    have same := idle (by simp [atPhase])
    refine ⟨same, fun _ => ?_, by simp⟩
    rw [effect, ← same]
    show (d.world.userStore.logOutUser d.handler.username).isLogin d.handler.username = some false
    rw [UserStore.isLogin_logOutUser, if_pos rfl]
  | leaving =>
    rw [atPhase] at waiting
    cases Option.some.inj waiting
    have out : command = .exit := by cases command <;> first | rfl | simp [Command.reply] at answer
    subst out
    exact ⟨idle (by simp [atPhase]), by simp, fun _ => effect⟩
  | starting | menu | exiting | left | closed => simp [atPhase, ClientPhase.awaits] at waiting

theorem Departing.handler {a : Action} (departing : d.Departing) (calm : d.Calm (.handler a))
    (stepped : d.step (.handler a) = some d') : d'.Departing := by
  have served := departing.served.step calm stepped
  obtain ⟨taken, h', w', takes, run, same⟩ := step_handler stepped
  subst same
  have moved := Handler.step_moved run
  have named : h'.username = d.key ∨
      (∃ signUp, d.client.phase = .signing signUp) ∧ (d.handled taken h' w').line.waiting replyTo ≠ [] := by
    rcases departing.served.accounted.store_handler takes moved with
      ⟨silent, _⟩ | ⟨bytes, command, rfl, waits, heard, last, _, _, effect⟩
    · have username : h'.username = d.handler.username := by
        rw [moved.username_or]
        cases heard : d.handler.hears d.world a with
        | none => rfl
        | some command =>
          rw [heard] at silent
          cases command <;> first | rfl | simp [Command.reply] at silent
      refine departing.named.imp username.trans fun signs => ⟨signs.1, ?_⟩
      exact departing.served.still_waiting served calm.1 takes moved silent signs.2
    · refine Or.inl ?_
      rw [moved.username_or, heard]
      exact (departing.serves waits heard last effect).1
  exact ⟨served, departing.connected, departing.blank, departing.request, named, departing.parting⟩

theorem Cleared.handler {name : Text} {a : Action} (cleared : d.Cleared name) (departing : d.Departing)
    (calm : d.Calm (.handler a)) (stepped : d.step (.handler a) = some d') : d'.Cleared name := by
  have served := departing.served.step calm stepped
  obtain ⟨taken, h', w', takes, run, same⟩ := step_handler stepped
  subst same
  have moved := Handler.step_moved run
  rcases departing.served.accounted.store_handler takes moved with
    ⟨silent, same⟩ | ⟨bytes, command, rfl, waits, heard, last, _, _, effect⟩
  · have flag : w'.userStore.isLogin name = d.world.userStore.isLogin name := by rw [same]
    refine ⟨fun fromExit atPhase nothing key => ?_, fun parting some key => ?_⟩
    · refine flag.trans (cleared.loggedOut fromExit atPhase ?_ key)
      by_contra waiting
      exact departing.served.still_waiting served calm.1 takes moved silent waiting nothing
    · exact flag.trans (cleared.parting parting some key)
  · obtain ⟨_, out, leaves⟩ := departing.serves waits heard last effect
    refine ⟨fun fromExit atPhase _ key => key ▸ out ⟨fromExit, atPhase⟩, fun parting some key => ?_⟩
    have leaving : d.client.phase = .leaving := by
      replace parting : d.client.phase.parting = true := parting
      cases atPhase : d.client.phase <;>
        first | rfl | simp [atPhase, ClientPhase.parting, ClientPhase.awaits] at parting waits
    rw [handled, leaves leaving]
    exact cleared.parting parting some key

/-- What the client reads is the reply to its last message, and not empty. -/
theorem Departing.reads (departing : d.Departing) (stepped : d.step .reply = some d') :
    ∃ c buffer rest, d.client.Received (some buffer) c ∧ buffer ≠ [] ∧ d.line.waiting replyTo = [] ∧
      { d with client := c, origins := d.origins.tail, world := { d.world with
        outbound := Function.update d.world.outbound d.connection rest } } = d' := by
  rcases step_reply stepped with ⟨message, rest, buffer, c, queue, read, taken, rfl⟩ | ⟨queue, ended, c, taken, _⟩
  · obtain ⟨_, _, _, _, waits⟩ := departing.served.accounted.reads queue
    refine ⟨c, buffer, rest, Client.receive_received taken, ?_, departing.served.nothing_left queue, rfl⟩
    rintro rfl
    exact awaited_filled waits read
  · have waits := (Client.receive_awaits taken).1
    simp [departing.served.not_lost queue ended] at waits

theorem Departing.reply (departing : d.Departing) (calm : d.Calm .reply)
    (stepped : d.step .reply = some d') : d'.Departing := by
  have served := departing.served.step calm stepped
  obtain ⟨c, buffer, rest, read, filled, nothing, rfl⟩ := departing.reads stepped
  have lost : (d.client.serverDisconnected || decide (some buffer = some [])) = false := by
    simp [departing.connected, filled]
  have username : d.handler.username = d.key := departing.named.resolve_right fun signs => signs.2 nothing
  cases read with
  | @signed signUp _ atPhase =>
    obtain ⟨name, _, typed, _⟩ := departing.request signUp atPhase
    exact .atMenu served lost (fun none => absurd (none.symm.trans typed) (by simp)) username (Client.back_connected lost)
  | @loggedOut fromExit _ next atPhase same =>
    subst same
    cases fromExit with
    | true => exact ⟨served, lost, fun _ => rfl, by simp [Client.goto], Or.inl username, fun _ => rfl⟩
    | false => exact .atMenu served lost (fun _ => rfl) username (Client.back_connected lost)
  | leave atPhase =>
    exact ⟨served, lost, departing.blank, by simp, Or.inl username, fun _ => departing.parting (by rw [atPhase]; rfl)⟩

theorem Cleared.reply {name : Text} (cleared : d.Cleared name) (departing : d.Departing)
    (stepped : d.step .reply = some d') : d'.Cleared name := by
  obtain ⟨c, buffer, rest, read, filled, nothing, rfl⟩ := departing.reads stepped
  have lost : (d.client.serverDisconnected || decide (some buffer = some [])) = false := by
    simp [departing.connected, filled]
  cases read with
  | signed => exact .atMenu (Client.back_connected lost)
  | @loggedOut fromExit _ next atPhase same =>
    subst same
    cases fromExit with
    | true => exact ⟨by simp [Client.goto], fun _ _ key => cleared.loggedOut true atPhase nothing key⟩
    | false => exact .atMenu (Client.back_connected lost)
  | leave atPhase => exact ⟨by simp, fun _ => cleared.parting (by rw [atPhase]; rfl)⟩

/-- The other sessions do not write to the connection. -/
theorem line_others {w : Shared} (private_ : d.Private (.others w)) : ({ d with world := w } : Dialogue).line = d.line := by
  simp only [Dialogue.line, replies, connection]
  rw [show w.outbound (.client d.session) = d.world.outbound (.client d.session) from private_.1]

theorem Departing.step {e : DialogueEvent} (departing : d.Departing) (calm : d.Calm e)
    (stepped : d.step e = some d') : d'.Departing := by
  have served := departing.served.step calm stepped
  cases e with
  | client => exact departing.client calm stepped
  | reply => exact departing.reply calm stepped
  | replyFails =>
    obtain ⟨queue, ended, c, read, _⟩ := step_replyFails stepped
    have waits := (Client.receive_awaits read).1
    simp [departing.served.not_lost queue ended] at waits
  | gathered =>
    cases Option.some.inj stepped
    exact ⟨served, departing.connected, departing.blank, departing.request, departing.named, departing.parting⟩
  | handler => exact departing.handler calm stepped
  | others w =>
    cases Option.some.inj stepped
    refine ⟨served, departing.connected, departing.blank, departing.request, ?_, departing.parting⟩
    rw [line_others calm.1]
    exact departing.named

theorem Cleared.step {name : Text} {e : DialogueEvent} (cleared : d.Cleared name) (departing : d.Departing)
    (calm : d.Calm e) (spares : Spares name d e) (stepped : d.step e = some d') : d'.Cleared name := by
  cases e with
  | client => exact cleared.client departing calm stepped
  | reply => exact cleared.reply departing stepped
  | replyFails =>
    obtain ⟨queue, ended, c, read, _⟩ := step_replyFails stepped
    have waits := (Client.receive_awaits read).1
    simp [departing.served.not_lost queue ended] at waits
  | gathered =>
    cases Option.some.inj stepped
    exact ⟨cleared.loggedOut, cleared.parting⟩
  | handler => exact cleared.handler departing calm stepped
  | others w =>
    cases Option.some.inj stepped
    have flag : w.userStore.isLogin name = d.world.userStore.isLogin name := isLogin_congr spares
    refine ⟨fun fromExit atPhase nothing key => ?_, fun parting some key => flag.trans (cleared.parting parting some key)⟩
    exact flag.trans (cleared.loggedOut fromExit atPhase (line_others calm.1 ▸ nothing) key)

section Runs
variable {i n : Nat} {w : Shared} {past : Past}

theorem departing_of_run (fresh : Fresh i n w) (on : w.running = true) (run : Trail step (opened i n w) past d)
    (calm : Throughout (fun _ => Calm) past) : d.Departing := by
  refine run.invariant_of_allowed (fun _ => Departing) ?_ ?_ calm
  · exact ⟨served_opened fresh on, rfl, fun _ => rfl, by simp [opened], Or.inl rfl, by simp [opened, ClientPhase.parting]⟩
  · intro past d e d' _ departing calm stepped
    exact departing.step calm stepped

theorem cleared_of_run {name : Text} (fresh : Fresh i n w) (on : w.running = true)
    (run : Trail step (opened i n w) past d) (calm : Throughout (fun _ => Calm) past)
    (spares : Throughout (fun _ => Spares name) past) : d.Departing ∧ d.Cleared name := by
  refine run.invariant_of_allowed (fun _ d => d.Departing ∧ d.Cleared name) ?_ ?_ (calm.and spares)
  · exact ⟨departing_of_run fresh on .start trivial, .busy (by simp [opened]) (by simp [opened, ClientPhase.parting])⟩
  · intro past d e d' _ both allowed stepped
    exact ⟨both.1.step allowed.1 stepped, both.2.step both.1 allowed.1 allowed.2 stepped⟩

/-- A client that has left the menu of its own accord has logged out: its own flag is clear, the handler knows the
name it typed last, and that name's flag is clear unless another session has touched its record. -/
theorem departed_logged_out (fresh : Fresh i n w) (on : w.running = true) (run : Trail step (opened i n w) past d)
    (calm : Throughout (fun _ => Calm) past) (left : d.client.phase = .left ∨ d.client.phase = .closed) :
    d.client.isLogin = false ∧ d.handler.username = d.key ∧
      (Throughout (fun _ => Spares d.key) past → d.client.username ≠ none →
        d.world.userStore.isLogin d.key = some false) := by
  have departing := departing_of_run fresh on run calm
  have parting : d.client.phase.parting = true := by rcases left with atPhase | atPhase <;> rw [atPhase] <;> rfl
  have idle : ∀ signUp, d.client.phase ≠ .signing signUp := by
    rcases left with atPhase | atPhase <;> simp [atPhase]
  refine ⟨departing.parting parting, departing.named.resolve_right fun signs => signs.1.elim idle, ?_⟩
  exact fun spares named => (cleared_of_run fresh on run calm spares).2.parting parting named rfl

end Runs

end Dialogue

/-- bob signs up, logs in, and leaves through option 5. -/
def logInAndLeave : List DialogueEvent :=
  clientConnects ++ [.client (.choose (.signUpLogin true bob pw)), .handler (.recv (clientFrame "SIGNUP bob pw")),
    .handler .reply, .reply, .client (.choose (.signUpLogin false bob pw)),
    .handler (.recv (clientFrame "LOGIN bob pw")), .handler .reply, .reply, .client (.choose .exit),
    .handler (.recv (clientFrame "LOGOUT bob")), .handler .reply, .reply, .client .exit,
    .handler (.recv (clientFrame "EXIT EXIT")), .handler (.exitReply true), .reply]

theorem bob_departed : ∃ past d,
    execute Dialogue.step [] (Dialogue.opened 0 4 justAccepted) logInAndLeave = some (past, d) ∧
      d.client.isLogin = false ∧ d.handler.username = d.key ∧ d.world.userStore.isLogin d.key = some false := by
  have ran : (execute Dialogue.step [] (Dialogue.opened 0 4 justAccepted) logInAndLeave).any (fun r =>
      decide (r.2.client.username ≠ none ∧ r.2.client.phase = .left ∧ Throughout (fun _ => Dialogue.Calm) r.1 ∧
        Throughout (fun _ => Dialogue.Spares r.2.key) r.1)) = true := by
    decide +kernel
  obtain ⟨past, d, done, checked⟩ := execute_check _ ran
  obtain ⟨name, left, calm, spares⟩ := of_decide_eq_true checked
  obtain ⟨out, knows, cleared⟩ := Dialogue.departed_logged_out ⟨by decide, by decide⟩ (by decide) (execute_trail done)
    calm (Or.inl left)
  exact ⟨past, d, done, out, knows, cleared spares name⟩

end Signaling
