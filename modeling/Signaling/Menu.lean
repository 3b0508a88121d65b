import Signaling.Client

namespace Signaling
open Machine CText

/-- Where `open_menu` is: at `cin >> option`, in the `recv` of `sign_up_login_user` or `logout_user`, before the
`send` of EXIT in `exit_user` or in its `recv`, at its end, or in `exit(client_sock)`. -/
inductive MenuPhase
  | reading
  | signing (signUp : Bool)
  | loggingOut (fromExit : Bool)
  | exiting
  | leaving
  | returned
  | exited
  deriving DecidableEq, Repr

/-- The globals of `client.cpp` that `open_menu` and its functions use. -/
structure Menu where
  username : Text := []
  password : Text := []
  serverDisconnected : Bool := false
  running : Bool := true
  exitSelected : Bool := false
  localSdp : Text := []
  isLogin : Bool := false
  phase : MenuPhase := .reading
  deriving DecidableEq, Repr

/-- An `option` and what the strings that are read after it are then, of any length. -/
inductive Input
  | signUpLogin (signUp : Bool) (username password : Text)
  | call (peerUsername : Text)
  | logout
  | exit
  | other
  deriving DecidableEq, Repr

/-- What happens to `open_menu`. A `send` goes through or fails with nothing sent; SIGINT comes at any time, and
may be what makes a `send` or a `recv` fail. -/
inductive MenuEvent
  | choose (input : Input) (sent : Bool)
  | sendExit (sent : Bool)
  | reply (bytes : Text)
  | recvFails
  | interrupt
  | gathered (sdp : Text)
  deriving DecidableEq, Repr

namespace Menu

def goto (m : Menu) (phase : MenuPhase) : Menu := { m with phase := phase }

/-- What `open_menu` does after its `switch`. On option 5 the client sends itself SIGINT. -/
def afterSwitch (m : Menu) (exit : Bool) : Menu :=
  if m.serverDisconnected then m.goto .returned
  else if exit then { m with running := false, phase := .returned }
  else m.goto .reading

/-- What follows `logout_user`. -/
def afterLogout (m : Menu) (fromExit : Bool) : Menu := if fromExit then m.goto .exiting else m.afterSwitch false

def signUpLoginUser (m : Menu) (signUp : Bool) (username password : Text) (sent : Bool) :
    Option (Menu × Option Text) :=
  let m := { m with username := username, password := password }
  (copied (registerRequest signUp username password)).map fun message =>
    if sent then (m.goto (.signing signUp), some message) else (m.afterSwitch false, none)

def logoutUser (m : Menu) (fromExit sent : Bool) : Option (Menu × Option Text) :=
  (copied ("LOGOUT ".toList ++ m.username)).map fun message =>
    if sent then (m.goto (.loggingOut fromExit), some message) else (m.afterLogout fromExit, none)

/-- `exit_user` after its `logout_user`. -/
def sendExit (m : Menu) (sent : Bool) : Option (Menu × Option Text) :=
  (copied "EXIT EXIT".toList).map fun message =>
    if sent then (m.goto .leaving, some message) else (m.afterSwitch true, none)

def exitUser (m : Menu) (sent : Bool) : Option (Menu × Option Text) :=
  if m.username ≠ [] then m.logoutUser true sent else m.sendExit sent

/-- `cin >> peer_username` overruns the array with a word that leaves no room for the terminator. -/
def callPeer (m : Menu) (peerUsername : Text) (sent : Bool) : Option (Menu × Option Text) :=
  if fieldSize ≤ peerUsername.length then none
  else (printed ("CALL ".toList ++ ofBuffer peerUsername ++ ' ' :: ofBuffer m.localSdp)).map fun message =>
    (m.afterSwitch false, if sent then some message else none)

/-- `open_menu` from where it has read its input up to where it waits again, with the message it sends. -/
def openMenu (m : Menu) (input : Input) (sent : Bool) : Option (Menu × Option Text) :=
  if !m.running then some (m.goto (if m.exitSelected then .returned else .exited), none)
  else if m.serverDisconnected then some (m.goto .returned, none)
  else match input with
    | .signUpLogin signUp username password => m.signUpLoginUser signUp username password sent
    | .call peerUsername => if m.isLogin then m.callPeer peerUsername sent else some (m.afterSwitch false, none)
    | .logout => m.logoutUser false sent
    | .exit => m.exitUser sent
    | .other => some (m.afterSwitch false, none)

/-- What follows a `recv` with the string that it leaves in the buffer. -/
def receive (m : Menu) (buffer : Text) : Option Menu :=
  let lost := m.serverDisconnected || buffer = []
  match m.phase with
  | .signing _ =>
    some ({ m with serverDisconnected := lost, exitSelected := false, isLogin := true }.afterSwitch false)
  | .loggingOut fromExit => some ({ m with serverDisconnected := lost, isLogin := false }.afterLogout fromExit)
  | .leaving => some ({ m with serverDisconnected := lost, exitSelected := true }.afterSwitch true)
  | _ => none

/-- What follows a `recv` that fails. -/
def receiveFails (m : Menu) : Option Menu :=
  match m.phase with
  | .signing _ => some (m.afterSwitch false)
  | .loggingOut fromExit => some (m.afterLogout fromExit)
  | .leaving => some (m.afterSwitch true)
  | _ => none

/-- A step, with the message that it sends if it sends one. -/
def act (m : Menu) : MenuEvent → Option (Menu × Option Text)
  | .choose input sent => if m.phase = .reading then m.openMenu input sent else none
  | .sendExit sent => if m.phase = .exiting then m.sendExit sent else none
  | .reply bytes => (received bytes).bind fun buffer => (m.receive buffer).map (·, none)
  | .recvFails => m.receiveFails.map (·, none)
  | .interrupt => some ({ m with running := false }, none)
  | .gathered sdp => some ({ m with localSdp := sdp }, none)

def step (m : Menu) (e : MenuEvent) : Option Menu := (m.act e).map Prod.fst

/-- The input leads to `logout_user`, from option 4 or from `exit_user`. -/
def LogsOut (m : Menu) (input : Input) (fromExit : Bool) : Prop :=
  input = .logout ∧ fromExit = false ∨ input = .exit ∧ fromExit = true ∧ m.username ≠ []

/-- The event is the `send` of EXIT, with its outcome. -/
def Exits (m : Menu) (e : MenuEvent) (sent : Bool) : Prop :=
  m.phase = .reading ∧ m.running = true ∧ m.username = [] ∧ e = .choose .exit sent ∨
    m.phase = .exiting ∧ e = .sendExit sent

/-- The ways of `act`. -/
inductive Acted (m : Menu) : MenuEvent → Menu → Option Text → Prop
  | interrupted {input sent} : m.phase = .reading → m.running = false →
      Acted m (.choose input sent) (m.goto (if m.exitSelected then .returned else .exited)) none
  | lost {input sent} : m.phase = .reading → m.serverDisconnected = true →
      Acted m (.choose input sent) (m.goto .returned) none
  | signUpLogin {signUp username password sent message} : m.phase = .reading → m.running = true →
      copied (registerRequest signUp username password) = some message →
      Acted m (.choose (.signUpLogin signUp username password) sent)
        (if sent then { m with username := username, password := password, phase := .signing signUp }
          else { m with username := username, password := password }.afterSwitch false)
        (if sent then some message else none)
  | call {peerUsername sent message} : m.phase = .reading → m.running = true →
      printed ("CALL ".toList ++ (ofBuffer peerUsername ++ ' ' :: ofBuffer m.localSdp)) = some message →
      Acted m (.choose (.call peerUsername) sent) (m.afterSwitch false) (if sent then some message else none)
  | stay {input sent} : m.phase = .reading → m.running = true → input ≠ .exit →
      Acted m (.choose input sent) (m.afterSwitch false) none
  | logout {input fromExit sent message} : m.phase = .reading → m.running = true → m.LogsOut input fromExit →
      copied ("LOGOUT ".toList ++ m.username) = some message →
      Acted m (.choose input sent) (if sent then m.goto (.loggingOut fromExit) else m.afterLogout fromExit)
        (if sent then some message else none)
  | exit {e sent message} : m.Exits e sent → copied "EXIT EXIT".toList = some message →
      Acted m e (if sent then m.goto .leaving else m.afterSwitch true) (if sent then some message else none)
  | reply {bytes buffer m'} : received bytes = some buffer → m.receive buffer = some m' →
      Acted m (.reply bytes) m' none
  | recvFails {m'} : m.receiveFails = some m' → Acted m .recvFails m' none
  | interrupt : Acted m .interrupt { m with running := false } none
  | gathered {sdp} : Acted m (.gathered sdp) { m with localSdp := sdp } none

/-- Where `open_menu` goes on after a `recv`; `n` has the flags that were set. -/
inductive Resumed (m n : Menu) : Menu → Prop
  | signing {signUp} : m.phase = .signing signUp → Resumed m n (n.afterSwitch false)
  | loggingOut {fromExit} : m.phase = .loggingOut fromExit → Resumed m n (n.afterLogout fromExit)
  | leaving : m.phase = .leaving → Resumed m n (n.afterSwitch true)

section Steps
variable {m m' : Menu} {e : MenuEvent} {input : Input} {sent : Bool} {message : Option Text}

theorem logoutUser_acted {fromExit : Bool} (atMenu : m.phase = .reading) (running : m.running = true)
    (way : m.LogsOut input fromExit) (done : m.logoutUser fromExit sent = some (m', message)) :
    m.Acted (.choose input sent) m' message := by
  obtain ⟨request, copy, same⟩ := Option.map_eq_some_iff.mp done
  have acted := @Acted.logout m _ _ sent _ atMenu running way copy
  cases sent <;> cases same <;> exact acted

theorem sendExit_acted (way : m.Exits e sent) (done : m.sendExit sent = some (m', message)) :
    m.Acted e m' message := by
  obtain ⟨request, copy, same⟩ := Option.map_eq_some_iff.mp done
  have acted := @Acted.exit m _ sent _ way copy
  cases sent <;> cases same <;> exact acted

theorem openMenu_acted (atMenu : m.phase = .reading) (done : m.openMenu input sent = some (m', message)) :
    m.Acted (.choose input sent) m' message := by
  unfold openMenu at done
  cases running : m.running with
  | false =>
    rw [running, Bool.not_false, if_pos rfl] at done
    cases Option.some.inj done
    exact .interrupted atMenu running
  | true =>
    rw [running, Bool.not_true, if_neg (by simp)] at done
    by_cases lost : m.serverDisconnected = true
    · rw [if_pos lost] at done
      cases Option.some.inj done
      exact .lost atMenu lost
    rw [if_neg lost] at done
    cases input with
    | signUpLogin signUp username password =>
      obtain ⟨request, copy, same⟩ := Option.map_eq_some_iff.mp done
      have way := @Acted.signUpLogin m _ _ _ sent _ atMenu running copy
      cases sent <;> cases same <;> exact way
    | call peerUsername =>
      by_cases login : m.isLogin = true
      · dsimp only at done
        rw [if_pos login, callPeer] at done
        split at done
        · simp at done
        · obtain ⟨request, print, same⟩ := Option.map_eq_some_iff.mp done
          rw [List.append_assoc] at print
          cases same
          exact .call atMenu running print
      · dsimp only at done
        rw [if_neg login] at done
        cases Option.some.inj done
        exact .stay atMenu running (by simp)
    | logout => exact logoutUser_acted atMenu running (Or.inl ⟨rfl, rfl⟩) done
    | exit =>
      dsimp only [exitUser] at done
      split_ifs at done with named
      · exact logoutUser_acted atMenu running (Or.inr ⟨rfl, rfl, named⟩) done
      · exact sendExit_acted (Or.inl ⟨atMenu, running, not_not.mp named, rfl⟩) done
    | other =>
      cases Option.some.inj done
      exact .stay atMenu running (by simp)

theorem receive_resumed {buffer : Text} (done : m.receive buffer = some m') :
    ∃ n, n.username = m.username ∧ m.Resumed n m' := by
  unfold receive at done
  dsimp only at done
  split at done
  · rename_i atPhase
    cases Option.some.inj done
    refine ⟨_, ?_, .signing atPhase⟩
    rfl
  · rename_i atPhase
    cases Option.some.inj done
    refine ⟨_, ?_, .loggingOut atPhase⟩
    rfl
  · rename_i atPhase
    cases Option.some.inj done
    refine ⟨_, ?_, .leaving atPhase⟩
    rfl
  · simp at done

theorem receiveFails_resumed (done : m.receiveFails = some m') : m.Resumed m m' := by
  unfold receiveFails at done
  split at done
  · rename_i atPhase
    cases Option.some.inj done
    exact .signing atPhase
  · rename_i atPhase
    cases Option.some.inj done
    exact .loggingOut atPhase
  · rename_i atPhase
    cases Option.some.inj done
    exact .leaving atPhase
  · simp at done

theorem act_acted (done : m.act e = some (m', message)) : m.Acted e m' message := by
  cases e with
  | choose input sent =>
    rw [act] at done
    split_ifs at done with atMenu
    exact openMenu_acted atMenu done
  | sendExit sent =>
    rw [act] at done
    split_ifs at done with atPhase
    exact sendExit_acted (Or.inr ⟨atPhase, rfl⟩) done
  | reply bytes =>
    obtain ⟨buffer, read, taken⟩ := Option.bind_eq_some_iff.mp done
    obtain ⟨next, after, same⟩ := Option.map_eq_some_iff.mp taken
    cases same
    exact .reply read after
  | recvFails =>
    obtain ⟨next, after, same⟩ := Option.map_eq_some_iff.mp done
    cases same
    exact .recvFails after
  | interrupt =>
    cases Option.some.inj done
    exact .interrupt
  | gathered sdp =>
    cases Option.some.inj done
    exact .gathered

end Steps

end Menu

/-! The client of a dialogue, whose words fit the arrays of the server and whose sends go through, moves as the
menu does. -/

def MenuPhase.client : MenuPhase → ClientPhase
  | .reading => .menu
  | .signing signUp => .signing signUp
  | .loggingOut fromExit => .loggingOut fromExit
  | .exiting => .exiting
  | .leaving => .leaving
  | .returned | .exited => .left

def Client.menu (c : Client) (phase : MenuPhase) : Menu where
  username := typed c.username
  password := typed c.password
  serverDisconnected := c.serverDisconnected
  running := c.running
  exitSelected := c.exitSelected
  localSdp := c.localSdp
  isLogin := c.isLogin
  phase := phase

def Choice.input : Choice → Input
  | .signUpLogin signUp username password => .signUpLogin signUp username.text password.text
  | .call peerUsername => .call peerUsername.text
  | .logout => .logout
  | .exit => .exit
  | .other => .other

/-- The event of the menu for what the client does there. -/
def ClientAction.event : ClientAction → Option MenuEvent
  | .choose choice => some (.choose choice.input true)
  | .exit => some (.sendExit true)
  | .interrupt => some .interrupt
  | .start .. | .close => none

section Simulation
variable {c c' : Client} {phase : MenuPhase} {a : ClientAction} {e : MenuEvent} {message : Option Text}
  {choice : Choice}

@[simp] theorem Client.menu_serverDisconnected : (c.menu phase).serverDisconnected = c.serverDisconnected := rfl

theorem MenuPhase.client_inj {next : MenuPhase} (same : phase.client = next.client) (inside : next.client ≠ .left) :
    phase = next := by
  cases phase <;> cases next <;> simp_all [client]

theorem typed_ne_nil (word : Option Word) : typed word ≠ [] ↔ word.isSome = true := by
  cases word with
  | none => simp [typed]
  | some word => simp [typed, word.filled]

theorem Client.logoutUser_menu {fromExit : Bool} {request : Text}
    (done : c.logoutUser fromExit = some (c', request)) :
    c'.phase = .loggingOut fromExit ∧
      (c.menu phase).logoutUser fromExit true = some (c'.menu (.loggingOut fromExit), some request) := by
  obtain ⟨_, sent, same⟩ := Option.map_eq_some_iff.mp done
  cases same
  refine ⟨rfl, ?_⟩
  have copy : copied ("LOGOUT ".toList ++ (c.menu phase).username) = some request := sent
  rw [Menu.logoutUser, copy]
  rfl

theorem Client.sendExit_menu {request : Text} (done : c.sendExit = some (c', request)) :
    c'.phase = .leaving ∧ (c.menu phase).sendExit true = some (c'.menu .leaving, some request) := by
  obtain ⟨_, sent, same⟩ := Option.map_eq_some_iff.mp done
  cases same
  refine ⟨rfl, ?_⟩
  rw [Menu.sendExit, sent]
  rfl

theorem Menu.afterSwitch_reading (connected : c.serverDisconnected = false) :
    (c.menu .reading).afterSwitch false = c.menu .reading := by
  simp [afterSwitch, Client.menu, connected, goto]

theorem Client.openMenu_simulated (here : c.phase = .menu) (done : c.openMenu choice = some (c', message)) :
    ∃ next, c'.phase = next.client ∧
      (c.menu .reading).openMenu choice.input true = some (c'.menu next, message) := by
  unfold openMenu at done
  unfold Menu.openMenu
  by_cases left : (!c.running || c.serverDisconnected) = true
  · rw [if_pos left] at done
    cases Option.some.inj done
    cases running : c.running with
    | false =>
      refine ⟨if c.exitSelected then .returned else .exited, ?_, ?_⟩
      · cases c.exitSelected <;> rfl
      · simp [menu, Menu.goto, running, goto]
    | true =>
      have lost : c.serverDisconnected = true := by simpa [running] using left
      exact ⟨.returned, rfl, by simp [menu, Menu.goto, running, lost, goto]⟩
  · rw [if_neg left] at done
    have on : c.running = true ∧ c.serverDisconnected = false := by simpa using left
    have running : (c.menu .reading).running = true := on.1
    have connected : (c.menu .reading).serverDisconnected = false := on.2
    simp only [running, connected, Bool.not_true, if_false, Bool.false_eq_true]
    cases choice with
    | signUpLogin signUp username password =>
      obtain ⟨request, rfl, whole⟩ := sent_of_map done
      obtain ⟨_, sent, same⟩ := Option.map_eq_some_iff.mp whole
      cases same
      refine ⟨.signing signUp, rfl, ?_⟩
      simp only [Choice.input, Menu.signUpLoginUser, sent]
      rfl
    | call peerUsername =>
      refine ⟨.reading, ?_⟩
      have room : ¬fieldSize ≤ peerUsername.text.length := Nat.not_le.mpr peerUsername.short
      have login : (c.menu .reading).isLogin = c.isLogin := rfl
      simp only [Choice.input, login, Menu.callPeer, if_neg room, Menu.afterSwitch_reading on.2]
      dsimp only at done
      split_ifs at done ⊢
      · obtain ⟨request, rfl, whole⟩ := sent_of_map done
        obtain ⟨_, sent, same⟩ := Option.map_eq_some_iff.mp whole
        cases same
        refine ⟨here, ?_⟩
        have print : printed ("CALL ".toList ++ ofBuffer peerUsername.text ++ ' ' ::
          ofBuffer (c.menu .reading).localSdp) = some request := sent
        rw [print]
        rfl
      · cases Option.some.inj done
        exact ⟨here, rfl⟩
    | logout =>
      obtain ⟨request, rfl, whole⟩ := sent_of_map done
      exact ⟨.loggingOut false, logoutUser_menu whole⟩
    | exit =>
      obtain ⟨request, rfl, whole⟩ := sent_of_map done
      have named : (c.menu .reading).username ≠ [] ↔ c.username.isSome = true := typed_ne_nil c.username
      simp only [Choice.input, Menu.exitUser, named]
      rw [exitUser] at whole
      split_ifs at whole ⊢
      · exact ⟨.loggingOut true, logoutUser_menu whole⟩
      · exact ⟨.leaving, sendExit_menu whole⟩
    | other =>
      cases Option.some.inj done
      refine ⟨.reading, here, ?_⟩
      simp only [Choice.input, Menu.afterSwitch_reading on.2]

/-- What the client does in the menu is a step of the menu with the same message. -/
theorem Client.act_simulated (here : c.phase = phase.client) (event : a.event = some e)
    (done : c.act a = some (c', message)) :
    ∃ next, c'.phase = next.client ∧ (c.menu phase).act e = some (c'.menu next, message) := by
  cases a with
  | start | close => simp [ClientAction.event] at event
  | choose choice =>
    cases Option.some.inj event
    rw [act] at done
    split_ifs at done with atMenu
    have reading : phase = .reading := MenuPhase.client_inj (here.symm.trans atMenu) (by simp [MenuPhase.client])
    subst reading
    exact openMenu_simulated atMenu done
  | exit =>
    cases Option.some.inj event
    rw [act] at done
    split_ifs at done with atPhase
    have exiting : phase = .exiting := MenuPhase.client_inj (here.symm.trans atPhase) (by simp [MenuPhase.client])
    subst exiting
    obtain ⟨request, rfl, whole⟩ := sent_of_map done
    exact ⟨.leaving, sendExit_menu whole⟩
  | interrupt =>
    cases Option.some.inj event
    cases Option.some.inj done
    exact ⟨phase, here, rfl⟩

theorem Client.back_menu : ∃ next, c.back.phase = next.client ∧
    (c.menu phase).afterSwitch false = c.back.menu next := by
  rw [Menu.afterSwitch, back, menu_serverDisconnected]
  cases c.serverDisconnected with
  | false => exact ⟨.reading, rfl, rfl⟩
  | true => exact ⟨.returned, rfl, rfl⟩

theorem Client.afterLogout_menu {fromExit : Bool} : ∃ next,
    (if fromExit then c.goto .exiting else c.back).phase = next.client ∧
      (c.menu phase).afterLogout fromExit = (if fromExit then c.goto .exiting else c.back).menu next := by
  cases fromExit with
  | false => exact back_menu
  | true => exact ⟨.exiting, rfl, rfl⟩

theorem Client.afterExit_menu : (c.menu phase).afterSwitch true =
    { c with running := c.running && c.serverDisconnected, phase := .left }.menu .returned := by
  rw [Menu.afterSwitch, menu_serverDisconnected]
  cases lost : c.serverDisconnected <;> simp [menu, Menu.goto, lost]

/-- So is what it does after a `recv`. -/
theorem Client.receive_simulated {reply : Option Text} (here : c.phase = phase.client)
    (read : c.receive reply = some c') :
    ∃ next, c'.phase = next.client ∧
      reply.elim (c.menu phase).receiveFails (c.menu phase).receive = some (c'.menu next) := by
  have waits {inside : MenuPhase} (atPhase : c.phase = inside.client) (waiting : inside.client ≠ .left) :
      phase = inside := MenuPhase.client_inj (here.symm.trans atPhase) waiting
  cases receive_received read with
  | @signed signUp buffer atPhase =>
    obtain rfl : phase = .signing signUp := waits atPhase (by simp [MenuPhase.client])
    obtain ⟨next, there, same⟩ := @back_menu _ (.signing signUp)
    refine ⟨next, there, ?_⟩
    rw [← same]
    simp [Menu.receive, menu]
  | @signingFails signUp atPhase =>
    obtain rfl : phase = .signing signUp := waits atPhase (by simp [MenuPhase.client])
    obtain ⟨next, there, same⟩ := @back_menu c (.signing signUp)
    exact ⟨next, there, congrArg some same⟩
  | @loggedOut fromExit buffer after atPhase same =>
    obtain rfl : phase = .loggingOut fromExit := waits atPhase (by simp [MenuPhase.client])
    obtain ⟨next, there, moved⟩ := @afterLogout_menu after (.loggingOut fromExit) fromExit
    refine ⟨next, there, ?_⟩
    rw [← moved, same]
    simp [Menu.receive, menu]
  | @logoutFails fromExit atPhase =>
    obtain rfl : phase = .loggingOut fromExit := waits atPhase (by simp [MenuPhase.client])
    obtain ⟨next, there, moved⟩ := @afterLogout_menu c (.loggingOut fromExit) fromExit
    exact ⟨next, there, congrArg some moved⟩
  | @leave buffer atPhase =>
    obtain rfl : phase = .leaving := waits atPhase (by simp [MenuPhase.client])
    have moved := @afterExit_menu { c with
      serverDisconnected := c.serverDisconnected || some buffer = some [], exitSelected := true } .leaving
    refine ⟨.returned, rfl, ?_⟩
    rw [← moved]
    simp [Menu.receive, menu]
  | leavingFails atPhase =>
    obtain rfl : phase = .leaving := waits atPhase (by simp [MenuPhase.client])
    exact ⟨.returned, rfl, congrArg some afterExit_menu⟩

end Simulation

end Signaling
