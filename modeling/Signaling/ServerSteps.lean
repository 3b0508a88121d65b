import Mathlib.Tactic.SplitIfs
import Signaling.Server

namespace Signaling
open Machine CText

namespace Shared
variable {w w' : Shared} {fd : Int} {message : Tagged Outgoing} {e : Endpoint}

/-- A `send` touches one outbound queue and nothing else. -/
theorem send_eq : w.send fd message = { w with outbound := (w.send fd message).outbound } := by
  unfold send
  split
  · split_ifs <;> rfl
  · rfl

@[simp] theorem send_userStore : (w.send fd message).userStore = w.userStore := by rw [send_eq]

@[simp] theorem send_descriptors : (w.send fd message).descriptors = w.descriptors := by rw [send_eq]

@[simp] theorem send_peer : (w.send fd message).peer = w.peer := by rw [send_eq]

theorem send_elsewhere (other : w.endpoint fd ≠ some e) : (w.send fd message).outbound e = w.outbound e := by
  unfold send
  split
  · rename_i target there
    split_ifs
    · have differs : e ≠ target := by
        rintro rfl
        exact other there
      simp [differs]
    · rfl
  · rfl

theorem send_reached (there : w.endpoint fd = some e) (reached : w.reaches e = true) :
    (w.send fd message).outbound e = w.outbound e ++ [message] := by
  simp [send, there, reached]

theorem reaches_of_listening (listening : w.peer e = .listening) : w.reaches e = true := by
  cases e with
  | callback i k => exact decide_eq_true listening
  | standard | listening | client | unserved => rfl

/-- A descriptor that denotes a socket is a number in the table. -/
theorem endpoint_eq_some :
    w.endpoint fd = some e ↔ ∃ n : Nat, fd = n ∧ Slots.lookup w.descriptors n = some e := by
  constructor
  · intro there
    cases fd with
    | ofNat n => exact ⟨n, rfl, there⟩
    | negSucc n => simp [endpoint] at there
  · rintro ⟨n, rfl, there⟩
    exact there

theorem connected_eq : w.connected fd = { w with peer := (w.connected fd).peer } := by
  unfold connected
  split <;> rfl

@[simp] theorem connected_userStore : (w.connected fd).userStore = w.userStore := by
  rw [connected_eq]

@[simp] theorem connected_descriptors : (w.connected fd).descriptors = w.descriptors := by
  rw [connected_eq]

@[simp] theorem connected_inbound : (w.connected fd).inbound = w.inbound := by
  rw [connected_eq]

@[simp] theorem connected_outbound : (w.connected fd).outbound = w.outbound := by
  rw [connected_eq]

/-- The ways a reply is read. -/
inductive ReplyRead (w : Shared) (fd : Int) (foreign : Text) : Tagged Text → Shared → Prop
  | reply {i k incoming rest} : w.endpoint fd = some (.callback i k) →
      w.inbound (.callback i k) = incoming :: rest →
      ReplyRead w fd foreign incoming { w with inbound := Function.update w.inbound (.callback i k) rest }
  | gone {i k} : w.endpoint fd = some (.callback i k) → w.inbound (.callback i k) = [] →
      w.peer (.callback i k) ≠ .listening → ReplyRead w fd foreign ⟨[], none⟩ w
  | foreign {target} : w.endpoint fd = some target → (∃ i, target = .client i) ∨ target = .unserved →
      ReplyRead w fd foreign ⟨foreign, none⟩ w
  | nothing : (∀ i k, w.endpoint fd ≠ some (.callback i k)) → (∀ i, w.endpoint fd ≠ some (.client i)) →
      w.endpoint fd ≠ some .unserved → ReplyRead w fd foreign ⟨[], none⟩ w

theorem readReply_read {foreign : Text} {incoming : Tagged Text}
    (read : w.readReply fd foreign = some (incoming, w')) : w.ReplyRead fd foreign incoming w' := by
  unfold readReply at read
  split at read
  · rename_i there
    split at read
    · rename_i queue
      cases Option.some.inj read
      exact .reply there queue
    · rename_i queue
      split_ifs at read with listening
      cases Option.some.inj read
      exact .gone there queue listening
  · rename_i there
    cases Option.some.inj read
    exact .foreign there (Or.inl ⟨_, rfl⟩)
  · rename_i there
    cases Option.some.inj read
    exact .foreign there (Or.inr rfl)
  · rename_i other plain served
    cases Option.some.inj read
    exact .nothing other plain served

/-- Reading a reply touches one inbound queue and nothing else. -/
theorem readReply_eq {foreign : Text} {incoming : Tagged Text}
    (read : w.readReply fd foreign = some (incoming, w')) : w' = { w with inbound := w'.inbound } := by
  cases readReply_read read <;> rfl

theorem readReply_userStore {foreign : Text} {incoming : Tagged Text}
    (read : w.readReply fd foreign = some (incoming, w')) : w'.userStore = w.userStore := by
  rw [readReply_eq read]

theorem readReply_descriptors {foreign : Text} {incoming : Tagged Text}
    (read : w.readReply fd foreign = some (incoming, w')) : w'.descriptors = w.descriptors := by
  rw [readReply_eq read]

theorem readReply_peer {foreign : Text} {incoming : Tagged Text}
    (read : w.readReply fd foreign = some (incoming, w')) : w'.peer = w.peer := by
  rw [readReply_eq read]

theorem readReply_outbound {foreign : Text} {incoming : Tagged Text}
    (read : w.readReply fd foreign = some (incoming, w')) : w'.outbound = w.outbound := by
  rw [readReply_eq read]

/-- The ways a listener can move, each with the message it read. -/
inductive Listened (w : Shared) (e : Endpoint) : ListenerAction → Shared → Prop
  | quit : w.peer e = .listening →
      Listened w e .quit { w with peer := Function.update w.peer e .gone }
  | leave {localSdp message rest buffer} : w.peer e = .listening → w.outbound e = message :: rest →
      received (message.content.frame.take socketBufferSize) = some buffer →
      branch buffer = .ended ∨ branch buffer = .exit ∨ localSdp = none →
      Listened w e (.dispatch localSdp) { w with outbound := Function.update w.outbound e rest,
                                                 peer := Function.update w.peer e .gone }
  | answer {sdp message rest buffer fields answer} : w.peer e = .listening →
      w.outbound e = message :: rest →
      received (message.content.frame.take socketBufferSize) = some buffer →
      branch buffer = .invite → decodeInvite buffer = some fields → acceptFrame sdp = some answer →
      Listened w e (.dispatch (some sdp)) { w with
        outbound := Function.update w.outbound e rest,
        inbound := Function.update w.inbound e (w.inbound e ++ [⟨answer, message.invite⟩]) }
  | pass {localSdp message rest buffer} : w.peer e = .listening → w.outbound e = message :: rest →
      received (message.content.frame.take socketBufferSize) = some buffer →
      branch buffer = .accept ∧ (decodeAccept buffer).isSome = true ∨ branch buffer = .other →
      Listened w e (.dispatch localSdp) { w with outbound := Function.update w.outbound e rest }

theorem listen_moved {a : ListenerAction} (moved : w.listen e a = some w') : w.Listened e a w' := by
  cases a with
  | quit =>
    simp only [listen] at moved
    split_ifs at moved with listening
    cases Option.some.inj moved
    exact .quit listening
  | dispatch localSdp =>
    simp only [listen] at moved
    split at moved
    · rename_i message rest listening queue
      obtain ⟨buffer, read, moved⟩ := Option.bind_eq_some_iff.mp moved
      split at moved
      · rename_i ended
        cases Option.some.inj moved
        exact .leave listening queue read (Or.inl ended)
      · rename_i exit
        cases Option.some.inj moved
        exact .leave listening queue read (Or.inr (Or.inl exit))
      · rename_i invite
        obtain ⟨fields, decoded, moved⟩ := Option.bind_eq_some_iff.mp moved
        split at moved
        · obtain ⟨answer, built, same⟩ := Option.map_eq_some_iff.mp moved
          cases same
          exact .answer listening queue read invite decoded built
        · cases Option.some.inj moved
          exact .leave listening queue read (Or.inr (Or.inr rfl))
      · rename_i accept
        obtain ⟨sdp, decoded, same⟩ := Option.map_eq_some_iff.mp moved
        cases localSdp with
        | some => cases same; exact .pass listening queue read (Or.inl ⟨accept, by simp [decoded]⟩)
        | none => cases same; exact .leave listening queue read (Or.inr (Or.inr rfl))
      · rename_i other
        cases Option.some.inj moved
        exact .pass listening queue read (Or.inr other)
    · simp at moved

/-- A listener takes from its outbound queue, and answers an INVITE on its inbound queue. -/
theorem listen_eq {a : ListenerAction} (moved : w.listen e a = some w') :
    w' = { w with outbound := w'.outbound, inbound := w'.inbound, peer := w'.peer } := by
  cases listen_moved moved <;> rfl

theorem listen_userStore {a : ListenerAction} (moved : w.listen e a = some w') :
    w'.userStore = w.userStore := by
  rw [listen_eq moved]

theorem listen_descriptors {a : ListenerAction} (moved : w.listen e a = some w') :
    w'.descriptors = w.descriptors := by
  rw [listen_eq moved]

end Shared

/-- The command a step of the handler takes from its client, if it takes one. -/
def Handler.hears (h : Handler) (w : Shared) : Action → Option Command
  | .recv bytes =>
    if h.phase = .loop ∧ ¬(bytes.isEmpty || !w.running) then (received bytes).bind decode else none
  | _ => none

/-- Commands are taken by `recv` at the top of the loop. -/
theorem Handler.hears_recv {h : Handler} {w : Shared} {a : Action} {command : Command}
    (heard : h.hears w a = some command) : h.phase = .loop ∧ ∃ bytes, a = .recv bytes := by
  cases a with
  | recv bytes =>
    rw [hears] at heard
    split_ifs at heard with both
    exact ⟨both.1, bytes, rfl⟩
  | stop | socket | connect | greet | reply | hasUser | getUser | invite | answer | forward
  | exitReply | exitNotice | close | finish => simp [hears] at heard

/-- The branches of `Handler.step`, one constructor for each way the source can go. -/
inductive Handler.Moved (i : Nat) (h : Handler) (w : Shared) : Action → Handler → Shared → Prop
  | stop : h.phase = .loop → w.running = false → Moved i h w .stop (h.goto .closing) w
  | hangup {bytes} : h.phase = .loop → h.hears w (.recv bytes) = none →
      Moved i h w (.recv bytes) (h.goto .closing) w
  | client {bytes address port} : h.phase = .loop → h.hears w (.recv bytes) = some (.client address port) →
      Moved i h w (.recv bytes)
        { h with clientIpAddress := address.getD h.clientIpAddress, phase := .opening,
                 clientPortInt := port.getD h.clientPortInt } w
  | signup {bytes username password} : h.phase = .loop →
      h.hears w (.recv bytes) = some (.signup username password) →
      Moved i h w (.recv bytes)
        { h with username := username, password := password, phase := .replying .signupReply }
        { w with userStore :=
            w.userStore.addUser ⟨username, password, some false, some h.clientSocketFd⟩ }
  | login {bytes username password} : h.phase = .loop →
      h.hears w (.recv bytes) = some (.login username password) →
      Moved i h w (.recv bytes)
        { h with username := username, password := password, phase := .replying .loginReply }
        { w with userStore := (w.userStore.loginUser username password).2 }
  | call {bytes receiver sdp} : h.phase = .loop →
      h.hears w (.recv bytes) = some (.call receiver sdp) →
      w.userStore.isLogin receiver = some true →
      Moved i h w (.recv bytes) (h.goto (.calling receiver sdp)) w
  | refuse {bytes receiver sdp} : h.phase = .loop →
      h.hears w (.recv bytes) = some (.call receiver sdp) →
      w.userStore.isLogin receiver = some false → Moved i h w (.recv bytes) (h.goto .loop) w
  | logout {bytes} : h.phase = .loop → h.hears w (.recv bytes) = some .logout →
      Moved i h w (.recv bytes) (h.goto (.replying .logoutReply))
        { w with userStore := w.userStore.logOutUser h.username }
  | exit {bytes} : h.phase = .loop → h.hears w (.recv bytes) = some .exit →
      Moved i h w (.recv bytes) (h.goto .exiting) w
  | ignored {bytes} : h.phase = .loop → h.hears w (.recv bytes) = some .ignored →
      Moved i h w (.recv bytes) h w
  | socket : h.phase = .opening →
      Moved i h w (.socket true)
        { h with clientSocketFd := Slots.lowestFree w.descriptors, sockets := h.sockets + 1,
                 phase := .connecting } (w.allocate (.callback i h.sockets))
  | socketFails : h.phase = .opening →
      Moved i h w (.socket false) { h with clientSocketFd := -1, phase := .closing } w
  | connect : h.phase = .connecting → w.connectable h.clientSocketFd = true →
      Moved i h w (.connect true) (h.goto .greeting) (w.connected h.clientSocketFd)
  | connectFails : h.phase = .connecting → Moved i h w (.connect false) (h.goto .closing) w
  | greet : h.phase = .greeting →
      Moved i h w .greet (h.goto .loop) (w.send h.clientSocketFd ⟨.hello, none⟩)
  | reply {message} : h.phase = .replying message →
      Moved i h w .reply (h.goto .loop) (w.send h.clientSocket ⟨message, none⟩)
  | hasUser {receiver sdp} : h.phase = .calling receiver sdp → w.userStore.hasUser receiver = true →
      Moved i h w .hasUser (h.goto (.looking receiver sdp)) w
  | hasNoUser {receiver sdp} : h.phase = .calling receiver sdp →
      w.userStore.hasUser receiver = false → Moved i h w .hasUser (h.goto .loop) w
  | getUser {receiver sdp unwritten receiverUser} : h.phase = .looking receiver sdp →
      w.userStore.getUser receiver = some receiverUser →
      Moved i h w (.getUser unwritten) (h.goto (.inviting receiver sdp receiverUser
        (receiverUser.socketFd.getD unwritten))) w
  | noUser {receiver sdp unwritten} : h.phase = .looking receiver sdp →
      w.userStore.getUser receiver = none → Moved i h w (.getUser unwritten) (h.goto .loop) w
  | invite {receiver sdp receiverUser receiverFd} :
      h.phase = .inviting receiver sdp receiverUser receiverFd →
      Moved i h w .invite (h.goto (.waiting receiverFd w.invites))
        { w.send receiverFd ⟨.invite receiver sdp, some w.invites⟩ with invites := w.invites + 1 }
  | accepted {receiverFd number foreign incoming w'} : h.phase = .waiting receiverFd number →
      w.readReply receiverFd foreign = some (incoming, w') →
      (received incoming.content).bind acceptTest = some true →
      Moved i h w (.answer foreign) (h.goto (.forwarding incoming number)) w'
  | declined {receiverFd number foreign incoming w'} : h.phase = .waiting receiverFd number →
      w.readReply receiverFd foreign = some (incoming, w') →
      (received incoming.content).bind acceptTest = some false →
      Moved i h w (.answer foreign) (h.goto .loop) w'
  | forward {incoming number} : h.phase = .forwarding incoming number →
      Moved i h w .forward (h.goto .loop)
        (w.send h.clientSocketFd ⟨.accept incoming.content, incoming.invite⟩)
  | exitReply : h.phase = .exiting →
      Moved i h w (.exitReply true) (h.goto .notifying) (w.send h.clientSocket ⟨.exitReply, none⟩)
  | exitReplyFails : h.phase = .exiting → Moved i h w (.exitReply false) (h.goto .closing) w
  | exitNotice : h.phase = .notifying →
      Moved i h w .exitNotice (h.goto .closing) (w.send h.clientSocketFd ⟨.exitNotice, none⟩)
  | close : h.phase = .closing → Moved i h w .close (h.goto .closed) (w.close h.clientSocket)
  | finish : h.phase = .closed → h.clientSocketFd = -1 → Moved i h w .finish (h.goto .returned) w
  | closeAgain : h.phase = .closed → h.clientSocketFd ≠ -1 →
      Moved i h w .finish (h.goto .returned) (w.close h.clientSocket)

theorem Handler.receive_moved {i : Nat} {h h' : Handler} {w w' : Shared} {bytes : Text}
    (atLoop : h.phase = .loop) (run : h.receive w bytes = some (h', w')) :
    h.Moved i w (.recv bytes) h' w' := by
  unfold Handler.receive at run
  split_ifs at run with left
  · cases Option.some.inj run
    exact .hangup atLoop (by rw [hears, if_neg (fun both => both.2 left)])
  · obtain ⟨command, decoded, served⟩ := Option.bind_eq_some_iff.mp run
    have heard : h.hears w (.recv bytes) = some command := by
      rw [hears, if_pos ⟨atLoop, left⟩]
      exact decoded
    cases command with
    | client address port => cases Option.some.inj served; exact .client atLoop heard
    | signup username password => cases Option.some.inj served; exact .signup atLoop heard
    | login username password => cases Option.some.inj served; exact .login atLoop heard
    | call receiver sdp =>
      obtain ⟨islogin, read, moved⟩ := Option.map_eq_some_iff.mp served
      cases moved
      cases islogin with
      | true => exact .call atLoop heard read
      | false => exact .refuse atLoop heard read
    | logout => cases Option.some.inj served; exact .logout atLoop heard
    | exit => cases Option.some.inj served; exact .exit atLoop heard
    | ignored => cases Option.some.inj served; exact .ignored atLoop heard

theorem Handler.step_moved {i : Nat} {h h' : Handler} {w w' : Shared} {a : Action}
    (run : h.step i w a = some (h', w')) : h.Moved i w a h' w' := by
  unfold Handler.step at run
  split at run
  case h_1 atPhase =>
    cases running : w.running with
    | true => simp [running] at run
    | false =>
      simp only [running, Bool.false_eq_true, if_false, Option.some.injEq] at run
      cases run
      exact .stop atPhase running
  case h_2 atPhase => exact receive_moved atPhase run
  case h_3 ok atPhase =>
    cases ok with
    | true => cases Option.some.inj run; exact .socket atPhase
    | false => cases Option.some.inj run; exact .socketFails atPhase
  case h_4 ok atPhase =>
    cases ok with
    | true =>
      simp only [connectToClient, if_true] at run
      split_ifs at run with possible
      cases Option.some.inj run
      exact .connect atPhase possible
    | false => cases Option.some.inj run; exact .connectFails atPhase
  case h_5 atPhase => cases Option.some.inj run; exact .greet atPhase
  case h_6 atPhase => cases Option.some.inj run; exact .reply atPhase
  case h_7 receiver sdp atPhase =>
    cases present : w.userStore.hasUser receiver with
    | true =>
      simp only [present, if_true, Option.some.injEq] at run
      cases run
      exact .hasUser atPhase present
    | false =>
      simp only [present, Bool.false_eq_true, if_false, Option.some.injEq] at run
      cases run
      exact .hasNoUser atPhase present
  case h_8 receiver sdp unwritten atPhase =>
    split at run
    · rename_i receiverUser found
      cases Option.some.inj run
      exact .getUser atPhase found
    · rename_i absent
      cases Option.some.inj run
      exact .noUser atPhase absent
  case h_9 atPhase => cases Option.some.inj run; exact .invite atPhase
  case h_10 atPhase =>
    obtain ⟨⟨incoming, after⟩, read, run⟩ := Option.bind_eq_some_iff.mp run
    obtain ⟨accepted, tested, moved⟩ := Option.map_eq_some_iff.mp run
    cases moved
    cases accepted with
    | true => exact .accepted atPhase read tested
    | false => exact .declined atPhase read tested
  case h_11 atPhase => cases Option.some.inj run; exact .forward atPhase
  case h_12 ok atPhase =>
    cases ok with
    | true => cases Option.some.inj run; exact .exitReply atPhase
    | false => cases Option.some.inj run; exact .exitReplyFails atPhase
  case h_13 atPhase => cases Option.some.inj run; exact .exitNotice atPhase
  case h_14 atPhase => cases Option.some.inj run; exact .close atPhase
  case h_15 atPhase =>
    by_cases none : h.clientSocketFd = -1
    · simp only [none, if_true, Option.some.injEq] at run
      cases run
      exact .finish atPhase none
    · simp only [none, if_false, Option.some.injEq] at run
      cases run
      exact .closeAgain atPhase none
  case h_16 => simp at run

/-- A handler leaves its loop at `recv` only when there is nothing to read or the server stops. -/
theorem Handler.hangup_cause {i : Nat} {h h' : Handler} {w w' : Shared} {bytes : Text}
    (run : h.step i w (.recv bytes) = some (h', w')) (heard : h.hears w (.recv bytes) = none) :
    bytes = [] ∨ w.running = false := by
  by_contra both
  obtain ⟨filled, on⟩ := not_or.mp both
  have open_ : ¬(bytes.isEmpty || !w.running) := by simpa [filled] using on
  cases Handler.step_moved run with
  | hangup atPhase =>
    rw [Handler.hears, if_pos ⟨atPhase, open_⟩] at heard
    simp [Handler.step, atPhase, Handler.receive, open_, heard] at run
  | client _ some | signup _ some | login _ some | call _ some | refuse _ some | logout _ some | exit _ some
  | ignored _ some => simp [heard] at some

/-- The steps of a handler that change the descriptor table. -/
def Action.changesTable : Action → Bool
  | .socket ok => ok
  | .close | .finish => true
  | _ => false

theorem Handler.Moved.descriptors_eq {i : Nat} {h h' : Handler} {w w' : Shared} {a : Action}
    (moved : h.Moved i w a h' w') (quiet : a.changesTable = false) : w'.descriptors = w.descriptors := by
  cases moved with
  | socket | close | finish | closeAgain => simp [Action.changesTable] at quiet
  | accepted _ read | declined _ read => exact Shared.readReply_descriptors read
  | greet | reply | invite | forward | exitReply | exitNotice => exact Shared.send_descriptors
  | connect => exact Shared.connected_descriptors
  | _ => rfl

/-- The branches of `Server.step`. -/
inductive Server.Moved (s : Server) : Event → Server → Prop
  | accept : s.running = true → s.accepting = true →
      Moved s (.accept true)
        { s with toShared := s.toShared.allocate (.client s.threads.length),
                 threads := s.threads ++ [{ clientSocket := Slots.lowestFree s.descriptors }] }
  | acceptLate : s.running = false → s.accepting = true →
      Moved s (.accept true)
        { s with toShared := s.toShared.allocate .unserved, accepting := false }
  | acceptFails : Moved s (.accept false) { s with accepting := false }
  | interrupt : Moved s .interrupt { s with running := false }
  | thread {i a h h' w'} : s.threads[i]? = some h → h.Moved i s.toShared a h' w' →
      Moved s (.thread i a) { s with toShared := w', threads := s.threads.set i h' }
  | listener {e a w'} : s.toShared.listen e a = some w' →
      Moved s (.listener e a) { s with toShared := w' }

theorem Server.step_moved {s t : Server} {e : Event} (run : s.step e = some t) : s.Moved e t := by
  cases e with
  | accept ok =>
    rw [Server.step] at run
    split_ifs at run with accepting both done
    · cases Option.some.inj run
      obtain ⟨rfl, running⟩ := Bool.and_eq_true_iff.mp both
      exact .accept running accepting
    · cases Option.some.inj run
      subst done
      exact .acceptLate (by simpa using both) accepting
    · cases Option.some.inj run
      cases ok with
      | true => exact absurd rfl done
      | false => exact .acceptFails
  | interrupt => cases Option.some.inj run; exact .interrupt
  | thread i a =>
    obtain ⟨h, atThread, run⟩ := Option.bind_eq_some_iff.mp run
    obtain ⟨⟨h', w'⟩, moved, same⟩ := Option.map_eq_some_iff.mp run
    cases same
    exact .thread atThread (Handler.step_moved moved)
  | listener e a =>
    obtain ⟨w', moved, same⟩ := Option.map_eq_some_iff.mp run
    cases same
    exact .listener moved

theorem Server.accepting_of_accept {s t : Server} {ok : Bool} (stepped : s.step (.accept ok) = some t) :
    s.accepting = true := by
  by_contra off
  simp [step, off] at stepped

theorem Server.step_of_handler {s : Server} {i : Nat} {h h' : Handler} {w : Shared} {a : Action}
    (atThread : s.threads[i]? = some h) (moved : h.step i s.toShared a = some (h', w)) :
    s.step (.thread i a) = some { s with toShared := w, threads := s.threads.set i h' } := by
  rw [Server.step, atThread, Option.bind_some, moved, Option.map_some]

theorem threads_set {threads : List Handler} {i j : Nat} {h h' : Handler}
    (atThread : threads[i]? = some h) :
    (threads.set i h')[j]? = if j = i then some h' else threads[j]? := by
  obtain ⟨inside, _⟩ := List.getElem?_eq_some_iff.mp atThread
  by_cases same : j = i
  · subst j
    simp [inside]
  · simp [same, Ne.symm same]

theorem threads_push {threads : List Handler} {j : Nat} {h new : Handler}
    (found : (threads ++ [new])[j]? = some h) :
    threads[j]? = some h ∨ j = threads.length ∧ h = new := by
  rcases Nat.lt_trichotomy j threads.length with less | same | more
  · rw [List.getElem?_append_left less] at found
    exact Or.inl found
  · subst same
    rw [List.getElem?_append_right le_rfl, Nat.sub_self] at found
    exact Or.inr ⟨rfl, (Option.some.inj found).symm⟩
  · have beyond : (threads ++ [new]).length ≤ j := by simp; omega
    simp [List.getElem?_eq_none beyond] at found

/-- Every thread of the state after a step is one of the state before, unchanged or moved by the
step, or the thread that the accept loop has just created. -/
theorem Server.thread_origin {s t : Server} {e : Event} {j : Nat} {h' : Handler}
    (run : s.step e = some t) (after : t.threads[j]? = some h') :
    (s.threads[j]? = some h' ∧ ∀ a, e ≠ .thread j a) ∨
      (∃ a h, e = .thread j a ∧ s.threads[j]? = some h ∧ h.Moved j s.toShared a h' t.toShared) ∨
      (e = .accept true ∧ j = s.threads.length ∧
        h' = { clientSocket := Slots.lowestFree s.descriptors }) := by
  cases step_moved run with
  | accept =>
    rcases threads_push after with before | ⟨rfl, rfl⟩
    · exact Or.inl ⟨before, by simp⟩
    · exact Or.inr (Or.inr ⟨rfl, rfl, rfl⟩)
  | acceptLate | acceptFails | interrupt | listener => exact Or.inl ⟨after, by simp⟩
  | @thread i a h h'' w' atThread moved =>
    rw [threads_set atThread] at after
    split_ifs at after with same
    · subst same
      cases Option.some.inj after
      exact Or.inr (Or.inl ⟨a, h, rfl, atThread, moved⟩)
    · refine Or.inl ⟨after, fun b equal => same ?_⟩
      cases equal
      rfl

/-- Threads that take no part in a step stay as they are. -/
theorem Server.thread_kept {s t : Server} {e : Event} {j : Nat} {h : Handler}
    (run : s.step e = some t) (before : s.threads[j]? = some h) (other : ∀ a, e ≠ .thread j a) :
    t.threads[j]? = some h := by
  cases step_moved run with
  | accept => exact (List.getElem?_append_left (List.getElem?_eq_some_iff.mp before).1).trans before
  | acceptLate | acceptFails | interrupt | listener => exact before
  | @thread i a _ _ _ atThread =>
    rw [threads_set atThread, if_neg ?_]
    · exact before
    · rintro rfl
      exact other a rfl

/-- No thread is ever taken out of the vector. -/
theorem Server.threads_length_le {s t : Server} {e : Event} (run : s.step e = some t) :
    s.threads.length ≤ t.threads.length := by
  cases step_moved run <;> simp

end Signaling
