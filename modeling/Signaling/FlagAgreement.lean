import Signaling.Dialogue

namespace Signaling
open Machine CText RequestReply

/-- A LOGIN with these fields leaves the flag of the typed name set, by the password or because it was
set before; a SIGNUP does only where it stores another name than the one typed. -/
def UserStore.grants (store : UserStore) (signUp : Bool) (username password : Word) : Prop :=
  signUp = false ∧ nul ∉ username.text ∧
      (∃ user ∈ store.users username.text, user.password = ofBuffer password.text) ∨
    (signUp = false ∨ nul ∈ username.text) ∧ store.isLogin username.text = some true

instance {store : UserStore} {signUp : Bool} {username password : Word} :
    Decidable (store.grants signUp username password) :=
  inferInstanceAs (Decidable (_ ∧ _ ∧ _ ∨ _ ∧ _))

namespace Dialogue

/-- The latest choice of SIGNUP or LOGIN was one that leaves the flag set. -/
def granted : Past → Bool
  | [] => false
  | (d, .client (.choose (.signUpLogin signUp username password))) :: _ =>
    d.world.userStore.grants signUp username password
  | _ :: past => granted past

/-- The other sessions do not touch the client's current username. -/
def Untouched (d : Dialogue) : DialogueEvent → Prop
  | .others w => w.userStore.users (typed d.client.username) = d.world.userStore.users (typed d.client.username)
  | _ => True

/-- Not the reply to a SIGNUP or LOGIN that does not leave the flag set. -/
def Sound (past : Past) (d : Dialogue) : DialogueEvent → Prop
  | .reply => (∃ signUp, d.client.phase = .signing signUp) → d.handler.ended = false → granted past = true
  | _ => True

instance (d : Dialogue) (e : DialogueEvent) : Decidable (d.Untouched e) := by
  unfold Untouched
  cases_type* DialogueEvent <;> infer_instance

instance (past : Past) (d : Dialogue) (e : DialogueEvent) : Decidable (Sound past d e) := by
  unfold Sound
  cases_type* DialogueEvent <;> infer_instance

end Dialogue

section Stores
variable {store : UserStore} {signUp : Bool} {username password : Word} {command : Command} {i : Nat} {h : Handler}

/-- What the branch of the command sent does to the flag of the typed name. -/
theorem isLogin_register (sent : command = if signUp then
      .signup (credentials username.text password.text).1 (credentials username.text password.text).2
    else .login (credentials username.text password.text).1 (credentials username.text password.text).2) :
    ((command.storeCall i h store).elim store (·.apply store)).isLogin username.text = some true ↔
      store.grants signUp username password := by
  subst sent
  have free : nul ∉ username.text → ofBuffer username.text = username.text := ofBuffer_of_free
  have cut : nul ∈ username.text → username.text ≠ ofBuffer username.text := by
    intro inside same
    exact nul_notMem_ofBuffer _ (same ▸ inside)
  cases signUp with
  | true =>
    show (store.addUser _).isLogin username.text = some true ↔ _
    rw [UserStore.isLogin_addUser, UserStore.grants]
    by_cases inside : nul ∈ username.text
    · simp [credentials, inside, cut inside]
    · simp [credentials, inside, free inside]
  | false =>
    show (store.loginUser _ _).2.isLogin username.text = some true ↔ _
    have stored : (∃ user ∈ store.users username.text, user.password = ofBuffer password.text) ↔
        (store.loginUser username.text (ofBuffer password.text)).1 = true := UserStore.loginUser_true_iff.symm
    rw [UserStore.isLogin_loginUser, UserStore.grants, stored]
    by_cases inside : nul ∈ username.text
    · simp [credentials, inside, cut inside]
    · by_cases accepted : (store.loginUser username.text (ofBuffer password.text)).1 = true
      · simp [credentials, inside, free inside, accepted]
      · simp [credentials, inside, free inside, accepted]

theorem isLogin_congr {store' : UserStore} {u : Text} (same : store'.users u = store.users u) :
    store'.isLogin u = store.isLogin u := by
  rw [UserStore.isLogin, UserStore.isLogin, same]

theorem grants_congr {store' : UserStore} (same : store'.users username.text = store.users username.text) :
    store'.grants signUp username password ↔ store.grants signUp username password := by
  rw [UserStore.grants, UserStore.grants, isLogin_congr same, same]

end Stores

section Client
variable {c c' : Client} {signUp : Bool} {buffer : Text}

theorem reply_filled (signUp : Bool) : received
    (((if signUp then Outgoing.signupReply else .loginReply).frame).take socketBufferSize) ≠ some [] := by
  cases signUp <;> decide +kernel

end Client

namespace Dialogue
variable {past : Past} {d d' : Dialogue} {signUp : Bool} {username password : Word}

/-- What is known while the client waits for the reply to a SIGNUP or LOGIN: what its branch will do
to the flag of the typed name, and after it what it did. -/
structure Signing (past : Past) (d : Dialogue) (signUp : Bool) (username password : Word) : Prop where
  name : d.client.username = some username
  connected : d.client.serverDisconnected = false
  request : copied (registerRequest signUp username.text password.text) = d.sent.getLast?
  unserved : d.line.waiting replyTo ≠ [] →
    (granted past = true ↔ d.world.userStore.grants signUp username password)
  served : d.handler.phase.owes ≠ none ∨ d.replies ≠ [] →
    (granted past = true ↔ d.world.userStore.isLogin username.text = some true)

structure Followed (past : Past) (d : Dialogue) : Prop where
  accounted : d.Accounted
  starting : d.client.phase = .starting → d.client.isLogin = false
  signing : ∀ signUp, d.client.phase = .signing signUp →
    ∃ username password, Signing past d signUp username password

theorem Signing.typed (signing : Signing past d signUp username password) :
    Signaling.typed d.client.username = username.text := by
  rw [signing.name]
  rfl

/-- A step of the handler leaves the store as it is, or takes up the message the client waits for. -/
theorem Accounted.store_handler {a : Action} {h' : Handler} {w' : Shared} {taken : Nat} (accounted : d.Accounted)
    (takes : d.takes a = some taken) (moved : d.handler.Moved d.session d.world a h' w') :
    (d.handler.hears d.world a).bind Command.reply = none ∧ w'.userStore = d.world.userStore ∨
    ∃ bytes command, a = .recv bytes ∧ d.client.phase.awaits.isSome = true ∧
      d.handler.hears d.world (.recv bytes) = some command ∧ d.sent.getLast? = some bytes ∧
      d.line.waiting replyTo ≠ [] ∧ (d.handled taken h' w').line.waiting replyTo = [] ∧ w'.userStore =
        (command.storeCall d.session d.handler d.world.userStore).elim d.world.userStore (·.apply d.world.userStore) := by
  have effect := moved.userStore_eq
  cases heard : d.handler.hears d.world a with
  | none =>
    rw [heard] at effect
    exact Or.inl ⟨rfl, effect⟩
  | some command =>
    rw [heard] at effect
    cases asks : command.reply with
    | none =>
      refine Or.inl ⟨asks, effect.trans ?_⟩
      cases command <;> first | rfl | simp [Command.reply] at asks
    | some message =>
      obtain ⟨_, bytes, rfl⟩ := Handler.hears_recv heard
      obtain ⟨waits, last, before, after⟩ := accounted.heard takes heard asks
      exact Or.inr ⟨bytes, command, rfl, by rw [waits]; rfl, heard, last, before, after, effect⟩

theorem Signing.handler {a : Action} {h' : Handler} {w' : Shared} {taken : Nat} (accounted : d.Accounted)
    (private_ : d.Private (.handler a)) (signing : Signing past d signUp username password)
    (takes : d.takes a = some taken) (moved : d.handler.Moved d.session d.world a h' w') :
    Signing ((d, .handler a) :: past) (d.handled taken h' w') signUp username password := by
  have fewer : ((d.handled taken h' w').line.waiting replyTo).Sublist (d.line.waiting replyTo) :=
    Line.waiting_sublist replyTo d.line (le_of_takes takes)
  rcases accounted.store_handler takes moved with
    ⟨silent, same⟩ | ⟨bytes, command, rfl, _, heard, last, before, after, effect⟩
  · have users : w'.userStore.users username.text = d.world.userStore.users username.text := by rw [same]
    refine ⟨signing.name, signing.connected, signing.request, fun unserved => ?_, fun served => ?_⟩
    · refine (signing.unserved fun none => unserved ?_).trans (grants_congr users).symm
      exact List.sublist_nil.mp (none ▸ fewer)
    · show granted past = true ↔ w'.userStore.isLogin username.text = some true
      rw [isLogin_congr users]
      refine signing.served ?_
      rcases moved.onConnection accounted.connected accounted.apart (invited private_) with
        ⟨bytes, rfl, queue, _, owes⟩ | ⟨message, _, busy, _⟩ | ⟨_, queue, idle, _⟩
      · have there := served.resolve_left fun busy => busy (owes.trans silent)
        exact Or.inr fun none => there (queue.trans none)
      · exact Or.inl (by simp [busy])
      · have there := served.resolve_left fun busy => busy idle
        exact Or.inr fun none => there (queue.trans none)
  · refine ⟨signing.name, signing.connected, signing.request, fun unserved => absurd after unserved, fun _ => ?_⟩
    have sent := commandOf_register (signing.request.trans last)
    have command_eq := Option.some.inj ((commandOf_heard heard).1.symm.trans sent)
    show granted past = true ↔ w'.userStore.isLogin username.text = some true
    rw [effect, isLogin_register command_eq]
    exact signing.unserved before

theorem Signing.others {w : Shared} (signing : Signing past d signUp username password)
    (private_ : d.Private (.others w)) (untouched : d.Untouched (.others w)) :
    Signing ((d, .others w) :: past) { d with world := w } signUp username password := by
  have users : w.userStore.users username.text = d.world.userStore.users username.text := by
    rw [← signing.typed]
    exact untouched
  have queue : ({ d with world := w } : Dialogue).replies = d.replies := private_.1
  have line : ({ d with world := w } : Dialogue).line = d.line := by simp only [line, queue]
  refine ⟨signing.name, signing.connected, signing.request, fun unserved => ?_, fun served => ?_⟩
  · exact (signing.unserved (line ▸ unserved)).trans (grants_congr users).symm
  · show granted past = true ↔ w.userStore.isLogin username.text = some true
    rw [isLogin_congr users]
    exact signing.served (queue ▸ served)

/-- A client that sends SIGNUP or LOGIN waits for what its branch does to the store as it is. -/
theorem Followed.client {a : ClientAction} (followed : Followed past d) (accounted : d'.Accounted)
    (stepped : d.step (.client a) = some d') : Followed ((d, .client a) :: past) d' := by
  obtain ⟨c, message, acted, rfl⟩ := step_client stepped
  refine ⟨accounted, fun starting => ?_, fun signUp atPhase => ?_⟩
  · cases acted with
    | start | leave | signUpLogin | logout | sendExit | close => simp [Client.goto] at starting
    | call atMenu | stay atMenu => simp [atMenu] at starting
    | interrupt => exact followed.starting starting
  · cases acted with
    | start | leave | logout | sendExit | close => simp [Client.goto] at atPhase
    | call atMenu | stay atMenu => simp [atMenu] at atPhase
    | interrupt =>
      obtain ⟨username, password, signing⟩ := followed.signing signUp atPhase
      rw [Option.toList_none, List.append_nil]
      exact ⟨username, password, signing.name, signing.connected, signing.request, signing.unserved, signing.served⟩
    | signUpLogin atMenu connected sent =>
      cases atPhase
      refine ⟨_, _, rfl, connected, ?_, fun _ => decide_eq_true_iff, fun served => ?_⟩
      · exact sent.trans List.getLast?_concat.symm
      · obtain ⟨idle, none⟩ := followed.accounted.quiet (by rw [atMenu]; rfl)
        rcases served with busy | queued
        · exact absurd idle busy
        · exact absurd none queued

theorem Followed.handler {a : Action} (followed : Followed past d) (private_ : d.Private (.handler a))
    (stepped : d.step (.handler a) = some d') : Followed ((d, .handler a) :: past) d' := by
  have accounted := followed.accounted.handler private_ stepped
  obtain ⟨taken, h', w', takes, run, rfl⟩ := step_handler stepped
  refine ⟨accounted, followed.starting, fun signUp atPhase => ?_⟩
  obtain ⟨username, password, signing⟩ := followed.signing signUp atPhase
  exact ⟨username, password, signing.handler followed.accounted private_ takes (Handler.step_moved run)⟩

/-- After a `recv` the client is in neither phase. -/
theorem Followed.received {e : DialogueEvent} {reply : Option Text} {c : Client} (accounted : d'.Accounted)
    (client : d'.client = c) (read : d.client.receive reply = some c) : Followed ((d, e) :: past) d' := by
  have next := (Client.receive_phase read).2
  refine ⟨accounted, fun atPhase => ?_, fun signUp atPhase => ?_⟩
  · simp [← client, atPhase] at next
  · simp [← client, atPhase] at next

theorem Followed.step {e : DialogueEvent} (followed : Followed past d) (private_ : d.Private e)
    (untouched : d.Untouched e) (stepped : d.step e = some d') : Followed ((d, e) :: past) d' := by
  have accounted := followed.accounted.step private_ stepped
  cases e with
  | client => exact followed.client accounted stepped
  | handler => exact followed.handler private_ stepped
  | reply =>
    rcases step_reply stepped with ⟨_, _, _, c, _, _, read, rfl⟩ | ⟨_, _, c, read, rfl⟩
    · exact .received accounted rfl read
    · exact .received accounted rfl read
  | replyFails =>
    obtain ⟨_, _, c, read, rfl⟩ := step_replyFails stepped
    exact .received accounted rfl read
  | gathered =>
    cases Option.some.inj stepped
    refine ⟨accounted, followed.starting, fun signUp atPhase => ?_⟩
    obtain ⟨username, password, signing⟩ := followed.signing signUp atPhase
    exact ⟨username, password, signing.name, signing.connected, signing.request, signing.unserved, signing.served⟩
  | others w =>
    cases Option.some.inj stepped
    refine ⟨accounted, followed.starting, fun signUp atPhase => ?_⟩
    obtain ⟨username, password, signing⟩ := followed.signing signUp atPhase
    exact ⟨username, password, signing.others private_ untouched⟩

end Dialogue

end Signaling
