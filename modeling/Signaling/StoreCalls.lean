import Signaling.ServerSteps
import Signaling.Machine.Trail

namespace Signaling
open Machine CText

/-- A call that may change the store, with the session that made it. `result` is what
`loginUser` returned, which `client_handler` throws away. -/
inductive StoreCall
  | addUser (session : Nat) (user : User)
  | loginUser (session : Nat) (username password : Text) (result : Bool)
  | logOutUser (session : Nat) (username : Text)
  deriving DecidableEq, Repr

namespace StoreCall

def session : StoreCall → Nat
  | .addUser i _ => i
  | .loginUser i _ _ _ => i
  | .logOutUser i _ => i

def apply (store : UserStore) : StoreCall → UserStore
  | .addUser _ user => store.addUser user
  | .loginUser _ username password _ => (store.loginUser username password).2
  | .logOutUser _ username => store.logOutUser username

end StoreCall

/-- The call of the store that the branch of a command makes in session `i`. -/
def Command.storeCall (i : Nat) (h : Handler) (store : UserStore) : Command → Option StoreCall
  | .signup username password =>
    some (.addUser i ⟨username, password, some false, some h.clientSocketFd⟩)
  | .login username password =>
    some (.loginUser i username password (store.loginUser username password).1)
  | .logout => some (.logOutUser i h.username)
  | _ => none

namespace Server

/-- The session and the command of a step that takes a command from a client. -/
def dispatched (s : Server) : Event → Option (Nat × Handler × Command)
  | .thread i a => (s.threads[i]?).bind fun h => (h.hears s.toShared a).map fun command => (i, h, command)
  | _ => none

def storeCall (s : Server) (e : Event) : Option StoreCall :=
  (s.dispatched e).bind fun (i, h, command) => command.storeCall i h s.userStore

end Server

/-- The steps of a run of the server, the latest first. -/
abbrev History := List (Server × Event)

abbrev ServerRun (past : History) (s : Server) : Prop := Trail Server.step Server.initial past s

/-- The store calls of a run, the latest first. -/
def calls (past : History) : List StoreCall := past.filterMap fun step => step.1.storeCall step.2

/-- The store that a list of calls builds from the empty one. -/
def replay : List StoreCall → UserStore
  | [] => {}
  | call :: before => call.apply (replay before)

/-- The user that the latest SIGNUP of a name handed to the store. -/
def latestSignup : List StoreCall → Text → Option User
  | [], _ => none
  | .addUser _ user :: before, u => if user.username = u then some user else latestSignup before u
  | .loginUser .. :: before, u => latestSignup before u
  | .logOutUser .. :: before, u => latestSignup before u

/-- The name of a session's most recent successful LOGIN, unless the session has sent LOGOUT since. -/
def standing : List StoreCall → Nat → Option Text
  | [], _ => none
  | .addUser .. :: before, i => standing before i
  | .loginUser j u _ result :: before, i => if result ∧ j = i then some u else standing before i
  | .logOutUser j _ :: before, i => if j = i then none else standing before i

section Steps
variable {s t : Server} {e : Event} {past : History} {call : StoreCall}

@[simp] theorem calls_nil : calls [] = [] := rfl

theorem calls_of_none (quiet : s.storeCall e = none) : calls ((s, e) :: past) = calls past := by
  simp [calls, quiet]

theorem calls_of_some (made : s.storeCall e = some call) :
    calls ((s, e) :: past) = call :: calls past := by
  simp [calls, made]

theorem Server.dispatched_iff {i : Nat} {h : Handler} {command : Command} :
    s.dispatched e = some (i, h, command) ↔
      ∃ a, e = .thread i a ∧ s.threads[i]? = some h ∧ h.hears s.toShared a = some command := by
  cases e with
  | thread j a =>
    simp only [dispatched, Option.bind_eq_some_iff, Option.map_eq_some_iff, Prod.mk.injEq]
    constructor
    · rintro ⟨g, atThread, heard, found, rfl, rfl, rfl⟩
      exact ⟨a, rfl, atThread, found⟩
    · rintro ⟨b, same, atThread, found⟩
      cases same
      exact ⟨h, atThread, command, found, rfl, rfl, rfl⟩
  | accept | interrupt | listener => simp [dispatched]

/-- A store call comes from a command that its session's handler took at the top of its loop. -/
theorem Server.storeCall_spec (made : s.storeCall e = some call) :
    ∃ h command, s.dispatched e = some (call.session, h, command) ∧
      command.storeCall call.session h s.userStore = some call := by
  obtain ⟨⟨i, h, command⟩, taken, built⟩ := Option.bind_eq_some_iff.mp made
  have same : call.session = i := by
    cases command <;> simp only [Command.storeCall, Option.some.injEq, reduceCtorEq] at built <;>
      subst built <;> rfl
  subst same
  exact ⟨h, command, taken, built⟩

/-- Only its own thread makes the calls of a session. -/
theorem Server.storeCall_session (made : s.storeCall e = some call) :
    ∃ a, e = .thread call.session a := by
  obtain ⟨h, command, taken, _⟩ := storeCall_spec made
  obtain ⟨a, same, _⟩ := dispatched_iff.mp taken
  exact ⟨a, same⟩

theorem standing_cons_of_ne {before : List StoreCall} {i : Nat} (other : call.session ≠ i) :
    standing (call :: before) i = standing before i := by
  cases call with
  | addUser => rfl
  | loginUser j => exact if_neg (fun both => other both.2)
  | logOutUser j => exact if_neg other

/-- A session's standing is not touched by the steps of others. -/
theorem standing_kept {i : Nat} (other : ∀ a, e ≠ .thread i a) :
    standing (calls ((s, e) :: past)) i = standing (calls past) i := by
  cases made : s.storeCall e with
  | none => rw [calls_of_none made]
  | some call =>
    rw [calls_of_some made]
    obtain ⟨a, same⟩ := Server.storeCall_session made
    refine standing_cons_of_ne ?_
    rintro rfl
    exact other a same

theorem Server.storeCall_loginUser {i : Nat} {username password : Text} {result : Bool}
    (made : s.storeCall e = some (.loginUser i username password result)) :
    result = (s.userStore.loginUser username password).1 := by
  obtain ⟨h, command, _, built⟩ := storeCall_spec made
  cases command <;> simp only [Command.storeCall, Option.some.injEq, reduceCtorEq] at built
  cases built
  rfl

/-- SIGNUP stores the name and the password of its frame, a cleared flag and the descriptor that
the session's variable holds. -/
theorem Server.storeCall_addUser {i : Nat} {user : User} (made : s.storeCall e = some (.addUser i user)) :
    ∃ h, s.threads[i]? = some h ∧ user.islogin = some false ∧ user.socketFd = some h.clientSocketFd := by
  obtain ⟨h, command, taken, built⟩ := storeCall_spec made
  obtain ⟨_, _, atThread, _⟩ := dispatched_iff.mp taken
  cases command <;> simp only [Command.storeCall, Option.some.injEq, reduceCtorEq] at built
  cases built
  exact ⟨h, atThread, rfl, rfl⟩

/-- A step of a handler changes the store by the call of the command it took, if any. -/
theorem Handler.Moved.userStore_eq {i : Nat} {h h' : Handler} {w w' : Shared} {a : Action}
    (moved : h.Moved i w a h' w') :
    w'.userStore = ((h.hears w a).bind (·.storeCall i h w.userStore)).elim w.userStore
      (·.apply w.userStore) := by
  cases moved with
  | hangup _ heard | client _ heard | signup _ heard | login _ heard | call _ heard
  | refuse _ heard | logout _ heard | exit _ heard | ignored _ heard => simp only [heard]; rfl
  | accepted _ read | declined _ read => exact Shared.readReply_userStore read
  | greet | reply | invite | forward | exitReply | exitNotice => exact Shared.send_userStore
  | connect => exact Shared.connected_userStore
  | stop | socket | socketFails | connectFails | hasUser | hasNoUser | getUser | noUser
  | exitReplyFails | close | finish | closeAgain => rfl

/-- A step of the server changes the store by the call it makes, if any. -/
theorem Server.step_userStore (run : s.step e = some t) :
    t.userStore = (s.storeCall e).elim s.userStore (·.apply s.userStore) := by
  cases step_moved run with
  | accept | acceptLate | acceptFails | interrupt => rfl
  | listener moved => exact Shared.listen_userStore moved
  | thread atThread moved =>
    have through := moved.userStore_eq
    simp only [storeCall, dispatched, atThread, Option.bind_some]
    cases heard : (Handler.hears _ s.toShared _) <;> simpa [heard] using through

end Steps

/-- The parts of a record that only SIGNUP writes. -/
structure SameAccount (old new : User) : Prop where
  username : new.username = old.username
  password : new.password = old.password
  socketFd : new.socketFd = old.socketFd

theorem SameAccount.refl (user : User) : SameAccount user user := ⟨rfl, rfl, rfl⟩

theorem SameAccount.setIslogin (user : User) (islogin : Option Bool) :
    SameAccount user (user.setIslogin islogin) := ⟨rfl, rfl, rfl⟩

section Records
variable {store : UserStore} {call : StoreCall} {before : List StoreCall} {u : Text} {user : User}

def StoreCall.signsUp (call : StoreCall) (u : Text) : Prop :=
  match call with
  | .addUser _ user => user.username = u
  | _ => False

theorem StoreCall.signsUp_iff : call.signsUp u ↔ ∃ i added, call = .addUser i added ∧ added.username = u := by
  cases call <;> simp [signsUp]

/-- No call but SIGNUP of the name changes the account of a stored name. -/
theorem StoreCall.apply_of_some (found : store.users u = some user) (other : ¬call.signsUp u) :
    ∃ new, (call.apply store).users u = some new ∧ SameAccount user new := by
  cases call with
  | addUser i added =>
    have differs : u ≠ added.username := fun same => other same.symm
    exact ⟨user, by simp only [apply, UserStore.users_addUser, if_neg differs, found], .refl user⟩
  | loginUser i username password result =>
    cases accepted : (store.loginUser username password).1 with
    | false => exact ⟨user, by simp only [apply, UserStore.loginUser_false accepted, found], .refl user⟩
    | true =>
      simp only [apply, UserStore.users_loginUser_true accepted, found, Option.map_some]
      split_ifs
      · exact ⟨_, rfl, .setIslogin user _⟩
      · exact ⟨_, rfl, .refl user⟩
  | logOutUser i username =>
    simp only [apply, UserStore.users_logOutUser]
    split_ifs with same
    · subst same
      exact ⟨_, rfl, by rw [found]; exact .setIslogin user _⟩
    · exact ⟨user, found, .refl user⟩

/-- No call removes a name. -/
theorem StoreCall.hasUser_apply (present : store.hasUser u = true) :
    (call.apply store).hasUser u = true := by
  obtain ⟨user, found⟩ := Option.isSome_iff_exists.mp present
  by_cases here : call.signsUp u
  · obtain ⟨i, added, rfl, same⟩ := signsUp_iff.mp here
    simp [UserStore.hasUser, apply, UserStore.users_addUser, same]
  · obtain ⟨new, foundNew, _⟩ := apply_of_some found here
    exact Option.isSome_iff_exists.mpr ⟨new, foundNew⟩

/-- The only other call that adds a name is LOGOUT, which leaves a record with no name, no
password and no descriptor in it. -/
theorem StoreCall.apply_of_none (absent : store.users u = none) (other : ¬call.signsUp u)
    (found : (call.apply store).users u = some user) : user = { islogin := some false } := by
  cases call with
  | addUser i added =>
    have differs : u ≠ added.username := fun same => other same.symm
    simp [apply, UserStore.users_addUser, differs, absent] at found
  | loginUser i username password result =>
    cases accepted : (store.loginUser username password).1 with
    | false => simp [apply, UserStore.loginUser_false accepted, absent] at found
    | true => simp [apply, UserStore.users_loginUser_true accepted, absent] at found
  | logOutUser i username =>
    simp only [apply, UserStore.users_logOutUser] at found
    split_ifs at found with same
    · subst same
      simpa [absent, User.setIslogin] using found.symm
    · simp [absent] at found

theorem latestSignup_cons_of_not (other : ¬call.signsUp u) :
    latestSignup (call :: before) u = latestSignup before u := by
  cases call with
  | addUser i user => exact if_neg other
  | loginUser | logOutUser => rfl

/-- The account of a name that was signed up is the one of its latest SIGNUP. -/
theorem replay_signed (signed : latestSignup before u = some user) :
    ∃ stored, (replay before).users u = some stored ∧ SameAccount user stored := by
  induction before with
  | nil => simp [latestSignup] at signed
  | cons call before ih =>
    by_cases here : call.signsUp u
    · obtain ⟨i, added, rfl, same⟩ := StoreCall.signsUp_iff.mp here
      rw [latestSignup, if_pos same] at signed
      cases Option.some.inj signed
      exact ⟨user, by simp only [replay, StoreCall.apply, UserStore.users_addUser, same, if_true], .refl user⟩
    · rw [latestSignup_cons_of_not here] at signed
      obtain ⟨old, found, kept⟩ := ih signed
      obtain ⟨new, foundNew, keptNew⟩ := StoreCall.apply_of_some found here
      exact ⟨new, foundNew, keptNew.username.trans kept.username, keptNew.password.trans kept.password,
        keptNew.socketFd.trans kept.socketFd⟩

/-- A LOGIN of a signed-up name succeeds exactly with the password of its latest SIGNUP. -/
theorem loginUser_replay {user : User} {password : Text} (signed : latestSignup before u = some user) :
    ((replay before).loginUser u password).1 = true ↔ user.password = password := by
  obtain ⟨stored, found, same⟩ := replay_signed signed
  rw [UserStore.loginUser_true_iff]
  constructor
  · rintro ⟨other, again, matched⟩
    cases Option.some.inj (found.symm.trans again)
    exact same.password.symm.trans matched
  · intro matched
    exact ⟨stored, found, same.password.trans matched⟩

/-- A name that is stored but was never signed up has an empty password and no descriptor. -/
theorem replay_unsigned (unsigned : latestSignup before u = none)
    (found : (replay before).users u = some user) : user.password = [] ∧ user.socketFd = none := by
  induction before generalizing user with
  | nil => simp [replay] at found
  | cons call before ih =>
    by_cases here : call.signsUp u
    · obtain ⟨i, added, rfl, same⟩ := StoreCall.signsUp_iff.mp here
      rw [latestSignup, if_pos same] at unsigned
      simp at unsigned
    · rw [latestSignup_cons_of_not here] at unsigned
      cases stored : (replay before).users u with
      | none =>
        rw [StoreCall.apply_of_none stored here found]
        exact ⟨rfl, rfl⟩
      | some old =>
        obtain ⟨new, foundNew, kept⟩ := StoreCall.apply_of_some stored here
        cases Option.some.inj (foundNew.symm.trans found)
        obtain ⟨password, socketFd⟩ := ih unsigned stored
        exact ⟨kept.password.trans password, kept.socketFd.trans socketFd⟩

end Records

/-- The store of a reached state is the one its store calls build. -/
theorem userStore_eq_replay {past : History} {s : Server} (run : ServerRun past s) :
    s.userStore = replay (calls past) := by
  induction run with
  | start => rfl
  | @next past s e t previous stepped ih =>
    rw [Server.step_userStore stepped]
    cases made : s.storeCall e with
    | none => simpa only [calls_of_none made, Option.elim_none] using ih
    | some call => simp only [calls_of_some made, replay, Option.elim_some, ih]

/-- A session can only be logged in under a stored name. -/
theorem standing_stored {past : History} {s : Server} (run : ServerRun past s) {i : Nat} {u : Text}
    (login : standing (calls past) i = some u) : s.userStore.hasUser u = true := by
  rw [userStore_eq_replay run]
  induction run with
  | start => simp [standing] at login
  | @next past s e t previous stepped ih =>
    cases made : s.storeCall e with
    | none =>
      rw [calls_of_none made] at login ⊢
      exact ih login
    | some call =>
      rw [calls_of_some made] at login ⊢
      refine StoreCall.hasUser_apply ?_
      cases call with
      | addUser j user => exact ih login
      | loginUser j v password result =>
        rw [standing] at login
        split_ifs at login with successful
        · cases Option.some.inj login
          have accepted := (Server.storeCall_loginUser made).symm.trans successful.1
          obtain ⟨user, found, _⟩ := UserStore.loginUser_true_iff.mp accepted
          exact Option.isSome_iff_exists.mpr ⟨user, userStore_eq_replay previous ▸ found⟩
        · exact ih login
      | logOutUser j v =>
        rw [standing] at login
        split_ifs at login
        exact ih login

/-- Only a session that exists can be logged in. -/
theorem standing_lt {past : History} {s : Server} (run : ServerRun past s) {i : Nat} {u : Text}
    (login : standing (calls past) i = some u) : i < s.threads.length := by
  induction run with
  | start => simp [standing] at login
  | @next past s e t previous stepped ih =>
    have grown := Server.threads_length_le stepped
    by_cases own : ∃ a, e = .thread i a
    · obtain ⟨a, rfl⟩ := own
      cases Server.step_moved stepped with
      | thread atThread =>
        have inside := (List.getElem?_eq_some_iff.mp atThread).1
        simpa using inside
    · rw [standing_kept (fun a same => own ⟨a, same⟩)] at login
      have before := ih login
      omega

end Signaling
