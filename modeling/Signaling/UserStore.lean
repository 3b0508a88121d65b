import Mathlib.Logic.Function.Basic
import Signaling.Machine.CText

namespace Signaling
open Machine CText

/-- A record of the store. `none` in `islogin` and `socketFd` is a member that no constructor or
setter has written, which is what `User()` leaves there. -/
structure User where
  username : Text := []
  password : Text := []
  islogin : Option Bool := none
  socketFd : Option Int := none
  deriving DecidableEq, Repr

def User.setUsername (user : User) (username : Text) : User := { user with username := username }

def User.setPassword (user : User) (password : Text) : User := { user with password := password }

def User.setIslogin (user : User) (islogin : Option Bool) : User := { user with islogin := islogin }

def User.setSocketFd (user : User) (socketFd : Option Int) : User := { user with socketFd := socketFd }

structure UserStore where
  users : Text → Option User := fun _ => none

namespace UserStore

/-- `users[username].setter(..)`: `operator[]` first inserts `User()` under an absent key. -/
def atKey (store : UserStore) (username : Text) (setter : User → User) : UserStore :=
  { users := Function.update store.users username (some (setter ((store.users username).getD {}))) }

def addUser (store : UserStore) (user : User) : UserStore :=
  (((store.atKey user.username (·.setUsername user.username)).atKey user.username
    (·.setPassword user.password)).atKey user.username
    (·.setIslogin user.islogin)).atKey user.username (·.setSocketFd user.socketFd)

def loginUser (store : UserStore) (username password : Text) : Bool × UserStore :=
  match store.users username with
  | some user =>
    if user.password = password then (true, store.atKey username (·.setIslogin (some true)))
    else (false, store)
  | none => (false, store)

/-- Unlike its siblings it does not look the key up first. -/
def logOutUser (store : UserStore) (username : Text) : UserStore :=
  store.atKey username (·.setIslogin (some false))

def hasUser (store : UserStore) (username : Text) : Bool := (store.users username).isSome

/-- `none` where the flag read was never written. -/
def isLogin (store : UserStore) (username : Text) : Option Bool :=
  match store.users username with
  | some user => user.islogin
  | none => some false

/-- `none` where the source throws `std::runtime_error("User not found")`. -/
def getUser (store : UserStore) (username : Text) : Option User := store.users username

variable {store : UserStore} {u username password : Text} {user : User}

theorem users_atKey (setter : User → User) : (store.atKey username setter).users u =
    if u = username then some (setter ((store.users username).getD {})) else store.users u := by
  simp only [atKey, Function.update_apply]

/-- The four setters overwrite the whole record, whatever was stored under the name. -/
theorem users_addUser : (store.addUser user).users u =
    if u = user.username then some user else store.users u := by
  by_cases same : u = user.username
  · subst same
    simp [addUser, users_atKey, User.setUsername, User.setPassword, User.setIslogin, User.setSocketFd]
  · simp [addUser, users_atKey, same]

theorem users_logOutUser : (store.logOutUser username).users u =
    if u = username then some (((store.users username).getD {}).setIslogin (some false))
    else store.users u :=
  users_atKey _

theorem loginUser_true_iff : (store.loginUser username password).1 = true ↔
    ∃ user, store.users username = some user ∧ user.password = password := by
  unfold loginUser
  cases store.users username with
  | none => simp
  | some user => by_cases same : user.password = password <;> simp [same]

theorem users_loginUser_true (accepted : (store.loginUser username password).1 = true) :
    (store.loginUser username password).2.users u =
      if u = username then (store.users u).map (·.setIslogin (some true)) else store.users u := by
  obtain ⟨user, found, same⟩ := loginUser_true_iff.mp accepted
  by_cases key : u = username
  · subst key
    simp [loginUser, found, same, users_atKey]
  · simp [loginUser, found, same, users_atKey, key]

theorem loginUser_false (refused : (store.loginUser username password).1 = false) :
    (store.loginUser username password).2 = store := by
  unfold loginUser at refused ⊢
  split
  · rename_i user found
    by_cases same : user.password = password
    · simp [found, same] at refused
    · simp [same]
  · rfl

theorem isLogin_addUser : (store.addUser user).isLogin u =
    if u = user.username then user.islogin else store.isLogin u := by
  by_cases same : u = user.username <;> simp [isLogin, users_addUser, same]

theorem isLogin_logOutUser : (store.logOutUser username).isLogin u =
    if u = username then some false else store.isLogin u := by
  by_cases same : u = username <;> simp [isLogin, users_logOutUser, same, User.setIslogin]

theorem isLogin_loginUser : (store.loginUser username password).2.isLogin u =
    if (store.loginUser username password).1 = true ∧ u = username then some true
    else store.isLogin u := by
  cases accepted : (store.loginUser username password).1 with
  | false => simp [loginUser_false accepted]
  | true =>
    obtain ⟨user, found, _⟩ := loginUser_true_iff.mp accepted
    by_cases key : u = username
    · subst key
      simp [isLogin, users_loginUser_true accepted, found, User.setIslogin]
    · simp [isLogin, users_loginUser_true accepted, key]

theorem isLogin_true_iff : store.isLogin u = some true ↔
    ∃ user, store.users u = some user ∧ user.islogin = some true := by
  unfold isLogin
  cases store.users u <;> simp

end UserStore

end Signaling
