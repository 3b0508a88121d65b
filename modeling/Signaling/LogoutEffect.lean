import Signaling.StoreCalls

namespace Signaling
open Machine CText

/-- The flag of the name is clear in the new store, and nothing else differs. -/
def ClearsExactly (store store' : UserStore) (u : Text) : Prop :=
  ∃ user, store.users u = some user ∧
    store'.users = Function.update store.users u (some (user.setIslogin (some false)))

/-- What a LOGOUT of session `i` should do to the store. -/
def LogoutEffect (history : List StoreCall) (store store' : UserStore) (i : Nat) : Prop :=
  match standing history i with
  | some u => ClearsExactly store store' u
  | none => store' = store

/-- The last step, if it was a LOGOUT, did what it should. -/
def LogoutRight : History → Server → Prop
  | [], _ => True
  | (r, e) :: past, s => ∀ i username, r.storeCall e = some (.logOutUser i username) →
      LogoutEffect (calls past) r.userStore s.userStore i

/-- The name in the variable of the session that sends LOGOUT is the one it is logged in under, or
the call finds nothing to do: a stored record with a clear flag, and no set flag to clear. -/
def StoreCall.LogsOutSelf (history : List StoreCall) (store : UserStore) : StoreCall → Prop
  | .logOutUser i username => standing history i = some username ∨
      store.hasUser username = true ∧ store.isLogin username = some false ∧
        ∀ u ∈ standing history i, store.isLogin u = some false
  | _ => True

def LogoutOfSelf (past : History) (s : Server) (e : Event) : Prop :=
  ∀ call ∈ s.storeCall e, call.LogsOutSelf (calls past) s.userStore

instance (history : List StoreCall) (store : UserStore) : ∀ call : StoreCall,
    Decidable (call.LogsOutSelf history store)
  | .logOutUser i username => inferInstanceAs (Decidable (standing history i = some username ∨
      store.hasUser username = true ∧ store.isLogin username = some false ∧
        ∀ u ∈ standing history i, store.isLogin u = some false))
  | .addUser .. | .loginUser .. => isTrue trivial

instance (past : History) (s : Server) (e : Event) : Decidable (LogoutOfSelf past s e) :=
  inferInstanceAs (Decidable (∀ call ∈ s.storeCall e, call.LogsOutSelf (calls past) s.userStore))

section Effect
variable {history : List StoreCall} {store : UserStore} {u username : Text} {i : Nat}

theorem UserStore.ext_users {store store' : UserStore} (same : store.users = store'.users) :
    store = store' := by
  cases store
  cases store'
  exact congrArg UserStore.mk same

theorem isLogin_of_found {user : User} (found : store.users u = some user) :
    store.isLogin u = user.islogin := by
  simp [UserStore.isLogin, found]

/-- A stored record with a clear flag is left as it is. -/
theorem logOutUser_clear (present : store.hasUser username = true)
    (clear : store.isLogin username = some false) : store.logOutUser username = store := by
  obtain ⟨user, found⟩ := Option.isSome_iff_exists.mp present
  rw [isLogin_of_found found] at clear
  refine UserStore.ext_users (funext fun u => ?_)
  rw [UserStore.users_logOutUser]
  split_ifs with same
  · subst same
    rw [found, ← clear]
    rfl
  · rfl

theorem clearsExactly_logOutUser {user : User} (found : store.users u = some user) :
    ClearsExactly store (store.logOutUser u) u := by
  refine ⟨user, found, funext fun v => ?_⟩
  rw [UserStore.users_logOutUser, Function.update_apply, found]
  rfl

theorem clearsExactly_self (present : store.hasUser u = true)
    (clear : store.isLogin u = some false) : ClearsExactly store store u := by
  obtain ⟨user, found⟩ := Option.isSome_iff_exists.mp present
  have same := logOutUser_clear present clear
  simpa only [same] using clearsExactly_logOutUser found

/-- A call that left the record of its name alone found it there with a clear flag. -/
theorem clear_of_logOutUser_same
    (same : (store.logOutUser username).users username = store.users username) :
    store.hasUser username = true ∧ store.isLogin username = some false := by
  rw [UserStore.users_logOutUser, if_pos rfl] at same
  refine ⟨Option.isSome_iff_exists.mpr ⟨_, same.symm⟩, ?_⟩
  rw [isLogin_of_found same.symm]
  rfl

/-- A session that is logged in under another name than the one in its variable leaves that other
name as it is, so its LOGOUT is right only where nothing was to be done. -/
theorem clearsExactly_other (differs : u ≠ username)
    (exact : ClearsExactly store (store.logOutUser username) u) :
    store.hasUser username = true ∧ store.isLogin username = some false ∧
      store.isLogin u = some false := by
  obtain ⟨user, found, after⟩ := exact
  have atName := congrFun after username
  rw [Function.update_of_ne differs.symm] at atName
  obtain ⟨present, clear⟩ := clear_of_logOutUser_same atName
  refine ⟨present, clear, ?_⟩
  have atLogin := congrFun after u
  rw [Function.update_self, UserStore.users_logOutUser, if_neg differs, found] at atLogin
  rw [isLogin_of_found found]
  exact congrArg User.islogin (Option.some.inj atLogin)

theorem logoutEffect_iff (stored : ∀ u ∈ standing history i, store.hasUser u = true) :
    LogoutEffect history store (store.logOutUser username) i ↔
      (StoreCall.logOutUser i username).LogsOutSelf history store := by
  cases login : standing history i with
  | none =>
    simp only [LogoutEffect, StoreCall.LogsOutSelf, login, reduceCtorEq, false_or,
      Option.not_mem_none, false_implies, implies_true, and_true]
    constructor
    · intro same
      exact clear_of_logOutUser_same (congrArg (fun store => store.users username) same)
    · rintro ⟨present, clear⟩
      exact logOutUser_clear present clear
  | some u =>
    have present := stored u login
    obtain ⟨user, found⟩ := Option.isSome_iff_exists.mp present
    simp only [LogoutEffect, StoreCall.LogsOutSelf, login, Option.mem_some_iff, Option.some.injEq,
      forall_eq']
    by_cases self : u = username
    · subst self
      exact iff_of_true (clearsExactly_logOutUser found) (Or.inl rfl)
    · simp only [self, false_or]
      constructor
      · exact clearsExactly_other self
      · rintro ⟨there, clear, cleared⟩
        rw [logOutUser_clear there clear]
        exact clearsExactly_self present cleared

end Effect

/-- All along a run every LOGOUT does what it should exactly if every one of them came from a
session whose variable held the name it was logged in under, or found nothing to do. -/
theorem logout_effect_iff {past : History} {s : Server} (run : ServerRun past s) :
    Always LogoutRight past s ↔ Throughout LogoutOfSelf past := by
  refine run.always_iff trivial (fun past s e t previous _ stepped => ?_)
  have after := Server.step_userStore stepped
  constructor
  · intro right call made
    cases call with
    | addUser | loginUser => trivial
    | logOutUser i username =>
      rw [Option.mem_def.mp made] at after
      have effect := right i username made
      rw [show t.userStore = s.userStore.logOutUser username from after] at effect
      exact (logoutEffect_iff (fun u login => standing_stored previous login)).mp effect
  · intro self i username made
    rw [made] at after
    rw [show t.userStore = s.userStore.logOutUser username from after]
    exact (logoutEffect_iff (fun u login => standing_stored previous login)).mpr (self _ made)

/-- A session that logs in and out, and then logs out again. -/
def plainLogoutRun : List Event :=
  .accept true :: session 0 (sends "SIGNUP bob pw" ++ sends "LOGIN bob pw" ++ sends "LOGOUT bob" ++
    sends "LOGOUT bob")

theorem plain_logout_right : ∃ past s,
    execute Server.step [] Server.initial plainLogoutRun = some (past, s) ∧ Always LogoutRight past s := by
  have ran : (execute Server.step [] Server.initial plainLogoutRun).any (fun r =>
      decide (Throughout LogoutOfSelf r.1)) = true := by
    decide +kernel
  obtain ⟨past, s, done, checked⟩ := execute_check _ ran
  exact ⟨past, s, done, (logout_effect_iff (execute_trail done)).mpr (of_decide_eq_true checked)⟩

/-- A session that is logged in as bob tries to log in as alice, in vain, and logs out. -/
def strayLogoutRun : List Event :=
  .accept true :: session 0 (sends "SIGNUP bob pw" ++ sends "LOGIN bob pw" ++ sends "LOGIN alice no" ++
    [.recv (clientFrame "LOGOUT alice")])

theorem stray_logout_not_right : ∃ past s,
    execute Server.step [] Server.initial strayLogoutRun = some (past, s) ∧ ¬Always LogoutRight past s := by
  have ran : (execute Server.step [] Server.initial strayLogoutRun).any (fun r =>
      endsWith (.thread 0 (.recv (clientFrame "LOGOUT alice"))) (fun before earlier =>
        decide (before.storeCall (.thread 0 (.recv (clientFrame "LOGOUT alice"))) =
            some (.logOutUser 0 "alice".toList) ∧
          standing (calls earlier) 0 = some "bob".toList ∧
          r.2.userStore.isLogin "bob".toList = some true)) r.1) = true := by
    decide +kernel
  obtain ⟨past, s, done, checked⟩ := execute_check _ ran
  refine ⟨past, s, done, fun always => ?_⟩
  obtain ⟨before, earlier, rfl, facts⟩ := endsWith_iff.mp checked
  obtain ⟨made, login, flagged⟩ := of_decide_eq_true facts
  have effect := always.here 0 _ made
  rw [LogoutEffect, login] at effect
  obtain ⟨user, _, cleared⟩ := effect
  have found : s.userStore.users "bob".toList = some (user.setIslogin (some false)) := by
    rw [cleared, Function.update_self]
  rw [isLogin_of_found found] at flagged
  simp [User.setIslogin] at flagged

end Signaling
