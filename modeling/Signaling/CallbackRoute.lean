import Signaling.StoreCalls

namespace Signaling
open Machine CText

/-- The session whose successful LOGIN of the name is the latest. -/
def latestLogin : List StoreCall → Text → Option Nat
  | [], _ => none
  | .addUser .. :: before, u => latestLogin before u
  | .loginUser j username _ result :: before, u =>
    if result ∧ username = u then some j else latestLogin before u
  | .logOutUser .. :: before, u => latestLogin before u

/-- The descriptor stored under the name is the callback socket of the session whose LOGIN set
its flag. -/
def Routed (past : History) (s : Server) (u : Text) : Prop :=
  ∃ i h user, latestLogin (calls past) u = some i ∧ s.threads[i]? = some h ∧
    s.userStore.users u = some user ∧ user.socketFd = some h.clientSocketFd

def FlagsRouted (past : History) (s : Server) : Prop :=
  ∀ u, s.userStore.isLogin u = some true → Routed past s u

/-- What `socket()` returns, by whether it succeeds. -/
def socketResult (s : Server) (ok : Bool) : Int := if ok then Slots.lowestFree s.descriptors else -1

/-- A LOGIN succeeds only in a session whose callback socket is the stored one, and a session that
has set a flag gets no other callback socket while the flag is set. -/
structure RouteKept (past : History) (s : Server) (e : Event) : Prop where
  login : ∀ i u password h, s.storeCall e = some (.loginUser i u password true) →
    s.threads[i]? = some h → ∀ user ∈ s.userStore.users u, user.socketFd = some h.clientSocketFd
  client : ∀ i ok u, e = .thread i (.socket ok) → s.userStore.isLogin u = some true →
    latestLogin (calls past) u = some i →
    ∀ user ∈ s.userStore.users u, user.socketFd = some (socketResult s ok)

section Steps
variable {past : History} {s t : Server} {e : Event} {i : Nat} {u : Text} {h : Handler}

theorem Handler.Moved.clientSocketFd_eq {h' : Handler} {w w' : Shared} {a : Action}
    (moved : h.Moved i w a h' w') (other : ∀ ok, a ≠ .socket ok) :
    h'.clientSocketFd = h.clientSocketFd := by
  cases moved with
  | socket | socketFails => exact absurd rfl (other _)
  | stop | hangup | client | signup | login | call | refuse | logout | exit | ignored | connect
  | connectFails | greet | reply | hasUser | hasNoUser | getUser | noUser | invite | accepted
  | declined | forward | exitReply | exitReplyFails | exitNotice | close | finish | closeAgain => rfl

/-- Only `socket()` changes the variable. -/
theorem clientSocketFd_kept (stepped : s.step e = some t) (before : s.threads[i]? = some h)
    (other : ∀ ok, e ≠ .thread i (.socket ok)) :
    ∃ h', t.threads[i]? = some h' ∧ h'.clientSocketFd = h.clientSocketFd := by
  by_cases own : ∃ a, e = .thread i a
  · obtain ⟨a, rfl⟩ := own
    cases Server.step_moved stepped with
    | thread atThread moved =>
      cases Option.some.inj (before.symm.trans atThread)
      refine ⟨_, by rw [threads_set atThread, if_pos rfl], moved.clientSocketFd_eq ?_⟩
      rintro ok rfl
      exact other ok rfl
  · exact ⟨h, Server.thread_kept stepped before (fun a same => own ⟨a, same⟩), rfl⟩

theorem clientSocketFd_socket {ok : Bool} (stepped : s.step (.thread i (.socket ok)) = some t) :
    ∃ h', t.threads[i]? = some h' ∧ h'.clientSocketFd = socketResult s ok := by
  cases Server.step_moved stepped with
  | thread atThread moved =>
    refine ⟨_, by rw [threads_set atThread, if_pos rfl], ?_⟩
    cases moved <;> rfl

/-- A route is not touched by a step that leaves the descriptor under the name, the session that
set the flag, and that session's variable as they are. -/
theorem routed_kept {user user' : User} (stepped : s.step e = some t)
    (before : s.userStore.users u = some user) (after : t.userStore.users u = some user')
    (sameFd : user'.socketFd = user.socketFd)
    (sameLogin : latestLogin (calls ((s, e) :: past)) u = latestLogin (calls past) u)
    (other : ∀ i ok, latestLogin (calls past) u = some i → e ≠ .thread i (.socket ok))
    (routed : Routed past s u) : Routed ((s, e) :: past) t u := by
  obtain ⟨i, h, stored, session, atThread, found, fd⟩ := routed
  cases Option.some.inj (before.symm.trans found)
  obtain ⟨h', atThread', sameVar⟩ := clientSocketFd_kept stepped atThread (fun ok => other i ok session)
  exact ⟨i, h', user', sameLogin.trans session, atThread', after, by rw [sameFd, fd, sameVar]⟩

/-- A `socket()` of a session keeps the routes exactly if it returns what is stored under the names
whose flags the session set. -/
theorem flagsRouted_socket {ok : Bool} (routed : FlagsRouted past s)
    (stepped : s.step (.thread i (.socket ok)) = some t) :
    FlagsRouted ((s, .thread i (.socket ok)) :: past) t ↔ RouteKept past s (.thread i (.socket ok)) := by
  have quiet : s.storeCall (.thread i (.socket ok)) = none := by
    simp [Server.storeCall, Server.dispatched, Handler.hears]
  have sameStore : t.userStore = s.userStore := by rw [Server.step_userStore stepped, quiet]; rfl
  have sameCalls : calls ((s, .thread i (.socket ok)) :: past) = calls past := calls_of_none quiet
  obtain ⟨h', atThread', fd'⟩ := clientSocketFd_socket stepped
  constructor
  · intro after
    refine ⟨fun _ _ _ _ made => by simp [quiet] at made, ?_⟩
    intro j ok' u same flagged session user found
    cases same
    obtain ⟨k, h, stored, session', atThread, found', fd⟩ := after u (by rwa [sameStore])
    rw [sameCalls, session] at session'
    cases Option.some.inj session'
    rw [sameStore] at found'
    cases Option.some.inj (found'.symm.trans found)
    cases Option.some.inj (atThread.symm.trans atThread')
    rw [fd, fd']
  · intro kept u flagged
    rw [sameStore] at flagged
    obtain ⟨j, h, user, session, atThread, found, fd⟩ := routed u flagged
    by_cases own : j = i
    · subst own
      refine ⟨j, h', user, by rw [sameCalls, session], atThread', by rw [sameStore, found], ?_⟩
      rw [fd', kept.client j ok u rfl flagged session user found]
    · refine routed_kept stepped found (by rw [sameStore, found]) rfl (by rw [sameCalls]) ?_
        ⟨j, h, user, session, atThread, found, fd⟩
      rintro k ok' session' same
      cases same
      exact own (Option.some.inj (session.symm.trans session'))

/-- A successful LOGIN keeps the routes exactly if its session has the stored callback socket. -/
theorem flagsRouted_login {v password : Text} (routed : FlagsRouted past s)
    (stepped : s.step e = some t) (made : s.storeCall e = some (.loginUser i v password true)) :
    FlagsRouted ((s, e) :: past) t ↔ RouteKept past s e := by
  have accepted := (Server.storeCall_loginUser made).symm
  have after : t.userStore = (s.userStore.loginUser v password).2 := by
    rw [Server.step_userStore stepped, made]; rfl
  obtain ⟨user, found, _⟩ := UserStore.loginUser_true_iff.mp accepted
  obtain ⟨bytes, rfl⟩ : ∃ bytes, e = .thread i (.recv bytes) := by
    obtain ⟨g, command, taken, _⟩ := Server.storeCall_spec made
    obtain ⟨a, same, _, heard⟩ := Server.dispatched_iff.mp taken
    obtain ⟨_, bytes, rfl⟩ := Handler.hears_recv heard
    exact ⟨bytes, same⟩
  have atName : t.userStore.users v = some (user.setIslogin (some true)) := by
    rw [after, UserStore.users_loginUser_true accepted, if_pos rfl, found, Option.map_some]
  have session : latestLogin (calls ((s, .thread i (.recv bytes)) :: past)) v = some i := by
    rw [calls_of_some made, latestLogin, if_pos ⟨rfl, rfl⟩]
  obtain ⟨h, atThread⟩ : ∃ h, s.threads[i]? = some h := by
    cases Server.step_moved stepped with
    | thread atThread => exact ⟨_, atThread⟩
  obtain ⟨h', atThread', sameVar⟩ := clientSocketFd_kept stepped atThread (by simp)
  have meaning : RouteKept past s (.thread i (.recv bytes)) ↔ user.socketFd = some h.clientSocketFd := by
    constructor
    · exact fun kept => kept.login i v password h made atThread user found
    · intro same
      refine ⟨?_, by simp⟩
      intro j u password' g made' atThread'' user' found'
      cases Option.some.inj (made.symm.trans made')
      cases Option.some.inj (atThread.symm.trans atThread'')
      cases Option.some.inj (found.symm.trans found')
      exact same
  rw [meaning]
  constructor
  · intro all
    obtain ⟨j, g, stored, session', there, found', fd⟩ :=
      all v (UserStore.isLogin_true_iff.mpr ⟨_, atName, rfl⟩)
    cases Option.some.inj (session.symm.trans session')
    cases Option.some.inj (atThread'.symm.trans there)
    cases Option.some.inj (atName.symm.trans found')
    exact fd.trans (congrArg some sameVar)
  · intro same u flagged
    by_cases own : u = v
    · subst own
      exact ⟨i, h', _, session, atThread', atName, same.trans (congrArg some sameVar.symm)⟩
    · rw [after, UserStore.isLogin_loginUser, if_neg (fun both => own both.2)] at flagged
      obtain ⟨stored, there, _⟩ := UserStore.isLogin_true_iff.mp flagged
      refine routed_kept stepped there ?_ rfl ?_ (by simp) (routed u flagged)
      · rw [after, UserStore.users_loginUser_true accepted, if_neg own, there]
      · rw [calls_of_some made, latestLogin, if_neg (fun both => own both.2.symm)]

/-- Every other step keeps the routes. -/
theorem flagsRouted_other (routed : FlagsRouted past s) (stepped : s.step e = some t)
    (notSocket : ∀ i ok, e ≠ .thread i (.socket ok))
    (notLogin : ∀ i u password, s.storeCall e ≠ some (.loginUser i u password true)) :
    FlagsRouted ((s, e) :: past) t := by
  intro u flagged
  have after := Server.step_userStore stepped
  cases made : s.storeCall e with
  | none =>
    rw [made, Option.elim_none] at after
    rw [after] at flagged
    obtain ⟨stored, there, _⟩ := UserStore.isLogin_true_iff.mp flagged
    exact routed_kept stepped there (by rw [after, there]) rfl (by rw [calls_of_none made])
      (fun i ok _ => notSocket i ok) (routed u flagged)
  | some call =>
    rw [made, Option.elim_some] at after
    rw [after] at flagged
    have keep (before : s.userStore.isLogin u = some true) (notSignup : ¬call.signsUp u)
        (sameLogin : latestLogin (call :: calls past) u = latestLogin (calls past) u) :
        Routed ((s, e) :: past) t u := by
      obtain ⟨stored, there, _⟩ := UserStore.isLogin_true_iff.mp before
      obtain ⟨new, thereNew, same⟩ := StoreCall.apply_of_some there notSignup
      exact routed_kept stepped there (by rw [after, thereNew]) same.socketFd
        (by rw [calls_of_some made, sameLogin]) (fun i ok _ => notSocket i ok) (routed u before)
    cases call with
    | addUser i user =>
      obtain ⟨_, _, cleared, _⟩ := Server.storeCall_addUser made
      simp only [StoreCall.apply, UserStore.isLogin_addUser] at flagged
      split_ifs at flagged with same
      · simp [cleared] at flagged
      · exact keep flagged (Ne.symm same) rfl
    | loginUser i v password result =>
      cases result with
      | true => exact absurd made (notLogin i v password)
      | false =>
        simp only [StoreCall.apply, UserStore.loginUser_false (Server.storeCall_loginUser made).symm]
          at flagged
        exact keep flagged id (by simp [latestLogin])
    | logOutUser i v =>
      simp only [StoreCall.apply, UserStore.isLogin_logOutUser] at flagged
      split_ifs at flagged
      · simp at flagged
      · exact keep flagged id rfl

theorem flagsRouted_step (routed : FlagsRouted past s) (stepped : s.step e = some t) :
    FlagsRouted ((s, e) :: past) t ↔ RouteKept past s e := by
  by_cases socket : ∃ i ok, e = .thread i (.socket ok)
  · obtain ⟨i, ok, rfl⟩ := socket
    exact flagsRouted_socket routed stepped
  by_cases login : ∃ i u password, s.storeCall e = some (.loginUser i u password true)
  · obtain ⟨i, u, password, made⟩ := login
    exact flagsRouted_login routed stepped made
  refine iff_of_true (flagsRouted_other routed stepped (fun i ok same => socket ⟨i, ok, same⟩)
    (fun i u password made => login ⟨i, u, password, made⟩)) ⟨?_, ?_⟩
  · intro i u password _ made
    exact absurd ⟨i, u, password, made⟩ login
  · intro i ok u same
    exact absurd ⟨i, ok, same⟩ socket

/-- All along a run the INVITEs for logged-in users go to the sessions that logged them in exactly
if every successful LOGIN comes from a session with the stored callback socket, and no such session
gets another one while the flag is set. -/
theorem flags_routed_iff (run : ServerRun past s) :
    Always FlagsRouted past s ↔ Throughout RouteKept past := by
  refine run.always_iff ?_ (fun past s e t _ always stepped => flagsRouted_step always.here stepped)
  intro u flagged
  simp [Server.initial, UserStore.isLogin] at flagged

end Steps

/-- Session 0 signs bob up, and session 1, with a callback socket of its own, logs in as bob. -/
def strayLoginRun : List Event :=
  [.accept true, .accept true] ++ session 0 (connects ++ sends "SIGNUP bob pw") ++
    session 1 (connects ++ sends "LOGIN bob pw")

theorem stray_login : ∃ past s, execute Server.step [] Server.initial strayLoginRun = some (past, s) ∧
    ¬FlagsRouted past s := by
  have ran : (execute Server.step [] Server.initial strayLoginRun).any (fun r =>
      decide (r.2.userStore.isLogin "bob".toList = some true ∧
        latestLogin (calls r.1) "bob".toList = some 1 ∧
        (r.2.userStore.users "bob".toList).bind User.socketFd = some 6 ∧
        (r.2.threads[1]?).map Handler.clientSocketFd = some 7)) = true := by
    decide +kernel
  obtain ⟨past, s, done, checked⟩ := execute_check _ ran
  obtain ⟨flagged, latest, stored, variable_⟩ := of_decide_eq_true checked
  refine ⟨past, s, done, fun routed => ?_⟩
  obtain ⟨i, h, user, login, atThread, found, same⟩ := routed _ flagged
  cases Option.some.inj (login.symm.trans latest)
  rw [found, Option.bind_some, same] at stored
  rw [atThread, Option.map_some, Option.some.inj stored] at variable_
  simp at variable_

theorem stray_login_not_routed : ∃ past s,
    execute Server.step [] Server.initial strayLoginRun = some (past, s) ∧ ¬Always FlagsRouted past s := by
  obtain ⟨past, s, done, unrouted⟩ := stray_login
  exact ⟨past, s, done, fun always => unrouted always.here⟩

/-- The step is a LOGIN from the session with the stored socket, or not a LOGIN, and no `socket()` after a store call. -/
def ownRoute (past : History) (s : Server) (e : Event) : Bool :=
  (match s.storeCall e with
    | some (.loginUser i u _ true) => decide (∀ h ∈ s.threads[i]?, ∀ user ∈ s.userStore.users u,
        user.socketFd = some h.clientSocketFd)
    | _ => true) &&
  match e with
  | .thread _ (.socket _) => (calls past).isEmpty
  | _ => true

theorem routeKept_of_own {past : History} {s : Server} {e : Event} (own : ownRoute past s e = true) :
    RouteKept past s e := by
  obtain ⟨login, client⟩ := Bool.and_eq_true_iff.mp own
  refine ⟨fun i u password h made atThread user found => ?_, ?_⟩
  · rw [made] at login
    exact of_decide_eq_true login h atThread user found
  · rintro i ok u rfl _ latest
    rw [List.isEmpty_iff.mp client] at latest
    simp [latestLogin] at latest

/-- bob signs up and logs in, and so does amy in her own session. -/
def ownLoginsRun : List Event :=
  [.accept true, .accept true] ++ session 0 connects ++ session 1 connects ++
    session 0 (sends "SIGNUP bob pw" ++ sends "LOGIN bob pw") ++ session 1 (sends "SIGNUP amy pw" ++ sends "LOGIN amy pw")

theorem own_logins_routed : ∃ past s, execute Server.step [] Server.initial ownLoginsRun = some (past, s) ∧
    s.userStore.isLogin "bob".toList = some true ∧ s.userStore.isLogin "amy".toList = some true ∧
      Always FlagsRouted past s := by
  have ran : (execute Server.step [] Server.initial ownLoginsRun).any (fun r =>
      decide (r.2.userStore.isLogin "bob".toList = some true ∧ r.2.userStore.isLogin "amy".toList = some true ∧
        Throughout (fun past s e => ownRoute past s e = true) r.1)) = true := by
    decide +kernel
  obtain ⟨past, s, done, checked⟩ := execute_check _ ran
  obtain ⟨bob, amy, own⟩ := of_decide_eq_true checked
  exact ⟨past, s, done, bob, amy, (flags_routed_iff (execute_trail done)).mpr (own.imp routeKept_of_own)⟩

end Signaling
