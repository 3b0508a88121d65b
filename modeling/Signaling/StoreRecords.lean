import Signaling.Machine.Trail
import Signaling.UserStore

namespace Signaling
open Machine CText

namespace UserStore

/-- A call of a method of the store, by anybody, with any arguments. -/
inductive Call
  | addUser (username password : Text) (islogin : Bool) (socketFd : Int)
  | loginUser (username password : Text)
  | logOutUser (username : Text)
  | hasUser (username : Text)
  | isLogin (username : Text)
  | getUser (username : Text)
  deriving DecidableEq, Repr

def perform (store : UserStore) : Call → UserStore
  | .addUser username password islogin socketFd =>
    store.addUser ⟨username, password, some islogin, some socketFd⟩
  | .loginUser username password => (store.loginUser username password).2
  | .logOutUser username => store.logOutUser username
  | .hasUser _ | .isLogin _ | .getUser _ => store

def step (store : UserStore) (call : Call) : Option UserStore := some (store.perform call)

/-- The calls made on a store that was empty at first, the latest first. -/
abbrev Calls := List (UserStore × Call)

/-- The user that an `addUser` of the name hands over. -/
def Call.adds (username : Text) : Call → Option User
  | .addUser u password islogin socketFd =>
    if u = username then some ⟨u, password, some islogin, some socketFd⟩ else none
  | _ => none

/-- What the call sets the flag of the name to. -/
def Call.flags (store : UserStore) (username : Text) : Call → Option Bool
  | .addUser u _ islogin _ => if u = username then some islogin else none
  | .loginUser u password => if u = username ∧ (store.loginUser u password).1 = true then some true else none
  | .logOutUser u => if u = username then some false else none
  | .hasUser _ | .isLogin _ | .getUser _ => none

/-- The user that the latest `addUser` of the name handed over. -/
def added (past : Calls) (username : Text) : Option User := past.findSome? fun step => step.2.adds username

/-- What the flag of the name was set to last. -/
def flagged (past : Calls) (username : Text) : Option Bool :=
  past.findSome? fun step => step.2.flags step.1 username

/-- Every record is that of an added user under the user's own name, and has no member that was never
written. -/
structure RecordsKept (past : Calls) (store : UserStore) : Prop where
  record : ∀ k user, store.users k = some user → ∃ latest, added past k = some latest ∧ user.username = k ∧
    user.password = latest.password ∧ user.islogin = flagged past k ∧ user.socketFd = latest.socketFd
  written : ∀ k user, store.users k = some user → user.islogin.isSome = true ∧ user.socketFd.isSome = true
  known : ∀ k, store.hasUser k = true ↔ (added past k).isSome = true
  descriptor : ∀ k user, store.getUser k = some user → user.socketFd.isSome = true

/-- Not a `logOutUser` of a name that was never added. -/
def LogoutKnown (past : Calls) (_ : UserStore) : Call → Prop
  | .logOutUser username => (added past username).isSome = true
  | _ => True

instance (past : Calls) (store : UserStore) (call : Call) : Decidable (LogoutKnown past store call) := by
  unfold LogoutKnown
  cases_type* Call <;> infer_instance

/-- The record that the calls so far are meant to leave under a name. -/
def expected (past : Calls) (username : Text) : Option User :=
  (added past username).map fun latest => latest.setIslogin (flagged past username)

section Records
variable {past : Calls} {store : UserStore} {call : Call} {k : Text} {latest : User}

theorem adds_flags (adds : call.adds k = some latest) : latest.username = k ∧ latest.socketFd.isSome = true ∧
    (call.flags store k).isSome = true := by
  cases call with
  | addUser u password islogin socketFd =>
    rw [Call.adds] at adds
    split_ifs at adds with same
    cases Option.some.inj adds
    exact ⟨same, rfl, by simp [Call.flags, same]⟩
  | loginUser | logOutUser | hasUser | isLogin | getUser => simp [Call.adds] at adds

theorem added_spec (here : added past k = some latest) :
    latest.username = k ∧ latest.socketFd.isSome = true ∧ (flagged past k).isSome = true := by
  obtain ⟨⟨store, call⟩, member, adds⟩ := List.exists_of_findSome?_eq_some here
  obtain ⟨name, socketFd, flags⟩ := @adds_flags store call k latest adds
  exact ⟨name, socketFd, List.findSome?_isSome_iff.mpr ⟨_, member, flags⟩⟩

theorem added_cons : added ((store, call) :: past) k = (call.adds k).or (added past k) := by
  rw [added, List.findSome?_cons]
  cases call.adds k <;> rfl

theorem flagged_cons : flagged ((store, call) :: past) k = (call.flags store k).or (flagged past k) := by
  rw [flagged, List.findSome?_cons]
  cases call.flags store k <;> rfl

/-- A store of the expected records keeps them. -/
theorem recordsKept_of_expected (same : ∀ k, store.users k = expected past k) : RecordsKept past store := by
  have origin {k : Text} {user : User} (found : store.users k = some user) :
      ∃ latest, added past k = some latest ∧ user = latest.setIslogin (flagged past k) := by
    obtain ⟨latest, here, made⟩ := Option.map_eq_some_iff.mp ((same k).symm.trans found)
    exact ⟨latest, here, made.symm⟩
  have descriptor {k : Text} {user : User} (found : store.users k = some user) : user.socketFd.isSome = true := by
    obtain ⟨latest, here, rfl⟩ := origin found
    exact (added_spec here).2.1
  refine ⟨fun k user found => ?_, fun k user found => ⟨?_, descriptor found⟩, fun k => ?_,
    fun k user found => descriptor found⟩
  · obtain ⟨latest, here, rfl⟩ := origin found
    exact ⟨latest, here, (added_spec here).1, rfl, rfl, rfl⟩
  · obtain ⟨latest, here, rfl⟩ := origin found
    exact (added_spec here).2.2
  · rw [hasUser, same k, expected, Option.isSome_map]

theorem RecordsKept.expected (kept : RecordsKept past store) : store.users k = expected past k := by
  rw [UserStore.expected]
  cases found : store.users k with
  | none =>
    have absent : added past k = none := by
      have unknown := (kept.known k).not.mp (by simp [hasUser, found])
      simpa using unknown
    rw [absent, Option.map_none]
  | some user =>
    obtain ⟨latest, here, username, password, islogin, socketFd⟩ := kept.record k user found
    rw [here, Option.map_some]
    have name := (added_spec here).1
    cases user
    cases latest
    simp_all [User.setIslogin]

/-- What a call leaves under a name, when it is not a `logOutUser` of a name that was never added. -/
theorem expected_perform (same : ∀ k, store.users k = expected past k) (known : LogoutKnown past store call) :
    (store.perform call).users k = expected ((store, call) :: past) k := by
  rw [expected, added_cons, flagged_cons]
  cases call with
  | addUser u password islogin socketFd =>
    rw [perform, users_addUser]
    by_cases here : u = k
    · subst here
      simp [Call.adds, Call.flags, User.setIslogin]
    · simp [Call.adds, Call.flags, here, Ne.symm here, same k, expected]
  | loginUser u password =>
    rw [perform]
    cases accepted : (store.loginUser u password).1 with
    | false => simp [loginUser_false accepted, Call.adds, Call.flags, accepted, same k, expected]
    | true =>
      rw [users_loginUser_true accepted, same k, expected]
      by_cases here : u = k
      · subst here
        cases added past u <;> simp [Call.adds, Call.flags, accepted, User.setIslogin]
      · simp [Call.adds, Call.flags, here, Ne.symm here]
  | logOutUser u =>
    rw [perform, users_logOutUser]
    by_cases here : u = k
    · subst here
      obtain ⟨latest, found⟩ := Option.isSome_iff_exists.mp known
      simp [Call.adds, Call.flags, same u, expected, found, User.setIslogin]
    · simp [Call.adds, Call.flags, here, Ne.symm here, same k, expected]
  | hasUser u | isLogin u | getUser u => simp [perform, Call.adds, Call.flags, same k, expected]

/-- The records are kept in all states of a run of calls exactly if every name logged out was added before:
`operator[]` puts a default record under any other. -/
theorem records_kept_iff (run : Trail step {} past store) :
    Always RecordsKept past store ↔ Throughout LogoutKnown past := by
  refine run.always_iff (recordsKept_of_expected fun k => rfl) fun past s call t _ always stepped => ?_
  cases Option.some.inj stepped
  constructor
  · intro kept
    cases call with
    | logOutUser u =>
      have present : (s.perform (.logOutUser u)).hasUser u = true := by simp [perform, hasUser, users_logOutUser]
      simpa [added_cons, Call.adds, LogoutKnown] using (kept.known u).mp present
    | addUser | loginUser | hasUser | isLogin | getUser => trivial
  · intro known
    exact recordsKept_of_expected fun k => expected_perform (fun k => always.here.expected) known

end Records

/-- Only added users log out; others are asked for. -/
def knownCalls : List Call :=
  [.isLogin "amy".toList, .addUser "bob".toList "pw".toList false 5, .loginUser "bob".toList "pw".toList,
    .loginUser "amy".toList "pw".toList, .logOutUser "bob".toList, .getUser "bob".toList]

theorem known_calls_kept : ∃ past store, execute step [] {} knownCalls = some (past, store) ∧
    store.hasUser "bob".toList = true ∧ Always RecordsKept past store := by
  have ran : (execute step [] {} knownCalls).any (fun r =>
      decide (r.2.hasUser "bob".toList = true ∧ Throughout LogoutKnown r.1)) = true := by
    decide +kernel
  obtain ⟨past, store, done, checked⟩ := execute_check _ ran
  obtain ⟨present, known⟩ := of_decide_eq_true checked
  exact ⟨past, store, done, present, (records_kept_iff (execute_trail done)).mpr known⟩

/-- Nobody adds the name that is logged out. -/
theorem ghost_record : ∃ past store, execute step [] {} [.logOutUser "ghost".toList] = some (past, store) ∧
    store.hasUser "ghost".toList = true ∧ store.getUser "ghost".toList = some { islogin := some false } ∧
      ¬Always RecordsKept past store := by
  have ran : (execute step [] {} [.logOutUser "ghost".toList]).any (fun r =>
      decide (r.2.hasUser "ghost".toList = true ∧ r.2.getUser "ghost".toList = some { islogin := some false })) =
        true := by
    decide +kernel
  obtain ⟨past, store, done, checked⟩ := execute_check _ ran
  obtain ⟨present, found⟩ := of_decide_eq_true checked
  refine ⟨past, store, done, present, found, fun always => ?_⟩
  exact absurd (always.here.descriptor _ _ found) (by decide)

end UserStore

end Signaling
