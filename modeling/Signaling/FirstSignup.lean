import Signaling.StoreCalls

namespace Signaling
open Machine CText

/-- The user that the first SIGNUP of a name handed to the store. -/
def firstSignup : List StoreCall → Text → Option User
  | [], _ => none
  | .addUser _ user :: before, u =>
    (firstSignup before u).or (if user.username = u then some user else none)
  | .loginUser .. :: before, u => firstSignup before u
  | .logOutUser .. :: before, u => firstSignup before u

/-- The parts of a record that SIGNUP of a registered name should leave alone. -/
structure SameRecord (old new : User) : Prop where
  password : new.password = old.password
  socketFd : new.socketFd = old.socketFd
  islogin : new.islogin = old.islogin

/-- The last step, if it was a SIGNUP of a name that an earlier SIGNUP had registered, left the
record of the name as it was. -/
def SignupHarmless : History → Server → Prop
  | [], _ => True
  | (r, e) :: past, s => ∀ i user old, r.storeCall e = some (.addUser i user) →
      firstSignup (calls past) user.username ≠ none → r.userStore.users user.username = some old →
      ∃ new, s.userStore.users user.username = some new ∧ SameRecord old new

/-- Every registered name still has the account of its first registrant. -/
def FirstOwner (past : History) (s : Server) : Prop :=
  ∀ u first, firstSignup (calls past) u = some first →
    ∃ user, s.userStore.users u = some user ∧
      user.password = first.password ∧ user.socketFd = first.socketFd

def AccountKept (past : History) (s : Server) : Prop := SignupHarmless past s ∧ FirstOwner past s

/-- Not a SIGNUP of a registered name, unless what it writes is what is stored: the same password,
the same descriptor, and a clear flag. -/
def StoreCall.Repeats (history : List StoreCall) (store : UserStore) : StoreCall → Prop
  | .addUser _ user => firstSignup history user.username ≠ none →
      ∀ old ∈ store.users user.username, SameRecord old user
  | _ => True

def SignupRepeats (past : History) (s : Server) (e : Event) : Prop :=
  ∀ call ∈ s.storeCall e, call.Repeats (calls past) s.userStore

instance (old new : User) : Decidable (SameRecord old new) :=
  decidable_of_iff (new.password = old.password ∧ new.socketFd = old.socketFd ∧
    new.islogin = old.islogin) ⟨fun same => ⟨same.1, same.2.1, same.2.2⟩,
      fun same => ⟨same.password, same.socketFd, same.islogin⟩⟩

instance (history : List StoreCall) (store : UserStore) : ∀ call : StoreCall,
    Decidable (call.Repeats history store)
  | .addUser _ user => inferInstanceAs (Decidable (firstSignup history user.username ≠ none →
      ∀ old ∈ store.users user.username, SameRecord old user))
  | .loginUser .. | .logOutUser .. => isTrue trivial

instance (past : History) (s : Server) (e : Event) : Decidable (SignupRepeats past s e) :=
  inferInstanceAs (Decidable (∀ call ∈ s.storeCall e, call.Repeats (calls past) s.userStore))

section Steps
variable {past : History} {s t : Server} {e : Event}

theorem signupHarmless_iff (stepped : s.step e = some t) :
    SignupHarmless ((s, e) :: past) t ↔ SignupRepeats past s e := by
  have after := Server.step_userStore stepped
  constructor
  · intro harmless call made
    cases call with
    | loginUser | logOutUser => trivial
    | addUser i user =>
      intro registered old found
      obtain ⟨new, foundNew, same⟩ := harmless i user old made registered found
      rw [Option.mem_def.mp made] at after
      rw [show t.userStore = s.userStore.addUser user from after, UserStore.users_addUser,
        if_pos rfl] at foundNew
      cases Option.some.inj foundNew
      exact same
  · intro repeats i user old made registered found
    rw [made] at after
    refine ⟨user, ?_, repeats _ made registered old found⟩
    rw [show t.userStore = s.userStore.addUser user from after, UserStore.users_addUser, if_pos rfl]

/-- A SIGNUP that repeats what is stored, and every other call, leave each account with its first
registrant. -/
theorem firstOwner_step (kept : FirstOwner past s) (stepped : s.step e = some t)
    (repeats : SignupRepeats past s e) : FirstOwner ((s, e) :: past) t := by
  intro u first registered
  rw [Server.step_userStore stepped]
  cases made : s.storeCall e with
  | none => exact kept u first (by rwa [calls_of_none made] at registered)
  | some call =>
    rw [calls_of_some made] at registered
    rw [Option.elim_some]
    by_cases here : call.signsUp u
    · obtain ⟨i, user, rfl, rfl⟩ := StoreCall.signsUp_iff.mp here
      rw [firstSignup, if_pos rfl] at registered
      refine ⟨user, by simp only [StoreCall.apply, UserStore.users_addUser, if_true], ?_⟩
      cases earlier : firstSignup (calls past) user.username with
      | none =>
        rw [earlier, Option.none_or] at registered
        cases Option.some.inj registered
        exact ⟨rfl, rfl⟩
      | some owner =>
        rw [earlier, Option.some_or] at registered
        cases Option.some.inj registered
        obtain ⟨old, found, password, socketFd⟩ := kept _ _ earlier
        have again := repeats _ made (by simp [earlier]) old found
        exact ⟨again.password.trans password, again.socketFd.trans socketFd⟩
    · have earlier : firstSignup (calls past) u = some first := by
        cases call with
        | loginUser | logOutUser => exact registered
        | addUser i user =>
          rw [firstSignup, if_neg (show ¬user.username = u from here), Option.or_none] at registered
          exact registered
      obtain ⟨old, found, password, socketFd⟩ := kept u first earlier
      obtain ⟨new, foundNew, same⟩ := StoreCall.apply_of_some found here
      exact ⟨new, foundNew, same.password.trans password, same.socketFd.trans socketFd⟩

/-- All along a run every account stays that of its first registrant, untouched by later SIGNUPs,
exactly if every SIGNUP of a registered name repeats what is stored. -/
theorem account_kept_iff (run : ServerRun past s) :
    Always AccountKept past s ↔ Throughout SignupRepeats past := by
  refine run.always_iff ⟨trivial, fun u first registered => by simp [firstSignup] at registered⟩
    (fun past s e t _ always stepped => ?_)
  constructor
  · intro kept
    exact (signupHarmless_iff stepped).mp kept.1
  · intro repeats
    exact ⟨(signupHarmless_iff stepped).mpr repeats, firstOwner_step always.here.2 stepped repeats⟩

end Steps

/-- A session that signs up twice with the same password. -/
def repeatedSignupRun : List Event :=
  .accept true :: session 0 (sends "SIGNUP bob pw" ++ sends "SIGNUP bob pw")

theorem repeated_signup_kept : ∃ past s,
    execute Server.step [] Server.initial repeatedSignupRun = some (past, s) ∧
      Always AccountKept past s := by
  have ran : (execute Server.step [] Server.initial repeatedSignupRun).any (fun r =>
      decide (Throughout SignupRepeats r.1)) = true := by
    decide +kernel
  obtain ⟨past, s, done, checked⟩ := execute_check _ ran
  exact ⟨past, s, done, (account_kept_iff (execute_trail done)).mpr (of_decide_eq_true checked)⟩

/-- Session 1 signs up the name that session 0 has signed up, with a password of its own. -/
def takeoverRun : List Event :=
  [.accept true, .accept true] ++ session 0 (sends "SIGNUP bob pw") ++ session 1 (sends "SIGNUP bob mine")

theorem takeover_not_kept : ∃ past s,
    execute Server.step [] Server.initial takeoverRun = some (past, s) ∧ ¬Always AccountKept past s := by
  have ran : (execute Server.step [] Server.initial takeoverRun).any (fun r =>
      decide ((firstSignup (calls r.1) "bob".toList).map User.password = some "pw".toList ∧
        (r.2.userStore.users "bob".toList).map User.password = some "mine".toList)) = true := by
    decide +kernel
  obtain ⟨past, s, done, checked⟩ := execute_check _ ran
  obtain ⟨first, stored⟩ := of_decide_eq_true checked
  refine ⟨past, s, done, fun always => ?_⟩
  obtain ⟨user, registered, original⟩ := Option.map_eq_some_iff.mp first
  obtain ⟨now, found, same, _⟩ := always.here.2 _ user registered
  rw [found, Option.map_some, same, original] at stored
  exact absurd stored (by decide)

end Signaling
