import Signaling.StoreCalls

namespace Signaling
open Machine CText

/-- A SIGNUP of the name, or a LOGOUT of a session whose variable holds the name. -/
def StoreCall.clears (call : StoreCall) (u : Text) : Prop :=
  match call with
  | .addUser _ user => user.username = u
  | .loginUser .. => False
  | .logOutUser _ username => username = u

/-- A LOGIN of the name with the password of the latest SIGNUP of the name before it. -/
def StoreCall.opens (call : StoreCall) (before : List StoreCall) (u : Text) : Prop :=
  match call with
  | .loginUser _ username password _ =>
    username = u ∧ (latestSignup before u).map User.password = some password
  | _ => False

/-- What the flag of a name is meant to record: some LOGIN opened the name and no later call
cleared it. -/
def LoggedIn (history : List StoreCall) (u : Text) : Prop :=
  ∃ after call before, history = after ++ call :: before ∧ call.opens before u ∧
    ∀ later ∈ after, ¬later.clears u

/-- In the state reached every flag agrees with the commands so far. -/
def FlagExact (past : History) (s : Server) : Prop :=
  ∀ u, s.userStore.isLogin u = some true ↔ LoggedIn (calls past) u

/-- Not a LOGIN without a password under a name that is in the store although no SIGNUP has put
it there. -/
def StoreCall.Known (history : List StoreCall) (store : UserStore) : StoreCall → Prop
  | .loginUser _ u password _ =>
    password = [] → store.hasUser u = true → latestSignup history u ≠ none
  | _ => True

def NoBlankEntry (past : History) (s : Server) (e : Event) : Prop :=
  ∀ call ∈ s.storeCall e, call.Known (calls past) s.userStore

instance (history : List StoreCall) (store : UserStore) : ∀ call : StoreCall,
    Decidable (call.Known history store)
  | .loginUser _ u password _ => inferInstanceAs
      (Decidable (password = [] → store.hasUser u = true → latestSignup history u ≠ none))
  | .addUser .. | .logOutUser .. => isTrue trivial

instance (past : History) (s : Server) (e : Event) : Decidable (NoBlankEntry past s e) :=
  inferInstanceAs (Decidable (∀ call ∈ s.storeCall e, call.Known (calls past) s.userStore))

section History
variable {call : StoreCall} {before : List StoreCall} {u : Text}

theorem loggedIn_nil : ¬LoggedIn [] u := by
  rintro ⟨after, call, before, split, _⟩
  simp at split

theorem loggedIn_cons : LoggedIn (call :: before) u ↔
    call.opens before u ∨ ¬call.clears u ∧ LoggedIn before u := by
  constructor
  · rintro ⟨after, opening, earlier, split, opened, kept⟩
    cases after with
    | nil =>
      cases split
      exact Or.inl opened
    | cons head after =>
      cases split
      exact Or.inr ⟨kept _ List.mem_cons_self,
        after, opening, earlier, rfl, opened, fun later member => kept later (List.mem_cons_of_mem _ member)⟩
  · rintro (opened | ⟨notCleared, after, opening, earlier, rfl, opened, kept⟩)
    · exact ⟨[], call, before, rfl, opened, by simp⟩
    · refine ⟨call :: after, opening, earlier, rfl, opened, ?_⟩
      intro later member
      rcases List.mem_cons.mp member with rfl | member
      · exact notCleared
      · exact kept later member

theorem latestSignup_cons_ne_none (signed : latestSignup before u ≠ none) :
    latestSignup (call :: before) u ≠ none := by
  by_cases here : call.signsUp u
  · obtain ⟨i, added, rfl, same⟩ := StoreCall.signsUp_iff.mp here
    simp [latestSignup, same]
  · rwa [latestSignup_cons_of_not here]

theorem LoggedIn.signed (granted : LoggedIn before u) : latestSignup before u ≠ none := by
  induction before with
  | nil => exact absurd granted loggedIn_nil
  | cons call before ih =>
    refine latestSignup_cons_ne_none ?_
    rcases loggedIn_cons.mp granted with opened | ⟨_, earlier⟩
    · cases call with
      | loginUser i username password result =>
        intro unsigned
        simp [StoreCall.opens, unsigned] at opened
      | addUser | logOutUser => exact False.elim opened
    · exact ih earlier

end History

section Steps
variable {past : History} {s t : Server} {e : Event}

/-- The flags after a LOGIN, when they were right before it. -/
theorem flagExact_login {i : Nat} {v password : Text} {result : Bool} (run : ServerRun past s)
    (agree : FlagExact past s) (stepped : s.step e = some t)
    (made : s.storeCall e = some (.loginUser i v password result)) :
    FlagExact ((s, e) :: past) t ↔ NoBlankEntry past s e := by
  have after : t.userStore = (s.userStore.loginUser v password).2 := by
    rw [Server.step_userStore stepped, made]; rfl
  have flagOf (u : Text) : t.userStore.isLogin u = some true ↔
      ((s.userStore.loginUser v password).1 = true ∧ u = v) ∨ LoggedIn (calls past) u := by
    rw [after, UserStore.isLogin_loginUser]
    split_ifs with accepted
    · simp [accepted]
    · simp only [agree u, accepted, false_or]
  have meaning (u : Text) : LoggedIn (calls ((s, e) :: past)) u ↔
      (v = u ∧ (latestSignup (calls past) u).map User.password = some password) ∨
        LoggedIn (calls past) u := by
    rw [calls_of_some made, loggedIn_cons]
    simp [StoreCall.opens, StoreCall.clears]
  have allowed : NoBlankEntry past s e ↔
      (password = [] → s.userStore.hasUser v = true → latestSignup (calls past) v ≠ none) := by
    simp only [NoBlankEntry, made, Option.mem_some_iff, forall_eq', StoreCall.Known]
  rw [allowed]
  cases signed : latestSignup (calls past) v with
  | some user =>
    refine iff_of_true ?_ (by simp)
    intro u
    rw [flagOf, meaning, userStore_eq_replay run, loginUser_replay signed]
    by_cases same : u = v
    · subst same; simp [signed]
    · simp [same, Ne.symm same]
  | none =>
    have notOpen : ¬LoggedIn (calls past) v := fun granted => granted.signed signed
    have blank {user : User} (found : s.userStore.users v = some user) : user.password = [] :=
      (replay_unsigned signed (userStore_eq_replay run ▸ found)).1
    constructor
    · intro all absent present
      subst absent
      obtain ⟨stored, found⟩ := Option.isSome_iff_exists.mp present
      have accepted := UserStore.loginUser_true_iff.mpr ⟨stored, found, blank found⟩
      have entered := (meaning v).mp ((all v).mp ((flagOf v).mpr (Or.inl ⟨accepted, rfl⟩)))
      simp [signed, notOpen] at entered
    · intro forbidden u
      rw [flagOf, meaning]
      have refused : ¬(s.userStore.loginUser v password).1 = true := by
        intro accepted
        obtain ⟨stored, found, matched⟩ := UserStore.loginUser_true_iff.mp accepted
        exact forbidden (matched.symm.trans (blank found))
          (Option.isSome_iff_exists.mpr ⟨stored, found⟩) rfl
      by_cases same : v = u
      · subst same; simp [signed, refused]
      · simp [same, refused]

/-- A step that makes no LOGIN call keeps the flags right. -/
theorem flagExact_other (agree : FlagExact past s) (stepped : s.step e = some t)
    (other : ∀ i u password result, s.storeCall e ≠ some (.loginUser i u password result)) :
    FlagExact ((s, e) :: past) t := by
  intro u
  rw [Server.step_userStore stepped]
  cases made : s.storeCall e with
  | none => simpa only [calls_of_none made, Option.elim_none] using agree u
  | some call =>
    rw [calls_of_some made, loggedIn_cons, Option.elim_some]
    cases call with
    | addUser i user =>
      obtain ⟨_, _, cleared, _⟩ := Server.storeCall_addUser made
      simp only [StoreCall.apply, UserStore.isLogin_addUser, StoreCall.opens, StoreCall.clears]
      by_cases same : u = user.username
      · simp [same, cleared]
      · simp [same, Ne.symm same, agree u]
    | loginUser i username password result => exact absurd made (other _ _ _ _)
    | logOutUser i username =>
      simp only [StoreCall.apply, UserStore.isLogin_logOutUser, StoreCall.opens, StoreCall.clears]
      by_cases same : u = username
      · simp [same]
      · simp [same, Ne.symm same, agree u]

theorem flagExact_step (run : ServerRun past s) (agree : FlagExact past s)
    (stepped : s.step e = some t) : FlagExact ((s, e) :: past) t ↔ NoBlankEntry past s e := by
  by_cases login : ∃ i u password result, s.storeCall e = some (.loginUser i u password result)
  · obtain ⟨i, u, password, result, made⟩ := login
    exact flagExact_login run agree stepped made
  · have other : ∀ i u password result, s.storeCall e ≠ some (.loginUser i u password result) :=
      fun i u password result made => login ⟨i, u, password, result, made⟩
    refine iff_of_true (flagExact_other agree stepped other) (fun call made => ?_)
    cases call with
    | loginUser => exact absurd made (other _ _ _ _)
    | addUser | logOutUser => trivial

/-- All along a run the login flags say what the commands amount to exactly if no LOGIN without a
password ever found a name that only a LOGOUT had put into the store. -/
theorem login_flag_iff (run : ServerRun past s) :
    Always FlagExact past s ↔ Throughout NoBlankEntry past := by
  refine run.always_iff ?_ (fun past s e t previous always stepped => ?_)
  · intro u
    simp [Server.initial, UserStore.isLogin, loggedIn_nil]
  · exact flagExact_step previous always.here stepped

end Steps

/-- One session signs a name up, logs in with a wrong password, and then with the right one. -/
def signedRun : List Event :=
  .accept true :: session 0 (sends "SIGNUP bob pw" ++ sends "LOGIN bob no" ++ sends "LOGIN bob pw")

theorem signed_run_exact : ∃ past s, execute Server.step [] Server.initial signedRun = some (past, s) ∧
    s.userStore.isLogin "bob".toList = some true ∧ Always FlagExact past s := by
  have ran : (execute Server.step [] Server.initial signedRun).any (fun r =>
      decide (r.2.userStore.isLogin "bob".toList = some true ∧ Throughout NoBlankEntry r.1)) = true := by
    decide +kernel
  obtain ⟨past, s, done, checked⟩ := execute_check _ ran
  obtain ⟨flagged, allowed⟩ := of_decide_eq_true checked
  exact ⟨past, s, done, flagged, (login_flag_iff (execute_trail done)).mpr allowed⟩

/-- Nobody signs eve up. Her failed LOGIN leaves the name in the variable, LOGOUT puts it into the
store, and a LOGIN without a password finds it there. -/
def blankEntryRun : List Event :=
  .accept true :: session 0 (sends "LOGIN eve pw" ++ sends "LOGOUT eve" ++ sends "LOGIN eve")

theorem blank_entry_not_exact : ∃ past s,
    execute Server.step [] Server.initial blankEntryRun = some (past, s) ∧ ¬Always FlagExact past s := by
  have ran : (execute Server.step [] Server.initial blankEntryRun).any (fun r =>
      decide (r.2.userStore.isLogin "eve".toList = some true ∧
        latestSignup (calls r.1) "eve".toList = none)) = true := by
    decide +kernel
  obtain ⟨past, s, done, checked⟩ := execute_check _ ran
  obtain ⟨flagged, unsigned⟩ := of_decide_eq_true checked
  refine ⟨past, s, done, fun always => ?_⟩
  have granted := (always.here "eve".toList).mp flagged
  exact granted.signed unsigned

end Signaling
