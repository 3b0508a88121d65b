import Signaling.Machine.Keyed
import Signaling.StoreCalls

namespace Signaling
open Machine CText

/-- A SIGNUP, LOGIN or LOGOUT as a session's handler took it, with the callback descriptor that the
session had then. -/
structure Act where
  session : Nat
  fd : Int
  command : Command
  deriving DecidableEq, Repr

/-- The commands that act on a user. -/
def Command.acts : Command → Bool
  | .signup .. | .login .. | .logout => true
  | _ => false

def Server.act (s : Server) (e : Event) : Option Act :=
  (s.dispatched e).bind fun (i, h, command) =>
    if command.acts then some ⟨i, h.clientSocketFd, command⟩ else none

/-- The SIGNUPs, LOGINs and LOGOUTs of a run, the latest first. -/
def acts (past : History) : List Act := past.filterMap fun step => step.1.act step.2

/-- The name of a session's last SIGNUP or LOGIN, the empty name if it had none. -/
def lastName : List Act → Nat → Text
  | [], _ => []
  | ⟨j, _, .signup u _⟩ :: before, i => if j = i then u else lastName before i
  | ⟨j, _, .login u _⟩ :: before, i => if j = i then u else lastName before i
  | _ :: before, i => lastName before i

/-- The user that a command acts on, by the commands before it. -/
def Act.target (act : Act) (before : List Act) : Text :=
  match act.command with
  | .signup u _ => u
  | .login u _ => u
  | _ => lastName before act.session

/-- One session's own sequence. -/
def actsOf (i : Nat) (done : List Act) : List Act := done.filter (·.session = i)

/-- The commands that act on one user. -/
def actsOn (u : Text) : List Act → List Act
  | [] => []
  | act :: before => if act.target before = u then act :: actsOn u before else actsOn u before

/-- The calls that a session's handler made, with what they returned. -/
def callsOf (i : Nat) (past : History) : List StoreCall := (calls past).filter (·.session = i)

namespace StoreCall

def name : StoreCall → Text
  | .addUser _ user => user.username
  | .loginUser _ username _ _ => username
  | .logOutUser _ username => username

/-- What a call makes of the record of its name, and what it returns. -/
def onRecord : StoreCall → Option User → Option User × Bool
  | .addUser _ user, _ => (some user, false)
  | .loginUser _ _ password _, some user =>
    if user.password = password then (some (user.setIslogin (some true)), true)
    else (some user, false)
  | .loginUser _ _ _ _, none => (none, false)
  | .logOutUser _ _, record => (some ((record.getD {}).setIslogin (some false)), false)

def withResult (call : StoreCall) (result : Bool) : StoreCall :=
  match call with
  | .loginUser i username password _ => .loginUser i username password result
  | call => call

@[simp] theorem session_withResult (call : StoreCall) (result : Bool) :
    (call.withResult result).session = call.session := by
  cases call <;> rfl

@[simp] theorem name_withResult (call : StoreCall) (result : Bool) :
    (call.withResult result).name = call.name := by
  cases call <;> rfl

@[simp] theorem onRecord_withResult (call : StoreCall) (result : Bool) (record : Option User) :
    (call.withResult result).onRecord record = call.onRecord record := by
  cases call <;> cases record <;> rfl

end StoreCall

/-- The call that a command will make, its result left open. -/
def Act.draft (act : Act) (u : Text) : StoreCall :=
  match act.command with
  | .signup _ password => .addUser act.session ⟨u, password, some false, some act.fd⟩
  | .login _ password => .loginUser act.session u password false
  | _ => .logOutUser act.session u

def drafts : List Act → List StoreCall
  | [] => []
  | act :: before => act.draft (act.target before) :: drafts before

section Drafts
variable {act : Act} {done done' : List Act} {u : Text} {i : Nat}

@[simp] theorem session_draft : (act.draft u).session = act.session := by
  unfold Act.draft
  split <;> rfl

@[simp] theorem name_draft : (act.draft u).name = u := by
  unfold Act.draft
  split <;> rfl

theorem lastName_actsOf : lastName (actsOf i done) i = lastName done i := by
  induction done with
  | nil => rfl
  | cons act before ih =>
    obtain ⟨j, fd, command⟩ := act
    by_cases own : j = i
    · have head : actsOf i (⟨j, fd, command⟩ :: before) = ⟨j, fd, command⟩ :: actsOf i before := by
        simp [actsOf, own]
      rw [head]
      cases command <;> simp [lastName, own, ih]
    · have skip : actsOf i (⟨j, fd, command⟩ :: before) = actsOf i before := by simp [actsOf, own]
      rw [skip, ih]
      cases command <;> simp [lastName, own]

/-- What a session does depends on its own commands only. -/
theorem drafts_actsOf : (drafts done).filter (·.session = i) = drafts (actsOf i done) := by
  induction done with
  | nil => rfl
  | cons act before ih =>
    by_cases own : act.session = i
    · have head : actsOf i (act :: before) = act :: actsOf i before := by simp [actsOf, own]
      have same : act.target (actsOf i before) = act.target before := by
        unfold Act.target
        split
        · rfl
        · rfl
        · rw [own, lastName_actsOf]
      simp [drafts, head, own, ih, same]
    · simp [drafts, actsOf, own, ih]

/-- What is done to a user is what the commands on that user do. -/
theorem drafts_actsOn : (drafts done).filter (·.name = u) = (actsOn u done).map (·.draft u) := by
  induction done with
  | nil => rfl
  | cons act before ih =>
    by_cases here : act.target before = u
    · simp [drafts, actsOn, here, ih]
    · simp [drafts, actsOn, here, ih]

end Drafts

theorem StoreCall.apply_users (call : StoreCall) (store : UserStore) :
    (call.apply store).users = Keyed.apply StoreCall.name StoreCall.onRecord store.users call := by
  funext u
  cases call with
  | addUser i user =>
    simp only [apply, UserStore.users_addUser, Keyed.apply, onRecord, name, Function.update_apply]
  | loginUser i username password result =>
    simp only [apply, UserStore.loginUser, Keyed.apply, onRecord, name, Function.update_apply]
    cases found : store.users username with
    | none => by_cases same : u = username <;> simp [same, found]
    | some user =>
      by_cases matched : user.password = password <;> by_cases same : u = username <;>
        simp [matched, same, found, UserStore.atKey]
  | logOutUser i username =>
    simp only [apply, UserStore.users_logOutUser, Keyed.apply, onRecord, name, Function.update_apply]

/-- The name that a command puts into its session's variable. -/
def Command.naming : Command → Option Text
  | .signup username _ => some username
  | .login username _ => some username
  | _ => none

theorem Handler.Moved.username_eq {i : Nat} {h h' : Handler} {w w' : Shared} {a : Action}
    (moved : h.Moved i w a h' w') :
    h'.username = ((h.hears w a).bind Command.naming).getD h.username := by
  cases moved with
  | hangup _ heard | client _ heard | signup _ heard | login _ heard | call _ heard
  | refuse _ heard | logout _ heard | exit _ heard | ignored _ heard => simp only [heard]; rfl
  | _ => rfl

/-- The command of a step, with the session's variable after it. -/
theorem lastName_cons {command : Command} {i j : Nat} {fd : Int} {done : List Act} :
    lastName (⟨j, fd, command⟩ :: done) i =
      if j = i then command.naming.getD (lastName done i) else lastName done i := by
  cases command <;> simp [lastName, Command.naming]

section Runs
variable {past past' : History} {s s' t : Server} {e : Event} {i : Nat}

/-- The variables of the sessions hold the names that the commands so far have put there. -/
def NamesKept (past : History) (s : Server) : Prop :=
  ∀ i, lastName (acts past) i = ((s.threads[i]?).map Handler.username).getD []

theorem acts_none (quiet : s.act e = none) : acts ((s, e) :: past) = acts past := by
  simp [acts, quiet]

theorem acts_some {act : Act} (made : s.act e = some act) : acts ((s, e) :: past) = act :: acts past := by
  simp [acts, made]

/-- Only the commands that act on a user put a name into the variable. -/
theorem lastName_acts : lastName (acts ((s, e) :: past)) i = match s.dispatched e with
    | some (j, _, command) =>
      if j = i then command.naming.getD (lastName (acts past) i) else lastName (acts past) i
    | none => lastName (acts past) i := by
  cases taken : s.dispatched e with
  | none => rw [acts_none (by simp [Server.act, taken])]
  | some found =>
    obtain ⟨j, h, command⟩ := found
    by_cases acting : command.acts = true
    · rw [acts_some (show s.act e = some ⟨j, h.clientSocketFd, command⟩ by
        simp [Server.act, taken, acting]), lastName_cons]
    · rw [acts_none (by simp [Server.act, taken, acting])]
      cases command <;> simp_all [Command.acts, Command.naming]

theorem username_push {threads : List Handler} {new : Handler} (blank : new.username = []) :
    (((threads ++ [new])[i]?).map Handler.username).getD [] =
      ((threads[i]?).map Handler.username).getD [] := by
  rcases Nat.lt_trichotomy i threads.length with less | same | more
  · rw [List.getElem?_append_left less]
  · subst same
    simp [blank]
  · have beyond : (threads ++ [new]).length ≤ i := by simp; omega
    rw [List.getElem?_eq_none beyond, List.getElem?_eq_none more.le]

theorem namesKept (run : ServerRun past s) : NamesKept past s := by
  refine run.invariant NamesKept (fun i => rfl) ?_
  intro past s e t _ kept stepped i
  rw [lastName_acts]
  cases Server.step_moved stepped with
  | accept => exact (kept i).trans (username_push rfl).symm
  | acceptLate | acceptFails | interrupt | listener => exact kept i
  | @thread j a h h' w' atThread moved =>
    simp only [Server.dispatched, atThread, Option.bind_some, threads_set atThread]
    by_cases own : i = j
    · subst own
      rw [if_pos rfl, Option.map_some, Option.getD_some, moved.username_eq]
      have before := kept i
      rw [atThread] at before
      cases heard : h.hears s.toShared a with
      | none => simpa using before
      | some command => simp [before]
    · rw [if_neg own, ← kept i]
      cases heard : h.hears s.toShared a with
      | none => simp
      | some command => simp [Ne.symm own]

/-- A step makes the call that its command asks for. -/
theorem storeCall_act (kept : NamesKept past s) : s.storeCall e = (s.act e).map fun act =>
    let call := act.draft (act.target (acts past))
    call.withResult (call.onRecord (s.userStore.users call.name)).2 := by
  cases taken : s.dispatched e with
  | none => simp [Server.storeCall, Server.act, taken]
  | some found =>
    obtain ⟨j, h, command⟩ := found
    obtain ⟨a, rfl, atThread, _⟩ := Server.dispatched_iff.mp taken
    have variable_ := kept j
    rw [atThread] at variable_
    simp only [Server.storeCall, Server.act, taken, Option.bind_some]
    cases command with
    | login username password =>
      simp only [Command.storeCall, Command.acts, if_true, Option.map_some, Act.target, Act.draft,
        StoreCall.name, StoreCall.withResult, UserStore.loginUser]
      cases found : s.userStore.users username with
      | none => rfl
      | some user => by_cases matched : user.password = password <;> simp [StoreCall.onRecord, matched]
    | logout =>
      simp [Command.storeCall, Command.acts, Act.target, Act.draft, StoreCall.withResult, variable_]
    | signup => rfl
    | client | call | exit | ignored => rfl

/-- The store and the calls of a run, by its commands. -/
theorem calls_of_acts (run : ServerRun past s) :
    s.userStore.users = Keyed.final StoreCall.name StoreCall.onRecord (fun _ => none) (drafts (acts past)) ∧
      calls past = (Keyed.returns StoreCall.name StoreCall.onRecord (fun _ => none)
        (drafts (acts past))).map fun done => done.1.withResult done.2 := by
  induction run with
  | start => exact ⟨rfl, rfl⟩
  | @next past s e t previous stepped ih =>
    obtain ⟨store, made⟩ := ih
    have through := Server.step_userStore stepped
    have call := storeCall_act (e := e) (namesKept previous)
    cases acting : s.act e with
    | none =>
      rw [acting, Option.map_none] at call
      rw [call, Option.elim_none] at through
      rw [acts_none acting, calls_of_none call, through]
      exact ⟨store, made⟩
    | some act =>
      rw [acting, Option.map_some] at call
      rw [call, Option.elim_some] at through
      rw [acts_some acting, calls_of_some call, through, StoreCall.apply_users, made, store]
      refine ⟨?_, rfl⟩
      simp only [drafts, Keyed.final, Keyed.apply, StoreCall.name_withResult,
        StoreCall.onRecord_withResult]

/-- Two runs in which every session goes through the same commands, and the commands on every user
come in the same order, leave the same store, and every call returns in one what it returns in the
other. -/
theorem interleavings_agree (run : ServerRun past s) (run' : ServerRun past' s')
    (sessions : ∀ i, actsOf i (acts past) = actsOf i (acts past'))
    (users : ∀ u, actsOn u (acts past) = actsOn u (acts past')) :
    s.userStore = s'.userStore ∧ ∀ i, callsOf i past = callsOf i past' := by
  obtain ⟨store, made⟩ := calls_of_acts run
  obtain ⟨store', made'⟩ := calls_of_acts run'
  have own (i : Nat) : (drafts (acts past)).filter (·.session = i) =
      (drafts (acts past')).filter (·.session = i) := by
    rw [drafts_actsOf, drafts_actsOf, sessions]
  have same (u : Text) : (drafts (acts past)).filter (·.name = u) =
      (drafts (acts past')).filter (·.name = u) := by
    rw [drafts_actsOn, drafts_actsOn, users]
  constructor
  · have equal : s.userStore.users = s'.userStore.users := by
      rw [store, store', Keyed.final_congr same]
    cases sStore : s.userStore
    cases sStore' : s'.userStore
    rw [sStore, sStore'] at equal
    exact congrArg UserStore.mk equal
  · intro i
    have returned := Keyed.returns_congr StoreCall.onRecord (fun _ => none) own same i
    rw [callsOf, callsOf, made, made', List.filter_map, List.filter_map]
    simpa [Function.comp_def] using congrArg (List.map fun done => done.1.withResult done.2) returned

end Runs

/-- Each of two sessions signs a user up and logs in as the other's. -/
def crossLogins : List Event :=
  [.accept true, .accept true] ++ session 0 (sends "SIGNUP bob pw") ++ session 1 (sends "SIGNUP amy pw") ++
    session 0 (sends "LOGIN amy pw") ++ session 1 (sends "LOGIN bob no")

/-- The same with the sessions in another order. -/
def crossLogins' : List Event :=
  [.accept true, .accept true] ++ session 1 (sends "SIGNUP amy pw") ++ session 0 (sends "SIGNUP bob pw") ++
    session 1 (sends "LOGIN bob no") ++ session 0 (sends "LOGIN amy pw")

theorem cross_logins_agree : ∃ past s past' s',
    execute Server.step [] Server.initial crossLogins = some (past, s) ∧
      execute Server.step [] Server.initial crossLogins' = some (past', s') ∧ past ≠ past' ∧
      s.userStore = s'.userStore ∧ ∀ i, callsOf i past = callsOf i past' := by
  have ran : (execute Server.step [] Server.initial crossLogins).any (fun r => decide (acts r.1 =
      [⟨1, -1, .login "bob".toList "no".toList⟩, ⟨0, -1, .login "amy".toList "pw".toList⟩,
        ⟨1, -1, .signup "amy".toList "pw".toList⟩, ⟨0, -1, .signup "bob".toList "pw".toList⟩])) = true := by
    decide +kernel
  have ran' : (execute Server.step [] Server.initial crossLogins').any (fun r => decide (acts r.1 =
      [⟨0, -1, .login "amy".toList "pw".toList⟩, ⟨1, -1, .login "bob".toList "no".toList⟩,
        ⟨0, -1, .signup "bob".toList "pw".toList⟩, ⟨1, -1, .signup "amy".toList "pw".toList⟩])) = true := by
    decide +kernel
  obtain ⟨past, s, done, checked⟩ := execute_check _ ran
  obtain ⟨past', s', done', checked'⟩ := execute_check _ ran'
  have commands := of_decide_eq_true checked
  have commands' := of_decide_eq_true checked'
  refine ⟨past, s, past', s', done, done', ?_,
    interleavings_agree (execute_trail done) (execute_trail done') ?_ ?_⟩
  · rintro rfl
    exact absurd (commands.symm.trans commands') (by decide)
  · intro i
    rw [commands, commands']
    by_cases first : i = 0
    · subst first; rfl
    · by_cases second : i = 1
      · subst second; rfl
      · simp [actsOf, Ne.symm first, Ne.symm second]
  · intro u
    rw [commands, commands']
    have apart : "bob".toList ≠ "amy".toList := by decide
    generalize "bob".toList = bob at apart
    generalize "amy".toList = amy at apart
    by_cases first : bob = u
    · have other : amy ≠ u := fun same => apart (first.trans same.symm)
      simp [actsOn, Act.target, first, other]
    · by_cases second : amy = u <;> simp [actsOn, Act.target, first, second]

end Signaling
