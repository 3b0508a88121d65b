import Signaling.StoreCalls

namespace Signaling
open Machine CText

/-- The loop of the handler has not ended. -/
def Handler.live (h : Handler) : Bool :=
  match h.phase with
  | .closing | .closed | .returned => false
  | _ => true

/-- Session `i` is still in its loop and logged in under the name. -/
def Holds (past : History) (s : Server) (i : Nat) (u : Text) : Prop :=
  (∃ h, s.threads[i]? = some h ∧ h.live = true) ∧ standing (calls past) i = some u

/-- Every set flag is that of a session that is there and logged in under the name. -/
def FlagsHeld (past : History) (s : Server) : Prop :=
  ∀ u, s.userStore.isLogin u = some true → ∃ i, Holds past s i u

/-- The step ends the loop. -/
def Handler.leaves (h : Handler) (w : Shared) (a : Action) : Bool :=
  match h.phase, a with
  | .loop, .stop => true
  | .loop, .recv bytes => (h.hears w (.recv bytes)).isNone
  | .opening, .socket ok => !ok
  | .connecting, .connect ok => !ok
  | .exiting, .exitReply ok => !ok
  | .notifying, .exitNotice => true
  | _, _ => false

/-- The call gives up the name: a successful LOGIN under another one, or a LOGOUT while the
variable of the session holds another one. -/
def StoreCall.drops (call : StoreCall) (u : Text) : Prop :=
  match call with
  | .addUser .. => False
  | .loginUser _ username _ result => result = true ∧ username ≠ u
  | .logOutUser _ username => username ≠ u

/-- The step makes its session leave the loop or drop the name. -/
def LetsGo (s : Server) (e : Event) (i : Nat) (u : Text) : Prop :=
  (∃ h a, e = .thread i a ∧ s.threads[i]? = some h ∧ h.leaves s.toShared a = true) ∨
    ∃ call, s.storeCall e = some call ∧ call.session = i ∧ call.drops u

/-- The step does not take a name whose flag is set from the last session that holds it. -/
def KeepsHolder (past : History) (s : Server) (e : Event) : Prop :=
  ∀ i u, Holds past s i u → s.userStore.isLogin u = some true →
    (∀ j, Holds past s j u → j = i) → ¬LetsGo s e i u

section Moves
variable {i : Nat} {h h' : Handler} {w w' : Shared} {a : Action}

theorem Handler.Moved.live_iff (moved : h.Moved i w a h' w') (alive : h.live = true) :
    h'.live = true ↔ h.leaves w a = false := by
  cases moved with
  | stop atPhase | hangup atPhase heard | client atPhase heard | signup atPhase heard
  | login atPhase heard | call atPhase heard | refuse atPhase heard | logout atPhase heard
  | exit atPhase heard | ignored atPhase heard | socket atPhase | socketFails atPhase
  | connect atPhase | connectFails atPhase | greet atPhase | reply atPhase | hasUser atPhase
  | hasNoUser atPhase | getUser atPhase | noUser atPhase | invite atPhase | accepted atPhase
  | declined atPhase | forward atPhase | exitReply atPhase | exitReplyFails atPhase
  | exitNotice atPhase => simp [Handler.live, Handler.leaves, Handler.goto, *]
  | close atPhase | finish atPhase | closeAgain atPhase => simp [Handler.live, atPhase] at alive

end Moves

section Steps
variable {past : History} {s t : Server} {e : Event} {i j : Nat} {u : Text} {call : StoreCall}

/-- The steps of others neither give nor take a name. -/
theorem holds_kept (run : ServerRun past s) (stepped : s.step e = some t)
    (other : ∀ a, e ≠ .thread j a) : Holds ((s, e) :: past) t j u ↔ Holds past s j u := by
  unfold Holds
  rw [standing_kept other]
  refine and_congr_left fun login => ?_
  constructor
  · rintro ⟨h, after, alive⟩
    rcases Server.thread_origin stepped after with ⟨before, _⟩ | ⟨a, _, same, _⟩ | ⟨_, fresh, _⟩
    · exact ⟨h, before, alive⟩
    · exact absurd same (other a)
    · have inside := standing_lt run login
      omega
  · rintro ⟨h, before, alive⟩
    exact ⟨h, Server.thread_kept stepped before other, alive⟩

/-- After a step of its own a session is in its loop unless the step left it. -/
theorem live_step {a : Action} {h : Handler} (stepped : s.step (.thread i a) = some t)
    (before : s.threads[i]? = some h) (alive : h.live = true) :
    (∃ h', t.threads[i]? = some h' ∧ h'.live = true) ↔ h.leaves s.toShared a = false := by
  cases Server.step_moved stepped with
  | thread atThread moved =>
    cases Option.some.inj (before.symm.trans atThread)
    rw [← moved.live_iff alive]
    simp only [threads_set atThread, if_true, Option.some.injEq, exists_eq_left']

/-- A session that makes a store call is in its loop and does not leave it by that step. -/
theorem live_of_storeCall (made : s.storeCall e = some call) :
    ∃ h a, e = .thread call.session a ∧ s.threads[call.session]? = some h ∧ h.live = true ∧
      h.leaves s.toShared a = false := by
  obtain ⟨h, command, taken, _⟩ := Server.storeCall_spec made
  obtain ⟨a, same, atThread, heard⟩ := Server.dispatched_iff.mp taken
  obtain ⟨atLoop, bytes, rfl⟩ := Handler.hears_recv heard
  refine ⟨h, .recv bytes, same, atThread, ?_, ?_⟩
  · simp [Handler.live, atLoop]
  · simp [Handler.leaves, atLoop, heard]

/-- Leaving the loop is no store call. -/
theorem quiet_of_leaves {a : Action} {h : Handler} (before : s.threads[i]? = some h)
    (left : h.leaves s.toShared a = true) : s.storeCall (.thread i a) = none := by
  refine Option.eq_none_iff_forall_ne_some.mpr fun call made => ?_
  obtain ⟨g, b, same, atThread, _, stays⟩ := live_of_storeCall made
  cases same
  cases Option.some.inj (before.symm.trans atThread)
  simp [left] at stays

/-- A step that takes a name from a session leaves the flag of the name as it was. -/
theorem flag_of_letsGo (stepped : s.step e = some t) (gone : LetsGo s e i u) :
    t.userStore.isLogin u = s.userStore.isLogin u := by
  rw [Server.step_userStore stepped]
  rcases gone with ⟨h, a, rfl, before, left⟩ | ⟨call, made, _, dropped⟩
  · rw [quiet_of_leaves before left]
    rfl
  · rw [made, Option.elim_some]
    cases call with
    | addUser => exact False.elim dropped
    | loginUser j v password result =>
      simp only [StoreCall.apply, UserStore.isLogin_loginUser]
      exact if_neg (fun both => dropped.2 both.2.symm)
    | logOutUser j v =>
      simp only [StoreCall.apply, UserStore.isLogin_logOutUser]
      exact if_neg (Ne.symm dropped)

/-- A session that lets go of a name does not hold it afterwards. -/
theorem not_holds_of_letsGo (stepped : s.step e = some t) (alive : Holds past s i u)
    (gone : LetsGo s e i u) : ¬Holds ((s, e) :: past) t i u := by
  obtain ⟨⟨g, there, running⟩, _⟩ := alive
  rcases gone with ⟨h, a, rfl, before, left⟩ | ⟨call, made, rfl, dropped⟩
  · cases Option.some.inj (there.symm.trans before)
    rintro ⟨after, _⟩
    rw [live_step stepped before running, left] at after
    simp at after
  · rintro ⟨_, login⟩
    rw [calls_of_some made] at login
    cases call with
    | addUser => exact dropped
    | loginUser j v password result =>
      rw [standing, if_pos ⟨dropped.1, rfl⟩] at login
      exact dropped.2 (Option.some.inj login)
    | logOutUser j v => simp [standing, StoreCall.session] at login

/-- A session that does not let go of a name holds it as long as the flag of the name is set. -/
theorem holds_step {a : Action} (stepped : s.step (.thread i a) = some t) (holds : Holds past s i u)
    (flagged : t.userStore.isLogin u = some true) (stays : ¬LetsGo s (.thread i a) i u) :
    Holds ((s, .thread i a) :: past) t i u := by
  obtain ⟨⟨h, before, alive⟩, login⟩ := holds
  have kept : h.leaves s.toShared a = false := by
    by_contra left
    exact stays (Or.inl ⟨h, a, rfl, before, by simpa using left⟩)
  refine ⟨(live_step stepped before alive).mpr kept, ?_⟩
  cases made : s.storeCall (.thread i a) with
  | none => rwa [calls_of_none made]
  | some call =>
    obtain ⟨_, same⟩ := Server.storeCall_session made
    have own : call.session = i := by cases same; rfl
    have notDropped : ¬call.drops u := fun dropped => stays (Or.inr ⟨call, made, own, dropped⟩)
    rw [calls_of_some made]
    cases call with
    | addUser => exact login
    | loginUser j v password result =>
      rw [standing]
      split_ifs with successful
      · exact congrArg some (not_not.mp fun differs => notDropped ⟨successful.1, differs⟩)
      · exact login
    | logOutUser j v =>
      have same : v = u := not_not.mp notDropped
      subst same
      rw [Server.step_userStore stepped, made, Option.elim_some, StoreCall.apply,
        UserStore.isLogin_logOutUser, if_pos rfl] at flagged
      simp at flagged

/-- A flag that a step sets is held by the session that made the step. -/
theorem holds_of_opened (stepped : s.step e = some t) (flagged : t.userStore.isLogin u = some true)
    (clear : s.userStore.isLogin u ≠ some true) : ∃ i, Holds ((s, e) :: past) t i u := by
  rw [Server.step_userStore stepped] at flagged
  cases made : s.storeCall e with
  | none =>
    rw [made] at flagged
    exact absurd flagged clear
  | some call =>
    rw [made, Option.elim_some] at flagged
    obtain ⟨h, a, rfl, before, alive, stays⟩ := live_of_storeCall made
    refine ⟨call.session, (live_step stepped before alive).mpr stays, ?_⟩
    rw [calls_of_some made]
    cases call with
    | addUser j user =>
      obtain ⟨_, _, cleared, _⟩ := Server.storeCall_addUser made
      simp only [StoreCall.apply, UserStore.isLogin_addUser] at flagged
      split_ifs at flagged
      · simp [cleared] at flagged
      · exact absurd flagged clear
    | loginUser j v password result =>
      simp only [StoreCall.apply, UserStore.isLogin_loginUser] at flagged
      split_ifs at flagged with accepted
      · have result_eq := (Server.storeCall_loginUser made).trans accepted.1
        simp only [standing, StoreCall.session, result_eq, true_and, if_true, accepted.2]
      · exact absurd flagged clear
    | logOutUser j v =>
      simp only [StoreCall.apply, UserStore.isLogin_logOutUser] at flagged
      split_ifs at flagged
      · simp at flagged
      · exact absurd flagged clear

theorem flagsHeld_step (run : ServerRun past s) (held : FlagsHeld past s)
    (stepped : s.step e = some t) : FlagsHeld ((s, e) :: past) t ↔ KeepsHolder past s e := by
  constructor
  · intro after i u holds flagged only gone
    obtain ⟨j, holdsJ⟩ := after u ((flag_of_letsGo stepped gone).trans flagged)
    have own : ∃ a, e = .thread i a := by
      rcases gone with ⟨h, a, same, _⟩ | ⟨call, made, rfl, _⟩
      · exact ⟨a, same⟩
      · exact Server.storeCall_session made
    obtain ⟨a, rfl⟩ := own
    by_cases same : j = i
    · subst same
      exact not_holds_of_letsGo stepped holds gone holdsJ
    · have other : ∀ b, Event.thread i a ≠ .thread j b := by
        rintro b equal
        cases equal
        exact same rfl
      exact same (only j ((holds_kept run stepped other).mp holdsJ))
  · intro keeps u flagged
    by_cases before : s.userStore.isLogin u = some true
    · obtain ⟨j, holdsJ⟩ := held u before
      by_cases own : ∃ a, e = .thread j a
      · obtain ⟨a, rfl⟩ := own
        by_cases another : ∃ k, Holds past s k u ∧ k ≠ j
        · obtain ⟨k, holdsK, differs⟩ := another
          have other : ∀ b, Event.thread j a ≠ .thread k b := by
            rintro b equal
            cases equal
            exact differs rfl
          exact ⟨k, (holds_kept run stepped other).mpr holdsK⟩
        · have only : ∀ k, Holds past s k u → k = j :=
            fun k holdsK => not_not.mp fun differs => another ⟨k, holdsK, differs⟩
          exact ⟨j, holds_step stepped holdsJ flagged (keeps j u holdsJ before only)⟩
      · exact ⟨j, (holds_kept run stepped (fun a same => own ⟨a, same⟩)).mpr holdsJ⟩
    · exact holds_of_opened stepped flagged before

/-- All along a run every set flag is held by a live session exactly if no step takes the name of a
set flag from the last session that holds it. -/
theorem flags_held_iff (run : ServerRun past s) :
    Always FlagsHeld past s ↔ Throughout KeepsHolder past := by
  refine run.always_iff ?_ (fun past s e t previous always stepped => ?_)
  · intro u flagged
    simp [Server.initial, UserStore.isLogin] at flagged
  · exact flagsHeld_step previous always.here stepped

end Steps

/-- A session that logs in and is gone without LOGOUT. -/
def hangupRun : List Event :=
  .accept true :: session 0 (sends "SIGNUP bob pw" ++ sends "LOGIN bob pw" ++ [.recv []])

theorem hangup_stale : ∃ past s, execute Server.step [] Server.initial hangupRun = some (past, s) ∧
    ¬FlagsHeld past s := by
  have ran : (execute Server.step [] Server.initial hangupRun).any (fun r =>
      decide (r.2.userStore.isLogin "bob".toList = some true ∧
        ∀ h ∈ r.2.threads, h.live = false)) = true := by
    decide +kernel
  obtain ⟨past, s, done, checked⟩ := execute_check _ ran
  obtain ⟨flagged, ended⟩ := of_decide_eq_true checked
  refine ⟨past, s, done, fun held => ?_⟩
  obtain ⟨i, ⟨h, atThread, alive⟩, _⟩ := held _ flagged
  rw [ended h (List.mem_of_getElem? atThread)] at alive
  exact Bool.false_ne_true alive

theorem hangup_not_held : ∃ past s,
    execute Server.step [] Server.initial hangupRun = some (past, s) ∧ ¬Always FlagsHeld past s := by
  obtain ⟨past, s, done, stale⟩ := hangup_stale
  exact ⟨past, s, done, fun always => stale always.here⟩

theorem hangup_lets_go : ∃ past s,
    execute Server.step [] Server.initial hangupRun = some (past, s) ∧ ¬Throughout KeepsHolder past := by
  obtain ⟨past, s, done, stale⟩ := hangup_stale
  refine ⟨past, s, done, fun kept => ?_⟩
  exact stale ((flags_held_iff (execute_trail done)).mpr kept).here

end Signaling
