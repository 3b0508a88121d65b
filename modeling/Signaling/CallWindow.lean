import Signaling.StoreCalls

namespace Signaling
open Machine CText

def Event.isRecvOf (i : Nat) : Event → Bool
  | .thread j (.recv _) => j = i
  | _ => false

def Event.isGetUserOf (i : Nat) : Event → Bool
  | .thread j (.getUser _) => j = i
  | _ => false

/-- The store calls since the session's latest `recv`, which is where a CALL reads `isLogin`. -/
def callsSinceRecv (i : Nat) : History → List StoreCall
  | [] => []
  | (s, e) :: past =>
    if e.isRecvOf i then [] else (s.storeCall e).toList ++ callsSinceRecv i past

/-- The run up to the session's latest `getUser`. -/
def upToGetUser (i : Nat) (past : History) : History := past.dropWhile (fun step => !step.2.isGetUserOf i)

/-- What the latest call that writes the flag of a name writes there. -/
def lastFlag : List StoreCall → Text → Option Bool
  | [], _ => none
  | .addUser _ user :: before, u => if user.username = u then some false else lastFlag before u
  | .loginUser _ v _ result :: before, u => if result ∧ v = u then some true else lastFlag before u
  | .logOutUser _ v :: before, u => if v = u then some false else lastFlag before u

/-- The receiver whose flag the handler has read and whose record it has not. -/
def Phase.checked : Phase → Option Text
  | .calling receiver _ | .looking receiver _ => some receiver
  | _ => none

/-- The receiver and the record from which the descriptor for the INVITE was taken. -/
def Phase.snapshot : Phase → Option (Text × User)
  | .inviting receiver _ receiverUser _ => some (receiver, receiverUser)
  | _ => none

/-- The last step, if it sent an INVITE, sent it by a record whose flag is set. -/
def InviteeFlagged : History → Server → Prop
  | (r, .thread i .invite) :: _, _ =>
    ∀ h ∈ r.threads[i]?, ∀ taken ∈ h.phase.snapshot, taken.2.islogin = some true
  | _, _ => True

/-- Not the INVITE of a CALL between whose `isLogin` and `getUser` the flag was cleared for good. -/
def WindowQuiet (past : History) (s : Server) : Event → Prop
  | .thread i .invite => ∀ h ∈ s.threads[i]?, ∀ taken ∈ h.phase.snapshot,
      lastFlag (callsSinceRecv i (upToGetUser i past)) taken.1 ≠ some false
  | _ => True

instance (past : History) (s : Server) (e : Event) : Decidable (WindowQuiet past s e) := by
  unfold WindowQuiet
  cases_type* Event Action <;> infer_instance

/-- A receiver's flag, and then the flag in the record taken, is what the store calls since `isLogin`
left of a set flag. -/
structure CallTracked (past : History) (s : Server) (i : Nat) (h : Handler) : Prop where
  checked : ∀ u ∈ h.phase.checked,
    s.userStore.isLogin u = some ((lastFlag (callsSinceRecv i past) u).getD true)
  snapshot : ∀ taken ∈ h.phase.snapshot, taken.2.islogin =
    some ((lastFlag (callsSinceRecv i (upToGetUser i past)) taken.1).getD true)

section Steps
variable {past : History} {s t : Server} {e : Event} {i : Nat} {h h' : Handler}

theorem upToGetUser_other (other : e.isGetUserOf i = false) :
    upToGetUser i ((s, e) :: past) = upToGetUser i past := by
  simp [upToGetUser, other]

theorem upToGetUser_here (here : e.isGetUserOf i = true) :
    upToGetUser i ((s, e) :: past) = (s, e) :: past := by
  simp [upToGetUser, here]

/-- The flag of a name after a step, by the calls since `isLogin`. -/
theorem flag_tracked {u : Text} (stepped : s.step e = some t) (other : e.isRecvOf i = false)
    (tracked : s.userStore.isLogin u = some ((lastFlag (callsSinceRecv i past) u).getD true)) :
    t.userStore.isLogin u =
      some ((lastFlag (callsSinceRecv i ((s, e) :: past)) u).getD true) := by
  rw [Server.step_userStore stepped, callsSinceRecv, other]
  cases made : s.storeCall e with
  | none => simpa using tracked
  | some call =>
    simp only [Option.elim_some, Bool.false_eq_true, if_false, Option.toList_some, List.singleton_append]
    cases call with
    | addUser j user =>
      obtain ⟨_, _, cleared, _⟩ := Server.storeCall_addUser made
      simp only [StoreCall.apply, UserStore.isLogin_addUser, lastFlag, eq_comm (a := u)]
      split_ifs
      · exact cleared
      · exact tracked
    | loginUser j v password result =>
      simp only [StoreCall.apply, UserStore.isLogin_loginUser, lastFlag,
        Server.storeCall_loginUser made, eq_comm (a := u)]
      split_ifs
      · rfl
      · exact tracked
    | logOutUser j v =>
      simp only [StoreCall.apply, UserStore.isLogin_logOutUser, lastFlag, eq_comm (a := u)]
      split_ifs
      · rfl
      · exact tracked

/-- A session that takes no part in a step stays tracked. -/
theorem CallTracked.other (tracked : CallTracked past s i h) (stepped : s.step e = some t)
    (other : ∀ a, e ≠ .thread i a) : CallTracked ((s, e) :: past) t i h := by
  have notRecv : e.isRecvOf i = false := by
    cases e with
    | thread j a =>
      have differs : j ≠ i := fun same => other a (by rw [same])
      cases a <;> simp [Event.isRecvOf, differs]
    | accept | interrupt | listener => rfl
  have notGetUser : e.isGetUserOf i = false := by
    cases e with
    | thread j a =>
      have differs : j ≠ i := fun same => other a (by rw [same])
      cases a <;> simp [Event.isGetUserOf, differs]
    | accept | interrupt | listener => rfl
  refine ⟨fun u reading => flag_tracked stepped notRecv (tracked.checked u reading), ?_⟩
  rw [upToGetUser_other notGetUser]
  exact tracked.snapshot

theorem CallTracked.idle (checked : h.phase.checked = none) (snapshot : h.phase.snapshot = none) :
    CallTracked past s i h := by
  constructor <;> simp [checked, snapshot]

theorem CallTracked.moved {a : Action} {w' : Shared} (tracked : CallTracked past s i h)
    (stepped : s.step (.thread i a) = some t) (moved : h.Moved i s.toShared a h' w')
    (after : t.toShared = w') : CallTracked ((s, .thread i a) :: past) t i h' := by
  cases moved with
  | call atLoop heard login =>
    refine ⟨fun u reading => ?_, by simp [Handler.goto, Phase.snapshot]⟩
    cases Option.some.inj reading
    rw [after, callsSinceRecv, Event.isRecvOf, if_pos (by simp)]
    exact login
  | hasUser atPhase =>
    refine ⟨fun u reading => ?_, by simp [Handler.goto, Phase.snapshot]⟩
    exact flag_tracked stepped rfl (tracked.checked u (by rw [atPhase]; exact reading))
  | @getUser receiver sdp unwritten receiverUser atPhase found =>
    refine ⟨by simp [Handler.goto, Phase.checked], fun taken reading => ?_⟩
    cases Option.some.inj reading
    have reached := flag_tracked stepped rfl (tracked.checked receiver (by rw [atPhase]; rfl))
    have flag : s.userStore.isLogin receiver = receiverUser.islogin := by
      rw [UserStore.getUser] at found
      rw [UserStore.isLogin, found]
    rw [upToGetUser_here (by simp [Event.isGetUserOf]), ← flag, ← reached, after]
  | ignored atLoop => exact .idle (by rw [atLoop]; rfl) (by rw [atLoop]; rfl)
  | _ => exact .idle rfl rfl

theorem calls_tracked (run : ServerRun past s) :
    ∀ i h, s.threads[i]? = some h → CallTracked past s i h := by
  refine run.invariant (fun past s => ∀ i h, s.threads[i]? = some h → CallTracked past s i h) ?_ ?_
  · intro i h atThread
    simp [Server.initial] at atThread
  · intro past s e t _ ih stepped i h after
    rcases Server.thread_origin stepped after with ⟨before, other⟩ | ⟨a, g, rfl, before, moved⟩ | ⟨_, _, rfl⟩
    · exact (ih i h before).other stepped other
    · exact (ih i g before).moved stepped moved rfl
    · exact .idle rfl rfl

theorem inviteeFlagged_step (run : ServerRun past s) :
    InviteeFlagged ((s, e) :: past) t ↔ WindowQuiet past s e := by
  cases e with
  | thread i a =>
    cases a with
    | invite =>
      simp only [InviteeFlagged, WindowQuiet]
      refine forall₂_congr fun h atThread => forall₂_congr fun taken reading => ?_
      rw [(calls_tracked run i h atThread).snapshot taken reading]
      rcases lastFlag _ taken.1 with _ | _ | _ <;> simp
    | stop | recv | socket | connect | greet | reply | hasUser | getUser | answer | forward
    | exitReply | exitNotice | close | finish => exact Iff.rfl
  | accept | interrupt | listener => exact Iff.rfl

/-- All along a run INVITEs are sent by records with the flag set exactly if no CALL had the flag
cleared, and not set again, between reading the flag and taking the record. -/
theorem invitee_flagged_iff (run : ServerRun past s) :
    Always InviteeFlagged past s ↔ Throughout WindowQuiet past :=
  run.always_iff trivial fun _ _ _ _ previous _ _ => inviteeFlagged_step previous

end Steps

/-- Session 1 calls bob, who has logged in, and another session fails to log in as bob on the way. -/
def quietCallRun : List Event :=
  [.accept true, .accept true] ++ session 0 (connects ++ sends "SIGNUP bob pw" ++ sends "LOGIN bob pw") ++
    session 1 [.recv (clientFrame "CALL bob sdp")] ++ session 0 (sends "LOGIN bob no") ++
    session 1 [.hasUser, .getUser 0, .invite]

theorem quiet_call_flagged : ∃ past s,
    execute Server.step [] Server.initial quietCallRun = some (past, s) ∧ s.invites = 1 ∧
      Always InviteeFlagged past s := by
  have ran : (execute Server.step [] Server.initial quietCallRun).any (fun r =>
      decide (r.2.invites = 1 ∧ Throughout WindowQuiet r.1)) = true := by
    decide +kernel
  obtain ⟨past, s, done, checked⟩ := execute_check _ ran
  obtain ⟨sent, quiet⟩ := of_decide_eq_true checked
  exact ⟨past, s, done, sent, (invitee_flagged_iff (execute_trail done)).mpr quiet⟩

/-- Session 1 calls bob, who logs out between `isLogin` and `getUser`. -/
def lateLogoutRun : List Event :=
  [.accept true, .accept true] ++ session 0 (connects ++ sends "SIGNUP bob pw" ++ sends "LOGIN bob pw") ++
    session 1 [.recv (clientFrame "CALL bob sdp")] ++ session 0 (sends "LOGOUT bob") ++
    session 1 [.hasUser, .getUser 0, .invite]

theorem late_logout_not_flagged : ∃ past s,
    execute Server.step [] Server.initial lateLogoutRun = some (past, s) ∧
      ¬Always InviteeFlagged past s := by
  have ran : (execute Server.step [] Server.initial lateLogoutRun).any (fun r =>
      endsWith (.thread 1 .invite) (fun before _ =>
        decide (((before.threads[1]?).bind fun h => h.phase.snapshot).map (·.2.islogin) =
          some (some false))) r.1) = true := by
    decide +kernel
  obtain ⟨past, s, done, checked⟩ := execute_check _ ran
  refine ⟨past, s, done, fun always => ?_⟩
  obtain ⟨before, earlier, rfl, facts⟩ := endsWith_iff.mp checked
  obtain ⟨taken, reading, clear⟩ := Option.map_eq_some_iff.mp (of_decide_eq_true facts)
  obtain ⟨h, atThread, snapshot⟩ := Option.bind_eq_some_iff.mp reading
  have flagged := always.here h atThread taken snapshot
  rw [clear] at flagged
  simp at flagged

end Signaling
