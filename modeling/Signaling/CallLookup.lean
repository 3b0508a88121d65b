import Signaling.StoreCalls

namespace Signaling
open Machine CText

/-- What the lookups of a CALL come to in a step from `r` to `s`: once the flag was seen set, the
name is found and its record taken; and a CALL to a name that is not stored changes nothing at all. -/
structure LookupSafe (r : Server) (e : Event) (s : Server) : Prop where
  found : ∀ i, e = .thread i .hasUser →
    ∃ h receiver sdp, s.threads[i]? = some h ∧ h.phase = .looking receiver sdp
  taken : ∀ i unwritten, e = .thread i (.getUser unwritten) →
    ∃ h receiver sdp user fd, s.threads[i]? = some h ∧ h.phase = .inviting receiver sdp user fd
  absent : ∀ i h receiver sdp, r.dispatched e = some (i, h, .call receiver sdp) →
    r.userStore.hasUser receiver = false → s = r

def CallSafe : History → Server → Prop
  | [], _ => True
  | (r, e) :: _, s => LookupSafe r e s

/-- The receiver of a CALL whose `isLogin` has returned true, until its record is taken. -/
def Phase.receiver : Phase → Option Text
  | .calling receiver _ | .looking receiver _ => some receiver
  | _ => none

/-- Whoever is being called is stored. -/
def ReceiverStored (s : Server) : Prop :=
  ∀ (i : Nat) (h : Handler), s.threads[i]? = some h →
    ∀ u ∈ h.phase.receiver, s.userStore.hasUser u = true

section Steps
variable {past : History} {s t : Server} {e : Event}

/-- The key set only grows. -/
theorem Server.hasUser_step {u : Text} (stepped : s.step e = some t)
    (present : s.userStore.hasUser u = true) : t.userStore.hasUser u = true := by
  rw [Server.step_userStore stepped]
  cases s.storeCall e with
  | none => exact present
  | some call => exact StoreCall.hasUser_apply present

/-- A CALL goes on only when the flag of its receiver was read, which takes a record. -/
theorem Handler.Moved.receiver_stored {i : Nat} {h h' : Handler} {w w' : Shared} {a : Action} {u : Text}
    (moved : h.Moved i w a h' w') (called : u ∈ h'.phase.receiver) :
    u ∈ h.phase.receiver ∨ w.userStore.hasUser u = true := by
  cases moved with
  | call _ _ login =>
    cases Option.some.inj called
    obtain ⟨user, found, _⟩ := UserStore.isLogin_true_iff.mp login
    exact Or.inr (Option.isSome_iff_exists.mpr ⟨user, found⟩)
  | hasUser atPhase =>
    refine Or.inl ?_
    rw [atPhase]
    exact called
  | ignored atLoop => simp [atLoop, Phase.receiver] at called
  | _ => simp [Handler.goto, Phase.receiver] at called

theorem receiver_stored (run : ServerRun past s) : ReceiverStored s := by
  refine run.invariant (fun _ s => ReceiverStored s) ?_ ?_
  · intro i h atThread
    simp [Server.initial] at atThread
  · intro past s e t _ stored stepped i h' after u called
    refine Server.hasUser_step stepped ?_
    rcases Server.thread_origin stepped after with ⟨before, _⟩ | ⟨a, h, _, before, moved⟩ | ⟨_, _, rfl⟩
    · exact stored i h' before u called
    · rcases moved.receiver_stored called with earlier | present
      · exact stored i h before u earlier
      · exact present
    · simp [Phase.receiver] at called

theorem Server.set_same {i : Nat} {h : Handler} (atThread : s.threads[i]? = some h) :
    { s with threads := s.threads.set i h } = s := by
  obtain ⟨inside, rfl⟩ := List.getElem?_eq_some_iff.mp atThread
  rw [List.set_getElem_self]

theorem lookupSafe_step (stored : ReceiverStored s) (stepped : s.step e = some t) :
    LookupSafe s e t where
  found i same := by
    subst same
    cases Server.step_moved stepped with
    | thread atThread moved =>
      cases moved with
      | hasUser => exact ⟨_, _, _, by rw [threads_set atThread, if_pos rfl], rfl⟩
      | hasNoUser atPhase absent =>
        have present := stored i _ atThread _ (by rw [atPhase]; rfl)
        simp [absent] at present
  taken i unwritten same := by
    subst same
    cases Server.step_moved stepped with
    | thread atThread moved =>
      cases moved with
      | getUser => exact ⟨_, _, _, _, _, by rw [threads_set atThread, if_pos rfl], rfl⟩
      | noUser atPhase absent =>
        have present := stored i _ atThread _ (by rw [atPhase]; rfl)
        rw [UserStore.getUser] at absent
        simp [UserStore.hasUser, absent] at present
  absent i h receiver sdp called absent := by
    obtain ⟨a, rfl, before, heard⟩ := Server.dispatched_iff.mp called
    obtain ⟨atLoop, bytes, rfl⟩ := Handler.hears_recv heard
    cases Server.step_moved stepped with
    | thread atThread moved =>
      cases Option.some.inj (before.symm.trans atThread)
      cases moved with
      | refuse =>
        have same : h.goto .loop = h := by rw [Handler.goto, ← atLoop]
        rw [same]
        exact Server.set_same atThread
      | call _ heard' login =>
        cases Option.some.inj (heard.symm.trans heard')
        obtain ⟨user, found, _⟩ := UserStore.isLogin_true_iff.mp login
        simp [UserStore.hasUser, found] at absent
      | hangup _ heard' => simp [heard] at heard'
      | client _ heard' | signup _ heard' | login _ heard' | logout _ heard' | exit _ heard'
      | ignored _ heard' => simp [heard] at heard'

/-- In every run a CALL whose `isLogin` returned true finds its receiver and takes its record, and a
CALL to a name that is not stored leaves the server as it was. -/
theorem call_safe (run : ServerRun past s) : Always CallSafe past s := by
  refine run.always fun past s run => ?_
  cases run with
  | start => trivial
  | next previous stepped => exact lookupSafe_step (receiver_stored previous) stepped

end Steps

/-- Session 1 calls bob, who logs out and signs up again before his record is taken, and then calls
somebody unknown. -/
def lookupRun : List Event :=
  [.accept true, .accept true] ++ session 0 (connects ++ sends "SIGNUP bob pw" ++ sends "LOGIN bob pw") ++
    session 1 [.recv (clientFrame "CALL bob sdp")] ++ session 0 (sends "LOGOUT bob") ++
    session 1 [.hasUser] ++ session 0 (sends "SIGNUP bob no") ++ session 1 [.getUser 0, .invite] ++
    [.listener (.callback 0 0) .quit] ++ session 1 [.answer [], .recv (clientFrame "CALL amy sdp")]

theorem lookup_run_safe : ∃ past s,
    execute Server.step [] Server.initial lookupRun = some (past, s) ∧ s.invites = 1 ∧
      Always CallSafe past s := by
  have ran : (execute Server.step [] Server.initial lookupRun).any (fun r =>
      decide (r.2.invites = 1)) = true := by
    decide +kernel
  obtain ⟨past, s, done, checked⟩ := execute_check _ ran
  exact ⟨past, s, done, of_decide_eq_true checked, call_safe (execute_trail done)⟩

end Signaling
