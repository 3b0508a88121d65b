import Signaling.StoreCalls

namespace Signaling
open Machine CText

/-- The thread is in the part of the CALL branch that follows a successful `isLogin`. -/
def Phase.inCall : Phase → Bool
  | .calling .. | .looking .. | .inviting .. | .waiting .. | .forwarding .. => true
  | _ => false

/-- The last step, if it sent an INVITE or forwarded the reply to one, did so for a session that
was logged in. -/
def CallerStands : History → Server → Prop
  | (_, .thread i .invite) :: past, _ => standing (calls past) i ≠ none
  | (_, .thread i .forward) :: past, _ => standing (calls past) i ≠ none
  | _, _ => True

/-- Every session in the CALL branch is logged in. -/
def InCallStands (past : History) (s : Server) : Prop :=
  ∀ i h, s.threads[i]? = some h → h.phase.inCall = true → standing (calls past) i ≠ none

/-- Not a CALL to a user whose flag is set from a session that is not logged in. -/
def Command.Allowed (history : List StoreCall) (store : UserStore) (i : Nat) : Command → Prop
  | .call receiver _ => standing history i = none → store.isLogin receiver ≠ some true
  | _ => True

def CallAllowed (past : History) (s : Server) (e : Event) : Prop :=
  ∀ taken ∈ s.dispatched e, taken.2.2.Allowed (calls past) s.userStore taken.1

instance (history : List StoreCall) (store : UserStore) (i : Nat) (command : Command) :
    Decidable (command.Allowed history store i) := by
  unfold Command.Allowed
  cases_type* Command <;> infer_instance

instance (past : History) (s : Server) (e : Event) : Decidable (CallAllowed past s e) :=
  inferInstanceAs
    (Decidable (∀ taken ∈ s.dispatched e, taken.2.2.Allowed (calls past) s.userStore taken.1))

section Steps
variable {i : Nat} {h h' : Handler} {w w' : Shared} {a : Action}

/-- The CALL branch is entered by a CALL frame for a user whose flag is set. -/
theorem Handler.Moved.enters_call (moved : h.Moved i w a h' w') (inside : h'.phase.inCall = true) :
    h.phase.inCall = true ∨ ∃ receiver sdp, h.hears w a = some (.call receiver sdp) ∧
      w.userStore.isLogin receiver = some true := by
  cases moved with
  | call _ heard login => exact Or.inr ⟨_, _, heard, login⟩
  | hasUser atPhase | getUser atPhase | invite atPhase | accepted atPhase =>
    exact Or.inl (by rw [atPhase]; rfl)
  | ignored atLoop => simp [atLoop, Phase.inCall] at inside
  | stop | hangup | client | signup | login | refuse | logout | exit | socket | socketFails | connect
  | connectFails | greet | reply | hasNoUser | noUser | declined | forward | exitReply
  | exitReplyFails | exitNotice | close | finish | closeAgain =>
    simp [Handler.goto, Phase.inCall] at inside

theorem Handler.Moved.haslogin_eq (moved : h.Moved i w a h' w') : h'.haslogin = h.haslogin := by
  cases moved <;> rfl

end Steps

variable {past : History} {s : Server}

/-- The variable of the session that was to tell whether it is logged in is never set. -/
theorem haslogin_clear (run : ServerRun past s) :
    ∀ (i : Nat) (h : Handler), s.threads[i]? = some h → h.haslogin = false := by
  refine run.invariant
    (fun _ s => ∀ (i : Nat) (h : Handler), s.threads[i]? = some h → h.haslogin = false) ?_ ?_
  · intro i h atThread
    simp [Server.initial] at atThread
  · intro past s e t _ clear stepped i h after
    rcases Server.thread_origin stepped after with ⟨before, _⟩ | ⟨_, g, _, before, moved⟩ | ⟨_, _, rfl⟩
    · exact clear i h before
    · exact moved.haslogin_eq.trans (clear i g before)
    · rfl

/-- As long as the allowed CALLs are the only ones, whoever is in the CALL branch is logged in. -/
theorem inCall_stands (run : ServerRun past s) (allowed : Throughout CallAllowed past) :
    InCallStands past s := by
  refine run.invariant_of_allowed InCallStands ?_ ?_ allowed
  · intro i h atThread
    simp [Server.initial] at atThread
  · intro past s e t _ kept permitted stepped i h' after inside
    rcases Server.thread_origin stepped after with ⟨before, other⟩ | ⟨a, h, rfl, before, moved⟩ | ⟨_, _, rfl⟩
    · rw [standing_kept other]
      exact kept i h' before inside
    · have taken {command : Command} (heard : h.hears s.toShared a = some command) :
          s.dispatched (.thread i a) = some (i, h, command) :=
        Server.dispatched_iff.mpr ⟨a, rfl, before, heard⟩
      rcases moved.enters_call inside with already | ⟨receiver, sdp, heard, login⟩
      · have quiet : s.storeCall (.thread i a) = none := by
          refine Option.eq_none_iff_forall_ne_some.mpr fun call made => ?_
          obtain ⟨g, command, found, _⟩ := Server.storeCall_spec made
          obtain ⟨b, same, there, heard⟩ := Server.dispatched_iff.mp found
          cases same
          cases Option.some.inj (before.symm.trans there)
          simp [(Handler.hears_recv heard).1, Phase.inCall] at already
        rw [calls_of_none quiet]
        exact kept i h before already
      · have quiet : s.storeCall (.thread i a) = none := by
          simp [Server.storeCall, taken heard, Command.storeCall]
        rw [calls_of_none quiet]
        exact fun absent => permitted _ (taken heard) absent login
    · simp [Phase.inCall] at inside

/-- In a run without CALLs to logged-in users from sessions that are not logged in themselves, every
INVITE and every forwarded reply is sent for a session that is logged in. -/
theorem caller_stands (run : ServerRun past s) (allowed : Throughout CallAllowed past) :
    Always CallerStands past s := by
  refine run.always_of_allowed (fun past s run allowed => ?_) allowed
  cases run with
  | start => trivial
  | @next past s e t previous stepped =>
    have inside := inCall_stands previous allowed.2
    have acting {i : Nat} {a : Action} (same : e = .thread i a)
        (phases : ∀ (h : Handler) w h' w', h.Moved i w a h' w' → h.phase.inCall = true) :
        standing (calls past) i ≠ none := by
      subst same
      cases Server.step_moved stepped with
      | thread atThread moved => exact inside i _ atThread (phases _ _ _ _ moved)
    cases e with
    | accept | interrupt | listener => trivial
    | thread i a =>
      cases a with
      | invite =>
        exact acting rfl fun h w h' w' moved => by
          cases moved with
          | invite atPhase => rw [atPhase]; rfl
      | forward =>
        exact acting rfl fun h w h' w' moved => by
          cases moved with
          | forward atPhase => rw [atPhase]; rfl
      | stop | recv | socket | connect | greet | reply | hasUser | getUser | answer | exitReply
      | exitNotice | close | finish => trivial

/-- Session 1 logs in as amy and calls bob. -/
def properCallRun : List Event :=
  [.accept true, .accept true] ++ session 0 (connects ++ sends "SIGNUP bob pw" ++ sends "LOGIN bob pw") ++
    session 1 (sends "SIGNUP amy pw" ++ sends "LOGIN amy pw" ++ rings "bob")

theorem proper_call_stands : ∃ past s,
    execute Server.step [] Server.initial properCallRun = some (past, s) ∧ s.invites = 1 ∧
      Always CallerStands past s := by
  have ran : (execute Server.step [] Server.initial properCallRun).any (fun r =>
      decide (r.2.invites = 1 ∧ Throughout CallAllowed r.1)) = true := by
    decide +kernel
  obtain ⟨past, s, done, checked⟩ := execute_check _ ran
  obtain ⟨sent, allowed⟩ := of_decide_eq_true checked
  exact ⟨past, s, done, sent, caller_stands (execute_trail done) allowed⟩

/-- Session 1 calls bob without ever having logged in. -/
def strangerRun : List Event :=
  [.accept true, .accept true] ++ session 0 (connects ++ sends "SIGNUP bob pw" ++ sends "LOGIN bob pw") ++
    session 1 (rings "bob")

theorem stranger_not_stands : ∃ past s,
    execute Server.step [] Server.initial strangerRun = some (past, s) ∧ ¬Always CallerStands past s := by
  have ran : (execute Server.step [] Server.initial strangerRun).any (fun r =>
      endsWith (.thread 1 .invite) (fun _ earlier =>
        decide (standing (calls earlier) 1 = none)) r.1) = true := by
    decide +kernel
  obtain ⟨past, s, done, checked⟩ := execute_check _ ran
  refine ⟨past, s, done, fun always => ?_⟩
  obtain ⟨before, earlier, rfl, facts⟩ := endsWith_iff.mp checked
  exact always.here (of_decide_eq_true facts)

end Signaling
