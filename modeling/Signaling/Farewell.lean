import Signaling.Machine.Trail
import Signaling.Menu

namespace Signaling
open Machine CText

abbrev MenuHistory := List (Menu × MenuEvent)

/-- `open_menu` has returned, or the process has exited in it. -/
def MenuPhase.gone : MenuPhase → Bool
  | .returned | .exited => true
  | _ => false

/-- An EXIT is still to be sent. -/
def MenuPhase.early : MenuPhase → Bool
  | .leaving | .returned | .exited => false
  | _ => true

namespace Menu

/-- The frames sent on `client_socket`, the latest first. -/
def framesSent (past : MenuHistory) : List Text := past.filterMap fun step => (step.1.act step.2).bind Prod.snd

def exitFrame : Text := clientFrame "EXIT EXIT"

def logoutFrame (username : Text) : Text := padded socketBufferSize (ofBuffer ("LOGOUT ".toList ++ username))

/-- A LOGOUT of the name if there is one and then an EXIT, the latest first. -/
def farewell (username : Text) : List Text := exitFrame :: if username = [] then [] else [logoutFrame username]

/-- A client that has left while the server was connected has sent its farewell last. -/
def Farewell (past : MenuHistory) (m : Menu) : Prop :=
  m.phase.gone = true → m.serverDisconnected = false → farewell m.username <+: framesSent past

/-- No input is read after a SIGINT, and the EXIT of `exit_user` goes through while the server is connected. -/
def ExitSent (_ : MenuHistory) (m : Menu) : MenuEvent → Prop
  | .choose input sent => m.running = true ∧ (input = .exit → m.username = [] → sent = true)
  | .sendExit sent => m.serverDisconnected = false → sent = true
  | _ => True

/-- The LOGOUT of `exit_user` goes through. -/
def LogoutSent (_ : MenuHistory) (m : Menu) : MenuEvent → Prop
  | .choose input sent => input = .exit → m.username ≠ [] → sent = true
  | _ => True

instance (past : MenuHistory) (m : Menu) (e : MenuEvent) : Decidable (ExitSent past m e) := by
  unfold ExitSent
  cases_type* MenuEvent <;> infer_instance

instance (past : MenuHistory) (m : Menu) (e : MenuEvent) : Decidable (LogoutSent past m e) := by
  unfold LogoutSent
  cases_type* MenuEvent <;> infer_instance

/-- What `exit_user` sends goes through, and the client leaves in no other way. -/
def LeavesByExit (past : MenuHistory) (m : Menu) (e : MenuEvent) : Prop := LogoutSent past m e ∧ ExitSent past m e

instance (past : MenuHistory) (m : Menu) (e : MenuEvent) : Decidable (LeavesByExit past m e) :=
  inferInstanceAs (Decidable (_ ∧ _))

/-- How far the farewell is in `exit_user`. -/
structure Stage (past : MenuHistory) (m : Menu) : Prop where
  loggedOut : m.phase = .loggingOut true ∨ m.phase = .exiting →
    m.username ≠ [] ∧ [logoutFrame m.username] <+: framesSent past
  leaving : m.phase = .leaving → farewell m.username <+: framesSent past
  left : Farewell past m

/-- A client in the menu is connected and has sent no EXIT. -/
structure Unsaid (past : MenuHistory) (m : Menu) : Prop where
  connected : m.phase = .reading → m.serverDisconnected = false
  unsent : m.phase.early = true → exitFrame ∉ framesSent past

section Frames
variable {past : MenuHistory} {m m' n : Menu} {e : MenuEvent} {message : Option Text} {request text : Text} {c : Char}

theorem framesSent_cons (done : m.act e = some (m', message)) :
    framesSent ((m, e) :: past) = message.toList ++ framesSent past := by
  rw [framesSent, List.filterMap_cons, done]
  cases message <;> rfl

theorem copied_eq (sent : copied text = some request) : request = padded socketBufferSize (ofBuffer text) := by
  rw [copied] at sent
  split_ifs at sent
  exact (Option.some.inj sent).symm

theorem copied_exit (sent : copied "EXIT EXIT".toList = some request) : request = exitFrame := copied_eq sent

/-- An EXIT after the LOGOUT, or after anything where there is no name. -/
theorem farewell_prefix {username : Text} {frames : List Text}
    (before : username ≠ [] → [logoutFrame username] <+: frames) : farewell username <+: exitFrame :: frames := by
  rw [farewell, List.cons_prefix_cons]
  refine ⟨rfl, ?_⟩
  split_ifs with unnamed
  · exact List.nil_prefix
  · exact before unnamed

theorem afterExit_phase : (m.afterSwitch true).phase = .returned := by
  rw [afterSwitch]
  cases m.serverDisconnected <;> rfl

theorem afterExit_connected : (m.afterSwitch true).serverDisconnected = m.serverDisconnected := by
  rw [afterSwitch]
  split_ifs <;> rfl

theorem stage_afterSwitch : Stage past (m.afterSwitch false) := by
  rw [afterSwitch]
  cases lost : m.serverDisconnected with
  | false => exact ⟨by simp [goto], by simp [goto], by simp [Farewell, goto, MenuPhase.gone]⟩
  | true => exact ⟨by simp [goto], by simp [goto], by simp [Farewell, goto, lost]⟩

theorem stage_afterExit (said : m.serverDisconnected = false → farewell m.username <+: framesSent past) :
    Stage past (m.afterSwitch true) := by
  rw [afterSwitch]
  cases lost : m.serverDisconnected with
  | false => exact ⟨by simp, by simp, fun _ _ => said lost⟩
  | true => exact ⟨by simp [goto], by simp [goto], by simp [Farewell, goto, lost]⟩

theorem stage_afterLogout {fromExit : Bool}
    (loggedOut : fromExit = true → m.username ≠ [] ∧ [logoutFrame m.username] <+: framesSent past) :
    Stage past (m.afterLogout fromExit) := by
  rw [afterLogout]
  cases fromExit with
  | false => exact stage_afterSwitch
  | true => exact ⟨fun _ => loggedOut rfl, by simp [goto], by simp [Farewell, goto, MenuPhase.gone]⟩

theorem Stage.resumed {past' : MenuHistory} (stage : Stage past m) (named : n.username = m.username)
    (same : framesSent past' = framesSent past) (moved : m.Resumed n m') : Stage past' m' := by
  cases moved with
  | signing => exact stage_afterSwitch
  | @loggingOut fromExit atPhase =>
    refine stage_afterLogout fun exits => ?_
    subst exits
    rw [named, same]
    exact stage.loggedOut (Or.inl atPhase)
  | leaving atPhase =>
    refine stage_afterExit fun _ => ?_
    rw [named, same]
    exact stage.leaving atPhase

theorem Stage.act (stage : Stage past m) (logoutSent : LogoutSent past m e) (exitSent : ExitSent past m e)
    (done : m.act e = some (m', message)) : Stage ((m, e) :: past) m' := by
  have frames := @framesSent_cons past m m' e message done
  cases act_acted done with
  | interrupted _ stopped =>
    rw [exitSent.1] at stopped
    simp at stopped
  | lost _ disconnected => exact ⟨by simp [goto], by simp [goto], by simp [Farewell, goto, disconnected]⟩
  | @signUpLogin _ _ _ sent =>
    cases sent with
    | false => exact stage_afterSwitch
    | true => exact ⟨by simp, by simp, by simp [Farewell, MenuPhase.gone]⟩
  | call | stay => exact stage_afterSwitch
  | @logout input fromExit sent request _ _ way copy =>
    rw [copied_eq copy] at frames
    cases sent with
    | false =>
      refine stage_afterLogout fun exits => ?_
      rcases way with ⟨_, not⟩ | ⟨rfl, _, named⟩
      · simp [not] at exits
      · exact absurd (logoutSent rfl named) (by simp)
    | true =>
      refine ⟨fun phase => ?_, by simp [goto], by simp [Farewell, goto, MenuPhase.gone]⟩
      have exits : fromExit = true := by simpa [goto] using phase
      rcases way with ⟨_, not⟩ | ⟨_, _, named⟩
      · simp [not] at exits
      · exact ⟨named, by rw [frames]; exact ⟨_, rfl⟩⟩
  | @exit _ sent request way copy =>
    rw [copied_exit copy] at frames
    cases sent with
    | false =>
      refine stage_afterExit fun connected => ?_
      rcases way with ⟨_, _, unnamed, rfl⟩ | ⟨_, rfl⟩
      · exact absurd (exitSent.2 rfl unnamed) (by simp)
      · exact absurd (exitSent connected) (by simp)
    | true =>
      refine ⟨by simp [goto], fun _ => ?_, by simp [Farewell, goto, MenuPhase.gone]⟩
      rw [frames]
      refine farewell_prefix fun named => ?_
      rcases way with ⟨_, _, unnamed, _⟩ | ⟨atPhase, _⟩
      · exact absurd unnamed named
      · exact (stage.loggedOut (Or.inr atPhase)).2
  | reply _ after =>
    obtain ⟨n, named, moved⟩ := receive_resumed after
    exact stage.resumed named frames moved
  | recvFails after => exact stage.resumed rfl frames (receiveFails_resumed after)
  | interrupt | gathered =>
    exact ⟨frames ▸ stage.loggedOut, frames ▸ stage.leaving, fun gone => frames ▸ stage.left gone⟩

theorem ne_exitFrame {rest : Text} (other : c ≠ 'E') (starts : request = c :: rest) : exitFrame ≠ request := by
  rintro rfl
  have first : exitFrame.head? = some 'E' := rfl
  rw [starts] at first
  exact other (Option.some.inj first)

theorem copied_first (sent : copied (c :: text) = some request) (filled : c ≠ nul) :
    ∃ rest, request = c :: rest := by
  have whole := copied_eq sent
  rw [ofBuffer, List.takeWhile_cons_of_pos (by simpa using filled)] at whole
  exact ⟨_, whole⟩

theorem printed_first (sent : printed (c :: text) = some request) : ∃ rest, request = c :: rest := by
  rw [printed] at sent
  split_ifs at sent
  exact ⟨_, (Option.some.inj sent).symm⟩

/-- Only `exit_user` sends an EXIT, and waits in its `recv` then. -/
theorem Acted.exits (acted : m.Acted e m' message) (exit : message = some exitFrame) : m'.phase = .leaving := by
  cases acted with
  | interrupted | lost | stay | reply | recvFails | interrupt | gathered => simp at exit
  | @signUpLogin signUp username password sent request _ _ copy =>
    obtain ⟨_, rfl⟩ := Option.ite_some_none_eq_some.mp exit
    cases signUp with
    | false =>
      obtain ⟨rest, starts⟩ := copied_first copy (by decide)
      exact absurd rfl (ne_exitFrame (by decide) starts)
    | true =>
      obtain ⟨rest, starts⟩ := copied_first copy (by decide)
      exact absurd rfl (ne_exitFrame (by decide) starts)
  | @call peerUsername sent request _ _ print =>
    obtain ⟨_, rfl⟩ := Option.ite_some_none_eq_some.mp exit
    obtain ⟨rest, starts⟩ := printed_first print
    exact absurd rfl (ne_exitFrame (by decide) starts)
  | @logout input fromExit sent request _ _ _ copy =>
    obtain ⟨_, rfl⟩ := Option.ite_some_none_eq_some.mp exit
    obtain ⟨rest, starts⟩ := copied_first copy (by decide)
    exact absurd rfl (ne_exitFrame (by decide) starts)
  | @exit _ sent request way copy =>
    obtain ⟨rfl, _⟩ := Option.ite_some_none_eq_some.mp exit
    rfl

theorem Resumed.early (moved : m.Resumed n m') (after : m'.phase.early = true) : m.phase.early = true := by
  cases moved with
  | signing atPhase | loggingOut atPhase =>
    rw [atPhase]
    rfl
  | leaving =>
    rw [afterExit_phase] at after
    simp [MenuPhase.early] at after

/-- Nothing leads back into the menu from the `recv` of `exit_user`. -/
theorem Acted.early (acted : m.Acted e m' message) (after : m'.phase.early = true) : m.phase.early = true := by
  cases acted with
  | interrupted atMenu | lost atMenu | signUpLogin atMenu | call atMenu | stay atMenu | logout atMenu =>
    rw [atMenu]
    rfl
  | exit way => rcases way with ⟨atPhase, _⟩ | ⟨atPhase, _⟩ <;> rw [atPhase] <;> rfl
  | reply _ done =>
    obtain ⟨n, _, moved⟩ := receive_resumed done
    exact moved.early after
  | recvFails done => exact (receiveFails_resumed done).early after
  | interrupt | gathered => exact after

theorem afterSwitch_connected (reading : (m.afterSwitch false).phase = .reading) :
    (m.afterSwitch false).serverDisconnected = false := by
  rw [afterSwitch] at reading ⊢
  cases lost : m.serverDisconnected with
  | false => simpa [goto] using lost
  | true => simp [lost, goto] at reading

theorem afterLogout_connected {fromExit : Bool} (reading : (m.afterLogout fromExit).phase = .reading) :
    (m.afterLogout fromExit).serverDisconnected = false := by
  cases fromExit with
  | false => exact afterSwitch_connected reading
  | true => simp [afterLogout, goto] at reading

theorem Resumed.connected (moved : m.Resumed n m') (reading : m'.phase = .reading) :
    m'.serverDisconnected = false := by
  cases moved with
  | signing => exact afterSwitch_connected reading
  | loggingOut => exact afterLogout_connected reading
  | leaving => simp [afterExit_phase] at reading

theorem Acted.connected (acted : m.Acted e m' message)
    (before : m.phase = .reading → m.serverDisconnected = false) (reading : m'.phase = .reading) :
    m'.serverDisconnected = false := by
  cases acted with
  | interrupted => cases selected : m.exitSelected <;> simp [goto, selected] at reading
  | lost => simp [goto] at reading
  | @signUpLogin _ _ _ sent =>
    cases sent with
    | false => exact afterSwitch_connected reading
    | true => simp at reading
  | call | stay => exact afterSwitch_connected reading
  | @logout _ _ sent =>
    cases sent with
    | false => exact afterLogout_connected reading
    | true => simp [goto] at reading
  | @exit _ sent =>
    cases sent with
    | false => simp [afterExit_phase] at reading
    | true => simp [goto] at reading
  | reply _ done =>
    obtain ⟨n, _, moved⟩ := receive_resumed done
    exact moved.connected reading
  | recvFails done => exact (receiveFails_resumed done).connected reading
  | interrupt | gathered => exact before reading

theorem Unsaid.act (unsaid : Unsaid past m) (done : m.act e = some (m', message)) : Unsaid ((m, e) :: past) m' := by
  have acted := act_acted done
  refine ⟨acted.connected unsaid.connected, fun early => ?_⟩
  rw [framesSent_cons done, List.mem_append, not_or]
  refine ⟨fun sent => ?_, unsaid.unsent (acted.early early)⟩
  have leaving := acted.exits (Option.mem_toList.mp sent)
  rw [leaving] at early
  simp [MenuPhase.early] at early

/-- A client that leaves without a message has not said its farewell. -/
theorem Unsaid.not_farewell (unsaid : Unsaid past m) (early : m.phase.early = true)
    (done : m.act e = some (m', none)) (gone : m'.phase.gone = true) (connected : m'.serverDisconnected = false) :
    ¬Farewell ((m, e) :: past) m' := by
  intro said
  have frames := said gone connected
  rw [framesSent_cons done] at frames
  exact unsaid.unsent early (frames.subset List.mem_cons_self)

theorem Unsaid.exitSent (unsaid : Unsaid past m) (done : m.act e = some (m', message))
    (said : Farewell ((m, e) :: past) m') : ExitSent past m e := by
  cases act_acted done with
  | interrupted atMenu =>
    have gone : (m.goto (if m.exitSelected then .returned else .exited)).phase.gone = true := by
      cases selected : m.exitSelected <;> rfl
    exact absurd said (unsaid.not_farewell (by rw [atMenu]; rfl) done gone (unsaid.connected atMenu))
  | lost atMenu disconnected => simp [unsaid.connected atMenu] at disconnected
  | signUpLogin _ running | call _ running => exact ⟨running, by simp⟩
  | stay _ running other => exact ⟨running, fun same => absurd same other⟩
  | logout _ running way =>
    refine ⟨running, fun exit unnamed => ?_⟩
    rcases way with ⟨rfl, _⟩ | ⟨_, _, named⟩
    · simp at exit
    · exact absurd unnamed named
  | @exit _ sent _ way =>
    have goesThrough (early : m.phase.early = true) (connected : m.serverDisconnected = false) : sent = true := by
      by_contra failed
      rw [Bool.not_eq_true] at failed
      subst failed
      refine absurd said (unsaid.not_farewell early done ?_ ?_)
      · simp [afterExit_phase, MenuPhase.gone]
      · simpa [afterExit_connected] using connected
    rcases way with ⟨atMenu, running, _, rfl⟩ | ⟨atPhase, rfl⟩
    · exact ⟨running, fun _ _ => goesThrough (by rw [atMenu]; rfl) (unsaid.connected atMenu)⟩
    · exact goesThrough (by rw [atPhase]; rfl)
  | reply | recvFails | interrupt | gathered => trivial

theorem unsaid_run (run : Trail step {} past m) : Unsaid past m := by
  refine run.invariant Unsaid ⟨fun _ => rfl, by simp [framesSent]⟩ ?_
  intro past m e m' _ unsaid stepped
  obtain ⟨⟨_, message⟩, done, same⟩ := Option.map_eq_some_iff.mp stepped
  cases same
  exact unsaid.act done

theorem stage_run (run : Trail step {} past m) (sent : Throughout LeavesByExit past) : Stage past m := by
  refine run.invariant_of_allowed Stage ?_ ?_ sent
  · exact ⟨by simp, by simp, by simp [Farewell, MenuPhase.gone]⟩
  · intro past m e m' _ stage sent stepped
    obtain ⟨⟨_, message⟩, done, same⟩ := Option.map_eq_some_iff.mp stepped
    cases same
    exact stage.act sent.1 sent.2 done

/-- A client that leaves by `exit_user` alone never leaves without its farewell. One that reads an input after a
SIGINT does, and so does one whose EXIT fails while the server is connected. -/
theorem farewell_sent (run : Trail step {} past m) :
    (Throughout LeavesByExit past → Always Farewell past m) ∧
      (Always Farewell past m → Throughout ExitSent past) := by
  constructor
  · intro sent
    exact run.always_of_allowed (fun past m run sent => (stage_run run sent).left) sent
  · intro always
    refine run.throughout_of_always (fun past m e m' run stepped said => ?_) always
    obtain ⟨⟨_, message⟩, done, same⟩ := Option.map_eq_some_iff.mp stepped
    cases same
    exact (unsaid_run run).exitSent done said

end Frames

/-- bob signs up and chooses option 5. -/
def bobExits : List MenuEvent :=
  [.choose (.signUpLogin true "bob".toList "pw".toList) true, .reply Outgoing.signupReply.frame,
    .choose .exit true, .reply Outgoing.logoutReply.frame, .sendExit true, .reply Outgoing.exitReply.frame]

theorem bob_says_farewell : ∃ past m, execute step [] {} bobExits = some (past, m) ∧
    m.phase = .returned ∧ m.serverDisconnected = false ∧ Always Farewell past m := by
  have ran : (execute step [] {} bobExits).any (fun r =>
      decide (r.2.phase = .returned ∧ r.2.serverDisconnected = false ∧ Throughout LeavesByExit r.1)) = true := by
    decide +kernel
  obtain ⟨past, m, done, checked⟩ := execute_check _ ran
  obtain ⟨returned, connected, sent⟩ := of_decide_eq_true checked
  exact ⟨past, m, done, returned, connected, (farewell_sent (execute_trail done)).1 sent⟩

/-- bob signs up, SIGINT comes, and the next input is read. -/
def bobInterrupted : List MenuEvent :=
  [.choose (.signUpLogin true "bob".toList "pw".toList) true, .reply Outgoing.signupReply.frame, .interrupt,
    .choose .other true]

/-- The process exits, connected and logged in, and what it sent last is the SIGNUP. -/
theorem interrupted_without_farewell : ∃ past m, execute step [] {} bobInterrupted = some (past, m) ∧
    m.phase = .exited ∧ m.serverDisconnected = false ∧ m.username = "bob".toList ∧
      framesSent past = [clientFrame "SIGNUP bob pw"] ∧ ¬Farewell past m := by
  have ran : (execute step [] {} bobInterrupted).any (fun r =>
      decide (r.2.phase = .exited ∧ r.2.serverDisconnected = false ∧ r.2.username = "bob".toList ∧
        framesSent r.1 = [clientFrame "SIGNUP bob pw"] ∧ ¬farewell r.2.username <+: framesSent r.1)) = true := by
    decide +kernel
  obtain ⟨past, m, done, checked⟩ := execute_check _ ran
  obtain ⟨exited, connected, name, frames, other⟩ := of_decide_eq_true checked
  exact ⟨past, m, done, exited, connected, name, frames, fun said => other (said (by rw [exited]; rfl) connected)⟩

end Menu

end Signaling
