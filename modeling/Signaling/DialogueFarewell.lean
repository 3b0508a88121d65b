import Signaling.Farewell
import Signaling.ReplyMatching

namespace Signaling
open Machine CText

namespace Dialogue

/-- The client reads no input after a SIGINT. -/
def Uninterrupted (_ : Past) (d : Dialogue) : DialogueEvent → Prop
  | .client (.choose _) => d.client.running = true
  | _ => True

instance (past : Past) (d : Dialogue) (e : DialogueEvent) : Decidable (Uninterrupted past d e) := by
  unfold Uninterrupted
  cases_type* DialogueEvent ClientAction <;> infer_instance

/-- A run of the menu up to where the client of the dialogue is, with the messages that the client has sent there. -/
structure Shown (past : Past) (d : Dialogue) (menuPast : MenuHistory) (phase : MenuPhase) : Prop where
  run : Trail Menu.step {} menuPast (d.client.menu phase)
  before : d.client.phase = .starting → phase = .reading ∧ Menu.framesSent menuPast = []
  here : d.client.phase ≠ .starting → d.client.phase ≠ .closed → d.client.phase = phase.client
  after : d.client.phase = .closed → phase.client = .left
  sent : (Menu.framesSent menuPast).reverse <:+ d.sent
  leaves : Throughout Uninterrupted past → Throughout Menu.LeavesByExit menuPast

section Runs
variable {past : Past} {d d' : Dialogue} {e : DialogueEvent} {c : Client} {a : ClientAction}
  {menuPast : MenuHistory} {phase phase' : MenuPhase} {event : MenuEvent} {message : Option Text} {i n : Nat}
  {w : Shared}

/-- The menu takes the step of the client. -/
theorem Shown.step (shown : Shown past d menuPast phase)
    (done : (d.client.menu phase).act event = some (d'.client.menu phase', message))
    (here : d'.client.phase = phase'.client) (sent : d'.sent = d.sent ++ message.toList)
    (leaves : Uninterrupted past d e → Menu.LeavesByExit menuPast (d.client.menu phase) event) :
    Shown ((d, e) :: past) d' ((d.client.menu phase, event) :: menuPast) phase' := by
  refine ⟨shown.run.next (Option.map_eq_some_iff.mpr ⟨_, done, rfl⟩), ?_, fun _ _ => here, ?_, ?_,
    fun all => ⟨leaves all.1, shown.leaves all.2⟩⟩
  · intro starting
    rw [here] at starting
    cases phase' <;> simp [MenuPhase.client] at starting
  · intro closed
    rw [here] at closed
    cases phase' <;> simp [MenuPhase.client] at closed
  · obtain ⟨earlier, whole⟩ := shown.sent
    rw [sent, Menu.framesSent_cons done, List.reverse_append]
    refine ⟨earlier, ?_⟩
    rw [← List.append_assoc, whole]
    cases message <;> rfl

/-- SIGINT and `local_sdp` come wherever the client is. -/
theorem Shown.anywhere (shown : Shown past d menuPast phase) (same : d'.client.phase = d.client.phase)
    (done : (d.client.menu phase).act event = some (d'.client.menu phase, none)) (sent : d'.sent = d.sent)
    (leaves : Menu.LeavesByExit menuPast (d.client.menu phase) event) :
    Shown ((d, e) :: past) d' ((d.client.menu phase, event) :: menuPast) phase := by
  have frames : Menu.framesSent ((d.client.menu phase, event) :: menuPast) = Menu.framesSent menuPast :=
    Menu.framesSent_cons done
  refine ⟨shown.run.next (Option.map_eq_some_iff.mpr ⟨_, done, rfl⟩), ?_, ?_, ?_, ?_,
    fun all => ⟨leaves, shown.leaves all.2⟩⟩
  · rw [same, frames]
    exact shown.before
  · rw [same]
    exact shown.here
  · rw [same]
    exact shown.after
  · rw [sent, frames]
    exact shown.sent

/-- The menu does what the client does in it. -/
theorem Shown.client (shown : Shown past d menuPast phase) (done : d.client.act a = some (c, message)) :
    ∃ menuPast' phase',
      Shown ((d, .client a) :: past) { d with client := c, sent := d.sent ++ message.toList } menuPast' phase' := by
  cases a with
  | start address port =>
    rw [Client.act] at done
    split_ifs at done with starting
    obtain ⟨request, rfl, whole⟩ := sent_of_map done
    obtain ⟨_, _, same⟩ := Option.map_eq_some_iff.mp whole
    cases same
    obtain ⟨rfl, unsent⟩ := shown.before starting
    refine ⟨menuPast, .reading, shown.run, by simp [Client.goto], fun _ _ => rfl, by simp [Client.goto], ?_,
      fun all => shown.leaves all.2⟩
    rw [unsent]
    exact List.nil_suffix
  | close =>
    rw [Client.act] at done
    split_ifs at done with left
    cases Option.some.inj done
    have gone : phase.client = .left := by rw [← shown.here (by simp [left]) (by simp [left]), left]
    refine ⟨menuPast, phase, shown.run, by simp [Client.goto], by simp [Client.goto], fun _ => gone, ?_,
      fun all => shown.leaves all.2⟩
    simpa using shown.sent
  | interrupt =>
    cases Option.some.inj done
    have stopped : (d.client.menu phase).act .interrupt =
      some ({ d.client with running := false }.menu phase, none) := rfl
    exact ⟨_, phase, shown.anywhere rfl stopped (by simp) ⟨trivial, trivial⟩⟩
  | choose choice =>
    have atMenu : d.client.phase = .menu := by
      by_contra elsewhere
      simp [Client.act, elsewhere] at done
    have here := shown.here (by simp [atMenu]) (by simp [atMenu])
    obtain ⟨next, there, moved⟩ := Client.act_simulated here rfl done
    exact ⟨_, next, shown.step moved there rfl fun running => ⟨fun _ _ => rfl, running, fun _ _ => rfl⟩⟩
  | exit =>
    have exiting : d.client.phase = .exiting := by
      by_contra elsewhere
      simp [Client.act, elsewhere] at done
    have here := shown.here (by simp [exiting]) (by simp [exiting])
    obtain ⟨next, there, moved⟩ := Client.act_simulated here rfl done
    exact ⟨_, next, shown.step moved there rfl fun _ => ⟨trivial, fun _ => rfl⟩⟩

/-- So it does what the client does after a `recv`. -/
theorem Shown.receive {reply : Option Text} (shown : Shown past d menuPast phase)
    (read : d.client.receive reply = some c) (buffer : ∀ text ∈ reply, ∃ bytes, received bytes = some text)
    (same : d'.client = c) (sent : d'.sent = d.sent) :
    ∃ menuPast' phase', Shown ((d, e) :: past) d' menuPast' phase' := by
  subst same
  have waits := (Client.receive_phase read).1
  have here := shown.here (fun starting => by simp [starting, ClientPhase.awaits] at waits)
    (fun closed => by simp [closed, ClientPhase.awaits] at waits)
  obtain ⟨next, there, moved⟩ := Client.receive_simulated here read
  cases reply with
  | none =>
    have fails : (d.client.menu phase).act .recvFails = some (d'.client.menu next, none) := by
      rw [Menu.act, show (d.client.menu phase).receiveFails = _ from moved]
      rfl
    exact ⟨_, next, shown.step fails there (by simp [sent]) fun _ => ⟨trivial, trivial⟩⟩
  | some text =>
    obtain ⟨bytes, written⟩ := buffer text rfl
    have reads : (d.client.menu phase).act (.reply bytes) = some (d'.client.menu next, none) := by
      rw [Menu.act, written, Option.bind_some, show (d.client.menu phase).receive text = _ from moved]
      rfl
    exact ⟨_, next, shown.step reads there (by simp [sent]) fun _ => ⟨trivial, trivial⟩⟩

theorem Shown.next (shown : Shown past d menuPast phase) (stepped : d.step e = some d') :
    ∃ menuPast' phase', Shown ((d, e) :: past) d' menuPast' phase' := by
  have still (same : d'.client = d.client) (sent : d'.sent = d.sent) : Shown ((d, e) :: past) d' menuPast phase := by
    obtain ⟨run, before, here, after, suffix, leaves⟩ := shown
    exact ⟨same ▸ run, same ▸ before, same ▸ here, same ▸ after, sent ▸ suffix, fun all => leaves all.2⟩
  cases e with
  | client a =>
    obtain ⟨⟨c, message⟩, done, same⟩ := Option.map_eq_some_iff.mp stepped
    cases same
    exact shown.client done
  | reply =>
    rcases step_reply stepped with ⟨message, rest, buffer, c, _, read, taken, rfl⟩ | ⟨_, _, c, taken, rfl⟩
    · exact shown.receive taken (by simpa using ⟨_, read⟩) rfl rfl
    · exact shown.receive taken (by simpa using ⟨[], rfl⟩) rfl rfl
  | replyFails =>
    obtain ⟨_, _, c, taken, rfl⟩ := step_replyFails stepped
    exact shown.receive taken (by simp) rfl rfl
  | gathered sdp =>
    cases Option.some.inj stepped
    have gathered : (d.client.menu phase).act (.gathered sdp) =
      some ({ d.client with localSdp := sdp }.menu phase, none) := rfl
    exact ⟨_, phase, shown.anywhere rfl gathered rfl ⟨trivial, trivial⟩⟩
  | handler a =>
    obtain ⟨_, _, _, _, _, rfl⟩ := step_handler stepped
    exact ⟨_, phase, still rfl rfl⟩
  | others w =>
    cases Option.some.inj stepped
    exact ⟨_, phase, still rfl rfl⟩

/-- What the client does in a dialogue is a run of the menu. -/
theorem shown_by_menu (run : Trail Dialogue.step (opened i n w) past d) :
    ∃ menuPast phase, Shown past d menuPast phase := by
  refine run.invariant (fun past d => ∃ menuPast phase, Shown past d menuPast phase) ?_ ?_
  · exact ⟨[], .reading, .start, fun _ => ⟨rfl, rfl⟩, by simp [opened], by simp [opened], List.suffix_refl _, id⟩
  · rintro past d e d' _ ⟨menuPast, phase, shown⟩ stepped
    exact shown.next stepped

/-- The client of a dialogue that is not interrupted before an input leaves with a LOGOUT and an EXIT as its
last messages, unless it has lost the connection. -/
theorem farewell_last (run : Trail Dialogue.step (opened i n w) past d)
    (uninterrupted : Throughout Uninterrupted past)
    (left : d.client.phase = .left ∨ d.client.phase = .closed) (connected : d.client.serverDisconnected = false) :
    (Menu.farewell (typed d.client.username)).reverse <:+ d.sent := by
  obtain ⟨menuPast, phase, shown⟩ := shown_by_menu run
  have away : phase.client = .left := by
    rcases left with left | closed
    · rw [← shown.here (by simp [left]) (by simp [left]), left]
    · exact shown.after closed
  have gone : phase.gone = true := by cases phase <;> first | rfl | simp [MenuPhase.client] at away
  have said := (Menu.stage_run shown.run (shown.leaves uninterrupted)).left gone connected
  exact (List.reverse_suffix.mpr said).trans shown.sent

end Runs

end Dialogue

theorem farewell_of_leaving : ∃ past d,
    execute Dialogue.step [] (Dialogue.opened 0 4 justAccepted) signUpAndLeave = some (past, d) ∧
      d.client.username = some bob ∧ (Menu.farewell (typed d.client.username)).reverse <:+ d.sent := by
  have ran : (execute Dialogue.step [] (Dialogue.opened 0 4 justAccepted) signUpAndLeave).any (fun r =>
      decide (r.2.client.username = some bob ∧ r.2.client.phase = .closed ∧
        r.2.client.serverDisconnected = false ∧ Throughout Dialogue.Uninterrupted r.1)) = true := by
    decide +kernel
  obtain ⟨past, d, done, checked⟩ := execute_check _ ran
  obtain ⟨name, closed, connected, uninterrupted⟩ := of_decide_eq_true checked
  exact ⟨past, d, done, name,
    Dialogue.farewell_last (execute_trail done) uninterrupted (Or.inr closed) connected⟩

end Signaling
