import Signaling.Farewell
import Signaling.Machine.Ledger

namespace Signaling
open Machine CText

/-- SIGINT and the callbacks of the library come at any time. -/
def MenuEvent.outside : MenuEvent → Bool
  | .interrupt | .gathered _ => true
  | _ => false

/-- A bound on the steps of `open_menu` after SIGINT. -/
def MenuPhase.left : MenuPhase → Nat
  | .loggingOut true => 3
  | .signing _ | .loggingOut false | .exiting => 2
  | .reading | .leaving => 1
  | .returned | .exited => 0

/-- `exit_user` is there, and its EXIT is still to be sent. -/
def MenuPhase.beforeExit : MenuPhase → Bool
  | .loggingOut true | .exiting => true
  | _ => false

namespace Menu
variable {m m' n : Menu} {e : MenuEvent} {message : Option Text}

theorem afterSwitch_stopped {exit : Bool} (stopped : m.running = false) : (m.afterSwitch exit).running = false := by
  rw [afterSwitch]
  split_ifs
  · exact stopped
  · rfl
  · exact stopped

theorem afterLogout_stopped {fromExit : Bool} (stopped : m.running = false) :
    (m.afterLogout fromExit).running = false := by
  rw [afterLogout]
  split_ifs
  · exact stopped
  · exact afterSwitch_stopped stopped

theorem left_afterSwitch :
    (m.afterSwitch false).phase.left ≤ 1 ∧ (m.afterSwitch false).phase.beforeExit = false := by
  rw [afterSwitch]
  cases m.serverDisconnected with
  | true => exact ⟨Nat.zero_le 1, rfl⟩
  | false => exact ⟨Nat.le_refl 1, rfl⟩

theorem left_afterExit : (m.afterSwitch true).phase.left = 0 ∧ (m.afterSwitch true).phase.beforeExit = false := by
  rw [afterExit_phase]
  decide

theorem receive_stopped {buffer : Text} (stopped : m.running = false) (done : m.receive buffer = some m') :
    m'.running = false := by
  unfold receive at done
  dsimp only at done
  split at done
  · cases Option.some.inj done
    exact afterSwitch_stopped stopped
  · cases Option.some.inj done
    exact afterLogout_stopped stopped
  · cases Option.some.inj done
    exact afterSwitch_stopped stopped
  · simp at done

theorem Resumed.stopped (moved : m.Resumed m m') (stopped : m.running = false) : m'.running = false := by
  cases moved with
  | signing _ => exact afterSwitch_stopped stopped
  | loggingOut _ => exact afterLogout_stopped stopped
  | leaving _ => exact afterSwitch_stopped stopped

theorem Resumed.left_lt (moved : m.Resumed n m') : m'.phase.left < m.phase.left ∧
    m'.phase.beforeExit.toNat ≤ m.phase.beforeExit.toNat := by
  cases moved with
  | signing atPhase =>
    rw [atPhase]
    exact ⟨Nat.lt_succ_of_le left_afterSwitch.1, (congrArg Bool.toNat left_afterSwitch.2).le⟩
  | @loggingOut fromExit atPhase =>
    rw [atPhase, afterLogout]
    cases fromExit with
    | true => exact ⟨Nat.lt_succ_self 2, Nat.le_refl 1⟩
    | false => exact ⟨Nat.lt_succ_of_le left_afterSwitch.1, (congrArg Bool.toNat left_afterSwitch.2).le⟩
  | leaving atPhase =>
    rw [atPhase]
    exact ⟨(Nat.le_of_eq left_afterExit.1).trans_lt Nat.one_pos, (congrArg Bool.toNat left_afterExit.2).le⟩

/-- After SIGINT, each step of `open_menu` is one towards its end, and only `exit_user` still sends something. -/
theorem Acted.stopped (acted : m.Acted e m' message) (stopped : m.running = false) :
    m'.running = false ∧ (!e.outside).toNat + m'.phase.left ≤ m.phase.left ∧
      message.toList.length + m'.phase.beforeExit.toNat ≤ m.phase.beforeExit.toNat ∧
      ∀ frame ∈ message.toList, frame = exitFrame := by
  cases acted with
  | interrupted atMenu _ =>
    rw [atMenu]
    cases m.exitSelected with
    | true => exact ⟨stopped, Nat.le_refl 1, Nat.le_refl 0, by simp⟩
    | false => exact ⟨stopped, Nat.le_refl 1, Nat.le_refl 0, by simp⟩
  | lost atMenu _ =>
    rw [atMenu]
    exact ⟨stopped, Nat.le_refl 1, Nat.le_refl 0, by simp⟩
  | signUpLogin _ running _ => simp [stopped] at running
  | call _ running _ => simp [stopped] at running
  | stay _ running _ => simp [stopped] at running
  | logout _ running _ _ => simp [stopped] at running
  | @exit e sent request way sentExit =>
    rcases way with ⟨_, running, _⟩ | ⟨atPhase, rfl⟩
    · simp [stopped] at running
    · rw [atPhase]
      cases sent with
      | true => exact ⟨stopped, Nat.le_refl 2, Nat.le_refl 1, by simp [copied_exit sentExit]⟩
      | false =>
        obtain ⟨none, ended⟩ := @left_afterExit m
        refine ⟨afterSwitch_stopped stopped, ?_, ?_, by simp⟩
        · show 1 + (m.afterSwitch true).phase.left ≤ 2
          omega
        · show 0 + (m.afterSwitch true).phase.beforeExit.toNat ≤ 1
          rw [ended]
          decide
  | reply read done =>
    obtain ⟨n, _, moved⟩ := receive_resumed done
    obtain ⟨less, before⟩ := moved.left_lt
    refine ⟨receive_stopped stopped done, (Nat.add_comm 1 _).trans_le less, ?_, by simp⟩
    exact (Nat.zero_add _).trans_le before
  | recvFails done =>
    have moved := receiveFails_resumed done
    obtain ⟨less, before⟩ := moved.left_lt
    refine ⟨moved.stopped stopped, (Nat.add_comm 1 _).trans_le less, ?_, by simp⟩
    exact (Nat.zero_add _).trans_le before
  | interrupt => exact ⟨rfl, (Nat.zero_add _).le, (Nat.zero_add _).le, by simp⟩
  | gathered => exact ⟨stopped, (Nat.zero_add _).le, (Nat.zero_add _).le, by simp⟩

theorem step_stopped (stepped : m.step e = some m') (stopped : m.running = false) : m'.running = false := by
  obtain ⟨⟨m'', message⟩, done, same⟩ := Option.map_eq_some_iff.mp stepped
  cases same
  exact ((act_acted done).stopped stopped).1

end Menu

end Signaling
