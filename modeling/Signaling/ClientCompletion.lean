import Signaling.ClientExit
import Signaling.Machine.Completion

namespace Signaling
open Machine CText

/-- The server has closed the connection, and the listener has read it to its end. -/
def Listener.Drained (l : Listener) : Prop := l.queue = [] ∧ l.shut = true

/-- The listener has ended, or has a connection that the server has closed. -/
def ListenerThread.Released : ListenerThread → Prop
  | .returned => True
  | .looping l => l.Drained
  | .opening | .accepting => False

/-- `open_menu` is in `exit_user`, or at its end. -/
def MenuPhase.parting : MenuPhase → Bool
  | .loggingOut fromExit => fromExit
  | .exiting | .leaving | .returned | .exited => true
  | .reading | .signing _ => false

/-- What happens to a client whose server has closed both connections: a `recv` of the menu returns. -/
def ClientEvent.unserved : ClientEvent → Bool
  | .menu (.reply _) | .menu .recvFails => true
  | e => e.alone

namespace Menu
variable {m m' n : Menu} {e : MenuEvent} {message : Option Text}

theorem Resumed.parting (moved : m.Resumed n m') (before : m.phase.parting = true) : m'.phase.parting = true := by
  cases moved with
  | signing atPhase => simp [atPhase, MenuPhase.parting] at before
  | @loggingOut fromExit atPhase =>
    have exits : fromExit = true := by simpa [atPhase, MenuPhase.parting] using before
    subst exits
    rfl
  | leaving => rw [afterExit_phase]; rfl

/-- `exit_user` goes on to the end of `open_menu`. -/
theorem Acted.parting (acted : m.Acted e m' message) (before : m.phase.parting = true) : m'.phase.parting = true := by
  cases acted with
  | interrupted atMenu | lost atMenu | signUpLogin atMenu | call atMenu | stay atMenu | logout atMenu =>
    simp [atMenu, MenuPhase.parting] at before
  | @exit _ sent => cases sent with
    | true => rfl
    | false => rw [if_neg (by simp), afterExit_phase]; rfl
  | reply read done =>
    obtain ⟨_, _, moved⟩ := receive_resumed done
    exact moved.parting before
  | recvFails done => exact (receiveFails_resumed done).parting before
  | interrupt | gathered => exact before

end Menu

namespace ClientProcess

/-- A process that has ended. -/
def Ended (p : ClientProcess) : Prop := p.main = .returned ∨ p.main = .exited

/-- A stopped client that is about to leave, and whose server has closed its connections. -/
structure Deserted (relay : MediaRelay) (setSsrc : Bytes → Bytes) (p : ClientProcess) : Prop where
  run : ∃ past, Trail (step setSsrc) { relay := relay } past p
  stopped : Stopped p
  parting : p.menu.phase.parting = true
  released : ∀ thread ∈ p.thread, thread.Released

variable {setSsrc : Bytes → Bytes} {p p' : ClientProcess} {e : ClientEvent} {past : ClientHistory} {relay : MediaRelay}

theorem own_of_unserved (unserved : e.unserved = true) : e.own = true := by
  cases e with
  | menu f => cases f <;> first | rfl | simp [ClientEvent.unserved, ClientEvent.alone] at unserved
  | callback f => cases f <;> first | rfl | simp [ClientEvent.unserved, ClientEvent.alone] at unserved
  | raise => simp [ClientEvent.unserved, ClientEvent.alone] at unserved
  | _ => rfl

theorem unserved_of_alone (alone : e.alone = true) : e.unserved = true := by
  cases e with
  | menu f => cases f <;> first | rfl | exact alone
  | _ => exact alone

/-- A listener without a server does not wait. -/
theorem not_waits_of_released {thread : ListenerThread} (released : thread.Released) (open_ : thread ≠ .returned) :
    ¬ thread.Waits := by
  cases thread with
  | opening | accepting => exact released.elim
  | returned => exact absurd rfl open_
  | looping l =>
    obtain ⟨empty, shut⟩ := released
    rintro ⟨_, ⟨_, still⟩ | overrun⟩
    · simp [shut] at still
    · rw [empty] at overrun
      cases overrun

theorem Deserted.goes_on (deserted : p.Deserted relay setSsrc) :
    p.Ended ∨ ∃ e : ClientEvent, e.unserved = true ∧ (p.step setSsrc e).isSome = true := by
  by_cases ended : p.Ended
  · exact Or.inl ended
  · refine Or.inr ?_
    obtain ⟨past, run⟩ := deserted.run
    have goesOn : p.main ≠ .returned ∧ p.main ≠ .exited := not_or.mp ended
    simp only [step_of_act goesOn]
    have stands := stands_of_run run
    have main : p.MainWaits ∨ ∃ e : ClientEvent, e.alone = true ∧ (p.act setSsrc e).isSome = true :=
      main_goes_on stands deserted.stopped goesOn
    rcases main with (⟨here, waits⟩ | ⟨here, open_⟩) | ⟨e, alone, able⟩
    · refine ⟨.menu .recvFails, rfl, ?_⟩
      have parting := deserted.parting
      rw [act, if_pos (Or.inl here), Option.isSome_map]
      cases atPhase : p.menu.phase <;>
        simp [atPhase, MenuPhase.waits, MenuPhase.parting, Menu.step, Menu.act, Menu.receiveFails] at parting waits ⊢
    · rw [Stands, here] at stands
      obtain ⟨thread, atThread⟩ := Option.ne_none_iff_exists'.mp stands.1
      have busy := not_waits_of_released (deserted.released thread atThread) fun same => open_ (same ▸ atThread)
      have moves : thread.Waits ∨ ∃ e : ClientEvent, e.alone = true ∧ (p.act setSsrc e).isSome = true :=
        thread_goes_on atThread
      obtain ⟨e, alone, able⟩ := moves.resolve_left busy
      exact ⟨e, unserved_of_alone alone, able⟩
    · exact ⟨e, unserved_of_alone alone, able⟩

theorem drained_step {l l' : Listener} {e : ListenerEvent} (drained : l.Drained)
    (unserved : (ClientEvent.callback e).unserved = true) (moved : l.step e = some l') : l'.Drained := by
  obtain ⟨empty, shut⟩ := drained
  cases Listener.step_moved moved with
  | send | shutdown | interrupt => simp [ClientEvent.unserved, ClientEvent.alone] at unserved
  | test _ => exact ⟨empty, shut⟩
  | @recv buffer _ _ _ =>
    have rest : l.queue.drop socketBufferSize = [] := by rw [empty, List.drop_nil]
    rw [Listener.dispatch]
    split <;> exact ⟨rest, shut⟩

theorem released_withRunning {running : Bool} {thread : Option ListenerThread}
    (released : ∀ before ∈ thread, before.Released) (after : ListenerThread)
    (here : thread.map (·.withRunning running) = some after) : after.Released := by
  obtain ⟨before, atThread, rfl⟩ := Option.map_eq_some_iff.mp here
  have known := released before atThread
  cases before <;> exact known

/-- A listener that is not in its loop does not get into it. -/
theorem Deserted.thread (deserted : p.Deserted relay setSsrc) (stands : p.Stands) (unserved : e.unserved = true)
    (stepped : p.step setSsrc e = some p') (thread : ListenerThread) (after : p'.thread = some thread) :
    thread.Released := by
  obtain ⟨_, stopped, parting, released⟩ := deserted
  cases (step_moved stepped).2.2 with
  | menu | outside => exact released_withRunning released thread after
  | spawn here =>
    rw [Stands, here] at stands
    simp [stands.2.1, MenuPhase.parting] at parting
  | accepted _ running => simp [stopped.running] at running
  | listen here => exact (released _ here).elim
  | stopped here | unaccepted here => exact (released _ here).elim
  | @callback e before _ atThread _ moved =>
    cases after
    exact drained_step (released _ atThread) unserved moved
  | recvFailed | leave =>
    cases after
    trivial
  | announced | unannounced | media | raise | close | join => exact released thread after

theorem Deserted.step (deserted : p.Deserted relay setSsrc) (unserved : e.unserved = true)
    (stepped : p.step setSsrc e = some p') : p'.Deserted relay setSsrc ∧ p'.left < p.left := by
  obtain ⟨past, run⟩ := deserted.run
  have stands := stands_of_run run
  obtain ⟨stopped, less⟩ := deserted.stopped.step stands (listenerRuns_of_run run) stepped
  rw [own_of_unserved unserved, Bool.toNat_true] at less
  have parting : p'.menu.phase.parting = true := by
    have menu {f : MenuEvent} {m : Menu} (moved : p.menu.step f = some m) : m.phase.parting = true := by
      obtain ⟨⟨m', message⟩, done, same⟩ := Option.map_eq_some_iff.mp moved
      cases same
      exact (Menu.act_acted done).parting deserted.parting
    cases (step_moved stepped).2.2 with
    | menu _ moved | outside _ _ moved => exact menu moved
    | _ => exact deserted.parting
  exact ⟨⟨⟨_, run.next stepped⟩, stopped, parting, deserted.thread stands unserved stepped⟩, by omega⟩

/-- Once SIGINT has come to a client in `exit_user` or past `open_menu`, and the server has closed both connections, it
ends, whatever the order of the steps of its threads and their outcomes: there are at most eight, and where none can
be taken any more `main` has returned or the process has exited. -/
theorem client_ends (run : Trail (ClientProcess.step setSsrc) { relay := relay } past p) (stopped : Stopped p)
    (parting : p.menu.phase.parting = true) (released : ∀ thread ∈ p.thread, thread.Released) :
    Ends (ClientProcess.step setSsrc) (fun _ e => e.unserved = true) Ended p 8 := by
  have completes : Completes (ClientProcess.step setSsrc) (fun _ e => e.unserved = true) (Deserted relay setSsrc) Ended
      left :=
    ⟨fun p deserted => deserted.goes_on, fun p e p' deserted unserved stepped => deserted.step unserved stepped⟩
  exact (completes.ends ⟨⟨past, run⟩, stopped, parting, released⟩).mono (stands_of_run run).left_le

/-- bob's listener reads the greeting, and the server closes the connection. -/
def bobDrained : List ClientEvent := [.callback .send, .callback .recv, .callback .shutdown]

/-- The listener has nothing to read, and the connection is closed. -/
def drained (p : ClientProcess) : Bool :=
  match p.thread with
  | some (.looping l) => l.queue = [] && l.shut
  | _ => false

theorem released_of_drained (checked : p.drained = true) : ∀ thread ∈ p.thread, thread.Released := by
  rw [drained] at checked
  split at checked
  · rename_i l atThread
    rintro thread there
    cases Option.some.inj (atThread.symm.trans there)
    exact ⟨of_decide_eq_true (Bool.and_eq_true_iff.mp checked).1, (Bool.and_eq_true_iff.mp checked).2⟩
  · cases checked

theorem bob_ends : ∃ past p,
    execute (step MediaRelay.setSsrc42) [] bobStarts (bobStops ++ bobDrained) = some (past, p) ∧
      p.main = .inMenu ∧ Ends (step MediaRelay.setSsrc42) (fun _ e => e.unserved = true) Ended p 8 := by
  have ran : (execute (step MediaRelay.setSsrc42) [] bobStarts (bobStops ++ bobDrained)).any (fun run =>
      decide (run.2.menu.running = false ∧ run.2.main = .inMenu ∧ run.2.menu.phase.parting = true ∧
        run.2.drained = true)) = true := by
    decide +kernel
  obtain ⟨past, p, done, checked⟩ := execute_check _ ran
  obtain ⟨running, atMain, parting, closed⟩ : p.menu.running = false ∧ p.main = .inMenu ∧
      p.menu.phase.parting = true ∧ p.drained = true := of_decide_eq_true checked
  exact ⟨past, p, done, atMain, client_ends (execute_trail done) ⟨running, by simp [atMain], by simp [atMain]⟩ parting
    (released_of_drained closed)⟩

end ClientProcess

end Signaling
