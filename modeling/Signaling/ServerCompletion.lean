import Signaling.Machine.Completion
import Signaling.ServerExit

namespace Signaling
open Machine

/-- What the server process can still do when its clients have hung up: nobody connects or listens, and each `recv`
from a client returns. -/
def ServerMainEvent.abandoned : ServerMainEvent → Bool
  | .server (.thread _ (.connect ok)) => !ok
  | .server (.thread _ _) | .join | .leave => true
  | .server (.accept _) | .server .interrupt | .server (.listener _ _) => false

/-- The steps that `main` and the handlers have left. -/
def ServerMain.left (m : ServerMain) : Nat :=
  m.server.left + (m.server.threads.length - m.joined) + (!m.returned).toNat

/-- The server has been stopped and has left its accept loop, and no listener runs. -/
structure ServerMain.Deserted (m : ServerMain) : Prop where
  run : ∃ past, Trail ServerMain.step {} past m
  stopped : m.server.running = false
  left : m.server.accepting = false
  gone : ∀ j k, m.server.peer (.callback j k) ≠ .listening

section Steps
variable {past : List (ServerMain × ServerMainEvent)} {m m' : ServerMain} {e : ServerMainEvent} {i : Nat}
  {h h' : Handler} {w w' : Shared} {a : Action}

/-- A handler changes a peer only when it connects. -/
theorem Handler.Moved.peer_kept (moved : h.Moved i w a h' w') (unconnected : a ≠ .connect true) : w'.peer = w.peer := by
  cases moved with
  | greet | reply | invite | forward | exitReply | exitNotice => rw [Shared.send_eq]
  | connect => exact absurd rfl unconnected
  | accepted _ read | declined _ read => exact Shared.readReply_peer read
  | _ => rfl

/-- Where `connect` succeeds it may have failed. -/
theorem Server.fails_too {s : Server} (able : s.step (.thread i (.connect true)) ≠ none) :
    (s.step (.thread i (.connect false))).isSome = true := by
  obtain ⟨t, stepped⟩ := Option.ne_none_iff_exists'.mp able
  cases step_moved stepped with
  | thread atThread moved =>
    cases moved with
    | connect atPhase =>
      simp only [step, atThread, Option.bind_some, Handler.step, atPhase, Handler.connectToClient]
      rfl

/-- A handler that has not returned can go on when no client is left: in a `recv` it gets nothing. -/
theorem ServerMain.Deserted.handler_goes_on (deserted : m.Deserted) {serverPast : History}
    (run : ServerRun serverPast m.server) (atThread : m.server.threads[i]? = some h) (open_ : h.phase ≠ .returned) :
    ∃ a, (ServerMainEvent.server (.thread i a)).abandoned = true ∧ (m.server.step (.thread i a)).isSome = true := by
  by_cases receiving : m.server.Receiving h
  · rcases receiving with looping | ⟨fd, number, waiting, foreign | ⟨j, k, _, listening, _⟩⟩
    · refine ⟨.recv [], rfl, ?_⟩
      simp [Server.step, atThread, Handler.step, looping, Handler.receive]
    · have nothing : m.server.readReply fd [] = some (⟨[], none⟩, m.server.toShared) := by
        rcases foreign with there | ⟨j, there⟩ <;> simp [Shared.readReply, there]
      have refused : (received []).bind acceptTest = some false := by decide
      refine ⟨.answer [], rfl, Option.isSome_iff_ne_none.mpr ((Server.step_none_iff atThread).not.mpr ?_)⟩
      simp only [Handler.step, waiting, nothing, Option.bind_some, refused, Option.map_some]
      exact Option.some_ne_none _
    · exact absurd listening (deserted.gone j k)
  · obtain ⟨a, _, able⟩ := Server.able_of_awake (i := i) run open_ receiving
    have steps := (Server.step_none_iff atThread).not.mpr (Option.isSome_iff_ne_none.mp able)
    by_cases connects : a = .connect true
    · subst connects
      exact ⟨.connect false, rfl, Server.fails_too steps⟩
    · refine ⟨a, ?_, Option.isSome_iff_ne_none.mpr steps⟩
      cases a with
      | connect ok =>
        cases ok with
        | true => exact absurd rfl connects
        | false => rfl
      | _ => rfl

theorem ServerMain.isSome_server {e : Event} (goesOn : m.returned = false) (able : (m.server.step e).isSome = true) :
    (m.step (.server e)).isSome = true := by
  rw [Option.isSome_iff_ne_none, ne_eq, ServerMain.step_server goesOn]
  exact Option.isSome_iff_ne_none.mp able

theorem ServerMain.Deserted.goes_on (deserted : m.Deserted) :
    m.returned = true ∨ ∃ e : ServerMainEvent, e.abandoned = true ∧ (m.step e).isSome = true := by
  cases goesOn : m.returned with
  | true => exact Or.inl rfl
  | false =>
    refine Or.inr ?_
    obtain ⟨past, run⟩ := deserted.run
    obtain ⟨serverPast, serverRun⟩ := (joining_of_run run).before goesOn
    by_cases waits : m.Waits
    · rcases waits with accepting | ⟨h, atThread, open_⟩
      · exact absurd accepting (by simp [deserted.left])
      · obtain ⟨a, abandoned, able⟩ := deserted.handler_goes_on serverRun atThread open_
        exact ⟨.server (.thread m.joined a), abandoned, isSome_server goesOn able⟩
    · have able := mt (ServerMain.stuck_iff goesOn).mp waits
      rw [not_and_or] at able
      rcases able with able | able
      · exact ⟨.join, rfl, Option.isSome_iff_ne_none.mpr able⟩
      · exact ⟨.leave, rfl, Option.isSome_iff_ne_none.mpr able⟩

theorem Server.peer_abandoned {s t : Server} {e : Event} (abandoned : (ServerMainEvent.server e).abandoned = true)
    (stepped : s.step e = some t) : t.peer = s.peer := by
  cases step_moved stepped with
  | accept | acceptLate | acceptFails | interrupt => rfl
  | thread _ moved => exact moved.peer_kept fun connects => by simp [connects, ServerMainEvent.abandoned] at abandoned
  | listener _ => simp [ServerMainEvent.abandoned] at abandoned

theorem ServerMainEvent.own_of_abandoned {e : Event} (abandoned : (ServerMainEvent.server e).abandoned = true) :
    e.own = true := by
  cases e with
  | accept | thread => rfl
  | interrupt | listener => simp [ServerMainEvent.abandoned] at abandoned

theorem ServerMain.Deserted.step (deserted : m.Deserted) (abandoned : e.abandoned = true) (stepped : m.step e = some m') :
    m'.Deserted ∧ m'.left < m.left := by
  obtain ⟨⟨past, run⟩, stopped, left, gone⟩ := deserted
  have reached : ∃ past, Trail ServerMain.step {} past m' := ⟨_, run.next stepped⟩
  cases e with
  | server e =>
    rw [ServerMain.step] at stepped
    split_ifs at stepped with returned
    obtain ⟨t, moved, same⟩ := Option.map_eq_some_iff.mp stepped
    cases same
    obtain ⟨still, _, sessions⟩ := Server.step_stopped stopped moved
    have less := Server.left_le stopped moved
    rw [ServerMainEvent.own_of_abandoned abandoned, Bool.toNat_true] at less
    refine ⟨⟨reached, still, (Server.accepting_kept moved left).1, ?_⟩, ?_⟩
    · rw [Server.peer_abandoned abandoned moved]
      exact gone
    · simp only [ServerMain.left, sessions]
      omega
  | join =>
    rw [ServerMain.step] at stepped
    split_ifs at stepped with other
    obtain ⟨h, atThread, joined⟩ := Option.bind_eq_some_iff.mp stepped
    split_ifs at joined with returned
    cases Option.some.inj joined
    have inside := (List.getElem?_eq_some_iff.mp atThread).1
    refine ⟨⟨reached, stopped, left, gone⟩, ?_⟩
    simp only [ServerMain.left]
    omega
  | leave =>
    rw [ServerMain.step] at stepped
    split_ifs at stepped with other
    cases Option.some.inj stepped
    simp only [Bool.or_eq_true, not_or, Bool.not_eq_true] at other
    refine ⟨⟨reached, stopped, left, gone⟩, ?_⟩
    simp only [ServerMain.left, other.1.2, Server.left, Bool.not_true, Bool.not_false, Bool.toNat_false,
      Bool.toNat_true]
    omega

theorem ServerMain.Deserted.left_le (deserted : m.Deserted) : m.left ≤ 9 * m.server.threads.length + 1 := by
  have each := sum_le (fun h : Handler => h.phase.left) m.server.threads fun h _ => h.phase.left_le
  have one := Bool.toNat_le (!m.returned)
  rw [ServerMain.left, Server.left, deserted.left, Bool.toNat_false]
  omega

/-- After SIGINT, when `main` has left the accept loop, no listener runs and every client has hung up, `main` of the
server returns, whatever the order of the steps and their outcomes: there are at most nine for each session and one
more, and where nothing can be done any more it has returned. -/
theorem shutdown_ends (run : Trail ServerMain.step {} past m) (stopped : m.server.running = false)
    (left : m.server.accepting = false) (gone : ∀ j k, m.server.peer (.callback j k) ≠ .listening) :
    Ends ServerMain.step (fun _ e => e.abandoned = true) (fun m => m.returned = true) m
      (9 * m.server.threads.length + 1) := by
  have completes : Completes ServerMain.step (fun _ e => e.abandoned = true) ServerMain.Deserted
      (fun m => m.returned = true) ServerMain.left :=
    ⟨fun m deserted => deserted.goes_on, fun m e m' deserted abandoned stepped => deserted.step abandoned stepped⟩
  have deserted : m.Deserted := ⟨⟨past, run⟩, stopped, left, gone⟩
  exact (completes.ends deserted).mono deserted.left_le

end Steps

/-- A client announces its listener, another one only connects. The first one hangs up with its listener, then SIGINT
comes and `accept` returns. -/
def abandonedRun : List ServerMainEvent :=
  (Event.accept true :: Event.accept true :: (session 0 (connects ++ [Action.recv []]) ++
    [Event.listener (.callback 0 0) .quit, Event.interrupt, Event.accept false])).map .server

theorem abandoned_ends : ∃ past m, execute ServerMain.step [] {} abandonedRun = some (past, m) ∧
    m.server.threads.map Handler.phase = [.closing, .loop] ∧
      Ends ServerMain.step (fun _ e => e.abandoned = true) (fun m => m.returned = true) m
        (9 * m.server.threads.length + 1) := by
  have ran : (execute ServerMain.step [] {} abandonedRun).any (fun r =>
      decide (r.2.server.threads.map Handler.phase = [.closing, .loop] ∧ r.2.server.running = false ∧
        r.2.server.accepting = false ∧ r.2.returned = false ∧ r.2.server.threads.map Handler.sockets = [1, 0] ∧
          r.2.server.peer (.callback 0 0) = .gone)) = true := by
    decide +kernel
  obtain ⟨past, m, done, checked⟩ := execute_check _ ran
  obtain ⟨phases, stopped, left, goesOn, sockets, gone⟩ := of_decide_eq_true checked
  have run := execute_trail done
  refine ⟨past, m, done, phases, shutdown_ends run stopped left fun j k => ?_⟩
  by_cases first : j = 0 ∧ k = 0
  · obtain ⟨rfl, rfl⟩ := first
    have closed : m.server.peer (.callback 0 0) = .gone := gone
    simp [closed]
  · obtain ⟨serverPast, serverRun⟩ := (joining_of_run run).before goesOn
    have fresh (h : Handler) (atThread : m.server.threads[j]? = some h) : h.sockets ≤ k := by
      have given : (m.server.threads.map Handler.sockets)[j]? = some h.sockets := by
        rw [List.getElem?_map, atThread, Option.map_some]
      rw [sockets] at given
      rcases j with _ | _ | j
      · simp at given
        omega
      · simp at given
        omega
      · simp at given
    rw [((wired_of_run serverRun).fresh j k fresh).1]
    decide

end Signaling
