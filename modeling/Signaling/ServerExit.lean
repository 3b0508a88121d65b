import Signaling.CallbackQueues
import Signaling.Shutdown

namespace Signaling
open Machine CText

/-- The socket that the step closes, whoever's it is. -/
def Server.closes (s : Server) : Event → Option Endpoint
  | .thread i .close => (s.threads[i]?).bind fun h => Slots.lookup s.descriptors h.clientSocket
  | .thread i .finish => (s.threads[i]?).bind fun h =>
    if h.clientSocketFd = -1 then none else Slots.lookup s.descriptors h.clientSocket
  | _ => none

/-- `server_socket` of `main`. -/
def serverSocket : Nat := 3

/-- `main` of `server.cpp` from the accept loop on, with the number of threads it has joined. -/
structure ServerMain where
  server : Server := {}
  joined : Nat := 0
  returned : Bool := false

inductive ServerMainEvent
  | server (e : Event)
  | join
  | leave
  deriving DecidableEq, Repr

/-- `join` returns when its thread has; after the last one `main` closes `server_socket` and returns. -/
def ServerMain.step (m : ServerMain) : ServerMainEvent → Option ServerMain
  | .server e => if m.returned then none else (m.server.step e).map fun s => { m with server := s }
  | .join =>
    if m.server.accepting || m.returned then none
    else (m.server.threads[m.joined]?).bind fun h =>
      if h.phase = .returned then some { m with joined := m.joined + 1 } else none
  | .leave =>
    if m.server.accepting || m.returned || decide (m.joined < m.server.threads.length) then none
    else some { m with server := { m.server with toShared := m.server.toShared.close serverSocket }, returned := true }

/-- The numbers that were open before the first `accept` are not those of command sockets. -/
structure Reserved (s : Server) : Prop where
  listening : Slots.lookup s.descriptors serverSocket = some .listening
  only : ∀ n, Slots.lookup s.descriptors n = some .listening → n = serverSocket
  apart : ∀ (i : Nat) (h : Handler), s.threads[i]? = some h → h.clientSocket ≠ serverSocket

/-- A command socket is open until its handler closes it. -/
def Server.CommandsOpen (s : Server) : Prop :=
  ∀ n i, Slots.lookup s.descriptors n = some (.client i) →
    ∃ h, s.threads[i]? = some h ∧ h.ended = false ∧ n = h.clientSocket

theorem Handler.Moved.opens {i : Nat} {h h' : Handler} {w w' : Shared} {a : Action} (moved : h.Moved i w a h' w') :
    h'.sockets = h.sockets ∨ h'.sockets = h.sockets + 1 ∧
      w'.descriptors = Slots.occupy w.descriptors (.callback i h.sockets) := by
  cases moved with
  | socket => exact Or.inr ⟨rfl, rfl⟩
  | _ => exact Or.inl rfl

section Steps
variable {s t : Server} {past : History} {e : Event} {i n : Nat} {h : Handler} {x : Endpoint}

theorem Server.entry_kept (stepped : s.step e = some t) (found : Slots.lookup s.descriptors n = some x) :
    Slots.lookup t.descriptors n = some x ∨ s.closes e = some x := by
  have occupied (y : Endpoint) : Slots.lookup (Slots.occupy s.descriptors y) n = some x := by
    rw [Slots.lookup_occupy, if_neg (Slots.ne_lowestFree found), found]
  have released (m : Nat) : Slots.lookup (Slots.release s.descriptors m) n = some x ∨
      Slots.lookup s.descriptors m = some x := by
    rw [Slots.lookup_release]
    split_ifs with same
    · exact Or.inr (same ▸ found)
    · exact Or.inl found
  cases step_moved stepped with
  | accept | acceptLate => exact Or.inl (occupied _)
  | acceptFails | interrupt => exact Or.inl found
  | listener moved => exact Or.inl (by rw [Shared.listen_descriptors moved]; exact found)
  | @thread i a h h' w' atThread moved =>
    cases quiet : a.changesTable with
    | false => exact Or.inl (by rw [moved.descriptors_eq quiet]; exact found)
    | true =>
      cases moved with
      | socket => exact Or.inl (occupied _)
      | close => exact (released _).imp_right fun hit => by simp [closes, atThread, hit]
      | finish => exact Or.inl found
      | closeAgain _ set => exact (released _).imp_right fun hit => by simp [closes, atThread, set, hit]
      | _ => simp [Action.changesTable] at quiet

/-- Every callback socket that a handler was given is open, unless a step has closed it. -/
theorem callback_kept (run : ServerRun past s) {k : Nat} (atThread : s.threads[i]? = some h) (given : k < h.sockets) :
    (∃ n, Slots.lookup s.descriptors n = some (.callback i k)) ∨
      ∃ taken ∈ past, taken.1.closes taken.2 = some (.callback i k) := by
  induction run generalizing h with
  | start => simp [Server.initial] at atThread
  | @next past s e t previous stepped ih =>
    have still (before : (∃ n, Slots.lookup s.descriptors n = some (.callback i k)) ∨
        ∃ taken ∈ past, taken.1.closes taken.2 = some (.callback i k)) :
        (∃ n, Slots.lookup t.descriptors n = some (.callback i k)) ∨
          ∃ taken ∈ (s, e) :: past, taken.1.closes taken.2 = some (.callback i k) := by
      rcases before with ⟨n, found⟩ | ⟨taken, member, hit⟩
      · rcases Server.entry_kept stepped found with after | closed
        · exact Or.inl ⟨n, after⟩
        · exact Or.inr ⟨(s, e), List.mem_cons_self, closed⟩
      · exact Or.inr ⟨taken, List.mem_cons_of_mem _ member, hit⟩
    rcases Server.thread_origin stepped atThread with ⟨before, _⟩ | ⟨a, g, rfl, before, moved⟩ | ⟨_, _, rfl⟩
    · exact still (ih before given)
    · by_cases old : k < g.sockets
      · exact still (ih before old)
      · rcases moved.opens with same | ⟨one, table⟩
        · exact absurd (same ▸ given) old
        · have new : k = g.sockets := by omega
          subst new
          exact Or.inl ⟨Slots.lowestFree s.descriptors, by rw [table, Slots.lookup_occupy, if_pos rfl]⟩
    · simp at given

theorem commandsOpen_step (open_ : s.CommandsOpen) (stepped : s.step e = some t) : t.CommandsOpen := by
  intro n i found
  cases Server.step_moved stepped with
  | accept =>
    dsimp only [Shared.allocate] at found ⊢
    rw [Slots.lookup_occupy] at found
    split_ifs at found with free
    · cases Option.some.inj found
      exact ⟨_, List.getElem?_concat_length, rfl, free⟩
    · obtain ⟨h, atThread, more⟩ := open_ n i found
      exact ⟨h, (List.getElem?_append_left (List.getElem?_eq_some_iff.mp atThread).1).trans atThread, more⟩
  | acceptLate => exact open_ n i ((Slots.lookup_occupy_iff (by simp) n).mp found)
  | acceptFails | interrupt => exact open_ n i found
  | listener moved => exact open_ n i (by rw [← Shared.listen_descriptors moved]; exact found)
  | @thread j a h h' w' atThread moved =>
    have passed (before : Slots.lookup s.descriptors n = some (.client i))
        (own : i = j → h.ended = false → n = h.clientSocket → h'.ended = false ∧ n = h'.clientSocket) :
        ∃ g, (s.threads.set j h')[i]? = some g ∧ g.ended = false ∧ n = g.clientSocket := by
      obtain ⟨g, atIndex, live, number⟩ := open_ n i before
      rw [threads_set atThread]
      split_ifs with same
      · subst same
        cases Option.some.inj (atThread.symm.trans atIndex)
        exact ⟨h', rfl, own rfl live number⟩
      · exact ⟨g, atIndex, live, number⟩
    cases quiet : a.changesTable with
    | false =>
      obtain ⟨socket, _, ended, _⟩ := moved.sockets_kept quiet
      refine passed (by rw [← moved.descriptors_eq quiet]; exact found) fun _ live number => ?_
      exact ⟨ended.trans live, number.trans socket.symm⟩
    | true =>
      cases moved with
      | socket atPhase =>
        exact passed ((Slots.lookup_occupy_iff (by simp) n).mp found) fun _ _ number => ⟨rfl, number⟩
      | close atPhase =>
        dsimp only [Shared.close] at found
        rw [Slots.lookup_release] at found
        split_ifs at found with other
        exact passed found fun _ _ number => absurd number other
      | finish atPhase => exact passed found fun _ live _ => by simp [Handler.ended, atPhase] at live
      | closeAgain atPhase =>
        dsimp only [Shared.close] at found
        rw [Slots.lookup_release] at found
        split_ifs at found with other
        exact passed found fun _ live _ => by simp [Handler.ended, atPhase] at live
      | _ => simp [Action.changesTable] at quiet

theorem commandsOpen_of_run (run : ServerRun past s) : s.CommandsOpen := by
  refine run.invariant (fun _ s => s.CommandsOpen) ?_ fun _ _ _ _ _ open_ stepped => commandsOpen_step open_ stepped
  intro n i found
  rcases n with _ | _ | _ | _ | n <;> simp [Server.initial, Slots.lookup] at found

theorem Handler.Moved.clientSocket_eq {h' : Handler} {w w' : Shared} {a : Action} (moved : h.Moved i w a h' w') :
    h'.clientSocket = h.clientSocket := by
  cases moved <;> rfl

theorem reserved_initial : Reserved Server.initial where
  listening := rfl
  only n found := by
    rcases n with _ | _ | _ | _ | n <;> simp [Server.initial, Slots.lookup] at found
    rfl
  apart i h atThread := by simp [Server.initial] at atThread

/-- No handler closes `server_socket`. -/
theorem Reserved.step (reserved : Reserved s) (stepped : s.step e = some t) : Reserved t where
  listening := by
    rcases Server.entry_kept stepped reserved.listening with kept | closed
    · exact kept
    · cases Server.step_moved stepped with
      | accept | acceptLate | acceptFails | interrupt | listener => simp [Server.closes] at closed
      | @thread i a h h' w' atThread moved =>
        have other := reserved.apart i h atThread
        cases moved with
        | close => exact absurd (reserved.only _ (by simpa [Server.closes, atThread] using closed)) other
        | closeAgain _ set => exact absurd (reserved.only _ (by simpa [Server.closes, atThread, set] using closed)) other
        | finish _ unset => simp [Server.closes, atThread, unset] at closed
        | _ => simp [Server.closes] at closed
  only n found := by
    cases Server.step_table stepped with
    | kept earlier => exact reserved.only n (earlier n _ found)
    | accepted plain table =>
      rw [table, Slots.lookup_occupy_iff (by rintro rfl; simp [Endpoint.accepted] at plain)] at found
      exact reserved.only n found
    | opened _ _ _ table =>
      rw [table, Slots.lookup_occupy_iff (by simp)] at found
      exact reserved.only n found
  apart i h atThread := by
    rcases Server.thread_origin stepped atThread with ⟨before, _⟩ | ⟨a, g, rfl, before, moved⟩ | ⟨_, _, rfl⟩
    · exact reserved.apart i h before
    · rw [moved.clientSocket_eq]
      exact reserved.apart i g before
    · exact (Slots.ne_lowestFree reserved.listening).symm

theorem reserved_of_run (run : ServerRun past s) : Reserved s :=
  run.invariant (fun _ s => Reserved s) reserved_initial fun _ _ _ _ _ reserved stepped => reserved.step stepped

/-- A thread that has returned stays so, and the accept loop is not entered again. -/
theorem Server.returned_kept (stepped : s.step e = some t) (atThread : s.threads[i]? = some h)
    (returned : h.phase = .returned) : t.threads[i]? = some h := by
  refine thread_kept stepped atThread ?_
  rintro a rfl
  cases step_moved stepped with
  | thread here moved =>
    cases Option.some.inj (atThread.symm.trans here)
    cases moved <;> simp_all

theorem Server.accepting_kept (stepped : s.step e = some t) (left : s.accepting = false) :
    t.accepting = false ∧ t.threads.length = s.threads.length := by
  cases step_moved stepped with
  | accept _ accepting => simp [left] at accepting
  | acceptLate | acceptFails => exact ⟨rfl, rfl⟩
  | interrupt | listener => exact ⟨left, rfl⟩
  | thread => exact ⟨left, List.length_set⟩

end Steps

/-- What `main` knows after its joins. -/
structure Joining (m : ServerMain) : Prop where
  before : m.returned = false → ∃ past, ServerRun past m.server
  waits : 0 < m.joined → m.server.accepting = false
  joined : ∀ (i : Nat) (h : Handler), i < m.joined → m.server.threads[i]? = some h → h.phase = .returned
  after : m.returned = true → ∃ past s, ServerRun past s ∧ s.accepting = false ∧
    (∀ h ∈ s.threads, h.phase = .returned) ∧
      m.server = { s with toShared := s.toShared.close serverSocket }

section Main
variable {past : List (ServerMain × ServerMainEvent)} {m m' : ServerMain} {e : ServerMainEvent}

theorem Joining.step (joining : Joining m) (stepped : m.step e = some m') : Joining m' := by
  cases e with
  | server e =>
    rw [ServerMain.step] at stepped
    split_ifs at stepped with returned
    obtain ⟨s, moved, same⟩ := Option.map_eq_some_iff.mp stepped
    cases same
    obtain ⟨past, run⟩ := joining.before (by simpa using returned)
    refine ⟨fun _ => ⟨_, run.next moved⟩, fun some => (Server.accepting_kept moved (joining.waits some)).1, ?_,
      fun done => absurd done returned⟩
    intro i h inside atThread
    have length := (Server.accepting_kept moved (joining.waits (Nat.zero_lt_of_lt inside))).2
    have there : i < m.server.threads.length := length ▸ (List.getElem?_eq_some_iff.mp atThread).1
    have earlier : m.server.threads[i]? = some m.server.threads[i] := List.getElem?_eq_getElem there
    have returned := joining.joined i _ inside earlier
    rw [Server.returned_kept moved earlier returned] at atThread
    cases Option.some.inj atThread
    exact returned
  | join =>
    rw [ServerMain.step] at stepped
    split_ifs at stepped with other
    obtain ⟨h, atThread, moved⟩ := Option.bind_eq_some_iff.mp stepped
    split_ifs at moved with returned
    cases Option.some.inj moved
    simp only [Bool.or_eq_true, not_or, Bool.not_eq_true] at other
    refine ⟨joining.before, fun _ => other.1, ?_, joining.after⟩
    intro i g inside there
    by_cases last : i = m.joined
    · subst last
      cases Option.some.inj (atThread.symm.trans there)
      exact returned
    · exact joining.joined i g (by simp only at inside; omega) there
  | leave =>
    rw [ServerMain.step] at stepped
    split_ifs at stepped with other
    cases Option.some.inj stepped
    simp only [Bool.or_eq_true, decide_eq_true_eq, not_or, Bool.not_eq_true] at other
    obtain ⟨past, run⟩ := joining.before other.1.2
    refine ⟨by simp, joining.waits, joining.joined, fun _ => ⟨past, m.server, run, other.1.1, ?_, rfl⟩⟩
    intro h member
    obtain ⟨i, inside, rfl⟩ := List.mem_iff_getElem.mp member
    exact joining.joined i _ (by omega) (List.getElem?_eq_getElem inside)

theorem joining_of_run (run : Trail ServerMain.step {} past m) : Joining m := by
  refine run.invariant (fun _ m => Joining m) ?_ fun _ _ _ _ _ joining stepped => joining.step stepped
  exact ⟨fun _ => ⟨[], .start⟩, by simp, by simp, by simp⟩

/-- When `main` returns every handler has returned. What is open then is what the process was given, a
connection accepted after SIGINT, and callback sockets. -/
theorem main_returned (run : Trail ServerMain.step {} past m) (returned : m.returned = true) :
    (∀ h ∈ m.server.threads, h.phase = .returned) ∧
      ∀ n x, Slots.lookup m.server.descriptors n = some x →
        x = .standard ∨ x = .unserved ∨ ∃ i k, x = .callback i k := by
  obtain ⟨serverPast, s, serverRun, _, all, same⟩ := (joining_of_run run).after returned
  rw [same]
  refine ⟨all, fun n x found => ?_⟩
  dsimp only [Shared.close] at found
  rw [Slots.lookup_release] at found
  split_ifs at found with other
  cases x with
  | standard => exact Or.inl rfl
  | listening => exact absurd ((reserved_of_run serverRun).only n found) other
  | client i =>
    obtain ⟨h, atThread, live, _⟩ := commandsOpen_of_run serverRun n i found
    simp [Handler.ended, all h (List.mem_of_getElem? atThread)] at live
  | callback i k => exact Or.inr (Or.inr ⟨i, k, rfl⟩)
  | unserved => exact Or.inr (Or.inl rfl)

/-- `main` waits in `accept`, or in the `join` of a thread that has not returned. -/
def ServerMain.Waits (m : ServerMain) : Prop :=
  m.server.accepting = true ∨ ∃ h, m.server.threads[m.joined]? = some h ∧ h.phase ≠ .returned

theorem ServerMain.step_server {e : Event} (goesOn : m.returned = false) :
    m.step (.server e) = none ↔ m.server.step e = none := by
  rw [ServerMain.step, goesOn, if_neg (by simp), Option.map_eq_none_iff]

theorem ServerMain.stuck_iff (goesOn : m.returned = false) :
    m.step .join = none ∧ m.step .leave = none ↔ m.Waits := by
  rw [ServerMain.step, ServerMain.step, goesOn, Bool.or_false]
  cases accepting : m.server.accepting with
  | true => exact ⟨fun _ => Or.inl accepting, fun _ => by simp⟩
  | false =>
    by_cases inside : m.joined < m.server.threads.length
    · simp [Waits, accepting, inside]
    · simp [Waits, accepting, inside]

end Main

/-- A client that announces its listener and hangs up. -/
def announcedRun : List Event := .accept true :: session 0 (connects ++ [.recv [], .close, .finish])

theorem callback_of_returned_handler : ∃ past s h,
    execute Server.step [] Server.initial announcedRun = some (past, s) ∧ s.threads[0]? = some h ∧
      h.phase = .returned ∧ ((∃ n, Slots.lookup s.descriptors n = some (.callback 0 0)) ∨
        ∃ taken ∈ past, taken.1.closes taken.2 = some (.callback 0 0)) := by
  have ran : (execute Server.step [] Server.initial announcedRun).any (fun r =>
      (r.2.threads[0]?).any fun h => decide (h.phase = .returned ∧ 0 < h.sockets)) = true := by
    decide +kernel
  obtain ⟨past, s, done, checked⟩ := execute_check _ ran
  obtain ⟨h, atThread, facts⟩ := (Option.any_eq_true _ _).mp checked
  obtain ⟨returned, given⟩ := of_decide_eq_true facts
  exact ⟨past, s, h, done, atThread, returned, callback_kept (execute_trail done) atThread given⟩

/-- After that client the server is stopped. -/
def stoppedRun : List ServerMainEvent :=
  announcedRun.map .server ++ [.server .interrupt, .server (.accept false), .join, .leave]

theorem stopped_main_returned : ∃ past m, execute ServerMain.step [] {} stoppedRun = some (past, m) ∧
    m.server.threads.length = 1 ∧ (∀ h ∈ m.server.threads, h.phase = .returned) ∧
      ∀ n x, Slots.lookup m.server.descriptors n = some x →
        x = .standard ∨ x = .unserved ∨ ∃ i k, x = .callback i k := by
  have ran : (execute ServerMain.step [] {} stoppedRun).any (fun r =>
      decide (r.2.server.threads.length = 1 ∧ r.2.returned = true)) = true := by
    decide +kernel
  obtain ⟨past, m, done, checked⟩ := execute_check _ ran
  obtain ⟨one, returned⟩ := of_decide_eq_true checked
  exact ⟨past, m, done, one, main_returned (execute_trail done) returned⟩

end Signaling
