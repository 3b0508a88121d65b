import Signaling.ServerSteps
import Signaling.StoreCalls

namespace Signaling
open Machine CText

/-- The descriptor number was returned to session `i`, by `accept` or by `socket`, and has not been
closed since. -/
def Server.owns (s : Server) (i n : Nat) : Prop :=
  (Slots.lookup s.descriptors n).bind Endpoint.session = some i

/-- The last step, if it closed a descriptor, closed one of its own session's; and if it was the end
of a handler, left that handler without open descriptors. -/
def ClosesOwn : History → Server → Prop
  | (r, .thread i .close) :: _, _ => ∀ h ∈ r.threads[i]?, r.owns i h.clientSocket
  | (r, .thread i .finish) :: _, s =>
    (∀ h ∈ r.threads[i]?, h.clientSocketFd ≠ -1 → r.owns i h.clientSocket) ∧ ∀ n, ¬s.owns i n
  | _, _ => True

/-- Not the end of a handler for which `socket()` ever succeeded. -/
def NeverConnected (_ : History) (s : Server) : Event → Prop
  | .thread i .finish => ∀ h ∈ s.threads[i]?, h.sockets = 0
  | _ => True

instance (past : History) (s : Server) (e : Event) : Decidable (NeverConnected past s e) := by
  unfold NeverConnected
  cases_type* Event Action <;> infer_instance

/-- The handler has closed its command socket. -/
def Handler.ended (h : Handler) : Bool :=
  match h.phase with
  | .closed | .returned => true
  | _ => false

/-- The entries of a session in the descriptor table: its command socket until it closes that, and
every callback socket it was given. -/
structure Owned (table : List (Option Endpoint)) (i : Nat) (h : Handler) : Prop where
  command : ∀ n, Slots.lookup table n = some (.client i) ↔ h.ended = false ∧ n = h.clientSocket
  callbacks : ∀ k, (∃ n, Slots.lookup table n = some (.callback i k)) ↔ k < h.sockets
  apart : ∀ k, Slots.lookup table h.clientSocket ≠ some (.callback i k)
  unset : h.sockets = 0 → h.clientSocketFd = -1

structure Ownership (s : Server) : Prop where
  owned : ∀ i h, s.threads[i]? = some h → Owned s.descriptors i h
  existing : ∀ n e i, Slots.lookup s.descriptors n = some e → e.session = some i → i < s.threads.length

section Entries
variable {table table' : List (Option Endpoint)} {i : Nat} {h h' : Handler}

/-- A session's entries do not depend on the entries of others. -/
theorem Owned.other (own : Owned table i h) (same : ∀ n e, e.session = some i →
    (Slots.lookup table' n = some e ↔ Slots.lookup table n = some e)) : Owned table' i h where
  command n := (same n (.client i) rfl).trans (own.command n)
  callbacks k := by simp only [same _ (.callback i k) rfl, own.callbacks]
  apart k := by rw [Ne, same _ (.callback i k) rfl]; exact own.apart k
  unset := own.unset

/-- A session owns its command socket and its callback sockets, and nothing after it has closed
the former and was never given one of the latter. -/
theorem Owned.owns_iff {s : Server} (own : Owned s.descriptors i h) (n : Nat) :
    s.owns i n ↔ (h.ended = false ∧ n = h.clientSocket) ∨
      ∃ k < h.sockets, Slots.lookup s.descriptors n = some (.callback i k) := by
  rw [← own.command]
  constructor
  · intro owns
    obtain ⟨e, found, session⟩ := Option.bind_eq_some_iff.mp owns
    cases e with
    | client j =>
      cases Option.some.inj session
      exact Or.inl found
    | callback j k =>
      cases Option.some.inj session
      exact Or.inr ⟨k, (own.callbacks k).mp ⟨n, found⟩, found⟩
    | standard | listening | unserved => simp [Endpoint.session] at session
  · rintro (found | ⟨k, _, found⟩) <;> simp [Server.owns, found, Endpoint.session]

theorem Owned.ended_not_owns {s : Server} (own : Owned s.descriptors i h) (ended : h.ended = true) :
    ¬s.owns i h.clientSocket := by
  intro owns
  rcases (own.owns_iff _).mp owns with ⟨open_, _⟩ | ⟨k, _, found⟩
  · simp [ended] at open_
  · exact own.apart k found

theorem Owned.owns_nothing_iff {s : Server} (own : Owned s.descriptors i h) (ended : h.ended = true) :
    (∀ n, ¬s.owns i n) ↔ h.sockets = 0 := by
  simp only [own.owns_iff, ended, Bool.true_eq_false, false_and, false_or, not_exists, not_and]
  constructor
  · intro nothing
    by_contra some
    obtain ⟨n, found⟩ := (own.callbacks 0).mpr (Nat.pos_of_ne_zero some)
    exact nothing n 0 (Nat.pos_of_ne_zero some) found
  · intro none n k below
    omega

theorem Owned.moved (own : Owned table i h) (sameSocket : h'.clientSocket = h.clientSocket)
    (sameCount : h'.sockets = h.sockets) (sameEnd : h'.ended = h.ended)
    (sameFd : h'.clientSocketFd = h.clientSocketFd ∨ h'.clientSocketFd = -1) : Owned table i h' where
  command n := by rw [sameEnd, sameSocket]; exact own.command n
  callbacks k := by rw [sameCount]; exact own.callbacks k
  apart k := by rw [sameSocket]; exact own.apart k
  unset none := by
    rcases sameFd with same | unset
    · exact same.trans (own.unset (sameCount.symm.trans none))
    · exact unset

/-- A session that is given a callback socket. -/
theorem Owned.socket (own : Owned table i h) (open_ : h.ended = false)
    (sameSocket : h'.clientSocket = h.clientSocket) (counted : h'.sockets = h.sockets + 1)
    (stillOpen : h'.ended = false) : Owned (Slots.occupy table (.callback i h.sockets)) i h' where
  command n := by
    rw [Slots.lookup_occupy_iff (by simp), own.command, open_, stillOpen, sameSocket]
  callbacks k := by
    rw [counted]
    by_cases new : k = h.sockets
    · subst new
      exact iff_of_true ⟨Slots.lowestFree table, by rw [Slots.lookup_occupy, if_pos rfl]⟩
        (Nat.lt_succ_self _)
    · simp only [Slots.lookup_occupy_iff (show Endpoint.callback i k ≠ .callback i h.sockets by simp [new]),
        own.callbacks]
      omega
  apart k := by
    have found := (own.command h.clientSocket).mpr ⟨open_, rfl⟩
    rw [sameSocket, Slots.lookup_occupy, if_neg (Slots.ne_lowestFree found), found]
    simp
  unset none := by omega

/-- A session that closes its command socket. -/
theorem Owned.close (own : Owned table i h) (open_ : h.ended = false)
    (sameSocket : h'.clientSocket = h.clientSocket) (sameCount : h'.sockets = h.sockets)
    (closed : h'.ended = true) (sameFd : h'.clientSocketFd = h.clientSocketFd) :
    Owned (Slots.release table h.clientSocket) i h' where
  command n := by
    rw [Slots.lookup_release, closed]
    split_ifs with same
    · simp
    · simp [own.command, same]
  callbacks k := by
    have found := (own.command h.clientSocket).mpr ⟨open_, rfl⟩
    rw [sameCount, ← own.callbacks]
    simp only [Slots.lookup_release_iff found (show Endpoint.callback i k ≠ .client i by simp)]
  apart k := by simp [sameSocket, Slots.lookup_release]
  unset none := by rw [sameFd]; exact own.unset (sameCount.symm.trans none)

end Entries

theorem Handler.Moved.sockets_kept {i : Nat} {h h' : Handler} {w w' : Shared} {a : Action}
    (moved : h.Moved i w a h' w') (quiet : a.changesTable = false) :
    h'.clientSocket = h.clientSocket ∧ h'.sockets = h.sockets ∧ h'.ended = h.ended ∧
      (h'.clientSocketFd = h.clientSocketFd ∨ h'.clientSocketFd = -1) := by
  cases moved with
  | socket | close | finish | closeAgain => simp [Action.changesTable] at quiet
  | stop atPhase | hangup atPhase | client atPhase | signup atPhase | login atPhase | call atPhase
  | refuse atPhase | logout atPhase | exit atPhase | ignored atPhase | socketFails atPhase
  | connect atPhase | connectFails atPhase | greet atPhase | reply atPhase | hasUser atPhase
  | hasNoUser atPhase | getUser atPhase | noUser atPhase | invite atPhase | accepted atPhase
  | declined atPhase | forward atPhase | exitReply atPhase | exitReplyFails atPhase
  | exitNotice atPhase => simp [Handler.ended, Handler.goto, atPhase]

section Steps
variable {past : History} {s t : Server} {e : Event}

theorem ownership_initial : Ownership Server.initial where
  owned i h atThread := by simp [Server.initial] at atThread
  existing n e i found session := by
    rcases n with _ | _ | _ | _ | n <;> simp [Server.initial, Slots.lookup] at found <;>
      subst found <;> simp [Endpoint.session] at session

/-- A step of one thread that touches no other session's entries. -/
theorem Ownership.thread {i : Nat} {h h' : Handler} (own : Ownership s)
    (atThread : s.threads[i]? = some h) (threads : t.threads = s.threads.set i h')
    (moved : Owned t.descriptors i h') (others : ∀ n e, e.session ≠ some i →
      (Slots.lookup t.descriptors n = some e ↔ Slots.lookup s.descriptors n = some e)) :
    Ownership t where
  owned j g after := by
    rw [threads, threads_set atThread] at after
    split_ifs at after with same
    · subst same
      cases Option.some.inj after
      exact moved
    · refine (own.owned j g after).other (fun n e session => others n e ?_)
      rw [session]
      simpa using same
  existing n e j found session := by
    have count : t.threads.length = s.threads.length := by rw [threads, List.length_set]
    rw [count]
    by_cases same : j = i
    · subst same
      exact (List.getElem?_eq_some_iff.mp atThread).1
    · refine own.existing n e j ((others n e ?_).mp found) session
      rw [session]
      simpa using same

/-- A new session gets a number that nobody else has. -/
theorem Ownership.accept (own : Ownership s)
    (table : t.descriptors = Slots.occupy s.descriptors (.client s.threads.length))
    (threads : t.threads = s.threads ++ [{ clientSocket := Slots.lowestFree s.descriptors }]) :
    Ownership t := by
  have absent (n : Nat) (e : Endpoint) (session : e.session = some s.threads.length) :
      Slots.lookup s.descriptors n ≠ some e := fun found =>
    absurd (own.existing n e _ found session) (lt_irrefl _)
  refine ⟨fun i h after => ?_, fun n e i found session => ?_⟩
  · rw [table]
    rcases threads_push (threads ▸ after) with before | ⟨rfl, rfl⟩
    · refine (own.owned i h before).other fun n e session => Slots.lookup_occupy_iff ?_ n
      rintro rfl
      cases Option.some.inj session
      exact absurd (List.getElem?_eq_some_iff.mp before).1 (lt_irrefl _)
    · refine ⟨fun n => ?_, fun k => ?_, fun k => ?_, fun _ => rfl⟩
      · rw [Slots.lookup_occupy]
        split_ifs with free
        · simp [free, Handler.ended]
        · simp [free, absent n (.client _) rfl]
      · simp [Slots.lookup_occupy_iff, absent _ (.callback _ k) rfl]
      · simp [Slots.lookup_occupy]
  · rw [table, Slots.lookup_occupy] at found
    rw [threads, List.length_append, List.length_singleton]
    split_ifs at found with free
    · cases Option.some.inj found
      cases Option.some.inj session
      exact Nat.lt_succ_self _
    · exact Nat.lt_succ_of_lt (own.existing n e i found session)

/-- A connection that no session serves belongs to none. -/
theorem Ownership.unserved (own : Ownership s)
    (table : t.descriptors = Slots.occupy s.descriptors .unserved) (threads : t.threads = s.threads) :
    Ownership t := by
  have kept {i n : Nat} {e : Endpoint} (session : e.session = some i) :
      Slots.lookup t.descriptors n = some e ↔ Slots.lookup s.descriptors n = some e := by
    rw [table]
    refine Slots.lookup_occupy_iff ?_ n
    rintro rfl
    simp [Endpoint.session] at session
  refine ⟨fun i h after => ?_, fun n e i found session => ?_⟩
  · exact (own.owned i h (threads ▸ after)).other fun n e session => kept session
  · exact threads ▸ own.existing n e i ((kept session).mp found) session

/-- Every step but the second `close` of a handler keeps the table in order. -/
theorem Ownership.step (own : Ownership s) (good : ClosesOwn ((s, e) :: past) t)
    (stepped : s.step e = some t) : Ownership t := by
  cases Server.step_moved stepped with
  | acceptFails | interrupt => exact ⟨own.owned, own.existing⟩
  | listener moved =>
    have same := Shared.listen_descriptors moved
    exact ⟨fun i h atThread => same ▸ own.owned i h atThread, fun n e i found =>
      own.existing n e i (same ▸ found)⟩
  | acceptLate => exact own.unserved rfl rfl
  | accept => exact own.accept rfl rfl
  | @thread i a h h' w' atThread moved =>
    have mine := own.owned i h atThread
    cases quiet : a.changesTable with
    | false =>
      have table := moved.descriptors_eq quiet
      obtain ⟨socket, count, ended, fd⟩ := moved.sockets_kept quiet
      refine own.thread atThread rfl ?_ (fun n e _ => by simp only [table])
      exact table ▸ mine.moved socket count ended fd
    | true =>
      cases moved with
      | socket atPhase =>
        have open_ : h.ended = false := by simp [Handler.ended, atPhase]
        refine own.thread atThread rfl (mine.socket open_ rfl rfl rfl) (fun n e session => ?_)
        exact Slots.lookup_occupy_iff (by rintro rfl; exact session rfl) n
      | close atPhase =>
        have open_ : h.ended = false := by simp [Handler.ended, atPhase]
        refine own.thread atThread rfl (mine.close open_ rfl rfl rfl rfl) (fun n e session => ?_)
        refine Slots.lookup_release_iff ((mine.command _).mpr ⟨open_, rfl⟩) ?_ n
        rintro rfl
        exact session rfl
      | finish atPhase =>
        refine own.thread atThread rfl (mine.moved rfl rfl ?_ (Or.inl rfl)) (fun _ _ _ => Iff.rfl)
        simp [Handler.ended, Handler.goto, atPhase]
      | closeAgain atPhase set =>
        have ended : h.ended = true := by simp [Handler.ended, atPhase]
        exact absurd (good.1 h atThread set) (mine.ended_not_owns ended)
      | _ => simp [Action.changesTable] at quiet

theorem ownership_of_always (run : ServerRun past s) (always : Always ClosesOwn past s) :
    Ownership s :=
  run.invariant_of_always (fun _ s => Ownership s) ownership_initial
    (fun _ _ _ _ _ own good stepped => own.step good stepped) always

theorem closesOwn_finish {i : Nat} {h : Handler} (atThread : s.threads[i]? = some h) :
    ClosesOwn ((s, .thread i .finish) :: past) t ↔
      (h.clientSocketFd ≠ -1 → s.owns i h.clientSocket) ∧ ∀ n, ¬t.owns i n := by
  simp [ClosesOwn, atThread]

theorem neverConnected_finish {i : Nat} {h : Handler} (atThread : s.threads[i]? = some h) :
    NeverConnected past s (.thread i .finish) ↔ h.sockets = 0 := by
  simp [NeverConnected, atThread]

/-- A step closes what it should exactly if it is not the end of a handler that was given a
callback socket. -/
theorem closesOwn_step (own : Ownership s) (stepped : s.step e = some t) :
    ClosesOwn ((s, e) :: past) t ↔ NeverConnected past s e := by
  cases e with
  | accept | interrupt | listener => exact Iff.rfl
  | thread i a =>
    cases Server.step_moved stepped with
    | @thread _ _ h h' w' atThread moved =>
      have mine := own.owned i h atThread
      cases moved with
      | close atPhase =>
        refine iff_of_true (fun g found => ?_) trivial
        cases Option.some.inj (atThread.symm.trans found)
        exact (mine.owns_iff _).mpr (Or.inl ⟨by simp [Handler.ended, atPhase], rfl⟩)
      | finish atPhase none =>
        rw [closesOwn_finish atThread, neverConnected_finish atThread]
        have ended : h.ended = true := by simp [Handler.ended, atPhase]
        rw [← mine.owns_nothing_iff ended]
        exact ⟨And.right, fun nothing => ⟨fun set => absurd none set, nothing⟩⟩
      | closeAgain atPhase set =>
        rw [closesOwn_finish atThread, neverConnected_finish atThread]
        have ended : h.ended = true := by simp [Handler.ended, atPhase]
        refine iff_of_false (fun both => ?_) (fun none => set (mine.unset none))
        exact mine.ended_not_owns ended (both.1 set)
      | _ => exact Iff.rfl

theorem closes_own_iff (run : ServerRun past s) :
    Always ClosesOwn past s ↔ Throughout NeverConnected past :=
  run.always_iff trivial fun _ _ _ _ previous always stepped =>
    closesOwn_step (ownership_of_always previous always) stepped

end Steps

/-- A client that hangs up without having sent CLIENT. -/
def plainRun : List Event := .accept true :: session 0 [.recv [], .close, .finish]

theorem plain_run_closes_own : ∃ past s,
    execute Server.step [] Server.initial plainRun = some (past, s) ∧ Always ClosesOwn past s := by
  have ran : (execute Server.step [] Server.initial plainRun).any (fun r =>
      decide (Throughout NeverConnected r.1)) = true := by
    decide +kernel
  obtain ⟨past, s, done, checked⟩ := execute_check _ ran
  exact ⟨past, s, done, (closes_own_iff (execute_trail done)).mpr (of_decide_eq_true checked)⟩

/-- Session 0 has a callback connection and hangs up. Between the two times its handler closes
number 4 the number goes to session 1. -/
def reusedNumberRun : List Event :=
  .accept true :: session 0 (connects ++ [.recv [], .close]) ++ [.accept true] ++ session 0 [.finish]

theorem reused_number_not_own : ∃ past s,
    execute Server.step [] Server.initial reusedNumberRun = some (past, s) ∧ ¬Always ClosesOwn past s := by
  have ran : (execute Server.step [] Server.initial reusedNumberRun).any (fun r =>
      endsWith (.thread 0 .finish) (fun before _ =>
        decide ((before.threads[0]?).map Handler.clientSocket = some 4 ∧
          (before.threads[0]?).map Handler.clientSocketFd = some 5 ∧
          Slots.lookup before.descriptors 4 = some (.client 1))) r.1) = true := by
    decide +kernel
  obtain ⟨past, s, done, checked⟩ := execute_check _ ran
  refine ⟨past, s, done, fun always => ?_⟩
  obtain ⟨before, earlier, rfl, facts⟩ := endsWith_iff.mp checked
  obtain ⟨socket, callback, taken⟩ := of_decide_eq_true facts
  obtain ⟨h, atThread, number⟩ := Option.map_eq_some_iff.mp socket
  rw [atThread, Option.map_some, Option.some.injEq] at callback
  have owns := always.here.1 h atThread (by simp [callback])
  rw [number, Server.owns, taken] at owns
  simp [Endpoint.session] at owns

end Signaling
