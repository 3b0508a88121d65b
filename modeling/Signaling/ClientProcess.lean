import Signaling.ListenerLoop
import Signaling.Machine.Simulation
import Signaling.MediaRelay
import Signaling.MenuInterrupt

namespace Signaling
open Machine CText

/-- Where `main` of `client.cpp` is: about to send CLIENT, in `media_handler`, about to start the listener thread,
in `open_menu`, before the `close`, in the `join`, or past its end; or the process has ended in `open_menu` or by
an exception in the listener. -/
inductive MainPhase
  | announcing
  | relaying
  | spawning
  | inMenu
  | closing
  | joining
  | returned
  | exited
  deriving DecidableEq, Repr

/-- Where `server_handler` is: before or in the calls up to `listen`, in `accept`, in its loop or at its end. -/
inductive ListenerThread
  | opening
  | accepting
  | looping (l : Listener)
  | returned
  deriving DecidableEq, Repr

/-- The threads of a client and whether its sockets are open: the connection to the server, the two of
`media_handler`, and the two of `server_handler`. `running` is that of the menu; a listener in its loop has a copy. -/
structure ClientProcess where
  main : MainPhase := .announcing
  relay : MediaRelay
  menu : Menu := {}
  thread : Option ListenerThread := none
  commandOpen : Bool := true
  mediaOpen : Bool := false
  listeningOpen : Bool := false
  callbackOpen : Bool := false
  deriving DecidableEq, Repr

/-- A `socket` of `server_handler` may fail, and so may the calls after it; `accept` returns a connection, on
which the server has messages to send, or fails; and `recv` may fail, with SIGINT or without. -/
inductive ClientEvent
  | announce (sent : Bool)
  | media (e : MediaEvent)
  | spawn
  | menu (e : MenuEvent)
  | listen (created listening : Bool)
  | accept (stream : Option (List Outgoing))
  | callback (e : ListenerEvent)
  | recvFails
  | raise
  | leave
  | close
  | join
  deriving DecidableEq, Repr

abbrev ClientHistory := List (ClientProcess × ClientEvent)

/-- The body of an INVITE or ACCEPT branch runs, which may raise an exception. -/
def Listener.mayRaise (l : Listener) : Bool :=
  l.phase = .testing &&
    match l.dispatched.getLast? with
    | some (.invite, _) | some (.accept, _) => true
    | _ => false

/-- What `main` does when `open_menu` is there. -/
def MenuPhase.main : MenuPhase → MainPhase
  | .returned => .closing
  | .exited => .exited
  | _ => .inMenu

def ListenerThread.withRunning (running : Bool) : ListenerThread → ListenerThread
  | .looping l => .looping { l with running := running }
  | thread => thread

namespace ClientProcess
variable (setSsrc : Bytes → Bytes)

def act (p : ClientProcess) : ClientEvent → Option ClientProcess
  | .announce sent =>
    if p.main = .announcing then
      some (if sent then { p with main := .relaying, mediaOpen := true }
        else { p with main := .returned, commandOpen := false })
    else none
  | .media e =>
    if p.main = .relaying then
      (p.relay.mediaHandler setSsrc e).map fun r =>
        { p with relay := r, main := if r.relaying then .relaying else .spawning }
    else none
  | .spawn => if p.main = .spawning then some { p with main := .inMenu, thread := some .opening } else none
  | .menu e =>
    if p.main = .inMenu ∨ e.outside = true then
      (p.menu.step e).map fun m =>
        { p with menu := m, main := if p.main = .inMenu then m.phase.main else p.main,
                 thread := p.thread.map (·.withRunning m.running) }
    else none
  | .listen created listening =>
    if p.thread = some .opening then
      some { p with thread := some (if created && listening then .accepting else .returned),
                    listeningOpen := created }
    else none
  | .accept stream =>
    if p.thread = some .accepting then
      some (match stream with
        | some unsent =>
          { p with thread := some (if p.menu.running then .looping { unsent := unsent } else .returned),
                   callbackOpen := true }
        | none => { p with thread := some .returned })
    else none
  | .callback e =>
    match p.thread with
    | some (.looping l) =>
      if e = .interrupt then none else (l.step e).map fun l => { p with thread := some (.looping l) }
    | _ => none
  | .recvFails =>
    match p.thread with
    | some (.looping l) =>
      if l.phase = .receiving then some { p with thread := some .returned, callbackOpen := false } else none
    | _ => none
  | .raise =>
    match p.thread with
    | some (.looping l) => if l.mayRaise then some { p with main := .exited } else none
    | _ => none
  | .leave =>
    match p.thread with
    | some (.looping l) =>
      if l.phase = .left then some { p with thread := some .returned, callbackOpen := false } else none
    | _ => none
  | .close =>
    if p.main = .closing then some { p with main := .joining, commandOpen := false } else none
  | .join => if p.main = .joining ∧ p.thread = some .returned then some { p with main := .returned } else none

/-- Nothing of a process that has ended goes on. -/
def step (p : ClientProcess) (e : ClientEvent) : Option ClientProcess :=
  if p.main = .returned ∨ p.main = .exited then none else p.act setSsrc e

/-- The ways of `step`. -/
inductive Moved (p : ClientProcess) : ClientEvent → ClientProcess → Prop
  | announced : p.main = .announcing →
      Moved p (.announce true) { p with main := .relaying, mediaOpen := true }
  | unannounced : p.main = .announcing →
      Moved p (.announce false) { p with main := .returned, commandOpen := false }
  | media {e r} : p.main = .relaying → p.relay.mediaHandler setSsrc e = some r →
      Moved p (.media e) { p with relay := r, main := if r.relaying then .relaying else .spawning }
  | spawn : p.main = .spawning → Moved p .spawn { p with main := .inMenu, thread := some .opening }
  | menu {e m} : p.main = .inMenu → p.menu.step e = some m →
      Moved p (.menu e)
        { p with menu := m, main := m.phase.main, thread := p.thread.map (·.withRunning m.running) }
  | outside {e m} : p.main ≠ .inMenu → e.outside = true → p.menu.step e = some m →
      Moved p (.menu e) { p with menu := m, thread := p.thread.map (·.withRunning m.running) }
  | listen {created listening} : p.thread = some .opening →
      Moved p (.listen created listening)
        { p with thread := some (if created && listening then .accepting else .returned),
                 listeningOpen := created }
  | accepted {unsent} : p.thread = some .accepting → p.menu.running = true →
      Moved p (.accept (some unsent))
        { p with thread := some (.looping { unsent := unsent }), callbackOpen := true }
  | stopped {unsent} : p.thread = some .accepting → p.menu.running = false →
      Moved p (.accept (some unsent)) { p with thread := some .returned, callbackOpen := true }
  | unaccepted : p.thread = some .accepting → Moved p (.accept none) { p with thread := some .returned }
  | callback {e l l'} : p.thread = some (.looping l) → e ≠ .interrupt → l.step e = some l' →
      Moved p (.callback e) { p with thread := some (.looping l') }
  | recvFailed {l} : p.thread = some (.looping l) → l.phase = .receiving →
      Moved p .recvFails { p with thread := some .returned, callbackOpen := false }
  | raise {l} : p.thread = some (.looping l) → l.mayRaise = true → Moved p .raise { p with main := .exited }
  | leave {l} : p.thread = some (.looping l) → l.phase = .left →
      Moved p .leave { p with thread := some .returned, callbackOpen := false }
  | close : p.main = .closing → Moved p .close { p with main := .joining, commandOpen := false }
  | join : p.main = .joining → p.thread = some .returned → Moved p .join { p with main := .returned }

variable {setSsrc} {p p' : ClientProcess} {e : ClientEvent}

theorem step_moved (stepped : p.step setSsrc e = some p') :
    p.main ≠ .returned ∧ p.main ≠ .exited ∧ Moved setSsrc p e p' := by
  rw [step] at stepped
  split_ifs at stepped with ended
  rw [not_or] at ended
  refine ⟨ended.1, ended.2, ?_⟩
  cases e with
  | announce sent =>
    rw [act] at stepped
    split_ifs at stepped with here sent
    · cases Option.some.inj stepped
      subst sent
      exact .announced here
    · cases Option.some.inj stepped
      rw [Bool.not_eq_true] at sent
      subst sent
      exact .unannounced here
  | media e =>
    rw [act] at stepped
    split_ifs at stepped with here
    obtain ⟨r, moved, rfl⟩ := Option.map_eq_some_iff.mp stepped
    exact .media here moved
  | spawn =>
    rw [act] at stepped
    split_ifs at stepped with here
    cases Option.some.inj stepped
    exact .spawn here
  | menu e =>
    rw [act] at stepped
    split_ifs at stepped with able here
    · obtain ⟨m, moved, rfl⟩ := Option.map_eq_some_iff.mp stepped
      exact .menu here moved
    · obtain ⟨m, moved, rfl⟩ := Option.map_eq_some_iff.mp stepped
      exact .outside here (able.resolve_left here) moved
  | listen created listening =>
    rw [act] at stepped
    split at stepped
    · rename_i here
      cases Option.some.inj stepped
      exact .listen here
    · simp at stepped
  | accept stream =>
    cases stream with
    | none =>
      rw [act] at stepped
      split_ifs at stepped with here
      cases Option.some.inj stepped
      exact .unaccepted here
    | some unsent =>
      rw [act] at stepped
      split_ifs at stepped with here running
      · cases Option.some.inj stepped
        exact .accepted here running
      · cases Option.some.inj stepped
        exact .stopped here (Bool.not_eq_true _ ▸ running)
  | callback e =>
    rw [act] at stepped
    split at stepped
    · rename_i l looping
      split_ifs at stepped with signal
      obtain ⟨l', moved, rfl⟩ := Option.map_eq_some_iff.mp stepped
      exact .callback looping signal moved
    · simp at stepped
  | recvFails =>
    rw [act] at stepped
    split at stepped
    · rename_i l looping
      split_ifs at stepped with receiving
      cases Option.some.inj stepped
      exact .recvFailed looping receiving
    · simp at stepped
  | raise =>
    rw [act] at stepped
    split at stepped
    · rename_i l looping
      split_ifs at stepped with raises
      cases Option.some.inj stepped
      exact .raise looping raises
    · simp at stepped
  | leave =>
    rw [act] at stepped
    split at stepped
    · rename_i l looping
      split_ifs at stepped with left
      cases Option.some.inj stepped
      exact .leave looping left
    · simp at stepped
  | close =>
    rw [act] at stepped
    split_ifs at stepped with here
    cases Option.some.inj stepped
    exact .close here
  | join =>
    rw [act] at stepped
    split_ifs at stepped with here
    cases Option.some.inj stepped
    exact .join here.1 here.2

/-- What a step is of `open_menu`. -/
def menuEvent (_ : ClientProcess) : ClientEvent → Option MenuEvent
  | .menu e => some e
  | _ => none

section Runs
variable {relay : MediaRelay} {past : ClientHistory}

/-- The history of `open_menu` in that of the process. -/
def menuHistory (past : ClientHistory) : MenuHistory :=
  past.filterMap fun taken => (menuEvent taken.1 taken.2).map (taken.1.menu, ·)

/-- The listener is in its loop, with the flag of the process. -/
def ListenerRuns (p : ClientProcess) : Prop :=
  ∀ l, p.thread = some (.looping l) →
    l.running = p.menu.running ∧ ∃ unsent past', Trail Listener.step { unsent := unsent } past' l

/-- A signal for the process is one for the listener. -/
theorem ListenerRuns.withMenu (runs : ListenerRuns p) {m : Menu} {e : MenuEvent} (moved : p.menu.step e = some m)
    {main : MainPhase} :
    ListenerRuns { p with menu := m, main := main, thread := p.thread.map (·.withRunning m.running) } := by
  intro l looping
  obtain ⟨thread, atThread, same⟩ := Option.map_eq_some_iff.mp looping
  cases thread with
  | looping before =>
    obtain ⟨flag, unsent, past', run⟩ := runs before atThread
    cases ListenerThread.looping.inj same
    refine ⟨rfl, unsent, ?_⟩
    by_cases kept : m.running = before.running
    · exact ⟨past', by rw [kept]; exact run⟩
    · cases still : p.menu.running with
      | true =>
        have stops : before.step .interrupt = some { before with running := false } := by
          rw [Listener.step, flag, still, if_pos rfl]
        rw [flag, still, Bool.not_eq_true] at kept
        exact ⟨_, by rw [kept]; exact run.next stops⟩
      | false => exact absurd (Menu.step_stopped moved still) (by rw [flag, still] at kept; exact kept)
  | opening => simp [ListenerThread.withRunning] at same
  | accepting => simp [ListenerThread.withRunning] at same
  | returned => simp [ListenerThread.withRunning] at same

theorem listener_running {l l' : Listener} {e : ListenerEvent} (moved : l.step e = some l')
    (other : e ≠ .interrupt) : l'.running = l.running := by
  cases Listener.step_moved moved with
  | interrupt _ => exact absurd rfl other
  | @recv buffer _ _ _ =>
    rw [Listener.dispatch]
    split <;> rfl
  | _ => rfl

theorem ListenerRuns.step (runs : ListenerRuns p) (stepped : p.step setSsrc e = some p') : ListenerRuns p' := by
  cases (step_moved stepped).2.2 with
  | menu _ moved => exact runs.withMenu moved
  | outside _ _ moved => exact runs.withMenu moved
  | announced _ => exact runs
  | unannounced _ => exact runs
  | media _ _ => exact runs
  | raise _ _ => exact runs
  | close _ => exact runs
  | join _ _ => exact runs
  | spawn _ => exact fun l looping => by simp at looping
  | stopped _ _ => exact fun l looping => by simp at looping
  | unaccepted _ => exact fun l looping => by simp at looping
  | recvFailed _ _ => exact fun l looping => by simp at looping
  | leave _ _ => exact fun l looping => by simp at looping
  | listen _ =>
    intro l looping
    split_ifs at looping <;> simp at looping
  | accepted _ running =>
    intro l looping
    cases looping
    exact ⟨running.symm, _, [], .start⟩
  | callback atThread other moved =>
    intro l looping
    cases looping
    obtain ⟨flag, unsent, past', run⟩ := runs _ atThread
    exact ⟨(listener_running moved other).trans flag, unsent, _, run.next moved⟩

theorem listenerRuns_of_run (run : Trail (ClientProcess.step setSsrc) { relay := relay } past p) :
    ListenerRuns p := by
  refine run.invariant (fun _ p => ListenerRuns p) ?_ fun _ _ _ _ _ runs stepped => runs.step stepped
  exact fun l looping => by simp at looping

end Runs

end ClientProcess

end Signaling
