import Signaling.ClientProcess

namespace Signaling
open Machine CText

/-- The steps of the threads of a client, with those in which they get something from outside that they wait for. -/
def ClientEvent.own : ClientEvent → Bool
  | .menu e => !e.outside
  | .callback .test | .callback .recv => true
  | .callback _ | .raise => false
  | _ => true

/-- The steps that the threads of a stopped client take without an input, a message, a connection or a failure. -/
def ClientEvent.alone : ClientEvent → Bool
  | .spawn | .menu (.sendExit _) | .listen .. | .callback .test | .callback .recv | .leave | .close | .join => true
  | .announce _ | .media _ | .menu _ | .accept _ | .callback _ | .recvFails | .raise => false

/-- `open_menu` is in `cin` or in a `recv`. -/
def MenuPhase.waits : MenuPhase → Bool
  | .reading | .signing _ | .loggingOut _ | .leaving => true
  | .exiting | .returned | .exited => false

/-- Bounds on the steps still to come once `running` is false. -/
def MainPhase.left : MainPhase → Nat
  | .spawning => 3
  | .inMenu | .closing => 2
  | .joining => 1
  | _ => 0

def ListenerThread.left : ListenerThread → Nat
  | .opening => 2
  | .accepting => 1
  | .looping l =>
    match l.phase with
    | .testing => 2
    | .receiving => 3
    | .left => 1
  | .returned => 0

/-- The listener waits in its `recv`, or what is there leaves no room for a NUL. -/
def Listener.Waits (l : Listener) : Prop :=
  l.phase = .receiving ∧ (l.queue = [] ∧ l.shut = false ∨ received (l.queue.take socketBufferSize) = none)

/-- The listener is in `accept`, in a `recv` that does not return, or at its end. -/
def ListenerThread.Waits : ListenerThread → Prop
  | .accepting | .returned => True
  | .looping l => l.Waits
  | .opening => False

namespace ClientProcess

/-- `main` is in `cin`, in a `recv` of the menu, or in the `join` of a listener that has not returned. -/
def MainWaits (p : ClientProcess) : Prop :=
  p.main = .inMenu ∧ p.menu.phase.waits = true ∨ p.main = .joining ∧ p.thread ≠ some .returned

/-- A thread that is not started yet has all its steps to come. -/
def left (p : ClientProcess) : Nat :=
  p.main.left + p.menu.phase.left + (p.thread.map ListenerThread.left).getD 2

/-- The frames sent on `client_socket` by `open_menu`, the latest first. -/
def framesSent (past : ClientHistory) : List Text := Menu.framesSent (menuHistory past)

/-- What is done at a point of `main`. -/
def Stands (p : ClientProcess) : Prop :=
  match p.main with
  | .announcing => p.thread = none ∧ p.menu.phase = .reading ∧ p.commandOpen = true ∧ p.mediaOpen = false
  | .relaying => p.thread = none ∧ p.menu.phase = .reading ∧ p.commandOpen = true ∧ p.mediaOpen = true
  | .spawning => p.thread = none ∧ p.menu.phase = .reading ∧ p.commandOpen = true ∧ p.mediaOpen = true ∧
      p.relay.relaying = false
  | .inMenu => p.thread ≠ none ∧ p.menu.phase.main = .inMenu ∧ p.commandOpen = true ∧ p.mediaOpen = true ∧
      p.relay.relaying = false
  | .closing => p.thread ≠ none ∧ p.menu.phase = .returned ∧ p.commandOpen = true ∧ p.mediaOpen = true ∧
      p.relay.relaying = false
  | .joining => p.thread ≠ none ∧ p.menu.phase = .returned ∧ p.commandOpen = false ∧ p.mediaOpen = true ∧
      p.relay.relaying = false
  | .returned => p.commandOpen = false ∧ (p.thread = none ∧ p.mediaOpen = false ∨
      p.thread = some .returned ∧ p.menu.phase = .returned ∧ p.mediaOpen = true ∧ p.relay.relaying = false)
  | .exited => True

variable {setSsrc : Bytes → Bytes} {p p' q : ClientProcess} {e : ClientEvent} {past history : ClientHistory}
  {relay : MediaRelay}

theorem outside_phase {m m' : Menu} {e : MenuEvent} (outside : e.outside = true) (moved : m.step e = some m') :
    m'.phase = m.phase := by
  cases e with
  | interrupt =>
    cases Option.some.inj moved
    rfl
  | gathered sdp =>
    cases Option.some.inj moved
    rfl
  | _ => simp [MenuEvent.outside] at outside

theorem Stands.withThread (stands : p.Stands) (notReturned : p.main ≠ .returned) {before after : ListenerThread}
    (atThread : p.thread = some before) {listening callback : Bool} :
    Stands { p with thread := some after, listeningOpen := listening, callbackOpen := callback } := by
  rw [Stands] at stands ⊢
  cases here : p.main with
  | announcing => simp [here, atThread] at stands
  | relaying => simp [here, atThread] at stands
  | spawning => simp [here, atThread] at stands
  | inMenu =>
    rw [here] at stands
    exact ⟨by simp, stands.2⟩
  | closing =>
    rw [here] at stands
    exact ⟨by simp, stands.2⟩
  | joining =>
    rw [here] at stands
    exact ⟨by simp, stands.2⟩
  | returned => exact absurd here notReturned
  | exited => trivial

/-- What comes from outside leaves the menu where it is. -/
theorem Stands.withFlags (stands : p.Stands) (notReturned : p.main ≠ .returned) {m : Menu}
    (same : m.phase = p.menu.phase) :
    Stands { p with menu := m, thread := p.thread.map (·.withRunning m.running) } := by
  rw [Stands] at stands ⊢
  cases here : p.main with
  | announcing =>
    rw [here] at stands
    exact ⟨by simp [stands.1], same.trans stands.2.1, stands.2.2⟩
  | relaying =>
    rw [here] at stands
    exact ⟨by simp [stands.1], same.trans stands.2.1, stands.2.2⟩
  | spawning =>
    rw [here] at stands
    exact ⟨by simp [stands.1], same.trans stands.2.1, stands.2.2⟩
  | inMenu =>
    rw [here] at stands
    exact ⟨by simpa using stands.1, by rw [same]; exact stands.2.1, stands.2.2⟩
  | closing =>
    rw [here] at stands
    exact ⟨by simpa using stands.1, same.trans stands.2.1, stands.2.2⟩
  | joining =>
    rw [here] at stands
    exact ⟨by simpa using stands.1, same.trans stands.2.1, stands.2.2⟩
  | returned => exact absurd here notReturned
  | exited => trivial

theorem Stands.step (stands : p.Stands) (stepped : p.step setSsrc e = some p') : p'.Stands := by
  obtain ⟨notReturned, _, moved⟩ := step_moved stepped
  cases moved with
  | announced here =>
    rw [Stands, here] at stands
    exact ⟨stands.1, stands.2.1, stands.2.2.1, rfl⟩
  | unannounced here =>
    rw [Stands, here] at stands
    exact ⟨rfl, Or.inl ⟨stands.1, stands.2.2.2⟩⟩
  | @media e r here moved =>
    rw [Stands, here] at stands
    cases goesOn : r.relaying with
    | true => exact stands
    | false => exact ⟨stands.1, stands.2.1, stands.2.2.1, stands.2.2.2, goesOn⟩
  | spawn here =>
    rw [Stands, here] at stands
    exact ⟨by simp, by rw [stands.2.1]; rfl, stands.2.2⟩
  | @menu e m here moved =>
    rw [Stands, here] at stands
    have threads : p.thread.map (·.withRunning m.running) ≠ none := by simpa using stands.1
    rw [Stands]
    cases there : m.phase with
    | returned => exact ⟨threads, rfl, stands.2.2⟩
    | exited => trivial
    | _ => exact ⟨threads, rfl, stands.2.2⟩
  | outside _ outside moved => exact stands.withFlags notReturned (outside_phase outside moved)
  | listen atThread => exact stands.withThread notReturned atThread
  | accepted atThread _ => exact stands.withThread notReturned atThread
  | stopped atThread _ => exact stands.withThread notReturned atThread
  | unaccepted atThread => exact stands.withThread notReturned atThread
  | callback atThread _ _ => exact stands.withThread notReturned atThread
  | raise _ _ => trivial
  | recvFailed atThread _ => exact stands.withThread notReturned atThread
  | leave atThread _ => exact stands.withThread notReturned atThread
  | close here =>
    rw [Stands, here] at stands
    exact ⟨stands.1, stands.2.1, rfl, stands.2.2.2⟩
  | join here returned =>
    rw [Stands, here] at stands
    exact ⟨stands.2.2.1, Or.inr ⟨returned, stands.2.1, stands.2.2.2⟩⟩

theorem stands_of_run (run : Trail (step setSsrc) { relay := relay } past p) : p.Stands := by
  refine run.invariant (fun _ p => p.Stands) ?_ fun _ _ _ _ _ stands stepped => stands.step stepped
  exact ⟨rfl, rfl, rfl, rfl⟩

/-- The first `socket` of `server_handler` was successful. -/
def Listened (past : ClientHistory) : Prop := ∃ q listening, (q, ClientEvent.listen true listening) ∈ past

/-- `accept` returned a connection after SIGINT. -/
def AcceptedLate (past : ClientHistory) : Prop :=
  ∃ q unsent, (q, ClientEvent.accept (some unsent)) ∈ past ∧ q.menu.running = false

/-- What `server_handler` has opened and not closed. -/
def ThreadStands (late : Prop) (listening callback : Bool) : Option ListenerThread → Prop
  | none | some .opening => listening = false ∧ callback = false ∧ ¬late
  | some .accepting => callback = false ∧ ¬late
  | some (.looping _) => callback = true ∧ ¬late
  | some .returned => callback = true ↔ late

structure ListenerStands (past : ClientHistory) (p : ClientProcess) : Prop where
  listening : p.listeningOpen = true ↔ Listened past
  thread : ThreadStands (AcceptedLate past) p.listeningOpen p.callbackOpen p.thread

theorem listened_cons : Listened ((p, e) :: past) ↔ (∃ listening, e = .listen true listening) ∨ Listened past := by
  constructor
  · rintro ⟨q, listening, member⟩
    rcases List.mem_cons.mp member with same | earlier
    · exact Or.inl ⟨listening, (Prod.mk.inj same).2.symm⟩
    · exact Or.inr ⟨q, listening, earlier⟩
  · rintro (⟨listening, rfl⟩ | ⟨q, listening, member⟩)
    · exact ⟨p, listening, List.mem_cons_self⟩
    · exact ⟨q, listening, List.mem_cons_of_mem _ member⟩

theorem acceptedLate_cons : AcceptedLate ((p, e) :: past) ↔
    (∃ unsent, e = .accept (some unsent)) ∧ p.menu.running = false ∨ AcceptedLate past := by
  constructor
  · rintro ⟨q, unsent, member, late⟩
    rcases List.mem_cons.mp member with same | earlier
    · obtain ⟨rfl, rfl⟩ := Prod.mk.inj same
      exact Or.inl ⟨⟨unsent, rfl⟩, late⟩
    · exact Or.inr ⟨q, unsent, earlier, late⟩
  · rintro (⟨⟨unsent, rfl⟩, late⟩ | ⟨q, unsent, member, late⟩)
    · exact ⟨p, unsent, List.mem_cons_self, late⟩
    · exact ⟨q, unsent, List.mem_cons_of_mem _ member, late⟩

theorem threadStands_withRunning {late : Prop} {listening callback running : Bool} {thread : Option ListenerThread} :
    ThreadStands late listening callback (thread.map (·.withRunning running)) ↔
      ThreadStands late listening callback thread := by
  cases thread with
  | none => rfl
  | some thread => cases thread <;> rfl

theorem late_kept (inTime : ∀ unsent, e = .accept (some unsent) → p.menu.running = true) :
    AcceptedLate ((p, e) :: past) = AcceptedLate past := by
  refine propext (acceptedLate_cons.trans ⟨fun either => either.resolve_left ?_, Or.inr⟩)
  rintro ⟨⟨unsent, same⟩, stopped⟩
  rw [inTime unsent same] at stopped
  cases stopped

/-- A step other than the `listen` of `server_handler` and a late `accept`. -/
theorem ListenerStands.quiet (stands : ListenerStands past p)
    (noListen : ∀ created listening, e ≠ .listen created listening)
    (inTime : ∀ unsent, e = .accept (some unsent) → p.menu.running = true)
    (listening : p'.listeningOpen = p.listeningOpen)
    (thread : ThreadStands (AcceptedLate past) p.listeningOpen p'.callbackOpen p'.thread) :
    ListenerStands ((p, e) :: past) p' where
  listening := by
    rw [listening, listened_cons, stands.listening]
    exact ⟨Or.inr, fun either => either.resolve_left fun ⟨_, same⟩ => noListen _ _ same⟩
  thread := by
    rw [listening, late_kept inTime]
    exact thread

theorem ListenerStands.step (listener : ListenerStands past p) (stands : p.Stands)
    (stepped : p.step setSsrc e = some p') : ListenerStands ((p, e) :: past) p' := by
  have here := listener.thread
  cases (step_moved stepped).2.2 with
  | announced _ => exact listener.quiet (by simp) (by simp) rfl here
  | unannounced _ => exact listener.quiet (by simp) (by simp) rfl here
  | media _ _ => exact listener.quiet (by simp) (by simp) rfl here
  | raise _ _ => exact listener.quiet (by simp) (by simp) rfl here
  | close _ => exact listener.quiet (by simp) (by simp) rfl here
  | join _ _ => exact listener.quiet (by simp) (by simp) rfl here
  | menu _ _ => exact listener.quiet (by simp) (by simp) rfl (threadStands_withRunning.mpr here)
  | outside _ _ _ => exact listener.quiet (by simp) (by simp) rfl (threadStands_withRunning.mpr here)
  | spawn atMain =>
    rw [Stands, atMain] at stands
    rw [stands.1] at here
    exact listener.quiet (by simp) (by simp) rfl here
  | callback atThread _ _ =>
    rw [atThread] at here
    exact listener.quiet (by simp) (by simp) rfl here
  | recvFailed atThread _ =>
    rw [atThread] at here
    exact listener.quiet (by simp) (by simp) rfl ⟨by simp, fun late => absurd late here.2⟩
  | leave atThread _ =>
    rw [atThread] at here
    exact listener.quiet (by simp) (by simp) rfl ⟨by simp, fun late => absurd late here.2⟩
  | accepted atThread running =>
    rw [atThread] at here
    exact listener.quiet (by simp) (fun _ _ => running) rfl ⟨rfl, here.2⟩
  | unaccepted atThread =>
    rw [atThread] at here
    exact listener.quiet (by simp) (by simp) rfl ⟨fun callback => by simp [here.1] at callback,
      fun late => absurd late here.2⟩
  | stopped atThread running =>
    refine ⟨?_, fun _ => acceptedLate_cons.mpr (Or.inl ⟨⟨_, rfl⟩, running⟩), fun _ => rfl⟩
    rw [listened_cons, listener.listening]
    exact ⟨Or.inr, fun either => either.resolve_left (by simp)⟩
  | @listen created listening atThread =>
    rw [atThread] at here
    obtain ⟨closed, callback, inTime⟩ := here
    constructor
    · rw [listened_cons, ← listener.listening, closed]
      simp
    · rw [late_kept (by simp)]
      cases created && listening with
      | true => exact ⟨callback, inTime⟩
      | false => exact ⟨fun open_ => by simp [callback] at open_, fun late => absurd late inTime⟩

theorem listenerStands_of_run (run : Trail (step setSsrc) { relay := relay } past p) : ListenerStands past p := by
  refine run.invariant ListenerStands ?_ fun _ _ _ _ before listener stepped =>
    listener.step (stands_of_run before) stepped
  exact ⟨⟨fun open_ => by simp at open_, fun ⟨_, _, member⟩ => by simp at member⟩, rfl, rfl,
    fun ⟨_, _, member, _⟩ => by simp at member⟩

/-- When `main` has returned, the relay, the menu and the listener are at their ends, unless CLIENT could not be
sent. The connection to the server is closed, and what else was opened is not: the sockets of the relay, that on
which the listener listened, and a connection that it accepted after SIGINT. -/
theorem client_returned (run : Trail (step setSsrc) { relay := relay } past p) (returned : p.main = .returned) :
    p.commandOpen = false ∧
      (p.mediaOpen = false ∧ p.thread = none ∧ p.listeningOpen = false ∧ p.callbackOpen = false ∨
        p.mediaOpen = true ∧ p.relay.relaying = false ∧ p.menu.phase = .returned ∧ p.thread = some .returned ∧
          (p.listeningOpen = true ↔ Listened past) ∧ (p.callbackOpen = true ↔ AcceptedLate past)) := by
  have stands := stands_of_run run
  have listener := listenerStands_of_run run
  have thread := listener.thread
  rw [Stands, returned] at stands
  obtain ⟨closed, ⟨unstarted, noMedia⟩ | ⟨ended, menu, media, relayed⟩⟩ := stands
  · rw [unstarted] at thread
    exact ⟨closed, Or.inl ⟨noMedia, unstarted, thread.1, thread.2.1⟩⟩
  · rw [ended] at thread
    exact ⟨closed, Or.inr ⟨media, relayed, menu, ended, listener.listening, thread⟩⟩

/-- SIGINT has come, and the relay is over. -/
structure Stopped (p : ClientProcess) : Prop where
  running : p.menu.running = false
  announced : p.main ≠ .announcing
  relayed : p.main ≠ .relaying

theorem framesSent_menu {e : MenuEvent} {m : Menu} {message : Option Text} (done : p.menu.act e = some (m, message)) :
    framesSent ((p, .menu e) :: past) = message.toList ++ framesSent past := Menu.framesSent_cons done

theorem framesSent_nil : framesSent [] = [] := rfl

theorem framesSent_other (other : menuEvent p e = none) : framesSent ((p, e) :: past) = framesSent past := by
  rw [framesSent, menuHistory, List.filterMap_cons]
  simp only [other, Option.map_none]
  rfl

theorem left_withRunning {running : Bool} {thread : Option ListenerThread} :
    ((thread.map (·.withRunning running)).map ListenerThread.left).getD 2 =
      (thread.map ListenerThread.left).getD 2 := by
  cases thread with
  | none => rfl
  | some thread => cases thread <;> rfl

/-- A listener that sees the signal is on its way out of the loop. -/
theorem listener_left {l l' : Listener} {e : ListenerEvent} (moved : l.step e = some l')
    (stopped : l.running = false) :
    (ClientEvent.callback e).own.toNat + (ListenerThread.looping l').left ≤ (ListenerThread.looping l).left := by
  cases Listener.step_moved moved with
  | send _ => exact (Nat.zero_add _).le
  | shutdown _ _ => exact (Nat.zero_add _).le
  | interrupt _ => exact (Nat.zero_add _).le
  | test testing => simp [ListenerThread.left, ClientEvent.own, stopped, testing]
  | @recv buffer receiving _ _ =>
    rw [Listener.dispatch]
    split <;> simp [ListenerThread.left, ClientEvent.own, receiving]

/-- What the listener has done `main` need not wait for. -/
theorem left_withThread {before after : ListenerThread} (atThread : p.thread = some before) {n : Nat}
    (less : n + after.left ≤ before.left) {listening callback : Bool} :
    n + left { p with thread := some after, listeningOpen := listening, callbackOpen := callback } ≤ p.left := by
  simp only [left, atThread, Option.map_some, Option.getD_some]
  omega

theorem main_of_menu (phase : MenuPhase) :
    phase.main.left ≤ 2 ∧ phase.main ≠ .announcing ∧ phase.main ≠ .relaying := by
  cases phase <;> exact ⟨by simp [MenuPhase.main, MainPhase.left], by simp [MenuPhase.main], by simp [MenuPhase.main]⟩

/-- Each step of its own takes a stopped client further. -/
theorem Stopped.step (stopped : Stopped p) (stands : p.Stands) (runs : ListenerRuns p)
    (stepped : p.step setSsrc e = some p') : Stopped p' ∧ e.own.toNat + p'.left ≤ p.left := by
  obtain ⟨running, announced, relayed⟩ := stopped
  cases (step_moved stepped).2.2 with
  | announced here => exact absurd here announced
  | unannounced here => exact absurd here announced
  | media here _ => exact absurd here relayed
  | raise _ _ =>
    refine ⟨⟨running, by simp, by simp⟩, ?_⟩
    simp only [left, MainPhase.left, ClientEvent.own, Bool.toNat_false]
    omega
  | close here =>
    refine ⟨⟨running, by simp, by simp⟩, ?_⟩
    simp only [left, here, MainPhase.left, ClientEvent.own, Bool.toNat_true]
    omega
  | join here _ =>
    refine ⟨⟨running, by simp, by simp⟩, ?_⟩
    simp only [left, here, MainPhase.left, ClientEvent.own, Bool.toNat_true]
    omega
  | @menu e m here moved =>
    obtain ⟨⟨m', message⟩, done, same⟩ := Option.map_eq_some_iff.mp moved
    cases same
    obtain ⟨still, less, _⟩ := (Menu.act_acted done).stopped running
    obtain ⟨least, notAnnouncing, notRelaying⟩ := main_of_menu m'.phase
    refine ⟨⟨still, notAnnouncing, notRelaying⟩, ?_⟩
    simp only [left, here, left_withRunning, ClientEvent.own, show MainPhase.inMenu.left = 2 from rfl]
    omega
  | @outside e m _ outside moved =>
    refine ⟨⟨Menu.step_stopped moved running, announced, relayed⟩, ?_⟩
    simp only [left, left_withRunning, outside_phase outside moved, ClientEvent.own, outside, Bool.not_true,
      Bool.toNat_false]
    omega
  | spawn here =>
    rw [Stands, here] at stands
    refine ⟨⟨running, by simp, by simp⟩, ?_⟩
    simp only [left, here, stands.1, MainPhase.left, ListenerThread.left, ClientEvent.own, Option.map_none,
      Option.map_some, Option.getD_none, Option.getD_some, Bool.toNat_true]
    omega
  | callback atThread _ moved =>
    exact ⟨⟨running, announced, relayed⟩,
      left_withThread atThread (listener_left moved ((runs _ atThread).1.trans running))⟩
  | @recvFailed l atThread receiving =>
    have inside : (ListenerThread.looping l).left = 3 := by rw [ListenerThread.left, receiving]
    exact ⟨⟨running, announced, relayed⟩, left_withThread atThread (inside ▸ by decide)⟩
  | @leave l atThread atEnd =>
    have last : (ListenerThread.looping l).left = 1 := by rw [ListenerThread.left, atEnd]
    exact ⟨⟨running, announced, relayed⟩, left_withThread atThread last.ge⟩
  | @listen created listening atThread =>
    have least : (if created && listening then ListenerThread.accepting else .returned).left ≤ 1 := by
      split_ifs <;> decide
    exact ⟨⟨running, announced, relayed⟩, left_withThread atThread (Nat.add_le_add_left least 1)⟩
  | accepted _ goesOn => simp [running] at goesOn
  | stopped atThread _ => exact ⟨⟨running, announced, relayed⟩, left_withThread atThread (Nat.le_refl 1)⟩
  | unaccepted atThread => exact ⟨⟨running, announced, relayed⟩, left_withThread atThread (Nat.le_refl 1)⟩

/-- Only `exit_user` still sends something, and that once. -/
theorem sends_menu {e : MenuEvent} {m : Menu} (stopped : p.menu.running = false) (moved : p.menu.step e = some m) :
    (framesSent ((p, .menu e) :: past)).length + m.phase.beforeExit.toNat ≤
        (framesSent past).length + p.menu.phase.beforeExit.toNat ∧
      ((∀ frame ∈ framesSent past, frame = Menu.exitFrame) →
        ∀ frame ∈ framesSent ((p, .menu e) :: past), frame = Menu.exitFrame) := by
  obtain ⟨⟨m', message⟩, done, same⟩ := Option.map_eq_some_iff.mp moved
  cases same
  obtain ⟨_, _, less, exits⟩ := (Menu.act_acted done).stopped stopped
  rw [framesSent_menu done, List.length_append]
  refine ⟨by dsimp only; omega, fun before frame member => ?_⟩
  rcases List.mem_append.mp member with now | earlier
  · exact exits frame now
  · exact before frame earlier

theorem Stopped.sends (stopped : Stopped p) (stepped : p.step setSsrc e = some p') :
    (framesSent ((p, e) :: past)).length + p'.menu.phase.beforeExit.toNat ≤
        (framesSent past).length + p.menu.phase.beforeExit.toNat ∧
      ((∀ frame ∈ framesSent past, frame = Menu.exitFrame) →
        ∀ frame ∈ framesSent ((p, e) :: past), frame = Menu.exitFrame) := by
  cases (step_moved stepped).2.2 with
  | menu _ moved => exact sends_menu stopped.running moved
  | outside _ _ moved => exact sends_menu stopped.running moved
  | _ =>
    rw [framesSent_other rfl]
    exact ⟨Nat.le_refl _, id⟩

theorem Stands.left_le (stands : p.Stands) : p.left ≤ 8 := by
  have menu : p.menu.phase.left ≤ 3 := by
    cases p.menu.phase with
    | loggingOut fromExit => cases fromExit <;> decide
    | _ => simp [MenuPhase.left]
  have thread : (p.thread.map ListenerThread.left).getD 2 ≤ 3 := by
    cases p.thread with
    | none => decide
    | some thread =>
      cases thread with
      | looping l =>
        show (ListenerThread.looping l).left ≤ 3
        rw [ListenerThread.left]
        cases l.phase <;> decide
      | _ => decide
  rw [left]
  by_cases here : p.main = .spawning
  · rw [Stands, here] at stands
    simp [here, stands.1, stands.2.1, MainPhase.left, MenuPhase.left]
  · have main : p.main.left ≤ 2 := by
      cases atMain : p.main with
      | spawning => exact absurd atMain here
      | _ => decide
    omega

/-- Once SIGINT has come and the relay is over, a client takes at most eight more steps, and sends at most the EXIT
of an `exit_user` that it is in. -/
theorem client_winds_down (before : Trail (step setSsrc) { relay := relay } history p) (stopped : Stopped p)
    (run : Trail (step setSsrc) p past q) : count (fun _ e => e.own) past ≤ 8 ∧ (framesSent past).length ≤ 1 ∧
      ∀ frame ∈ framesSent past, frame = Menu.exitFrame := by
  have along : (Stopped q ∧ q.Stands ∧ ListenerRuns q) ∧ count (fun _ e => e.own) past + q.left ≤ p.left ∧
      (framesSent past).length + q.menu.phase.beforeExit.toNat ≤ p.menu.phase.beforeExit.toNat ∧
        ∀ frame ∈ framesSent past, frame = Menu.exitFrame := by
    induction run with
    | start => exact ⟨⟨stopped, stands_of_run before, listenerRuns_of_run before⟩, by simp, by simp [framesSent_nil],
        by simp [framesSent_nil]⟩
    | next previous stepped ih =>
      obtain ⟨⟨here, stands, runs⟩, counted, sent, exits⟩ := ih
      obtain ⟨there, less⟩ := here.step stands runs stepped
      obtain ⟨fewer, after⟩ := here.sends stepped
      rw [count_cons]
      exact ⟨⟨there, stands.step stepped, runs.step stepped⟩, by omega, fewer.trans sent, after exits⟩
  have most := (stands_of_run before).left_le
  have one := Bool.toNat_le p.menu.phase.beforeExit
  exact ⟨by omega, by omega, along.2.2.2⟩

theorem step_of_act {p : ClientProcess} (goesOn : p.main ≠ .returned ∧ p.main ≠ .exited) :
    p.step setSsrc e = p.act setSsrc e := by
  rw [step, if_neg (not_or.mpr goesOn)]

theorem sendExit_isSome {m : Menu} (here : m.phase = .exiting) : (m.step (.sendExit true)).isSome = true := by
  have written : (copied "EXIT EXIT".toList).isSome = true := by
    rw [copied, if_pos (by decide)]
    rfl
  show ((if m.phase = .exiting then m.sendExit true else none).map Prod.fst).isSome = true
  rw [if_pos here, Menu.sendExit, Option.isSome_map, Option.isSome_map, written]

theorem recv_eq_none {l : Listener} (receiving : l.phase = .receiving) : l.step .recv = none ↔ l.Waits := by
  rw [Listener.step]
  constructor
  · intro none
    split_ifs at none with able
    · exact ⟨receiving, Or.inr (Option.map_eq_none_iff.mp none)⟩
    · rw [not_and, not_or, not_not, Bool.not_eq_true] at able
      exact ⟨receiving, Or.inl (able receiving)⟩
  · rintro ⟨_, ⟨empty, still⟩ | overrun⟩
    · rw [if_neg (by simp [empty, still])]
    · rw [overrun]
      split_ifs <;> rfl

theorem thread_goes_on {thread : ListenerThread} (atThread : p.thread = some thread) :
    thread.Waits ∨ ∃ e : ClientEvent, e.alone = true ∧ (p.act setSsrc e).isSome = true := by
  cases thread with
  | opening => exact Or.inr ⟨.listen true true, rfl, by rw [act, if_pos atThread]; rfl⟩
  | accepting | returned => exact Or.inl trivial
  | looping l =>
    cases here : l.phase with
    | testing => exact Or.inr ⟨.callback .test, rfl, by simp [act, atThread, Listener.step, here]⟩
    | left => exact Or.inr ⟨.leave, rfl, by simp [act, atThread, here]⟩
    | receiving =>
      by_cases waits : l.Waits
      · exact Or.inl waits
      · have able := Option.isSome_iff_ne_none.mpr ((recv_eq_none here).not.mpr waits)
        exact Or.inr ⟨.callback .recv, rfl, by simpa [act, atThread] using able⟩

theorem main_goes_on (stands : p.Stands) (stopped : Stopped p) (goesOn : p.main ≠ .returned ∧ p.main ≠ .exited) :
    p.MainWaits ∨ ∃ e : ClientEvent, e.alone = true ∧ (p.act setSsrc e).isSome = true := by
  cases here : p.main with
  | announcing => exact absurd here stopped.announced
  | relaying => exact absurd here stopped.relayed
  | spawning => exact Or.inr ⟨.spawn, rfl, by rw [act, if_pos here]; rfl⟩
  | inMenu =>
    rw [Stands, here] at stands
    cases atPhase : p.menu.phase with
    | reading | signing | loggingOut | leaving => exact Or.inl (Or.inl ⟨here, by rw [atPhase]; rfl⟩)
    | exiting =>
      refine Or.inr ⟨.menu (.sendExit true), rfl, ?_⟩
      rw [act, if_pos (Or.inl here), Option.isSome_map]
      exact sendExit_isSome atPhase
    | returned | exited => simp [atPhase, MenuPhase.main] at stands
  | closing => exact Or.inr ⟨.close, rfl, by rw [act, if_pos here]; rfl⟩
  | joining =>
    by_cases ended : p.thread = some .returned
    · exact Or.inr ⟨.join, rfl, by rw [act, if_pos ⟨here, ended⟩]; rfl⟩
    · exact Or.inl (Or.inr ⟨here, ended⟩)
  | returned => exact absurd here goesOn.1
  | exited => exact absurd here goesOn.2

/-- What the process does in `open_menu` is what a client does that leaves by `exit_user` alone. -/
def LeavesByExit (_ : ClientHistory) (p : ClientProcess) (e : ClientEvent) : Prop :=
  ∀ f ∈ menuEvent p e, Menu.LeavesByExit [] p.menu f

instance (past : ClientHistory) (p : ClientProcess) (e : ClientEvent) : Decidable (LeavesByExit past p e) :=
  inferInstanceAs (Decidable (∀ f ∈ menuEvent p e, Menu.LeavesByExit [] p.menu f))

/-- bob signs up and takes option 5, and SIGINT comes. -/
def bobStops : List ClientEvent :=
  [.announce true, .media (.recvFails none true), .spawn, .listen true true, .accept (some [.hello]), .callback .test,
    .menu (.choose (.signUpLogin true "bob".toList "pw".toList) true), .menu (.reply Outgoing.signupReply.frame),
    .menu (.choose .exit true), .menu .interrupt]

/-- `main` waits for the listener. -/
def bobWaits : List ClientEvent :=
  [.menu (.reply Outgoing.logoutReply.frame), .menu (.sendExit true), .menu (.reply Outgoing.exitReply.frame), .close]

def bobReturns : List ClientEvent := [.callback .send, .callback .recv, .callback .test, .leave, .join]

def bobStarts : ClientProcess := { relay := { buffer := [] } }

theorem bob_winds_down : ∃ history p past q,
    execute (step MediaRelay.setSsrc42) [] bobStarts bobStops = some (history, p) ∧
    execute (step MediaRelay.setSsrc42) [] p (bobWaits ++ bobReturns) = some (past, q) ∧
    count (fun _ e => e.own) past ≤ 8 ∧ (framesSent past).length ≤ 1 ∧
      ∀ frame ∈ framesSent past, frame = Menu.exitFrame := by
  have ran : (execute (step MediaRelay.setSsrc42) [] bobStarts bobStops).any (fun run =>
      decide (run.2.menu.running = false ∧ run.2.main ≠ .announcing ∧ run.2.main ≠ .relaying) &&
        (execute (step MediaRelay.setSsrc42) [] run.2 (bobWaits ++ bobReturns)).isSome) = true := by decide +kernel
  obtain ⟨history, p, done, checked⟩ := execute_check _ ran
  rw [Bool.and_eq_true, decide_eq_true_iff] at checked
  obtain ⟨⟨running, announced, relayed⟩, ends⟩ := checked
  obtain ⟨⟨past, q⟩, finished⟩ := Option.isSome_iff_exists.mp ends
  exact ⟨history, p, past, q, done, finished,
    client_winds_down (execute_trail done) ⟨running, announced, relayed⟩ (execute_trail finished)⟩

/-- The listener is in `recv`, with nothing to read and the connection open. -/
def silent (p : ClientProcess) : Bool :=
  match p.thread with
  | some (.looping l) => l.phase = .receiving && l.queue = [] && !l.shut
  | _ => false

theorem bob_returned : ∃ past p,
    execute (step MediaRelay.setSsrc42) [] bobStarts (bobStops ++ bobWaits ++ bobReturns) = some (past, p) ∧
    p.commandOpen = false ∧
      (p.mediaOpen = false ∧ p.thread = none ∧ p.listeningOpen = false ∧ p.callbackOpen = false ∨
        p.mediaOpen = true ∧ p.relay.relaying = false ∧ p.menu.phase = .returned ∧ p.thread = some .returned ∧
          (p.listeningOpen = true ↔ Listened past) ∧ (p.callbackOpen = true ↔ AcceptedLate past)) := by
  have ran : (execute (step MediaRelay.setSsrc42) [] bobStarts (bobStops ++ bobWaits ++ bobReturns)).any (fun run =>
      decide (run.2.main = .returned)) = true := by decide +kernel
  obtain ⟨past, p, done, returned⟩ := execute_check _ ran
  exact ⟨past, p, done, client_returned (execute_trail done) (of_decide_eq_true returned)⟩

end ClientProcess

end Signaling
