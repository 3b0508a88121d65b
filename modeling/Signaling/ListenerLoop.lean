import Signaling.Frames
import Signaling.Machine.Trail

namespace Signaling
open Machine CText

/-- Where `server_handler` is in its loop: about to test `running`, in `recv`, or out of it. The test
at the bottom of the loop and the one at its top are one step. -/
inductive LoopPhase
  | testing
  | receiving
  | left
  deriving DecidableEq, Repr

/-- One callback connection byte by byte: the messages that the server has still to send, the bytes
sent that no `recv` has taken, and the loop of the listener with the buffers it has dispatched. -/
structure Listener where
  unsent : List Outgoing
  queue : Text := []
  shut : Bool := false
  running : Bool := true
  phase : LoopPhase := .testing
  dispatched : List (Branch × Text) := []
  deriving DecidableEq, Repr

inductive ListenerEvent
  | send
  | shutdown
  | interrupt
  | test
  | recv
  deriving DecidableEq, Repr

namespace Listener

/-- The iteration of the loop on the string received, with the bodies of the branches left out. -/
def dispatch (l : Listener) (buffer : Text) : Listener :=
  match branch buffer with
  | .ended => { l with phase := .left }
  | .exit => { l with phase := .left, dispatched := l.dispatched ++ [(.exit, buffer)] }
  | kind => { l with phase := .testing, dispatched := l.dispatched ++ [(kind, buffer)] }

/-- The loop of `server_handler` and the sends of the server. `recv` takes what is queued, up to the
size of the buffer; nothing, once the connection is closed; and blocks otherwise. -/
def step (l : Listener) : ListenerEvent → Option Listener
  | .send =>
    match l.unsent with
    | [] => none
    | message :: rest => some { l with unsent := rest, queue := l.queue ++ message.frame }
  | .shutdown => if l.unsent = [] ∧ l.shut = false then some { l with shut := true } else none
  | .interrupt => if l.running then some { l with running := false } else none
  | .test =>
    if l.phase = .testing then some { l with phase := if l.running then .receiving else .left }
    else none
  | .recv =>
    if l.phase = .receiving ∧ (l.queue ≠ [] ∨ l.shut = true) then
      (received (l.queue.take socketBufferSize)).map
        { l with queue := l.queue.drop socketBufferSize }.dispatch
    else none

/-- The ways of `step`. -/
inductive Moved (l : Listener) : ListenerEvent → Listener → Prop
  | send {message rest} : l.unsent = message :: rest →
      Moved l .send { l with unsent := rest, queue := l.queue ++ message.frame }
  | shutdown : l.unsent = [] → l.shut = false → Moved l .shutdown { l with shut := true }
  | interrupt : l.running = true → Moved l .interrupt { l with running := false }
  | test : l.phase = .testing → Moved l .test { l with phase := if l.running then .receiving else .left }
  | recv {buffer} : l.phase = .receiving → l.queue ≠ [] ∨ l.shut = true →
      received (l.queue.take socketBufferSize) = some buffer →
      Moved l .recv ({ l with queue := l.queue.drop socketBufferSize }.dispatch buffer)

theorem step_moved {l l' : Listener} {e : ListenerEvent} (stepped : l.step e = some l') : l.Moved e l' := by
  cases e with
  | send =>
    rw [step] at stepped
    split at stepped
    · simp at stepped
    · rename_i unsent
      cases Option.some.inj stepped
      exact .send unsent
  | shutdown =>
    rw [step] at stepped
    split_ifs at stepped with idle
    cases Option.some.inj stepped
    exact .shutdown idle.1 idle.2
  | interrupt =>
    rw [step] at stepped
    split_ifs at stepped with running
    cases Option.some.inj stepped
    exact .interrupt running
  | test =>
    rw [step] at stepped
    split at stepped
    · rename_i testing
      cases Option.some.inj stepped
      exact .test testing
    · simp at stepped
  | recv =>
    rw [step] at stepped
    split_ifs at stepped with able
    obtain ⟨buffer, read, rfl⟩ := Option.map_eq_some_iff.mp stepped
    exact .recv able.1 able.2 read

/-- A bound on the steps still to come. -/
def work (l : Listener) : Nat :=
  l.unsent.length + 2 * (l.queue.length + (l.unsent.flatMap Outgoing.frame).length) +
    (if l.shut then 0 else 1) + (if l.running then 1 else 0) +
    match l.phase with
    | .testing => 2
    | .receiving => 1
    | .left => 0

end Listener

/-- The branch meant for a message. -/
def Outgoing.kind : Outgoing → Branch
  | .invite _ _ => .invite
  | .accept _ => .accept
  | .exitNotice => .exit
  | _ => .other

/-- The one iteration meant for a message. -/
def Outgoing.handled (message : Outgoing) : Branch × Text := (message.kind, ofBuffer message.frame)

/-- An INVITE whose text leaves room for a NUL, or a reply that the server forwards. -/
def Outgoing.Relayed : Outgoing → Prop
  | .invite receiver sdp => nul ∉ receiver ∧ nul ∉ sdp ∧
      ("INVITE ".toList ++ receiver ++ [' '] ++ sdp).length < socketBufferSize
  | .accept incoming => (received incoming).bind acceptTest = some true
  | _ => False

/-- What the server may write to a callback connection. -/
inductive CallbackStream : List Outgoing → Prop
  | still {calls} : (∀ message ∈ calls, message.Relayed) → CallbackStream (.hello :: calls)
  | ended {calls} : (∀ message ∈ calls, message.Relayed) →
      CallbackStream (.hello :: calls ++ [.exitNotice])

/-- No INVITE, and no reply with anything before its keyword. -/
def Outgoing.framed : Outgoing → Bool
  | .invite _ _ => false
  | .accept incoming => hasKeyword "ACCEPT".toList (ofBuffer incoming)
  | _ => true

abbrev ListenerRun (messages : List Outgoing) (past : List (Listener × ListenerEvent)) (l : Listener) :
    Prop := Trail Listener.step { unsent := messages } past l

/-- The listener handles the messages one by one, is never stuck on what has come, has handled all
that was sent when nothing is queued, and leaves only on EXIT or at the end of the connection. When
nothing more can happen it has handled them all; SIGINT apart. -/
structure Faithful (messages : List Outgoing) (l : Listener) : Prop where
  inOrder : l.dispatched <+: messages.map Outgoing.handled
  ready : l.phase = .receiving → l.queue ≠ [] ∨ l.shut = true → (l.step .recv).isSome = true
  prompt : l.phase ≠ .left → l.queue = [] →
    l.dispatched ++ l.unsent.map Outgoing.handled = messages.map Outgoing.handled
  leaves : l.phase = .left → l.running = true → l.dispatched = messages.map Outgoing.handled ∧
    (l.shut = true ∨ l.dispatched.getLast? = some Outgoing.exitNotice.handled)
  settled : (∀ e, e ≠ .interrupt → l.step e = none) → l.running = true →
    l.dispatched = messages.map Outgoing.handled

/-- Every run ends, and the listener does on all of them with the messages what was meant. -/
def Delivered (messages : List Outgoing) : Prop :=
  (∃ bound, ∀ past l, ListenerRun messages past l → past.length ≤ bound) ∧
    ∀ past l, ListenerRun messages past l → Faithful messages l

section Messages
variable {message : Outgoing} {messages : List Outgoing} {text : Text}

theorem branch_accept (keyword : hasKeyword "ACCEPT".toList text = true) : branch text = .accept := by
  obtain ⟨rest, rfl⟩ := List.isPrefixOf_iff_prefix.mp keyword
  simp [branch, hasKeyword]

theorem branch_invite (keyword : hasKeyword "INVITE".toList text = true) : branch text = .invite := by
  obtain ⟨rest, rfl⟩ := List.isPrefixOf_iff_prefix.mp keyword
  simp [branch, hasKeyword]

theorem received_zeros :
    received ((List.replicate socketBufferSize nul).take socketBufferSize) = some [] := by
  rw [List.take_replicate, Nat.min_self, received, ofBuffer_zeros,
    if_pos ⟨List.length_replicate.le, by decide⟩]

theorem ne_nil_of_size {bytes : Text} (size : bytes.length = socketBufferSize) : bytes ≠ [] := by
  rintro rfl
  exact absurd size (by decide)

/-- What one `recv` of a whole message amounts to. -/
structure Outgoing.Whole (message : Outgoing) : Prop where
  size : message.frame.length = socketBufferSize
  read : received message.frame = some (ofBuffer message.frame)
  branch : branch (ofBuffer message.frame) = message.kind
  goesOn : message.kind ≠ .ended ∧ message.kind ≠ .exit

theorem hello_whole : Outgoing.hello.Whole :=
  ⟨by decide +kernel, by decide +kernel, by decide +kernel, by decide⟩

theorem accept_whole {incoming : Text} (relayed : (Outgoing.accept incoming).Relayed)
    (framed : (Outgoing.accept incoming).framed = true) : (Outgoing.accept incoming).Whole := by
  obtain ⟨buffer, read, _⟩ := Option.bind_eq_some_iff.mp relayed
  rw [received] at read
  split_ifs at read with fits
  have size : (padded socketBufferSize incoming).length = socketBufferSize := length_padded fits.1
  refine ⟨size, ?_, ?_, by simp [Outgoing.kind]⟩
  · rw [received, Outgoing.frame, ofBuffer_padded, if_pos ⟨size.le, fits.2⟩]
  · rw [Outgoing.frame, ofBuffer_padded]
    exact branch_accept framed

theorem CallbackStream.mem (stream : CallbackStream messages) (member : message ∈ messages) :
    message = .hello ∨ message.Relayed ∨ message = .exitNotice := by
  cases stream with
  | still relayed =>
    rcases List.mem_cons.mp member with hello | inside
    · exact Or.inl hello
    · exact Or.inr (Or.inl (relayed message inside))
  | ended relayed =>
    rcases List.mem_cons.mp member with hello | inside
    · exact Or.inl hello
    · rcases List.mem_append.mp inside with inside | last
      · exact Or.inr (Or.inl (relayed message inside))
      · exact Or.inr (Or.inr (List.mem_singleton.mp last))

/-- Nothing follows EXIT. -/
theorem CallbackStream.exit_last (stream : CallbackStream messages) {before after : List Outgoing}
    (split : messages = before ++ .exitNotice :: after) : after = [] := by
  have notCalls {calls : List Outgoing} (relayed : ∀ message ∈ calls, message.Relayed) :
      Outgoing.exitNotice ∉ .hello :: calls := by
    intro member
    rcases List.mem_cons.mp member with same | inside
    · simp at same
    · exact relayed _ inside
  cases stream with
  | still relayed => exact absurd (by rw [split]; simp) (notCalls relayed)
  | ended relayed =>
    rcases List.eq_nil_or_concat after with none | ⟨earlier, last, rfl⟩
    · exact none
    · rw [List.concat_eq_append, ← List.cons_append, ← List.append_assoc] at split
      have calls := List.append_inj_left' split rfl
      exact absurd (by rw [calls]; simp) (notCalls relayed)

theorem CallbackStream.whole (stream : CallbackStream messages) (member : message ∈ messages)
    (framed : message.framed = true) (notExit : message ≠ .exitNotice) : message.Whole := by
  rcases stream.mem member with rfl | relayed | exit
  · exact hello_whole
  · cases message with
    | accept incoming => exact accept_whole relayed framed
    | invite => simp [Outgoing.framed] at framed
    | _ => exact False.elim relayed
  · exact absurd exit notExit

end Messages

/-- The first message that does not come whole, if there is one. -/
theorem framed_or_split (messages : List Outgoing) : (∀ message ∈ messages, message.framed = true) ∨
    ∃ earlier message rest, messages = earlier ++ message :: rest ∧
      (∀ other ∈ earlier, other.framed = true) ∧ message.framed = false := by
  cases found : messages.find? (fun message => !message.framed) with
  | none =>
    refine Or.inl fun message member => ?_
    simpa using List.find?_eq_none.mp found message member
  | some message =>
    obtain ⟨unframed, earlier, rest, split, before⟩ := List.find?_eq_some_iff_append.mp found
    exact Or.inr ⟨earlier, message, rest, split, fun other member => by simpa using before other member,
      by simpa using unframed⟩

/-- How far the listener is: it has dispatched the messages `done`, and the queue holds the messages
`waiting`. -/
structure Tracked (messages : List Outgoing) (l : Listener) (done waiting : List Outgoing) : Prop where
  split : messages = done ++ waiting ++ l.unsent
  queue : l.queue = waiting.flatMap Outgoing.frame
  dispatched : l.dispatched = done.map Outgoing.handled
  shut : l.shut = true → l.unsent = []
  inLoop : l.phase ≠ .left → .exitNotice ∉ done
  left : l.phase = .left → l.running = true → waiting = [] ∧ l.unsent = [] ∧
    (l.shut = true ∨ done.getLast? = some .exitNotice)

section Runs
variable {messages done waiting : List Outgoing} {l l' : Listener}

theorem dispatch_of_whole {message : Outgoing} (whole : message.Whole) :
    l.dispatch (ofBuffer message.frame) =
      { l with phase := .testing, dispatched := l.dispatched ++ [message.handled] } := by
  obtain ⟨notEnded, notExit⟩ := whole.goesOn
  rw [Listener.dispatch, whole.branch, Outgoing.handled]
  split
  · rename_i ended
    exact absurd ended notEnded
  · rename_i exit
    exact absurd exit notExit
  · rfl

theorem step_recv {buffer : Text} (receiving : l.phase = .receiving)
    (ready : l.queue ≠ [] ∨ l.shut = true)
    (read : received (l.queue.take socketBufferSize) = some buffer) : l.step .recv =
      some ({ l with queue := l.queue.drop socketBufferSize }.dispatch buffer) := by
  simp [Listener.step, receiving, ready, read]

/-- The listener handles what it receives next. -/
theorem Tracked.recv (stream : CallbackStream messages)
    (framed : ∀ message ∈ messages, message.framed = true) (tracked : Tracked messages l done waiting)
    (receiving : l.phase = .receiving) (ready : l.queue ≠ [] ∨ l.shut = true) :
    ∃ l', l.step .recv = some l' ∧ ∃ done' waiting', Tracked messages l' done' waiting' := by
  have inLoop : .exitNotice ∉ done := tracked.inLoop (by simp [receiving])
  cases waiting with
  | nil =>
    have empty : l.queue = [] := tracked.queue
    have shut : l.shut = true := ready.resolve_left (fun filled => filled empty)
    have read : received (l.queue.take socketBufferSize) = some [] := by rw [empty]; rfl
    refine ⟨_, step_recv receiving ready read, done, [], tracked.split, ?_, tracked.dispatched,
      tracked.shut, fun inside => absurd rfl inside, fun _ _ => ⟨rfl, tracked.shut shut, Or.inl shut⟩⟩
    show l.queue.drop socketBufferSize = []
    rw [empty]
    rfl
  | cons message rest =>
    have queue : l.queue = message.frame ++ rest.flatMap Outgoing.frame := tracked.queue
    have split : messages = done ++ message :: (rest ++ l.unsent) := by rw [tracked.split]; simp
    by_cases exit : message = .exitNotice
    · subst exit
      have last := stream.exit_last split
      obtain ⟨rfl, unsent⟩ := List.append_eq_nil_iff.mp last
      have bytes : l.queue = Outgoing.exitNotice.frame := by simpa using queue
      have read : received (l.queue.take socketBufferSize) = some "EXIT".toList := by
        rw [bytes]
        decide
      refine ⟨_, step_recv receiving ready read, done ++ [.exitNotice], [], ?_, ?_, ?_, tracked.shut,
        fun inside => absurd rfl inside, fun _ _ => ⟨rfl, unsent, Or.inr (by simp)⟩⟩
      · show messages = _ ++ l.unsent
        rw [split, unsent]
        simp
      · show l.queue.drop socketBufferSize = []
        rw [bytes]
        rfl
      · show l.dispatched ++ _ = _
        rw [tracked.dispatched, List.map_append]
        rfl
    · have member : message ∈ messages := by rw [split]; simp
      have whole := stream.whole member (framed message member) exit
      have head : l.queue.take socketBufferSize = message.frame := by
        rw [queue, List.take_left' whole.size]
      have tail : l.queue.drop socketBufferSize = rest.flatMap Outgoing.frame := by
        rw [queue, List.drop_left' whole.size]
      have read : received (l.queue.take socketBufferSize) = some (ofBuffer message.frame) := by
        rw [head, whole.read]
      refine ⟨_, step_recv receiving ready read, done ++ [message], rest, ?_⟩
      rw [dispatch_of_whole whole]
      refine ⟨?_, tail, ?_, tracked.shut, ?_, by simp⟩
      · rw [split]
        simp
      · rw [tracked.dispatched, List.map_append]
        rfl
      · intro _ member
        rcases List.mem_append.mp member with earlier | same
        · exact inLoop earlier
        · exact exit (List.mem_singleton.mp same).symm

theorem Tracked.step {e : ListenerEvent} (stream : CallbackStream messages)
    (framed : ∀ message ∈ messages, message.framed = true) (tracked : Tracked messages l done waiting)
    (stepped : l.step e = some l') : ∃ done' waiting', Tracked messages l' done' waiting' := by
  cases Listener.step_moved stepped with
  | @send message rest unsent =>
    refine ⟨done, waiting ++ [message], ?_, ?_, tracked.dispatched, ?_, tracked.inLoop, ?_⟩
    · rw [tracked.split, unsent]
      simp
    · simp [tracked.queue]
    · intro shut
      simp [tracked.shut shut] at unsent
    · intro left running
      simp [(tracked.left left running).2.1] at unsent
  | shutdown sent =>
    exact ⟨done, waiting, tracked.split, tracked.queue, tracked.dispatched, fun _ => sent,
      tracked.inLoop, fun left running => (tracked.left left running).imp id fun rest =>
        rest.imp id fun _ => Or.inl rfl⟩
  | interrupt =>
    exact ⟨done, waiting, tracked.split, tracked.queue, tracked.dispatched, tracked.shut,
      tracked.inLoop, fun _ running => absurd running (by simp)⟩
  | test testing =>
    refine ⟨done, waiting, tracked.split, tracked.queue, tracked.dispatched, tracked.shut,
      fun _ => tracked.inLoop (by simp [testing]), fun left running => ?_⟩
    have still : l.running = true := running
    simp [still] at left
  | recv receiving able =>
    obtain ⟨next, same, kept⟩ := tracked.recv stream framed receiving able
    cases Option.some.inj (same.symm.trans stepped)
    exact kept

theorem tracked_of_run {past : List (Listener × ListenerEvent)} (stream : CallbackStream messages)
    (framed : ∀ message ∈ messages, message.framed = true) (run : ListenerRun messages past l) :
    ∃ done waiting, Tracked messages l done waiting := by
  refine run.invariant (fun _ l => ∃ done waiting, Tracked messages l done waiting) ?_ ?_
  · exact ⟨[], [], rfl, rfl, rfl, by simp, by simp, by simp⟩
  · rintro _ _ _ _ _ ⟨done, waiting, tracked⟩ stepped
    exact tracked.step stream framed stepped

theorem Tracked.leaves (tracked : Tracked messages l done waiting) (left : l.phase = .left)
    (running : l.running = true) : l.dispatched = messages.map Outgoing.handled ∧
      (l.shut = true ∨ l.dispatched.getLast? = some Outgoing.exitNotice.handled) := by
  obtain ⟨rfl, unsent, reason⟩ := tracked.left left running
  have all : messages = done := by rw [tracked.split, unsent]; simp
  rw [tracked.dispatched, all]
  refine ⟨rfl, reason.imp id fun last => ?_⟩
  rw [List.getLast?_map, last]
  rfl

theorem Tracked.faithful (stream : CallbackStream messages)
    (framed : ∀ message ∈ messages, message.framed = true) (tracked : Tracked messages l done waiting) :
    Faithful messages l where
  inOrder := by
    rw [tracked.split, tracked.dispatched, List.append_assoc, List.map_append]
    exact List.prefix_append _ _
  ready receiving some := by
    obtain ⟨next, same, _⟩ := tracked.recv stream framed receiving some
    rw [same]
    rfl
  prompt _ empty := by
    have none : waiting = [] := by
      cases waiting with
      | nil => rfl
      | cons message rest =>
        have bytes := tracked.queue
        rw [empty, List.flatMap_cons] at bytes
        have blank : message.frame = [] := (List.append_eq_nil_iff.mp bytes.symm).1
        by_cases exit : message = .exitNotice
        · simp [exit, Outgoing.frame] at blank
        · have member : message ∈ messages := by rw [tracked.split]; simp
          exact absurd blank (ne_nil_of_size (stream.whole member (framed message member) exit).size)
    rw [tracked.dispatched, tracked.split, none]
    simp
  leaves := tracked.leaves
  settled stuck running := by
    cases at_ : l.phase with
    | left => exact (tracked.leaves at_ running).1
    | testing =>
      have blocked := stuck .test (by simp)
      simp [Listener.step, at_] at blocked
    | receiving =>
      have unsent : l.unsent = [] := by
        have blocked := stuck .send (by simp)
        simp only [Listener.step] at blocked
        split at blocked
        · assumption
        · simp at blocked
      have shut : l.shut = true := by
        have blocked := stuck .shutdown (by simp)
        simpa [Listener.step, unsent] using blocked
      obtain ⟨next, same, _⟩ := tracked.recv stream framed at_ (Or.inr shut)
      rw [stuck .recv (by simp)] at same
      simp at same

/-- Three steps of a listener that keeps up with the server: the send, the test and the `recv`. -/
theorem deliver {message : Outgoing} {rest : List Outgoing} {buffer : Text}
    {past : List (Listener × ListenerEvent)} {dispatched : List (Branch × Text)}
    (run : ListenerRun messages past { unsent := message :: rest, dispatched := dispatched })
    (filled : message.frame ≠ [])
    (read : received (message.frame.take socketBufferSize) = some buffer) :
    ∃ past, ListenerRun messages past
      (Listener.dispatch { unsent := rest, queue := message.frame.drop socketBufferSize,
                           phase := .receiving, dispatched := dispatched } buffer) := by
  have sent := run.next (e := .send) rfl
  have tested := sent.next (e := .test) rfl
  exact ⟨_, tested.next (e := .recv) (step_recv rfl (Or.inl filled) read)⟩

/-- A listener that keeps up handles messages that come whole. -/
theorem deliver_all {earlier rest : List Outgoing} {past : List (Listener × ListenerEvent)}
    {dispatched : List (Branch × Text)} (whole : ∀ message ∈ earlier, message.Whole)
    (run : ListenerRun messages past { unsent := earlier ++ rest, dispatched := dispatched }) :
    ∃ past, ListenerRun messages past
      { unsent := rest, dispatched := dispatched ++ earlier.map Outgoing.handled } := by
  induction earlier generalizing past dispatched with
  | nil => exact ⟨past, by simpa using run⟩
  | cons message earlier ih =>
    have mine := whole message List.mem_cons_self
    have bytes : message.frame.take socketBufferSize = message.frame := List.take_of_length_le mine.size.le
    obtain ⟨past', next⟩ := deliver run (ne_nil_of_size mine.size) (by rw [bytes, mine.read])
    rw [dispatch_of_whole mine, List.drop_eq_nil_of_le mine.size.le] at next
    obtain ⟨past'', all⟩ := ih (fun other member => whole other (List.mem_cons_of_mem _ member)) next
    exact ⟨past'', by simpa using all⟩

/-- An INVITE comes as its text and then a buffer of zeros, on which the listener leaves. -/
theorem not_faithful_invite {receiver sdp : Text} {rest : List Outgoing}
    {past : List (Listener × ListenerEvent)} {dispatched : List (Branch × Text)}
    (relayed : (Outgoing.invite receiver sdp).Relayed)
    (run : ListenerRun messages past { unsent := .invite receiver sdp :: rest, dispatched := dispatched }) :
    ∃ past l, ListenerRun messages past l ∧ ¬Faithful messages l := by
  obtain ⟨freeReceiver, freeSdp, fits⟩ := relayed
  generalize whole : "INVITE ".toList ++ receiver ++ [' '] ++ sdp = text at fits
  have frame : (Outgoing.invite receiver sdp).frame = padded (socketBufferSize * 2) text := by
    rw [← whole]
    rfl
  have free : nul ∉ text := by
    rw [← whole]
    simp only [List.mem_append, not_or]
    exact ⟨⟨⟨by decide, freeReceiver⟩, by decide⟩, freeSdp⟩
  have kind : branch text = .invite := by
    refine branch_invite (List.isPrefixOf_iff_prefix.mpr ⟨' ' :: receiver ++ [' '] ++ sdp, ?_⟩)
    rw [← whole]
    rfl
  have half : socketBufferSize ≤ socketBufferSize * 2 := by decide
  have read : received ((Outgoing.invite receiver sdp).frame.take socketBufferSize) = some text := by
    rw [frame, received_take_padded free half, if_pos fits]
  obtain ⟨past', next⟩ := deliver run (by simp [Outgoing.frame, padded]) read
  rw [frame, drop_padded fits.le half, show socketBufferSize * 2 - socketBufferSize = socketBufferSize from rfl]
    at next
  simp only [Listener.dispatch, kind] at next
  let stale : Listener := { unsent := rest, queue := List.replicate socketBufferSize nul,
                            phase := .receiving, dispatched := dispatched ++ [(.invite, text)] }
  have tested : ListenerRun messages _ stale := next.next (e := .test) rfl
  have gone : stale.step .recv = some ({ stale with queue := _ }.dispatch []) :=
    step_recv rfl (Or.inl (ne_nil_of_size List.length_replicate)) received_zeros
  refine ⟨_, _, tested.next gone, fun faithful => ?_⟩
  obtain ⟨_, shut | last⟩ := faithful.leaves rfl rfl
  · exact Bool.false_ne_true shut
  · have kept : (dispatched ++ [(Branch.invite, text)]).getLast? = some Outgoing.exitNotice.handled := last
    simp [Outgoing.handled, Outgoing.kind] at kept

/-- A reply with blanks before its keyword is no ACCEPT for the listener. -/
theorem not_faithful_accept {incoming : Text} {earlier rest : List Outgoing}
    {past : List (Listener × ListenerEvent)} (relayed : (Outgoing.accept incoming).Relayed)
    (unframed : (Outgoing.accept incoming).framed = false)
    (split : messages = earlier ++ .accept incoming :: rest)
    (run : ListenerRun messages past { unsent := .accept incoming :: rest,
                                       dispatched := earlier.map Outgoing.handled }) :
    ∃ past l, ListenerRun messages past l ∧ ¬Faithful messages l := by
  obtain ⟨buffer, read, accepted⟩ := Option.bind_eq_some_iff.mp relayed
  have fits := read
  rw [received] at fits
  split_ifs at fits with room
  cases Option.some.inj fits
  have whole : (Outgoing.accept incoming).frame.take socketBufferSize = padded socketBufferSize incoming :=
    List.take_of_length_le (length_padded room.1).le
  have reread : received ((Outgoing.accept incoming).frame.take socketBufferSize) =
      some (ofBuffer incoming) := by
    rw [whole, received, ofBuffer_padded, if_pos ⟨(length_padded room.1).le, room.2⟩]
  have kind : branch (ofBuffer incoming) = .other := by
    refine (branch_of_accepted accepted).resolve_left fun accept => ?_
    rw [branch] at accept
    split_ifs at accept with _ _ _ keyword
    exact absurd (unframed.symm.trans keyword) (by simp)
  obtain ⟨past', next⟩ := deliver run (ne_nil_of_size (length_padded room.1)) reread
  simp only [Listener.dispatch, kind] at next
  refine ⟨_, _, next, fun faithful => ?_⟩
  have inOrder := faithful.inOrder
  rw [split, List.map_append, List.prefix_append_right_inj, List.map_cons, List.cons_prefix_cons] at inOrder
  have same := inOrder.1
  simp [Outgoing.handled, Outgoing.kind] at same

theorem work_dispatch (buffer : Text) (receiving : l.phase = .receiving) :
    (l.dispatch buffer).work + 1 ≤ l.work + (if branch buffer = .ended then 0 else 2) := by
  cases kind : branch buffer <;> simp [Listener.dispatch, Listener.work, kind, receiving]

/-- Every step leaves fewer to do. -/
theorem work_decreases {e : ListenerEvent} (stepped : l.step e = some l') : l'.work < l.work := by
  cases Listener.step_moved stepped with
  | send unsent =>
    simp only [Listener.work, unsent, List.length_append, List.flatMap_cons, List.length_cons]
    omega
  | shutdown _ open_ => simp [Listener.work, open_]
  | interrupt running => simp [Listener.work, running]
  | test testing =>
    cases running : l.running <;> simp [Listener.work, testing, running]
  | @recv buffer receiving _ read =>
    have taken : (l.queue.drop socketBufferSize).length = l.queue.length - socketBufferSize :=
      List.length_drop
    have size : 0 < socketBufferSize := by decide
    have bound := work_dispatch (l := { l with queue := l.queue.drop socketBufferSize }) buffer receiving
    by_cases ended : branch buffer = .ended
    · simp only [ended, if_true, Listener.work, taken] at bound ⊢
      omega
    · have filled : 0 < l.queue.length := by
        refine List.length_pos_of_ne_nil fun empty => ended ?_
        rw [empty] at read
        cases Option.some.inj read
        rfl
      simp only [ended, if_false, Listener.work, taken] at bound ⊢
      omega

theorem run_bounded {past : List (Listener × ListenerEvent)} (run : ListenerRun messages past l) :
    past.length + l.work ≤ Listener.work { unsent := messages } :=
  run.length_add_le fun _ _ _ => work_decreases

/-- The listener does with the messages what was meant exactly if there is no INVITE among them, and
no forwarded reply with anything before its keyword. -/
theorem delivered_iff (stream : CallbackStream messages) :
    Delivered messages ↔ ∀ message ∈ messages, message.framed = true := by
  constructor
  · rintro ⟨_, faithful⟩
    rcases framed_or_split messages with framed | ⟨earlier, message, rest, split, before, unframed⟩
    · exact framed
    have member : message ∈ messages := by rw [split]; simp
    have whole (other : Outgoing) (early : other ∈ earlier) : other.Whole := by
      refine stream.whole (by rw [split]; simp [early]) (before other early) ?_
      rintro rfl
      obtain ⟨a, b, rfl⟩ := List.append_of_mem early
      have after : messages = a ++ .exitNotice :: (b ++ message :: rest) := by rw [split]; simp
      have none := stream.exit_last after
      simp at none
    have atStart : ListenerRun messages [] { unsent := earlier ++ message :: rest } := split ▸ .start
    obtain ⟨past, run⟩ := deliver_all whole atStart
    have bad : ∃ past l, ListenerRun messages past l ∧ ¬Faithful messages l := by
      cases message with
      | invite receiver sdp =>
        rcases stream.mem member with hello | relayed | exit
        · simp at hello
        · exact not_faithful_invite relayed run
        · simp at exit
      | accept incoming =>
        rcases stream.mem member with hello | relayed | exit
        · simp at hello
        · exact not_faithful_accept relayed unframed split run
        · simp at exit
      | _ => simp [Outgoing.framed] at unframed
    obtain ⟨past, l, run, unfaithful⟩ := bad
    exact absurd (faithful past l run) unfaithful
  · intro framed
    refine ⟨⟨_, fun past l run => (Nat.le_add_right _ _).trans (run_bounded run)⟩, fun past l run => ?_⟩
    obtain ⟨done, waiting, tracked⟩ := tracked_of_run stream framed run
    exact tracked.faithful stream framed

end Runs

theorem accept_stream_delivered :
    Delivered [.hello, .accept "ACCEPT sdp".toList, .accept (clientFrame "ACCEPT"), .exitNotice] := by
  have relayed : ∀ message ∈ [Outgoing.accept "ACCEPT sdp".toList, .accept (clientFrame "ACCEPT")],
      message.Relayed := by
    simp only [List.forall_mem_cons, List.not_mem_nil, false_implies, implies_true, and_true,
      Outgoing.Relayed]
    decide +kernel
  exact (delivered_iff (.ended relayed)).mpr (by decide +kernel)

/-- The server greets, sends one INVITE and keeps the connection open. The listener keeps up. -/
def oneInviteRun : List ListenerEvent := [.send, .test, .recv, .send, .test, .recv, .test, .recv]

theorem one_invite_not_delivered :
    CallbackStream [.hello, .invite "bob".toList "sdp".toList] ∧
      ¬Delivered [.hello, .invite "bob".toList "sdp".toList] := by
  refine ⟨.still ?_, ?_⟩
  · simp only [List.forall_mem_cons, List.not_mem_nil, false_implies, implies_true, and_true]
    exact ⟨by decide, by decide, by decide +kernel⟩
  · rintro ⟨_, faithful⟩
    have ran : (execute Listener.step [] { unsent := [.hello, .invite "bob".toList "sdp".toList] }
        oneInviteRun).any (fun r => decide (r.2.phase = .left ∧ r.2.running = true ∧ r.2.shut = false ∧
          r.2.dispatched.getLast? ≠ some Outgoing.exitNotice.handled)) = true := by
      decide +kernel
    obtain ⟨past, l, done, checked⟩ := execute_check _ ran
    obtain ⟨left, running, open_, notExit⟩ := of_decide_eq_true checked
    obtain ⟨_, shut | exit⟩ := (faithful past l (execute_trail done)).leaves left running
    · exact absurd (open_.symm.trans shut) Bool.false_ne_true
    · exact notExit exit

end Signaling
