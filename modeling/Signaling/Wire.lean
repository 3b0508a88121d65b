import Signaling.CallbackQueues
import Signaling.InviteRelay
import Signaling.Machine.Simulation
import Signaling.Network
import Signaling.OutboundQueues

namespace Signaling
open Machine CText

/-- The server with the listeners of its clients byte by byte. `outbound` keeps all that the server has
written to a connection, `taken` counts the bytes of it that the listener has received, and `stored` is what
its branches have put into `remote_sdp`, each text with the place in the stream where the bytes began. -/
structure Wire extends Server where
  taken : Endpoint → Nat := fun _ => 0
  stored : Endpoint → List (Nat × Text) := fun _ => []

/-- A step of the server or of a listener. `recv` is an iteration of the loop of `server_handler`, with the
text of `local_sdp` or an exception in the branch; `quit` is all else that ends the loop: SIGINT at the
client, a `recv` that fails, a connection that is closed. -/
inductive WireEvent
  | server (event : Event)
  | recv (e : Endpoint) (localSdp : Option Text)
  | quit (e : Endpoint)
  deriving DecidableEq, Repr

def bytesOf (messages : List (Tagged Outgoing)) : Text := messages.flatMap (·.content.frame)

/-- The INVITE number of the message that begins at the place. -/
def inviteAt : List (Tagged Outgoing) → Nat → Option Nat
  | [], _ => none
  | message :: rest, place => if place = 0 then message.invite else inviteAt rest (place - message.content.frame.length)

namespace Wire

def initial : Wire := {}

/-- What the next `recv` of the listener returns: all that is queued, up to the size of its buffer. -/
def nextRecv (w : Wire) (e : Endpoint) : Text := ((bytesOf (w.outbound e)).drop (w.taken e)).take socketBufferSize

def take (w : Wire) (e : Endpoint) : Wire :=
  { w with taken := Function.update w.taken e (w.taken e + (w.nextRecv e).length) }

def store (w : Wire) (e : Endpoint) (place : Nat) (sdp : Text) : Wire :=
  { w with stored := Function.update w.stored e (w.stored e ++ [(place, sdp)]) }

def leave (w : Wire) (e : Endpoint) : Wire := { w with peer := Function.update w.peer e .gone }

def answer (w : Wire) (e : Endpoint) (reply : Tagged Text) : Wire :=
  { w with inbound := Function.update w.inbound e (w.inbound e ++ [reply]) }

/-- The branches of `server_handler` on the string received. An exception comes after `remote_sdp` is set
and ends the whole client. -/
def dispatch (w : Wire) (e : Endpoint) (buffer : Text) (localSdp : Option Text) : Option Wire :=
  match branch buffer with
  | .ended | .exit => some ((w.take e).leave e)
  | .invite => (decodeInvite buffer).bind fun fields =>
    let kept := (w.take e).store e (w.taken e) fields.2
    match localSdp with
    | some sdp => (acceptFrame sdp).map fun frame => kept.answer e ⟨frame, inviteAt (w.outbound e) (w.taken e)⟩
    | none => some (kept.leave e)
  | .accept => (decodeAccept buffer).map fun sdp =>
    let kept := (w.take e).store e (w.taken e) sdp
    if localSdp.isSome then kept else kept.leave e
  | .other => some (w.take e)

def step (w : Wire) : WireEvent → Option Wire
  | .server (.listener _ _) => none
  | .server event => (w.toServer.step event).map fun t => { w with toServer := t }
  | .recv e localSdp =>
    if w.peer e = .listening ∧ w.nextRecv e ≠ [] then
      (received (w.nextRecv e)).bind fun buffer => w.dispatch e buffer localSdp
    else none
  | .quit e => if w.peer e = .listening then some (w.leave e) else none

end Wire

abbrev WireRun := Trail Wire.step Wire.initial

/-- Events of the server in a run with listeners that receive bytes. -/
def overWire (events : List Event) : List WireEvent := events.map .server

/-- What the server itself did in a run. -/
def served (past : List (Wire × WireEvent)) : History :=
  past.filterMap fun taken =>
    match taken.2 with
    | .server event => some (taken.1.toServer, event)
    | _ => none

/-- A message as the server may write it: an INVITE has the fields of a CALL that could be read, and a reply
is forwarded when it has passed the test. -/
def Outgoing.Written : Outgoing → Prop
  | .invite receiver sdp => (∀ c ∈ receiver, isSpace c = false) ∧ (receiver = [] → ∀ c ∈ sdp, isSpace c = true) ∧
      receiver.length < fieldSize ∧ nul ∉ receiver ∧ nul ∉ sdp
  | .accept incoming => (received incoming).bind acceptTest = some true
  | _ => True

/-- The listener takes the message in one `recv` and goes on: it is no INVITE, no EXIT, and not the word
ACCEPT alone. -/
def Outgoing.Passed : Outgoing → Prop
  | .invite _ _ | .exitNotice => False
  | .accept incoming => ofBuffer incoming ≠ "ACCEPT".toList
  | _ => True

instance : ∀ message : Outgoing, Decidable message.Passed
  | .invite _ _ | .exitNotice => isFalse id
  | .accept incoming => inferInstanceAs (Decidable (ofBuffer incoming ≠ "ACCEPT".toList))
  | .signupReply | .loginReply | .logoutReply | .exitReply | .hello => isTrue trivial

def Phase.Sound : Phase → Prop
  | .replying message => message.Written
  | .calling receiver sdp | .looking receiver sdp | .inviting receiver sdp _ _ => (Outgoing.invite receiver sdp).Written
  | .forwarding incoming _ => (Outgoing.accept incoming.content).Written
  | _ => True

/-- How far a listener is: it has taken some messages whole, or the first half of an INVITE after them. The
rest is what a listener of whole messages has still before it. -/
inductive Position (log : List (Tagged Outgoing)) (taken : Nat) : List (Tagged Outgoing) → Prop
  | whole {done rest} : log = done ++ rest → (∀ message ∈ done, message.content.Passed) →
      taken = (bytesOf done).length → Position log taken rest
  | halfway {done receiver sdp number rest} : log = done ++ ⟨.invite receiver sdp, number⟩ :: rest →
      (∀ message ∈ done, message.content.Passed) →
      ("INVITE ".toList ++ receiver ++ [' '] ++ sdp).length < socketBufferSize →
      taken = (bytesOf done).length + socketBufferSize → Position log taken rest

/-- Against a server whose listeners take whole messages: the same messages are before each listener. -/
def Wire.behind (w : Wire) (e : Endpoint) (queue log : List (Tagged Outgoing)) : Prop :=
  w.peer e = .gone ∨ Position log (w.taken e) queue

/-- The server with listeners of whole messages, against that with listeners of bytes. -/
abbrev Server.Below (s : Server) (w : Wire) : Prop := s.Alike w.behind w.toServer

/-- What a step on bytes is on messages. The second half of an INVITE is an empty string to the listener. -/
def Wire.shown (w : Wire) : WireEvent → Option Event
  | .server event => some event
  | .recv e localSdp =>
    some (.listener e (if received (w.nextRecv e) = some [] then .quit else .dispatch localSdp))
  | .quit e => some (.listener e .quit)

section Messages
variable {message : Outgoing} {tail receiver sdp : Text}

/-- What the iteration on a message that passes gets, and which branch it takes. -/
structure Outgoing.Reads (message : Outgoing) (buffer : Text) : Prop where
  size : message.frame.length = socketBufferSize
  read : received (message.frame.take socketBufferSize) = some buffer
  goesOn : branch buffer = .other ∨ ∃ sdp, branch buffer = .accept ∧ decodeAccept buffer = some sdp

theorem reads_of_passed (written : message.Written) (passed : message.Passed) : ∃ buffer, message.Reads buffer := by
  have fixed {message : Outgoing} (size : message.frame.length = socketBufferSize)
      (read : received message.frame = some (ofBuffer message.frame))
      (other : branch (ofBuffer message.frame) = .other) : ∃ buffer, message.Reads buffer :=
    ⟨_, size, by rw [List.take_of_length_le size.le, read], Or.inl other⟩
  cases message with
  | invite | exitNotice => exact False.elim passed
  | signupReply | loginReply | logoutReply | exitReply | hello =>
    exact fixed (by decide +kernel) (by decide +kernel) (by decide +kernel)
  | accept incoming =>
    obtain ⟨buffer, read, tested⟩ := Option.bind_eq_some_iff.mp written
    have string := read
    rw [received] at string
    split_ifs at string with fits
    cases Option.some.inj string
    have size : (Outgoing.accept incoming).frame.length = socketBufferSize := length_padded fits.1
    refine ⟨ofBuffer incoming, size, ?_, ?_⟩
    · rw [List.take_of_length_le size.le, received, Outgoing.frame, ofBuffer_padded, length_padded fits.1,
        if_pos ⟨le_rfl, fits.2⟩]
    · rcases branch_of_accepted tested with accept | other
      · refine Or.inr ⟨_, accept, if_neg fun short => passed ?_⟩
        have keyword : hasKeyword "ACCEPT".toList (ofBuffer incoming) = true := by
          unfold branch at accept
          split_ifs at accept with _ _ _ found
          exact found
        have starts : "ACCEPT".toList <+: ofBuffer incoming := List.isPrefixOf_iff_prefix.mp keyword
        exact (starts.eq_of_length_le (Nat.le_of_lt_succ short)).symm
      · exact Or.inl other

theorem length_invite : socketBufferSize * 2 ≤ (Outgoing.invite receiver sdp).frame.length := le_length_padded _ _

theorem frame_invite_branch : branch ("INVITE ".toList ++ receiver ++ [' '] ++ sdp) = .invite := by
  simp [branch, hasKeyword]

/-- What comes after a message is not read with it, or not as a part of the string. -/
theorem read_alone (message : Outgoing) (tail : Text) : received ((message.frame ++ tail).take socketBufferSize) =
    received (message.frame.take socketBufferSize) := by
  have long {message : Outgoing} (enough : socketBufferSize ≤ message.frame.length) :
      received ((message.frame ++ tail).take socketBufferSize) = received (message.frame.take socketBufferSize) := by
    rw [List.take_append_of_le_length enough]
  cases message with
  | exitNotice =>
    have bytes : (Outgoing.exitNotice.frame ++ tail).take socketBufferSize =
        Outgoing.exitNotice.frame ++ tail.take (socketBufferSize - Outgoing.exitNotice.frame.length) := by
      rw [List.take_append, List.take_of_length_le (by decide)]
    have string (rest : Text) : ofBuffer (Outgoing.exitNotice.frame ++ rest) = "EXIT".toList := by
      rw [ofBuffer_append, if_pos (by decide), List.append_nil]
      decide
    have alone : received (Outgoing.exitNotice.frame.take socketBufferSize) = some "EXIT".toList := by decide
    rw [alone, received, bytes, string, ← bytes, if_pos ⟨List.length_take_le _ _, by decide⟩]
  | invite => exact long ((by decide : socketBufferSize ≤ socketBufferSize * 2).trans length_invite)
  | signupReply | loginReply | logoutReply | exitReply | hello | accept => exact long (le_length_padded _ _)

/-- The first half of an INVITE. -/
theorem frame_invite_read (written : (Outgoing.invite receiver sdp).Written) :
    received ((Outgoing.invite receiver sdp).frame.take socketBufferSize) =
      if ("INVITE ".toList ++ receiver ++ [' '] ++ sdp).length < socketBufferSize then
        some ("INVITE ".toList ++ receiver ++ [' '] ++ sdp) else none := by
  obtain ⟨_, _, _, freeReceiver, freeSdp⟩ := written
  have free : nul ∉ "INVITE ".toList ++ receiver ++ [' '] ++ sdp := by
    have whole := nul_notMem_fields (by decide : nul ∉ "INVITE ".toList) freeReceiver freeSdp
    simpa using whole
  rw [Outgoing.frame, received_take_padded free (by decide)]

/-- The second half of an INVITE whose text fits the first one is zeros. -/
theorem drop_frame_invite (short : ("INVITE ".toList ++ receiver ++ [' '] ++ sdp).length < socketBufferSize) :
    ((Outgoing.invite receiver sdp).frame ++ tail).drop socketBufferSize =
      List.replicate socketBufferSize nul ++ tail := by
  have size : (Outgoing.invite receiver sdp).frame.length = socketBufferSize * 2 :=
    length_padded (short.le.trans (by decide))
  have zeros : (Outgoing.invite receiver sdp).frame.drop socketBufferSize = List.replicate socketBufferSize nul := by
    rw [Outgoing.frame, drop_padded short.le (by decide)]
    rfl
  rw [List.drop_append_of_le_length (by rw [size]; decide), zeros]

theorem frame_invite_rest (short : ("INVITE ".toList ++ receiver ++ [' '] ++ sdp).length < socketBufferSize) :
    received ((((Outgoing.invite receiver sdp).frame ++ tail).drop socketBufferSize).take socketBufferSize) = some [] := by
  rw [drop_frame_invite short, List.take_left' List.length_replicate, received, ofBuffer_zeros, List.length_replicate]
  decide

end Messages

section Places
variable {log done rest queue : List (Tagged Outgoing)} {message : Tagged Outgoing} {taken : Nat}

@[simp] theorem bytesOf_append : bytesOf (done ++ rest) = bytesOf done ++ bytesOf rest := List.flatMap_append

theorem length_bytesOf_le {log : List (Tagged Outgoing)} (starts : done <+: log) :
    (bytesOf done).length ≤ (bytesOf log).length := by
  obtain ⟨rest, rfl⟩ := starts
  rw [bytesOf_append, List.length_append]
  exact Nat.le_add_right _ _

@[simp] theorem bytesOf_cons : bytesOf (message :: rest) = message.content.frame ++ bytesOf rest := List.flatMap_cons

theorem length_frame_pos (message : Outgoing) : 0 < message.frame.length := by
  cases message with
  | exitNotice => decide
  | invite => exact lt_of_lt_of_le (by decide) (le_length_padded _ _)
  | signupReply | loginReply | logoutReply | exitReply | hello | accept =>
    exact lt_of_lt_of_le (by decide) (le_length_padded socketBufferSize _)

/-- The number of bytes tells how many messages there are. -/
theorem bytesOf_injective {one two : List (Tagged Outgoing)} (first : one <+: log) (second : two <+: log)
    (same : (bytesOf one).length = (bytesOf two).length) : one = two := by
  have short {one two : List (Tagged Outgoing)} (inside : one <+: two)
      (same : (bytesOf one).length = (bytesOf two).length) : one = two := by
    obtain ⟨more, rfl⟩ := inside
    cases more with
    | nil => rw [List.append_nil]
    | cons message more =>
      have some_ := length_frame_pos message.content
      simp only [bytesOf_append, bytesOf_cons, List.length_append] at same
      omega
  rcases List.prefix_or_prefix_of_prefix first second with inside | inside
  · exact short inside same
  · exact (short inside same.symm).symm

/-- Fewer bytes are those of fewer messages. -/
theorem prefix_of_length_le {one two : List (Tagged Outgoing)} (first : one <+: log) (second : two <+: log)
    (less : (bytesOf one).length ≤ (bytesOf two).length) : one <+: two := by
  rcases List.prefix_or_prefix_of_prefix first second with inside | inside
  · exact inside
  · obtain ⟨more, whole⟩ := inside
    have grown : (bytesOf two).length ≤ (bytesOf one).length := by simp [← whole]
    exact (bytesOf_injective first second (le_antisymm less grown)) ▸ List.prefix_rfl

theorem Position.append (position : Position log taken queue) : Position (log ++ [message]) taken (queue ++ [message]) := by
  cases position with
  | whole split passed place => exact .whole (by rw [split, List.append_assoc]) passed place
  | halfway split passed short place =>
    exact .halfway (by rw [split, List.append_assoc, List.cons_append]) passed short place

theorem Wire.behind_appendable (w : Wire) : Appendable w.behind :=
  fun _ _ _ _ position => position.imp_right Position.append

theorem inviteAt_whole : inviteAt (done ++ message :: rest) (bytesOf done).length = message.invite := by
  induction done with
  | nil => rfl
  | cons first done ih =>
    have some_ := length_frame_pos first.content
    rw [List.cons_append, inviteAt, bytesOf_cons, List.length_append, if_neg (by omega), Nat.add_sub_cancel_left, ih]

/-- The bytes that come next to a listener that has taken some messages whole. -/
theorem Wire.nextRecv_whole {w : Wire} {e : Endpoint} (split : w.outbound e = done ++ rest)
    (place : w.taken e = (bytesOf done).length) : w.nextRecv e = (bytesOf rest).take socketBufferSize := by
  rw [nextRecv, split, place, bytesOf_append, List.drop_left]

theorem Wire.nextRecv_halfway {w : Wire} {e : Endpoint} {receiver sdp : Text} {number : Option Nat}
    (split : w.outbound e = done ++ ⟨.invite receiver sdp, number⟩ :: rest)
    (place : w.taken e = (bytesOf done).length + socketBufferSize) : w.nextRecv e =
      (((Outgoing.invite receiver sdp).frame ++ bytesOf rest).drop socketBufferSize).take socketBufferSize := by
  rw [nextRecv, split, place, bytesOf_append, bytesOf_cons, ← List.drop_drop, List.drop_left]

/-- What is queued for a listener are the messages before it, after the zeros of an INVITE if it has taken half of
one. -/
theorem Position.queued {log queue : List (Tagged Outgoing)} {taken : Nat} (position : Position log taken queue) :
    (bytesOf log).drop taken = bytesOf queue ∨
      (bytesOf log).drop taken = List.replicate socketBufferSize nul ++ bytesOf queue := by
  cases position with
  | whole split _ place => exact Or.inl (by rw [split, place, bytesOf_append, List.drop_left])
  | halfway split _ short place =>
    exact Or.inr (by
      rw [split, place, bytesOf_append, bytesOf_cons, ← List.drop_drop, List.drop_left, drop_frame_invite short])

end Places

section Steps
variable {past : List (Wire × WireEvent)} {w w' : Wire} {event : WireEvent} {e : Endpoint}

theorem Wire.step_server {event : Event} (stepped : w.step (.server event) = some w') :
    (∀ x a, event ≠ .listener x a) ∧ ∃ t, w.toServer.step event = some t ∧ w' = { w with toServer := t } := by
  cases event with
  | listener => simp [step] at stepped
  | accept | thread =>
    obtain ⟨t, moved, rfl⟩ := Option.map_eq_some_iff.mp stepped
    exact ⟨by simp, t, moved, rfl⟩
  | interrupt =>
    cases Option.some.inj stepped
    exact ⟨by simp, _, rfl, rfl⟩

/-- The ways through the branches. -/
inductive Wire.Dispatched (w : Wire) (e : Endpoint) (buffer : Text) : Option Text → Wire → Prop
  | leave {localSdp} : branch buffer = .ended ∨ branch buffer = .exit → Dispatched w e buffer localSdp ((w.take e).leave e)
  | pass {localSdp} : branch buffer = .other → Dispatched w e buffer localSdp (w.take e)
  | answer {fields sdp frame} : branch buffer = .invite → decodeInvite buffer = some fields → acceptFrame sdp = some frame →
      Dispatched w e buffer (some sdp) (((w.take e).store e (w.taken e) fields.2).answer e
        ⟨frame, inviteAt (w.outbound e) (w.taken e)⟩)
  | accept {sdp localSdp} : branch buffer = .accept → decodeAccept buffer = some sdp →
      Dispatched w e buffer (some localSdp) ((w.take e).store e (w.taken e) sdp)
  | raise {sdp} : remoteSdp buffer = some sdp →
      Dispatched w e buffer none (((w.take e).store e (w.taken e) sdp).leave e)

theorem Wire.dispatch_moved {buffer : Text} {localSdp : Option Text} (moved : w.dispatch e buffer localSdp = some w') :
    w.Dispatched e buffer localSdp w' := by
  unfold dispatch at moved
  split at moved
  · rename_i ended
    cases Option.some.inj moved
    exact .leave (Or.inl ended)
  · rename_i exit
    cases Option.some.inj moved
    exact .leave (Or.inr exit)
  · rename_i invite
    obtain ⟨fields, decoded, moved⟩ := Option.bind_eq_some_iff.mp moved
    cases localSdp with
    | none =>
      cases Option.some.inj moved
      exact .raise (by simp only [remoteSdp, invite, decoded, Option.map_some])
    | some sdp =>
      obtain ⟨frame, framed, rfl⟩ := Option.map_eq_some_iff.mp moved
      exact .answer invite decoded framed
  · rename_i accept
    obtain ⟨sdp, decoded, rfl⟩ := Option.map_eq_some_iff.mp moved
    cases localSdp with
    | none => exact .raise (by simp only [remoteSdp, accept, decoded])
    | some => exact .accept accept decoded
  · rename_i other
    cases Option.some.inj moved
    exact .pass other

/-- A listener changes no more of the server than its connection. -/
theorem Wire.dispatch_kept {buffer : Text} {localSdp : Option Text} (moved : w.dispatch e buffer localSdp = some w') :
    w'.threads = w.threads ∧ w'.outbound = w.outbound ∧ w'.taken = (w.take e).taken := by
  cases dispatch_moved moved <;> exact ⟨rfl, rfl, rfl⟩

theorem Wire.step_recv {localSdp : Option Text} (stepped : w.step (.recv e localSdp) = some w') :
    w.peer e = .listening ∧ w.nextRecv e ≠ [] ∧
      ∃ buffer, received (w.nextRecv e) = some buffer ∧ w.dispatch e buffer localSdp = some w' := by
  rw [step] at stepped
  split_ifs at stepped with able
  obtain ⟨buffer, read, moved⟩ := Option.bind_eq_some_iff.mp stepped
  exact ⟨able.1, able.2, buffer, read, moved⟩

theorem Wire.step_quit (stepped : w.step (.quit e) = some w') : w.peer e = .listening ∧ w' = w.leave e := by
  rw [step] at stepped
  split_ifs at stepped with listening
  exact ⟨listening, (Option.some.inj stepped).symm⟩

/-- Handlers hold and connections carry what the server may write. -/
structure Wire.Sound (w : Wire) : Prop where
  threads : ∀ (i : Nat) (h : Handler), w.threads[i]? = some h → h.phase.Sound
  written : ∀ e, ∀ message ∈ w.outbound e, message.content.Written

theorem Phase.Sound.writes {phase : Phase} (sound : phase.Sound) {message : Outgoing}
    (writes : phase.writes = some message) : message.Written := by
  cases phase with
  | greeting | exiting | notifying =>
    cases writes
    trivial
  | replying | inviting | forwarding =>
    cases writes
    exact sound
  | loop | opening | connecting | calling | looking | waiting | closing | closed | returned => cases writes

theorem Handler.Moved.sound {i : Nat} {h h' : Handler} {v v' : Shared} {a : Action} (moved : h.Moved i v a h' v')
    (sound : h.phase.Sound) : h'.phase.Sound := by
  cases moved with
  | call atPhase heard =>
    rw [hears] at heard
    split_ifs at heard
    obtain ⟨buffer, read, decoded⟩ := Option.bind_eq_some_iff.mp heard
    rw [received] at read
    split_ifs at read
    cases Option.some.inj read
    exact fields_of_call (nul_notMem_ofBuffer _) decoded
  | hasUser atPhase | getUser atPhase =>
    rw [atPhase] at sound
    exact sound
  | accepted _ _ tested => exact tested
  | ignored => exact sound
  | signup | login | logout => trivial
  | stop | hangup | client | refuse | exit | socket | socketFails | connect | connectFails | greet | reply | hasNoUser
  | noUser | invite | declined | forward | exitReply | exitReplyFails | exitNotice | close | finish | closeAgain =>
    trivial

theorem sound_initial : Wire.initial.Sound where
  threads i h atThread := by simp [Wire.initial] at atThread
  written e message member := by simp [Wire.initial] at member

theorem sound_of_run (run : WireRun past w) : w.Sound := by
  refine run.invariant (fun _ w => w.Sound) sound_initial ?_
  intro past w event w' _ sound stepped
  have same (threads : w'.threads = w.threads) (outbound : w'.outbound = w.outbound) : w'.Sound :=
    ⟨threads ▸ sound.threads, outbound ▸ sound.written⟩
  cases event with
  | server event =>
    obtain ⟨silent, t, moved, rfl⟩ := Wire.step_server stepped
    refine ⟨fun i h after => ?_, fun e message member => ?_⟩
    · rcases Server.thread_origin moved after with ⟨before, _⟩ | ⟨a, h, rfl, before, moved⟩ | ⟨_, _, rfl⟩
      · exact sound.threads i h before
      · exact moved.sound (sound.threads i h before)
      · trivial
    · cases Server.step_moved moved with
      | accept | acceptLate | acceptFails | interrupt => exact sound.written e message member
      | @thread i a h h' v atThread handled =>
        rcases handled.outbound_cases e with quiet | ⟨new, added, writes⟩
        · exact sound.written e message (quiet ▸ member)
        · rcases List.mem_append.mp (added ▸ member) with old | same
          · exact sound.written e message old
          · cases List.mem_singleton.mp same
            exact (sound.threads i h atThread).writes writes
      | @listener x a => exact absurd rfl (silent x a)
  | recv =>
    obtain ⟨_, _, _, _, moved⟩ := Wire.step_recv stepped
    obtain ⟨threads, outbound, _⟩ := Wire.dispatch_kept moved
    exact same threads outbound
  | quit =>
    obtain ⟨_, rfl⟩ := Wire.step_quit stepped
    exact same rfl rfl

/-- After a step of the listener of one connection. -/
theorem Server.Alike.listened {s : Server} {v : Shared} (alike : s.Below w)
    (rest : w'.toShared = { v with outbound := w.outbound }) (threads : w'.threads = w.threads)
    (accepting : w'.accepting = w.accepting) (others : ∀ x, x ≠ e →
      v.outbound x = s.outbound x ∧ w'.peer x = w.peer x ∧ w'.taken x = w.taken x)
    (here : w'.peer e = .gone ∨ Position (w.outbound e) (w'.taken e) (v.outbound e)) :
    ({ s with toShared := v } : Server).Alike w'.behind w'.toServer := by
  have outbound : w'.outbound = w.outbound := by rw [rest]
  refine ⟨⟨by rw [outbound, rest], fun x => ?_⟩, threads.trans alike.threads, accepting.trans alike.accepting⟩
  by_cases same : x = e
  · subst same
    rw [outbound]
    exact here
  · obtain ⟨queue, peer, taken⟩ := others x same
    have before := alike.shared.queues x
    rw [Wire.behind, peer, taken, outbound]
    dsimp only
    rw [queue]
    exact before

/-- The next message of a listener that has taken those before it whole. -/
theorem Wire.next_message {done rest : List (Tagged Outgoing)} (split : w.outbound e = done ++ rest)
    (place : w.taken e = (bytesOf done).length) (some_ : w.nextRecv e ≠ []) : ∃ message more, rest = message :: more := by
  cases rest with
  | nil =>
    rw [nextRecv_whole split place] at some_
    exact absurd rfl some_
  | cons message more => exact ⟨message, more, rfl⟩

theorem Server.Alike.quits {s : Server} (alike : s.Below w) (listening : w.peer e = .listening)
    (rest : w'.toShared = { w.toShared with peer := Function.update w.peer e .gone })
    (threads : w'.threads = w.threads) (accepting : w'.accepting = w.accepting)
    (others : ∀ x, x ≠ e → w'.taken x = w.taken x) :
    Follows Server.step Server.Below s w' (some (.listener e .quit)) := by
  have same : s.peer = w.peer := by rw [alike.shared.rest]
  have moved : s.toShared.listen e .quit = some { s.toShared with peer := Function.update s.peer e .gone } := by
    rw [Shared.listen, if_pos (same ▸ listening)]
  refine ⟨_, by rw [Server.step, moved]; rfl, alike.listened (e := e) ?_ threads accepting (fun x other => ?_) ?_⟩
  · rw [rest, ← same]
    exact congrArg (fun u : Shared => { u with peer := Function.update s.peer e .gone }) alike.shared.rest
  · exact ⟨rfl, by rw [rest]; exact Function.update_of_ne other _ _, others x other⟩
  · left
    rw [rest]
    exact Function.update_self ..

/-- The listener has taken the message and leaves. -/
theorem Server.Alike.leaves {s : Server} (alike : s.Below w) (more : List (Tagged Outgoing))
    (rest : w'.toShared = { w.toShared with peer := Function.update w.peer e .gone })
    (threads : w'.threads = w.threads) (accepting : w'.accepting = w.accepting)
    (taken : w'.taken = (w.take e).taken) :
    ({ s with outbound := Function.update s.outbound e more, peer := Function.update s.peer e .gone } : Server).Alike
      w'.behind w'.toServer := by
  have same : s.peer = w.peer := by rw [alike.shared.rest]
  refine alike.listened (e := e) ?_ threads accepting (fun x other => ⟨?_, ?_, ?_⟩) (Or.inl ?_)
  · rw [rest, ← same]
    exact congrArg (fun u : Shared => { u with peer := Function.update s.peer e .gone }) alike.shared.rest
  · exact Function.update_of_ne other _ _
  · rw [rest]
    exact Function.update_of_ne other _ _
  · rw [taken]
    exact Function.update_of_ne other _ _
  · rw [rest]
    exact Function.update_self ..

/-- The listener has taken the message, perhaps answered it, and goes on. -/
theorem Server.Alike.stays {s : Server} {more : List (Tagged Outgoing)} (alike : s.Below w)
    (inbound : Endpoint → List (Tagged Text)) (rest : w'.toShared = { w.toShared with inbound := inbound })
    (threads : w'.threads = w.threads) (accepting : w'.accepting = w.accepting)
    (taken : w'.taken = (w.take e).taken) (position : Position (w.outbound e) ((w.take e).taken e) more) :
    ({ s with outbound := Function.update s.outbound e more, inbound := inbound } : Server).Alike
      w'.behind w'.toServer := by
  refine alike.listened (e := e) ?_ threads accepting (fun x other => ⟨?_, ?_, ?_⟩) (Or.inr ?_)
  · rw [rest]
    exact congrArg (fun u : Shared => { u with inbound := inbound }) alike.shared.rest
  · exact Function.update_of_ne other _ _
  · rw [rest]
  · rw [taken]
    exact Function.update_of_ne other _ _
  · rw [taken]
    simpa using position

/-- A listener of bytes and one of messages that have the same message before them. -/
structure Wire.Facing (w : Wire) (e : Endpoint) (s : Server) (done : List (Tagged Outgoing))
    (message : Tagged Outgoing) (more : List (Tagged Outgoing)) : Prop where
  alike : s.Below w
  listening : w.peer e = .listening
  queue : s.outbound e = message :: more
  split : w.outbound e = done ++ message :: more
  passed : ∀ message ∈ done, message.content.Passed
  place : w.taken e = (bytesOf done).length

section Facing
variable {s : Server} {localSdp : Option Text} {done more : List (Tagged Outgoing)} {message : Tagged Outgoing}
  {buffer : Text}

theorem Wire.Facing.nextRecv (facing : w.Facing e s done message more) :
    w.nextRecv e = (message.content.frame ++ bytesOf more).take socketBufferSize := by
  rw [nextRecv_whole facing.split facing.place, bytesOf_cons]

theorem Wire.Facing.read (facing : w.Facing e s done message more) :
    received (w.nextRecv e) = received (message.content.frame.take socketBufferSize) := by
  rw [facing.nextRecv, read_alone]

theorem Wire.Facing.peer (facing : w.Facing e s done message more) : s.peer e = .listening := by
  rw [show s.peer = w.peer by rw [facing.alike.shared.rest], facing.listening]

theorem Wire.Facing.inbound (facing : w.Facing e s done message more) : s.inbound = w.inbound := by
  rw [facing.alike.shared.rest]

theorem Wire.Facing.receives_passed (facing : w.Facing e s done message more) (written : message.content.Written)
    (passes : message.content.Passed) (read : received (w.nextRecv e) = some buffer)
    (moved : w.dispatch e buffer localSdp = some w') : buffer ≠ [] ∧
      Follows Server.step Server.Below s w' (some (.listener e (.dispatch localSdp))) := by
  obtain ⟨string, reads⟩ := reads_of_passed written passes
  have chunk : w.nextRecv e = message.content.frame := by rw [facing.nextRecv, List.take_left' reads.size]
  have alone := reads.read
  rw [facing.read, alone] at read
  cases Option.some.inj read
  have position : Position (w.outbound e) ((w.take e).taken e) more := by
    have split : w.outbound e = (done ++ [message]) ++ more := by rw [facing.split]; simp
    refine .whole split (fun other member => ?_) ?_
    · rcases List.mem_append.mp member with before | same
      · exact facing.passed other before
      · exact List.mem_singleton.mp same ▸ passes
    · simp only [Wire.take, Function.update_self, chunk, facing.place, bytesOf_append, List.length_append]
      simp [bytesOf]
  have stays (u : Wire) (rest : u.toShared = w.toShared) (threads : u.threads = w.threads)
      (accepting : u.accepting = w.accepting) (taken : u.taken = (w.take e).taken) :=
    facing.alike.stays s.inbound (by rw [rest, facing.inbound]) threads accepting taken position
  rcases reads.goesOn with other | ⟨sdp, accept, decoded⟩
  · refine ⟨by rintro rfl; simp [branch] at other, ?_⟩
    simp only [Wire.dispatch, other, Option.some.injEq] at moved
    subst moved
    exact ⟨_, by simp only [Server.step, Shared.listen, facing.peer, facing.queue, alone, Option.bind_some, other,
      Option.map_some], stays _ rfl rfl rfl rfl⟩
  · refine ⟨by rintro rfl; simp [branch] at accept, ?_⟩
    simp only [Wire.dispatch, accept, decoded, Option.map_some, Option.some.injEq] at moved
    subst moved
    cases localSdp with
    | none =>
      refine ⟨_, ?_, facing.alike.leaves more rfl rfl rfl rfl⟩
      simp only [Server.step, Shared.listen, facing.peer, facing.queue, alone, Option.bind_some, accept, decoded,
        Option.map_some]
      rfl
    | some localSdp =>
      refine ⟨_, ?_, stays _ rfl rfl rfl rfl⟩
      simp only [Server.step, Shared.listen, facing.peer, facing.queue, alone, Option.bind_some, accept, decoded,
        Option.map_some]
      rfl

theorem Wire.Facing.receives_invite {receiver sdp : Text} {number : Option Nat}
    (facing : w.Facing e s done ⟨.invite receiver sdp, number⟩ more) (written : (Outgoing.invite receiver sdp).Written)
    (read : received (w.nextRecv e) = some buffer) (moved : w.dispatch e buffer localSdp = some w') : buffer ≠ [] ∧
      Follows Server.step Server.Below s w' (some (.listener e (.dispatch localSdp))) := by
  have long : socketBufferSize ≤ ((Outgoing.invite receiver sdp).frame ++ bytesOf more).length := by
    rw [List.length_append]
    exact ((by decide : socketBufferSize ≤ socketBufferSize * 2).trans length_invite).trans (Nat.le_add_right _ _)
  have chunk : (w.nextRecv e).length = socketBufferSize := by
    rw [facing.nextRecv, List.length_take_of_le long]
  have first := frame_invite_read written
  rw [facing.read, first] at read
  split_ifs at read with short
  cases Option.some.inj read
  rw [if_pos short] at first
  have position : Position (w.outbound e) ((w.take e).taken e) more :=
    .halfway facing.split facing.passed short (by simp [Wire.take, chunk, facing.place])
  refine ⟨by simp, ?_⟩
  simp only [Wire.dispatch, frame_invite_branch] at moved
  obtain ⟨fields, decoded, moved⟩ := Option.bind_eq_some_iff.mp moved
  cases localSdp with
  | none =>
    cases Option.some.inj moved
    refine ⟨_, ?_, facing.alike.leaves more rfl rfl rfl rfl⟩
    simp only [Server.step, Shared.listen, facing.peer, facing.queue, first, Option.bind_some, frame_invite_branch,
      decoded, Option.map_some]
  | some localSdp =>
    obtain ⟨frame, framed, rfl⟩ := Option.map_eq_some_iff.mp moved
    have answered : Function.update s.inbound e (s.inbound e ++ [⟨frame, number⟩]) =
        Function.update w.inbound e (w.inbound e ++ [⟨frame, inviteAt (w.outbound e) (w.taken e)⟩]) := by
      rw [facing.split, facing.place, inviteAt_whole, facing.inbound]
    refine ⟨_, ?_, facing.alike.stays _ rfl rfl rfl rfl position⟩
    simp only [Server.step, Shared.listen, facing.peer, facing.queue, first, Option.bind_some, frame_invite_branch,
      decoded, framed, Option.map_some, answered]
    rfl

theorem Wire.Facing.receives_exit {number : Option Nat} (facing : w.Facing e s done ⟨.exitNotice, number⟩ more)
    (read : received (w.nextRecv e) = some buffer) (moved : w.dispatch e buffer localSdp = some w') : buffer ≠ [] ∧
      Follows Server.step Server.Below s w' (some (.listener e (.dispatch localSdp))) := by
  have alone : received (Outgoing.exitNotice.frame.take socketBufferSize) = some "EXIT".toList := by decide
  have kind : branch "EXIT".toList = .exit := by decide
  rw [facing.read, alone] at read
  cases Option.some.inj read
  refine ⟨by decide, ?_⟩
  simp only [Wire.dispatch, kind, Option.some.injEq] at moved
  subst moved
  refine ⟨_, ?_, facing.alike.leaves more rfl rfl rfl rfl⟩
  simp only [Server.step, Shared.listen, facing.peer, facing.queue, alone, Option.bind_some, kind, Option.map_some]

/-- The word ACCEPT alone is no string that the ACCEPT branch can take apart. -/
theorem Wire.Facing.accept_alone {incoming : Text} {number : Option Nat}
    (facing : w.Facing e s done ⟨.accept incoming, number⟩ more) (written : (Outgoing.accept incoming).Written)
    (alone : ofBuffer incoming = "ACCEPT".toList) (read : received (w.nextRecv e) = some buffer) :
    w.dispatch e buffer localSdp = none := by
  obtain ⟨string, was, _⟩ := Option.bind_eq_some_iff.mp written
  rw [received] at was
  split_ifs at was with fits
  have size : (Outgoing.accept incoming).frame.length = socketBufferSize := length_padded fits.1
  rw [facing.read, List.take_of_length_le size.le, received, Outgoing.frame, ofBuffer_padded, alone,
    if_pos ⟨size.le, by decide⟩] at read
  cases Option.some.inj read
  have kind : branch "ACCEPT".toList = .accept := by decide
  have short : decodeAccept "ACCEPT".toList = none := by decide
  simp only [Wire.dispatch, kind, short, Option.map_none]

/-- The iteration on a message that comes whole, or on the first half of an INVITE. -/
theorem Wire.Facing.receives (facing : w.Facing e s done message more) (sound : w.Sound)
    (read : received (w.nextRecv e) = some buffer) (moved : w.dispatch e buffer localSdp = some w') : buffer ≠ [] ∧
      Follows Server.step Server.Below s w' (some (.listener e (.dispatch localSdp))) := by
  have written : message.content.Written := sound.written e message (by rw [facing.split]; simp)
  by_cases passes : message.content.Passed
  · exact facing.receives_passed written passes read moved
  · obtain ⟨content, number⟩ := message
    cases content with
    | invite receiver sdp => exact facing.receives_invite written read moved
    | exitNotice => exact facing.receives_exit read moved
    | accept incoming =>
      have alone : w.dispatch e buffer localSdp = none := facing.accept_alone written (not_not.mp passes) read
      exact absurd moved (by simp [alone])
    | signupReply | loginReply | logoutReply | exitReply | hello => exact absurd trivial passes

end Facing

theorem Server.Alike.receives {s : Server} {localSdp : Option Text} (sound : w.Sound)
    (alike : s.Below w) (stepped : w.step (.recv e localSdp) = some w') :
    Follows Server.step Server.Below s w' (w.shown (.recv e localSdp)) := by
  obtain ⟨listening, some_, buffer, read, moved⟩ := Wire.step_recv stepped
  rw [Wire.shown, read]
  rcases alike.shared.queues e with gone | position
  · simp [listening] at gone
  cases position with
  | @halfway done receiver sdp number rest split passed short place =>
    rw [Wire.nextRecv_halfway split place, frame_invite_rest short] at read
    cases Option.some.inj read
    cases Option.some.inj moved
    exact alike.quits listening rfl rfl rfl fun x other => Function.update_of_ne other _ _
  | whole split passed place =>
    obtain ⟨message, more, queue⟩ := Wire.next_message split place some_
    have facing : w.Facing e s _ message more := ⟨alike, listening, queue, queue ▸ split, passed, place⟩
    obtain ⟨filled, follows⟩ := facing.receives sound read moved
    rw [if_neg (by simpa using filled)]
    exact follows

/-- Every step on bytes is a step of the server with listeners of whole messages. -/
theorem Server.Alike.followed {s : Server} (alike : s.Below w) (sound : w.Sound) (stepped : w.step event = some w') :
    Follows Server.step Server.Below s w' (w.shown event) := by
  cases event with
  | server event =>
    obtain ⟨silent, t, moved, rfl⟩ := Wire.step_server stepped
    obtain ⟨s', alone, after⟩ := alike.step w.behind_appendable moved silent
    refine ⟨s', alone, ⟨after.shared.rest, fun x => ?_⟩, after.threads, after.accepting⟩
    refine (after.shared.queues x).imp (fun gone => ?_) id
    rcases Server.peer_silent (x := x) moved silent with same | ⟨unconnected, _⟩
    · exact same.trans gone
    · simp [gone] at unconnected
  | recv x localSdp => exact alike.receives sound stepped
  | quit x =>
    obtain ⟨listening, rfl⟩ := Wire.step_quit stepped
    exact alike.quits listening rfl rfl rfl fun _ _ => rfl

theorem below_initial : Server.initial.Below Wire.initial :=
  ⟨⟨rfl, fun _ => Or.inr (.whole (List.nil_append _).symm (by simp) rfl)⟩, rfl, rfl⟩

theorem below_of_run (run : WireRun past w) : ∃ past' s, ServerRun past' s ∧ s.Below w ∧
    past'.map Prod.snd = visible Wire.shown past :=
  run.simulated below_initial fun _ _ _ _ _ previous below stepped => below.followed (sound_of_run previous) stepped

/-- A listener has taken whole messages, or the first half of an INVITE after them. -/
theorem position_of_run (run : WireRun past w) (listening : w.peer e = .listening) :
    ∃ queue, Position (w.outbound e) (w.taken e) queue := by
  obtain ⟨_, s, _, alike, _⟩ := below_of_run run
  exact ⟨_, (alike.shared.queues e).resolve_left (by simp [listening])⟩

/-- Every run of the server with listeners that receive bytes is one with listeners that take whole messages, or leave:
the handlers, the store, the descriptors and the replies are the same, and what is queued for a listener that runs
are the messages before it, after the second half of an INVITE if that is still to come. -/
theorem wire_runs_server (run : WireRun past w) : ∃ past' s, ServerRun past' s ∧
    past'.map Prod.snd = visible Wire.shown past ∧ w.toServer = { s with outbound := w.outbound } ∧
      ∀ e, w.peer e = .listening → (bytesOf (w.outbound e)).drop (w.taken e) = bytesOf (s.outbound e) ∨
        (bytesOf (w.outbound e)).drop (w.taken e) = List.replicate socketBufferSize nul ++ bytesOf (s.outbound e) := by
  obtain ⟨past', s, run', below, events⟩ := below_of_run run
  refine ⟨past', s, run', events, below.eq, fun e listening => ?_⟩
  exact ((below.shared.queues e).resolve_left (by simp [listening])).queued

end Steps

end Signaling
