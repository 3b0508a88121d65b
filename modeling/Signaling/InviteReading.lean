import Signaling.Wire

namespace Signaling
open Machine CText

/-- The name that the INVITE branch is about to report, and the text that it is about to store. -/
def Wire.invited (w : Wire) (e : Endpoint) : Option (Text × Text) :=
  (received (w.nextRecv e)).bind fun buffer => if branch buffer = .invite then decodeInvite buffer else none

/-- Where the next message to the listener will begin. -/
def Wire.place (w : Wire) (e : Endpoint) : Nat := (bytesOf (w.outbound e)).length

/-- The client does not itself end its listener before that has read the message at the place. -/
def Undisturbed (e : Endpoint) (place : Nat) (_ : List (Wire × WireEvent)) (w : Wire) : WireEvent → Prop
  | .quit x => x = e → place < w.taken e
  | .recv x none => x = e → place ≤ w.taken e
  | .recv _ (some _) | .server _ => True

/-- The text of the CALL whose INVITE begins at the place comes to be in `remote_sdp` of the callee: in every
continuation it is there, or the listener is not past the place and its next `recv` is possible. Every string
on the way ends in its array. -/
structure TextArrives (t : Wire) (e : Endpoint) (place : Nat) (peerUsername sdp : Text) : Prop where
  stored : ∀ later w, Trail Wire.step t later w → Throughout (Undisturbed e place) later →
    (place, sdp) ∈ w.stored e ∨ w.taken e ≤ place ∧
      ∀ localSdp, (acceptFrame localSdp).isSome = true → (w.step (.recv e (some localSdp))).isSome = true
  terminated : ∀ array ∈ callArrays peerUsername sdp, array.1.length < array.2

def WireEvent.invite : WireEvent → Option Nat
  | .server (.thread i .invite) => some i
  | _ => none

/-- Whenever a listener is about to read the INVITE of a session that is logged in, that names this user. -/
def CallerNamed (past : List (Wire × WireEvent)) (w : Wire) (event : WireEvent) : Prop :=
  ∀ i ∈ event.invite, ∀ t h e a, w.step event = some t → w.threads[i]? = some h → w.invitee h = some e →
    standing (calls (served past)) i = some a → ∀ later v, Trail Wire.step t later v →
      v.peer e = .listening → v.taken e = w.place e → (v.invited e).map Prod.fst = some a

/-- A session that is logged in calls nobody but itself, with a text that a listener can read, where the
listener comes to read the INVITE. -/
def SelfCalled (past : List (Wire × WireEvent)) (w : Wire) (event : WireEvent) : Prop :=
  ∀ i ∈ event.invite, ∀ h ∈ w.threads[i]?, ∀ e ∈ w.invitee h, (∀ message ∈ w.outbound e, message.content.Passed) →
    ∀ a ∈ standing (calls (served past)) i, ∀ fields ∈ h.phase.carries,
      fields.1 = a ∧ 8 + fields.1.length + fields.2.length < socketBufferSize

instance (past : List (Wire × WireEvent)) (w : Wire) (event : WireEvent) : Decidable (SelfCalled past w event) :=
  inferInstanceAs (Decidable (∀ i ∈ event.invite, ∀ h ∈ w.threads[i]?, ∀ e ∈ w.invitee h,
    (∀ message ∈ w.outbound e, message.content.Passed) → ∀ a ∈ standing (calls (served past)) i,
      ∀ fields ∈ h.phase.carries, fields.1 = a ∧ 8 + fields.1.length + fields.2.length < socketBufferSize))

theorem WireEvent.invite_eq {event : WireEvent} {i : Nat} (invites : i ∈ event.invite) :
    event = .server (.thread i .invite) := by
  unfold invite at invites
  split at invites
  · cases invites
    rfl
  · simp at invites

section Reading
variable {past : List (Wire × WireEvent)} {w w' : Wire} {event : WireEvent} {e x : Endpoint} {place : Nat}
  {done log : List (Tagged Outgoing)} {message invite : Tagged Outgoing} {localSdp : Option Text}
  {receiver sdp : Text} {number : Option Nat}

/-- What a listener does on another connection. -/
theorem Wire.dispatch_other {buffer : Text} (moved : w.dispatch x buffer localSdp = some w') (other : e ≠ x) :
    w'.peer e = w.peer e ∧ w'.taken e = w.taken e ∧ w'.stored e = w.stored e := by
  have leaves (u : Wire) : (u.leave x).peer e = u.peer e := Function.update_of_ne other _ _
  have takes : (w.take x).taken e = w.taken e := Function.update_of_ne other _ _
  have stores (u : Wire) (place : Nat) (sdp : Text) : (u.store x place sdp).stored e = u.stored e :=
    Function.update_of_ne other _ _
  cases dispatch_moved moved with
  | leave => exact ⟨leaves _, takes, rfl⟩
  | pass => exact ⟨rfl, takes, rfl⟩
  | answer | accept => exact ⟨rfl, takes, stores ..⟩
  | raise => exact ⟨leaves _, takes, stores ..⟩

/-- A connection only gets longer. -/
theorem Wire.outbound_grows (stepped : w.step event = some w') : w.outbound e <+: w'.outbound e := by
  cases event with
  | server event =>
    obtain ⟨silent, t, moved, rfl⟩ := step_server stepped
    cases Server.step_moved moved with
    | accept | acceptLate | acceptFails | interrupt => exact List.prefix_rfl
    | thread _ handled =>
      rcases handled.outbound_cases e with quiet | ⟨new, added, _⟩
      · exact quiet ▸ List.prefix_rfl
      · exact added ▸ List.prefix_append _ _
    | @listener x a => exact absurd rfl (silent x a)
  | recv =>
    obtain ⟨_, _, _, _, moved⟩ := step_recv stepped
    exact (dispatch_kept moved).2.1 ▸ List.prefix_rfl
  | quit =>
    obtain ⟨_, rfl⟩ := step_quit stepped
    exact List.prefix_rfl

theorem Wire.outbound_kept {later : List (Wire × WireEvent)} (onward : Trail Wire.step w later w') :
    w.outbound e <+: w'.outbound e := by
  induction onward with
  | start => exact List.prefix_rfl
  | next _ stepped ih => exact ih.trans (outbound_grows stepped)

/-- The listener is about to read a message. -/
structure Wire.Before (w : Wire) (e : Endpoint) (done : List (Tagged Outgoing)) (message : Tagged Outgoing) : Prop where
  listening : w.peer e = .listening
  inside : done ++ [message] <+: w.outbound e
  place : w.taken e = (bytesOf done).length

theorem Wire.Before.nextRecv (facing : w.Before e done message) :
    ∃ tail, w.nextRecv e = (message.content.frame ++ tail).take socketBufferSize := by
  obtain ⟨more, split⟩ := facing.inside
  rw [List.append_assoc] at split
  exact ⟨bytesOf more, by rw [nextRecv_whole split.symm facing.place, List.singleton_append, bytesOf_cons]⟩

theorem Wire.Before.read (facing : w.Before e done message) :
    received (w.nextRecv e) = received (message.content.frame.take socketBufferSize) := by
  obtain ⟨tail, bytes⟩ := facing.nextRecv
  rw [bytes, read_alone]

theorem Wire.Before.filled (facing : w.Before e done message) : w.nextRecv e ≠ [] := by
  obtain ⟨tail, bytes⟩ := facing.nextRecv
  have some_ := length_frame_pos message.content
  intro empty
  rw [empty, eq_comm, List.take_eq_nil_iff, List.append_eq_nil_iff] at bytes
  rcases bytes with none | ⟨none, _⟩
  · exact absurd none (by decide)
  · simp [none] at some_

theorem Wire.Before.written (facing : w.Before e done message) (sound : w.Sound) : message.content.Written :=
  sound.written e message (facing.inside.subset (List.mem_append_right _ List.mem_cons_self))

/-- A message that passes is read, and the listener goes on to the next one. -/
theorem Wire.Before.passes (facing : w.Before e done message) (written : message.content.Written)
    (passed : message.content.Passed) : (∀ localSdp, (w.step (.recv e localSdp)).isSome = true) ∧
      ∀ localSdp w', w.step (.recv e (some localSdp)) = some w' →
        w'.peer e = .listening ∧ w'.taken e = (bytesOf (done ++ [message])).length := by
  obtain ⟨buffer, reads⟩ := reads_of_passed written passed
  obtain ⟨tail, bytes⟩ := facing.nextRecv
  have read : received (w.nextRecv e) = some buffer := facing.read.trans reads.read
  have chunk : w.nextRecv e = message.content.frame := by rw [bytes, List.take_left' reads.size]
  have taken : (w.take e).taken e = (bytesOf (done ++ [message])).length := by
    simp only [take, Function.update_self, chunk, facing.place, bytesOf_append, List.length_append]
    simp [bytesOf]
  refine ⟨fun localSdp => ?_, fun localSdp w' stepped => ?_⟩
  · rw [step, if_pos ⟨facing.listening, facing.filled⟩, read, Option.bind_some, dispatch]
    rcases reads.goesOn with other | ⟨sdp, accept, decoded⟩
    · rw [other]
      rfl
    · rw [accept]
      simp [decoded]
  · obtain ⟨_, _, string, got, moved⟩ := step_recv stepped
    cases Option.some.inj (got.symm.trans read)
    rw [dispatch] at moved
    rcases reads.goesOn with other | ⟨sdp, accept, decoded⟩
    · rw [other] at moved
      cases Option.some.inj moved
      exact ⟨facing.listening, taken⟩
    · rw [accept] at moved
      simp only [decoded, Option.map_some, Option.isSome_some, if_true, Option.some.injEq] at moved
      subst moved
      exact ⟨facing.listening, taken⟩

theorem length_inviteText : ("INVITE ".toList ++ receiver ++ [' '] ++ sdp).length = 8 + receiver.length + sdp.length := by
  have keyword : "INVITE ".toList.length = 7 := rfl
  simp only [List.length_append, List.length_singleton, keyword]
  omega

theorem Wire.Before.invite_read (facing : w.Before e done ⟨.invite receiver sdp, number⟩)
    (written : (Outgoing.invite receiver sdp).Written) : received (w.nextRecv e) =
      if 8 + receiver.length + sdp.length < socketBufferSize then
        some ("INVITE ".toList ++ receiver ++ [' '] ++ sdp) else none := by
  rw [facing.read, frame_invite_read written, length_inviteText]

theorem decodeInvite_written (written : (Outgoing.invite receiver sdp).Written) :
    decodeInvite ("INVITE ".toList ++ receiver ++ [' '] ++ sdp) = some (receiver, sdp) := by
  obtain ⟨plain, blank, short, _, _⟩ := written
  have text : "INVITE ".toList ++ receiver ++ [' '] ++ sdp = "INVITE ".toList ++ receiver ++ ' ' :: sdp := by simp
  rw [text, decodeInvite_relayed plain blank short]

/-- All of an INVITE is parsed if a terminator is in the buffer. -/
theorem Wire.Before.invited (facing : w.Before e done ⟨.invite receiver sdp, number⟩)
    (written : (Outgoing.invite receiver sdp).Written) : w.invited e =
      if 8 + receiver.length + sdp.length < socketBufferSize then some (receiver, sdp) else none := by
  rw [Wire.invited, facing.invite_read written]
  split_ifs
  · rw [Option.bind_some, if_pos frame_invite_branch, decodeInvite_written written]
  · rfl

theorem Wire.Before.stores (facing : w.Before e done ⟨.invite receiver sdp, number⟩)
    (written : (Outgoing.invite receiver sdp).Written) (fits : 8 + receiver.length + sdp.length < socketBufferSize) :
    (∀ localSdp, (acceptFrame localSdp).isSome = true → (w.step (.recv e (some localSdp))).isSome = true) ∧
      ∀ localSdp w', w.step (.recv e localSdp) = some w' → (w.taken e, sdp) ∈ w'.stored e := by
  have read := facing.invite_read written
  rw [if_pos fits] at read
  have decoded := decodeInvite_written written
  have kept : (w.taken e, sdp) ∈ ((w.take e).store e (w.taken e) sdp).stored e := by simp [store]
  refine ⟨fun localSdp framed => ?_, fun localSdp w' stepped => ?_⟩
  · rw [step, if_pos ⟨facing.listening, facing.filled⟩, read, Option.bind_some, dispatch, frame_invite_branch]
    simp only [decoded, Option.bind_some, Option.isSome_map]
    exact framed
  · obtain ⟨_, _, buffer, got, moved⟩ := step_recv stepped
    cases Option.some.inj (got.symm.trans read)
    rw [dispatch, frame_invite_branch] at moved
    simp only [decoded, Option.bind_some] at moved
    cases localSdp with
    | none =>
      cases Option.some.inj moved
      exact kept
    | some localSdp =>
      obtain ⟨frame, _, rfl⟩ := Option.map_eq_some_iff.mp moved
      exact kept

/-- A listener that has not passed some messages that it goes on after is about to read one of them, or what
follows them. -/
theorem before_of_run (run : WireRun past w) (listening : w.peer e = .listening)
    (passed : ∀ message ∈ log, message.content.Passed) (inside : log ++ [invite] <+: w.outbound e)
    (le : w.taken e ≤ (bytesOf log).length) : w.Before e log invite ∨
      ∃ done message, w.Before e done message ∧ message.content.Passed ∧ done ++ [message] <+: log := by
  have first : log <+: w.outbound e := (List.prefix_append _ _).trans inside
  obtain ⟨queue, position⟩ := position_of_run run listening
  cases position with
  | @whole done _ split _ place =>
    obtain ⟨rest, rfl⟩ := prefix_of_length_le (split ▸ List.prefix_append _ _) first (place ▸ le)
    cases rest with
    | nil =>
      rw [List.append_nil] at *
      exact Or.inl ⟨listening, inside, place⟩
    | cons message rest =>
      have next : done ++ [message] <+: done ++ message :: rest := ⟨rest, by simp⟩
      exact Or.inr ⟨done, message, ⟨listening, next.trans first, place⟩, passed message (by simp), next⟩
  | @halfway done receiver sdp number _ split _ _ place =>
    have less : (bytesOf done).length ≤ (bytesOf log).length := by omega
    obtain ⟨rest, rfl⟩ := prefix_of_length_le (split ▸ List.prefix_append _ _) first less
    cases rest with
    | nil =>
      rw [List.append_nil] at le
      exact absurd (place ▸ le) (by simp [socketBufferSize])
    | cons message rest =>
      rw [split, List.append_assoc, List.prefix_append_right_inj, List.cons_append, List.cons_prefix_cons] at inside
      exact absurd (passed message (by simp)) (by rw [inside.1]; exact id)

theorem Wire.taken_lt (stepped : w.step (.recv e localSdp) = some w') : w.taken e < w'.taken e := by
  obtain ⟨_, filled, _, _, moved⟩ := step_recv stepped
  have some_ : 0 < (w.nextRecv e).length := List.length_pos_iff.mpr filled
  have grown : w'.taken e = w.taken e + (w.nextRecv e).length := by
    rw [(dispatch_kept moved).2.2]
    exact Function.update_self ..
  omega

/-- A listener gets past messages that it goes on after. -/
theorem reads_up (run : WireRun past w) (listening : w.peer e = .listening)
    (passed : ∀ message ∈ log, message.content.Passed) (inside : log ++ [invite] <+: w.outbound e)
    (le : w.taken e ≤ (bytesOf log).length) : ∃ later v, Trail Wire.step w later v ∧ v.Before e log invite := by
  induction bound : (bytesOf log).length - w.taken e using Nat.strong_induction_on generalizing w past with
  | _ n ih =>
    rcases before_of_run run listening passed inside le with facing | ⟨done, message, facing, passes, next⟩
    · exact ⟨[], w, .start, facing⟩
    · obtain ⟨possible, goesOn⟩ := facing.passes (facing.written (sound_of_run run)) passes
      obtain ⟨w', stepped⟩ := Option.isSome_iff_exists.mp (possible (some []))
      obtain ⟨still, taken⟩ := goesOn [] w' stepped
      have further := Wire.taken_lt stepped
      have within : w'.taken e ≤ (bytesOf log).length := taken.trans_le (length_bytesOf_le next)
      obtain ⟨later, v, onward, there⟩ := ih _ (by omega) (run.next stepped) still
        (inside.trans (Wire.outbound_grows stepped)) within rfl
      exact ⟨_, v, (Trail.start.next stepped).trans onward, there⟩

theorem Wire.stored_store {place' : Nat} {text : Text} :
    ((w.take e).store e place' text).stored e = w.stored e ++ [(place', text)] := Function.update_self ..

/-- The branches store what the message has in it, under its place. -/
theorem Wire.dispatch_stored {buffer : Text} (moved : w.dispatch e buffer localSdp = some w')
    (member : (place, sdp) ∈ w'.stored e) :
    (place, sdp) ∈ w.stored e ∨ place = w.taken e ∧ remoteSdp buffer = some sdp := by
  have stores {text : Text} (member : (place, sdp) ∈ ((w.take e).store e (w.taken e) text).stored e)
      (found : remoteSdp buffer = some text) :
      (place, sdp) ∈ w.stored e ∨ place = w.taken e ∧ remoteSdp buffer = some sdp := by
    rcases List.mem_append.mp (stored_store ▸ member) with before | new
    · exact Or.inl before
    · obtain ⟨rfl, rfl⟩ := Prod.mk.inj (List.mem_singleton.mp new)
      exact Or.inr ⟨rfl, found⟩
  cases dispatch_moved moved with
  | leave | pass => exact Or.inl member
  | answer invite decoded => exact stores member (by simp only [remoteSdp, invite, decoded, Option.map_some])
  | accept accept decoded => exact stores member (by simp only [remoteSdp, accept, decoded])
  | raise found => exact stores member found

theorem Wire.dispatch_stores_kept {buffer : Text} {entry : Nat × Text} (moved : w.dispatch e buffer localSdp = some w')
    (member : entry ∈ w.stored e) : entry ∈ w'.stored e := by
  have stores {text : Text} : entry ∈ ((w.take e).store e (w.taken e) text).stored e :=
    stored_store ▸ List.mem_append_left _ member
  cases dispatch_moved moved with
  | leave | pass => exact member
  | answer | accept | raise => exact stores

/-- What a listener has stored is the text of a message that it came to after messages that it goes on after. -/
theorem stored_of_run (run : WireRun past w) : ∀ place sdp, (place, sdp) ∈ w.stored e →
    ∃ done message, done ++ [message] <+: w.outbound e ∧ (∀ message ∈ done, message.content.Passed) ∧
      place = (bytesOf done).length ∧
      (received (message.content.frame.take socketBufferSize)).bind remoteSdp = some sdp := by
  refine run.invariant (fun _ w => ∀ place sdp, (place, sdp) ∈ w.stored e →
    ∃ done message, done ++ [message] <+: w.outbound e ∧ (∀ message ∈ done, message.content.Passed) ∧
      place = (bytesOf done).length ∧
      (received (message.content.frame.take socketBufferSize)).bind remoteSdp = some sdp) ?_ ?_
  · intro place sdp member
    simp [Wire.initial] at member
  · intro past w event w' previous kept stepped place sdp member
    have old (before : (place, sdp) ∈ w.stored e) : ∃ done message, done ++ [message] <+: w'.outbound e ∧
        (∀ message ∈ done, message.content.Passed) ∧ place = (bytesOf done).length ∧
        (received (message.content.frame.take socketBufferSize)).bind remoteSdp = some sdp := by
      obtain ⟨done, message, inside, rest⟩ := kept place sdp before
      exact ⟨done, message, inside.trans (Wire.outbound_grows stepped), rest⟩
    cases event with
    | server event =>
      obtain ⟨_, t, _, rfl⟩ := Wire.step_server stepped
      exact old member
    | quit =>
      obtain ⟨_, rfl⟩ := Wire.step_quit stepped
      exact old member
    | recv x localSdp =>
      obtain ⟨listening, filled, buffer, read, moved⟩ := Wire.step_recv stepped
      by_cases same : e = x
      · subst same
        rcases Wire.dispatch_stored moved member with before | ⟨rfl, text⟩
        · exact old before
        obtain ⟨queue, position⟩ := position_of_run previous listening
        cases position with
        | @whole done _ split passed place =>
          obtain ⟨message, more, rfl⟩ := Wire.next_message split place filled
          have inside : done ++ [message] <+: w.outbound e := ⟨more, by rw [split]; simp⟩
          have facing : w.Before e done message := ⟨listening, inside, place⟩
          refine ⟨done, message, inside.trans (Wire.outbound_grows stepped), passed, place, ?_⟩
          rw [← facing.read, read, Option.bind_some, text]
        | @halfway done receiver sdp number _ split _ short place =>
          rw [Wire.nextRecv_halfway split place, frame_invite_rest short] at read
          cases Option.some.inj read
          simp [remoteSdp, branch] at text
      · exact old ((Wire.dispatch_other moved same).2.2 ▸ member)

/-- The listener has read the message at the place and stored its text, or is not past it. -/
def Wire.Heading (w : Wire) (e : Endpoint) (log : List (Tagged Outgoing)) (invite : Tagged Outgoing) (sdp : Text) : Prop :=
  log ++ [invite] <+: w.outbound e ∧
    (((bytesOf log).length, sdp) ∈ w.stored e ∨ w.peer e = .listening ∧ w.taken e ≤ (bytesOf log).length)

theorem Wire.Heading.step (run : WireRun past w) (passed : ∀ message ∈ log, message.content.Passed)
    (fits : 8 + receiver.length + sdp.length < socketBufferSize)
    (heading : w.Heading e log ⟨.invite receiver sdp, number⟩ sdp)
    (undisturbed : Undisturbed e (bytesOf log).length past w event) (stepped : w.step event = some w') :
    w'.Heading e log ⟨.invite receiver sdp, number⟩ sdp := by
  refine ⟨heading.1.trans (outbound_grows stepped), ?_⟩
  cases event with
  | server event =>
    obtain ⟨silent, t, moved, rfl⟩ := step_server stepped
    refine heading.2.imp_right fun ⟨listening, le⟩ => ⟨?_, le⟩
    rcases Server.peer_silent (x := e) moved silent with same | ⟨unconnected, _⟩
    · exact same.trans listening
    · simp [listening] at unconnected
  | quit x =>
    obtain ⟨_, rfl⟩ := step_quit stepped
    refine heading.2.imp_right fun ⟨listening, le⟩ => ⟨?_, le⟩
    have other : e ≠ x := fun same => absurd (undisturbed same.symm) (not_lt.mpr le)
    exact (Function.update_of_ne other _ _).trans listening
  | recv x localSdp =>
    obtain ⟨_, _, buffer, read, moved⟩ := step_recv stepped
    by_cases same : e = x
    · subst same
      rcases heading.2 with stored | ⟨listening, le⟩
      · exact Or.inl (dispatch_stores_kept moved stored)
      rcases before_of_run run listening passed heading.1 le with facing | ⟨done, message, facing, passes, next⟩
      · have written := facing.written (sound_of_run run)
        exact Or.inl (facing.place ▸ (facing.stores written fits).2 localSdp w' stepped)
      · have written := facing.written (sound_of_run run)
        have less : w.taken e < (bytesOf log).length := by
          obtain ⟨rest, whole⟩ := next
          have some_ := length_frame_pos message.content
          rw [facing.place, ← whole]
          simp only [bytesOf_append, bytesOf_cons, List.length_append]
          omega
        cases localSdp with
        | none => exact absurd (undisturbed rfl) (not_le.mpr less)
        | some localSdp =>
          obtain ⟨still, taken⟩ := (facing.passes written passes).2 localSdp w' stepped
          exact Or.inr ⟨still, taken.trans_le (length_bytesOf_le next)⟩
    · obtain ⟨peer, taken, stored⟩ := dispatch_other moved same
      rw [peer, taken, stored]
      exact heading.2

theorem Wire.Heading.possible (heading : w.Heading e log ⟨.invite receiver sdp, number⟩ sdp) (run : WireRun past w)
    (passed : ∀ message ∈ log, message.content.Passed) (fits : 8 + receiver.length + sdp.length < socketBufferSize) :
    ((bytesOf log).length, sdp) ∈ w.stored e ∨ w.taken e ≤ (bytesOf log).length ∧
      ∀ localSdp, (acceptFrame localSdp).isSome = true → (w.step (.recv e (some localSdp))).isSome = true := by
  refine heading.2.imp_right fun ⟨listening, le⟩ => ⟨le, fun localSdp framed => ?_⟩
  rcases before_of_run run listening passed heading.1 le with facing | ⟨done, message, facing, passes, _⟩
  · exact (facing.stores (facing.written (sound_of_run run)) fits).1 localSdp framed
  · exact (facing.passes (facing.written (sound_of_run run)) passes).1 (some localSdp)

theorem carried_of_run (run : WireRun past w) : Carried (served past) w.toServer := by
  refine run.invariant (fun past w => Carried (served past) w.toServer) (fun i h atThread => ?_) ?_
  · simp [Wire.initial] at atThread
  · intro past w event w' _ carried stepped
    cases event with
    | server event =>
      obtain ⟨_, t, moved, rfl⟩ := Wire.step_server stepped
      exact carried.step moved
    | recv =>
      obtain ⟨_, _, _, _, moved⟩ := Wire.step_recv stepped
      intro i h atThread
      exact carried i h ((Wire.dispatch_kept moved).1 ▸ atThread)
    | quit =>
      obtain ⟨_, rfl⟩ := Wire.step_quit stepped
      exact carried

theorem Wire.listening_of_invitee {h : Handler} (invited : w.invitee h = some e) : w.peer e = .listening := by
  unfold Server.invitee at invited
  split at invited
  · rw [Option.filter_eq_some_iff] at invited
    exact of_decide_eq_true invited.2
  · simp at invited

/-- An INVITE to a listener, at the end of the connection. -/
theorem invite_sent {t : Wire} {i : Nat} {h : Handler} (run : WireRun past w)
    (stepped : w.step (.server (.thread i .invite)) = some t) (atThread : w.threads[i]? = some h)
    (invited : w.invitee h = some e) (carries : h.phase.carries = some (receiver, sdp)) :
    t.outbound e = w.outbound e ++ [⟨.invite receiver sdp, some w.invites⟩] ∧ t.peer e = .listening ∧
      t.taken e = w.taken e ∧ (Outgoing.invite receiver sdp).Written := by
  obtain ⟨silent, t, moved, rfl⟩ := Wire.step_server stepped
  have outbound := Server.invitee_gets moved atThread carries invited
  have written := (sound_of_run (run.next stepped)).written e ⟨.invite receiver sdp, some w.invites⟩
    (by rw [show ({ w with toServer := t } : Wire).outbound e = t.outbound e from rfl, outbound]; simp)
  have listening := Wire.listening_of_invitee invited
  refine ⟨outbound, ?_, rfl, written⟩
  rcases Server.peer_silent (x := e) moved silent with same | ⟨unconnected, _⟩
  · exact same.trans listening
  · simp [listening] at unconnected

/-- A listener is never past what has been written to it. -/
theorem taken_le (run : WireRun past w) (listening : w.peer e = .listening) : w.taken e ≤ w.place e := by
  obtain ⟨queue, position⟩ := position_of_run run listening
  cases position with
  | whole split _ place =>
    rw [Wire.place, split, place, bytesOf_append, List.length_append]
    exact Nat.le_add_right _ _
  | @halfway _ receiver sdp _ _ split _ _ place =>
    have long : socketBufferSize * 2 ≤ (Outgoing.invite receiver sdp).frame.length := length_invite
    rw [Wire.place, split, place]
    simp only [bytesOf_append, bytesOf_cons, List.length_append]
    omega

/-- A text that is sure to come comes. -/
theorem comes (run : WireRun past w)
    (sure : ∀ later v, Trail Wire.step w later v → Throughout (Undisturbed e place) later →
      (place, sdp) ∈ v.stored e ∨ v.taken e ≤ place ∧
        ∀ localSdp, (acceptFrame localSdp).isSome = true → (v.step (.recv e (some localSdp))).isSome = true) :
    ∃ past v, WireRun past v ∧ (∃ later, Trail Wire.step w later v) ∧ (place, sdp) ∈ v.stored e := by
  have from_ (n : Nat) : ∀ later v, Trail Wire.step w later v → Throughout (Undisturbed e place) later →
      place + 1 - v.taken e = n → ∃ later v, Trail Wire.step w later v ∧ (place, sdp) ∈ v.stored e := by
    induction n using Nat.strong_induction_on with
    | _ n ih =>
      intro later v onward within bound
      rcases sure later v onward within with stored | ⟨le, possible⟩
      · exact ⟨later, v, onward, stored⟩
      · obtain ⟨v', stepped⟩ := Option.isSome_iff_exists.mp (possible [] (by decide))
        have further := Wire.taken_lt stepped
        exact ih _ (by omega) _ v' (onward.next stepped) ⟨trivial, within⟩ rfl
  obtain ⟨later, v, onward, stored⟩ := from_ _ [] w .start trivial rfl
  exact ⟨_, v, run.trans onward, ⟨later, onward⟩, stored⟩

/-- The callee gets the text of the CALL exactly where the INVITE fits its buffer and nothing before the INVITE
on the connection ends its listener, as an earlier INVITE does. -/
theorem call_text_iff {c : Client} {u : Word} {t : Wire} {i : Nat} {h : Handler} (run : WireRun past w)
    (stepped : w.step (.server (.thread i .invite)) = some t) (free : nul ∉ u.text ∧ nul ∉ c.localSdp)
    (called : ∃ message, c.callPeer u = some (c, message) ∧ latestMessage (served past) i = some message)
    (atThread : w.threads[i]? = some h) (invited : w.invitee h = some e) :
    TextArrives t e (w.place e) u.text c.localSdp ↔
      8 + u.text.length + c.localSdp.length < socketBufferSize ∧ ∀ message ∈ w.outbound e, message.content.Passed := by
  obtain ⟨message, sent, latest⟩ := called
  obtain ⟨receiver, sdp, carries⟩ := Server.carries_of_invitee invited
  obtain ⟨_, again, decoded⟩ := carried_of_run run i h atThread receiver sdp carries
  cases Option.some.inj (latest.symm.trans again)
  cases Option.some.inj ((commandOf_call free sent).symm.trans decoded)
  obtain ⟨outbound, listening, taken, written⟩ := invite_sent run stepped atThread invited carries
  have inside : w.outbound e ++ [⟨.invite u.text c.localSdp, some w.invites⟩] <+: t.outbound e := outbound ▸ List.prefix_rfl
  constructor
  · intro arrives
    obtain ⟨past', v, run', ⟨later, onward⟩, stored⟩ := comes (run.next stepped) arrives.stored
    obtain ⟨done, message, there, passed, place, text⟩ := stored_of_run run' _ _ stored
    have whole := inside.trans (Wire.outbound_kept onward)
    cases bytesOf_injective ((List.prefix_append _ _).trans whole) ((List.prefix_append _ _).trans there) place
    cases List.singleton_inj.mp (List.append_cancel_left
      ((List.prefix_of_prefix_length_le whole there (by simp)).eq_of_length (by simp)))
    rw [frame_invite_read written, length_inviteText] at text
    split_ifs at text with fits
    · exact ⟨fits, passed⟩
    · simp at text
  · rintro ⟨fits, passed⟩
    refine ⟨fun later v onward within => ?_, call_terminated u.short fits⟩
    have start : t.Heading e (w.outbound e) ⟨.invite u.text c.localSdp, some w.invites⟩ c.localSdp :=
      ⟨inside, Or.inr ⟨listening, taken ▸ taken_le run (Wire.listening_of_invitee invited)⟩⟩
    have now := onward.invariant_of_allowed
      (fun _ v => v.Heading e (w.outbound e) ⟨.invite u.text c.localSdp, some w.invites⟩ c.localSdp) start
      (fun _ _ _ _ before heading undisturbed moved =>
        heading.step ((run.next stepped).trans before) passed fits undisturbed moved) within
    exact now.possible ((run.next stepped).trans onward) passed fits

/-- A listener that has come as far as the end of some messages goes on after all of them. -/
theorem passed_of_place (run : WireRun past w) (listening : w.peer e = .listening) (inside : log <+: w.outbound e)
    (place : w.taken e = (bytesOf log).length) : ∀ message ∈ log, message.content.Passed := by
  obtain ⟨queue, position⟩ := position_of_run run listening
  cases position with
  | whole split passed taken =>
    cases bytesOf_injective (split ▸ List.prefix_append _ _) inside (taken.symm.trans place)
    exact passed
  | @halfway done receiver sdp number _ split _ _ taken =>
    have before : done <+: w.outbound e := split ▸ List.prefix_append _ _
    obtain ⟨rest, rfl⟩ := prefix_of_length_le before inside (by omega)
    cases rest with
    | nil =>
      rw [List.append_nil, taken] at place
      exact absurd place (by simp [socketBufferSize])
    | cons message rest =>
      rw [split, List.prefix_append_right_inj, List.cons_prefix_cons] at inside
      have long : socketBufferSize * 2 ≤ (Outgoing.invite receiver sdp).frame.length := length_invite
      rw [taken, inside.1] at place
      simp only [bytesOf_append, bytesOf_cons, List.length_append, socketBufferSize] at place long
      omega

/-- The listener reports its own user as the caller, so it is right exactly about those who call themselves. -/
theorem callerNamed_iff {t : Wire} (run : WireRun past w) (stepped : w.step event = some t) :
    CallerNamed past w event ↔ SelfCalled past w event := by
  constructor
  · intro named i invites h atThread e invited passed a loggedIn fields carries
    obtain rfl := WireEvent.invite_eq invites
    obtain ⟨outbound, listening, taken, written⟩ := invite_sent run stepped atThread invited carries
    have inside : w.outbound e ++ [⟨.invite fields.1 fields.2, some w.invites⟩] <+: t.outbound e :=
      outbound ▸ List.prefix_rfl
    have le : t.taken e ≤ (bytesOf (w.outbound e)).length :=
      taken ▸ taken_le run (Wire.listening_of_invitee invited)
    obtain ⟨later, v, onward, facing⟩ := reads_up (run.next stepped) listening passed inside le
    have name := named i invites t h e a stepped atThread invited loggedIn later v onward facing.listening facing.place
    rw [facing.invited written] at name
    split_ifs at name with fits
    · exact ⟨Option.some.inj name, fits⟩
    · simp at name
  · intro self i invites t' h e a stepped' atThread invited loggedIn later v onward listening place
    obtain rfl := WireEvent.invite_eq invites
    obtain ⟨receiver, sdp, carries⟩ := Server.carries_of_invitee invited
    obtain ⟨outbound, _, _, written⟩ := invite_sent run stepped' atThread invited carries
    have sent : w.outbound e ++ [⟨.invite receiver sdp, some w.invites⟩] <+: t'.outbound e := outbound ▸ List.prefix_rfl
    have inside := sent.trans (Wire.outbound_kept onward)
    have passed :=
      passed_of_place ((run.next stepped').trans onward) listening ((List.prefix_append _ _).trans inside) place
    obtain ⟨same, fits⟩ := self i invites h atThread e invited passed a loggedIn _ carries
    have facing : v.Before e (w.outbound e) ⟨.invite receiver sdp, some w.invites⟩ := ⟨listening, inside, place⟩
    rw [facing.invited written, if_pos fits]
    exact congrArg some same

/-- The caller that listeners report is the one who called on just those runs on which all who are logged in
call themselves. -/
theorem caller_named_iff (run : WireRun past w) : Throughout CallerNamed past ↔ Throughout SelfCalled past := by
  refine run.throughout_iff WireRun .start ?_ ?_
  · intro past w event t run _ _ stepped
    exact run.next stepped
  · intro past w event t run stepped
    exact callerNamed_iff run stepped

end Reading

/-- bob logs in, and his listener reads the greeting. -/
def bobListens : List WireEvent :=
  overWire ([.accept true, .accept true] ++
    session 0 (connects ++ sends "SIGNUP bob pw" ++ sends "LOGIN bob pw")) ++ [.recv (.callback 0 0) (some [])]

/-- Session 1 calls bob, up to where it has his descriptor. -/
def callsBob (sdp : Text) : List WireEvent :=
  overWire (session 1 [.recv (padded socketBufferSize ("CALL bob ".toList ++ sdp)), .hasUser, .getUser 0])

theorem short_text_arrives : ∃ past w t, execute Wire.step [] Wire.initial (bobListens ++ callsBob "sdp".toList) =
    some (past, w) ∧ w.step (.server (.thread 1 .invite)) = some t ∧
      TextArrives t (.callback 0 0) (w.place (.callback 0 0)) bob.text "sdp".toList := by
  have ran : (execute Wire.step [] Wire.initial (bobListens ++ callsBob "sdp".toList)).any (fun r =>
      decide ((r.2.step (.server (.thread 1 .invite))).isSome = true ∧
        r.2.threads[1]?.bind r.2.invitee = some (.callback 0 0) ∧
        (Client.callPeer { localSdp := "sdp".toList } bob).map Prod.snd = latestMessage (served r.1) 1 ∧
        ∀ message ∈ r.2.outbound (.callback 0 0), message.content.Passed)) = true := by
    decide +kernel
  obtain ⟨past, w, done, checked⟩ := execute_check _ ran
  obtain ⟨possible, there, latest, passed⟩ := of_decide_eq_true checked
  obtain ⟨t, stepped⟩ := Option.isSome_iff_exists.mp possible
  obtain ⟨h, atThread, invited⟩ := Option.bind_eq_some_iff.mp there
  have called : ∃ message, Client.callPeer { localSdp := "sdp".toList } bob = some ({ localSdp := "sdp".toList }, message) ∧
      latestMessage (served past) 1 = some message := ⟨_, rfl, latest.symm⟩
  exact ⟨past, w, t, done, stepped,
    (call_text_iff (execute_trail done) stepped ⟨by decide, by decide⟩ called atThread invited).mpr ⟨by decide, passed⟩⟩

/-- The CALL fills the caller's message but for its terminator. -/
def longSdp : Text := List.replicate 1014 'v'

theorem long_text_lost : ∃ past w t, execute Wire.step [] Wire.initial (bobListens ++ callsBob longSdp) =
    some (past, w) ∧ w.step (.server (.thread 1 .invite)) = some t ∧
      (Client.callPeer { localSdp := longSdp } bob).map Prod.snd = latestMessage (served past) 1 ∧
      (latestMessage (served past) 1).isSome = true ∧ t.peer (.callback 0 0) = .listening ∧
      ¬TextArrives t (.callback 0 0) (w.place (.callback 0 0)) bob.text longSdp := by
  have ran : (execute Wire.step [] Wire.initial (bobListens ++ callsBob longSdp)).any (fun r =>
      (r.2.step (.server (.thread 1 .invite))).any fun t =>
        decide ((Client.callPeer { localSdp := longSdp } bob).map Prod.snd = latestMessage (served r.1) 1 ∧
          (latestMessage (served r.1) 1).isSome = true ∧ t.peer (.callback 0 0) = .listening ∧
          t.stored (.callback 0 0) = [] ∧ (t.step (.recv (.callback 0 0) (some []))).isSome = false)) = true := by
    decide +kernel
  obtain ⟨past, w, done, checked⟩ := execute_check _ ran
  obtain ⟨t, stepped, checked⟩ := (Option.any_eq_true _ _).mp checked
  obtain ⟨latest, some_, listening, nothing, stuck⟩ := of_decide_eq_true checked
  refine ⟨past, w, t, done, stepped, latest, some_, listening, fun arrives => ?_⟩
  rcases arrives.stored [] t .start trivial with stored | ⟨_, possible⟩
  · simp [nothing] at stored
  · simp [possible [] (by decide)] at stuck

/-- bob calls himself. -/
def bobCallsBob : List WireEvent := bobListens ++ overWire (session 0 (rings "bob"))

theorem self_call_named : ∃ past w, execute Wire.step [] Wire.initial bobCallsBob = some (past, w) ∧
    w.invites = 1 ∧ (w.invited (.callback 0 0)).map Prod.fst = some bob.text ∧ Throughout CallerNamed past := by
  have ran : (execute Wire.step [] Wire.initial bobCallsBob).any (fun r =>
      decide (r.2.invites = 1 ∧ (r.2.invited (.callback 0 0)).map Prod.fst = some bob.text ∧
        Throughout SelfCalled r.1)) = true := by
    decide +kernel
  obtain ⟨past, w, done, checked⟩ := execute_check _ ran
  obtain ⟨sent, name, self⟩ := of_decide_eq_true checked
  exact ⟨past, w, done, sent, name, (caller_named_iff (execute_trail done)).mpr self⟩

/-- amy calls bob, who is told that bob calls. -/
def amyCallsBob : List WireEvent :=
  bobListens ++ overWire (session 1 (sends "SIGNUP amy pw" ++ sends "LOGIN amy pw" ++ rings "bob"))

theorem amy_not_named : ∃ past w, execute Wire.step [] Wire.initial amyCallsBob = some (past, w) ∧
    (w.invited (.callback 0 0)).map Prod.fst = some bob.text ∧ ¬Throughout CallerNamed past := by
  have ran : (execute Wire.step [] Wire.initial amyCallsBob).any (fun r =>
      decide ((r.2.invited (.callback 0 0)).map Prod.fst = some bob.text) &&
        endsWith (.server (.thread 1 .invite)) (fun w earlier =>
          decide (¬SelfCalled earlier w (.server (.thread 1 .invite)))) r.1) = true := by
    decide +kernel
  obtain ⟨past, w, done, checked⟩ := execute_check _ ran
  obtain ⟨name, last⟩ := Bool.and_eq_true_iff.mp checked
  obtain ⟨before, earlier, rfl, notSelf⟩ := endsWith_iff.mp last
  refine ⟨_, w, done, of_decide_eq_true name, fun named => of_decide_eq_true notSelf ?_⟩
  cases execute_trail done with
  | next run stepped => exact (callerNamed_iff run stepped).mp named.1

end Signaling
