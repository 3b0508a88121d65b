import Signaling.Machine.Overlay
import Signaling.Machine.Trail

namespace Signaling
open Machine

abbrev Bytes := List UInt8

/-- `BufferSize` of `client.cpp` and `BUFFER_SIZE` of `simple_offerer.cpp`. -/
def bufferSize : Nat := 2048

/-- `sizeof(rtc::RtpHeader)`, which is packed. -/
def rtpHeaderSize : Nat := 12

/-- The loop that moves datagrams from a socket to a track: its buffer, and what was put on the track. -/
structure MediaRelay where
  buffer : Bytes
  packets : List Bytes := []
  relaying : Bool := true
  deriving DecidableEq, Repr

/-- A turn of the loop: `recv` takes a datagram, or fails and `send` has a number of bytes sent or fails too;
and whether the track is open then. -/
inductive MediaEvent
  | recv (datagram : Bytes) (isOpen : Bool)
  | recvFails (sent : Option Nat) (isOpen : Bool)
  deriving DecidableEq, Repr

abbrev MediaHistory := List (MediaRelay × MediaEvent)

/-- What is known of `rtc::RtpHeader::setSsrc` on the bytes of the header: it sets the four bytes of the field. -/
structure SetsSsrc (setSsrc : Bytes → Bytes) (ssrc : Bytes) : Prop where
  size : ssrc.length = 4
  sets : ∀ buffer : Bytes, rtpHeaderSize ≤ buffer.length → setSsrc buffer = buffer.take 8 ++ ssrc ++ buffer.drop 12

namespace MediaRelay
variable (setSsrc : Bytes → Bytes)

/-- The body of the loop. -/
def relay (r : MediaRelay) (len : Nat) (isOpen : Bool) : MediaRelay :=
  if len < rtpHeaderSize ∨ isOpen = false then r
  else { r with buffer := setSsrc r.buffer, packets := r.packets ++ [(setSsrc r.buffer).take len] }

/-- `media_handler`. What `send` sends is in another buffer. -/
def mediaHandler (r : MediaRelay) : MediaEvent → Option MediaRelay
  | .recv datagram isOpen =>
    if r.relaying then
      let taken := datagram.take bufferSize
      some ({ r with buffer := overlay r.buffer taken }.relay setSsrc taken.length isOpen)
    else none
  | .recvFails (some len) isOpen =>
    if r.relaying ∧ len ≤ bufferSize then some (r.relay setSsrc len isOpen) else none
  | .recvFails none _ => if r.relaying then some { r with relaying := false } else none

/-- The ways of `mediaHandler`. -/
inductive Moved (r : MediaRelay) : MediaEvent → MediaRelay → Prop
  | recv {datagram isOpen} : Moved r (.recv datagram isOpen)
      (relay setSsrc { r with buffer := overlay r.buffer (datagram.take bufferSize) }
        (datagram.take bufferSize).length isOpen)
  | again {len isOpen} : len ≤ bufferSize → Moved r (.recvFails (some len) isOpen) (r.relay setSsrc len isOpen)
  | ended {isOpen} : Moved r (.recvFails none isOpen) { r with relaying := false }

/-- The loop at the end of `main` of `simple_offerer.cpp`, which only receives. -/
def simpleOfferer (r : MediaRelay) : MediaEvent → Option MediaRelay
  | .recv datagram isOpen => r.mediaHandler setSsrc (.recv datagram isOpen)
  | .recvFails _ isOpen => r.mediaHandler setSsrc (.recvFails none isOpen)

/-- What `recv` took, in order. -/
def taken (past : MediaHistory) : List Bytes :=
  past.reverse.filterMap fun turn =>
    match turn.2 with
    | .recv datagram _ => some (datagram.take bufferSize)
    | .recvFails _ _ => none

/-- The datagrams that have room for a header and come while the track is open, with the field set, in order. -/
def forwarded (past : MediaHistory) : List Bytes :=
  past.reverse.filterMap fun turn =>
    match turn.2 with
    | .recv datagram true =>
      if rtpHeaderSize ≤ datagram.length then some (setSsrc (datagram.take bufferSize)) else none
    | _ => none

/-- The turn puts the buffer of an earlier turn on the track. -/
def Resends (_ : MediaHistory) (_ : MediaRelay) : MediaEvent → Prop
  | .recvFails (some len) isOpen => rtpHeaderSize ≤ len ∧ isOpen = true
  | _ => False

/-- The buffers agree but for the field. -/
structure Agrees (one other : Bytes) : Prop where
  size : one.length = other.length
  outside : ∀ i, i < 8 ∨ 12 ≤ i → one[i]? = other[i]?

instance (past : MediaHistory) (r : MediaRelay) : ∀ e, Decidable (Resends past r e)
  | .recvFails (some len) isOpen => inferInstanceAs (Decidable (rtpHeaderSize ≤ len ∧ isOpen = true))
  | .recvFails none _ | .recv _ _ => isFalse id

variable {setSsrc} {ssrc buffer one other piece : Bytes} {past : MediaHistory} {r r' : MediaRelay} {e : MediaEvent}
  {len : Nat} {isOpen : Bool}

theorem length_set (sets : SetsSsrc setSsrc ssrc) (room : rtpHeaderSize ≤ buffer.length) :
    (setSsrc buffer).length = buffer.length := by
  rw [rtpHeaderSize] at room
  rw [sets.sets buffer room, List.length_append, List.length_append, List.length_take, List.length_drop, sets.size]
  omega

theorem getElem?_set (sets : SetsSsrc setSsrc ssrc) (room : rtpHeaderSize ≤ buffer.length) {i : Nat}
    (outside : i < 8 ∨ 12 ≤ i) : (setSsrc buffer)[i]? = buffer[i]? := by
  have size := sets.size
  rw [rtpHeaderSize] at room
  rw [sets.sets buffer room, List.append_assoc]
  rcases outside with before | after
  · rw [List.getElem?_append_left (by rw [List.length_take]; omega), List.getElem?_take_of_lt before]
  · rw [List.getElem?_append_right (by rw [List.length_take]; omega),
      List.getElem?_append_right (by rw [List.length_take]; omega), List.getElem?_drop]
    congr 1
    rw [List.length_take]
    omega

/-- The header is in the first part. -/
theorem set_append (sets : SetsSsrc setSsrc ssrc) (room : rtpHeaderSize ≤ buffer.length) (rest : Bytes) :
    setSsrc (buffer ++ rest) = setSsrc buffer ++ rest := by
  rw [rtpHeaderSize] at room
  have more : rtpHeaderSize ≤ (buffer ++ rest).length := by
    rw [rtpHeaderSize, List.length_append]
    omega
  rw [sets.sets _ more, sets.sets buffer room, List.take_append_of_le_length (by omega),
    List.drop_append_of_le_length room]
  simp only [List.append_assoc]

theorem Agrees.set (agrees : Agrees buffer other) (sets : SetsSsrc setSsrc ssrc)
    (room : rtpHeaderSize ≤ buffer.length) : Agrees (setSsrc buffer) other where
  size := (length_set sets room).trans agrees.size
  outside i outside := (getElem?_set sets room outside).trans (agrees.outside i outside)

theorem Agrees.overlay (agrees : Agrees one other) : Agrees (overlay one piece) (overlay other piece) where
  size := by simp only [Machine.overlay, List.length_append, List.length_drop, agrees.size]
  outside i outside := by
    rw [getElem?_overlay, getElem?_overlay, agrees.outside i outside]

theorem taken_recv {datagram : Bytes} : taken ((r, .recv datagram isOpen) :: past) =
    taken past ++ [datagram.take bufferSize] := by
  simp [taken]

theorem taken_fails {sent : Option Nat} : taken ((r, .recvFails sent isOpen) :: past) = taken past := by
  simp [taken]

theorem relay_packets : (r.relay setSsrc len isOpen).packets =
    r.packets ++ if rtpHeaderSize ≤ len ∧ isOpen = true then [(setSsrc r.buffer).take len] else [] := by
  rw [relay]
  split_ifs with skipped sent sent
  · rcases skipped with short | shut
    · omega
    · simp [shut] at sent
  · exact (List.append_nil _).symm
  · rfl
  · rw [not_or, Bool.not_eq_false] at skipped
    exact absurd ⟨Nat.le_of_not_lt skipped.1, skipped.2⟩ sent

theorem Agrees.relay (agrees : Agrees r.buffer other) (sets : SetsSsrc setSsrc ssrc)
    (room : rtpHeaderSize ≤ r.buffer.length) : Agrees (r.relay setSsrc len isOpen).buffer other := by
  rw [MediaRelay.relay]
  split_ifs with skipped
  · exact agrees
  · exact agrees.set sets room

theorem mediaHandler_moved (stepped : r.mediaHandler setSsrc e = some r') : Moved setSsrc r e r' := by
  cases e with
  | recv datagram isOpen =>
    rw [mediaHandler] at stepped
    split_ifs at stepped
    cases Option.some.inj stepped
    exact .recv
  | recvFails sent isOpen =>
    cases sent with
    | none =>
      rw [mediaHandler] at stepped
      split_ifs at stepped
      cases Option.some.inj stepped
      exact .ended
    | some len =>
      rw [mediaHandler] at stepped
      split_ifs at stepped with able
      cases Option.some.inj stepped
      exact .again able.2

theorem length_taken (past : MediaHistory) : ∀ piece ∈ taken past, piece.length ≤ bufferSize := by
  intro piece member
  obtain ⟨turn, _, took⟩ := List.mem_filterMap.mp member
  split at took
  · cases Option.some.inj took
    exact List.length_take_le _ _
  · simp at took

/-- Apart from the field, the buffer is what the datagrams put there, the last one that reaches a place. -/
theorem agrees_of_run (sets : SetsSsrc setSsrc ssrc) (whole : buffer.length = bufferSize)
    (run : Trail (mediaHandler setSsrc) { buffer := buffer } past r) :
    Agrees r.buffer (overlayAll buffer (taken past)) := by
  induction run with
  | start => exact ⟨rfl, fun _ _ => rfl⟩
  | @next past r e r' previous stepped ih =>
    have size : r.buffer.length = bufferSize := by
      rw [ih.size, length_overlayAll (by rw [whole]; exact length_taken past), whole]
    cases mediaHandler_moved stepped with
    | recv =>
      rw [taken_recv, overlayAll_concat]
      refine Agrees.relay ih.overlay sets ?_
      rw [length_overlay (by rw [size]; exact List.length_take_le _ _), size]
      decide
    | again _ =>
      rw [taken_fails]
      exact ih.relay sets (by rw [size]; decide)
    | ended =>
      rw [taken_fails]
      exact ih

theorem forwarded_recv {datagram : Bytes} : forwarded setSsrc ((r, .recv datagram isOpen) :: past) =
    forwarded setSsrc past ++
      if rtpHeaderSize ≤ datagram.length ∧ isOpen = true then [setSsrc (datagram.take bufferSize)] else [] := by
  cases isOpen with
  | false => simp [forwarded]
  | true =>
    by_cases room : rtpHeaderSize ≤ datagram.length
    · simp [forwarded, room]
    · simp [forwarded, room]

theorem forwarded_fails {sent : Option Nat} :
    forwarded setSsrc ((r, .recvFails sent isOpen) :: past) = forwarded setSsrc past := by
  simp [forwarded]

/-- What is received is sent, whatever was in the buffer. -/
theorem relay_received (sets : SetsSsrc setSsrc ssrc) {datagram : Bytes} :
    (relay setSsrc { r with buffer := overlay r.buffer (datagram.take bufferSize) }
      (datagram.take bufferSize).length isOpen).packets = r.packets ++
        if rtpHeaderSize ≤ datagram.length ∧ isOpen = true then [setSsrc (datagram.take bufferSize)] else [] := by
  have same : rtpHeaderSize ≤ (datagram.take bufferSize).length ↔ rtpHeaderSize ≤ datagram.length := by
    rw [List.length_take, rtpHeaderSize, bufferSize]
    omega
  rw [relay_packets]
  simp only [same]
  split_ifs with sent
  · have room := same.mpr sent.1
    rw [overlay, set_append sets room, ← length_set sets room, List.take_left]
  · rfl

/-- Each packet on the track is a datagram that was received, with the field set, none left out and in order,
exactly if no turn sends the buffer again. -/
theorem relayed_iff (sets : SetsSsrc setSsrc ssrc)
    (run : Trail (mediaHandler setSsrc) { buffer := buffer } past r) :
    r.packets = forwarded setSsrc past ↔ Throughout (fun past r e => ¬Resends past r e) past := by
  constructor
  · have counted : (forwarded setSsrc past).length ≤ r.packets.length ∧
        ((forwarded setSsrc past).length = r.packets.length →
          Throughout (fun past r e => ¬Resends past r e) past) := by
      induction run with
      | start => exact ⟨Nat.le_refl _, fun _ => trivial⟩
      | next previous stepped ih =>
        cases mediaHandler_moved stepped with
        | recv =>
          rw [forwarded_recv, relay_received sets, List.length_append, List.length_append]
          exact ⟨by omega, fun same => ⟨id, ih.2 (by omega)⟩⟩
        | @again len isOpen _ =>
          rw [forwarded_fails, relay_packets, List.length_append]
          refine ⟨by omega, fun same => ?_⟩
          split_ifs at same with resent
          · rw [List.length_singleton] at same
            omega
          · exact ⟨resent, ih.2 same⟩
        | ended =>
          rw [forwarded_fails]
          exact ⟨ih.1, fun same => ⟨id, ih.2 same⟩⟩
    intro same
    exact counted.2 (by rw [same])
  · intro fresh
    refine run.invariant_of_allowed (fun past r => r.packets = forwarded setSsrc past) rfl ?_ fresh
    intro past r e r' _ same once stepped
    cases mediaHandler_moved stepped with
    | recv => rw [forwarded_recv, relay_received sets, same]
    | @again len isOpen _ =>
      have unsent : ¬(rtpHeaderSize ≤ len ∧ isOpen = true) := once
      rw [forwarded_fails, relay_packets, if_neg unsent, List.append_nil, same]
    | ended => rw [forwarded_fails, same]

/-- A turn that sends the buffer again puts on the track, for each place but those of the field, the byte of the
last datagram that reached it. -/
theorem resent (sets : SetsSsrc setSsrc ssrc) (whole : buffer.length = bufferSize)
    (run : Trail (mediaHandler setSsrc) { buffer := buffer } past r)
    (stepped : r.mediaHandler setSsrc (.recvFails (some len) true) = some r') (header : rtpHeaderSize ≤ len) :
    ∃ packet, r'.packets = r.packets ++ [packet] ∧ packet.length = len ∧
      (packet.drop 8).take 4 = ssrc ∧
      ∀ i < len, i < 8 ∨ 12 ≤ i →
        packet[i]? = (((taken past).filter (fun piece => i < piece.length)).getLast?.getD buffer)[i]? := by
  have agrees := agrees_of_run sets whole run
  have size : r.buffer.length = bufferSize := by
    rw [agrees.size, length_overlayAll (by rw [whole]; exact length_taken past), whole]
  have room : rtpHeaderSize ≤ r.buffer.length := by
    rw [size]
    decide
  cases mediaHandler_moved stepped with
  | again short =>
    refine ⟨(setSsrc r.buffer).take len, ?_, ?_, ?_, fun i inside outside => ?_⟩
    · rw [relay_packets, if_pos ⟨header, rfl⟩]
    · rw [List.length_take, length_set sets room]
      omega
    · rw [rtpHeaderSize] at header room
      rw [sets.sets _ room, List.drop_take, List.append_assoc,
        List.drop_append_of_le_length (by rw [List.length_take]; omega), List.take_take,
        List.drop_of_length_le (by rw [List.length_take]; omega), List.nil_append, Nat.min_eq_left (by omega),
        ← sets.size, List.take_left]
    · rw [List.getElem?_take_of_lt inside, getElem?_set sets room outside, agrees.outside i outside,
        getElem?_overlayAll]

/-- `simple_offerer.cpp` does not send again. -/
theorem simple_relayed (sets : SetsSsrc setSsrc ssrc)
    (run : Trail (simpleOfferer setSsrc) { buffer := buffer } past r) : r.packets = forwarded setSsrc past := by
  induction run with
  | start => rfl
  | @next past r e r' previous stepped ih =>
    cases e with
    | recv datagram isOpen =>
      rw [simpleOfferer] at stepped
      cases mediaHandler_moved stepped with
      | recv => rw [forwarded_recv, relay_received sets, ih]
    | recvFails sent isOpen =>
      rw [simpleOfferer] at stepped
      cases mediaHandler_moved stepped with
      | ended => rw [forwarded_fails, ih]

/-- A `setSsrc` for the number 42. -/
def setSsrc42 (buffer : Bytes) : Bytes := buffer.take 8 ++ [0, 0, 0, 42] ++ buffer.drop 12

theorem sets_ssrc42 : SetsSsrc setSsrc42 [0, 0, 0, 42] := ⟨rfl, fun _ _ => rfl⟩

def video : List MediaEvent :=
  [.recv (List.replicate 20 7) true, .recv [1, 2, 3] true, .recv (List.replicate 30 9) false]

theorem video_relayed : ∃ past r,
    execute (mediaHandler setSsrc42) [] { buffer := List.replicate bufferSize 0 } video = some (past, r) ∧
    r.packets = forwarded setSsrc42 past := by
  have ran : (execute (mediaHandler setSsrc42) [] { buffer := List.replicate bufferSize 0 } video).any
      (fun run => decide (Throughout (fun past r e => ¬Resends past r e) run.1)) = true := by rfl
  obtain ⟨past, r, done, fresh⟩ := execute_check _ ran
  exact ⟨past, r, done, (relayed_iff sets_ssrc42 (execute_trail done)).mpr (of_decide_eq_true fresh)⟩

/-- A datagram that comes while the track is closed is sent when `recv` fails. -/
theorem video_resent : ∃ past r r',
    execute (mediaHandler setSsrc42) [] { buffer := List.replicate bufferSize 0 } video = some (past, r) ∧
    r.mediaHandler setSsrc42 (.recvFails (some 25) true) = some r' ∧
    ∃ packet, r'.packets = r.packets ++ [packet] ∧ packet.length = 25 ∧
      (packet.drop 8).take 4 = [0, 0, 0, 42] ∧
      ∀ i < 25, i < 8 ∨ 12 ≤ i → packet[i]? = (((taken past).filter (fun piece => i < piece.length)).getLast?.getD
        (List.replicate bufferSize 0))[i]? := by
  have ran : (execute (mediaHandler setSsrc42) [] { buffer := List.replicate bufferSize 0 } video).any
      (fun run => (run.2.mediaHandler setSsrc42 (.recvFails (some 25) true)).isSome) = true := by rfl
  obtain ⟨past, r, done, able⟩ := execute_check _ ran
  obtain ⟨r', stepped⟩ := Option.isSome_iff_exists.mp able
  exact ⟨past, r, r', done, stepped,
    resent sets_ssrc42 (List.length_replicate ..) (execute_trail done) stepped (by decide)⟩

end MediaRelay

end Signaling
