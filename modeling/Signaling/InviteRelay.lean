import Signaling.Client
import Signaling.StoreCalls

namespace Signaling
open Machine CText

/-- The message that session `i` takes from its client in a step. -/
def Server.taken (s : Server) (i : Nat) : Event → Option Text
  | .thread j (.recv bytes) =>
    if j = i ∧ (s.dispatched (.thread j (.recv bytes))).isSome = true then some bytes else none
  | _ => none

def latestMessage (past : History) (i : Nat) : Option Text := past.findSome? fun step => step.1.taken i step.2

/-- The name and the text of the CALL, up to where the INVITE is sent. -/
def Phase.carries : Phase → Option (Text × Text)
  | .calling receiver sdp | .looking receiver sdp | .inviting receiver sdp _ _ => some (receiver, sdp)
  | _ => none

/-- The listener to which the thread is about to send an INVITE. -/
def Server.invitee (s : Server) (h : Handler) : Option Endpoint :=
  match h.phase with
  | .inviting _ _ _ receiverFd => (s.endpoint receiverFd).filter (fun e => s.peer e = .listening)
  | _ => none

/-- The texts on the way of a CALL, each with the size of the array that holds it: `message` of `call_peer`,
`buffer` of `client_handler`, its two fields, the `message` of `client_handler`, `buffer` of
`server_handler`, and its two fields. -/
def callArrays (peerUsername sdp : Text) : List (Text × Nat) :=
  let call := "CALL ".toList ++ peerUsername ++ ' ' :: sdp
  let invite := "INVITE ".toList ++ peerUsername ++ ' ' :: sdp
  [(call, socketBufferSize), (call, socketBufferSize), (peerUsername, fieldSize), (sdp, socketBufferSize),
    (invite, socketBufferSize * 2), (invite, socketBufferSize), (peerUsername, fieldSize), (sdp, socketBufferSize)]

section Frames
variable {word receiver sdp buffer : Text}

theorem scanned_receiver (plain : ∀ c ∈ receiver, isSpace c = false)
    (blank : receiver = [] → ∀ c ∈ sdp, isSpace c = true) :
    ((scanWord (' ' :: (receiver ++ ' ' :: sdp))).map Prod.fst).getD [] = receiver := by
  by_cases empty : receiver = []
  · subst empty
    have none : scanWord (' ' :: ' ' :: sdp) = none := by
      refine scanWord_eq_none.mpr fun c member => ?_
      rcases List.mem_cons.mp member with rfl | member
      · rfl
      · rcases List.mem_cons.mp member with rfl | member
        · rfl
        · exact blank rfl c member
    rw [List.nil_append, none]
    rfl
  · rw [scanWord_word empty plain (Or.inr ⟨sdp, rfl⟩)]
    rfl

/-- The text after a prefix, a name and a blank, as `strncpy` copies it. -/
theorem payload_copied (front name sdp : Text) {len : Nat} (length : len = front.length + name.length + 1) :
    ¬(front ++ name ++ ' ' :: sdp).length < len ∧
      ((front ++ name ++ ' ' :: sdp).drop len).take ((front ++ name ++ ' ' :: sdp).length - len) = sdp := by
  have whole : (front ++ name ++ ' ' :: sdp).length = len + sdp.length := by
    simp only [List.length_append, List.length_cons, length]
    omega
  have split : front ++ name ++ ' ' :: sdp = (front ++ name ++ [' ']) ++ sdp := by simp
  refine ⟨by omega, ?_⟩
  rw [whole, Nat.add_sub_cancel_left, split, List.drop_left' (by simp [length]; omega), List.take_length]

theorem decodeCall_relayed (filled : word ≠ []) (plain : ∀ c ∈ word, isSpace c = false)
    (short : word.length < fieldSize) : decode ("CALL ".toList ++ word ++ ' ' :: sdp) = some (.call word sdp) := by
  have branch : decode ("CALL ".toList ++ word ++ ' ' :: sdp) = decodeCall ("CALL ".toList ++ word ++ ' ' :: sdp) := by
    simp [decode, hasKeyword]
  have input : ("CALL ".toList ++ word ++ ' ' :: sdp).drop 4 = ' ' :: (word ++ ' ' :: sdp) := by simp
  have length : 4 + 1 + word.length + 1 = "CALL ".toList.length + word.length + 1 := rfl
  obtain ⟨inside, copied⟩ := payload_copied "CALL ".toList word sdp length
  rw [branch, decodeCall, input, scanned_receiver plain fun empty => absurd empty filled]
  simp only [copied]
  rw [if_neg (Nat.not_le.mpr short), if_neg inside]

theorem decodeInvite_relayed (plain : ∀ c ∈ receiver, isSpace c = false)
    (blank : receiver = [] → ∀ c ∈ sdp, isSpace c = true) (short : receiver.length < fieldSize) :
    decodeInvite ("INVITE ".toList ++ receiver ++ ' ' :: sdp) = some (receiver, sdp) := by
  have input : ("INVITE ".toList ++ receiver ++ ' ' :: sdp).drop 6 = ' ' :: (receiver ++ ' ' :: sdp) := by simp
  have length : 6 + 1 + receiver.length + 1 = "INVITE ".toList.length + receiver.length + 1 := rfl
  obtain ⟨inside, copied⟩ := payload_copied "INVITE ".toList receiver sdp length
  rw [decodeInvite, input, scanned_receiver plain blank]
  simp only [copied]
  rw [if_neg (Nat.not_le.mpr short), if_neg inside]

theorem decode_call (decoded : decode buffer = some (.call receiver sdp)) :
    decodeCall buffer = some (.call receiver sdp) := by
  unfold decode at decoded
  split_ifs at decoded
  · obtain ⟨_, _, client⟩ := decodeClient_client decoded
    simp at client
  · simp at decoded
  · simp at decoded
  · exact decoded
  · simp at decoded
  · simp at decoded
  · simp at decoded

/-- The fields of a CALL that is taken from a string. -/
theorem fields_of_call (free : nul ∉ buffer) (decoded : decode buffer = some (.call receiver sdp)) :
    (∀ c ∈ receiver, isSpace c = false) ∧ (receiver = [] → ∀ c ∈ sdp, isSpace c = true) ∧
      receiver.length < fieldSize ∧ nul ∉ receiver ∧ nul ∉ sdp := by
  have parsed := decode_call decoded
  obtain ⟨blanks, rest, split, white, plain, _, alone⟩ := scanned_split (buffer.drop 4)
  rw [decodeCall] at parsed
  dsimp only at parsed
  split_ifs at parsed with long wrapped
  cases Option.some.inj parsed
  refine ⟨plain, fun empty c member => ?_, Nat.not_le.mp long, fun inside => free ?_, fun inside => free ?_⟩
  · rw [empty, alone empty, List.append_nil, List.append_nil] at split
    rw [empty] at member
    have later : c ∈ (buffer.drop 4).drop 2 := by
      rw [List.drop_drop]
      exact List.mem_of_mem_take member
    exact white c (split ▸ List.mem_of_mem_drop later)
  · have there : nul ∈ buffer.drop 4 := by
      rw [split]
      exact List.mem_append_right _ (List.mem_append_left _ inside)
    exact List.mem_of_mem_drop there
  · exact List.mem_of_mem_drop (List.mem_of_mem_take inside)

end Frames

section Steps
variable {past : History} {s t : Server} {e : Endpoint} {event : Event} {i : Nat} {h h' : Handler} {w w' : Shared}
  {a : Action} {receiver sdp : Text} {number : Option Nat} {rest : List (Tagged Outgoing)}

theorem Server.taken_of_hears {bytes : Text} {command : Command} (atThread : s.threads[i]? = some h)
    (heard : h.hears s.toShared (.recv bytes) = some command) : s.taken i (.thread i (.recv bytes)) = some bytes := by
  have dispatched : s.dispatched (.thread i (.recv bytes)) = some (i, h, command) :=
    dispatched_iff.mpr ⟨_, rfl, atThread, heard⟩
  simp [taken, dispatched]

theorem Server.taken_of_quiet (atThread : s.threads[i]? = some h) (quiet : h.hears s.toShared a = none) :
    s.taken i (.thread i a) = none := by
  cases a with
  | recv bytes => simp [taken, dispatched, atThread, quiet]
  | _ => rfl

theorem Server.taken_other (other : ∀ a, event ≠ .thread i a) : s.taken i event = none := by
  cases event with
  | thread j a =>
    have differs : j ≠ i := by
      rintro rfl
      exact other a rfl
    cases a with
    | recv bytes => simp [taken, differs]
    | _ => rfl
  | _ => rfl

/-- The fields of a CALL come from the frame that was taken last. -/
theorem Handler.Moved.carries (moved : h.Moved i w a h' w') (carried : h'.phase.carries = some (receiver, sdp)) :
    h.phase.carries = some (receiver, sdp) ∧ h.hears w a = none ∨ h.hears w a = some (.call receiver sdp) := by
  cases moved with
  | call _ heard =>
    cases Option.some.inj carried
    exact Or.inr heard
  | hasUser atPhase | getUser atPhase =>
    cases Option.some.inj carried
    exact Or.inl ⟨by rw [atPhase]; rfl, rfl⟩
  | ignored atLoop => simp [atLoop, Phase.carries] at carried
  | stop | hangup | client | signup | login | refuse | logout | exit | socket | socketFails | connect
  | connectFails | greet | reply | hasNoUser | noUser | invite | accepted | declined | forward | exitReply
  | exitReplyFails | exitNotice | close | finish | closeAgain =>
    simp [Handler.goto, Phase.carries] at carried

/-- The CALL that each handler is in is the frame that it took last. -/
def Carried (past : History) (s : Server) : Prop :=
  ∀ (i : Nat) (h : Handler), s.threads[i]? = some h → ∀ receiver sdp, h.phase.carries = some (receiver, sdp) →
    ∃ message, latestMessage past i = some message ∧ commandOf message = some (.call receiver sdp)

theorem Carried.step (carried : Carried past s) (stepped : s.step event = some t) : Carried ((s, event) :: past) t := by
  intro i h' after receiver sdp carries
  rcases Server.thread_origin stepped after with ⟨before, other⟩ | ⟨a, h, rfl, before, moved⟩ | ⟨_, _, rfl⟩
  · rw [latestMessage, List.findSome?_cons, Server.taken_other other]
    exact carried i h' before receiver sdp carries
  · rcases moved.carries carries with ⟨already, quiet⟩ | heard
    · rw [latestMessage, List.findSome?_cons, Server.taken_of_quiet before quiet]
      exact carried i h before receiver sdp already
    · obtain ⟨_, bytes, rfl⟩ := Handler.hears_recv heard
      refine ⟨bytes, ?_, ?_⟩
      · rw [latestMessage, List.findSome?_cons, Server.taken_of_hears before heard]
      · rw [Handler.hears] at heard
        split_ifs at heard
        exact heard
  · simp [Phase.carries] at carries

/-- What `send` does with an INVITE to a listener. -/
theorem Server.invitee_gets (stepped : s.step (.thread i .invite) = some t) (atThread : s.threads[i]? = some h)
    (carried : h.phase.carries = some (receiver, sdp)) (invited : s.invitee h = some e) :
    t.outbound e = s.outbound e ++ [⟨.invite receiver sdp, some s.invites⟩] := by
  cases step_moved stepped with
  | thread there moved =>
    cases Option.some.inj (there.symm.trans atThread)
    cases moved with
    | invite atPhase =>
      rw [atPhase] at carried
      cases Option.some.inj carried
      simp only [invitee, atPhase, Option.filter_eq_some_iff, decide_eq_true_eq] at invited
      exact Shared.send_reached invited.1 (Shared.reaches_of_listening invited.2)

theorem Server.carries_of_invitee (invited : s.invitee h = some e) :
    ∃ receiver sdp, h.phase.carries = some (receiver, sdp) := by
  unfold invitee at invited
  split at invited
  · rename_i receiver sdp _ _ atPhase
    exact ⟨receiver, sdp, by rw [atPhase]; rfl⟩
  · simp at invited

theorem commandOf_call {c : Client} {u : Word} {message : Text} (free : nul ∉ u.text ∧ nul ∉ c.localSdp)
    (sent : c.callPeer u = some (c, message)) : commandOf message = some (.call u.text c.localSdp) := by
  obtain ⟨_, written, same⟩ := Option.map_eq_some_iff.mp sent
  cases same
  have whole : nul ∉ "CALL ".toList ++ u.text ++ ' ' :: c.localSdp := nul_notMem_fields (by decide) free.1 free.2
  rw [ofBuffer_of_free free.1, ofBuffer_of_free free.2] at written
  rw [commandOf_printed written, ofBuffer_of_free whole, decodeCall_relayed u.filled u.plain u.short]

/-- No string on the way of a CALL is longer than the INVITE. -/
theorem call_terminated {u sdp : Text} (short : u.length < fieldSize)
    (fits : 8 + u.length + sdp.length < socketBufferSize) : ∀ array ∈ callArrays u sdp, array.1.length < array.2 := by
  have call : "CALL ".toList.length = 5 := rfl
  have invite : "INVITE ".toList.length = 7 := rfl
  simp only [callArrays, List.forall_mem_cons, List.length_append, List.length_cons, call, invite,
    socketBufferSize, fieldSize] at *
  refine ⟨?_, ?_, ?_, ?_, ?_, ?_, ?_, ?_, by simp⟩ <;> omega

end Steps

end Signaling
