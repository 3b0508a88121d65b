import Signaling.Network

namespace Signaling
open Machine CText

/-- `local_sdp` is the complete text of the description. -/
def Party.Holds (p : Party) (description : Description) : Prop :=
  p.client.localSdp ≠ [] ∧ p.source = some description

namespace Network

/-- A CALL carries the caller's local offer, an ACCEPT the answer made for its INVITE, and the offer
that an answer was made for is a local description before the answer becomes the remote one. -/
def Right (s : Network) : NetworkEvent → Prop
  | .client i (.choose (.call _)) => (s.parties i).client.placesCall = true →
      ∃ offer ∈ (s.parties i).descriptions.head?, offer.isOffer = true ∧ (s.parties i).Holds offer
  | .listen i k false => ∀ buffer invite, s.incoming (.callback i k) = some (buffer, invite) →
      match branch buffer with
      | .invite => (s.parties i).Holds (.answer invite)
      | .accept => ∃ number ∈ invite, ∃ offer ∈ s.offers number,
          offer.isOffer = true ∧ offer ∈ (s.parties i).descriptions
      | .ended | .exit | .other => True
  | _ => True

/-- No call is placed. -/
def Silent (s : Network) : NetworkEvent → Prop
  | .client i (.choose (.call _)) => (s.parties i).client.placesCall = false
  | _ => True

instance (s : Network) (e : NetworkEvent) : Decidable (s.Silent e) := by
  unfold Network.Silent
  cases_type* NetworkEvent ClientAction Choice <;> infer_instance

end Network

def Command.isCall : Command → Bool
  | .call .. => true
  | _ => false

def Outgoing.ofCall : Outgoing → Bool
  | .invite .. | .accept _ => true
  | _ => false

/-- The handler is in the CALL branch. -/
def Phase.ofCall : Phase → Bool
  | .replying message => message.ofCall
  | .calling .. | .looking .. | .inviting .. | .waiting .. | .forwarding .. => true
  | _ => false

/-- The message is not a CALL. -/
def Uncalled (message : Text) : Prop := ∀ command ∈ commandOf message, command.isCall = false

/-- The client has sent no CALL, and its peer connection has done nothing. -/
structure Party.Uncalled (p : Party) : Prop where
  blank : p.client.localSdp = []
  undescribed : p.descriptions = []
  sent : ∀ message ∈ p.sent, Signaling.Uncalled message

def Shared.Uncalled (w : Shared) : Prop := ∀ e, ∀ message ∈ w.outbound e, message.content.ofCall = false

section Steps
variable {c c' : Client} {message : Outgoing} {i : Nat} {h h' : Handler} {w w' : Shared} {a : Action} {fd : Int}
  {e : Endpoint}

theorem Client.Acted.uncalled {a : ClientAction} {message : Option Text} (acted : c.Acted a c' message)
    (silent : ∀ peerUsername, a = .choose (.call peerUsername) → c.placesCall = false) :
    c'.localSdp = c.localSdp ∧ ∀ request ∈ message.toList, Uncalled request := by
  cases acted with
  | start _ sent =>
    refine ⟨rfl, fun request member command read => ?_⟩
    cases List.mem_singleton.mp member
    obtain ⟨_, _, rfl⟩ := commandOf_client sent read
    rfl
  | @signUpLogin signUp _ _ _ _ _ sent =>
    refine ⟨rfl, fun request member command read => ?_⟩
    cases List.mem_singleton.mp member
    rw [commandOf_register sent] at read
    cases Option.some.inj read
    cases signUp <;> rfl
  | call _ placed =>
    rw [silent _ rfl] at placed
    exact absurd placed (by decide)
  | logout _ sent =>
    refine ⟨rfl, fun request member command read => ?_⟩
    cases List.mem_singleton.mp member
    rw [commandOf_logout sent] at read
    cases Option.some.inj read
    rfl
  | sendExit _ sent =>
    refine ⟨rfl, fun request member command read => ?_⟩
    cases List.mem_singleton.mp member
    rw [commandOf_exit sent] at read
    cases Option.some.inj read
    rfl
  | leave | stay | close | interrupt => exact ⟨rfl, by simp⟩

theorem Client.receive_localSdp {reply : Option Text} (read : c.receive reply = some c') :
    c'.localSdp = c.localSdp := by
  cases receive_received read with
  | signed | signingFails | leave | leavingFails => rfl
  | @loggedOut fromExit _ next _ same =>
    subst same
    cases fromExit <;> rfl
  | @logoutFails fromExit => cases fromExit <;> rfl

theorem Shared.Uncalled.update (uncalled : w.Uncalled) {queue : List (Tagged Outgoing)} (target : Endpoint)
    (plain : ∀ message ∈ queue, message.content.ofCall = false) :
    ∀ e, ∀ message ∈ Function.update w.outbound target queue e, message.content.ofCall = false :=
  (Function.forall_update_iff w.outbound
    fun _ queue => ∀ message ∈ queue, message.content.ofCall = false).mpr ⟨plain, fun e _ => uncalled e⟩

theorem Shared.Uncalled.send (uncalled : w.Uncalled) (plain : message.ofCall = false) (number : Option Nat) :
    (w.send fd ⟨message, number⟩).Uncalled := by
  unfold Shared.send
  split
  · rename_i target _
    split_ifs
    · refine uncalled.update target fun sent member => ?_
      rcases List.mem_append.mp member with before | new
      · exact uncalled target sent before
      · cases List.mem_singleton.mp new
        exact plain
    · exact uncalled
  · exact uncalled

/-- A handler that has not heard a CALL stays out of its branch. -/
theorem Handler.Moved.uncalled (moved : h.Moved i w a h' w') (outside : h.phase.ofCall = false)
    (heard : ∀ command ∈ h.hears w a, command.isCall = false) (uncalled : w.Uncalled) :
    h'.phase.ofCall = false ∧ w'.Uncalled := by
  cases moved with
  | call _ called | refuse _ called => exact absurd (heard _ called) (by simp [Command.isCall])
  | hasUser atPhase | hasNoUser atPhase | getUser atPhase | noUser atPhase | invite atPhase | accepted atPhase
  | declined atPhase | forward atPhase => simp [atPhase, Phase.ofCall] at outside
  | greet | exitReply | exitNotice => exact ⟨rfl, uncalled.send rfl none⟩
  | reply atPhase =>
    rw [atPhase] at outside
    exact ⟨rfl, uncalled.send outside none⟩
  | connect => exact ⟨rfl, by rw [Shared.Uncalled, Shared.connected_outbound]; exact uncalled⟩
  | ignored => exact ⟨outside, uncalled⟩
  | stop | hangup | client | signup | login | logout | exit | socket | socketFails | connectFails
  | exitReplyFails | close | finish | closeAgain => exact ⟨rfl, uncalled⟩

/-- A listener takes messages away. -/
theorem Shared.Uncalled.listen {a : ListenerAction} (uncalled : w.Uncalled) (moved : w.listen e a = some w') :
    w'.Uncalled := by
  cases Shared.listen_moved moved with
  | quit => exact uncalled
  | leave _ queue | answer _ queue | pass _ queue =>
    exact uncalled.update e fun sent member => uncalled e sent (queue ▸ List.mem_cons_of_mem _ member)

/-- What the server writes of itself leads into no branch that reads a text. -/
theorem branch_fixed (plain : message.ofCall = false) {buffer : Text}
    (read : received (message.frame.take socketBufferSize) = some buffer) :
    branch buffer = .exit ∨ branch buffer = .other := by
  have fixed : ∀ message ∈ [Outgoing.signupReply, .loginReply, .logoutReply, .exitReply, .hello, .exitNotice],
      ∀ buffer ∈ received (message.frame.take socketBufferSize),
        branch buffer = .exit ∨ branch buffer = .other := by
    decide +kernel
  cases message with
  | invite | accept => simp [Outgoing.ofCall] at plain
  | _ => exact fixed _ (by simp) buffer read

end Steps

namespace Dialogue
variable {d d' : Dialogue} {e : DialogueEvent}

/-- Nobody has placed a call, and the peer connection of the client has done nothing. -/
structure Uncalled (d : Dialogue) : Prop where
  blank : d.client.localSdp = []
  sent : ∀ message ∈ d.sent, Signaling.Uncalled message
  handler : d.handler.phase.ofCall = false
  world : d.world.Uncalled

theorem Uncalled.step (uncalled : d.Uncalled) (stepped : d.step e = some d')
    (silent : ∀ peerUsername, e = .client (.choose (.call peerUsername)) → d.client.placesCall = false)
    (own : ∀ localSdp w, e ≠ .gathered localSdp ∧ e ≠ .others w) : d'.Uncalled := by
  cases e with
  | client a =>
    obtain ⟨c, message, acted, rfl⟩ := step_client stepped
    obtain ⟨same, plain⟩ := acted.uncalled fun peerUsername call => silent peerUsername (by rw [call])
    refine ⟨same.trans uncalled.blank, fun request member => ?_, uncalled.handler, uncalled.world⟩
    rcases List.mem_append.mp member with before | new
    · exact uncalled.sent request before
    · exact plain request new
  | reply =>
    rcases step_reply stepped with ⟨message, rest, buffer, c, queue, _, read, rfl⟩ | ⟨_, _, c, read, rfl⟩
    · refine ⟨(Client.receive_localSdp read).trans uncalled.blank, uncalled.sent, uncalled.handler, ?_⟩
      refine uncalled.world.update d.connection fun sent member => ?_
      exact uncalled.world d.connection sent
        (show sent ∈ d.replies from queue ▸ List.mem_cons_of_mem message member)
    · exact ⟨(Client.receive_localSdp read).trans uncalled.blank, uncalled.sent, uncalled.handler, uncalled.world⟩
  | replyFails =>
    obtain ⟨_, _, c, read, rfl⟩ := step_replyFails stepped
    exact ⟨(Client.receive_localSdp read).trans uncalled.blank, uncalled.sent, uncalled.handler, uncalled.world⟩
  | gathered localSdp => exact absurd rfl (own localSdp d.world).1
  | handler a =>
    obtain ⟨taken, h', w', takes, run, rfl⟩ := step_handler stepped
    have heard : ∀ command ∈ d.handler.hears d.world a, command.isCall = false := by
      intro command hears
      obtain ⟨_, bytes, rfl⟩ := Handler.hears_recv hears
      obtain ⟨read, filled⟩ := commandOf_heard hears
      obtain ⟨next, _⟩ := (takes_recv takes).resolve_right fun empty => filled empty.1
      exact uncalled.sent bytes (List.mem_of_getElem? next) command read
    obtain ⟨outside, world⟩ := (Handler.step_moved run).uncalled uncalled.handler heard uncalled.world
    exact ⟨uncalled.blank, uncalled.sent, outside, world⟩
  | others w => exact absurd rfl (own [] w).2

end Dialogue

namespace Network
variable {s t : Network} {e : NetworkEvent}

/-- Nobody has placed a call, and no peer connection has done anything. -/
structure Uncalled (s : Network) : Prop where
  parties : ∀ i, (s.parties i).Uncalled
  handlers : ∀ h ∈ s.threads, h.phase.ofCall = false
  world : s.toShared.Uncalled

theorem uncalled_initial : initial.Uncalled where
  parties _ := ⟨rfl, rfl, by simp [initial]⟩
  handlers := by simp [initial]
  world _ := by simp [initial]

/-- Whatever a listener receives leads into no branch that reads a text. -/
theorem Uncalled.incoming (uncalled : s.Uncalled) {target : Endpoint} {buffer : Text} {invite : Option Nat}
    (read : s.incoming target = some (buffer, invite)) : branch buffer = .exit ∨ branch buffer = .other := by
  unfold Network.incoming at read
  split at read
  · rename_i message rest _ queue
    obtain ⟨_, got, same⟩ := Option.map_eq_some_iff.mp read
    cases same
    exact branch_fixed (uncalled.world target message (queue ▸ List.mem_cons_self)) got
  · simp at read

theorem remoteSdp_none {buffer : Text} (plain : branch buffer = .exit ∨ branch buffer = .other) :
    remoteSdp buffer = none := by
  rcases plain with exit | other
  · rw [remoteSdp, exit]
  · rw [remoteSdp, other]

/-- Without a call a step is right exactly if it places none. -/
theorem Uncalled.right_iff (uncalled : s.Uncalled) : s.Right e ↔ s.Silent e := by
  cases e with
  | client i a =>
    cases a with
    | choose choice =>
      cases choice with
      | call peerUsername =>
        have blank := (uncalled.parties i).blank
        constructor
        · intro right
          by_contra placed
          obtain ⟨_, _, _, filled, _⟩ := right (Bool.of_not_eq_false placed)
          exact filled blank
        · intro (silent : _ = false) placed
          simp [silent] at placed
      | signUpLogin | logout | exit | other => exact Iff.rfl
    | start | exit | close | interrupt => exact Iff.rfl
  | listen i k raised =>
    cases raised with
    | true => exact Iff.rfl
    | false =>
      refine iff_of_true (fun buffer invite read => ?_) trivial
      rcases uncalled.incoming read with exit | other
      · rw [exit]
        trivial
      · rw [other]
        trivial
  | accept | interrupt | reply | replyFails | handler | gathered | describe | quit => exact Iff.rfl

theorem Uncalled.update (uncalled : s.Uncalled) (i : Nat) {p : Party} (party : p.Uncalled) :
    ∀ j, (Function.update s.parties i p j).Uncalled :=
  (Function.forall_update_iff s.parties fun _ p => p.Uncalled).mpr ⟨party, fun j _ => uncalled.parties j⟩

theorem Uncalled.converse (uncalled : s.Uncalled) {i : Nat} {e : DialogueEvent} (stepped : s.converse i e = some t)
    (silent : ∀ peerUsername, e = .client (.choose (.call peerUsername)) →
      (s.parties i).client.placesCall = false)
    (own : ∀ localSdp w, e ≠ .gathered localSdp ∧ e ≠ .others w) : t.Uncalled := by
  obtain ⟨h, atThread, stepped⟩ := Option.bind_eq_some_iff.mp stepped
  obtain ⟨d, run, rfl⟩ := Option.map_eq_some_iff.mp stepped
  have party := uncalled.parties i
  have before : (s.dialogue i h).Uncalled :=
    ⟨party.blank, party.sent, uncalled.handlers h (List.mem_of_getElem? atThread), uncalled.world⟩
  have after := before.step run silent own
  refine ⟨uncalled.update i ⟨after.blank, party.undescribed, after.sent⟩, fun h member => ?_, after.world⟩
  rcases List.mem_or_eq_of_mem_set member with other | rfl
  · exact uncalled.handlers h other
  · exact after.handler

/-- A listener that takes a message changes nothing else. -/
theorem Uncalled.listen (uncalled : s.Uncalled) {i k : Nat} {raised : Bool}
    (stepped : s.listen i k raised = some t) : t.Uncalled := by
  obtain ⟨⟨buffer, invite⟩, read, stepped⟩ := Option.bind_eq_some_iff.mp stepped
  have plain := remoteSdp_none (uncalled.incoming read)
  dsimp only at stepped
  rw [if_neg (by simp [plain])] at stepped
  split_ifs at stepped
  obtain ⟨w, moved, rfl⟩ := Option.map_eq_some_iff.mp stepped
  have party := uncalled.parties i
  exact ⟨uncalled.update i ⟨party.blank, party.undescribed, party.sent⟩, uncalled.handlers,
    uncalled.world.listen moved⟩

theorem Uncalled.step (uncalled : s.Uncalled) (silent : s.Silent e) (stepped : s.step e = some t) :
    t.Uncalled := by
  cases e with
  | accept ok =>
    obtain ⟨u, accepted, rfl⟩ := Option.map_eq_some_iff.mp stepped
    cases Server.step_moved accepted with
    | accept =>
      refine ⟨uncalled.parties, fun h member => ?_, uncalled.world⟩
      rcases List.mem_append.mp member with before | new
      · exact uncalled.handlers h before
      · cases List.mem_singleton.mp new
        rfl
    | acceptLate | acceptFails => exact ⟨uncalled.parties, uncalled.handlers, uncalled.world⟩
  | interrupt =>
    cases Option.some.inj stepped
    exact ⟨uncalled.parties, uncalled.handlers, uncalled.world⟩
  | client i a =>
    refine uncalled.converse stepped (fun peerUsername call => ?_) (by simp)
    cases call
    exact silent
  | reply | replyFails | handler => exact uncalled.converse stepped (by simp) (by simp)
  | gathered i localSdp =>
    simp only [Network.step, Network.gathered] at stepped
    rw [if_pos (Or.inl (uncalled.parties i).undescribed)] at stepped
    simp at stepped
  | describe i k =>
    obtain ⟨⟨buffer, invite⟩, read, stepped⟩ := Option.bind_eq_some_iff.mp stepped
    obtain ⟨sdp, text, _⟩ := Option.bind_eq_some_iff.mp stepped
    simp [remoteSdp_none (uncalled.incoming read)] at text
  | listen => exact uncalled.listen stepped
  | quit i k =>
    obtain ⟨w, moved, rfl⟩ := Option.map_eq_some_iff.mp stepped
    exact ⟨uncalled.parties, uncalled.handlers, uncalled.world.listen moved⟩

/-- The descriptions are exchanged right on just those runs on which no call is placed: the text of the
first CALL is empty, for it takes an INVITE or an ACCEPT to start gathering. -/
theorem sdp_right_iff {past : List (Network × NetworkEvent)} (run : Trail step initial past s) :
    Throughout (fun _ => Right) past ↔ Throughout (fun _ => Silent) past := by
  refine run.throughout_iff (fun _ => Uncalled) uncalled_initial ?_ ?_
  · intro past s e t _ uncalled silent stepped
    exact uncalled.step silent stepped
  · intro past s e t uncalled _
    exact uncalled.right_iff

end Network

/-- A client connects, and its user signs up. -/
def clientSignsUp : List NetworkEvent :=
  [.accept true, .client 0 (.start "127.0.0.1".toList 9000), .handler 0 (.recv (clientFrame "CLIENT 127.0.0.1 9000")),
    .handler 0 (.socket true), .handler 0 (.connect true), .handler 0 .greet, .listen 0 0 false,
    .client 0 (.choose (.signUpLogin true bob pw)), .handler 0 (.recv (clientFrame "SIGNUP bob pw")),
    .handler 0 .reply, .reply 0]

theorem sign_up_right : ∃ past s, execute Network.step [] Network.initial clientSignsUp = some (past, s) ∧
    Throughout (fun _ => Network.Right) past := by
  have ran : (execute Network.step [] Network.initial clientSignsUp).any (fun r =>
      decide (Throughout (fun _ => Network.Silent) r.1)) = true := by
    decide +kernel
  obtain ⟨past, s, done, checked⟩ := execute_check _ ran
  exact ⟨past, s, done, (Network.sdp_right_iff (execute_trail done)).mpr (of_decide_eq_true checked)⟩

/-- The first call of all. -/
theorem first_call_blank : ∃ past s,
    execute Network.step [] Network.initial (clientSignsUp ++ [.client 0 (.choose (.call bob))]) = some (past, s) ∧
      ¬Throughout (fun _ => Network.Right) past := by
  have ran : (execute Network.step [] Network.initial (clientSignsUp ++ [.client 0 (.choose (.call bob))])).any
      (fun r => endsWith (.client 0 (.choose (.call bob))) (fun s _ => (s.parties 0).client.placesCall &&
        (s.parties 0).client.localSdp.isEmpty) r.1) = true := by
    decide +kernel
  obtain ⟨past, s, done, checked⟩ := execute_check _ ran
  obtain ⟨before, earlier, rfl, both⟩ := endsWith_iff.mp checked
  obtain ⟨placed, blank⟩ := Bool.and_eq_true_iff.mp both
  refine ⟨_, s, done, fun right => ?_⟩
  obtain ⟨_, _, _, filled, _⟩ := right.1 placed
  exact filled (List.isEmpty_iff.mp blank)

end Signaling
