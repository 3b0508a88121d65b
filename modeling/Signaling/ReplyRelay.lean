import Signaling.AcceptPairing
import Signaling.Network
import Signaling.OutboundQueues

namespace Signaling
open Machine CText

/-- The INVITE with the number was sent by the session, for its CALL. -/
def InviteOf (past : History) (i number : Nat) : Prop :=
  ∃ step ∈ past, step.2 = .thread i .invite ∧ step.1.invites = number

/-- The number of the INVITE that a listener answers in the step, with the text in its ACCEPT. -/
def Server.answered (s : Server) : Event → Option (Nat × Text)
  | .listener e (.dispatch (some sdp)) =>
    (s.outbound e).head?.bind fun message => if message.content.asksReply then message.invite.map (·, sdp) else none
  | _ => none

/-- The session sent the INVITE with the number, and the INVITE branch of the callee answered that with the text. -/
structure Replied (past : History) (i number : Nat) (sdp : Text) : Prop where
  invited : InviteOf past i number
  answered : ∃ step ∈ past, step.1.answered step.2 = some (number, sdp)

/-- The first word of a reply, as `sscanf` leaves it in `accept_command`. -/
def acceptCommand (incoming : Text) : Text := ((scanWord incoming).map Prod.fst).getD []

/-- A reply that ends inside the buffer, with a first word that fits its array and does not begin with ACCEPT. -/
def Refused (reply : Text) : Prop :=
  ∃ text, received reply = some text ∧ (acceptCommand text).length < fieldSize ∧
    hasKeyword "ACCEPT".toList (acceptCommand text) = false

/-- An empty reply is one, and so is what `recv` gets where there is nobody to reply. -/
theorem refused_nothing : Refused [] := ⟨[], by decide⟩

/-- The string that the listener receives next. -/
def Shared.incoming (w : Shared) (e : Endpoint) : Option Text :=
  (w.outbound e).head?.bind fun message => received (message.content.frame.take socketBufferSize)

/-- The INVITE branch of a callee queues its ACCEPT with the number of the INVITE. -/
def Answers (s : Server) : Event → Prop
  | .listener e (.dispatch (some sdp)) => ∀ message rest frame t, s.outbound e = message :: rest →
      message.content.asksReply = true → acceptFrame sdp = some frame →
        s.step (.listener e (.dispatch (some sdp))) = some t → t.inbound e = s.inbound e ++ [⟨frame, message.invite⟩]
  | _ => True

/-- What each step does with the frame by which a callee has answered INVITE `number` of session `i`: the
handler that reads it is the one of session `i`, and goes on to forward it; the forwarding queues it on the
callback connection of session `i` and nowhere else; and the listener that takes it is on such a connection and
puts the text into `remote_sdp`. -/
def Relays (s : Server) (i number : Nat) (sdp frame : Text) : Event → Prop
  | .thread j (.answer foreign) => ∀ h fd own w, s.threads[j]? = some h → h.phase = .waiting fd own →
      s.ReplyRead fd foreign ⟨frame, some number⟩ w → j = i ∧ own = number ∧
        ∃ t, s.step (.thread j (.answer foreign)) = some t ∧ t.outbound = s.outbound ∧
          t.threads[i]? = some (h.goto (.forwarding ⟨frame, some number⟩ number))
  | .thread j .forward => ∀ h own, s.threads[j]? = some h → h.phase = .forwarding ⟨frame, some number⟩ own →
      j = i ∧ ∃ t k, s.step (.thread j .forward) = some t ∧ t.outbound = Function.update s.outbound (.callback i k)
        (s.outbound (.callback i k) ++ [⟨.accept frame, some number⟩])
  | .listener e (.dispatch _) => (s.outbound e).head? = some ⟨.accept frame, some number⟩ →
      (∃ k, e = .callback i k) ∧ (s.incoming e).bind remoteSdp = some sdp
  | _ => True

/-- A reply that is refused sends nothing to anybody and changes no record, and the handler goes on with its
next command. -/
def Drops (s : Server) : Event → Prop
  | .thread j (.answer foreign) => ∀ h fd number reply w, s.threads[j]? = some h → h.phase = .waiting fd number →
      s.ReplyRead fd foreign reply w → Refused reply.content →
        ∃ t, s.step (.thread j (.answer foreign)) = some t ∧ t.outbound = s.outbound ∧ t.userStore = s.userStore ∧
          t.threads[j]? = some (h.goto .loop)
  | _ => True

/-- Every text that a callee answers with goes to the caller as it is, and other replies go nowhere. -/
structure ReplyRelayed (past : History) (s : Server) (event : Event) : Prop where
  answers : Answers s event
  relays : ∀ i number sdp, nul ∉ sdp → sdp.length ≤ 1016 → Replied past i number sdp →
    ∃ frame, acceptFrame sdp = some frame ∧ Relays s i number sdp frame event
  drops : Drops s event

def Event.forwardOf : Event → Option Nat
  | .thread i .forward => some i
  | _ => none

/-- The descriptor denotes a callback socket of the session, and the listener on it runs. -/
def Server.hasListener (s : Server) (i : Nat) (fd : Int) : Bool :=
  match s.endpoint fd with
  | some (.callback j k) => j = i && s.peer (.callback j k) = .listening
  | _ => false

/-- INVITEs go one at a time, and replies are forwarded to the callback connection of the session itself. -/
def Direct (past : History) (s : Server) (event : Event) : Prop :=
  OneAtATime past s event ∧ ∀ i ∈ event.forwardOf, ∀ h ∈ s.threads[i]?, s.hasListener i h.clientSocketFd = true

instance (past : History) (s : Server) (event : Event) : Decidable (Direct past s event) :=
  inferInstanceAs (Decidable (OneAtATime past s event ∧
    ∀ i ∈ event.forwardOf, ∀ h ∈ s.threads[i]?, s.hasListener i h.clientSocketFd = true))

/-- The numbers by which INVITEs, handlers and forwarded replies belong to sessions. -/
structure Traced (past : History) (s : Server) : Prop where
  below : ∀ i number, InviteOf past i number → number < s.invites
  one : ∀ i j number, InviteOf past i number → InviteOf past j number → i = j
  waiting : ∀ i fd number, s.waits i fd number → InviteOf past i number
  forwarding : ∀ i incoming number, s.forwards i incoming number → InviteOf past i number
  replying : ∀ (i : Nat) (h : Handler) message incoming, s.threads[i]? = some h → h.phase = .replying message →
    message ≠ .accept incoming
  queued : ∀ e incoming tag, ⟨.accept incoming, tag⟩ ∈ s.outbound e →
    ∃ i k number, e = .callback i k ∧ tag = some number ∧ InviteOf past i number

section Steps
variable {past : History} {s t : Server} {event : Event} {i j number : Nat} {fd : Int} {h h' : Handler} {e : Endpoint}
  {incoming : Tagged Text} {sdp frame : Text}

theorem InviteOf.later {step : Server × Event} (invited : InviteOf past i number) : InviteOf (step :: past) i number := by
  obtain ⟨sent, member, rest⟩ := invited
  exact ⟨sent, List.mem_cons_of_mem _ member, rest⟩

theorem InviteOf.cases (invited : InviteOf ((s, event) :: past) i number) :
    event = .thread i .invite ∧ s.invites = number ∨ InviteOf past i number := by
  obtain ⟨sent, member, rest⟩ := invited
  rcases List.mem_cons.mp member with rfl | before
  · exact Or.inl rest
  · exact Or.inr ⟨sent, before, rest⟩

/-- INVITEs are counted. -/
theorem Server.invites_step (stepped : s.step event = some t) :
    t.invites = s.invites + 1 ∧ (∃ i, event = .thread i .invite) ∨
      t.invites = s.invites ∧ ∀ i, event ≠ .thread i .invite := by
  cases step_moved stepped with
  | accept | acceptLate | acceptFails | interrupt => exact Or.inr ⟨rfl, by simp⟩
  | listener moved => exact Or.inr ⟨by rw [Shared.listen_eq moved], by simp⟩
  | thread _ moved =>
    cases moved with
    | invite => exact Or.inl ⟨rfl, _, rfl⟩
    | greet | reply | forward | exitReply | exitNotice => exact Or.inr ⟨by rw [Shared.send_eq], by simp⟩
    | connect => exact Or.inr ⟨by rw [Shared.connected_eq], by simp⟩
    | accepted _ read | declined _ read => exact Or.inr ⟨by rw [Shared.readReply_eq read], by simp⟩
    | _ => exact Or.inr ⟨rfl, by simp⟩

theorem Shared.readReply_of_read {w w' : Shared} {foreign : Text} (read : w.ReplyRead fd foreign incoming w') :
    w.readReply fd foreign = some (incoming, w') := by
  cases read with
  | reply there queue => simp [readReply, there, queue]
  | gone there queue unread => simp [readReply, there, queue, unread]
  | foreign there accepted =>
    rcases accepted with ⟨i, rfl⟩ | rfl <;> simp [readReply, there]
  | nothing other plain served =>
    unfold readReply
    split
    · rename_i there
      exact absurd there (other _ _)
    · rename_i there
      exact absurd there (plain _)
    · rename_i there
      exact absurd there served
    · rfl

theorem traced_initial : Traced [] Server.initial where
  below _ _ invited := by simp [InviteOf] at invited
  one _ _ _ invited := by simp [InviteOf] at invited
  waiting i _ _ waits := by
    obtain ⟨h, atThread, _⟩ := waits
    simp [Server.initial] at atThread
  forwarding i _ _ forwards := by
    obtain ⟨h, atThread, _⟩ := forwards
    simp [Server.initial] at atThread
  replying i h _ _ atThread := by simp [Server.initial] at atThread
  queued e _ _ member := by simp [Server.initial] at member

/-- A message of a handler goes to one connection at most. -/
theorem Shared.mem_send {w : Shared} {message new : Tagged Outgoing} (member : message ∈ (w.send fd new).outbound e) :
    message ∈ w.outbound e ∨ message = new ∧ w.endpoint fd = some e := by
  by_cases there : w.endpoint fd = some e
  · rcases outbound_send_cases w fd new e with quiet | added
    · exact Or.inl (quiet ▸ member)
    · exact (List.mem_append.mp (added ▸ member)).imp_right fun same => ⟨List.mem_singleton.mp same, there⟩
  · exact Or.inl (send_elsewhere there ▸ member)

theorem Traced.queued_step (traced : Traced past s) (paired : Paired s) (direct : Direct past s event)
    (stepped : s.step event = some t) {content : Text} {tag : Option Nat} (member : ⟨.accept content, tag⟩ ∈ t.outbound e) :
    ∃ i k number, e = .callback i k ∧ tag = some number ∧ InviteOf past i number := by
  cases Server.step_moved stepped with
  | accept | acceptLate | acceptFails | interrupt => exact traced.queued e content tag member
  | @listener x a w' moved =>
    by_cases same : e = x
    · subst same
      cases Shared.listen_moved moved with
      | quit => exact traced.queued e content tag member
      | leave _ queue | answer _ queue | pass _ queue =>
        refine traced.queued e content tag (queue ▸ List.mem_cons_of_mem _ ?_)
        simpa using member
    · exact traced.queued e content tag (((Shared.listen_other moved).2 e same).1 ▸ member)
  | @thread i a h h' w' atThread moved =>
    cases moved with
    | greet | invite | exitReply | exitNotice =>
      rcases Shared.mem_send member with before | ⟨new, _⟩
      · exact traced.queued e content tag before
      · simp at new
    | @reply message atPhase =>
      rcases Shared.mem_send member with before | ⟨new, _⟩
      · exact traced.queued e content tag before
      · exact absurd (congrArg Tagged.content new).symm (traced.replying i h message content atThread atPhase)
    | @forward incoming number atPhase =>
      rcases Shared.mem_send member with before | ⟨new, there⟩
      · exact traced.queued e content tag before
      · have own := direct.2 i rfl h atThread
        rw [Server.hasListener, there] at own
        cases e with
        | callback j k =>
          obtain ⟨same, _⟩ := Bool.and_eq_true_iff.mp own
          have forwards : s.forwards i incoming number := ⟨h, atThread, atPhase⟩
          refine ⟨i, k, number, by rw [of_decide_eq_true same], ?_, traced.forwarding i incoming number forwards⟩
          rw [← (paired.forwarded i incoming number forwards).1]
          exact congrArg Tagged.invite new
        | _ => simp at own
    | connect => exact traced.queued e content tag (by simpa using member)
    | accepted _ read | declined _ read =>
      exact traced.queued e content tag (Shared.readReply_outbound read ▸ member)
    | _ => exact traced.queued e content tag member

/-- A handler that waits has just sent the INVITE, or has waited before. -/
theorem Handler.Moved.waiting_origin {w w' : Shared} {a : Action} (moved : h.Moved i w a h' w')
    (waiting : h'.phase = .waiting fd number) : a = .invite ∧ number = w.invites := by
  cases moved with
  | invite =>
    cases waiting
    exact ⟨rfl, rfl⟩
  | ignored atPhase => simp [atPhase] at waiting
  | _ => simp [Handler.goto] at waiting

/-- A handler that forwards has just read the reply to its INVITE. -/
theorem Handler.Moved.forwarding_origin {w w' : Shared} {a : Action} (moved : h.Moved i w a h' w')
    (forwarding : h'.phase = .forwarding incoming number) : ∃ fd, h.phase = .waiting fd number := by
  cases moved with
  | accepted atPhase =>
    cases forwarding
    exact ⟨_, atPhase⟩
  | ignored atPhase => simp [atPhase] at forwarding
  | _ => simp [Handler.goto] at forwarding

theorem Handler.Moved.replying_fixed {w w' : Shared} {a : Action} {message : Outgoing} {content : Text}
    (moved : h.Moved i w a h' w') (replying : h'.phase = .replying message) : message ≠ .accept content := by
  cases moved with
  | signup | login | logout =>
    cases replying
    simp
  | ignored atPhase => simp [atPhase] at replying
  | _ => simp [Handler.goto] at replying

theorem Traced.step (traced : Traced past s) (paired : Paired s) (direct : Direct past s event)
    (stepped : s.step event = some t) : Traced ((s, event) :: past) t where
  below i number invited := by
    rcases Server.invites_step stepped with ⟨more, _⟩ | ⟨same, other⟩
    · rcases invited.cases with ⟨_, rfl⟩ | before
      · omega
      · have less := traced.below i number before
        omega
    · rcases invited.cases with ⟨sent, _⟩ | before
      · exact absurd sent (other i)
      · exact same ▸ traced.below i number before
  one i j number first second := by
    rcases first.cases with ⟨rfl, rfl⟩ | first <;> rcases second.cases with ⟨sent, _⟩ | second
    · cases sent
      rfl
    · exact absurd (traced.below j _ second) (lt_irrefl _)
    · rename_i own
      exact absurd (traced.below i _ first) (by rw [own]; exact lt_irrefl _)
    · exact traced.one i j number first second
  waiting i fd number waits := by
    obtain ⟨h', after, waiting⟩ := waits
    rcases Server.thread_origin stepped after with ⟨before, _⟩ | ⟨a, h, rfl, _, moved⟩ | ⟨_, _, rfl⟩
    · exact (traced.waiting i fd number ⟨h', before, waiting⟩).later
    · obtain ⟨rfl, rfl⟩ := moved.waiting_origin waiting
      exact ⟨_, List.mem_cons_self, rfl, rfl⟩
    · simp at waiting
  forwarding i incoming number forwards := by
    obtain ⟨h', after, forwarding⟩ := forwards
    rcases Server.thread_origin stepped after with ⟨before, _⟩ | ⟨a, h, rfl, before, moved⟩ | ⟨_, _, rfl⟩
    · exact (traced.forwarding i incoming number ⟨h', before, forwarding⟩).later
    · obtain ⟨fd, waiting⟩ := moved.forwarding_origin forwarding
      exact (traced.waiting i fd number ⟨h, before, waiting⟩).later
    · simp at forwarding
  replying i h message content after replying := by
    rcases Server.thread_origin stepped after with ⟨before, _⟩ | ⟨a, h, rfl, before, moved⟩ | ⟨_, _, rfl⟩
    · exact traced.replying i h message content before replying
    · exact moved.replying_fixed replying
    · simp at replying
  queued e content tag member := by
    obtain ⟨i, k, number, there, tagged, invited⟩ := traced.queued_step paired direct stepped member
    exact ⟨i, k, number, there, tagged, invited.later⟩

theorem traced_of_run (run : ServerRun past s) (direct : Throughout Direct past) : Traced past s ∧ Paired s :=
  run.invariant_of_allowed (fun past s => Traced past s ∧ Paired s) ⟨traced_initial, paired_initial⟩
    (fun _ _ _ _ previous both allowed stepped =>
      ⟨both.1.step both.2 allowed stepped, both.2.step (wired_of_run previous) allowed.1 stepped⟩) direct

/-- The answer of a listener. -/
theorem answers_step : Answers s event := by
  cases event with
  | listener e a =>
    cases a with
    | quit => trivial
    | dispatch localSdp =>
      cases localSdp with
      | none => trivial
      | some sdp =>
        intro message rest frame t queue asks framed stepped
        cases Server.step_moved stepped with
        | listener moved =>
          cases Shared.listen_moved moved with
          | @answer _ _ _ _ _ built _ queue' _ _ _ framed' =>
            cases queue.symm.trans queue'
            cases framed.symm.trans framed'
            simp
          | leave _ queue' read left =>
            cases queue.symm.trans queue'
            rw [Outgoing.asksReply, read] at asks
            rcases left with ended | exit | none
            · simp [ended] at asks
            · simp [exit] at asks
            · simp at none
          | pass _ queue' read left =>
            cases queue.symm.trans queue'
            rw [Outgoing.asksReply, read] at asks
            rcases left with ⟨accept, _⟩ | other
            · simp [accept] at asks
            · simp [other] at asks
  | accept | interrupt | thread => trivial

/-- What the handler does with a reply that it can test. -/
theorem Server.answer_step {w : Shared} {foreign : Text} {accepted : Bool} (atThread : s.threads[j]? = some h)
    (waiting : h.phase = .waiting fd number) (read : s.ReplyRead fd foreign incoming w)
    (tested : (received incoming.content).bind acceptTest = some accepted) :
    ∃ t, s.step (.thread j (.answer foreign)) = some t ∧ t.outbound = s.outbound ∧ t.userStore = s.userStore ∧
      t.threads[j]? = some (h.goto (if accepted then .forwarding incoming number else .loop)) := by
  have got := Shared.readReply_of_read read
  have moved : h.step j s.toShared (.answer foreign) =
      some (h.goto (if accepted then .forwarding incoming number else .loop), w) := by
    simp only [Handler.step, waiting, got, Option.bind_some, tested, Option.map_some]
  exact ⟨_, step_of_handler atThread moved, Shared.readReply_outbound got, Shared.readReply_userStore got,
    List.getElem?_set_self (List.getElem?_eq_some_iff.mp atThread).1⟩

theorem drops_step : Drops s event := by
  cases event with
  | thread j a =>
    cases a with
    | answer foreign =>
      rintro h fd number reply w atThread waiting read ⟨text, string, short, other⟩
      have tested : (received reply.content).bind acceptTest = some false := by
        rw [string, Option.bind_some]
        exact (if_neg (Nat.not_le.mpr short)).trans (congrArg some other)
      exact Server.answer_step atThread waiting read tested
    | _ => trivial
  | accept | interrupt | listener => trivial

/-- The frame of a callee, read by the handler that sent the INVITE. -/
theorem relays_answer {w : Shared} {foreign : Text} {own : Nat} (wired : Wired s) (traced : Traced past s)
    (paired : Paired s) (invited : InviteOf past i number) (free : nul ∉ sdp) (framed : acceptFrame sdp = some frame)
    (direct : Direct past s (.thread j (.answer foreign))) (atThread : s.threads[j]? = some h)
    (waiting : h.phase = .waiting fd own) (read : s.ReplyRead fd foreign ⟨frame, some number⟩ w) : j = i ∧ own = number ∧
      ∃ t, s.step (.thread j (.answer foreign)) = some t ∧ t.outbound = s.outbound ∧
        t.threads[i]? = some (h.goto (.forwarding ⟨frame, some number⟩ number)) := by
  have tested : (received frame).bind acceptTest = some true := by
    rw [received_acceptFrame free framed, Option.bind_some, acceptTest_text]
  obtain ⟨t, stepped, quiet, _, after⟩ := Server.answer_step atThread waiting read tested
  have same := ((paired.step wired direct.1 stepped).forwarded j _ own ⟨_, after, rfl⟩).1
  cases Option.some.inj same
  cases traced.one j i number (traced.waiting j fd number ⟨h, atThread, waiting⟩) invited
  exact ⟨rfl, rfl, t, stepped, quiet, after⟩

theorem relays_forward {own : Nat} (traced : Traced past s) (paired : Paired s) (invited : InviteOf past i number)
    (direct : Direct past s (.thread j .forward)) (atThread : s.threads[j]? = some h)
    (forwarding : h.phase = .forwarding ⟨frame, some number⟩ own) : j = i ∧ ∃ t k,
      s.step (.thread j .forward) = some t ∧ t.outbound = Function.update s.outbound (.callback i k)
        (s.outbound (.callback i k) ++ [⟨.accept frame, some number⟩]) := by
  have forwards : s.forwards j ⟨frame, some number⟩ own := ⟨h, atThread, forwarding⟩
  cases Option.some.inj (paired.forwarded j _ own forwards).1
  have session : j = i := traced.one j i number (traced.forwarding j _ number forwards) invited
  subst session
  have listens := direct.2 j rfl h atThread
  unfold Server.hasListener at listens
  split at listens
  · rename_i l k there
    obtain ⟨same, running⟩ := Bool.and_eq_true_iff.mp listens
    rw [of_decide_eq_true same] at there running
    have moved : h.step j s.toShared .forward =
        some (h.goto .loop, s.send h.clientSocketFd ⟨.accept frame, some number⟩) := by
      simp only [Handler.step, forwarding]
    refine ⟨rfl, _, k, Server.step_of_handler atThread moved, ?_⟩
    simp [Shared.send, there, Shared.reaches, of_decide_eq_true running]
  · simp at listens

/-- The frame of a callee, taken by the listener of the caller. -/
theorem relays_listener (traced : Traced past s) (invited : InviteOf past i number) (free : nul ∉ sdp)
    (framed : acceptFrame sdp = some frame) (head : (s.outbound e).head? = some ⟨.accept frame, some number⟩) :
    (∃ k, e = .callback i k) ∧ (s.incoming e).bind remoteSdp = some sdp := by
  obtain ⟨j, k, own, there, same, sent⟩ := traced.queued e frame (some number) (List.mem_of_head? head)
  cases Option.some.inj same
  cases traced.one j i number sent invited
  have size := length_acceptFrame framed
  have bytes : (Outgoing.accept frame).frame.take socketBufferSize = frame := by
    rw [Outgoing.frame, padded, size, Nat.sub_self, List.replicate_zero, List.append_nil, List.take_of_length_le size.le]
  refine ⟨⟨k, there⟩, ?_⟩
  rw [Shared.incoming, head, Option.bind_some, bytes, received_acceptFrame free framed, Option.bind_some, remoteSdp_accept]

/-- After such a run, a step that meets the condition too. -/
theorem relayed_next (run : ServerRun past s) (before : Throughout Direct past) (direct : Direct past s event) :
    ReplyRelayed past s event := by
  obtain ⟨traced, paired⟩ := traced_of_run run before
  refine ⟨answers_step, fun i number sdp free short replied => ⟨_, acceptFrame_eq short, ?_⟩, drops_step⟩
  have framed := acceptFrame_eq short
  have invited := replied.invited
  cases event with
  | thread j a =>
    cases a with
    | answer foreign =>
      intro h fd own w atThread waiting read
      exact relays_answer (wired_of_run run) traced paired invited free framed direct atThread waiting read
    | forward =>
      intro h own atThread forwarding
      exact relays_forward traced paired invited direct atThread forwarding
    | _ => trivial
  | listener e a =>
    cases a with
    | quit => trivial
    | dispatch localSdp => exact relays_listener traced invited free framed
  | accept | interrupt => trivial

/-- In a run whose INVITEs go one at a time and in which replies are forwarded to the callback connection of the
session itself, every text by which a callee answers an INVITE comes to the session that sent this INVITE, as
it is and to no other, and replies that are refused change nothing: at every step of the run, and at whatever
such step comes next. -/
theorem reply_relayed (run : ServerRun past s) (direct : Throughout Direct past) :
    Throughout ReplyRelayed past ∧ ∀ event, Direct past s event → ReplyRelayed past s event := by
  refine ⟨run.throughout_of_allowed ?_ direct, fun event next => relayed_next run direct next⟩
  intro past s event t previous before next _
  exact relayed_next previous before next

end Steps

/-- Amy's handler forwards the reply of bob, and her listener has taken her greeting. -/
def relayedRun : List Event :=
  threeClients ++ session 1 (rings "bob") ++ bobAnswers ++ session 1 [.answer [], .forward] ++
    [.listener (.callback 1 0) (.dispatch none)]

theorem bob_relayed : ∃ past s, execute Server.step [] Server.initial relayedRun = some (past, s) ∧
    Replied past 1 0 "sdp".toList ∧
      (s.outbound (.callback 1 0)).head? = some ⟨.accept (clientFrame "ACCEPT sdp"), some 0⟩ ∧
      Throughout ReplyRelayed past ∧ ReplyRelayed past s (.listener (.callback 1 0) (.dispatch (some []))) := by
  have ran : (execute Server.step [] Server.initial relayedRun).any (fun r =>
      decide (Throughout Direct r.1 ∧ (∃ step ∈ r.1, step.2 = .thread 1 .invite ∧ step.1.invites = 0) ∧
        (∃ step ∈ r.1, step.1.answered step.2 = some (0, "sdp".toList)) ∧
        (r.2.outbound (.callback 1 0)).head? = some ⟨.accept (clientFrame "ACCEPT sdp"), some 0⟩ ∧
        Direct r.1 r.2 (.listener (.callback 1 0) (.dispatch (some []))))) = true := by
    decide +kernel
  obtain ⟨past, s, done, checked⟩ := execute_check _ ran
  obtain ⟨before, invited, answered, head, direct⟩ := of_decide_eq_true checked
  obtain ⟨along, next⟩ := reply_relayed (execute_trail done) before
  exact ⟨past, s, done, ⟨invited, answered⟩, head, along, next _ direct⟩

/-- Eve's handler reads the reply that bob gives to amy, and forwards it to eve. -/
theorem crossed_not_relayed : ∃ past s, execute Server.step [] Server.initial crossedRun = some (past, s) ∧
    ¬Throughout ReplyRelayed past := by
  have ran : (execute Server.step [] Server.initial crossedRun).any (fun r =>
      endsWith (.thread 2 .forward) (fun before earlier =>
        decide ((before.threads[2]?).map Handler.phase = some (.forwarding ⟨clientFrame "ACCEPT sdp", some 0⟩ 1) ∧
          (∃ step ∈ earlier, step.2 = .thread 1 .invite ∧ step.1.invites = 0) ∧
          ∃ step ∈ earlier, step.1.answered step.2 = some (0, "sdp".toList))) r.1) = true := by
    decide +kernel
  obtain ⟨past, s, done, checked⟩ := execute_check _ ran
  obtain ⟨before, earlier, rfl, facts⟩ := endsWith_iff.mp checked
  obtain ⟨phase, invited, answered⟩ := of_decide_eq_true facts
  refine ⟨_, s, done, fun relayed => ?_⟩
  obtain ⟨h, atThread, forwarding⟩ := Option.map_eq_some_iff.mp phase
  obtain ⟨frame, framed, relays⟩ := relayed.1.relays 1 0 "sdp".toList (by decide) (by decide) ⟨invited, answered⟩
  have same : frame = clientFrame "ACCEPT sdp" := Option.some.inj (framed.symm.trans (by decide +kernel))
  have own := (relays h 1 atThread (same ▸ forwarding)).1
  simp at own

end Signaling
