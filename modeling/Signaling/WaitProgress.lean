import Signaling.AcceptPairing
import Signaling.Shutdown
import Signaling.Wire

namespace Signaling
open Machine CText

/-- The listener answers the INVITE that is about to be sent, and the socket is not one that is still to be
connected. -/
def Shared.arrives (w : Shared) : Phase → Bool
  | .inviting receiver sdp _ receiverFd => (Outgoing.invite receiver sdp).asksReply && !w.connectable receiverFd
  | _ => true

def InviteArrives (_ : History) (s : Server) : Event → Prop
  | .thread i .invite => ∀ h ∈ s.threads[i]?, s.arrives h.phase = true
  | _ => True

instance (past : History) (s : Server) (e : Event) : Decidable (InviteArrives past s e) := by
  unfold InviteArrives
  cases_type* Event Action <;> infer_instance

/-- Whoever waits on a callback connection waits on one that has been connected, and there is something to
come on it as long as it has a listener. -/
def Server.Expecting (s : Server) : Prop :=
  ∀ i n number j k, s.waits i (n : Nat) number → Slots.lookup s.descriptors n = some (.callback j k) →
    s.peer (.callback j k) ≠ .unconnected ∧
      (s.peer (.callback j k) = .listening → s.outstanding (.callback j k) ≠ [])

section Steps
variable {past : History} {s t : Server} {e : Event} {i j k n number : Nat} {x : Endpoint} {w w' : Shared}
  {h h' : Handler} {a : Action} {fd : Int}

/-- A socket is connected once, and its listener stops for good. -/
theorem Server.peer_step (stepped : s.step e = some t) :
    t.peer x = s.peer x ∨ s.peer x = .unconnected ∧ t.peer x = .listening ∨ t.peer x = .gone := by
  cases e with
  | accept | interrupt | thread => exact (peer_silent stepped (by simp)).imp_right Or.inl
  | listener target =>
    cases step_moved stepped with
    | listener moved =>
      by_cases same : x = target
      · subst same
        cases Shared.listen_moved moved with
        | quit | leave => exact Or.inr (Or.inr (by simp))
        | answer | pass => exact Or.inl rfl
      · exact Or.inl ((Shared.listen_other moved).2 x same).2.2

/-- A listener that goes on has as much to come as before. -/
theorem Shared.outstanding_kept {target : Endpoint} {a : ListenerAction} (moved : w.listen target a = some w')
    (still : w'.peer x = .listening) : w'.outstanding x = w.outstanding x := by
  by_cases same : x = target
  · subst same
    cases listen_moved moved with
    | quit | leave => simp at still
    | answer listening queue read invite =>
      simp [outstanding, listening, queue, Outgoing.asksReply, read, invite]
    | @pass _ _ _ buffer listening queue read quiet =>
      have notInvite : branch buffer ≠ .invite := by
        rcases quiet with ⟨accept, _⟩ | other
        · simp [accept]
        · simp [other]
      simp [outstanding, listening, queue, Outgoing.asksReply, read, notInvite]
  · obtain ⟨outbound, inbound, peer⟩ := (listen_other moved).2 x same
    simp [outstanding, outbound, inbound, peer]

/-- A step that is neither an INVITE nor the reading of a reply. -/
theorem Server.Expecting.quiet (expecting : s.Expecting) (wired : Wired s) (paired : Paired s)
    (allowed : OneAtATime past s e) (stepped : s.step e = some t) (quiet : e.pairs = false) : t.Expecting := by
  intro i n number j k waits found
  rw [Server.waits_step stepped quiet] at waits
  have old : Slots.lookup s.descriptors n = some (.callback j k) := by
    rcases entry_origin wired allowed stepped found with old | ⟨nobody, _⟩
    · exact old
    · exact absurd waits nobody.not_waits
  obtain ⟨connected, coming⟩ := expecting i n number j k waits old
  rcases @Server.peer_step s t e (.callback j k) stepped with same | ⟨unconnected, _⟩ | gone
  · refine ⟨same ▸ connected, fun listening => ?_⟩
    have before := coming (same ▸ listening)
    cases Server.step_moved stepped with
    | accept | acceptLate | acceptFails | interrupt => exact before
    | listener moved =>
      rw [Shared.outstanding_kept moved listening]
      exact before
    | @thread i' a h h' w' atThread moved =>
      have equal : w'.outstanding (.callback j k) = s.outstanding (.callback j k) :=
        moved.outstanding_eq quiet wired.untouched (fun message => wired.replies i' h message atThread)
          (fun incoming number forwarding => (paired.forwarded i' incoming number ⟨h, atThread, forwarding⟩).2)
      exact equal ▸ before
  · exact absurd unconnected connected
  · exact ⟨by simp [gone], by simp [gone]⟩

/-- What an INVITE does to a connection somebody waits on. -/
theorem Server.Expecting.invite {receiver sdp : Text} {receiverUser : User} (expecting : s.Expecting)
    (atThread : s.threads[i]? = some h) (atPhase : h.phase = .inviting receiver sdp receiverUser fd)
    (arrives : s.arrives h.phase = true) (threads : t.threads = s.threads.set i (h.goto (.waiting fd s.invites)))
    (shared : t.toShared = { s.send fd ⟨.invite receiver sdp, some s.invites⟩ with invites := s.invites + 1 }) :
    t.Expecting := by
  rw [atPhase, Shared.arrives, Bool.and_eq_true, Bool.not_eq_true'] at arrives
  obtain ⟨asks, connected⟩ := arrives
  have same : ∀ x, t.outstanding x = (s.send fd ⟨.invite receiver sdp, some s.invites⟩).outstanding x := by
    intro x
    rw [shared]
    rfl
  have table : t.descriptors = s.descriptors := by rw [shared]; simp
  have peers : t.peer = s.peer := by rw [shared]; simp
  intro i' n number' j k waits found
  rw [table] at found
  rw [peers, same]
  rw [Server.waits_set atThread threads] at waits
  split_ifs at waits with own
  · cases waits
    have there : s.endpoint n = some (.callback j k) := found
    refine ⟨fun unconnected => ?_, fun listening => ?_⟩
    · simp [Shared.connectable, there, unconnected] at connected
    · have reached := Shared.reaches_of_listening listening
      have sent : (s.send n ⟨.invite receiver sdp, some s.invites⟩).outbound (.callback j k) =
          s.outbound (.callback j k) ++ [⟨.invite receiver sdp, some s.invites⟩] := Shared.send_reached there reached
      simp [Shared.outstanding, sent, listening, asks]
  · obtain ⟨connected, coming⟩ := expecting i' n number' j k waits found
    refine ⟨connected, fun listening => ?_⟩
    rcases @Shared.outstanding_send s.toShared fd (.callback j k) ⟨.invite receiver sdp, some s.invites⟩ with
      equal | ⟨_, _, added⟩
    · exact equal ▸ coming listening
    · simp [added]

/-- A handler that reads a reply takes it from nobody else who waits. -/
theorem Server.Expecting.answer {foreign : Text} {incoming : Tagged Text} (expecting : s.Expecting)
    (wired : Wired s) (paired : Paired s) (atThread : s.threads[i]? = some h) (waiting : h.phase = .waiting fd number)
    (read : s.readReply fd foreign = some (incoming, w')) (threads : t.threads = s.threads.set i h')
    (shared : t.toShared = w') (done : ∀ fd c, h'.phase ≠ .waiting fd c) : t.Expecting := by
  intro i' n number' j k waits found
  have table : t.descriptors = s.descriptors := by rw [shared, Shared.readReply_descriptors read]
  have peers : t.peer = s.peer := by rw [shared, Shared.readReply_peer read]
  rw [table] at found
  rw [peers, shared]
  rw [Server.waits_set atThread threads] at waits
  split_ifs at waits with own
  · exact absurd waits (done _ _)
  · obtain ⟨connected, coming⟩ := expecting i' n number' j k waits found
    refine ⟨connected, fun listening => ?_⟩
    rcases @Shared.outstanding_readReply s.toShared w' fd (.callback j k) foreign incoming read with
      ⟨there, _⟩ | ⟨equal, _⟩
    · obtain ⟨m, rfl, found'⟩ := Shared.endpoint_eq_some.mp there
      cases wired.injective n m j k found found'
      have mine := (Server.waits_thread atThread).mpr waiting
      exact absurd (paired.alone n j k found i' i number' number waits mine) own
    · exact equal ▸ coming listening

theorem Server.Expecting.step (expecting : s.Expecting) (wired : Wired s) (paired : Paired s)
    (allowed : OneAtATime past s e) (arrives : InviteArrives past s e) (stepped : s.step e = some t) :
    t.Expecting := by
  cases quiet : e.pairs with
  | false => exact expecting.quiet wired paired allowed stepped quiet
  | true =>
    cases e with
    | thread i a =>
      cases Server.step_moved stepped with
      | @thread _ _ h h' w' atThread moved =>
        cases moved with
        | invite atPhase => exact expecting.invite atThread atPhase (arrives h atThread) rfl rfl
        | accepted atPhase read | declined atPhase read =>
          exact expecting.answer wired paired atThread atPhase read rfl rfl (by simp [Handler.goto])
        | _ => simp [Event.pairs] at quiet
    | _ => simp [Event.pairs] at quiet

theorem expecting_of_run (run : ServerRun past s) (allowed : Throughout OneAtATime past)
    (arrives : Throughout InviteArrives past) : s.Expecting ∧ Paired s := by
  refine run.invariant_of_allowed (fun _ s => s.Expecting ∧ Paired s) ⟨?_, paired_initial⟩ ?_ (allowed.and arrives)
  · rintro i n number j k ⟨h, atThread, _⟩
    simp [Server.initial] at atThread
  · intro past s e t previous both permitted stepped
    have wired := wired_of_run previous
    exact ⟨both.1.step wired both.2 permitted.1 permitted.2 stepped, both.2.step wired permitted.1 stepped⟩

/-- What the server reads as a reply it can test. -/
theorem Server.answer_possible {g : Handler} (answers : s.Answers) (atThread : s.threads[i]? = some g)
    (waiting : g.phase = .waiting fd number) (read : (s.readReply fd []).isSome = true) :
    ∃ t, s.step (.thread i (.answer [])) = some t := by
  obtain ⟨⟨incoming, w⟩, got⟩ := Option.isSome_iff_exists.mp read
  obtain ⟨accepted, tested⟩ := answers.tested got
  refine Option.isSome_iff_exists.mp ?_
  simp only [Server.step, atThread, Option.bind_some, Handler.step, waiting, got, tested, Option.map_some,
    Option.isSome_some]

/-- When INVITEs go one at a time to connected sockets and fit, the handler can read a reply, or its INVITE is
still among the messages that the callee's listener is to read. -/
theorem no_lost_invite (run : ServerRun past s) (allowed : Throughout OneAtATime past)
    (arrives : Throughout InviteArrives past) (waits : s.waits i fd number) :
    (s.readReply fd []).isSome = true ∨
      ∃ j k, s.endpoint fd = some (.callback j k) ∧ s.peer (.callback j k) = .listening ∧
        ∃ message ∈ s.outbound (.callback j k), message.content.asksReply = true ∧ message.invite = some number := by
  obtain ⟨h, atThread, waiting⟩ := waits
  cases read : s.readReply fd [] with
  | some got => exact Or.inl rfl
  | none =>
    obtain ⟨j, k, there, listening, queue⟩ := Shared.readReply_none.mp read
    obtain ⟨n, rfl, found⟩ := Shared.endpoint_eq_some.mp there
    obtain ⟨expecting, paired⟩ := expecting_of_run run allowed arrives
    have mine : s.waits i n number := ⟨h, atThread, waiting⟩
    have coming := (expecting i n number j k mine found).2 listening
    obtain ⟨i', number', waits', one⟩ := (paired.awaited n j k found).resolve_left coming
    cases paired.alone n j k found i i' number number' mine waits'
    cases waiting.symm.trans ((Server.waits_thread atThread).mp waits')
    rw [Shared.outstanding, queue, if_pos listening, List.map_nil, List.nil_append] at one
    have member : some number ∈ ((s.outbound (.callback j k)).filter (·.content.asksReply)).map Tagged.invite := by
      rw [one]
      exact List.mem_singleton_self _
    obtain ⟨message, inside, same⟩ := List.mem_map.mp member
    obtain ⟨queued, asks⟩ := List.mem_filter.mp inside
    exact Or.inr ⟨j, k, there, listening, message, queued, asks, same⟩

end Steps

/-- What the server does in a run with listeners that receive bytes is allowed. -/
def Wire.Keeps (allowed : History → Server → Event → Prop) (past : List (Wire × WireEvent)) (w : Wire) :
    WireEvent → Prop
  | .server event => allowed (served past) w.toServer event
  | .recv .. | .quit _ => True

instance (allowed : History → Server → Event → Prop) [∀ past s e, Decidable (allowed past s e)]
    (past : List (Wire × WireEvent)) (w : Wire) : ∀ event, Decidable (Wire.Keeps allowed past w event)
  | .server event => inferInstanceAs (Decidable (allowed (served past) w.toServer event))
  | .recv .. | .quit _ => isTrue trivial

/-- The INVITE with the number is among the bytes that the listener has not received, all of it. -/
def Wire.Unreceived (w : Wire) (e : Endpoint) (number : Nat) : Prop :=
  ∃ done message more, w.outbound e = done ++ message :: more ∧ message.content.asksReply = true ∧
    message.invite = some number ∧ w.taken e ≤ (bytesOf done).length

section Bytes
variable {past : List (Wire × WireEvent)} {w : Wire} {s : Server} {e : Endpoint} {i number : Nat} {fd : Int}

theorem Shared.arrives_outbound {v : Shared} {o : Endpoint → List (Tagged Outgoing)} {phase : Phase} :
    ({ v with outbound := o } : Shared).arrives phase = v.arrives phase := by
  cases phase with
  | inviting => rw [arrives, arrives, connectable_outbound]
  | _ => rfl

/-- Neither condition looks at what is outbound. -/
theorem Server.Alike.keeps {past' : History} {event : Event} (below : s.Below w)
    (allowed : OneAtATime past' w.toServer event ∧ InviteArrives past' w.toServer event) :
    OneAtATime past' s event ∧ InviteArrives past' s event := by
  have same := below.eq
  generalize w.toServer = n at *
  generalize n.outbound = o at same
  subst same
  cases event with
  | accept ok => cases ok <;> exact allowed
  | interrupt | listener => exact ⟨trivial, trivial⟩
  | thread i a =>
    cases a with
    | socket ok => cases ok <;> exact allowed
    | invite =>
      refine ⟨fun h atThread fd target => ?_, fun h atThread => ?_⟩
      · have free := allowed.1 h atThread fd target
        simp only [Server.Free, Shared.endpoint_outbound] at free
        exact free
      · exact Shared.arrives_outbound.symm.trans (allowed.2 h atThread)
    | _ => exact ⟨trivial, trivial⟩

theorem Position.unread {log queue : List (Tagged Outgoing)} {taken : Nat} {message : Tagged Outgoing}
    (position : Position log taken queue) (member : message ∈ queue) :
    ∃ done more, log = done ++ message :: more ∧ taken ≤ (bytesOf done).length := by
  obtain ⟨before, after, rfl⟩ := List.append_of_mem member
  cases position with
  | @whole done _ split _ place =>
    refine ⟨done ++ before, after, by rw [split, List.append_assoc], ?_⟩
    rw [place, bytesOf_append, List.length_append]
    exact Nat.le_add_right _ _
  | @halfway done receiver sdp number _ split _ _ place =>
    refine ⟨done ++ ⟨.invite receiver sdp, number⟩ :: before, after, by rw [split]; simp, ?_⟩
    have long : socketBufferSize * 2 ≤ (Outgoing.invite receiver sdp).frame.length := length_invite
    rw [place]
    simp only [bytesOf_append, bytesOf_cons, List.length_append]
    omega

/-- When INVITEs go one at a time to connected sockets and fit, no call waits for what cannot come: the handler
can read a reply, or has nothing more to read as the listener has gone, or all of its INVITE is still before a
listener that runs. -/
theorem call_not_lost (run : WireRun past w) (allowed : Throughout (Wire.Keeps OneAtATime) past)
    (arrives : Throughout (Wire.Keeps InviteArrives) past) (waits : w.waits i fd number) :
    (∃ t, w.step (.server (.thread i (.answer []))) = some t) ∨
      ∃ j k, w.endpoint fd = some (.callback j k) ∧ w.peer (.callback j k) = .listening ∧
        w.Unreceived (.callback j k) number := by
  obtain ⟨past', s, run', below, within⟩ := run.simulated_within
    (fun past s e => OneAtATime past s e ∧ InviteArrives past s e) below_initial
    (fun _ _ _ _ _ previous below stepped => below.followed (sound_of_run previous) stepped)
    (fun past past' w event s e below keeps shown => by
      cases event with
      | server event =>
        cases Option.some.inj shown
        exact below.keeps keeps
      | recv | quit =>
        cases Option.some.inj shown
        exact ⟨trivial, trivial⟩) (allowed.and arrives)
  obtain ⟨h, atThread, waiting⟩ := waits
  have mine : s.waits i fd number := ⟨h, below.threads ▸ atThread, waiting⟩
  have answers : w.toServer.Answers := fun x reply member =>
    answers_of_run run' x reply (by rw [show s.inbound = w.inbound by rw [below.shared.rest]]; exact member)
  have peers : s.peer = w.peer := by rw [below.shared.rest]
  rcases no_lost_invite run' (within.imp fun both => both.1) (within.imp fun both => both.2) mine with
    read | ⟨j, k, there, listening, message, queued, asks, same⟩
  · have got : (w.readReply fd []).isSome = true := by
      rw [below.shared.rest, Shared.readReply_outbound_eq, Option.isSome_map]
      exact read
    obtain ⟨t, moved⟩ := Server.answer_possible answers atThread waiting got
    have stepped : w.step (.server (.thread i (.answer []))) = some { w with toServer := t } := by
      simp only [Wire.step, moved, Option.map_some]
    exact Or.inl ⟨_, stepped⟩
  · have position := (below.shared.queues (.callback j k)).resolve_left (by rw [← peers, listening]; simp)
    obtain ⟨done, more, split, le⟩ := position.unread queued
    refine Or.inr ⟨j, k, below.shared.endpoint.trans there, peers ▸ listening, done, message, more, split, asks, same, le⟩

end Bytes

/-- Amy calls bob, and eve calls him when amy has her reply. -/
def inTurnOnWire : List WireEvent :=
  overWire (threeClients ++ session 1 (rings "bob")) ++
    [.recv (.callback 0 0) none, .recv (.callback 0 0) (some "sdp".toList)] ++
    overWire (session 1 [.answer [], .forward] ++ session 2 (rings "bob"))

theorem in_turn_not_lost : ∃ past w, execute Wire.step [] Wire.initial inTurnOnWire = some (past, w) ∧
    w.waits 2 7 1 ∧ ((∃ t, w.step (.server (.thread 2 (.answer []))) = some t) ∨
      ∃ j k, w.endpoint 7 = some (.callback j k) ∧ w.peer (.callback j k) = .listening ∧
        w.Unreceived (.callback j k) 1) := by
  have ran : (execute Wire.step [] Wire.initial inTurnOnWire).any (fun r =>
      decide ((r.2.threads[2]?).map Handler.phase = some (.waiting 7 1) ∧ Throughout (Wire.Keeps OneAtATime) r.1 ∧
        Throughout (Wire.Keeps InviteArrives) r.1)) = true := by
    decide +kernel
  obtain ⟨past, w, done, checked⟩ := execute_check _ ran
  obtain ⟨phase, allowed, arrives⟩ := of_decide_eq_true checked
  have waits : w.waits 2 7 1 := Option.map_eq_some_iff.mp phase
  exact ⟨past, w, done, waits, call_not_lost (execute_trail done) allowed arrives waits⟩

end Signaling
