import Signaling.StoreCalls

namespace Signaling
open Machine CText

/-- Two memories that differ in nothing but what they hold for the connections, and there as `related` says. -/
structure Shared.Alike (related : Endpoint → List (Tagged Outgoing) → List (Tagged Outgoing) → Prop) (w v : Shared) :
    Prop where
  rest : v = { w with outbound := v.outbound }
  queues : ∀ e, related e (w.outbound e) (v.outbound e)

/-- Writing a message on both sides keeps the relation. -/
def Appendable (related : Endpoint → List (Tagged Outgoing) → List (Tagged Outgoing) → Prop) : Prop :=
  ∀ e queue log message, related e queue log → related e (queue ++ [message]) (log ++ [message])

section Memory
variable {related : Endpoint → List (Tagged Outgoing) → List (Tagged Outgoing) → Prop} {w v v' : Shared} {fd : Int}
  {message : Tagged Outgoing} {i : Nat} {h h' : Handler} {a : Action}

theorem Shared.endpoint_outbound {o : Endpoint → List (Tagged Outgoing)} :
    ({ w with outbound := o } : Shared).endpoint fd = w.endpoint fd := by
  cases fd <;> rfl

theorem Shared.connectable_outbound {o : Endpoint → List (Tagged Outgoing)} :
    ({ w with outbound := o } : Shared).connectable fd = w.connectable fd := by
  rw [connectable, connectable, endpoint_outbound]

theorem Shared.connected_outbound_eq {o : Endpoint → List (Tagged Outgoing)} :
    ({ w with outbound := o } : Shared).connected fd = { w.connected fd with outbound := o } := by
  rw [connected, connected, endpoint_outbound]
  cases w.endpoint fd <;> rfl

theorem Shared.readReply_outbound_eq {o : Endpoint → List (Tagged Outgoing)} {foreign : Text} :
    ({ w with outbound := o } : Shared).readReply fd foreign =
      (w.readReply fd foreign).map fun read => (read.1, { read.2 with outbound := o }) := by
  rw [readReply, readReply, endpoint_outbound]
  cases w.endpoint fd with
  | none => rfl
  | some e =>
    cases e with
    | callback i k =>
      dsimp only
      cases w.inbound (.callback i k) with
      | cons => rfl
      | nil =>
        dsimp only
        split_ifs <;> rfl
    | standard | listening | client | unserved => rfl

theorem Shared.Alike.endpoint (alike : w.Alike related v) : v.endpoint fd = w.endpoint fd := by
  rw [alike.rest]
  exact endpoint_outbound

theorem Shared.Alike.reaches (alike : w.Alike related v) (e : Endpoint) : v.reaches e = w.reaches e := by
  rw [alike.rest]
  cases e <;> rfl

/-- The same is written on both sides. -/
theorem Shared.Alike.send (alike : w.Alike related v) (grows : Appendable related) :
    (w.send fd message).Alike related (v.send fd message) := by
  have same := alike.rest
  rw [Shared.send, Shared.send, alike.endpoint]
  cases w.endpoint fd with
  | none => exact alike
  | some e =>
    dsimp only
    rw [alike.reaches]
    split_ifs
    · refine ⟨?_, fun x => ?_⟩
      · conv_lhs => rw [same]
      · dsimp only
        by_cases here : x = e
        · subst here
          rw [Function.update_self, Function.update_self]
          exact grows x _ _ _ (alike.queues x)
        · rw [Function.update_of_ne here, Function.update_of_ne here]
          exact alike.queues x
    · exact alike

/-- The same change of what is not outbound. -/
theorem Shared.Alike.change (alike : w.Alike related v) (change : Shared → Shared)
    (kept : ∀ w : Shared, (change w).outbound = w.outbound)
    (blind : ∀ (w : Shared) o, change { w with outbound := o } = { change w with outbound := o }) :
    (change w).Alike related (change v) := by
  refine ⟨?_, fun e => ?_⟩
  · conv_lhs => rw [alike.rest, blind]
    rw [kept]
  · rw [kept, kept]
    exact alike.queues e

theorem Handler.step_heard {bytes : Text} {command : Command} (heard : h.hears w (.recv bytes) = some command) :
    h.step i w (.recv bytes) = h.serve w command := by
  rw [hears] at heard
  split_ifs at heard with both
  simp only [step, both.1]
  rw [receive, if_neg both.2, heard, Option.bind_some]

/-- No handler reads what is outbound, so a step of it is one in the other memory too. -/
theorem Handler.step_alike (grows : Appendable related) (alike : w.Alike related v)
    (run : h.step i v a = some (h', v')) : ∃ w', h.step i w a = some (h', w') ∧ w'.Alike related v' := by
  obtain ⟨o, rfl⟩ : ∃ o, v = { w with outbound := o } := ⟨_, alike.rest⟩
  have deaf {bytes : Text} {command : Command}
      (heard : h.hears ({ w with outbound := o } : Shared) (.recv bytes) = some command) :
      h.hears w (.recv bytes) = some command := heard
  cases step_moved run with
  | stop atPhase off => exact ⟨w, by simp [step, atPhase, show w.running = false from off], alike⟩
  | hangup atPhase heard =>
    have cause := hangup_cause run heard
    refine ⟨w, ?_, alike⟩
    rcases cause with rfl | off
    · simp [step, atPhase, receive]
    · simp [step, atPhase, receive, show w.running = false from off]
  | client _ heard | exit _ heard | ignored _ heard =>
    exact ⟨w, by rw [step_heard (deaf heard), serve], alike⟩
  | signup _ heard | login _ heard | logout _ heard =>
    exact ⟨_, by rw [step_heard (deaf heard), serve],
      alike.change (fun w => { w with userStore := _ }) (fun _ => rfl) fun _ _ => rfl⟩
  | call _ heard login | refuse _ heard login =>
    exact ⟨w, by rw [step_heard (deaf heard), serve, show w.userStore.isLogin _ = _ from login]; rfl, alike⟩
  | socket atPhase =>
    exact ⟨_, by simp only [step, atPhase, openSocket, if_true],
      alike.change (fun w => w.allocate _) (fun _ => rfl) fun _ _ => rfl⟩
  | socketFails atPhase => exact ⟨w, by simp [step, atPhase, openSocket], alike⟩
  | connect atPhase possible =>
    rw [Shared.connectable_outbound] at possible
    refine ⟨w.connected h.clientSocketFd, by simp [step, atPhase, connectToClient, possible], ?_⟩
    exact alike.change (fun w => w.connected _) (fun _ => Shared.connected_outbound) fun _ _ =>
      Shared.connected_outbound_eq
  | connectFails atPhase => exact ⟨w, by simp [step, atPhase, connectToClient], alike⟩
  | greet atPhase | reply atPhase | forward atPhase | exitReply atPhase | exitNotice atPhase =>
    exact ⟨_, by simp only [step, atPhase, if_true], alike.send grows⟩
  | hasUser atPhase present | hasNoUser atPhase present =>
    exact ⟨w, by simp [step, atPhase, show w.userStore.hasUser _ = _ from present], alike⟩
  | getUser atPhase found | noUser atPhase found =>
    exact ⟨w, by simp [step, atPhase, show w.userStore.getUser _ = _ from found], alike⟩
  | invite atPhase =>
    exact ⟨_, by simp only [step, atPhase], (alike.send grows).change (fun u => { u with invites := w.invites + 1 })
      (fun _ => rfl) fun _ _ => rfl⟩
  | accepted atPhase read tested | declined atPhase read tested =>
    rw [Shared.readReply_outbound_eq] at read
    obtain ⟨⟨incoming, w'⟩, got, same⟩ := Option.map_eq_some_iff.mp read
    cases same
    refine ⟨w', by simp only [step, atPhase, got, Option.bind_some, tested, Option.map_some]; rfl, ?_⟩
    rw [Shared.readReply_eq got]
    exact alike.change (fun u => { u with inbound := w'.inbound }) (fun _ => rfl) fun _ _ => rfl
  | exitReplyFails atPhase => exact ⟨w, by simp [step, atPhase], alike⟩
  | close atPhase =>
    exact ⟨_, by simp only [step, atPhase], alike.change (fun w => w.close _) (fun _ => rfl) fun _ _ => rfl⟩
  | finish atPhase none => exact ⟨w, by simp [step, atPhase, none], alike⟩
  | closeAgain atPhase set =>
    exact ⟨_, by simp only [step, atPhase, if_neg set],
      alike.change (fun w => w.close _) (fun _ => rfl) fun _ _ => rfl⟩

/-- What a handler writes in its next step, if that is a `send`. -/
def Phase.writes : Phase → Option Outgoing
  | .greeting => some .hello
  | .replying message => some message
  | .inviting receiver sdp _ _ => some (.invite receiver sdp)
  | .forwarding incoming _ => some (.accept incoming.content)
  | .exiting => some .exitReply
  | .notifying => some .exitNotice
  | .loop | .opening | .connecting | .calling _ _ | .looking _ _ | .waiting _ _ | .closing | .closed | .returned => none

theorem Shared.outbound_send_cases (w : Shared) (fd : Int) (message : Tagged Outgoing) (e : Endpoint) :
    (w.send fd message).outbound e = w.outbound e ∨ (w.send fd message).outbound e = w.outbound e ++ [message] := by
  by_cases there : w.endpoint fd = some e
  · by_cases reached : w.reaches e = true
    · exact Or.inr (send_reached there reached)
    · exact Or.inl (by simp [send, there, reached])
  · exact Or.inl (send_elsewhere there)

theorem Handler.Moved.outbound_cases (moved : h.Moved i w a h' v) (e : Endpoint) :
    v.outbound e = w.outbound e ∨
      ∃ message, v.outbound e = w.outbound e ++ [message] ∧ h.phase.writes = some message.content := by
  cases moved with
  | greet atPhase | reply atPhase | invite atPhase | forward atPhase | exitReply atPhase | exitNotice atPhase =>
    exact (Shared.outbound_send_cases w _ _ e).imp_right fun sent => ⟨_, sent, by rw [atPhase]; rfl⟩
  | connect => exact Or.inl (by simp)
  | accepted _ read | declined _ read => exact Or.inl (by rw [Shared.readReply_outbound read])
  | _ => exact Or.inl rfl

end Memory

/-- Two servers that differ in nothing but what is outbound. -/
structure Server.Alike (related : Endpoint → List (Tagged Outgoing) → List (Tagged Outgoing) → Prop) (s n : Server) :
    Prop where
  shared : s.toShared.Alike related n.toShared
  threads : n.threads = s.threads
  accepting : n.accepting = s.accepting

section Steps
variable {related : Endpoint → List (Tagged Outgoing) → List (Tagged Outgoing) → Prop} {s n n' : Server} {e : Event}

theorem Server.Alike.eq (alike : s.Alike related n) : n = { s with outbound := n.outbound } := by
  obtain ⟨shared, threads, accepting⟩ := alike
  have rest := shared.rest
  cases n with
  | mk =>
    rw [Server.mk.injEq]
    exact ⟨rest, accepting, threads⟩

theorem Server.Alike.accept {ok : Bool} (alike : s.Alike related n) (stepped : n.step (.accept ok) = some n') :
    ∃ s', s.step (.accept ok) = some s' ∧ s'.Alike related n' := by
  have running : n.running = s.running := by rw [alike.shared.rest]
  have table : n.descriptors = s.descriptors := by rw [alike.shared.rest]
  have opened (e : Endpoint) : (s.toShared.allocate e).Alike related (n.toShared.allocate e) :=
    alike.shared.change (fun w => w.allocate e) (fun _ => rfl) fun _ _ => rfl
  have entered : n.accepting = true := accepting_of_accept stepped
  rw [alike.accepting] at entered
  cases step_moved stepped with
  | accept on =>
    rw [running] at on
    refine ⟨{ s with
      toShared := s.toShared.allocate (.client s.threads.length),
      threads := s.threads ++ [{ clientSocket := Slots.lowestFree s.descriptors }] }, ?_, ?_, ?_, alike.accepting⟩
    · simp [Server.step, on, entered]
    · rw [← alike.threads]
      exact opened _
    · show n.threads ++ [{ clientSocket := Slots.lowestFree n.descriptors }] = _
      rw [alike.threads, table]
  | acceptLate off =>
    rw [running] at off
    exact ⟨{ s with toShared := s.toShared.allocate .unserved, accepting := false },
      by simp [Server.step, off, entered], opened _, alike.threads, rfl⟩
  | acceptFails =>
    exact ⟨{ s with accepting := false }, by simp [Server.step, entered], alike.shared, alike.threads, rfl⟩

/-- No step but those of the listeners reads what is outbound. -/
theorem Server.Alike.step (grows : Appendable related) (alike : s.Alike related n) (stepped : n.step e = some n')
    (silent : ∀ x a, e ≠ .listener x a) : ∃ s', s.step e = some s' ∧ s'.Alike related n' := by
  cases e with
  | accept ok => exact alike.accept stepped
  | interrupt =>
    cases Option.some.inj stepped
    exact ⟨_, rfl, alike.shared.change (fun w => { w with running := false }) (fun _ => rfl) fun _ _ => rfl,
      alike.threads, alike.accepting⟩
  | thread i a =>
    obtain ⟨h, atThread, run⟩ := Option.bind_eq_some_iff.mp stepped
    obtain ⟨⟨h', v'⟩, moved, same⟩ := Option.map_eq_some_iff.mp run
    cases same
    obtain ⟨w', alone, after⟩ := Handler.step_alike grows alike.shared moved
    rw [alike.threads] at atThread
    exact ⟨{ s with toShared := w', threads := s.threads.set i h' }, step_of_handler atThread alone, after,
      by rw [alike.threads], alike.accepting⟩
  | listener x a => exact absurd rfl (silent x a)

end Steps

end Signaling
