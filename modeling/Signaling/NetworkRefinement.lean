import Signaling.Machine.Simulation
import Signaling.OutboundQueues
import Signaling.SdpExchange
import Signaling.Shutdown

namespace Signaling
open Machine CText

/-- The memory `v` of the server among its clients against `w` of the server alone, where no client reads
what is written to it. -/
structure Shared.Ahead (w v : Shared) : Prop where
  rest : v = { w with outbound := v.outbound }
  callback : ∀ e, (∀ i, e ≠ .client i) → v.outbound e = w.outbound e
  unread : ∀ i, v.outbound (.client i) <:+ w.outbound (.client i)

section Memory
variable {w v v' : Shared} {fd : Int} {message : Tagged Outgoing} {i : Nat} {h h' : Handler} {a : Action}

/-- What is left of what was written: a client reads, and what a listener reads is taken away on both sides. -/
def Unread (e : Endpoint) (written left : List (Tagged Outgoing)) : Prop :=
  ((∀ i, e ≠ .client i) → left = written) ∧ ∀ i, e = .client i → left <:+ written

theorem unread_appendable : Appendable Unread := by
  intro e written left message unread
  refine ⟨fun plain => by rw [unread.1 plain], fun i same => ?_⟩
  obtain ⟨read, whole⟩ := unread.2 i same
  exact ⟨read, by rw [← whole, List.append_assoc]⟩

theorem Shared.Ahead.alike (ahead : w.Ahead v) : w.Alike Unread v where
  rest := ahead.rest
  queues e := ⟨ahead.callback e, fun i same => same ▸ ahead.unread i⟩

theorem Shared.Alike.ahead (alike : w.Alike Unread v) : w.Ahead v where
  rest := alike.rest
  callback e := (alike.queues e).1
  unread i := (alike.queues (.client i)).2 i rfl

/-- The same change of what is not outbound. -/
theorem Shared.Ahead.change (ahead : w.Ahead v) (change : Shared → Shared)
    (kept : ∀ w : Shared, (change w).outbound = w.outbound)
    (blind : ∀ (w : Shared) o, change { w with outbound := o } = { change w with outbound := o }) :
    (change w).Ahead (change v) :=
  (ahead.alike.change change kept blind).ahead

/-- A step of a handler that the clients leave room for is one without them. -/
theorem Handler.step_ahead (ahead : w.Ahead v) (run : h.step i v a = some (h', v')) :
    ∃ w', h.step i w a = some (h', w') ∧ w'.Ahead v' := by
  obtain ⟨w', alone, alike⟩ := step_alike unread_appendable ahead.alike run
  exact ⟨w', alone, alike.ahead⟩

/-- What a listener takes is not a client's. -/
theorem Shared.Ahead.take {e : Endpoint} (ahead : w.Ahead v) (plain : ∀ i, e ≠ .client i)
    (rest : List (Tagged Outgoing)) : ({ w with outbound := Function.update w.outbound e rest } : Shared).Ahead
      { v with outbound := Function.update v.outbound e rest } := by
  refine ⟨?_, fun x other => ?_, fun i => ?_⟩
  · conv_lhs => rw [ahead.rest]
  · dsimp only
    by_cases here : x = e
    · rw [here, Function.update_self, Function.update_self]
    · rw [Function.update_of_ne here, Function.update_of_ne here, ahead.callback x other]
  · dsimp only
    rw [Function.update_of_ne (plain i).symm, Function.update_of_ne (plain i).symm]
    exact ahead.unread i

theorem Shared.listen_ahead {e : Endpoint} {a : ListenerAction} (ahead : w.Ahead v) (plain : ∀ i, e ≠ .client i)
    (moved : v.listen e a = some v') : ∃ w', w.listen e a = some w' ∧ w'.Ahead v' := by
  obtain ⟨o, rfl⟩ : ∃ o, v = { w with outbound := o } := ⟨_, ahead.rest⟩
  have queue : w.outbound e = o e := (ahead.callback e plain).symm
  have leaves {w v : Shared} (ahead : w.Ahead v) : ({ w with peer := Function.update w.peer e .gone } : Shared).Ahead
      { v with peer := Function.update v.peer e .gone } :=
    ahead.change (fun u => { u with peer := Function.update u.peer e .gone }) (fun _ => rfl) fun _ _ => rfl
  cases a with
  | quit =>
    simp only [listen] at moved ⊢
    split_ifs at moved with listening
    cases Option.some.inj moved
    exact ⟨_, if_pos listening, leaves ahead⟩
  | dispatch localSdp =>
    simp only [listen] at moved ⊢
    rw [queue]
    split at moved
    · rename_i message rest _ _
      have taken := ahead.take plain rest
      obtain ⟨buffer, read, moved⟩ := Option.bind_eq_some_iff.mp moved
      simp only [read, Option.bind_some]
      split at moved
      · cases Option.some.inj moved
        exact ⟨_, rfl, leaves taken⟩
      · cases Option.some.inj moved
        exact ⟨_, rfl, leaves taken⟩
      · obtain ⟨fields, decoded, moved⟩ := Option.bind_eq_some_iff.mp moved
        simp only [decoded, Option.bind_some]
        split at moved
        · obtain ⟨answer, built, same⟩ := Option.map_eq_some_iff.mp moved
          cases same
          exact ⟨_, by simp only [built, Option.map_some], taken.change
            (fun u => { u with inbound := Function.update u.inbound e (u.inbound e ++ [⟨answer, message.invite⟩]) })
            (fun _ => rfl) fun _ _ => rfl⟩
        · cases Option.some.inj moved
          exact ⟨_, rfl, leaves taken⟩
      · obtain ⟨sdp, decoded, same⟩ := Option.map_eq_some_iff.mp moved
        simp only [decoded, Option.map_some]
        cases localSdp with
        | some => cases same; exact ⟨_, rfl, taken⟩
        | none => cases same; exact ⟨_, rfl, leaves taken⟩
      · cases Option.some.inj moved
        exact ⟨_, rfl, taken⟩
    · simp at moved

end Memory

/-- What a step of the network is to the server. -/
def Network.shown (s : Network) : NetworkEvent → Option Event
  | .accept ok => some (.accept ok)
  | .interrupt => some .interrupt
  | .handler i a => some (.thread i a)
  | .listen i k raised => some (.listener (.callback i k)
      (.dispatch (if raised then none else some (s.parties i).client.localSdp)))
  | .quit i k => some (.listener (.callback i k) .quit)
  | .client .. | .reply _ | .replyFails _ | .gathered .. | .describe .. => none

/-- The server among its clients is the server alone, but that some of what was written to clients has been
read. -/
structure Server.Seen (s : Server) (n : Network) : Prop where
  ahead : s.toShared.Ahead n.toShared
  threads : n.threads = s.threads
  accepting : n.accepting = s.accepting

section Steps
variable {s : Server} {n n' : Network} {e : NetworkEvent} {past : List (Network × NetworkEvent)} {i : Nat}

/-- What clients do on their own the server does not see, but that they read. -/
theorem Server.Seen.reads {o : Endpoint → List (Tagged Outgoing)} (seen : s.Seen n)
    (shared : n'.toShared = { n.toShared with outbound := o }) (threads : n'.threads = n.threads)
    (accepting : n'.accepting = n.accepting) (plain : ∀ e, (∀ i, e ≠ .client i) → o e = n.outbound e)
    (fewer : ∀ i, o (.client i) <:+ n.outbound (.client i)) : s.Seen n' := by
  refine ⟨⟨?_, fun e other => ?_, fun i => ?_⟩, threads.trans seen.threads, accepting.trans seen.accepting⟩
  · rw [shared]
    conv_lhs => rw [seen.ahead.rest]
  · rw [shared]
    exact (plain e other).trans (seen.ahead.callback e other)
  · rw [shared]
    exact (fewer i).trans (seen.ahead.unread i)

theorem Server.Seen.same (seen : s.Seen n) (same : n'.toServer = n.toServer) : s.Seen n' :=
  ⟨same ▸ seen.ahead, same ▸ seen.threads, same ▸ seen.accepting⟩

theorem Server.Seen.converse {d : DialogueEvent} (seen : s.Seen n) (stepped : n.converse i d = some n')
    (own : ∀ a, d ≠ .handler a) (alone : ∀ w, d ≠ .others w) : s.Seen n' := by
  obtain ⟨h, atThread, stepped⟩ := Option.bind_eq_some_iff.mp stepped
  obtain ⟨after, run, rfl⟩ := Option.map_eq_some_iff.mp stepped
  have unmoved : n.threads.set i h = n.threads := by
    obtain ⟨inside, rfl⟩ := List.getElem?_eq_some_iff.mp atThread
    exact List.set_getElem_self inside
  have keeps (handler : after.handler = h) (world : after.world = n.toShared) : s.Seen { n with
      toShared := after.world, threads := n.threads.set i after.handler,
      parties := Function.update n.parties i { n.parties i with
        client := after.client, sent := after.sent, taken := after.taken, origins := after.origins,
        sources := Function.update (n.parties i).sources (n.parties i).sent.length (n.parties i).source },
      offers := Function.update n.offers n.invites ((n.parties i).sources ((n.parties i).taken - 1)) } := by
    refine seen.same ?_
    rw [handler, world, unmoved]
  cases d with
  | client a =>
    obtain ⟨c, message, _, same⟩ := Dialogue.step_client run
    subst same
    exact keeps rfl rfl
  | reply =>
    rcases Dialogue.step_reply run with ⟨message, rest, buffer, c, queue, _, _, same⟩ | ⟨_, _, c, _, same⟩
    · subst same
      refine seen.reads rfl unmoved rfl (fun e other => Function.update_of_ne (other i) _ _) fun j => ?_
      show Function.update n.outbound (.client i) rest (.client j) <:+ _
      by_cases here : Endpoint.client j = .client i
      · rw [here, Function.update_self, show n.outbound (.client i) = message :: rest from queue]
        exact List.suffix_cons _ _
      · exact ⟨[], by rw [List.nil_append, Function.update_of_ne here]⟩
    · subst same
      exact keeps rfl rfl
  | replyFails =>
    obtain ⟨_, _, c, _, same⟩ := Dialogue.step_replyFails run
    subst same
    exact keeps rfl rfl
  | gathered =>
    cases Option.some.inj run
    exact keeps rfl rfl
  | handler a => exact absurd rfl (own a)
  | others w => exact absurd rfl (alone w)

theorem Server.Seen.handler {a : Action} (seen : s.Seen n) (stepped : n.converse i (.handler a) = some n') :
    ∃ s', s.step (.thread i a) = some s' ∧ s'.Seen n' := by
  obtain ⟨h, atThread, stepped⟩ := Option.bind_eq_some_iff.mp stepped
  obtain ⟨after, run, rfl⟩ := Option.map_eq_some_iff.mp stepped
  obtain ⟨taken, h', v', _, moved, same⟩ := Dialogue.step_handler run
  subst same
  obtain ⟨w', alone, ahead⟩ := Handler.step_ahead seen.ahead moved
  replace alone : h.step i s.toShared a = some (h', w') := alone
  rw [seen.threads] at atThread
  refine ⟨{ s with toShared := w', threads := s.threads.set i h' }, ?_, ahead, ?_, seen.accepting⟩
  · rw [Server.step, atThread, Option.bind_some, alone, Option.map_some]
  · show n.threads.set i h' = s.threads.set i h'
    rw [seen.threads]

theorem Server.Seen.listen {k : Nat} {raised : Bool} (seen : s.Seen n) (stepped : n.listen i k raised = some n') :
    ∃ s', s.step (.listener (.callback i k)
      (.dispatch (if raised then none else some (n.parties i).client.localSdp))) = some s' ∧ s'.Seen n' := by
  obtain ⟨⟨buffer, invite⟩, read, stepped⟩ := Option.bind_eq_some_iff.mp stepped
  have moves {a : ListenerAction} {v : Shared} (moved : n.toShared.listen (.callback i k) a = some v) :
      ∃ w, s.step (.listener (.callback i k) a) = some { s with toShared := w } ∧ w.Ahead v := by
    obtain ⟨w, alone, ahead⟩ := Shared.listen_ahead seen.ahead (by simp) moved
    exact ⟨w, by rw [Server.step, alone, Option.map_some], ahead⟩
  dsimp only at stepped
  split_ifs at stepped with raises goes
  · obtain ⟨v, moved, rfl⟩ := Option.map_eq_some_iff.mp stepped
    obtain ⟨w, alone, ahead⟩ := moves moved
    rw [raises.2]
    exact ⟨_, alone, ahead, seen.threads, seen.accepting⟩
  · obtain ⟨v, moved, rfl⟩ := Option.map_eq_some_iff.mp stepped
    obtain ⟨w, alone, ahead⟩ := moves moved
    rw [goes.2]
    exact ⟨_, alone, ahead, seen.threads, seen.accepting⟩

/-- A step that the network leaves to the server. -/
theorem Server.Seen.server {event : Event} {t : Server} (seen : s.Seen n) (stepped : n.toServer.step event = some t)
    (silent : ∀ x a, event ≠ .listener x a) (same : n'.toServer = t) :
    ∃ s', s.step event = some s' ∧ s'.Seen n' := by
  subst same
  have alike : s.Alike Unread n.toServer := ⟨seen.ahead.alike, seen.threads, seen.accepting⟩
  obtain ⟨s', moved, after⟩ := alike.step unread_appendable stepped silent
  exact ⟨s', moved, after.shared.ahead, after.threads, after.accepting⟩

/-- Every step of the network is a step of the server or none. -/
theorem Server.Seen.step (seen : s.Seen n) (stepped : n.step e = some n') :
    Follows Server.step Server.Seen s n' (n.shown e) := by
  cases e with
  | accept =>
    obtain ⟨t, moved, rfl⟩ := Option.map_eq_some_iff.mp stepped
    exact seen.server moved (by simp) rfl
  | interrupt =>
    cases Option.some.inj stepped
    have moved : n.toServer.step .interrupt = some { n.toServer with running := false } := rfl
    exact seen.server moved (by simp) rfl
  | client | reply | replyFails => exact seen.converse stepped (by simp) (by simp)
  | handler i a => exact seen.handler stepped
  | gathered i localSdp =>
    simp only [Network.step, Network.gathered] at stepped
    split_ifs at stepped
    cases Option.some.inj stepped
    exact seen.same rfl
  | describe i k =>
    obtain ⟨⟨buffer, invite⟩, _, stepped⟩ := Option.bind_eq_some_iff.mp stepped
    obtain ⟨sdp, _, stepped⟩ := Option.bind_eq_some_iff.mp stepped
    obtain ⟨_, same⟩ := Option.ite_none_left_eq_some.mp stepped
    cases same
    exact seen.same rfl
  | listen i k raised => exact seen.listen stepped
  | quit i k =>
    obtain ⟨v, moved, rfl⟩ := Option.map_eq_some_iff.mp stepped
    obtain ⟨w, alone, ahead⟩ := Shared.listen_ahead seen.ahead (by simp) moved
    exact ⟨{ s with toShared := w }, by rw [Server.step, alone, Option.map_some], ahead, seen.threads,
      seen.accepting⟩

theorem seen_initial : Server.initial.Seen Network.initial :=
  ⟨⟨rfl, fun _ _ => rfl, fun _ => List.suffix_refl _⟩, rfl, rfl⟩

/-- Every run of the server with its clients is a run of the server: its threads, its store, its descriptors and
its callback connections are the same after the same events, and what a client has still to read is the end of
what the server has written to it. -/
theorem network_runs_server (run : Trail Network.step Network.initial past n) :
    ∃ past' s, ServerRun past' s ∧ s.Seen n ∧ past'.map Prod.snd = visible Network.shown past :=
  run.simulated seen_initial fun _ _ _ _ _ _ seen stepped => seen.step stepped

end Steps

theorem sign_up_runs_server : ∃ past n, execute Network.step [] Network.initial clientSignsUp = some (past, n) ∧
    n.userStore.hasUser bob.text = true ∧
      ∃ past' s, ServerRun past' s ∧ s.Seen n ∧ past'.map Prod.snd = visible Network.shown past := by
  have ran : (execute Network.step [] Network.initial clientSignsUp).any (fun r =>
      r.2.userStore.hasUser bob.text) = true := by
    decide +kernel
  obtain ⟨past, n, done, checked⟩ := execute_check _ ran
  exact ⟨past, n, done, checked, network_runs_server (execute_trail done)⟩

end Signaling
