import Signaling.AcceptPairing
import Signaling.NetworkRefinement
import Signaling.ServerExit

namespace Signaling
open Machine CText

/-- What a step of the network is to the client and the handler of a session: one of theirs, a step of
everybody else, or nothing. -/
def Network.conversing (i : Nat) (s : Network) (e : NetworkEvent) : Option DialogueEvent :=
  let others := (s.step e).map fun t => DialogueEvent.others t.toShared
  match e with
  | .client j a => if j = i then some (.client a) else none
  | .reply j => if j = i then some .reply else others
  | .replyFails j => if j = i then some .replyFails else none
  | .handler j a => if j = i then some (.handler a) else others
  | .gathered j localSdp => if j = i then some (.gathered localSdp) else none
  | .describe .. => none
  | .accept _ | .interrupt | .listen .. | .quit .. => others

/-- The client of the session is not ended by an exception in its listener. -/
def Network.Unraised (i : Nat) (_ : List (Network × NetworkEvent)) (_ : Network) : NetworkEvent → Prop
  | .listen j _ true => j ≠ i
  | _ => True

instance (i : Nat) (past : List (Network × NetworkEvent)) (s : Network) (e : NetworkEvent) :
    Decidable (Network.Unraised i past s e) := by
  unfold Network.Unraised
  cases_type* NetworkEvent Bool <;> infer_instance

/-- The dialogue that the network holds for the session. -/
def Dialogue.Of (i : Nat) (d : Dialogue) (n : Network) : Prop :=
  ∃ h, n.threads[i]? = some h ∧ d = n.dialogue i h

section Server
variable {past : History} {s t : Server} {w w' : Shared} {i : Nat} {h h' : Handler} {a : Action} {e : Endpoint}

theorem Handler.Moved.outbound_apart (moved : h.Moved i w a h' w')
    (command : h.ended = false → w.endpoint h.clientSocket ≠ some e) (callback : w.endpoint h.clientSocketFd ≠ some e)
    (invited : ∀ receiverFd ∈ h.phase.receiverFd, w.endpoint receiverFd ≠ some e) :
    w'.outbound e = w.outbound e := by
  cases moved with
  | greet | forward | exitNotice => exact Shared.send_elsewhere callback
  | reply atPhase | exitReply atPhase => exact Shared.send_elsewhere (command (by rw [Handler.ended, atPhase]))
  | invite atPhase => exact Shared.send_elsewhere (invited _ (by rw [atPhase]; rfl))
  | connect => rw [Shared.connected_outbound]
  | accepted _ read | declined _ read => rw [Shared.readReply_outbound read]
  | _ => rfl

end Server

section Steps
variable {past : List (Network × NetworkEvent)} {n n' : Network} {e : NetworkEvent} {d d' : Dialogue} {i j : Nat}

theorem Network.converse_elsewhere {d : DialogueEvent} (stepped : n.converse j d = some n') :
    n'.threads.length = n.threads.length ∧ j < n.threads.length ∧ ∀ i, i ≠ j →
      n'.threads[i]? = n.threads[i]? ∧ n'.parties i = n.parties i := by
  obtain ⟨h, atThread, stepped⟩ := Option.bind_eq_some_iff.mp stepped
  obtain ⟨after, run, rfl⟩ := Option.map_eq_some_iff.mp stepped
  exact ⟨List.length_set, (List.getElem?_eq_some_iff.mp atThread).1, fun i other =>
    ⟨List.getElem?_set_ne (Ne.symm other), Function.update_of_ne other _ _⟩⟩

theorem Network.listen_elsewhere {k : Nat} {raised : Bool} (stepped : n.listen j k raised = some n') :
    (∃ string, n.incoming (.callback j k) = some string) ∧ n'.threads = n.threads ∧
      (∀ i, i ≠ j → n'.parties i = n.parties i) ∧
      ∃ c, n'.parties j = { n.parties j with client := c, halfway := false } ∧
        (raised = false → c = (n.parties j).client) := by
  obtain ⟨string, read, stepped⟩ := Option.bind_eq_some_iff.mp stepped
  dsimp only at stepped
  refine ⟨⟨string, read⟩, ?_⟩
  split_ifs at stepped with raises goes
  · obtain ⟨w, _, rfl⟩ := Option.map_eq_some_iff.mp stepped
    refine ⟨rfl, fun i other => Function.update_of_ne other _ _, _, Function.update_self _ _ _, fun other => ?_⟩
    simp [raises.2] at other
  · obtain ⟨w, _, rfl⟩ := Option.map_eq_some_iff.mp stepped
    exact ⟨rfl, fun i other => Function.update_of_ne other _ _, _, Function.update_self _ _ _, fun _ => rfl⟩

theorem Network.describe_elsewhere {k : Nat} (stepped : n.describe j k = some n') :
    (∃ string, n.incoming (.callback j k) = some string) ∧ n'.toServer = n.toServer ∧
      (∀ i, i ≠ j → n'.parties i = n.parties i) ∧
      ∃ descriptions, n'.parties j = { n.parties j with descriptions := descriptions, halfway := true } := by
  obtain ⟨⟨buffer, invite⟩, read, stepped⟩ := Option.bind_eq_some_iff.mp stepped
  obtain ⟨sdp, _, stepped⟩ := Option.bind_eq_some_iff.mp stepped
  obtain ⟨_, same⟩ := Option.ite_none_left_eq_some.mp stepped
  cases same
  exact ⟨⟨_, read⟩, rfl, fun i other => Function.update_of_ne other _ _, _, Function.update_self _ _ _⟩

theorem Network.gathered_elsewhere {localSdp : Text} (stepped : n.gathered j localSdp = some n') :
    (n.parties j).descriptions ≠ [] ∧ n'.toServer = n.toServer ∧
      (∀ i, i ≠ j → n'.parties i = n.parties i) ∧
      ∃ source, n'.parties j = { n.parties j with
        client := { (n.parties j).client with localSdp := localSdp }, source := source } := by
  obtain ⟨none, same⟩ := Option.ite_none_left_eq_some.mp stepped
  cases same
  exact ⟨fun empty => none (Or.inl empty), rfl, fun i other => Function.update_of_ne other _ _, _,
    Function.update_self _ _ _⟩

theorem Network.accept_parties {ok : Bool} (stepped : n.step (.accept ok) = some n') :
    n'.parties = n.parties ∧ (n'.threads = n.threads ∨
      n'.threads = n.threads ++ [{ clientSocket := Slots.lowestFree n.descriptors }]) := by
  obtain ⟨t, accepted, rfl⟩ := Option.map_eq_some_iff.mp stepped
  refine ⟨rfl, ?_⟩
  cases Server.step_moved accepted with
  | accept => exact Or.inr rfl
  | acceptLate | acceptFails => exact Or.inl rfl

theorem Dialogue.step_session {e : DialogueEvent} (stepped : d.step e = some d') : d'.session = d.session := by
  cases e with
  | client a => obtain ⟨_, _, _, rfl⟩ := step_client stepped; rfl
  | reply =>
    rcases step_reply stepped with ⟨_, _, _, _, _, _, _, rfl⟩ | ⟨_, _, _, _, rfl⟩ <;> rfl
  | replyFails => obtain ⟨_, _, _, _, rfl⟩ := step_replyFails stepped; rfl
  | handler a => obtain ⟨_, _, _, _, _, rfl⟩ := step_handler stepped; rfl
  | gathered | others => cases Option.some.inj stepped; rfl

/-- A step of the client or of the handler of the session. -/
theorem Dialogue.Of.own {e : DialogueEvent} (of : Dialogue.Of i d n) (stepped : n.converse i e = some n') :
    ∃ d', d.step e = some d' ∧ Dialogue.Of i d' n' := by
  obtain ⟨h, atThread, rfl⟩ := of
  obtain ⟨g, there, stepped⟩ := Option.bind_eq_some_iff.mp stepped
  cases Option.some.inj (atThread.symm.trans there)
  obtain ⟨after, run, rfl⟩ := Option.map_eq_some_iff.mp stepped
  refine ⟨after, run, after.handler, List.getElem?_set_self (List.getElem?_eq_some_iff.mp atThread).1, ?_⟩
  have session : after.session = i := step_session run
  simp only [Network.dialogue, Function.update_self]
  rw [← session]

/-- A step of everybody else leaves the client and the handler as they are. -/
theorem Dialogue.Of.others (of : Dialogue.Of i d n) (threads : n'.threads[i]? = n.threads[i]?)
    (party : n'.parties i = n.parties i) : Dialogue.Of i { d with world := n'.toShared } n' := by
  obtain ⟨h, atThread, rfl⟩ := of
  exact ⟨h, threads.trans atThread, by simp only [Network.dialogue, party]⟩

theorem Dialogue.Of.unseen (of : Dialogue.Of i d n) (threads : n'.threads[i]? = n.threads[i]?)
    (party : n'.parties i = n.parties i) (memory : n'.toShared = n.toShared) : Dialogue.Of i d n' := by
  obtain ⟨h, atThread, rfl⟩ := of
  exact ⟨h, threads.trans atThread, by simp only [Network.dialogue, party, memory]⟩

/-- A message of a client, or a failed `recv`, is nothing to the memory of the server. -/
theorem Network.converse_memory {e : DialogueEvent} (stepped : n.converse j e = some n')
    (own : (∃ a, e = .client a) ∨ e = .replyFails) : n'.toShared = n.toShared := by
  obtain ⟨h, _, stepped⟩ := Option.bind_eq_some_iff.mp stepped
  obtain ⟨after, run, rfl⟩ := Option.map_eq_some_iff.mp stepped
  rcases own with ⟨a, rfl⟩ | rfl
  · obtain ⟨_, _, _, rfl⟩ := Dialogue.step_client run
    rfl
  · obtain ⟨_, _, _, _, rfl⟩ := Dialogue.step_replyFails run
    rfl

/-- Every step of the network is to the session a step of its dialogue or none. -/
theorem Dialogue.Of.step (of : Dialogue.Of i d n) (calm : Network.Unraised i past n e)
    (stepped : n.step e = some n') : Follows Dialogue.step (Dialogue.Of i) d n' (n.conversing i e) := by
  have elsewhere (threads : n'.threads[i]? = n.threads[i]?) (party : n'.parties i = n.parties i) :
      ∃ d', d.step (.others n'.toShared) = some d' ∧ Dialogue.Of i d' n' :=
    ⟨_, rfl, of.others threads party⟩
  cases e with
  | accept ok =>
    obtain ⟨parties, threads⟩ := Network.accept_parties stepped
    simp only [Network.conversing, stepped, Option.map_some]
    refine elsewhere ?_ (by rw [parties])
    obtain ⟨h, atThread, _⟩ := of
    rcases threads with same | one
    · rw [same]
    · rw [one, List.getElem?_append_left (List.getElem?_eq_some_iff.mp atThread).1]
  | interrupt =>
    simp only [Network.conversing, stepped, Option.map_some]
    cases Option.some.inj stepped
    exact elsewhere rfl rfl
  | client j a =>
    by_cases mine : j = i
    · subst mine
      rw [Network.conversing, if_pos rfl]
      exact of.own stepped
    · obtain ⟨_, _, apart⟩ := Network.converse_elsewhere stepped
      rw [Network.conversing, if_neg mine]
      exact of.unseen (apart i (Ne.symm mine)).1 (apart i (Ne.symm mine)).2
        (Network.converse_memory stepped (Or.inl ⟨a, rfl⟩))
  | replyFails j =>
    by_cases mine : j = i
    · subst mine
      rw [Network.conversing, if_pos rfl]
      exact of.own stepped
    · obtain ⟨_, _, apart⟩ := Network.converse_elsewhere stepped
      rw [Network.conversing, if_neg mine]
      exact of.unseen (apart i (Ne.symm mine)).1 (apart i (Ne.symm mine)).2
        (Network.converse_memory stepped (Or.inr rfl))
  | reply j | handler j a =>
    by_cases mine : j = i
    · subst mine
      rw [Network.conversing, if_pos rfl]
      exact of.own stepped
    · obtain ⟨_, _, apart⟩ := Network.converse_elsewhere stepped
      simp only [Network.conversing, if_neg mine, stepped, Option.map_some]
      exact elsewhere (apart i (Ne.symm mine)).1 (apart i (Ne.symm mine)).2
  | gathered j localSdp =>
    obtain ⟨_, server, apart, source, party⟩ := Network.gathered_elsewhere stepped
    by_cases mine : j = i
    · subst mine
      rw [Network.conversing, if_pos rfl]
      obtain ⟨h, atThread, rfl⟩ := of
      exact ⟨_, rfl, h, server ▸ atThread, by simp only [Network.dialogue, party, server]⟩
    · rw [Network.conversing, if_neg mine]
      exact of.unseen (by rw [server]) (apart i (Ne.symm mine)) (by rw [server])
  | describe j k =>
    obtain ⟨_, server, apart, descriptions, party⟩ := Network.describe_elsewhere stepped
    by_cases mine : j = i
    · subst mine
      obtain ⟨h, atThread, rfl⟩ := of
      exact ⟨h, server ▸ atThread, by simp only [Network.dialogue, party, server]⟩
    · exact of.unseen (by rw [server]) (apart i (Ne.symm mine)) (by rw [server])
  | listen j k raised =>
    simp only [Network.conversing, stepped, Option.map_some]
    obtain ⟨_, threads, apart, c, party, same⟩ := Network.listen_elsewhere stepped
    by_cases mine : j = i
    · subst mine
      obtain ⟨h, atThread, rfl⟩ := of
      refine ⟨_, rfl, h, by rw [threads]; exact atThread, ?_⟩
      cases raised with
      | true => exact absurd rfl calm
      | false => simp only [Network.dialogue, party, same rfl]
    · exact elsewhere (by rw [threads]) (apart i (Ne.symm mine))
  | quit j k =>
    simp only [Network.conversing, stepped, Option.map_some]
    obtain ⟨w, _, rfl⟩ := Option.map_eq_some_iff.mp stepped
    exact elsewhere rfl rfl

end Steps

end Signaling
