import Signaling.ClientAddress
import Signaling.InviteRelay
import Signaling.NetworkDialogue
import Signaling.Segmentation

namespace Signaling
open Machine CText

/-- What a choice asks of the server. -/
def Client.wants (c : Client) : Choice → Option Command
  | .signUpLogin signUp username password =>
    some (if signUp then .signup username.text password.text else .login username.text password.text)
  | .call peerUsername => if c.isLogin then some (.call peerUsername.text c.localSdp) else none
  | .logout => some .logout
  | .exit => some (if c.username.isSome then .logout else .exit)
  | .other => none

/-- What the client asks of the server when it takes the action. -/
def Client.asks (c : Client) : ClientAction → Option Command
  | .start address port => some (.client (some address) (some port))
  | .choose choice => if !c.running || c.serverDisconnected then none else c.wants choice
  | .exit => some .exit
  | .close | .interrupt => none

/-- The address is one that the server has room for, and no NUL is typed or in `local_sdp`. -/
def Client.Plain (c : Client) : ClientAction → Prop
  | .start address port => (inetPton address).isSome = true ∧ address.length + 1 ≤ addressSize ∧
      -0x80000000 ≤ port ∧ port < 0x80000000
  | .choose (.signUpLogin _ username password) => nul ∉ username.text ∧ nul ∉ password.text
  | .choose (.call peerUsername) => nul ∉ peerUsername.text ∧ nul ∉ c.localSdp
  | .choose .logout | .choose .exit | .choose .other | .exit | .close | .interrupt => True

section Client
variable {c c' : Client} {a : ClientAction} {message : Option Text} {request : Text}

theorem Client.logoutUser_asks {fromExit : Bool} (done : c.logoutUser fromExit = some (c', request)) :
    commandOf request = some .logout := by
  obtain ⟨_, sent, same⟩ := Option.map_eq_some_iff.mp done
  cases same
  exact commandOf_logout sent

theorem Client.sendExit_asks (done : c.sendExit = some (c', request)) : commandOf request = some .exit := by
  obtain ⟨_, sent, same⟩ := Option.map_eq_some_iff.mp done
  cases same
  exact commandOf_exit sent

theorem Client.signUpLoginUser_asks {signUp : Bool} {username password : Word}
    (free : nul ∉ username.text ∧ nul ∉ password.text)
    (done : c.signUpLoginUser signUp username password = some (c', request)) :
    commandOf request = some (if signUp then .signup username.text password.text
      else .login username.text password.text) := by
  obtain ⟨_, sent, same⟩ := Option.map_eq_some_iff.mp done
  cases same
  rw [commandOf_register sent, credentials, if_neg free.1, ofBuffer_of_free free.1, ofBuffer_of_free free.2]

theorem Client.openMenu_asks {choice : Choice} (plain : c.Plain (.choose choice))
    (done : c.openMenu choice = some (c', message)) : message.map commandOf = (c.asks (.choose choice)).map some := by
  unfold openMenu at done
  rw [asks]
  by_cases gone : (!c.running || c.serverDisconnected) = true
  · rw [if_pos gone] at done ⊢
    cases Option.some.inj done
    rfl
  · rw [if_neg gone] at done ⊢
    cases choice with
    | signUpLogin signUp username password =>
      obtain ⟨request, rfl, whole⟩ := sent_of_map done
      rw [Option.map_some, signUpLoginUser_asks plain whole]
      rfl
    | call peerUsername =>
      dsimp only at done
      rw [wants]
      split_ifs at done ⊢ with login
      · obtain ⟨request, rfl, whole⟩ := sent_of_map done
        obtain ⟨_, _, same⟩ := Option.map_eq_some_iff.mp whole
        cases same
        rw [Option.map_some, commandOf_call plain whole]
        rfl
      · cases Option.some.inj done
        rfl
    | logout =>
      obtain ⟨request, rfl, whole⟩ := sent_of_map done
      rw [Option.map_some, logoutUser_asks whole]
      rfl
    | exit =>
      obtain ⟨request, rfl, whole⟩ := sent_of_map done
      unfold exitUser at whole
      rw [wants]
      split_ifs at whole ⊢
      · rw [Option.map_some, logoutUser_asks whole]
        rfl
      · rw [Option.map_some, sendExit_asks whole]
        rfl
    | other =>
      cases Option.some.inj done
      rfl

/-- Every message is understood as what it asks for. -/
theorem Client.act_asks (plain : c.Plain a) (done : c.act a = some (c', message)) :
    message.map commandOf = (c.asks a).map some := by
  cases a with
  | start address port =>
    simp only [act] at done
    split_ifs at done
    obtain ⟨request, rfl, whole⟩ := sent_of_map done
    obtain ⟨valid, fits, int⟩ := plain
    obtain ⟨message, sent, read⟩ := sendIpAndPort_sends (c := c) valid int
    cases Option.some.inj (whole.symm.trans sent)
    rw [if_pos fits] at read
    rw [Option.map_some, read]
    rfl
  | choose choice =>
    simp only [act] at done
    split_ifs at done
    exact openMenu_asks plain done
  | exit =>
    simp only [act] at done
    split_ifs at done
    obtain ⟨request, rfl, whole⟩ := sent_of_map done
    rw [Option.map_some, sendExit_asks whole]
    rfl
  | close =>
    simp only [act] at done
    split_ifs at done
    cases Option.some.inj done
    rfl
  | interrupt =>
    cases Option.some.inj done
    rfl

end Client

def Network.asks (i : Nat) (n : Network) : NetworkEvent → Option Command
  | .client j a => if j = i then (n.parties i).client.asks a else none
  | _ => none

/-- The command that the handler of the session takes up. -/
def Network.hears (i : Nat) (n : Network) : NetworkEvent → Option Command
  | .handler j a => if j = i then (n.threads[i]?).bind fun h => h.hears n.toShared a else none
  | _ => none

def Network.Plain (i : Nat) (_ : List (Network × NetworkEvent)) (n : Network) : NetworkEvent → Prop
  | .client j a => j = i → (n.parties i).client.Plain a
  | _ => True

/-- What has been heard is what was asked for first, as far as messages have been taken. -/
structure Understood (i : Nat) (past : List (Network × NetworkEvent)) (n : Network) : Prop where
  sent : (n.parties i).sent.map commandOf = (visible (Network.asks i) past).reverse.map some
  heard : (visible (Network.hears i) past).reverse <+: (visible (Network.asks i) past).reverse
  taken : (∃ h, n.threads[i]? = some h ∧ h.phase.leaving = true) ∨
    (visible (Network.hears i) past).length = (n.parties i).taken

section Network
variable {past : List (Network × NetworkEvent)} {n n' : Network} {e : NetworkEvent} {i : Nat} {h : Handler}

theorem Network.read_step {d : DialogueEvent} (stepped : n.converse i d = some n')
    (reads : d = .reply ∨ d = .replyFails) : (n'.parties i).sent = (n.parties i).sent ∧
      (n'.parties i).taken = (n.parties i).taken ∧ ∀ h, n.threads[i]? = some h → n'.threads[i]? = some h := by
  obtain ⟨g, atThread, stepped⟩ := Option.bind_eq_some_iff.mp stepped
  obtain ⟨after, run, rfl⟩ := Option.map_eq_some_iff.mp stepped
  have same : after.sent = (n.parties i).sent ∧ after.taken = (n.parties i).taken ∧ after.handler = g := by
    rcases reads with rfl | rfl
    · rcases Dialogue.step_reply run with ⟨_, _, _, _, _, _, _, rfl⟩ | ⟨_, _, _, _, rfl⟩ <;> exact ⟨rfl, rfl, rfl⟩
    · obtain ⟨_, _, _, _, rfl⟩ := Dialogue.step_replyFails run
      exact ⟨rfl, rfl, rfl⟩
  simp only [Function.update_self, same, true_and]
  intro h there
  rw [threads_set atThread, if_pos rfl, ← atThread, there]

/-- Messages are sent by the client and taken by the handler. -/
theorem Network.untaken_step (stepped : n.step e = some n') (client : ∀ a, e ≠ .client i a)
    (handler : ∀ a, e ≠ .handler i a) : (n'.parties i).sent = (n.parties i).sent ∧
      (n'.parties i).taken = (n.parties i).taken ∧ ∀ h, n.threads[i]? = some h → n'.threads[i]? = some h := by
  have apart {j : Nat} {d : DialogueEvent} (stepped : n.converse j d = some n') (other : i ≠ j) :
      (n'.parties i).sent = (n.parties i).sent ∧ (n'.parties i).taken = (n.parties i).taken ∧
        ∀ h, n.threads[i]? = some h → n'.threads[i]? = some h := by
    obtain ⟨thread, party⟩ := (converse_elsewhere stepped).2.2 i other
    exact ⟨by rw [party], by rw [party], fun _ there => thread.trans there⟩
  cases e with
  | accept ok =>
    obtain ⟨parties, threads⟩ := accept_parties stepped
    refine ⟨by rw [parties], by rw [parties], fun _ there => ?_⟩
    rcases threads with same | one
    · rw [same, there]
    · rw [one, List.getElem?_append_left (List.getElem?_eq_some_iff.mp there).1, there]
  | interrupt =>
    cases Option.some.inj stepped
    exact ⟨rfl, rfl, fun _ => id⟩
  | client j a => exact apart stepped fun same => client a (by rw [same])
  | handler j a => exact apart stepped fun same => handler a (by rw [same])
  | reply j | replyFails j =>
    by_cases mine : i = j
    · subst mine
      exact read_step stepped (by simp)
    · exact apart stepped mine
  | gathered j localSdp =>
    obtain ⟨_, server, elsewhere, source, party⟩ := gathered_elsewhere stepped
    by_cases mine : i = j
    · subst mine
      exact ⟨by rw [party], by rw [party], fun _ there => server ▸ there⟩
    · exact ⟨by rw [elsewhere i mine], by rw [elsewhere i mine], fun _ there => server ▸ there⟩
  | describe j k =>
    obtain ⟨_, server, elsewhere, descriptions, party⟩ := describe_elsewhere stepped
    by_cases mine : i = j
    · subst mine
      exact ⟨by rw [party], by rw [party], fun _ there => server ▸ there⟩
    · exact ⟨by rw [elsewhere i mine], by rw [elsewhere i mine], fun _ there => server ▸ there⟩
  | listen j k raised =>
    obtain ⟨_, threads, elsewhere, c, party, _⟩ := listen_elsewhere stepped
    by_cases mine : i = j
    · subst mine
      exact ⟨by rw [party], by rw [party], fun _ there => by rw [threads, there]⟩
    · exact ⟨by rw [elsewhere i mine], by rw [elsewhere i mine], fun _ there => by rw [threads, there]⟩
  | quit j k =>
    obtain ⟨w, _, rfl⟩ := Option.map_eq_some_iff.mp stepped
    exact ⟨rfl, rfl, fun _ => id⟩

theorem Understood.kept (understood : Understood i past n) (stepped : n.step e = some n')
    (client : ∀ a, e ≠ .client i a) (handler : ∀ a, e ≠ .handler i a) : Understood i ((n, e) :: past) n' := by
  have asks : n.asks i e = none := by
    cases e with
    | client j a => exact if_neg fun same => client a (by rw [same])
    | _ => rfl
  have hears : n.hears i e = none := by
    cases e with
    | handler j a => exact if_neg fun same => handler a (by rw [same])
    | _ => rfl
  obtain ⟨sent, taken, threads⟩ := Network.untaken_step stepped client handler
  have unchanged : visible (Network.hears i) ((n, e) :: past) = visible (Network.hears i) past := by
    simp [visible, hears]
  refine ⟨?_, ?_, ?_⟩
  · rw [sent, reverse_visible_cons, asks]
    simpa using understood.sent
  · rw [unchanged, reverse_visible_cons, asks]
    simpa using understood.heard
  · rw [unchanged, taken]
    rcases understood.taken with ⟨h, atThread, left⟩ | even
    · exact Or.inl ⟨h, threads h atThread, left⟩
    · exact Or.inr even

theorem Understood.client {a : ClientAction} (understood : Understood i past n) (plain : (n.parties i).client.Plain a)
    (stepped : n.step (.client i a) = some n') : Understood i ((n, .client i a) :: past) n' := by
  obtain ⟨h, atThread, stepped⟩ := Option.bind_eq_some_iff.mp stepped
  obtain ⟨after, run, rfl⟩ := Option.map_eq_some_iff.mp stepped
  obtain ⟨⟨c, message⟩, done, rfl⟩ := Option.map_eq_some_iff.mp run
  have asked : message.map commandOf = ((n.parties i).client.asks a).map some := Client.act_asks plain done
  have shown : n.asks i (.client i a) = (n.parties i).client.asks a := if_pos rfl
  have silent : n.hears i (.client i a) = none := rfl
  have unchanged : visible (Network.hears i) ((n, .client i a) :: past) = visible (Network.hears i) past := by
    simp [visible, silent]
  refine ⟨?_, ?_, ?_⟩
  · simp only [Function.update_self]
    rw [reverse_visible_cons, shown, List.map_append, List.map_append, ← understood.sent]
    congr 1
    cases message <;> cases h : (n.parties i).client.asks a <;> simp [h] at asked ⊢
    exact asked
  · rw [unchanged, reverse_visible_cons]
    exact understood.heard.trans (List.prefix_append _ _)
  · rw [unchanged]
    simp only [Function.update_self]
    refine understood.taken.imp_left ?_
    rintro ⟨g, there, left⟩
    refine ⟨h, ?_, ?_⟩
    · exact List.getElem?_set_self (List.getElem?_eq_some_iff.mp atThread).1
    · cases Option.some.inj (atThread.symm.trans there)
      exact left

/-- A prefix goes on with the next element. -/
theorem prefix_next {α : Type*} {front whole : List α} {x : α} (starts : front <+: whole)
    (next : whole[front.length]? = some x) : front ++ [x] <+: whole := by
  obtain ⟨rest, rfl⟩ := starts
  cases rest with
  | nil => simp at next
  | cons y rest =>
    rw [List.getElem?_append_right le_rfl, Nat.sub_self] at next
    cases Option.some.inj next
    exact ⟨rest, by simp⟩

/-- What the handler takes up is the next command asked for. -/
theorem Understood.handler {a : Action} (understood : Understood i past n)
    (stepped : n.step (.handler i a) = some n') : Understood i ((n, .handler i a) :: past) n' := by
  obtain ⟨h, atThread, stepped⟩ := Option.bind_eq_some_iff.mp stepped
  obtain ⟨after, run, rfl⟩ := Option.map_eq_some_iff.mp stepped
  obtain ⟨taken, h', w', takes, went, rfl⟩ := Dialogue.step_handler run
  have moved : h.Moved i n.toShared a h' w' := Handler.step_moved went
  have silent : visible (Network.asks i) ((n, .handler i a) :: past) = visible (Network.asks i) past := rfl
  have shown : n.hears i (.handler i a) = h.hears n.toShared a := by
    simp only [Network.hears, if_true, atThread, Option.bind_some]
  have there : (n.threads.set i h')[i]? = some h' :=
    List.getElem?_set_self (List.getElem?_eq_some_iff.mp atThread).1
  cases heard : h.hears n.toShared a with
  | none =>
    have unchanged : visible (Network.hears i) ((n, .handler i a) :: past) = visible (Network.hears i) past := by
      simp [visible, shown, heard]
    refine ⟨?_, ?_, ?_⟩
    · rw [silent]
      simp only [Function.update_self]
      exact understood.sent
    · rw [unchanged, silent]
      exact understood.heard
    · rw [unchanged]
      simp only [Function.update_self]
      rcases understood.taken with ⟨g, before, left⟩ | even
      · cases Option.some.inj (atThread.symm.trans before)
        exact Or.inl ⟨h', there, moved.leaving left⟩
      · by_cases receives : ∃ bytes, a = .recv bytes
        · obtain ⟨bytes, rfl⟩ := receives
          refine Or.inl ⟨h', there, ?_⟩
          cases moved with
          | hangup => rfl
          | client _ known | signup _ known | login _ known | call _ known | refuse _ known | logout _ known
          | exit _ known | ignored _ known => simp [heard] at known
        · exact Or.inr (even.trans (Dialogue.takes_other takes fun bytes same => receives ⟨bytes, same⟩).symm)
  | some command =>
    obtain ⟨atLoop, bytes, rfl⟩ := Handler.hears_recv heard
    obtain ⟨read, filled⟩ := Dialogue.commandOf_heard heard
    have even : (visible (Network.hears i) past).length = (n.parties i).taken := by
      refine understood.taken.resolve_left ?_
      rintro ⟨g, before, left⟩
      cases Option.some.inj (atThread.symm.trans before)
      simp [atLoop, Phase.leaving] at left
    obtain ⟨next, rfl⟩ : (n.parties i).sent[(n.parties i).taken]? = some bytes ∧ taken = (n.parties i).taken + 1 := by
      rcases Dialogue.takes_recv takes with found | ⟨empty, _⟩
      · exact found
      · exact absurd empty filled
    have asked : (visible (Network.asks i) past).reverse[(n.parties i).taken]? = some command := by
      have meant := congrArg (·[(n.parties i).taken]?) understood.sent
      simp only [List.getElem?_map, next, Option.map_some, read] at meant
      obtain ⟨_, found, same⟩ := Option.map_eq_some_iff.mp meant.symm
      cases same
      exact found
    refine ⟨?_, ?_, Or.inr ?_⟩
    · rw [silent]
      simp only [Function.update_self]
      exact understood.sent
    · rw [reverse_visible_cons, shown, heard, silent]
      exact prefix_next understood.heard (by rw [List.length_reverse, even, asked])
    · simp only [Function.update_self]
      show _ = (n.parties i).taken + 1
      rw [← even, visible, List.filterMap_cons, shown, heard]
      rfl

end Network

instance (c : Client) (a : ClientAction) : Decidable (c.Plain a) := by
  unfold Client.Plain
  cases_type* ClientAction Choice <;> infer_instance

instance (i : Nat) (past : List (Network × NetworkEvent)) (n : Network) (e : NetworkEvent) :
    Decidable (Network.Plain i past n e) := by
  unfold Network.Plain
  cases_type* NetworkEvent <;> infer_instance

end Signaling
