import Signaling.StoreCalls

namespace Signaling
open Machine CText

/-- The listener that reads the message answers it. -/
def Outgoing.asksReply (message : Outgoing) : Bool :=
  (received (message.frame.take socketBufferSize)).any fun buffer => branch buffer = .invite

/-- The INVITEs on a callback connection to which the server may still read a reply, by number and
in the order in which the replies come. -/
def Shared.outstanding (w : Shared) (e : Endpoint) : List (Option Nat) :=
  (w.inbound e).map Tagged.invite ++
    if w.peer e = .listening then ((w.outbound e).filter (·.content.asksReply)).map Tagged.invite
    else []

/-- Nothing has been written to a callback socket that is not connected yet. -/
def Shared.Untouched (w : Shared) : Prop :=
  ∀ i k, w.peer (.callback i k) = .unconnected →
    w.outbound (.callback i k) = [] ∧ w.inbound (.callback i k) = []

/-- What `accept` returned: sockets that clients write to as they like. -/
def Endpoint.accepted : Endpoint → Bool
  | .client _ | .unserved => true
  | _ => false

section Texts

/-- A reply that the server forwards asks for nothing. -/
theorem accept_asks_nothing {incoming : Text}
    (accepted : (received incoming).bind acceptTest = some true) :
    (Outgoing.accept incoming).asksReply = false := by
  obtain ⟨buffer, read, tested⟩ := Option.bind_eq_some_iff.mp accepted
  rw [received] at read
  split_ifs at read with fits
  cases Option.some.inj read
  have whole : (Outgoing.accept incoming).frame.take socketBufferSize = padded socketBufferSize incoming :=
    List.take_of_length_le (length_padded fits.1).le
  rw [Outgoing.asksReply, whole, received, ofBuffer_padded]
  split_ifs
  · rcases branch_of_accepted tested with accept | other
    · simp [accept]
    · simp [other]
  · rfl

/-- Neither does anything the server writes without a part that came from a client. -/
theorem fixed_asks_nothing : ∀ message ∈ [Outgoing.signupReply, .loginReply, .logoutReply, .exitReply,
    .hello, .exitNotice], message.asksReply = false := by
  decide +kernel

end Texts

namespace Shared
variable {w w' : Shared} {fd : Int} {e : Endpoint}

/-- A `send` adds to what is outstanding on the connection it goes to, and only if the message is
one that the listener answers. -/
theorem outstanding_send (message : Tagged Outgoing) :
    (w.send fd message).outstanding e = w.outstanding e ∨
      w.endpoint fd = some e ∧ message.content.asksReply = true ∧
        (w.send fd message).outstanding e = w.outstanding e ++ [message.invite] := by
  unfold send
  split
  · rename_i target there
    split_ifs
    · by_cases same : e = target
      · subst same
        by_cases listening : w.peer e = .listening
        · cases asked : message.content.asksReply with
          | false => exact Or.inl (by simp [outstanding, listening, asked])
          | true => exact Or.inr ⟨there, rfl, by simp [outstanding, listening, asked]⟩
        · exact Or.inl (by simp [outstanding, listening])
      · exact Or.inl (by simp [outstanding, same])
    · exact Or.inl rfl
  · exact Or.inl rfl

theorem outstanding_send_of_quiet {message : Tagged Outgoing}
    (quiet : message.content.asksReply = false) :
    (w.send fd message).outstanding e = w.outstanding e := by
  rcases outstanding_send message with same | ⟨_, asks, _⟩
  · exact same
  · simp [quiet] at asks

/-- Connecting a socket makes nothing outstanding. -/
theorem outstanding_connected (untouched : w.Untouched) (possible : w.connectable fd = true) :
    (w.connected fd).outstanding e = w.outstanding e := by
  unfold connectable at possible
  split at possible
  · rename_i i k there
    have unconnected : w.peer (.callback i k) = .unconnected := by simpa using possible
    obtain ⟨outbound, inbound⟩ := untouched i k unconnected
    by_cases same : e = .callback i k
    · subst same
      simp [connected, there, outstanding, outbound]
    · simp [connected, there, outstanding, same]
  · simp at possible

theorem untouched_send (untouched : w.Untouched) (message : Tagged Outgoing) :
    (w.send fd message).Untouched := by
  intro i k unconnected
  unfold send at unconnected ⊢
  split at unconnected
  · rename_i target there
    split_ifs at unconnected with reached
    · have other : Endpoint.callback i k ≠ target := by
        rintro rfl
        simp [reaches, show w.peer (.callback i k) = .unconnected from unconnected] at reached
      simpa [there, reached, other] using untouched i k unconnected
    · simpa [there, reached] using untouched i k unconnected
  · rename_i nowhere
    simpa [nowhere] using untouched i k unconnected

theorem untouched_connected (untouched : w.Untouched) : (w.connected fd).Untouched := by
  intro i k unconnected
  rw [connected_outbound, connected_inbound]
  refine untouched i k ?_
  unfold connected at unconnected
  split at unconnected
  · rename_i target there
    by_cases same : Endpoint.callback i k = target
    · simp [same] at unconnected
    · simpa [same] using unconnected
  · exact unconnected

theorem untouched_readReply {foreign : Text} {incoming : Tagged Text} (untouched : w.Untouched)
    (read : w.readReply fd foreign = some (incoming, w')) : w'.Untouched := by
  intro i k unconnected
  cases readReply_read read with
  | @reply j l _ _ there queue =>
    obtain ⟨outbound, inbound⟩ := untouched i k unconnected
    have other : Endpoint.callback i k ≠ .callback j l := by
      intro same
      simp [← same, inbound] at queue
    exact ⟨outbound, by simpa [other] using inbound⟩
  | gone | foreign | nothing => exact untouched i k unconnected

/-- A listener only touches the connection that it has. -/
theorem listen_other {target : Endpoint} {a : ListenerAction} (moved : w.listen target a = some w') :
    w.peer target = .listening ∧ ∀ x, x ≠ target →
      w'.outbound x = w.outbound x ∧ w'.inbound x = w.inbound x ∧ w'.peer x = w.peer x := by
  cases listen_moved moved with
  | quit listening | leave listening | answer listening | pass listening =>
    exact ⟨listening, fun x other => by simp [other]⟩

theorem untouched_listen {target : Endpoint} {a : ListenerAction} (untouched : w.Untouched)
    (moved : w.listen target a = some w') : w'.Untouched := by
  intro i k unconnected
  obtain ⟨listening, others⟩ := listen_other moved
  by_cases same : Endpoint.callback i k = target
  · subst same
    cases listen_moved moved with
    | quit | leave => simp at unconnected
    | answer | pass => simp [listening] at unconnected
  · obtain ⟨outbound, inbound, peer⟩ := others _ same
    rw [outbound, inbound]
    exact untouched i k (peer ▸ unconnected)

/-- A reply that the server reads from a callback connection is the first one outstanding there. -/
theorem outstanding_readReply {foreign : Text} {incoming : Tagged Text}
    (read : w.readReply fd foreign = some (incoming, w')) :
    w.endpoint fd = some e ∧ w.outstanding e = incoming.invite :: w'.outstanding e ∨
      w'.outstanding e = w.outstanding e ∧
        ∀ i k, w.endpoint fd = some (.callback i k) → e = .callback i k → w.outstanding e = [] := by
  cases readReply_read read with
  | @reply i k _ _ there queue =>
    by_cases same : e = .callback i k
    · subst same
      exact Or.inl ⟨there, by simp [outstanding, queue]⟩
    · refine Or.inr ⟨by simp [outstanding, same], fun j l found equal => ?_⟩
      cases Option.some.inj (there.symm.trans found)
      exact absurd equal same
  | gone there queue unread =>
    refine Or.inr ⟨rfl, fun j l found equal => ?_⟩
    cases Option.some.inj (there.symm.trans found)
    subst equal
    simp [outstanding, queue, unread]
  | foreign there accepted =>
    refine Or.inr ⟨rfl, fun j l found _ => ?_⟩
    cases Option.some.inj (there.symm.trans found)
    simp at accepted
  | nothing other => exact Or.inr ⟨rfl, fun j l found _ => absurd found (other j l)⟩

/-- Where a reply can come from. -/
theorem readReply_source {foreign : Text} {incoming : Tagged Text}
    (read : w.readReply fd foreign = some (incoming, w')) :
    (∃ i k, w.endpoint fd = some (.callback i k) ∧ w.outstanding (.callback i k) ≠ []) ∨
      (∃ e, w.endpoint fd = some e ∧ e.accepted = true) ∨ incoming.content = [] := by
  cases readReply_read read with
  | @reply i k _ _ there queue => exact Or.inl ⟨i, k, there, by simp [outstanding, queue]⟩
  | gone | nothing => exact Or.inr (Or.inr rfl)
  | foreign there accepted =>
    refine Or.inr (Or.inl ⟨_, there, ?_⟩)
    rcases accepted with ⟨i, rfl⟩ | rfl <;> rfl

/-- A listener answers in the order of the INVITEs, or stops answering. -/
theorem outstanding_listen {target : Endpoint} {a : ListenerAction}
    (moved : w.listen target a = some w') : w'.outstanding e <+: w.outstanding e := by
  by_cases same : e = target
  · subst same
    cases listen_moved moved with
    | quit | leave => simp [outstanding]
    | answer listening queue read invite =>
      simp [outstanding, listening, queue, Outgoing.asksReply, read, invite]
    | @pass _ _ _ buffer listening queue read quiet =>
      have notInvite : branch buffer ≠ .invite := by
        rcases quiet with ⟨accept, _⟩ | other
        · simp [accept]
        · simp [other]
      simp [outstanding, listening, queue, Outgoing.asksReply, read, notInvite]
  · obtain ⟨outbound, inbound, peer⟩ := (listen_other moved).2 e same
    simp [outstanding, outbound, inbound, peer]

end Shared

/-- What holds of the callback sockets in every run. -/
structure Wired (s : Server) : Prop where
  untouched : s.Untouched
  fresh : ∀ i k, (∀ h, s.threads[i]? = some h → h.sockets ≤ k) →
    s.peer (.callback i k) = .unconnected ∧ ∀ n, Slots.lookup s.descriptors n ≠ some (.callback i k)
  injective : ∀ n m i k, Slots.lookup s.descriptors n = some (.callback i k) →
    Slots.lookup s.descriptors m = some (.callback i k) → n = m
  replies : ∀ (i : Nat) (h : Handler) message, s.threads[i]? = some h →
    h.phase = .replying message → message.asksReply = false

/-- What a step may do to the descriptor table. -/
inductive TableStep (s t : Server) : Event → Prop
  | kept {e} : (∀ n x, Slots.lookup t.descriptors n = some x → Slots.lookup s.descriptors n = some x) →
      TableStep s t e
  | accepted {x} : x.accepted = true → t.descriptors = Slots.occupy s.descriptors x →
      TableStep s t (.accept true)
  | opened {i h h'} : s.threads[i]? = some h → t.threads[i]? = some h' → h'.sockets = h.sockets + 1 →
      t.descriptors = Slots.occupy s.descriptors (.callback i h.sockets) →
      TableStep s t (.thread i (.socket true))

section Moves
variable {i : Nat} {h h' : Handler} {w w' : Shared} {a : Action} {e : Endpoint}

theorem Handler.Moved.sockets_le (moved : h.Moved i w a h' w') : h.sockets ≤ h'.sockets := by
  cases moved <;> simp [Handler.goto]

theorem Handler.Moved.replies (moved : h.Moved i w a h' w') {message : Outgoing}
    (replying : h'.phase = .replying message) : message.asksReply = false := by
  cases moved with
  | signup | login | logout =>
    cases replying
    exact fixed_asks_nothing _ (by simp)
  | ignored atPhase => simp [atPhase] at replying
  | _ => simp [Handler.goto] at replying

theorem Handler.Moved.untouched (moved : h.Moved i w a h' w') (untouched : w.Untouched) :
    w'.Untouched := by
  cases moved with
  | connect => exact Shared.untouched_connected untouched
  | greet | reply | invite | forward | exitReply | exitNotice => exact Shared.untouched_send untouched _
  | accepted _ read | declined _ read => exact Shared.untouched_readReply untouched read
  | _ => exact untouched

/-- Only `connect` on a number of the table changes the other side of a socket. -/
theorem Handler.Moved.peer_eq (moved : h.Moved i w a h' w')
    (absent : ∀ n, Slots.lookup w.descriptors n ≠ some e) : w'.peer e = w.peer e := by
  cases moved with
  | connect =>
    unfold Shared.connected
    split
    · rename_i target there
      obtain ⟨n, _, found⟩ := Shared.endpoint_eq_some.mp there
      have other : e ≠ target := by
        rintro rfl
        exact absent n found
      simp [other]
    · rfl
  | greet | reply | invite | forward | exitReply | exitNotice => simp
  | accepted _ read | declined _ read => rw [Shared.readReply_peer read]
  | _ => rfl

end Moves

section Steps
variable {s t : Server} {e : Event}

theorem Server.step_sockets (stepped : s.step e = some t) {j : Nat} {h : Handler}
    (before : s.threads[j]? = some h) : ∃ h', t.threads[j]? = some h' ∧ h.sockets ≤ h'.sockets := by
  by_cases own : ∃ a, e = .thread j a
  · obtain ⟨a, rfl⟩ := own
    cases step_moved stepped with
    | thread atThread moved =>
      cases Option.some.inj (before.symm.trans atThread)
      exact ⟨_, by simp only [threads_set atThread, if_true], moved.sockets_le⟩
  · exact ⟨h, thread_kept stepped before (fun a same => own ⟨a, same⟩), le_rfl⟩

theorem Server.step_table (stepped : s.step e = some t) : TableStep s t e := by
  cases step_moved stepped with
  | accept | acceptLate => exact .accepted rfl rfl
  | acceptFails | interrupt => exact .kept fun _ _ found => found
  | listener moved => exact .kept fun _ _ found => Shared.listen_descriptors moved ▸ found
  | @thread i a h h' w' atThread moved =>
    cases quiet : a.changesTable with
    | false => exact .kept fun _ _ found => moved.descriptors_eq quiet ▸ found
    | true =>
      have released {n m : Nat} {x : Endpoint}
          (found : Slots.lookup (Slots.release s.descriptors m) n = some x) :
          Slots.lookup s.descriptors n = some x := by
        rw [Slots.lookup_release] at found
        split_ifs at found
        exact found
      cases moved with
      | socket => exact .opened atThread ((threads_set atThread).trans (if_pos rfl)) rfl rfl
      | close | closeAgain => exact .kept fun _ _ found => released found
      | finish => exact .kept fun _ _ found => found
      | _ => simp [Action.changesTable] at quiet

theorem Server.step_peer {x : Endpoint} (stepped : s.step e = some t)
    (unconnected : s.peer x = .unconnected) (absent : ∀ n, Slots.lookup s.descriptors n ≠ some x) :
    t.peer x = .unconnected := by
  cases step_moved stepped with
  | accept | acceptLate | acceptFails | interrupt => exact unconnected
  | thread atThread moved => exact (moved.peer_eq absent).trans unconnected
  | @listener target a w' moved =>
    obtain ⟨listening, others⟩ := Shared.listen_other moved
    have other : x ≠ target := by
      rintro rfl
      simp [unconnected] at listening
    exact (others x other).2.2.trans unconnected

/-- Of the server itself only `connect` changes the other side of a socket. -/
theorem Server.peer_silent {x : Endpoint} (stepped : s.step e = some t) (silent : ∀ y a, e ≠ .listener y a) :
    t.peer x = s.peer x ∨ s.peer x = .unconnected ∧ t.peer x = .listening := by
  cases step_moved stepped with
  | accept | acceptLate | acceptFails | interrupt => exact Or.inl rfl
  | thread _ moved =>
    cases moved with
    | greet | reply | invite | forward | exitReply | exitNotice => exact Or.inl (by simp)
    | accepted _ read | declined _ read => exact Or.inl (by rw [Shared.readReply_peer read])
    | connect _ possible =>
      unfold Shared.connectable at possible
      split at possible
      · rename_i j k there
        by_cases same : x = .callback j k
        · subst same
          exact Or.inr ⟨of_decide_eq_true possible, by simp [Shared.connected, there]⟩
        · exact Or.inl (by simp [Shared.connected, there, same])
      · simp at possible
    | _ => exact Or.inl rfl
  | @listener y a => exact absurd rfl (silent y a)

theorem Wired.untouched_step (wired : Wired s) (stepped : s.step e = some t) : t.Untouched := by
  cases Server.step_moved stepped with
  | accept | acceptLate | acceptFails | interrupt => exact wired.untouched
  | thread _ moved => exact moved.untouched wired.untouched
  | listener moved => exact Shared.untouched_listen wired.untouched moved

/-- The number of a callback socket that a session is still to open is new to the table. -/
theorem Wired.absent {i : Nat} {h : Handler} (wired : Wired s) (atThread : s.threads[i]? = some h) :
    s.peer (.callback i h.sockets) = .unconnected ∧
      ∀ n, Slots.lookup s.descriptors n ≠ some (.callback i h.sockets) := by
  refine wired.fresh i h.sockets fun g found => ?_
  cases Option.some.inj (atThread.symm.trans found)
  exact le_rfl

theorem Wired.fresh_step (wired : Wired s) (stepped : s.step e = some t) {i k : Nat}
    (all : ∀ h, t.threads[i]? = some h → h.sockets ≤ k) :
    t.peer (.callback i k) = .unconnected ∧
      ∀ n, Slots.lookup t.descriptors n ≠ some (.callback i k) := by
  have below (h : Handler) (before : s.threads[i]? = some h) : h.sockets ≤ k := by
    obtain ⟨h', after, grown⟩ := Server.step_sockets stepped before
    exact grown.trans (all h' after)
  obtain ⟨unconnected, absent⟩ := wired.fresh i k below
  refine ⟨Server.step_peer stepped unconnected absent, fun n found => ?_⟩
  cases Server.step_table stepped with
  | kept shrunk => exact absent n (shrunk n _ found)
  | @accepted x accepted table =>
    have other : Endpoint.callback i k ≠ x := by rintro rfl; simp [Endpoint.accepted] at accepted
    rw [table, Slots.lookup_occupy_iff other] at found
    exact absent n found
  | @opened j h h' before after counted table =>
    have other : Endpoint.callback i k ≠ .callback j h.sockets := by
      rintro same
      cases same
      have bounded := all h' after
      omega
    rw [table, Slots.lookup_occupy_iff other] at found
    exact absent n found

theorem Wired.injective_step (wired : Wired s) (stepped : s.step e = some t) {n m i k : Nat}
    (found : Slots.lookup t.descriptors n = some (.callback i k))
    (again : Slots.lookup t.descriptors m = some (.callback i k)) : n = m := by
  cases Server.step_table stepped with
  | kept shrunk => exact wired.injective n m i k (shrunk n _ found) (shrunk m _ again)
  | @accepted x accepted table =>
    have other : Endpoint.callback i k ≠ x := by rintro rfl; simp [Endpoint.accepted] at accepted
    rw [table, Slots.lookup_occupy_iff other] at found again
    exact wired.injective n m i k found again
  | @opened j h h' before after counted table =>
    rw [table] at found again
    by_cases new : Endpoint.callback i k = .callback j h.sockets
    · cases new
      have absent := (wired.absent before).2
      simp only [Slots.lookup_occupy] at found again
      split_ifs at found again with free free'
      · exact free.trans free'.symm
      · exact absurd again (absent m)
      · exact absurd found (absent n)
      · exact absurd found (absent n)
    · rw [Slots.lookup_occupy_iff new] at found again
      exact wired.injective n m i k found again

theorem Wired.step (wired : Wired s) (stepped : s.step e = some t) : Wired t where
  untouched := wired.untouched_step stepped
  fresh _ _ all := wired.fresh_step stepped all
  injective _ _ _ _ found again := wired.injective_step stepped found again
  replies i h message after replying := by
    rcases Server.thread_origin stepped after with ⟨before, _⟩ | ⟨_, _, _, _, moved⟩ | ⟨_, _, rfl⟩
    · exact wired.replies i h message before replying
    · exact moved.replies replying
    · simp at replying

theorem wired_initial : Wired Server.initial where
  untouched i k _ := ⟨rfl, rfl⟩
  fresh i k _ := ⟨rfl, fun n found => by
    rcases n with _ | _ | _ | _ | n <;> simp [Server.initial, Slots.lookup] at found⟩
  injective n m i k found := by
    rcases n with _ | _ | _ | _ | n <;> simp [Server.initial, Slots.lookup] at found
  replies i h message atThread := by simp [Server.initial] at atThread

theorem wired_of_run {past : History} (run : ServerRun past s) : Wired s :=
  run.invariant (fun _ s => Wired s) wired_initial fun _ _ _ _ _ wired stepped => wired.step stepped

end Steps

end Signaling
