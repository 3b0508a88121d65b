import Signaling.CallbackRoute
import Signaling.NetworkDialogue

namespace Signaling
open Machine CText

/-- The name whose record the handler reads next. -/
def Phase.sought : Phase → Option Text
  | .looking receiver _ => some receiver
  | _ => none

/-- A `close` hits no other session's command socket and no callback socket, and a CALL reads a descriptor that
has been written. -/
def Server.Sound (s : Server) : Event → Prop
  | .thread i (.getUser _) => ∀ h ∈ s.threads[i]?, ∀ receiver ∈ h.phase.sought,
      ∀ user ∈ s.userStore.getUser receiver, user.socketFd.isSome = true
  | .thread i a => ∀ x ∈ s.closes (.thread i a), x = .client i
  | .accept _ | .interrupt | .listener .. => True

instance (s : Server) (e : Event) : Decidable (s.Sound e) := by
  unfold Server.Sound
  cases_type* Event Action <;> infer_instance

/-- The number denotes a callback socket, or none and never will. -/
def Shared.Routes (w : Shared) (fd : Int) : Prop := fd = -1 ∨ ∃ i k, w.endpoint fd = some (.callback i k)

/-- Every number that a handler or the store holds denotes what it was opened for. -/
structure Sealed (s : Server) : Prop where
  command : ∀ (i : Nat) (h : Handler), s.threads[i]? = some h → h.ended = false →
    s.endpoint h.clientSocket = some (.client i)
  callback : ∀ h ∈ s.threads, s.Routes h.clientSocketFd
  stored : ∀ u user, s.userStore.users u = some user → ∀ fd ∈ user.socketFd, s.Routes fd
  invited : ∀ h ∈ s.threads, ∀ receiverFd ∈ h.phase.receiverFd, s.Routes receiverFd

section Server
variable {s t : Server} {e : Event} {i : Nat} {h : Handler} {fd : Int} {w w' : Shared}

theorem Shared.Routes.apart (routes : w.Routes fd) (i : Nat) : w.endpoint fd ≠ some (.client i) := by
  have nowhere : w.endpoint (-1) = none := rfl
  rcases routes with rfl | ⟨j, k, there⟩
  · simp [nowhere]
  · simp [there]

theorem Server.Sound.closes (sound : s.Sound e) {x : Endpoint} (hit : s.closes e = some x) :
    ∃ i a, e = .thread i a ∧ x = .client i ∧ (a = .close ∨ a = .finish) := by
  cases e with
  | thread i a =>
    cases a with
    | close => exact ⟨i, _, rfl, sound x hit, Or.inl rfl⟩
    | finish => exact ⟨i, _, rfl, sound x hit, Or.inr rfl⟩
    | _ => simp [Server.closes] at hit
  | accept | interrupt | listener => simp [Server.closes] at hit

theorem Server.Sound.callback_stays (sound : s.Sound e) (stepped : s.step e = some t) {k : Nat}
    (there : s.endpoint fd = some (.callback i k)) : t.endpoint fd = some (.callback i k) := by
  obtain ⟨n, rfl, found⟩ := Shared.endpoint_eq_some.mp there
  rcases Server.entry_kept stepped found with kept | hit
  · exact kept
  · obtain ⟨_, _, _, same, _⟩ := sound.closes hit
    simp at same

theorem Server.Sound.routes_kept (sound : s.Sound e) (stepped : s.step e = some t) (routes : s.Routes fd) :
    t.Routes fd := by
  rcases routes with unset | ⟨i, k, there⟩
  · exact Or.inl unset
  · exact Or.inr ⟨i, k, sound.callback_stays stepped there⟩

/-- A handler whose command socket is closed has taken the step that closes it. -/
theorem Handler.Moved.ended_of_close {h' : Handler} {a : Action} (moved : h.Moved i w a h' w')
    (closes : a = .close ∨ a = .finish) : h'.ended = true := by
  rcases closes with rfl | rfl
  · cases moved; rfl
  · cases moved <;> rfl

theorem Handler.Moved.open_before {h' : Handler} {a : Action} (moved : h.Moved i w a h' w')
    (open_ : h'.ended = false) : h.ended = false := by
  cases moved with
  | close | finish | closeAgain => simp [Handler.ended, Handler.goto] at open_
  | ignored => exact open_
  | reply atPhase | stop atPhase | hangup atPhase | client atPhase | signup atPhase | login atPhase
  | call atPhase | refuse atPhase | logout atPhase | exit atPhase | socket atPhase | socketFails atPhase
  | connect atPhase | connectFails atPhase | greet atPhase | hasUser atPhase | hasNoUser atPhase | getUser atPhase
  | noUser atPhase | invite atPhase | accepted atPhase | declined atPhase | forward atPhase | exitReply atPhase
  | exitReplyFails atPhase | exitNotice atPhase => rw [Handler.ended, atPhase]

theorem Sealed.command_step (sealed : Sealed s) (sound : s.Sound e) (stepped : s.step e = some t)
    (after : t.threads[i]? = some h) (open_ : h.ended = false) : t.endpoint h.clientSocket = some (.client i) := by
  rcases Server.thread_origin stepped after with ⟨before, others⟩ | ⟨a, g, rfl, before, moved⟩ | ⟨rfl, rfl, rfl⟩
  · rcases Server.entry_kept stepped (sealed.command i h before open_) with kept | hit
    · exact kept
    · obtain ⟨j, a, same, own, _⟩ := sound.closes hit
      cases own
      exact absurd same (others a)
  · rw [moved.clientSocket_eq]
    rcases Server.entry_kept stepped (sealed.command i g before (moved.open_before open_)) with kept | hit
    · exact kept
    · obtain ⟨_, _, same, _, closes⟩ := sound.closes hit
      cases same
      rw [moved.ended_of_close closes] at open_
      simp at open_
  · cases Server.step_moved stepped with
    | accept => simp [Shared.endpoint, Shared.allocate, Slots.lookup_occupy]
    | acceptLate => simp at after

theorem Handler.Moved.routes_of_socket {h' : Handler} {ok : Bool} (moved : h.Moved i w (.socket ok) h' w') :
    w'.Routes h'.clientSocketFd := by
  cases moved with
  | socket => exact Or.inr ⟨i, h.sockets, by simp [Shared.endpoint, Shared.allocate, Slots.lookup_occupy]⟩
  | socketFails => exact Or.inl rfl

theorem Sealed.callback_step (sealed : Sealed s) (sound : s.Sound e) (stepped : s.step e = some t)
    (member : h ∈ t.threads) : t.Routes h.clientSocketFd := by
  obtain ⟨i, after⟩ := List.mem_iff_getElem?.mp member
  rcases Server.thread_origin stepped after with ⟨before, _⟩ | ⟨a, g, rfl, before, moved⟩ | ⟨_, _, rfl⟩
  · exact sound.routes_kept stepped (sealed.callback h (List.mem_of_getElem? before))
  · by_cases opens : ∃ ok, a = .socket ok
    · obtain ⟨ok, rfl⟩ := opens
      exact moved.routes_of_socket
    · rw [moved.clientSocketFd_eq fun ok same => opens ⟨ok, same⟩]
      exact sound.routes_kept stepped (sealed.callback g (List.mem_of_getElem? before))
  · exact Or.inl rfl

theorem Handler.Moved.receiverFd {h' : Handler} {a : Action} (moved : h.Moved i w a h' w')
    (target : fd ∈ h'.phase.receiverFd) : fd ∈ h.phase.receiverFd ∨
      ∃ unwritten receiver user, a = .getUser unwritten ∧ receiver ∈ h.phase.sought ∧
        user ∈ w.userStore.getUser receiver ∧ fd = user.socketFd.getD unwritten := by
  cases moved with
  | ignored => exact Or.inl target
  | getUser atPhase found =>
    exact Or.inr ⟨_, _, _, rfl, by rw [atPhase]; rfl, found, (Option.some.inj target).symm⟩
  | _ => simp [Phase.receiverFd, Handler.goto] at target

/-- Every descriptor in the store is that of the session that signed its name up. -/
theorem Sealed.stored_step (sealed : Sealed s) (sound : s.Sound e) (stepped : s.step e = some t) {u : Text}
    {user : User} (found : t.userStore.users u = some user) (written : fd ∈ user.socketFd) : t.Routes fd := by
  rw [Server.step_userStore stepped] at found
  cases made : s.storeCall e with
  | none =>
    rw [made] at found
    exact sound.routes_kept stepped (sealed.stored u user found fd written)
  | some call =>
    rw [made, Option.elim_some] at found
    by_cases here : call.signsUp u
    · obtain ⟨j, added, rfl, rfl⟩ := StoreCall.signsUp_iff.mp here
      obtain ⟨g, atThread, _, fresh⟩ := Server.storeCall_addUser made
      rw [StoreCall.apply, UserStore.users_addUser, if_pos rfl] at found
      cases Option.some.inj found
      rw [fresh] at written
      cases Option.some.inj written
      exact sound.routes_kept stepped (sealed.callback g (List.mem_of_getElem? atThread))
    · cases before : s.userStore.users u with
      | none =>
        rw [StoreCall.apply_of_none before here found] at written
        simp at written
      | some old =>
        obtain ⟨new, foundNew, account⟩ := StoreCall.apply_of_some before here
        cases Option.some.inj (found.symm.trans foundNew)
        rw [account.socketFd] at written
        exact sound.routes_kept stepped (sealed.stored u old before fd written)

/-- The descriptor that an INVITE goes to was read from the store. -/
theorem Sealed.invited_step (sealed : Sealed s) (sound : s.Sound e) (stepped : s.step e = some t)
    (member : h ∈ t.threads) (target : fd ∈ h.phase.receiverFd) : t.Routes fd := by
  obtain ⟨i, after⟩ := List.mem_iff_getElem?.mp member
  rcases Server.thread_origin stepped after with ⟨before, _⟩ | ⟨a, g, rfl, before, moved⟩ | ⟨_, _, rfl⟩
  · exact sound.routes_kept stepped (sealed.invited h (List.mem_of_getElem? before) fd target)
  · rcases moved.receiverFd target with same | ⟨unwritten, receiver, user, rfl, sought, found, same⟩
    · exact sound.routes_kept stepped (sealed.invited g (List.mem_of_getElem? before) fd same)
    · have written := sound g before receiver sought user found
      obtain ⟨stored, set⟩ := Option.isSome_iff_exists.mp written
      rw [set, Option.getD_some] at same
      rw [same]
      exact sound.routes_kept stepped (sealed.stored receiver user found stored set)
  · simp [Phase.receiverFd] at target

theorem Sealed.step (sealed : Sealed s) (sound : s.Sound e) (stepped : s.step e = some t) : Sealed t where
  command _ _ after open_ := sealed.command_step sound stepped after open_
  callback _ member := sealed.callback_step sound stepped member
  stored _ _ found _ written := sealed.stored_step sound stepped found written
  invited _ member _ target := sealed.invited_step sound stepped member target

end Server

/-- The step of the network is a sound one of the server. -/
def Network.Sound (n : Network) (e : NetworkEvent) : Prop := ∀ f ∈ n.shown e, n.toServer.Sound f

/-- Nothing of the session fails, and there is no signal and no exception before the client's own SIGINT. -/
def Network.Calm (i : Nat) (n : Network) : NetworkEvent → Prop
  | .client j .interrupt => j ≠ i
  | .handler j (.socket ok) | .handler j (.connect ok) => j = i → ok = true
  | .listen j _ raised => j = i → raised = false
  | .interrupt => i < n.threads.length → (n.parties i).client.running = false
  | _ => True

instance (n : Network) (e : NetworkEvent) : Decidable (n.Sound e) :=
  inferInstanceAs (Decidable (∀ f ∈ n.shown e, n.toServer.Sound f))

instance (i : Nat) (n : Network) (e : NetworkEvent) : Decidable (Network.Calm i n e) := by
  unfold Network.Calm
  cases_type* NetworkEvent ClientAction Action <;> infer_instance

section Network
variable {past : List (Network × NetworkEvent)} {s : Server} {n n' : Network} {e : NetworkEvent} {d : Dialogue}
  {i j : Nat} {h : Handler} {fd : Int}

theorem Server.Seen.sound (seen : s.Seen n) {f : Event} (sound : n.toServer.Sound f) : s.Sound f := by
  have store : n.userStore = s.userStore := by rw [seen.ahead.rest]
  have table : n.descriptors = s.descriptors := by rw [seen.ahead.rest]
  cases f with
  | thread i a =>
    cases a with
    | getUser | close | finish => simpa only [Server.Sound, Server.closes, seen.threads, store, table] using sound
    | _ => simp [Server.Sound, Server.closes]
  | accept | interrupt | listener => trivial

theorem Server.Seen.endpoint (seen : s.Seen n) : n.endpoint fd = s.endpoint fd := seen.ahead.alike.endpoint

/-- Only its own client and handler touch the connection of a session. -/
theorem Network.outbound_kept (seen : s.Seen n) (sealed : Sealed s) {w : Shared} (stepped : n.step e = some n')
    (others : n.conversing i e = some (.others w)) :
    w = n'.toShared ∧ n'.outbound (.client i) = n.outbound (.client i) := by
  cases e with
  | accept ok =>
    simp only [conversing, stepped, Option.map_some, Option.some.injEq, DialogueEvent.others.injEq] at others
    refine ⟨others.symm, ?_⟩
    obtain ⟨t, accepted, rfl⟩ := Option.map_eq_some_iff.mp stepped
    cases Server.step_moved accepted <;> rfl
  | interrupt =>
    simp only [conversing, stepped, Option.map_some, Option.some.injEq, DialogueEvent.others.injEq] at others
    cases Option.some.inj stepped
    exact ⟨others.symm, rfl⟩
  | client j a | replyFails j | gathered j localSdp =>
    by_cases mine : j = i <;> simp [conversing, mine] at others
  | describe => simp [conversing] at others
  | reply j =>
    by_cases mine : j = i
    · simp [conversing, mine] at others
    · simp only [conversing, if_neg mine, stepped, Option.map_some, Option.some.injEq,
        DialogueEvent.others.injEq] at others
      refine ⟨others.symm, ?_⟩
      obtain ⟨g, _, stepped⟩ := Option.bind_eq_some_iff.mp stepped
      obtain ⟨after, run, rfl⟩ := Option.map_eq_some_iff.mp stepped
      rcases Dialogue.step_reply run with ⟨_, rest, _, _, _, _, _, rfl⟩ | ⟨_, _, _, _, rfl⟩
      · have apart : Endpoint.client i ≠ .client j := by simpa using Ne.symm mine
        exact Function.update_of_ne apart _ _
      · rfl
  | handler j a =>
    by_cases mine : j = i
    · simp [conversing, mine] at others
    · simp only [conversing, if_neg mine, stepped, Option.map_some, Option.some.injEq,
        DialogueEvent.others.injEq] at others
      refine ⟨others.symm, ?_⟩
      obtain ⟨g, atThread, stepped⟩ := Option.bind_eq_some_iff.mp stepped
      obtain ⟨after, run, rfl⟩ := Option.map_eq_some_iff.mp stepped
      obtain ⟨taken, g', v, _, moved, rfl⟩ := Dialogue.step_handler run
      rw [seen.threads] at atThread
      have member := List.mem_of_getElem? atThread
      refine (Handler.step_moved moved).outbound_apart (fun open_ => ?_) ?_ fun receiverFd target => ?_
      · show n.endpoint g.clientSocket ≠ _
        rw [seen.endpoint, sealed.command j g atThread open_]
        simpa using mine
      · show n.endpoint g.clientSocketFd ≠ _
        rw [seen.endpoint]
        exact (sealed.callback g member).apart i
      · show n.endpoint receiverFd ≠ _
        rw [seen.endpoint]
        exact (sealed.invited g member receiverFd target).apart i
  | listen j k raised =>
    simp only [conversing, stepped, Option.map_some, Option.some.injEq, DialogueEvent.others.injEq] at others
    refine ⟨others.symm, ?_⟩
    obtain ⟨_, _, stepped⟩ := Option.bind_eq_some_iff.mp stepped
    dsimp only at stepped
    split_ifs at stepped
    · obtain ⟨w, moved, rfl⟩ := Option.map_eq_some_iff.mp stepped
      exact ((Shared.listen_other moved).2 _ (by simp)).1
    · obtain ⟨w, moved, rfl⟩ := Option.map_eq_some_iff.mp stepped
      exact ((Shared.listen_other moved).2 _ (by simp)).1
  | quit j k =>
    simp only [conversing, stepped, Option.map_some, Option.some.injEq, DialogueEvent.others.injEq] at others
    refine ⟨others.symm, ?_⟩
    obtain ⟨w, moved, rfl⟩ := Option.map_eq_some_iff.mp stepped
    exact ((Shared.listen_other moved).2 _ (by simp)).1

end Network

end Signaling
