import Signaling.CallLookup
import Signaling.Client
import Signaling.Machine.Ledger

namespace Signaling
open Machine CText

/-- A CALL has been taken up and its INVITE not sent. -/
def Phase.dialing : Phase → Bool
  | .calling .. | .looking .. | .inviting .. => true
  | _ => false

def Phase.ringing : Phase → Bool
  | .waiting .. => true
  | _ => false

/-- The callee has accepted, and the ACCEPT is not forwarded. -/
def Phase.relaying : Phase → Bool
  | .forwarding .. => true
  | _ => false

/-- A reply to the client is still to be written. -/
def Phase.owing : Phase → Bool
  | .replying _ | .exiting => true
  | _ => false

namespace Server

/-- The session is at such a point of its loop. -/
def stage (s : Server) (i : Nat) (test : Phase → Bool) : Bool := (s.threads[i]?).any fun h => test h.phase

/-- The session's handler takes up a command that passes the test. -/
def takesUp (s : Server) (i : Nat) (test : Command → Bool) : Event → Bool
  | .thread j a => j = i && (s.threads[i]?).any fun h => (h.hears s.toShared a).any test
  | _ => false

/-- The session's handler takes up a CALL to a name that is flagged. -/
def places (s : Server) (i : Nat) (e : Event) : Bool :=
  s.takesUp i (fun command => match command with
    | .call receiver _ => s.userStore.isLogin receiver = some true
    | _ => false) e

/-- The session's handler reads a reply to its INVITE that starts with ACCEPT. -/
def accepts (s : Server) (i : Nat) : Event → Bool
  | .thread j (.answer foreign) => j = i && (s.threads[i]?).any fun h =>
    match h.phase with
    | .waiting fd _ => (s.readReply fd foreign).any fun r => (received r.1.content).bind acceptTest = some true
    | _ => false
  | _ => false

end Server

def Event.invitesFor (i : Nat) : Event → Bool
  | .thread j .invite => j = i
  | _ => false

def Event.answersFor (i : Nat) : Event → Bool
  | .thread j (.answer _) => j = i
  | _ => false

def Event.forwardsFor (i : Nat) : Event → Bool
  | .thread j .forward => j = i
  | _ => false

/-- The session's handler writes a reply to its client, or fails to write the one to EXIT. -/
def Event.repliesFor (i : Nat) : Event → Bool
  | .thread j .reply | .thread j (.exitReply _) => j = i
  | _ => false

/-- What has become of the CALLs of a session to names that were flagged. -/
structure CallsAccounted (i : Nat) (past : History) (s : Server) : Prop where
  invited : count (fun s e => s.places i e) past =
    count (fun _ e => e.invitesFor i) past + (s.stage i Phase.dialing).toNat
  answered : count (fun _ e => e.invitesFor i) past =
    count (fun _ e => e.answersFor i) past + (s.stage i Phase.ringing).toNat
  forwarded : count (fun s e => s.accepts i e) past =
    count (fun _ e => e.forwardsFor i) past + (s.stage i Phase.relaying).toNat

section Steps
variable {past : History} {s t : Server} {e : Event} {i : Nat} {h h' : Handler} {w' : Shared} {a : Action}

theorem Server.stage_thread {test : Phase → Bool} (atThread : s.threads[i]? = some h) :
    s.stage i test = test h.phase := by
  rw [stage, atThread, Option.any_some]

/-- A stage of the loop that only the steps of its own session enter and leave. -/
theorem stage_balance {test : Phase → Bool} {charges settles : Server → Event → Bool} (atStart : test .loop = false)
    (others : ∀ s e, (∀ a, e ≠ .thread i a) → charges s e = false ∧ settles s e = false)
    (own : ∀ past s a h h' w', ServerRun past s → s.threads[i]? = some h → h.Moved i s.toShared a h' w' →
      (settles s (.thread i a)).toNat + (test h'.phase).toNat =
        (test h.phase).toNat + (charges s (.thread i a)).toNat)
    (run : ServerRun past s) : count charges past = count settles past + (s.stage i test).toNat := by
  have balance : count settles past + (s.stage i test).toNat =
      (Server.initial.stage i test).toNat + count charges past := by
    refine @Trail.balance _ _ _ _ (fun s => (s.stage i test).toNat) charges settles ?_ _ _ run
    intro past s e t run stepped
    by_cases mine : ∃ a, e = .thread i a
    · obtain ⟨a, rfl⟩ := mine
      cases Server.step_moved stepped with
      | @thread _ _ h h' w' atThread moved =>
        have after : (s.threads.set i h')[i]? = some h' := by rw [threads_set atThread, if_pos rfl]
        rw [Server.stage_thread after, Server.stage_thread atThread]
        exact own past s a h h' w' run atThread moved
    · have other : ∀ a, e ≠ .thread i a := fun a same => mine ⟨a, same⟩
      have same : t.stage i test = s.stage i test := by
        cases before : s.threads[i]? with
        | some h => rw [Server.stage_thread before, Server.stage_thread (Server.thread_kept stepped before other)]
        | none =>
          have none : s.stage i test = false := by rw [Server.stage, before, Option.any_none]
          cases after : t.threads[i]? with
          | none => rw [none, Server.stage, after, Option.any_none]
          | some h' =>
            rcases Server.thread_origin stepped after with ⟨earlier, _⟩ | ⟨a, _, same, _⟩ | ⟨_, _, rfl⟩
            · simp [before] at earlier
            · exact absurd same (other a)
            · rw [Server.stage_thread after, none]
              exact atStart
      rw [(others s e other).1, (others s e other).2, same]
      simp
  have nothing : (Server.initial.stage i test).toNat = 0 := rfl
  omega

theorem Server.takesUp_thread {test : Command → Bool} (atThread : s.threads[i]? = some h) :
    s.takesUp i test (.thread i a) = (h.hears s.toShared a).any test := by
  simp [takesUp, atThread]

theorem Server.takesUp_other {test : Command → Bool} (other : ∀ a, e ≠ .thread i a) : s.takesUp i test e = false := by
  cases e with
  | thread j a =>
    have differs : j ≠ i := by
      rintro rfl
      exact other a rfl
    simp [takesUp, differs]
  | accept | interrupt | listener => rfl

/-- A CALL that has been taken up to a name that was flagged comes to its INVITE. -/
theorem dialing_moved (run : ServerRun past s) (atThread : s.threads[i]? = some h)
    (moved : h.Moved i s.toShared a h' w') : (Event.invitesFor i (.thread i a)).toNat + h'.phase.dialing.toNat =
      h.phase.dialing.toNat + (s.places i (.thread i a)).toNat := by
  have stored := receiver_stored run i h atThread
  rw [Server.places, Server.takesUp_thread atThread]
  cases moved with
  | hasNoUser atPhase absent => simp [stored _ (by rw [atPhase]; rfl)] at absent
  | noUser atPhase absent =>
    have present := stored _ (by rw [atPhase]; rfl)
    rw [UserStore.getUser] at absent
    simp [UserStore.hasUser, absent] at present
  | call atPhase heard login | refuse atPhase heard login =>
    rw [heard, atPhase]
    simp [Event.invitesFor, Handler.goto, Phase.dialing, login]
  | client atPhase heard | signup atPhase heard | login atPhase heard | logout atPhase heard | exit atPhase heard
  | ignored atPhase heard | hangup atPhase heard =>
    rw [heard]
    simp [Event.invitesFor, Handler.goto, Phase.dialing, atPhase]
  | stop atPhase | socket atPhase | socketFails atPhase | connect atPhase | connectFails atPhase | greet atPhase
  | reply atPhase | hasUser atPhase | getUser atPhase | invite atPhase | accepted atPhase | declined atPhase
  | forward atPhase | exitReply atPhase | exitReplyFails atPhase | exitNotice atPhase | close atPhase
  | finish atPhase | closeAgain atPhase =>
    simp [Event.invitesFor, Handler.goto, Phase.dialing, Handler.hears, atPhase]

theorem ringing_moved (moved : h.Moved i s.toShared a h' w') :
    (Event.answersFor i (.thread i a)).toNat + h'.phase.ringing.toNat =
      h.phase.ringing.toNat + (Event.invitesFor i (.thread i a)).toNat := by
  cases moved with
  | _ atPhase => simp [Event.invitesFor, Event.answersFor, Handler.goto, Phase.ringing, atPhase]

theorem relaying_moved (atThread : s.threads[i]? = some h) (moved : h.Moved i s.toShared a h' w') :
    (Event.forwardsFor i (.thread i a)).toNat + h'.phase.relaying.toNat =
      h.phase.relaying.toNat + (s.accepts i (.thread i a)).toNat := by
  cases moved with
  | accepted atPhase read tested | declined atPhase read tested =>
    simp [Event.forwardsFor, Handler.goto, Phase.relaying, Server.accepts, atThread, atPhase, read, tested]
  | _ atPhase => simp [Event.forwardsFor, Handler.goto, Phase.relaying, Server.accepts, atPhase]

theorem owing_moved (atThread : s.threads[i]? = some h) (moved : h.Moved i s.toShared a h' w') :
    (Event.repliesFor i (.thread i a)).toNat + h'.phase.owing.toNat =
      h.phase.owing.toNat + (s.takesUp i (fun command => command.reply.isSome) (.thread i a)).toNat := by
  rw [Server.takesUp_thread atThread]
  cases moved with
  | client atPhase heard | signup atPhase heard | login atPhase heard | call atPhase heard | refuse atPhase heard
  | logout atPhase heard | exit atPhase heard | ignored atPhase heard | hangup atPhase heard =>
    rw [heard]
    simp [Event.repliesFor, Handler.goto, Phase.owing, Command.reply, atPhase]
  | _ atPhase => simp [Event.repliesFor, Handler.goto, Phase.owing, Handler.hears, atPhase]

/-- Every CALL to a flagged name that a session has placed has come to one INVITE, every INVITE to one reply
read, and every ACCEPT read has been forwarded once, but for the one CALL that the session is at. -/
theorem calls_accounted (run : ServerRun past s) (i : Nat) : CallsAccounted i past s where
  invited := by
    refine stage_balance rfl (fun s e other => ⟨Server.takesUp_other other, ?_⟩) ?_ run
    · cases e with
      | thread j a =>
        cases a with
        | invite => exact decide_eq_false fun same => other .invite (same ▸ rfl)
        | _ => rfl
      | _ => rfl
    · exact fun _ _ _ _ _ _ run atThread moved => dialing_moved run atThread moved
  answered := by
    refine stage_balance rfl (fun s e other => ?_) ?_ run
    · cases e with
      | thread j a =>
        cases a with
        | invite => exact ⟨decide_eq_false fun same => other .invite (same ▸ rfl), rfl⟩
        | answer foreign => exact ⟨rfl, decide_eq_false fun same => other (.answer foreign) (same ▸ rfl)⟩
        | _ => exact ⟨rfl, rfl⟩
      | _ => exact ⟨rfl, rfl⟩
    · exact fun _ _ _ _ _ _ _ _ moved => ringing_moved moved
  forwarded := by
    refine stage_balance rfl (fun s e other => ?_) ?_ run
    · cases e with
      | thread j a =>
        cases a with
        | answer foreign =>
          have differs : j ≠ i := fun same => other (.answer foreign) (same ▸ rfl)
          exact ⟨by simp [Server.accepts, differs], rfl⟩
        | forward => exact ⟨rfl, decide_eq_false fun same => other .forward (same ▸ rfl)⟩
        | _ => exact ⟨rfl, rfl⟩
      | _ => exact ⟨rfl, rfl⟩
    · exact fun _ _ _ _ _ _ _ atThread moved => relaying_moved atThread moved

/-- Every SIGNUP, LOGIN, LOGOUT and EXIT that a session has taken up has been replied to once, but for the
one whose reply is still owed. -/
theorem replies_accounted (run : ServerRun past s) (i : Nat) :
    count (fun s e => s.takesUp i (fun command => command.reply.isSome) e) past =
      count (fun _ e => e.repliesFor i) past + (s.stage i Phase.owing).toNat := by
  refine stage_balance rfl (fun s e other => ⟨Server.takesUp_other other, ?_⟩) ?_ run
  · cases e with
    | thread j a =>
      cases a with
      | reply => exact decide_eq_false fun same => other .reply (same ▸ rfl)
      | exitReply ok => exact decide_eq_false fun same => other (.exitReply ok) (same ▸ rfl)
      | _ => rfl
    | _ => rfl
  · exact fun _ _ _ _ _ _ _ atThread moved => owing_moved atThread moved

end Steps

/-- bob, logged in, calls himself twice; his listener answers the first call and is asked a second time. -/
def callsTwice : List Event :=
  .accept true :: session 0 (connects ++ sends "SIGNUP bob pw" ++ sends "LOGIN bob pw" ++ rings "bob") ++
    [.listener (.callback 0 0) (.dispatch none), .listener (.callback 0 0) (.dispatch (some "sdp".toList)),
      .thread 0 (.answer []), .thread 0 .forward] ++ session 0 (rings "bob")

theorem calls_twice_accounted : ∃ past s, execute Server.step [] Server.initial callsTwice = some (past, s) ∧
    count (fun s e => s.places 0 e) past = 2 ∧ CallsAccounted 0 past s := by
  have ran : (execute Server.step [] Server.initial callsTwice).any (fun r =>
      decide (count (fun s e => s.places 0 e) r.1 = 2)) = true := by
    decide +kernel
  obtain ⟨past, s, done, checked⟩ := execute_check _ ran
  exact ⟨past, s, done, of_decide_eq_true checked, calls_accounted (execute_trail done) 0⟩

/-- bob signs up and logs in, and the reply to his LOGIN is not yet written. -/
def loginUnanswered : List Event :=
  .accept true :: session 0 (connects ++ sends "SIGNUP bob pw" ++ [.recv (clientFrame "LOGIN bob pw")])

theorem login_unanswered_accounted : ∃ past s,
    execute Server.step [] Server.initial loginUnanswered = some (past, s) ∧ s.stage 0 Phase.owing = true ∧
      count (fun s e => s.takesUp 0 (fun command => command.reply.isSome) e) past =
        count (fun _ e => e.repliesFor 0) past + (s.stage 0 Phase.owing).toNat := by
  have ran : (execute Server.step [] Server.initial loginUnanswered).any (fun r => r.2.stage 0 Phase.owing) = true := by
    decide +kernel
  obtain ⟨past, s, done, checked⟩ := execute_check _ ran
  exact ⟨past, s, done, checked, replies_accounted (execute_trail done) 0⟩

end Signaling
