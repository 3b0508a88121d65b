import Signaling.Shutdown

namespace Signaling
open Machine CText

/-- A step of the session's handler. -/
def Event.byThread (i : Nat) : Event → Bool
  | .thread j _ => j = i
  | _ => false

/-- What `recv` returned to the session's handler. -/
def Event.gotten (i : Nat) : Event → Option Text
  | .thread j (.recv bytes) => if j = i then some bytes else none
  | _ => none

/-- The session's client has hung up: `recv` has nothing for its handler. -/
def HungUp (i : Nat) (e : Event) : Prop := ∀ bytes ∈ e.gotten i, bytes = []

instance (i : Nat) (e : Event) : Decidable (HungUp i e) := inferInstanceAs (Decidable (∀ bytes ∈ _, bytes = []))

/-- The handler is in the `recv` of the CALL branch, with nothing to read. -/
def Server.AwaitsReply (s : Server) (h : Handler) : Prop := s.Receiving h ∧ h.phase ≠ .loop

section Steps
variable {past history : History} {s t : Server} {e : Event} {i : Nat} {h h' : Handler} {w : Shared} {a : Action}

theorem hears_hungUp (hungUp : HungUp i (.thread i a)) : h.hears w a = none := by
  cases a with
  | recv bytes =>
    have nothing : bytes = [] := hungUp bytes (by simp [Event.gotten])
    simp [Handler.hears, nothing]
  | stop | socket | connect | greet | reply | hasUser | getUser | invite | answer | forward | exitReply
  | exitNotice | close | finish => rfl

/-- A step leaves the handler of a client that has hung up where it is, or takes it closer to its end. -/
theorem left_hungUp (stepped : s.step e = some t) (hungUp : HungUp i e) (atThread : s.threads[i]? = some h) :
    ∃ h', t.threads[i]? = some h' ∧ (e.byThread i).toNat + h'.phase.left ≤ h.phase.left := by
  by_cases own : ∃ a, e = .thread i a
  · obtain ⟨a, rfl⟩ := own
    cases Server.step_moved stepped with
    | @thread _ _ h₀ h' w' there moved =>
      cases Option.some.inj (there.symm.trans atThread)
      refine ⟨h', by rw [threads_set there, if_pos rfl], ?_⟩
      have less := moved.left_lt (hears_hungUp hungUp)
      simp only [Event.byThread, decide_true, Bool.toNat_true]
      omega
  · have other : ∀ a, e ≠ .thread i a := fun a same => own ⟨a, same⟩
    refine ⟨h, Server.thread_kept stepped atThread other, ?_⟩
    have idle : e.byThread i = false := by
      cases e with
      | thread j a =>
        refine decide_eq_false fun same => ?_
        subst same
        exact other a rfl
      | accept | interrupt | listener => rfl
    simp [idle]

/-- A handler that has not returned sees that its client has hung up, or goes on alone, unless it waits for a reply. -/
theorem stuck_hungUp (run : ServerRun past s) (atThread : s.threads[i]? = some h)
    (stuck : ∀ a, a = .recv [] ∨ ¬ s.Outside h a → s.step (.thread i a) = none) :
    h.phase = .returned ∨ s.AwaitsReply h := by
  by_contra neither
  obtain ⟨open_, moves⟩ := not_or.mp neither
  by_cases looping : h.phase = .loop
  · have none := (Server.step_none_iff atThread).mp (stuck (.recv []) (Or.inl rfl))
    simp [Handler.step, looping, Handler.receive] at none
  · obtain ⟨a, alone, able⟩ := Server.able_of_awake (i := i) run open_ fun receiving => moves ⟨receiving, looping⟩
    rw [(Server.step_none_iff atThread).mp (stuck a (Or.inr alone))] at able
    cases able

/-- When its client hangs up, a handler takes at most eight more steps, whatever the other threads do meanwhile, and
then it has returned, unless it waits in the CALL branch for what nobody has written yet. -/
theorem session_ends (before : ServerRun history s) (atThread : s.threads[i]? = some h)
    (run : Trail Server.step s past t) (hungUp : Throughout (fun _ _ => HungUp i) past) :
    count (fun _ e => e.byThread i) past ≤ 8 ∧ ∃ h', t.threads[i]? = some h' ∧
      ((∀ a, a = .recv [] ∨ ¬ t.Outside h' a → t.step (.thread i a) = none) →
        h'.phase = .returned ∨ t.AwaitsReply h') := by
  obtain ⟨⟨history', run'⟩, h', there, counted⟩ : (∃ history', ServerRun history' t) ∧
      ∃ h', t.threads[i]? = some h' ∧ count (fun _ e => e.byThread i) past + h'.phase.left ≤ h.phase.left := by
    refine run.invariant_of_allowed (fun past t => (∃ history', ServerRun history' t) ∧ ∃ h',
      t.threads[i]? = some h' ∧ count (fun _ e => e.byThread i) past + h'.phase.left ≤ h.phase.left) ?_ ?_ hungUp
    · exact ⟨⟨_, before⟩, h, atThread, by simp⟩
    · rintro past s e t _ ⟨⟨history', run'⟩, g, there, counted⟩ hungUp stepped
      obtain ⟨g', after, less⟩ := left_hungUp stepped hungUp there
      exact ⟨⟨_, run'.next stepped⟩, g', after, by rw [count_cons]; omega⟩
  have most := h.phase.left_le
  exact ⟨by omega, h', there, stuck_hungUp run' there⟩

end Steps

/-- A client has announced its listener and sent SIGNUP. -/
def signingRun : List Event := .accept true :: session 0 (connects ++ [.recv (clientFrame "SIGNUP bob pw")])

/-- It hangs up, and another one connects. -/
def signerLeaves : List Event :=
  [.accept true, .thread 0 .reply, .thread 0 (.recv []), .thread 0 .close, .thread 0 .finish]

theorem signing_session_ends : ∃ history s past t,
    execute Server.step [] Server.initial signingRun = some (history, s) ∧
      execute Server.step [] s signerLeaves = some (past, t) ∧ t.running = true ∧
        count (fun _ e => e.byThread 0) past ≤ 8 ∧ ∃ h', t.threads[0]? = some h' ∧
          ((∀ a, a = .recv [] ∨ ¬ t.Outside h' a → t.step (.thread 0 a) = none) →
            h'.phase = .returned ∨ t.AwaitsReply h') := by
  have ran : (execute Server.step [] Server.initial signingRun).any (fun r =>
      (r.2.threads[0]?).isSome && (execute Server.step [] r.2 signerLeaves).any fun r' =>
        decide (r'.2.running = true ∧ Throughout (fun _ _ => HungUp 0) r'.1)) = true := by
    decide +kernel
  obtain ⟨history, s, first, checked⟩ := execute_check _ ran
  obtain ⟨one, later⟩ := Bool.and_eq_true_iff.mp checked
  obtain ⟨h, there⟩ := Option.isSome_iff_exists.mp one
  obtain ⟨past, t, second, checked⟩ := execute_check _ later
  obtain ⟨running, hungUp⟩ := of_decide_eq_true checked
  exact ⟨history, s, past, t, first, second, running,
    session_ends (execute_trail first) there (execute_trail second) hungUp⟩

end Signaling
