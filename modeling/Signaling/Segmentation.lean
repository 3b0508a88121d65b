import Mathlib.Data.List.Infix
import Signaling.StoreCalls

namespace Signaling
open Machine CText

/-- The frames of the messages, one after the other. -/
def stream (texts : List Text) : Text := texts.flatMap (padded socketBufferSize)

/-- A way in which TCP may hand out a stream of bytes. -/
structure Segmented (bytes : Text) (segments : List Text) : Prop where
  joined : segments.flatten = bytes
  filled : ∀ segment ∈ segments, segment ≠ []
  fits : ∀ segment ∈ segments, segment.length ≤ socketBufferSize

/-- The commands that the loop of `client_handler` carries out on the results of its `recv`, the
bodies of the branches returning normally; `none` is undefined behaviour. -/
def perform : List Text → Option (List Command)
  | [] => some []
  | segment :: rest => ((received segment).bind decode).bind fun command =>
    match command with
    | .ignored => perform rest
    | .exit => some [.exit]
    | command => (perform rest).map (command :: ·)

def keywords : List Text :=
  ["CLIENT".toList, "SIGNUP".toList, "LOGIN".toList, "CALL".toList, "LOGOUT".toList, "EXIT".toList]

/-- No keyword is anywhere in the stream, and no message fills its frame. -/
structure Silent (texts : List Text) : Prop where
  noKeyword : ∀ keyword ∈ keywords, ¬keyword <:+: stream texts
  terminated : ∀ text ∈ texts, text.length < socketBufferSize

def singles (bytes : Text) : List Text := bytes.map ([·])

section Performing
variable {segment : Text} {segments rest texts : List Text} {bytes text : Text}

/-- A string that starts with no keyword is ignored. -/
theorem decode_ignored (none : ∀ keyword ∈ keywords, ¬keyword <+: text) : decode text = some .ignored := by
  have fails (keyword : Text) (member : keyword ∈ keywords) : hasKeyword keyword text = false := by
    rw [hasKeyword, Bool.eq_false_iff]
    exact fun found => none keyword member (List.isPrefixOf_iff_prefix.mp found)
  simp only [decode, fails _ (show "CLIENT".toList ∈ keywords by simp [keywords]),
    fails _ (show "SIGNUP".toList ∈ keywords by simp [keywords]),
    fails _ (show "LOGIN".toList ∈ keywords by simp [keywords]),
    fails _ (show "CALL".toList ∈ keywords by simp [keywords]),
    fails _ (show "LOGOUT".toList ∈ keywords by simp [keywords]),
    fails _ (show "EXIT".toList ∈ keywords by simp [keywords]), Bool.false_eq_true, if_false]

/-- A keyword on its own is not ignored. -/
theorem decode_keyword {keyword : Text} (member : keyword ∈ keywords) :
    (received keyword).bind decode ≠ some .ignored := by
  revert keyword
  decide +kernel

theorem perform_ignored (ignored : (received segment).bind decode = some .ignored) :
    perform (segment :: rest) = perform rest := by
  rw [perform, ignored]
  rfl

theorem perform_all_ignored (ignored : ∀ segment ∈ segments, (received segment).bind decode = some .ignored) :
    perform (segments ++ rest) = perform rest := by
  induction segments with
  | nil => rfl
  | cons segment segments ih =>
    rw [List.cons_append, perform_ignored (ignored segment List.mem_cons_self)]
    exact ih fun other member => ignored other (List.mem_cons_of_mem _ member)

/-- Whatever is not ignored, or undefined, shows. -/
theorem perform_shows (shown : (received segment).bind decode ≠ some .ignored) :
    perform (segment :: rest) ≠ some [] := by
  rw [perform]
  cases read : (received segment).bind decode with
  | none => simp
  | some command =>
    cases command with
    | ignored => exact absurd read shown
    | client | signup | login | call | logout => simp
    | exit => simp

theorem single_ignored {c : Char} : (received [c]).bind decode = some .ignored := by
  have size : (ofBuffer [c]).length ≤ 1 := (ofBuffer_starts [c]).length_le
  have fits : [c].length ≤ socketBufferSize ∧ (ofBuffer [c]).length < socketBufferSize := by
    constructor
    · show 1 ≤ socketBufferSize
      decide
    · exact lt_of_le_of_lt size (by decide)
  rw [received, if_pos fits]
  refine decode_ignored fun keyword member starts => ?_
  have long : ∀ keyword ∈ keywords, 1 < keyword.length := by decide
  exact absurd (starts.length_le.trans size) (Nat.not_le.mpr (long keyword member))

theorem singles_ignored : ∀ segment ∈ singles bytes, (received segment).bind decode = some .ignored := by
  intro segment member
  obtain ⟨c, _, rfl⟩ := List.mem_map.mp member
  exact single_ignored

theorem flatten_singles : (singles bytes).flatten = bytes := by
  simp [singles, ← List.flatMap_def]

theorem singles_segmented : Segmented bytes (singles bytes) where
  joined := flatten_singles
  filled segment member := by
    obtain ⟨c, _, rfl⟩ := List.mem_map.mp member
    simp
  fits segment member := by
    obtain ⟨c, _, rfl⟩ := List.mem_map.mp member
    show 1 ≤ socketBufferSize
    decide

/-- One segment of several bytes, and all other bytes one at a time. -/
theorem around_segmented {before after : Text} (filled : segment ≠ [])
    (fits : segment.length ≤ socketBufferSize) :
    Segmented (before ++ segment ++ after) (singles before ++ segment :: singles after) where
  joined := by simp [flatten_singles]
  filled other member := by
    rcases List.mem_append.mp member with early | late
    · exact singles_segmented.filled other early
    · rcases List.mem_cons.mp late with rfl | later
      · exact filled
      · exact singles_segmented.filled other later
  fits other member := by
    rcases List.mem_append.mp member with early | late
    · exact singles_segmented.fits other early
    · rcases List.mem_cons.mp late with rfl | later
      · exact fits
      · exact singles_segmented.fits other later

/-- Byte by byte nothing is carried out, so nothing else may be either. -/
theorem ignored_of_same (same : ∀ a b, Segmented bytes a → Segmented bytes b → perform a = perform b)
    (inside : segment <:+: bytes) (filled : segment ≠ []) (fits : segment.length ≤ socketBufferSize) :
    (received segment).bind decode = some .ignored := by
  obtain ⟨before, after, rfl⟩ := inside
  by_contra shown
  have equal := same _ _ (around_segmented filled fits) singles_segmented
  rw [perform_all_ignored singles_ignored, ← List.append_nil (singles (before ++ segment ++ after)),
    perform_all_ignored singles_ignored] at equal
  exact perform_shows shown equal

/-- A word without NULs is on one side of a NUL. -/
theorem infix_of_free {word before after : Text} (free : nul ∉ word)
    (inside : word <:+: before ++ nul :: after) : word <:+: before ∨ word <:+: after := by
  obtain ⟨left, right, equal⟩ := inside
  rw [List.append_assoc, List.append_eq_append_iff] at equal
  rcases equal with ⟨middle, rfl, split⟩ | ⟨middle, rfl, split⟩
  · rcases List.append_eq_append_iff.mp split with ⟨more, rfl, _⟩ | ⟨more, rfl, tail⟩
    · exact Or.inl ⟨left, more, by simp⟩
    · cases more with
      | nil => exact Or.inl ⟨left, [], by simp⟩
      | cons c more =>
        obtain ⟨rfl, _⟩ := List.cons_eq_cons.mp tail
        simp at free
  · cases middle with
    | nil =>
      cases word with
      | nil => exact Or.inl (List.nil_infix)
      | cons c word =>
        obtain ⟨rfl, _⟩ := List.cons_eq_cons.mp split
        simp at free
    | cons c middle =>
      obtain ⟨_, rest⟩ := List.cons_eq_cons.mp split
      exact Or.inr ⟨middle, right, by simp [rest]⟩

/-- The stream of messages that leave room for a NUL has one in every full buffer. -/
theorem free_short {word : Text} (terminated : ∀ text ∈ texts, text.length < socketBufferSize)
    (free : nul ∉ word) (inside : word <:+: stream texts) : word.length < socketBufferSize := by
  induction texts with
  | nil =>
    rw [List.infix_nil.mp inside]
    decide
  | cons text texts ih =>
    have room := terminated text List.mem_cons_self
    have last : padded socketBufferSize text =
        text ++ List.replicate (socketBufferSize - text.length - 1) nul ++ [nul] := by
      rw [padded, List.append_assoc, ← List.replicate_succ']
      congr 2
      omega
    rw [stream, List.flatMap_cons, last, List.append_assoc] at inside
    rcases infix_of_free free inside with here | later
    · refine lt_of_le_of_lt here.length_le ?_
      simp only [List.length_append, List.length_replicate]
      omega
    · exact ih (fun other member => terminated other (List.mem_cons_of_mem _ member)) later

/-- The server carries out the same commands however the stream is cut up exactly if there is no
keyword in it, in which case it carries out none, and no message fills its frame. -/
theorem segmentation_iff (fit : ∀ text ∈ texts, nul ∉ text ∧ text.length ≤ socketBufferSize) :
    (∀ a b, Segmented (stream texts) a → Segmented (stream texts) b → perform a = perform b) ↔
      Silent texts := by
  constructor
  · intro same
    constructor
    · intro keyword member inside
      have filled : ∀ keyword ∈ keywords, keyword ≠ [] ∧ keyword.length ≤ socketBufferSize := by decide
      exact decode_keyword member (ignored_of_same same inside (filled keyword member).1 (filled keyword member).2)
    · intro text member
      by_contra full
      have size : text.length = socketBufferSize := by have := (fit text member).2; omega
      have frame : padded socketBufferSize text = text := by simp [padded, size]
      have inside : text <:+: stream texts := by
        obtain ⟨before, after, rfl⟩ := List.append_of_mem member
        exact ⟨stream before, stream after, by simp [stream, frame]⟩
      have filled : text ≠ [] := by
        rintro rfl
        exact absurd size (by decide)
      have ignored := ignored_of_same same inside filled size.le
      rw [received, ofBuffer_of_free (fit text member).1, if_neg (fun both => full both.2)] at ignored
      simp at ignored
  · intro silent
    have nothing (a : List Text) (cut : Segmented (stream texts) a) : perform a = some [] := by
      rw [← List.append_nil a, perform_all_ignored]
      · rfl
      intro segment member
      have inside : segment <:+: stream texts := cut.joined ▸ List.infix_of_mem_flatten member
      have string := (ofBuffer_starts segment).isInfix.trans inside
      have short := free_short silent.terminated (nul_notMem_ofBuffer segment) string
      rw [received, if_pos ⟨cut.fits segment member, short⟩]
      exact decode_ignored fun keyword known starts =>
        silent.noKeyword keyword known (starts.isInfix.trans string)
    intro a b cut cut'
    rw [nothing a cut, nothing b cut']

end Performing

/-- A message that is ignored, however it is cut. -/
theorem ping_same : Silent ["PING".toList] ∧ ∀ a b, Segmented (stream ["PING".toList]) a →
    Segmented (stream ["PING".toList]) b → perform a = perform b := by
  have silent : Silent ["PING".toList] := by
    refine ⟨by decide +kernel, ?_⟩
    simp only [List.forall_mem_cons, List.not_mem_nil, false_implies, implies_true, and_true]
    decide
  refine ⟨silent, (segmentation_iff ?_).mpr silent⟩
  simp only [List.forall_mem_cons, List.not_mem_nil, false_implies, implies_true, and_true]
  decide

/-- A SIGNUP that comes in one piece, and one that is cut in the middle of the name. -/
theorem cut_signup_differs : ¬∀ a b, Segmented (stream ["SIGNUP bob pw".toList]) a →
    Segmented (stream ["SIGNUP bob pw".toList]) b → perform a = perform b := by
  intro same
  have whole : Segmented (stream ["SIGNUP bob pw".toList]) [clientFrame "SIGNUP bob pw"] :=
    ⟨by decide +kernel, by decide +kernel, by decide +kernel⟩
  have cut : Segmented (stream ["SIGNUP bob pw".toList])
      ["SIGNUP bo".toList, padded (socketBufferSize - 9) "b pw".toList] :=
    ⟨by decide +kernel, by decide +kernel, by decide +kernel⟩
  have signed : perform [clientFrame "SIGNUP bob pw"] = some [.signup "bob".toList "pw".toList] := by
    decide +kernel
  have other : perform ["SIGNUP bo".toList, padded (socketBufferSize - 9) "b pw".toList] =
      some [.signup "bo".toList []] := by
    decide +kernel
  have equal := same _ _ whole cut
  rw [signed, other] at equal
  exact absurd equal (by decide)

/-- What the frame of a message amounts to. -/
def meant (texts : List Text) : Option (List Command) := perform (texts.map (padded socketBufferSize))

/-- The pieces of one frame, cut in the zeros after its text: the text and some of the zeros, and
then the other zeros. -/
def cutInPadding (text : Text) (first : Nat) (rest : List Nat) : List Text :=
  padded first text :: rest.map (List.replicate · nul)

theorem zeros_ignored {n : Nat} (fits : n ≤ socketBufferSize) :
    (received (List.replicate n nul)).bind decode = some .ignored := by
  rw [received, ofBuffer_zeros, if_pos ⟨by simpa using fits, by decide⟩]
  rfl

theorem perform_cons_congr {segment : Text} {rest rest' : List Text} (same : perform rest = perform rest') :
    perform (segment :: rest) = perform (segment :: rest') := by
  rw [perform, perform, same]

theorem perform_cutInPadding {text : Text} {first : Nat} {sizes : List Nat} {rest : List Text}
    (inside : text.length ≤ first) (fits : first ≤ socketBufferSize)
    (small : ∀ n ∈ sizes, n ≤ socketBufferSize) :
    perform (cutInPadding text first sizes ++ rest) = perform (padded socketBufferSize text :: rest) := by
  have skip : perform (sizes.map (List.replicate · nul) ++ rest) = perform rest := by
    refine perform_all_ignored fun segment member => ?_
    obtain ⟨n, known, rfl⟩ := List.mem_map.mp member
    exact zeros_ignored (small n known)
  have read : received (padded first text) = received (padded socketBufferSize text) := by
    simp only [received, ofBuffer_padded, length_padded inside, length_padded (inside.trans fits), fits,
      le_refl]
  rw [cutInPadding, List.cons_append, perform, perform, read, skip]

/-- Cuts at the ends of the frames and in their padding do no harm. -/
theorem perform_cuts {cuts : List (Text × Nat × List Nat)}
    (fit : ∀ cut ∈ cuts, cut.1.length ≤ cut.2.1 ∧ cut.2.1 ≤ socketBufferSize ∧
      ∀ n ∈ cut.2.2, n ≤ socketBufferSize) :
    perform (cuts.flatMap fun cut => cutInPadding cut.1 cut.2.1 cut.2.2) = meant (cuts.map Prod.fst) := by
  induction cuts with
  | nil => rfl
  | cons cut cuts ih =>
    obtain ⟨inside, fits, small⟩ := fit cut List.mem_cons_self
    rw [List.flatMap_cons, perform_cutInPadding inside fits small]
    exact perform_cons_congr (ih fun other member => fit other (List.mem_cons_of_mem _ member))

/-- A SIGNUP and an EXIT, of which the first comes in three pieces. -/
def paddingCuts : List (Text × Nat × List Nat) :=
  [("SIGNUP bob pw".toList, 20, [4, 1000]), ("EXIT EXIT".toList, 1024, [])]

theorem padding_cuts_harmless : perform (paddingCuts.flatMap fun cut => cutInPadding cut.1 cut.2.1 cut.2.2) =
    meant (paddingCuts.map Prod.fst) := by
  refine perform_cuts ?_
  simp only [paddingCuts, List.forall_mem_cons, List.not_mem_nil, false_implies, implies_true, and_true]
  decide

/-! What a handler does in a run of the server is what its loop makes of the results of its
`recv`. -/

/-- The results of `recv` on which a session acted, the oldest first. -/
def receivedBy (i : Nat) : History → List Text
  | [] => []
  | (s, e) :: past =>
    match e, s.dispatched e with
    | .thread j (.recv bytes), some _ => if j = i then receivedBy i past ++ [bytes] else receivedBy i past
    | _, _ => receivedBy i past

/-- The commands that a session's handler took, the oldest first. -/
def carriedOut (i : Nat) : History → List Command
  | [] => []
  | (s, e) :: past =>
    match s.dispatched e with
    | some (j, _, command) =>
      if j = i ∧ command ≠ .ignored then carriedOut i past ++ [command] else carriedOut i past
    | none => carriedOut i past

/-- The handler has taken EXIT, or leaves its loop for another reason. -/
def Phase.leaving : Phase → Bool
  | .exiting | .notifying | .closing | .closed | .returned => true
  | _ => false

theorem Handler.Moved.leaving {i : Nat} {h h' : Handler} {w w' : Shared} {a : Action}
    (moved : h.Moved i w a h' w') (left : h.phase.leaving = true) : h'.phase.leaving = true := by
  cases moved with
  | stop atPhase | hangup atPhase | client atPhase | signup atPhase | login atPhase | call atPhase
  | refuse atPhase | logout atPhase | exit atPhase | ignored atPhase | socket atPhase | socketFails atPhase
  | connect atPhase | connectFails atPhase | greet atPhase | reply atPhase | hasUser atPhase
  | hasNoUser atPhase | getUser atPhase | noUser atPhase | invite atPhase | accepted atPhase
  | declined atPhase | forward atPhase => simp [atPhase, Phase.leaving] at left
  | exitReply | exitReplyFails | exitNotice | close | finish | closeAgain => rfl

section Runs
variable {segments more : List Text} {commands : List Command} {past : History} {s t : Server} {i : Nat}

theorem perform_append (goesOn : Command.exit ∉ commands) (before : perform segments = some commands) :
    perform (segments ++ more) = (perform more).map (commands ++ ·) := by
  induction segments generalizing commands with
  | nil =>
    cases Option.some.inj before
    simp
  | cons segment segments ih =>
    rw [perform] at before
    rw [List.cons_append, perform]
    obtain ⟨command, read, rest⟩ := Option.bind_eq_some_iff.mp before
    rw [read, Option.bind_some]
    cases command with
    | ignored => exact ih goesOn rest
    | exit =>
      cases Option.some.inj rest
      simp at goesOn
    | client | signup | login | call | logout =>
      obtain ⟨later, done, rfl⟩ := Option.map_eq_some_iff.mp rest
      rw [ih (fun member => goesOn (List.mem_cons_of_mem _ member)) done]
      cases perform more <;> rfl

theorem perform_one {segment : Text} {command : Command} (read : (received segment).bind decode = some command) :
    perform [segment] = some (if command ≠ .ignored then [command] else []) := by
  rw [perform, read]
  cases command <;> rfl

theorem received_dispatched {bytes : Text} {h : Handler} {command : Command}
    (taken : s.dispatched (.thread i (.recv bytes)) = some (i, h, command)) :
    (received bytes).bind decode = some command := by
  obtain ⟨a, same, _, heard⟩ := Server.dispatched_iff.mp taken
  cases same
  rw [Handler.hears] at heard
  split_ifs at heard
  exact heard

/-- A step adds to what a session has received only when its handler takes a command. -/
theorem received_cons (i : Nat) (past : History) (s : Server) (e : Event) :
    (receivedBy i ((s, e) :: past) = receivedBy i past ∧
      carriedOut i ((s, e) :: past) = carriedOut i past) ∨
    ∃ bytes h command, e = .thread i (.recv bytes) ∧ s.dispatched e = some (i, h, command) ∧
      receivedBy i ((s, e) :: past) = receivedBy i past ++ [bytes] ∧
      carriedOut i ((s, e) :: past) =
        carriedOut i past ++ (if command ≠ .ignored then [command] else []) := by
  cases taken : s.dispatched e with
  | none => exact Or.inl ⟨by simp [receivedBy, taken], by simp [carriedOut, taken]⟩
  | some found =>
    obtain ⟨j, h, command⟩ := found
    obtain ⟨a, rfl, atThread, heard⟩ := Server.dispatched_iff.mp taken
    obtain ⟨_, bytes, rfl⟩ := Handler.hears_recv heard
    by_cases own : j = i
    · subst own
      refine Or.inr ⟨bytes, h, command, rfl, rfl, by simp [receivedBy, taken], ?_⟩
      by_cases ignored : command = .ignored <;> simp [carriedOut, taken, ignored]
    · exact Or.inl ⟨by simp [receivedBy, taken, own], by simp [carriedOut, taken, own]⟩

/-- After EXIT the handler takes no command. -/
theorem leaving_of_exit (run : ServerRun past s) (left : Command.exit ∈ carriedOut i past) :
    ∃ h, s.threads[i]? = some h ∧ h.phase.leaving = true := by
  induction run with
  | start => simp [carriedOut] at left
  | @next past s e t previous stepped ih =>
    rcases received_cons i past s e with
      ⟨_, same⟩ | ⟨bytes, h, command, rfl, taken, _, added⟩
    · obtain ⟨h, before, leaving⟩ := ih (same ▸ left)
      by_cases own : ∃ a, e = .thread i a
      · obtain ⟨a, rfl⟩ := own
        cases Server.step_moved stepped with
        | thread atThread moved =>
          cases Option.some.inj (before.symm.trans atThread)
          exact ⟨_, by rw [threads_set atThread, if_pos rfl], moved.leaving leaving⟩
      · exact ⟨h, Server.thread_kept stepped before (fun a same => own ⟨a, same⟩), leaving⟩
    · obtain ⟨a, same, atThread, heard⟩ := Server.dispatched_iff.mp taken
      cases same
      rw [added, List.mem_append] at left
      cases Server.step_moved stepped with
      | thread found moved =>
        cases Option.some.inj (atThread.symm.trans found)
        refine ⟨_, by rw [threads_set atThread, if_pos rfl], ?_⟩
        rcases left with earlier | now
        · obtain ⟨g, there, leaving⟩ := ih earlier
          cases Option.some.inj (atThread.symm.trans there)
          exact moved.leaving leaving
        · have exit : command = .exit := by
            split_ifs at now
            · exact (List.mem_singleton.mp now).symm
            · simp at now
          subst exit
          cases moved with
          | exit => rfl
          | hangup _ heard' | client _ heard' | signup _ heard' | login _ heard' | call _ heard'
          | refuse _ heard' | logout _ heard' | ignored _ heard' => simp [heard] at heard'

/-- The commands that a session's handler carries out in a run are those that its loop makes of what
it has received. -/
theorem perform_receivedBy (run : ServerRun past s) (i : Nat) :
    perform (receivedBy i past) = some (carriedOut i past) := by
  induction run with
  | start => rfl
  | @next past s e t previous stepped ih =>
    rcases received_cons i past s e with
      ⟨same, same'⟩ | ⟨bytes, h, command, rfl, taken, added, added'⟩
    · rw [same, same', ih]
    · have goesOn : Command.exit ∉ carriedOut i past := by
        intro left
        obtain ⟨g, there, leaving⟩ := leaving_of_exit previous left
        obtain ⟨a, same, atThread, heard⟩ := Server.dispatched_iff.mp taken
        cases Option.some.inj (atThread.symm.trans there)
        simp [(Handler.hears_recv heard).1, Phase.leaving] at leaving
      rw [added, added', perform_append goesOn ih, perform_one (received_dispatched taken)]
      rfl

end Runs

/-- A session with a message between two commands that is none. -/
def pingBetween : List Event :=
  .accept true :: session 0 (sends "SIGNUP bob pw" ++ [.recv (clientFrame "PING")] ++ sends "LOGIN bob pw")

theorem ping_between_carried_out : ∃ past s, execute Server.step [] Server.initial pingBetween = some (past, s) ∧
    (receivedBy 0 past).length = 3 ∧ (carriedOut 0 past).length = 2 ∧
      perform (receivedBy 0 past) = some (carriedOut 0 past) := by
  have ran : (execute Server.step [] Server.initial pingBetween).any (fun r =>
      decide ((receivedBy 0 r.1).length = 3 ∧ (carriedOut 0 r.1).length = 2)) = true := by
    decide +kernel
  obtain ⟨past, s, done, checked⟩ := execute_check _ ran
  obtain ⟨three, two⟩ := of_decide_eq_true checked
  exact ⟨past, s, done, three, two, perform_receivedBy (execute_trail done) 0⟩

end Signaling
