import Signaling.Frames

namespace Signaling
open Machine CText

/-- What `cin >>` puts into a string, where it fits the arrays that the server scans it into. -/
structure Word where
  text : Text
  filled : text ≠ []
  plain : ∀ c ∈ text, isSpace c = false
  short : text.length < fieldSize
  deriving DecidableEq, Repr

def bob : Word := ⟨"bob".toList, by decide, by simp [isSpace], by decide⟩

def pw : Word := ⟨"pw".toList, by decide, by simp [isSpace], by decide⟩

/-- The string typed, empty where nothing has been typed. -/
def typed (word : Option Word) : Text := (word.map Word.text).getD []

/-- Where `main` and `open_menu` wait. `signing` and `loggingOut` are the `recv` calls of
`sign_up_login_user` and `logout_user`, `leaving` that of `exit_user`; `loggingOut true` is the call
of `logout_user` from `exit_user`, which goes on in `exiting`. -/
inductive ClientPhase
  | starting
  | menu
  | signing (signUp : Bool)
  | loggingOut (fromExit : Bool)
  | exiting
  | leaving
  | left
  | closed
  deriving DecidableEq, Repr

/-- The globals of `client.cpp` that the menu reads and writes. -/
structure Client where
  username : Option Word := none
  password : Option Word := none
  serverDisconnected : Bool := false
  running : Bool := true
  exitSelected : Bool := false
  localSdp : Text := []
  isLogin : Bool := false
  phase : ClientPhase := .starting
  deriving DecidableEq, Repr

/-- An `option` with what is typed after it; `other` is any number that is not on the menu. -/
inductive Choice
  | signUpLogin (signUp : Bool) (username password : Word)
  | call (peerUsername : Word)
  | logout
  | exit
  | other
  deriving DecidableEq, Repr

/-- The message of a `strncpy` of the whole string into a zeroed array; `none` where it overruns it. -/
def copied (text : Text) : Option Text :=
  if (ofBuffer text).length ≤ socketBufferSize then some (padded socketBufferSize (ofBuffer text)) else none

/-- The message of a `sprintf` into a zeroed array; `none` where the terminator is past its end. -/
def printed (text : Text) : Option Text :=
  if text.length < socketBufferSize then some (padded socketBufferSize text) else none

def registerRequest (signUp : Bool) (username password : Text) : Text :=
  (if signUp then "SIGNUP" else "LOGIN").toList ++ ' ' :: username ++ ' ' :: password

namespace Client

def goto (c : Client) (phase : ClientPhase) : Client := { c with phase := phase }

/-- `sign_up_login_user` up to its `recv`, with the message it sends. -/
def signUpLoginUser (c : Client) (signUp : Bool) (username password : Word) : Option (Client × Text) :=
  (copied (registerRequest signUp username.text password.text)).map fun message =>
    ({ c with username := some username, password := some password, phase := .signing signUp }, message)

/-- `logout_user` up to its `recv`. -/
def logoutUser (c : Client) (fromExit : Bool) : Option (Client × Text) :=
  (copied ("LOGOUT ".toList ++ typed c.username)).map fun message => (c.goto (.loggingOut fromExit), message)

/-- `exit_user` after its `logout_user`, up to its `recv`. -/
def sendExit (c : Client) : Option (Client × Text) :=
  (copied "EXIT EXIT".toList).map fun message => (c.goto .leaving, message)

def exitUser (c : Client) : Option (Client × Text) :=
  if c.username.isSome then c.logoutUser true else c.sendExit

def callPeer (c : Client) (peerUsername : Word) : Option (Client × Text) :=
  (printed ("CALL ".toList ++ ofBuffer peerUsername.text ++ ' ' :: ofBuffer c.localSdp)).map (c, ·)

def sendIpAndPort (c : Client) (address : Text) (port : Int) : Option (Client × Text) :=
  (printed ("CLIENT ".toList ++ address ++ ' ' :: (toString port).toList)).map (c.goto .menu, ·)

/-- A choice of a call is one that places it. -/
def placesCall (c : Client) : Bool := c.running && !c.serverDisconnected && c.isLogin

/-- One turn of `open_menu` up to where it waits again, with the message it sends if it sends one. A
`send` that fails returns from its function like a `recv` that fails. -/
def openMenu (c : Client) (choice : Choice) : Option (Client × Option Text) :=
  if !c.running || c.serverDisconnected then some (c.goto .left, none)
  else match choice with
    | .signUpLogin signUp username password =>
      (c.signUpLoginUser signUp username password).map (Prod.map id some)
    | .call peerUsername =>
      if c.isLogin then (c.callPeer peerUsername).map (Prod.map id some) else some (c, none)
    | .logout => (c.logoutUser false).map (Prod.map id some)
    | .exit => c.exitUser.map (Prod.map id some)
    | .other => some (c, none)

/-- Back from a function of the menu. -/
def back (c : Client) : Client := c.goto (if c.serverDisconnected then .left else .menu)

/-- What follows the `recv` the client waits in, up to where it waits again. The reply is `none` where
`recv` failed. -/
def receive (c : Client) (reply : Option Text) : Option Client :=
  let lost := c.serverDisconnected || reply = some []
  match c.phase, reply with
  | .signing _, some _ =>
    some { c with serverDisconnected := lost, exitSelected := false, isLogin := true }.back
  | .signing _, none => some c.back
  | .loggingOut fromExit, some _ =>
    let c := { c with serverDisconnected := lost, isLogin := false }
    some (if fromExit then c.goto .exiting else c.back)
  | .loggingOut fromExit, none => some (if fromExit then c.goto .exiting else c.back)
  | .leaving, some _ =>
    -- the client sends itself SIGINT unless the connection was lost
    some { c with serverDisconnected := lost, exitSelected := true, running := c.running && lost, phase := .left }
  | .leaving, none => some { c with running := c.running && c.serverDisconnected, phase := .left }
  | _, _ => none

end Client

/-- What the client does on its own between two waits. -/
inductive ClientAction
  | start (address : Text) (port : Int)
  | choose (choice : Choice)
  | exit
  | close
  | interrupt
  deriving DecidableEq, Repr

/-- `main` of `client.cpp` between two waits, with the message it sends if it sends one. -/
def Client.act (c : Client) : ClientAction → Option (Client × Option Text)
  | .start address port =>
    if c.phase = .starting then (c.sendIpAndPort address port).map (Prod.map id some) else none
  | .choose choice => if c.phase = .menu then c.openMenu choice else none
  | .exit => if c.phase = .exiting then c.sendExit.map (Prod.map id some) else none
  | .close => if c.phase = .left then some (c.goto .closed, none) else none
  | .interrupt => some ({ c with running := false }, none)

/-- The ways of `Client.act`, each with the message sent. -/
inductive Client.Acted (c : Client) : ClientAction → Client → Option Text → Prop
  | start {address port request} : c.phase = .starting →
      printed ("CLIENT ".toList ++ (address ++ ' ' :: (toString port).toList)) = some request →
      Acted c (.start address port) (c.goto .menu) (some request)
  | leave {choice} : c.phase = .menu → Acted c (.choose choice) (c.goto .left) none
  | signUpLogin {signUp username password request} : c.phase = .menu → c.serverDisconnected = false →
      copied (registerRequest signUp username.text password.text) = some request →
      Acted c (.choose (.signUpLogin signUp username password))
        { c with username := some username, password := some password, phase := .signing signUp } (some request)
  | call {peerUsername request} : c.phase = .menu → c.placesCall = true →
      printed ("CALL ".toList ++ (ofBuffer peerUsername.text ++ ' ' :: ofBuffer c.localSdp)) = some request →
      Acted c (.choose (.call peerUsername)) c (some request)
  | stay {choice} : c.phase = .menu → Acted c (.choose choice) c none
  | logout {choice fromExit request} : c.phase = .menu →
      copied ("LOGOUT ".toList ++ typed c.username) = some request →
      Acted c (.choose choice) (c.goto (.loggingOut fromExit)) (some request)
  | sendExit {a request} : c.phase = .menu ∧ a = .choose .exit ∨ c.phase = .exiting ∧ a = .exit →
      copied "EXIT EXIT".toList = some request → Acted c a (c.goto .leaving) (some request)
  | close : c.phase = .left → Acted c .close (c.goto .closed) none
  | interrupt : Acted c .interrupt { c with running := false } none

theorem sent_of_map {result : Option (Client × Text)} {c' : Client} {message : Option Text}
    (found : result.map (Prod.map id some) = some (c', message)) :
    ∃ request, message = some request ∧ result = some (c', request) := by
  obtain ⟨⟨c, request⟩, sent, same⟩ := Option.map_eq_some_iff.mp found
  cases same
  exact ⟨request, rfl, sent⟩

theorem Client.logoutUser_acted {c c' : Client} {choice : Choice} {fromExit : Bool} {request : Text}
    (atMenu : c.phase = .menu) (done : c.logoutUser fromExit = some (c', request)) :
    c.Acted (.choose choice) c' (some request) := by
  obtain ⟨_, sent, same⟩ := Option.map_eq_some_iff.mp done
  cases same
  exact .logout atMenu sent

theorem Client.sendExit_acted {c c' : Client} {a : ClientAction} {request : Text}
    (way : c.phase = .menu ∧ a = .choose .exit ∨ c.phase = .exiting ∧ a = .exit)
    (done : c.sendExit = some (c', request)) : c.Acted a c' (some request) := by
  obtain ⟨_, sent, same⟩ := Option.map_eq_some_iff.mp done
  cases same
  exact .sendExit way sent

theorem Client.openMenu_acted {c c' : Client} {choice : Choice} {message : Option Text} (atMenu : c.phase = .menu)
    (done : c.openMenu choice = some (c', message)) : c.Acted (.choose choice) c' message := by
  unfold openMenu at done
  by_cases gone : (!c.running || c.serverDisconnected) = true
  · rw [if_pos gone] at done
    cases Option.some.inj done
    exact .leave atMenu
  · rw [if_neg gone] at done
    have connected : c.serverDisconnected = false := by simp_all
    cases choice with
    | signUpLogin signUp username password =>
      obtain ⟨request, rfl, whole⟩ := sent_of_map done
      obtain ⟨_, sent, same⟩ := Option.map_eq_some_iff.mp whole
      cases same
      exact .signUpLogin atMenu connected sent
    | call peerUsername =>
      dsimp only at done
      split_ifs at done with login
      · obtain ⟨request, rfl, whole⟩ := sent_of_map done
        obtain ⟨_, sent, same⟩ := Option.map_eq_some_iff.mp whole
        cases same
        rw [List.append_assoc] at sent
        exact .call atMenu (by simp_all [placesCall]) sent
      · cases Option.some.inj done
        exact .stay atMenu
    | logout =>
      obtain ⟨request, rfl, whole⟩ := sent_of_map done
      exact logoutUser_acted atMenu whole
    | exit =>
      obtain ⟨request, rfl, whole⟩ := sent_of_map done
      unfold exitUser at whole
      split_ifs at whole
      · exact logoutUser_acted atMenu whole
      · exact sendExit_acted (Or.inl ⟨atMenu, rfl⟩) whole
    | other =>
      cases Option.some.inj done
      exact .stay atMenu

/-- The ways of `receive`. -/
inductive Client.Received (c : Client) : Option Text → Client → Prop
  | signed {signUp reply} : c.phase = .signing signUp → Received c (some reply) { c with
      serverDisconnected := c.serverDisconnected || some reply = some [], exitSelected := false, isLogin := true }.back
  | signingFails {signUp} : c.phase = .signing signUp → Received c none c.back
  | loggedOut {fromExit reply} (next : Client) : c.phase = .loggingOut fromExit →
      next = { c with serverDisconnected := c.serverDisconnected || some reply = some [], isLogin := false } →
      Received c (some reply) (if fromExit then next.goto .exiting else next.back)
  | logoutFails {fromExit} : c.phase = .loggingOut fromExit →
      Received c none (if fromExit then c.goto .exiting else c.back)
  | leave {reply} : c.phase = .leaving → Received c (some reply) { c with
      serverDisconnected := c.serverDisconnected || some reply = some [], exitSelected := true,
      running := c.running && (c.serverDisconnected || some reply = some []), phase := .left }
  | leavingFails : c.phase = .leaving → Received c none { c with
      running := c.running && c.serverDisconnected, phase := .left }

theorem Client.receive_received {c c' : Client} {reply : Option Text} (read : c.receive reply = some c') :
    c.Received reply c' := by
  unfold receive at read
  split at read
  · rename_i atPhase
    cases Option.some.inj read
    exact .signed atPhase
  · rename_i atPhase
    cases Option.some.inj read
    exact .signingFails atPhase
  · rename_i atPhase
    cases Option.some.inj read
    exact .loggedOut _ atPhase rfl
  · rename_i atPhase
    cases Option.some.inj read
    exact .logoutFails atPhase
  · rename_i atPhase
    cases Option.some.inj read
    exact .leave atPhase
  · rename_i atPhase
    cases Option.some.inj read
    exact .leavingFails atPhase
  · simp at read

theorem Client.act_acted {c c' : Client} {a : ClientAction} {message : Option Text}
    (done : c.act a = some (c', message)) : c.Acted a c' message := by
  cases a with
  | start address port =>
    simp only [act] at done
    split_ifs at done with atPhase
    obtain ⟨request, rfl, whole⟩ := sent_of_map done
    obtain ⟨_, sent, same⟩ := Option.map_eq_some_iff.mp whole
    cases same
    rw [List.append_assoc] at sent
    exact .start atPhase sent
  | choose choice =>
    simp only [act] at done
    split_ifs at done with atPhase
    exact openMenu_acted atPhase done
  | exit =>
    simp only [act] at done
    split_ifs at done with atPhase
    obtain ⟨request, rfl, whole⟩ := sent_of_map done
    exact sendExit_acted (Or.inr ⟨atPhase, rfl⟩) whole
  | close =>
    simp only [act] at done
    split_ifs at done with atPhase
    cases Option.some.inj done
    exact .close atPhase
  | interrupt =>
    cases Option.some.inj done
    exact .interrupt

/-- What the branch of a command writes to the connection that the command came by. -/
def Command.reply : Command → Option Outgoing
  | .signup .. => some .signupReply
  | .login .. => some .loginReply
  | .logout => some .logoutReply
  | .exit => some .exitReply
  | .client .. | .call .. | .ignored => none

def commandOf (message : Text) : Option Command := (received message).bind decode

def replyTo (message : Text) : Option Outgoing := (commandOf message).bind Command.reply

/-- The fields that the server scans out of a register request: a NUL in the name hides the password. -/
def credentials (username password : Text) : Text × Text :=
  (ofBuffer username, if nul ∈ username then [] else ofBuffer password)

section Messages
variable {message text word rest : Text} {username password : Word} {signUp : Bool}

theorem commandOf_padded (free : nul ∉ text) (short : text.length < socketBufferSize) :
    commandOf (padded socketBufferSize text) = decode text := by
  have read : received (padded socketBufferSize text) = some text := by
    rw [received, ofBuffer_padded, ofBuffer_of_free free, length_padded short.le, if_pos ⟨le_rfl, short⟩]
  rw [commandOf, read, Option.bind_some]

theorem commandOf_copied (sent : copied text = some message) (short : text.length < socketBufferSize) :
    commandOf message = decode (ofBuffer text) := by
  rw [copied] at sent
  split_ifs at sent
  cases Option.some.inj sent
  exact commandOf_padded (nul_notMem_ofBuffer text) ((ofBuffer_starts text).length_le.trans_lt short)

theorem commandOf_printed (sent : printed text = some message) : commandOf message = decode (ofBuffer text) := by
  rw [printed] at sent
  split_ifs at sent with short
  cases Option.some.inj sent
  have read : received (padded socketBufferSize text) = some (ofBuffer text) := by
    rw [received, ofBuffer_padded, length_padded short.le,
      if_pos ⟨le_rfl, (ofBuffer_starts text).length_le.trans_lt short⟩]
  rw [commandOf, read, Option.bind_some]

/-- Every message fills the array it is sent from. -/
theorem length_copied (sent : copied text = some message) : message.length = socketBufferSize := by
  rw [copied] at sent
  split_ifs at sent with fits
  cases Option.some.inj sent
  exact length_padded fits

theorem length_printed (sent : printed text = some message) : message.length = socketBufferSize := by
  rw [printed] at sent
  split_ifs at sent with short
  cases Option.some.inj sent
  exact length_padded short.le

/-- A word and a blank or nothing after it. -/
theorem scanWord_word (filled : word ≠ []) (plain : ∀ c ∈ word, isSpace c = false)
    (ends : rest = [] ∨ ∃ more, rest = ' ' :: more) : scanWord (' ' :: (word ++ rest)) = some (word, rest) := by
  refine scanWord_eq_some.mpr ⟨filled, plain, fun c first => ?_, [' '], by simp [isSpace], rfl⟩
  rcases ends with rfl | ⟨more, rfl⟩
  · simp at first
  · cases Option.some.inj first
    rfl

theorem ofBuffer_blank : ofBuffer (' ' :: text) = ' ' :: ofBuffer text := rfl

theorem scanCredentials_register (username password : Word) :
    scanCredentials (ofBuffer (' ' :: username.text ++ ' ' :: password.text)) =
    some (credentials username.text password.text) := by
  have input : ofBuffer (' ' :: username.text ++ ' ' :: password.text) = ' ' :: (ofBuffer username.text ++
      if nul ∈ username.text then [] else ' ' :: ofBuffer password.text) := by
    rw [List.cons_append, ofBuffer_blank, ofBuffer_append, ofBuffer_blank]
  have plain : ∀ (word : Word), ∀ c ∈ ofBuffer word.text, isSpace c = false :=
    fun word c member => word.plain c ((ofBuffer_starts _).subset member)
  have short : ∀ (word : Word), ¬fieldSize ≤ (ofBuffer word.text).length :=
    fun word => Nat.not_le.mpr ((ofBuffer_starts _).length_le.trans_lt word.short)
  rw [input, scanCredentials, credentials]
  by_cases empty : ofBuffer username.text = []
  · have inside : nul ∈ username.text := by
      by_contra free
      exact username.filled ((ofBuffer_of_free free).symm.trans empty)
    rw [empty, if_pos inside, if_pos inside]
    rfl
  split_ifs with inside
  · rw [scanWord_word empty (plain username) (Or.inl rfl)]
    simp only [short username, if_false]
    rfl
  · rw [scanWord_word empty (plain username) (Or.inr ⟨_, rfl⟩)]
    simp only [short username, if_false]
    by_cases none : ofBuffer password.text = []
    · rw [none]
      rfl
    · have word := scanWord_word none (plain password) (Or.inl rfl)
      rw [List.append_nil] at word
      simp only [word, short password, if_false]

theorem decode_register (input : Text) : decode ((if signUp then "SIGNUP" else "LOGIN").toList ++ input) =
    (scanCredentials input).map fun fields =>
      if signUp then .signup fields.1 fields.2 else .login fields.1 fields.2 := by
  cases signUp <;> simp [decode, hasKeyword]

theorem decode_registerRequest : decode (ofBuffer (registerRequest signUp username.text password.text)) =
    some (if signUp then
        .signup (credentials username.text password.text).1 (credentials username.text password.text).2
      else .login (credentials username.text password.text).1 (credentials username.text password.text).2) := by
  have free : nul ∉ (if signUp then "SIGNUP" else "LOGIN").toList := by cases signUp <;> decide
  have text : ofBuffer (registerRequest signUp username.text password.text) =
      (if signUp then "SIGNUP" else "LOGIN").toList ++
        ofBuffer (' ' :: username.text ++ ' ' :: password.text) := by
    rw [registerRequest, List.append_assoc, ofBuffer_append, if_neg free, ofBuffer_of_free free]
  rw [text, decode_register, scanCredentials_register, Option.map_some]

theorem length_typed (word : Option Word) : (typed word).length < fieldSize := by
  cases word with
  | none => decide
  | some word => exact word.short

theorem commandOf_register (sent : copied (registerRequest signUp username.text password.text) = some message) :
    commandOf message = some (if signUp then
        .signup (credentials username.text password.text).1 (credentials username.text password.text).2
      else .login (credentials username.text password.text).1 (credentials username.text password.text).2) := by
  have name := username.short
  have secret := password.short
  have keyword : (if signUp then "SIGNUP" else "LOGIN").toList.length ≤ 6 := by cases signUp <;> decide
  rw [commandOf_copied sent, decode_registerRequest]
  simp only [registerRequest, List.length_append, List.length_cons, socketBufferSize, fieldSize] at *
  omega

theorem commandOf_logout {word : Option Word} (sent : copied ("LOGOUT ".toList ++ typed word) = some message) :
    commandOf message = some .logout := by
  have free : nul ∉ "LOGOUT ".toList := by decide
  have short : ("LOGOUT ".toList ++ typed word).length < socketBufferSize := by
    have name := length_typed word
    have keyword : "LOGOUT ".toList.length = 7 := by decide
    rw [List.length_append, keyword, socketBufferSize]
    rw [fieldSize] at name
    omega
  rw [commandOf_copied sent short, ofBuffer_append, if_neg free, ofBuffer_of_free free]
  simp [decode, hasKeyword]

theorem commandOf_exit (sent : copied "EXIT EXIT".toList = some message) : commandOf message = some .exit := by
  rw [commandOf_copied sent (by decide)]
  decide

/-- No branch that CALL can go through writes to the caller's own connection. -/
theorem replyTo_call (sent : printed ("CALL ".toList ++ rest) = some message) : replyTo message = none := by
  have free : nul ∉ "CALL ".toList := by decide
  have branch : decode (ofBuffer ("CALL ".toList ++ rest)) = decodeCall (ofBuffer ("CALL ".toList ++ rest)) := by
    rw [ofBuffer_append, if_neg free, ofBuffer_of_free free]
    simp [decode, hasKeyword]
  rw [replyTo, commandOf_printed sent, branch]
  simp only [decodeCall]
  split_ifs <;> rfl

theorem decodeClient_client {command : Command} (decoded : decodeClient text = some command) :
    ∃ address port, command = .client address port := by
  unfold decodeClient at decoded
  split at decoded
  · exact ⟨_, _, (Option.some.inj decoded).symm⟩
  · split_ifs at decoded
    split at decoded
    · exact ⟨_, _, (Option.some.inj decoded).symm⟩
    · split_ifs at decoded
      exact ⟨_, _, (Option.some.inj decoded).symm⟩

/-- A message that starts with CLIENT is no other command. -/
theorem commandOf_client (sent : printed ("CLIENT ".toList ++ rest) = some message) {command : Command}
    (read : commandOf message = some command) : ∃ address port, command = .client address port := by
  have free : nul ∉ "CLIENT ".toList := by decide
  have branch : decode (ofBuffer ("CLIENT ".toList ++ rest)) =
      decodeClient ((ofBuffer ("CLIENT ".toList ++ rest)).drop 6) := by
    rw [ofBuffer_append, if_neg free, ofBuffer_of_free free]
    simp [decode, hasKeyword]
  rw [commandOf_printed sent, branch] at read
  exact decodeClient_client read

theorem replyTo_client (sent : printed ("CLIENT ".toList ++ rest) = some message) : replyTo message = none := by
  rw [replyTo]
  cases read : commandOf message with
  | none => rfl
  | some command =>
    obtain ⟨_, _, rfl⟩ := commandOf_client sent read
    rfl

end Messages

end Signaling
