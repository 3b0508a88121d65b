import Mathlib.Tactic.ByContra
import Mathlib.Tactic.SplitIfs
import Signaling.Machine.CText

namespace Signaling
open Machine CText

/-- `SOCKET_BUFFER_SIZE` of `util.hpp`. -/
def socketBufferSize : Nat := 1024

/-- `char username_char[50]` and its like. -/
def fieldSize : Nat := 50

/-- `char client_ip_address[15]`. -/
def addressSize : Nat := 15

/-- The commands the branches of `client_handler` tell apart, with what they parse. A conversion
that does not happen leaves the variable as it was. -/
inductive Command
  | client (address : Option Text) (port : Option Int)
  | signup (username password : Text)
  | login (username password : Text)
  | call (receiver sdp : Text)
  | logout
  | exit
  | ignored
  deriving DecidableEq, Repr

/-- `strncmp(buffer, keyword, strlen(keyword)) == 0`. -/
def hasKeyword (keyword buffer : Text) : Bool := keyword.isPrefixOf buffer

/-- The two `%s` conversions after the keyword of SIGNUP and LOGIN, into zeroed arrays. The result
is `none` where a word overruns its array, which C leaves undefined. -/
def scanCredentials (input : Text) : Option (Text × Text) :=
  match scanWord input with
  | none => some ([], [])
  | some (username, rest) =>
    if fieldSize ≤ username.length then none
    else match scanWord rest with
      | none => some (username, [])
      | some (password, _) => if fieldSize ≤ password.length then none else some (username, password)

/-- `sscanf(buffer, "CLIENT %s %d", client_ip_address, &client_port_int)`. -/
def decodeClient (input : Text) : Option Command :=
  match scanWord input with
  | none => some (.client none none)
  | some (address, rest) =>
    if addressSize ≤ address.length then none
    else match scanInt rest with
      | none => some (.client (some address) none)
      | some port =>
        if -0x80000000 ≤ port ∧ port < 0x80000000 then some (.client (some address) (some port)) else none

/-- The CALL branch up to the store calls. With `strlen(buffer) < len` the size given to `strncpy`
wraps around and the copy runs past `first_peer_sdp`. -/
def decodeCall (buffer : Text) : Option Command :=
  let receiver := ((scanWord (buffer.drop 4)).map Prod.fst).getD []
  if fieldSize ≤ receiver.length then none
  else
    let len := 4 + 1 + receiver.length + 1
    if buffer.length < len then none
    else some (.call receiver ((buffer.drop len).take (buffer.length - len)))

/-- The branch that `client_handler` takes on the string in its buffer, in the order of its tests;
`none` is undefined behaviour. -/
def decode (buffer : Text) : Option Command :=
  if hasKeyword "CLIENT".toList buffer then decodeClient (buffer.drop 6)
  else if hasKeyword "SIGNUP".toList buffer then
    (scanCredentials (buffer.drop 6)).map (fun fields => .signup fields.1 fields.2)
  else if hasKeyword "LOGIN".toList buffer then
    (scanCredentials (buffer.drop 5)).map (fun fields => .login fields.1 fields.2)
  else if hasKeyword "CALL".toList buffer then decodeCall buffer
  else if hasKeyword "LOGOUT".toList buffer then some .logout
  else if hasKeyword "EXIT".toList buffer then some .exit
  else some .ignored

/-- The string in a zeroed buffer of `SOCKET_BUFFER_SIZE` after `recv` wrote `bytes` into it. Without
a NUL in the buffer every later use of it as a string is undefined. -/
def received (bytes : Text) : Option Text :=
  if bytes.length ≤ socketBufferSize ∧ (ofBuffer bytes).length < socketBufferSize then
    some (ofBuffer bytes)
  else none

/-- A command as clients send it: the text in a zeroed array, and all of the array. -/
def clientFrame (text : String) : Text := padded socketBufferSize text.toList

/-- What the server writes to a socket. `accept` holds the forwarded `incoming_message`, all of the
array; `invite` the two arguments of its `sprintf`. -/
inductive Outgoing
  | signupReply
  | loginReply
  | logoutReply
  | exitReply
  | hello
  | invite (receiver sdp : Text)
  | accept (incoming : Text)
  | exitNotice
  deriving DecidableEq, Repr

/-- The bytes of one `send`: `sizeof(message)` of them, which is twice the buffer size for INVITE
and five for the literal `"EXIT"`. -/
def Outgoing.frame : Outgoing → Text
  | .signupReply => padded socketBufferSize "Signup is successful\n".toList
  | .loginReply => padded socketBufferSize "Login is successful\n".toList
  | .logoutReply => padded socketBufferSize "Logout is successful\n".toList
  | .exitReply => padded socketBufferSize "Exit is succesful\n".toList
  | .hello => padded socketBufferSize "Hello from new server\n".toList
  | .invite receiver sdp =>
    padded (socketBufferSize * 2) ("INVITE ".toList ++ receiver ++ [' '] ++ sdp)
  | .accept incoming => padded socketBufferSize incoming
  | .exitNotice => "EXIT".toList ++ [nul]

/-- The branches of the loop of `server_handler`, by its tests on the string it received. -/
inductive Branch
  | ended
  | exit
  | invite
  | accept
  | other
  deriving DecidableEq, Repr

def branch (buffer : Text) : Branch :=
  if buffer.length = 0 then .ended
  else if hasKeyword "EXIT".toList buffer then .exit
  else if hasKeyword "INVITE".toList buffer then .invite
  else if hasKeyword "ACCEPT".toList buffer then .accept
  else .other

/-- The INVITE branch of `server_handler` down to `remote_sdp`: the name it reports and the text. -/
def decodeInvite (buffer : Text) : Option (Text × Text) :=
  let remoteSideUser := ((scanWord (buffer.drop 6)).map Prod.fst).getD []
  if fieldSize ≤ remoteSideUser.length then none
  else
    let len := 6 + 1 + remoteSideUser.length + 1
    if buffer.length < len then none
    else some (remoteSideUser, (buffer.drop len).take (buffer.length - len))

/-- The ACCEPT branch of `server_handler` down to `remote_sdp`. -/
def decodeAccept (buffer : Text) : Option Text :=
  let len := 6 + 1
  if buffer.length < len then none else some ((buffer.drop len).take (buffer.length - len))

/-- `sprintf(answer_to_call, "ACCEPT %s", local_sdp.c_str())` and the bytes then sent; `none` where
the text overruns `answer_to_call`. -/
def acceptFrame (localSdp : Text) : Option Text :=
  if 7 + localSdp.length < socketBufferSize then
    some (padded socketBufferSize ("ACCEPT ".toList ++ localSdp))
  else none

/-- The server's test of a callee's reply: `sscanf(incoming_message, "%s", accept_command)` and
`strncmp(accept_command, "ACCEPT", 6)`; `none` where the word overruns `accept_command`. -/
def acceptTest (incoming : Text) : Option Bool :=
  let acceptCommand := ((scanWord incoming).map Prod.fst).getD []
  if fieldSize ≤ acceptCommand.length then none
  else some (hasKeyword "ACCEPT".toList acceptCommand)

theorem decodeAccept_text (text : Text) : decodeAccept ("ACCEPT ".toList ++ text) = some text := by
  have length : ("ACCEPT ".toList ++ text).length = 6 + 1 + text.length := by
    rw [List.length_append]
    rfl
  have payload : ("ACCEPT ".toList ++ text).drop (6 + 1) = text := List.drop_left' rfl
  rw [decodeAccept, length, payload, if_neg (by omega), Nat.add_sub_cancel_left, List.take_length]

theorem acceptFrame_eq {sdp : Text} (short : sdp.length ≤ 1016) :
    acceptFrame sdp = some (padded socketBufferSize ("ACCEPT ".toList ++ sdp)) := by
  rw [acceptFrame, if_pos]
  rw [socketBufferSize]
  omega

theorem length_acceptFrame {sdp frame : Text} (framed : acceptFrame sdp = some frame) : frame.length = socketBufferSize := by
  have length : ("ACCEPT ".toList ++ sdp).length = 7 + sdp.length := List.length_append
  rw [acceptFrame] at framed
  split_ifs at framed
  cases Option.some.inj framed
  exact length_padded (by omega)

theorem received_acceptFrame {sdp frame : Text} (free : nul ∉ sdp) (framed : acceptFrame sdp = some frame) :
    received frame = some ("ACCEPT ".toList ++ sdp) := by
  have whole : nul ∉ "ACCEPT ".toList ++ sdp := by
    simp only [List.mem_append, not_or]
    exact ⟨by decide, free⟩
  have length : ("ACCEPT ".toList ++ sdp).length = 7 + sdp.length := List.length_append
  rw [acceptFrame] at framed
  split_ifs at framed with short
  cases Option.some.inj framed
  rw [received, ofBuffer_padded, ofBuffer_of_free whole, length_padded (by omega), if_pos ⟨le_rfl, by omega⟩]

/-- The blank after the keyword ends the word that the server tests. -/
theorem acceptTest_text {sdp : Text} : acceptTest ("ACCEPT ".toList ++ sdp) = some true := by
  have word : scanWord ("ACCEPT ".toList ++ sdp) = some ("ACCEPT".toList, ' ' :: sdp) := by
    refine scanWord_eq_some.mpr ⟨by decide, by simp [isSpace], fun c first => ?_, [], by simp, rfl⟩
    cases Option.some.inj first
    rfl
  rw [acceptTest, word]
  rfl

theorem branch_text (text : Text) : branch ("ACCEPT ".toList ++ text) = .accept := by
  simp [branch, hasKeyword]

/-- What one `recv` gets of a longer zeroed array with a text in it. -/
theorem received_take_padded {size : Nat} {text : Text} (free : nul ∉ text) (le : socketBufferSize ≤ size) :
    received ((padded size text).take socketBufferSize) =
      if text.length < socketBufferSize then some text else none := by
  split_ifs with short
  · rw [take_padded short.le le, received, ofBuffer_padded, ofBuffer_of_free free, length_padded short.le,
      if_pos ⟨le_rfl, short⟩]
  · have full : (padded size text).take socketBufferSize = text.take socketBufferSize :=
      List.take_append_of_le_length (Nat.not_lt.mp short)
    have plain : nul ∉ text.take socketBufferSize := fun inside => free (List.mem_of_mem_take inside)
    have length : (text.take socketBufferSize).length = socketBufferSize :=
      List.length_take_of_le (Nat.not_lt.mp short)
    rw [full, received, ofBuffer_of_free plain, length, if_neg (fun fits => lt_irrefl _ fits.2)]

/-- What passes for an ACCEPT at the server is one for the listener, or nothing to it. -/
theorem branch_of_accepted {text : Text} (accepted : acceptTest text = some true) :
    branch text = .accept ∨ branch text = .other := by
  have notEmpty : text.length ≠ 0 := by
    intro empty
    rw [List.length_eq_zero_iff.mp empty] at accepted
    exact absurd accepted (by decide)
  have other (keyword : Text) (c : Char) (rest : Text) (starts : keyword = c :: rest)
      (visible : isSpace c = false) (differs : c ≠ 'A') : hasKeyword keyword text = false := by
    by_contra found
    obtain ⟨more, rfl⟩ := List.isPrefixOf_iff_prefix.mp (Bool.not_eq_false _ ▸ found)
    simp [starts, acceptTest, scanWord, hasKeyword, visible, Ne.symm differs] at accepted
  have notExit := other "EXIT".toList 'E' _ rfl (by decide) (by decide)
  have notInvite := other "INVITE".toList 'I' _ rfl (by decide) (by decide)
  rw [branch, if_neg notEmpty, notExit, notInvite]
  cases hasKeyword "ACCEPT".toList text <;> simp

end Signaling
