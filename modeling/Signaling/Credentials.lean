import Signaling.Client
import Signaling.StoreCalls

namespace Signaling
open Machine CText

/-- What `cin >>` puts into a string that is typed without NUL. -/
structure Typed (text : Text) : Prop where
  filled : text ≠ []
  plain : ∀ c ∈ text, isSpace c = false
  free : nul ∉ text

/-- The branch of the command in the message is what the step goes to. -/
def Server.takes (s : Server) (i : Nat) (message : Text) : Bool :=
  (s.dispatched (.thread i (.recv message))).isSome

/-- A SIGNUP frame of the name and the password has been taken, and no SIGNUP of the name since. -/
def SignedUp (past : History) (username password : Text) : Prop :=
  ∃ later r i message earlier, past = later ++ (r, .thread i (.recv message)) :: earlier ∧
    copied (registerRequest true username password) = some message ∧ r.takes i message = true ∧
      ∀ call ∈ calls later, ¬call.signsUp username

section Fields
variable {username password message : Text} {signUp : Bool}

/-- Both words are scanned, and the first that does not fit its array stops the scan. -/
theorem scanCredentials_typed (name : Typed username) (secret : Typed password) :
    scanCredentials (' ' :: username ++ ' ' :: password) =
      if username.length < fieldSize ∧ password.length < fieldSize then some (username, password) else none := by
  have first : scanWord (' ' :: username ++ ' ' :: password) = some (username, ' ' :: password) :=
    scanWord_word name.filled name.plain (Or.inr ⟨password, rfl⟩)
  have second : scanWord (' ' :: password) = some (password, []) := by
    simpa only [List.append_nil] using scanWord_word secret.filled secret.plain (Or.inl rfl)
  simp only [scanCredentials, first, second, ← Nat.not_lt]
  split_ifs <;> simp_all

theorem decode_typed (name : Typed username) (secret : Typed password) :
    decode (registerRequest signUp username password) =
      if username.length < fieldSize ∧ password.length < fieldSize then
        some (if signUp then .signup username password else .login username password)
      else none := by
  rw [registerRequest, List.append_assoc, decode_register, scanCredentials_typed name secret]
  split_ifs <;> rfl

theorem free_registerRequest (name : Typed username) (secret : Typed password) :
    nul ∉ registerRequest signUp username password := by
  have keyword : nul ∉ (if signUp then "SIGNUP" else "LOGIN").toList := by cases signUp <;> decide
  have first : nul ∉ ' ' :: username := by
    rw [List.mem_cons, not_or]
    exact ⟨by decide, name.free⟩
  exact nul_notMem_fields keyword first secret.free

/-- A register request arrives as it was typed exactly if both words fit the arrays of the server. -/
theorem commandOf_typed (name : Typed username) (secret : Typed password)
    (fits : (registerRequest signUp username password).length < socketBufferSize)
    (sent : copied (registerRequest signUp username password) = some message) :
    commandOf message = if username.length < fieldSize ∧ password.length < fieldSize then
        some (if signUp then .signup username password else .login username password)
      else none := by
  rw [commandOf_copied sent fits, ofBuffer_of_free (free_registerRequest name secret), decode_typed name secret]

/-- Words that fit the arrays of the server fit the message. -/
theorem registerRequest_fits (short : username.length < fieldSize ∧ password.length < fieldSize) :
    (registerRequest signUp username password).length < socketBufferSize := by
  have keyword : (if signUp then "SIGNUP" else "LOGIN").toList.length ≤ 6 := by cases signUp <;> decide
  simp only [registerRequest, List.length_append, List.length_cons, socketBufferSize, fieldSize] at *
  omega

end Fields

section Runs
variable {past : History} {s : Server} {e : Event} {username password message : Text} {i : Nat}

theorem latestSignup_append {after before : List StoreCall} (other : ∀ call ∈ after, ¬call.signsUp username) :
    latestSignup (after ++ before) username = latestSignup before username := by
  induction after with
  | nil => rfl
  | cons call after ih =>
    rw [List.cons_append, latestSignup_cons_of_not (other call List.mem_cons_self)]
    exact ih fun later member => other later (List.mem_cons_of_mem _ member)

theorem calls_append (later earlier : History) : calls (later ++ earlier) = calls later ++ calls earlier :=
  List.filterMap_append

/-- The store call of a register request that is taken. -/
theorem Server.storeCall_of_takes {command : Command} (taken : s.takes i message = true)
    (decoded : commandOf message = some command) :
    ∃ h, s.storeCall (.thread i (.recv message)) = command.storeCall i h s.userStore := by
  obtain ⟨⟨j, h, other⟩, dispatched⟩ := Option.isSome_iff_exists.mp taken
  obtain ⟨a, same, _, heard⟩ := dispatched_iff.mp dispatched
  cases same
  rw [Handler.hears] at heard
  split_ifs at heard
  cases Option.some.inj (decoded.symm.trans heard)
  exact ⟨h, by rw [storeCall, dispatched, Option.bind_some]⟩

/-- The latest SIGNUP of a name that was signed up and not again since. -/
theorem SignedUp.latest (signed : SignedUp past username password) (name : Typed username) (secret : Typed password)
    (short : username.length < fieldSize ∧ password.length < fieldSize) :
    (latestSignup (calls past) username).map User.password = some password := by
  obtain ⟨later, r, i, message, earlier, rfl, sent, taken, kept⟩ := signed
  have decoded := commandOf_typed name secret (registerRequest_fits short) sent
  rw [if_pos short, if_pos rfl] at decoded
  obtain ⟨h, made⟩ := Server.storeCall_of_takes taken decoded
  rw [calls_append, latestSignup_append kept, calls_of_some made, latestSignup, if_pos rfl]
  rfl

end Runs

end Signaling
