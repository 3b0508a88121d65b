import Signaling.InviteRelay
import Signaling.Network

namespace Signaling
open Machine CText

/-- A value of `nlohmann::json`; `other` is one that is neither null nor a string nor an object. An
object is a `std::map`, so its members stand in the order of their keys. -/
inductive Json
  | null
  | string (text : Text)
  | object (members : List (Text × Json))
  | other

/-- The exceptions that can leave the INVITE and ACCEPT branches of `server_handler`. -/
inductive Raised
  | parseError
  | typeError
  | peerConnection
  deriving DecidableEq, Repr

/-- A call on `pc`, with the `rtc::Description` built for it. -/
inductive PeerCall
  | setRemoteDescription (sdp type : Text)
  | setLocalDescription (type : Text)
  deriving DecidableEq, Repr

/-- The calls that a branch makes on the peer connection. An exception ends the client. -/
abbrev Negotiation := StateT (List PeerCall) (Except Raised)

namespace Json

/-- `j[key]`: an absent key is inserted with null under it, into null as into an object. -/
def index (key : Text) : Json → Except Raised Json
  | .null => .ok .null
  | .object members => .ok ((members.lookup key).getD .null)
  | .string _ | .other => .error .typeError

/-- `get<std::string>()`. -/
def getString : Json → Except Raised Text
  | .string text => .ok text
  | .null | .object _ | .other => .error .typeError

/-- `message` of `onGatheringStateChange`, which goes into `local_sdp`. -/
def gathered (type sdp : Text) : Json :=
  .object [("sdp".toList, .string sdp), ("type".toList, .string type)]

end Json

section Branches
variable (parse : Text → Option Json) (throws : PeerCall → Bool)

def parseJson (text : Text) : Except Raised Json := (parse text).elim (.error .parseError) .ok

def call (c : PeerCall) : Negotiation Unit := do
  if throws c then throw .peerConnection
  modify (· ++ [c])

/-- The INVITE branch from `remote_sdp` to `setLocalDescription`. -/
def inviteBranch (remoteSdp : Text) : Negotiation Unit := do
  let j0 ← parseJson parse remoteSdp
  let offerSdp ← (← j0.index "description".toList).getString
  call throws (.setRemoteDescription offerSdp "offer".toList)
  call throws (.setLocalDescription "answer".toList)

/-- The ACCEPT branch from `remote_sdp` to its end. -/
def acceptBranch (remoteSdp : Text) : Negotiation Unit := do
  let j ← parseJson parse remoteSdp
  call throws (.setLocalDescription "offer".toList)
  let answerSdp ← (← j.index "description".toList).getString
  call throws (.setRemoteDescription answerSdp "answer".toList)

/-- What the listener does with its peer connection on the string that it has received. -/
def describes (buffer : Text) : Option (Negotiation Unit) :=
  (remoteSdp buffer).map (if branch buffer = .invite then inviteBranch parse throws else acceptBranch parse throws)

/-- The branch hands the text to `setRemoteDescription`, and no exception leaves it. -/
def Handed (buffer sdp : Text) : Prop :=
  ∃ run calls type, describes parse throws buffer = some run ∧ run.run [] = .ok ((), calls) ∧
    .setRemoteDescription sdp type ∈ calls

variable {parse throws} {α β : Type} {j : Json} {key text sdp buffer : Text} {before after calls : List PeerCall}

theorem bind_ok {run : Except Raised α} {next : α → Except Raised β} {result : β} :
    run >>= next = .ok result ↔ ∃ value, run = .ok value ∧ next value = .ok result := by
  cases run <;> simp [bind, Except.bind]

theorem run_lift {outcome : Except Raised α} {result : α} :
    (liftM outcome : Negotiation α).run before = .ok (result, after) ↔ outcome = .ok result ∧ before = after := by
  cases outcome
  · simp
  · simp

theorem run_call {c : PeerCall} {result : Unit} :
    (call throws c).run before = .ok (result, after) ↔ throws c = false ∧ before ++ [c] = after := by
  have run : (call throws c).run before = if throws c then .error .peerConnection else .ok ((), before ++ [c]) := by
    rw [call]
    split_ifs <;> rfl
  rw [run]
  cases throws c <;> simp

/-- A string is read exactly where one is stored under the key. -/
theorem getString_index : (∃ value, j.index key = .ok value ∧ value.getString = .ok text) ↔
    ∃ members, j = .object members ∧ members.lookup key = some (.string text) := by
  cases j with
  | null => simp [Json.index, Json.getString]
  | string | other => simp [Json.index]
  | object members =>
    cases found : members.lookup key with
    | none => simp [Json.index, Json.getString, found]
    | some value => cases value <;> simp [Json.index, Json.getString, found]

theorem parseJson_ok : parseJson parse text = .ok j ↔ parse text = some j := by
  rw [parseJson]
  cases parse text <;> simp

/-- The INVITE branch ends well where there is a string under the key that the peer connection takes. -/
theorem run_inviteBranch : (inviteBranch parse throws text).run [] = .ok ((), calls) ↔
    ∃ members sdp, parse text = some (.object members) ∧
      members.lookup "description".toList = some (.string sdp) ∧
      throws (.setRemoteDescription sdp "offer".toList) = false ∧
      throws (.setLocalDescription "answer".toList) = false ∧
      calls = [.setRemoteDescription sdp "offer".toList, .setLocalDescription "answer".toList] := by
  simp only [inviteBranch, StateT.run_bind, bind_ok, Prod.exists, run_lift, run_call, parseJson_ok]
  constructor
  · rintro ⟨j, _, ⟨parsed, rfl⟩, value, _, ⟨found, rfl⟩, sdp, _, ⟨string, rfl⟩, _, _, ⟨remote, rfl⟩, answer, rfl⟩
    obtain ⟨members, rfl, stored⟩ := getString_index.mp ⟨value, found, string⟩
    exact ⟨members, sdp, parsed, stored, remote, answer, rfl⟩
  · rintro ⟨members, sdp, parsed, stored, remote, answer, rfl⟩
    obtain ⟨value, found, string⟩ := getString_index.mpr ⟨members, rfl, stored⟩
    exact ⟨_, _, ⟨parsed, rfl⟩, value, _, ⟨found, rfl⟩, sdp, _, ⟨string, rfl⟩, (), _, ⟨remote, rfl⟩, answer, rfl⟩

/-- The ACCEPT branch looks under the same key, after its `setLocalDescription`. -/
theorem run_acceptBranch : (acceptBranch parse throws text).run [] = .ok ((), calls) ↔
    ∃ members sdp, parse text = some (.object members) ∧
      members.lookup "description".toList = some (.string sdp) ∧
      throws (.setLocalDescription "offer".toList) = false ∧
      throws (.setRemoteDescription sdp "answer".toList) = false ∧
      calls = [.setLocalDescription "offer".toList, .setRemoteDescription sdp "answer".toList] := by
  simp only [acceptBranch, StateT.run_bind, bind_ok, Prod.exists, run_lift, run_call, parseJson_ok]
  constructor
  · rintro ⟨j, _, ⟨parsed, rfl⟩, _, _, ⟨offer, rfl⟩, value, _, ⟨found, rfl⟩, sdp, _, ⟨string, rfl⟩, remote, rfl⟩
    obtain ⟨members, rfl, stored⟩ := getString_index.mp ⟨value, found, string⟩
    exact ⟨members, sdp, parsed, stored, offer, remote, rfl⟩
  · rintro ⟨members, sdp, parsed, stored, offer, remote, rfl⟩
    obtain ⟨value, found, string⟩ := getString_index.mpr ⟨members, rfl, stored⟩
    exact ⟨_, _, ⟨parsed, rfl⟩, (), _, ⟨offer, rfl⟩, value, _, ⟨found, rfl⟩, sdp, _, ⟨string, rfl⟩, remote, rfl⟩

/-- What either branch hands over is the string under "description". -/
theorem Handed.described (handed : Handed parse throws buffer sdp) (payload : remoteSdp buffer = some text) :
    ∃ members, parse text = some (.object members) ∧ members.lookup "description".toList = some (.string sdp) := by
  obtain ⟨run, calls, type, branch, ended, member⟩ := handed
  rw [describes, payload, Option.map_some] at branch
  cases Option.some.inj branch
  split_ifs at ended
  · obtain ⟨members, text, parsed, stored, _, _, rfl⟩ := run_inviteBranch.mp ended
    have same : sdp = text := by simp_all
    exact ⟨members, parsed, same ▸ stored⟩
  · obtain ⟨members, text, parsed, stored, _, _, rfl⟩ := run_acceptBranch.mp ended
    have same : sdp = text := by simp_all
    exact ⟨members, parsed, same ▸ stored⟩

theorem remoteSdp_invite (u : Word) : remoteSdp ("INVITE ".toList ++ u.text ++ ' ' :: text) = some text := by
  have kind : branch ("INVITE ".toList ++ u.text ++ ' ' :: text) = .invite := by simp [branch, hasKeyword]
  simp only [remoteSdp, kind]
  rw [decodeInvite_relayed u.plain (fun empty => absurd empty u.filled) u.short]
  rfl

/-- The members that a client writes are "type" and "sdp", so neither branch of another client finds
"description": `get<std::string>` throws on null, whatever the description was. -/
theorem sdp_never_handed {dump : Json → Text} {type : Text}
    (undo : parse (dump (.gathered type sdp)) = some (.gathered type sdp)) (u : Word) :
    let localSdp := dump (.gathered type sdp)
    (remoteSdp ("INVITE ".toList ++ u.text ++ ' ' :: localSdp) = some localSdp ∧
      ¬Handed parse throws ("INVITE ".toList ++ u.text ++ ' ' :: localSdp) sdp) ∧
    (remoteSdp ("ACCEPT ".toList ++ localSdp) = some localSdp ∧
      ¬Handed parse throws ("ACCEPT ".toList ++ localSdp) sdp) := by
  have missing {buffer : Text} (payload : remoteSdp buffer = some (dump (.gathered type sdp))) :
      ¬Handed parse throws buffer sdp := by
    intro handed
    obtain ⟨members, parsed, stored⟩ := handed.described payload
    cases Option.some.inj (undo.symm.trans parsed)
    simp [List.lookup_cons] at stored
  exact ⟨⟨remoteSdp_invite u, missing (remoteSdp_invite u)⟩, remoteSdp_accept, missing remoteSdp_accept⟩

end Branches

/-- What `to_string` makes of an offer. -/
def offerText : Text := "\x7b\"sdp\":\"v=0\",\"type\":\"offer\"\x7d".toList

def offer : Json := .gathered "offer".toList "v=0".toList

/-- The parser on that text. -/
def parseOffer (text : Text) : Option Json := if text = offerText then some offer else none

theorem offer_never_handed : ¬Handed parseOffer (fun _ => false) ("INVITE bob ".toList ++ offerText) "v=0".toList ∧
    ¬Handed parseOffer (fun _ => false) ("ACCEPT ".toList ++ offerText) "v=0".toList := by
  have undo : parseOffer offerText = some offer := if_pos rfl
  obtain ⟨⟨_, invite⟩, _, accept⟩ :=
    @sdp_never_handed parseOffer (fun _ => false) "v=0".toList (fun _ => offerText) "offer".toList undo bob
  exact ⟨invite, accept⟩

/-- The key that both branches ask for is absent, and what stands for it is null. -/
theorem offer_raises :
    (describes parseOffer (fun _ => false) ("INVITE bob ".toList ++ offerText)).map (·.run []) =
      some (.error .typeError) ∧
    (describes parseOffer (fun _ => false) ("ACCEPT ".toList ++ offerText)).map (·.run []) =
      some (.error .typeError) ∧
    ¬Handed parseOffer (fun _ => false) ("INVITE bob ".toList ++ offerText) "v=0".toList := by
  have invite : (describes parseOffer (fun _ => false) ("INVITE bob ".toList ++ offerText)).map (·.run []) =
      some (.error .typeError) := rfl
  refine ⟨invite, rfl, ?_⟩
  rintro ⟨run, calls, type, described, ended, _⟩
  rw [described, Option.map_some, ended] at invite
  simp at invite

end Signaling
