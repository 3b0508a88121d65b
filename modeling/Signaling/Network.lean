import Signaling.Dialogue

namespace Signaling
open Machine CText

/-- A local description: the `setLocalDescription` that made it, an answer with the number of the
INVITE in whose branch that was. -/
inductive Description
  | offer (number : Nat)
  | answer (invite : Option Nat)
  deriving DecidableEq, Repr

def Description.isOffer : Description → Bool
  | .offer _ => true
  | .answer _ => false

/-- A client with its connection to the server and its peer connection. `descriptions` are its local
ones, the latest first, `source` is the one whose complete text is in `local_sdp`, and `sources` that
for each message sent. The listener is `halfway` between the two halves of an INVITE or ACCEPT branch. -/
structure Party where
  client : Client := {}
  sent : List Text := []
  taken : Nat := 0
  origins : List Nat := []
  descriptions : List Description := []
  source : Option Description := none
  sources : Nat → Option Description := fun _ => none
  halfway : Bool := false

/-- The server with the clients of its sessions. `offers` holds for the number of each INVITE the
description whose text the CALL carried. -/
structure Network extends Server where
  parties : Nat → Party := fun _ => {}
  offers : Nat → Option Description := fun _ => none

/-- `gathered` is the callback of the peer connection. An INVITE or ACCEPT branch of a listener is taken
in two steps: `describe` goes as far as `setLocalDescription`, and `listen` does the rest. -/
inductive NetworkEvent
  | accept (ok : Bool)
  | interrupt
  | client (i : Nat) (a : ClientAction)
  | reply (i : Nat)
  | replyFails (i : Nat)
  | handler (i : Nat) (a : Action)
  | gathered (i : Nat) (localSdp : Text)
  | describe (i k : Nat)
  | listen (i k : Nat) (raised : Bool)
  | quit (i k : Nat)
  deriving DecidableEq, Repr

/-- What the INVITE and ACCEPT branches of `server_handler` put into `remote_sdp`. -/
def remoteSdp (buffer : Text) : Option Text :=
  match branch buffer with
  | .invite => (decodeInvite buffer).map Prod.snd
  | .accept => decodeAccept buffer
  | .ended | .exit | .other => none

theorem remoteSdp_accept {text : Text} : remoteSdp ("ACCEPT ".toList ++ text) = some text := by
  simp only [remoteSdp, branch_text, decodeAccept_text]

namespace Network

def initial : Network := {}

def dialogue (s : Network) (i : Nat) (h : Handler) : Dialogue where
  session := i
  client := (s.parties i).client
  handler := h
  world := s.toShared
  sent := (s.parties i).sent
  taken := (s.parties i).taken
  origins := (s.parties i).origins

def withParty (s : Network) (i : Nat) (p : Party) : Network :=
  { s with parties := Function.update s.parties i p }

/-- A step of client `i` and its handler. The numbers of the message and of the INVITE are those of the
next one until it is sent. -/
def converse (s : Network) (i : Nat) (e : DialogueEvent) : Option Network :=
  let p := s.parties i
  (s.threads[i]?).bind fun h => ((s.dialogue i h).step e).map fun d => { s with
    toShared := d.world, threads := s.threads.set i d.handler,
    parties := Function.update s.parties i { p with
      client := d.client, sent := d.sent, taken := d.taken, origins := d.origins,
      sources := Function.update p.sources p.sent.length p.source },
    offers := Function.update s.offers s.invites (p.sources (p.taken - 1)) }

/-- The string that the listener receives next, with the number of the INVITE it belongs to. -/
def incoming (s : Network) (e : Endpoint) : Option (Text × Option Nat) :=
  match s.peer e, s.outbound e with
  | .listening, message :: _ =>
    (received (message.content.frame.take socketBufferSize)).map (·, message.invite)
  | _, _ => none

/-- Gathering has been started by a `setLocalDescription`, and ends with the text of the latest. -/
def gathered (s : Network) (i : Nat) (localSdp : Text) : Option Network :=
  let p := s.parties i
  if p.descriptions = [] ∨ localSdp = [] then none
  else some (s.withParty i { p with
    client := { p.client with localSdp := localSdp }, source := p.descriptions.head? })

/-- An INVITE or ACCEPT branch up to its `setLocalDescription`; the empty text does not parse. -/
def describe (s : Network) (i k : Nat) : Option Network :=
  let p := s.parties i
  (s.incoming (.callback i k)).bind fun (buffer, invite) => (remoteSdp buffer).bind fun sdp =>
    if sdp = [] ∨ p.halfway = true then none
    else some (s.withParty i { p with
      descriptions := (if branch buffer = .invite then .answer invite else .offer p.descriptions.length)
        :: p.descriptions,
      halfway := true })

/-- The rest of an INVITE or ACCEPT branch, or all of another. An exception ends the whole client. -/
def listen (s : Network) (i k : Nat) (raised : Bool) : Option Network :=
  let p := s.parties i
  (s.incoming (.callback i k)).bind fun (buffer, _) =>
    if (remoteSdp buffer).isSome ∧ raised = true then
      (s.toShared.listen (.callback i k) (.dispatch none)).map fun w =>
        { s with toShared := w }.withParty i { p with client := p.client.goto .closed, halfway := false }
    else if (remoteSdp buffer).isSome = p.halfway ∧ raised = false then
      (s.toShared.listen (.callback i k) (.dispatch (some p.client.localSdp))).map fun w =>
        { s with toShared := w }.withParty i { p with halfway := false }
    else none

def step (s : Network) : NetworkEvent → Option Network
  | .accept ok => (s.toServer.step (.accept ok)).map fun t => { s with toServer := t }
  | .interrupt => (s.toServer.step .interrupt).map fun t => { s with toServer := t }
  | .client i a => s.converse i (.client a)
  | .reply i => s.converse i .reply
  | .replyFails i => s.converse i .replyFails
  | .handler i a => s.converse i (.handler a)
  | .gathered i localSdp => s.gathered i localSdp
  | .describe i k => s.describe i k
  | .listen i k raised => s.listen i k raised
  | .quit i k => (s.toShared.listen (.callback i k) .quit).map fun w => { s with toShared := w }

end Network

end Signaling
