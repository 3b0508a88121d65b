import Signaling.Frames
import Signaling.UserStore
import Signaling.Machine.Slots

namespace Signaling
open Machine CText

/-- What an open descriptor number of the server process denotes. Sessions are numbered as in the
vector `threads`; `callback i k` is the socket of the `k`-th successful `socket()` of session `i`, and
`unserved` a connection that `accept` returned after SIGINT. -/
inductive Endpoint
  | standard
  | listening
  | client (session : Nat)
  | callback (session count : Nat)
  | unserved
  deriving DecidableEq, Repr

def Endpoint.session : Endpoint → Option Nat
  | .client i => some i
  | .callback i _ => some i
  | _ => none

/-- A message with the number of the INVITE it belongs to: its own for an INVITE, the INVITE it
replies to for an ACCEPT. The number is not among the bytes; no branch reads it. -/
structure Tagged (α : Type) where
  content : α
  invite : Option Nat
  deriving DecidableEq, Repr

/-- The other side of a callback socket: nobody before `connect`, then the listener loop of a client
for as long as that runs. -/
inductive Peer
  | unconnected
  | listening
  | gone
  deriving DecidableEq, Repr

/-- Where a handler thread is between two atomic steps. -/
inductive Phase
  | loop
  | opening
  | connecting
  | greeting
  | replying (message : Outgoing)
  | calling (receiver sdp : Text)
  | looking (receiver sdp : Text)
  | inviting (receiver sdp : Text) (receiverUser : User) (receiverFd : Int)
  | waiting (receiverFd : Int) (number : Nat)
  | forwarding (incoming : Tagged Text) (number : Nat)
  | exiting
  | notifying
  | closing
  | closed
  | returned
  deriving DecidableEq, Repr

/-- The locals of `client_handler`. `sockets` counts its successful `socket()` calls. -/
structure Handler where
  clientSocket : Nat
  clientIpAddress : Text := []
  clientPortInt : Int := -1
  clientSocketFd : Int := -1
  username : Text := []
  password : Text := []
  haslogin : Bool := false
  phase : Phase := .loop
  sockets : Nat := 0
  deriving DecidableEq, Repr

def Handler.goto (h : Handler) (phase : Phase) : Handler := { h with phase := phase }

/-- What all threads share. `outbound` holds what the server has written and the peer not read,
`inbound` what the listener of a callback connection has written and the server not read;
`invites` counts the INVITEs sent. -/
structure Shared where
  running : Bool := true
  userStore : UserStore := {}
  descriptors : List (Option Endpoint) :=
    [some .standard, some .standard, some .standard, some .listening]
  outbound : Endpoint → List (Tagged Outgoing) := fun _ => []
  inbound : Endpoint → List (Tagged Text) := fun _ => []
  peer : Endpoint → Peer := fun _ => .unconnected
  invites : Nat := 0

namespace Shared

/-- The socket a descriptor number denotes; `-1` and every other negative number denote none. -/
def endpoint (w : Shared) : Int → Option Endpoint
  | .ofNat n => Slots.lookup w.descriptors n
  | .negSucc _ => none

/-- Somebody may still read what is written to the socket. -/
def reaches (w : Shared) : Endpoint → Bool
  | .callback i k => w.peer (.callback i k) = .listening
  | _ => true

/-- `send` on a descriptor. On a number that is not open it fails, and no caller looks. -/
def send (w : Shared) (fd : Int) (message : Tagged Outgoing) : Shared :=
  match w.endpoint fd with
  | some e =>
    if w.reaches e then
      { w with outbound := Function.update w.outbound e (w.outbound e ++ [message]) }
    else w
  | none => w

def allocate (w : Shared) (e : Endpoint) : Shared :=
  { w with descriptors := Slots.occupy w.descriptors e }

def close (w : Shared) (fd : Nat) : Shared :=
  { w with descriptors := Slots.release w.descriptors fd }

/-- The descriptor is one on which `connect` can succeed: a socket not connected before. -/
def connectable (w : Shared) (fd : Int) : Bool :=
  match w.endpoint fd with
  | some (.callback i k) => w.peer (.callback i k) = .unconnected
  | _ => false

/-- The peer has accepted the connection and runs its listener loop on it. -/
def connected (w : Shared) (fd : Int) : Shared :=
  match w.endpoint fd with
  | some e => { w with peer := Function.update w.peer e .listening }
  | none => w

/-- `recv(receiver_fd, incoming_message, ..)` in the CALL branch. On a callback socket it takes the
next message, blocks while there is none, and gets nothing where there is no listener. On a socket
that `accept` returned it gets whatever the client wrote there, `foreign`. -/
def readReply (w : Shared) (fd : Int) (foreign : Text) : Option (Tagged Text × Shared) :=
  match w.endpoint fd with
  | some (.callback i k) =>
    match w.inbound (.callback i k) with
    | message :: rest =>
      some (message, { w with inbound := Function.update w.inbound (.callback i k) rest })
    | [] => if w.peer (.callback i k) = .listening then none else some (⟨[], none⟩, w)
  | some (.client _) | some .unserved => some (⟨foreign, none⟩, w)
  | _ => some (⟨[], none⟩, w)

end Shared

/-- One atomic step of a handler thread, with what the environment decides: the bytes `recv`
returned (none of them for 0 or an error), whether a call succeeded, and the value read from an
unwritten `socket_fd_`. -/
inductive Action
  | stop
  | recv (bytes : Text)
  | socket (ok : Bool)
  | connect (ok : Bool)
  | greet
  | reply
  | hasUser
  | getUser (unwritten : Int)
  | invite
  | answer (foreign : Text)
  | forward
  | exitReply (ok : Bool)
  | exitNotice
  | close
  | finish
  deriving DecidableEq, Repr

namespace Handler

/-- The branch of the command, up to and including its first store call; what it does before
that touches only locals. -/
def serve (h : Handler) (w : Shared) : Command → Option (Handler × Shared)
  | .client address port =>
    some ({ h with clientIpAddress := address.getD h.clientIpAddress, phase := .opening,
                   clientPortInt := port.getD h.clientPortInt }, w)
  | .signup username password =>
    some ({ h with username := username, password := password, phase := .replying .signupReply },
      { w with userStore :=
          w.userStore.addUser ⟨username, password, some false, some h.clientSocketFd⟩ })
  | .login username password =>
    some ({ h with username := username, password := password, phase := .replying .loginReply },
      { w with userStore := (w.userStore.loginUser username password).2 })
  | .call receiver sdp =>
    (w.userStore.isLogin receiver).map fun islogin =>
      (h.goto (if islogin then .calling receiver sdp else .loop), w)
  | .logout =>
    some (h.goto (.replying .logoutReply),
      { w with userStore := w.userStore.logOutUser h.username })
  | .exit => some (h.goto .exiting, w)
  | .ignored => some (h, w)

/-- From `recv` to the branch, with the two tests that leave the loop. -/
def receive (h : Handler) (w : Shared) (bytes : Text) : Option (Handler × Shared) :=
  if bytes.isEmpty || !w.running then some (h.goto .closing, w)
  else ((received bytes).bind decode).bind (h.serve w)

/-- The `socket()` of `connect_to_client`, which writes its result to the handler's variable. -/
def openSocket (i : Nat) (h : Handler) (w : Shared) (ok : Bool) : Handler × Shared :=
  if ok then
    ({ h with clientSocketFd := Slots.lowestFree w.descriptors, sockets := h.sockets + 1,
              phase := .connecting }, w.allocate (.callback i h.sockets))
  else ({ h with clientSocketFd := -1, phase := .closing }, w)

/-- The rest of `connect_to_client`: `inet_pton` and `connect`. -/
def connectToClient (h : Handler) (w : Shared) (ok : Bool) : Option (Handler × Shared) :=
  if ok then
    if w.connectable h.clientSocketFd then some (h.goto .greeting, w.connected h.clientSocketFd)
    else none
  else some (h.goto .closing, w)

/-- `client_handler`, one step at a time. -/
def step (i : Nat) (h : Handler) (w : Shared) (a : Action) : Option (Handler × Shared) :=
  match h.phase, a with
  | .loop, .stop => if w.running then none else some (h.goto .closing, w)
  | .loop, .recv bytes => h.receive w bytes
  | .opening, .socket ok => some (h.openSocket i w ok)
  | .connecting, .connect ok => h.connectToClient w ok
  | .greeting, .greet => some (h.goto .loop, w.send h.clientSocketFd ⟨.hello, none⟩)
  | .replying message, .reply => some (h.goto .loop, w.send h.clientSocket ⟨message, none⟩)
  | .calling receiver sdp, .hasUser =>
    some (h.goto (if w.userStore.hasUser receiver then .looking receiver sdp else .loop), w)
  | .looking receiver sdp, .getUser unwritten =>
    match w.userStore.getUser receiver with
    | some receiverUser =>
      some (h.goto (.inviting receiver sdp receiverUser (receiverUser.socketFd.getD unwritten)), w)
    | none => some (h.goto .loop, w)
  | .inviting receiver sdp _ receiverFd, .invite =>
    some (h.goto (.waiting receiverFd w.invites),
      { w.send receiverFd ⟨.invite receiver sdp, some w.invites⟩ with invites := w.invites + 1 })
  | .waiting receiverFd number, .answer foreign =>
    (w.readReply receiverFd foreign).bind fun (incoming, w') =>
      ((received incoming.content).bind acceptTest).map fun accepted =>
        (h.goto (if accepted then .forwarding incoming number else .loop), w')
  | .forwarding incoming _, .forward =>
    some (h.goto .loop, w.send h.clientSocketFd ⟨.accept incoming.content, incoming.invite⟩)
  | .exiting, .exitReply ok =>
    some (if ok then (h.goto .notifying, w.send h.clientSocket ⟨.exitReply, none⟩)
      else (h.goto .closing, w))
  | .notifying, .exitNotice => some (h.goto .closing, w.send h.clientSocketFd ⟨.exitNotice, none⟩)
  | .closing, .close => some (h.goto .closed, w.close h.clientSocket)
  | .closed, .finish =>
    some (h.goto .returned, if h.clientSocketFd = -1 then w else w.close h.clientSocket)
  | _, _ => none

end Handler

/-- What the listener of a callback connection does next: handle the next message, with the text
of `local_sdp` at that moment or an exception in the branch, or end for a reason of its own. -/
inductive ListenerAction
  | dispatch (localSdp : Option Text)
  | quit
  deriving DecidableEq, Repr

/-- The loop of `server_handler` on whole messages: one `recv` gets one of them. -/
def Shared.listen (w : Shared) (e : Endpoint) : ListenerAction → Option Shared
  | .quit =>
    if w.peer e = .listening then some { w with peer := Function.update w.peer e .gone } else none
  | .dispatch localSdp =>
    match w.peer e, w.outbound e with
    | .listening, message :: rest =>
      let taken := { w with outbound := Function.update w.outbound e rest }
      let gone := { taken with peer := Function.update w.peer e .gone }
      (received (message.content.frame.take socketBufferSize)).bind fun buffer =>
        match branch buffer with
        | .ended | .exit => some gone
        | .invite => (decodeInvite buffer).bind fun _ =>
          match localSdp with
          | some sdp => (acceptFrame sdp).map fun answer => { taken with
              inbound := Function.update w.inbound e (w.inbound e ++ [⟨answer, message.invite⟩]) }
          | none => some gone
        | .accept => (decodeAccept buffer).map fun _ => if localSdp.isSome then taken else gone
        | .other => some taken
    | _, _ => none

/-- The server process with the listeners of its clients. -/
structure Server extends Shared where
  accepting : Bool := true
  threads : List Handler := []

inductive Event
  | accept (ok : Bool)
  | interrupt
  | thread (i : Nat) (a : Action)
  | listener (e : Endpoint) (a : ListenerAction)
  deriving DecidableEq, Repr

namespace Server

def initial : Server := {}

/-- The accept loop of `main`, the handler threads, the listeners and SIGINT, one step at a time. -/
def step (s : Server) : Event → Option Server
  | .accept ok =>
    if s.accepting then
      if ok && s.running then
        some { s with toShared := s.toShared.allocate (.client s.threads.length),
                      threads := s.threads ++ [{ clientSocket := Slots.lowestFree s.descriptors }] }
      else if ok then some { s with toShared := s.toShared.allocate .unserved, accepting := false }
      else some { s with accepting := false }
    else none
  | .interrupt => some { s with running := false }
  | .thread i a =>
    (s.threads[i]?).bind fun h => (h.step i s.toShared a).map fun (h', w') =>
      { s with toShared := w', threads := s.threads.set i h' }
  | .listener e a => (s.toShared.listen e a).map fun w' => { s with toShared := w' }

end Server

/-- Steps of one session in a row. -/
def session (i : Nat) (actions : List Action) : List Event := actions.map (.thread i)

/-- A command that the server answers. -/
def sends (text : String) : List Action := [.recv (clientFrame text), .reply]

/-- A CLIENT command that gives the session a callback connection. -/
def connects : List Action :=
  [.recv (clientFrame "CLIENT 127.0.0.1 9000"), .socket true, .connect true, .greet]

/-- A CALL up to its INVITE. -/
def rings (receiver : String) : List Action :=
  [.recv (clientFrame ("CALL " ++ receiver ++ " sdp")), .hasUser, .getUser 0, .invite]

end Signaling
