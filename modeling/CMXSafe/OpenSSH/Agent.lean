import CMXSafe.OpenSSH.Session

/-!
# Remote forwards of an ssh client

`ssh.c`, `clientloop.c` and `channels.c` as the agents of the endpoints run them, with `-R`
options for TCP: the client asks for its listeners, takes the replies in the order of its
requests, and connects what the server forwards to the targets of its own options.
-/

namespace CMXSafe.OpenSSH
open Strings

/-- `struct Forward` of a `-R` option; the handle of an option is its index, and the port to
connect to is 0 for a dynamic forward. -/
structure RemoteForward where
  listenHost : Option Str
  listenPort : Nat
  connectHost : Str
  connectPort : Nat
  deriving DecidableEq, Repr

/-- `channel_rfwd_bind_host`. -/
def channelRfwdBindHost : Option Str → Str
  | none => "localhost".toList
  | some host => if host = [] ∨ host = ['*'] then [] else host

/-- The global requests that a client sends. -/
inductive ToServer where
  | tcpipForward (listenHost : Str) (listenPort : Nat)
  | cancelTcpipForward (listenHost : Str) (listenPort : Nat)
  | keepalive
  deriving DecidableEq, Repr

/-- What a server sends: replies to global requests, a success with the port that was allocated,
if any, and channels for forwarded connections. -/
inductive ToClient where
  | success (port : Option Nat)
  | failure
  | forwardedTcpip (listenAddress : Str) (listenPort originatorPort : Nat)
  deriving DecidableEq, Repr

/-- `struct global_confirm`: the callback for an option, or the placeholder of a keepalive. -/
structure GlobalConfirm where
  ctx : Option Nat
  refCount : Nat
  deriving DecidableEq, Repr

structure Agent where
  remoteForwards : List RemoteForward
  exitOnForwardFailure : Bool := false
  permittedUser : List Permission := []
  globalConfirms : List GlobalConfirm := []
  deriving DecidableEq, Repr

/-- `client_register_global_confirm`; identical callbacks in a row are counted. -/
def clientRegisterGlobalConfirm (ctx : Option Nat) (confirms : List GlobalConfirm) :
    List GlobalConfirm :=
  match confirms.getLast? with
  | some last =>
    if last.ctx = ctx then confirms.dropLast ++ [{ last with refCount := last.refCount + 1 }]
    else confirms ++ [⟨ctx, 1⟩]
  | none => [⟨ctx, 1⟩]

/-- What `channel_request_remote_forwarding` records before the server has answered. -/
def requestedPermission (fwd : RemoteForward) : Permission where
  hostToConnect := some fwd.connectHost
  portToConnect := fwd.connectPort
  listenHost := fwd.listenHost
  listenPort := fwd.listenPort

/-- `channel_request_remote_forwarding`, with the callback that is registered for it. -/
def channelRequestRemoteForwarding (fwd : RemoteForward) (agent : Agent) (sent : List ToServer) :
    Agent × List ToServer :=
  let handle := agent.permittedUser.length
  ({ agent with
      permittedUser := agent.permittedUser ++ [requestedPermission fwd]
      globalConfirms := clientRegisterGlobalConfirm (some handle) agent.globalConfirms },
    sent ++ [.tcpipForward (channelRfwdBindHost fwd.listenHost) fwd.listenPort])

/-- `ssh_init_forwarding`; every request for a TCP listener is sent. -/
def sshInitForwarding (exitOnForwardFailure : Bool) (remoteForwards : List RemoteForward) :
    Agent × List ToServer :=
  remoteForwards.foldl (fun st fwd => channelRequestRemoteForwarding fwd st.1 st.2)
    ({ remoteForwards := remoteForwards, exitOnForwardFailure := exitOnForwardFailure }, [])

/-- `channel_update_permission`. -/
def channelUpdatePermission (idx : Nat) (newport : Int) (perms : List Permission) :
    List Permission :=
  perms.modify idx (fun perm => if newport ≤ 0 then {} else { perm with listenPort := newport })

/-- `ssh_confirm_remote_forward`; the result is `none` where the client ends: a success lacks its
port, or the forward has failed and the client is told to exit on that. -/
def sshConfirmRemoteForward (idx : Nat) (reply : ToClient) (agent : Agent) : Option Agent :=
  match agent.remoteForwards[idx]? with
  | none => some agent
  | some rfwd =>
    let update := fun (newport : Int) =>
      { agent with permittedUser := channelUpdatePermission idx newport agent.permittedUser }
    let confirmed : Option (Bool × Agent) :=
      if rfwd.listenPort = 0 then
        match reply with
        | .success none => none
        | .success (some port) =>
          if 65535 < port then some (false, update (-1)) else some (true, update port)
        | _ => some (false, update (-1))
      else some (reply ≠ .failure, agent)
    confirmed.bind (fun (success, agent) =>
      if !success && agent.exitOnForwardFailure then none else some agent)

/-- `client_global_request_reply`. -/
def clientGlobalRequestReply (reply : ToClient) (agent : Agent) : Option Agent :=
  match agent.globalConfirms with
  | [] => some agent
  | gc :: confirms =>
    let left := if gc.refCount ≤ 1 then confirms
      else { gc with refCount := gc.refCount - 1 } :: confirms
    (gc.ctx.elim (some agent) (fun idx => sshConfirmRemoteForward idx reply agent)).map
      (fun agent => { agent with globalConfirms := left })

/-- `open_listen_match_tcpip`. -/
def openListenMatchTcpip (allowedOpen : Permission) (requestedhost : Option Str)
    (requestedport : Int) (translate : Bool) : Bool :=
  if allowedOpen.hostToConnect.isNone ∨ allowedOpen.listenPort ≠ requestedport then false
  else if !translate ∧ allowedOpen.listenHost = none ∧ requestedhost = none then true
  else
    let allowedHost := if translate then some (channelRfwdBindHost allowedOpen.listenHost)
      else allowedOpen.listenHost
    allowedHost.isSome ∧ allowedHost = requestedhost

/-- Where a client connects a forwarded connection to: to a target, or, for a dynamic forward, to
what a SOCKS request in the connection asks for (`rdynamic_connect_prepare`). -/
inductive ClientConnect where
  | connectTo (host : Str) (port : Int)
  | rdynamicConnect
  deriving DecidableEq, Repr

/-- `channel_connect_by_listen_address`. -/
def channelConnectByListenAddress (perms : List Permission) (listenHost : Str) (listenPort : Nat) :
    Option ClientConnect :=
  (perms.find? (fun perm => openListenMatchTcpip perm (some listenHost) listenPort true)).bind
    (fun perm =>
      if perm.portToConnect = 0 then some .rdynamicConnect
      else perm.hostToConnect.map (fun host => .connectTo host perm.portToConnect))

/-- `client_request_forwarded_tcpip`. -/
def clientRequestForwardedTcpip (agent : Agent) (listenAddress : Str)
    (listenPort originatorPort : Nat) : Option ClientConnect :=
  if 0xFFFF < listenPort ∨ 0xFFFF < originatorPort then none
  else channelConnectByListenAddress agent.permittedUser listenAddress listenPort

/-- `channel_request_rforward_cancel_tcpip`: the first permission that matches goes. -/
def channelRequestRforwardCancelTcpip (host : Option Str) (port : Nat) (agent : Agent)
    (sent : List ToServer) : Agent × List ToServer :=
  let doomed := fun perm => openListenMatchTcpip perm host port false
  match agent.permittedUser.findIdx? doomed with
  | none => (agent, sent)
  | some i =>
    ({ agent with permittedUser := agent.permittedUser.set i {} },
      sent ++ [.cancelTcpipForward (channelRfwdBindHost host) port])

/-- What the client does with a message, `none` where it ends, and the connection that it makes,
if any. -/
def Agent.receive (m : ToClient) (agent : Agent) : Option Agent × Option ClientConnect :=
  match m with
  | .forwardedTcpip listenAddress listenPort originatorPort =>
    (some agent, clientRequestForwardedTcpip agent listenAddress listenPort originatorPort)
  | reply => (clientGlobalRequestReply reply agent, none)

/-- What happens to a client: a message of whatever server it talks to, a keepalive that it
sends, or a forward that its user cancels. -/
inductive AgentAction where
  | receive (m : ToClient)
  | keepalive
  | cancel (host : Option Str) (port : Nat)

def Agent.keepalive (agent : Agent) : Agent :=
  { agent with globalConfirms := clientRegisterGlobalConfirm none agent.globalConfirms }

def Agent.step (agent : Agent) : AgentAction → Option Agent
  | .receive m => (agent.receive m).1
  | .keepalive => some agent.keepalive
  | .cancel host port => some (channelRequestRforwardCancelTcpip host port agent []).1

/-! ## A client and its server -/

variable (opts : ServerOptions) (auth : AuthOpts)

/-- The two ends of a connection, with what is on its way between them. -/
structure Tunnel where
  agent : Agent
  toServer : List ToServer
  session : Session
  toClient : List ToClient

/-- The state behind `ssh_init_forwarding`. -/
def Tunnel.start (exitOnForwardFailure : Bool) (remoteForwards : List RemoteForward)
    (session : Session) : Tunnel :=
  let st := sshInitForwarding exitOnForwardFailure remoteForwards
  { agent := st.1, toServer := st.2, session := session, toClient := [] }

/-- `server_input_global_request`: the reply, if one is wanted. An unknown request fails. -/
def serverInputGlobalRequest (os : Os) (s : Session) : ToServer → Option ToClient × Session
  | .tcpipForward listenHost listenPort =>
    let done := s.request opts auth os (.tcpipForward listenHost listenPort true)
    let allocated :=
      (channelSetupFwdListenerTcpip os (opts.val .gatewayPorts) listenHost listenPort).2
    (if done.1 then some (.success (if allocated = 0 then none else some allocated.toNat))
      else some .failure, done.2)
  | .cancelTcpipForward listenHost listenPort =>
    (none, (s.request opts auth os (.cancelTcpipForward listenHost listenPort)).2)
  | .keepalive => (some .failure, s)

inductive TunnelAction where
  | keepalive
  /-- The server takes the next request. -/
  | serve (os : Os)
  /-- A listener accepts a connection. -/
  | accept (l : Listener) (originatorPort : Nat)
  /-- The client takes the next message. -/
  | receive

def Tunnel.step (t : Tunnel) : TunnelAction → Option Tunnel
  | .keepalive =>
    some { t with agent := t.agent.keepalive, toServer := t.toServer ++ [.keepalive] }
  | .serve os =>
    match t.toServer with
    | [] => none
    | m :: toServer =>
      let answer := serverInputGlobalRequest opts auth os t.session m
      some { t with
        toServer := toServer, session := answer.2, toClient := t.toClient ++ answer.1.toList }
  | .accept l originatorPort =>
    if l ∈ t.session.listeners then
      some { t with
        toClient := t.toClient ++ [.forwardedTcpip l.path l.localPort originatorPort] }
    else none
  | .receive =>
    match t.toClient with
    | [] => none
    | m :: toClient =>
      (t.agent.receive m).1.map (fun agent => { t with agent := agent, toClient := toClient })

end CMXSafe.OpenSSH
