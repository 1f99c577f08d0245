import CMXSafe.OpenSSH.Pod
import CMXSafe.OpenSSH.Readconf

/-!
# Clients that meet in one sshd

The sessions of an sshd together with the clients at their other ends. What a client accepts at
a port of its own it asks the server to connect, and where the server connects to a listener of
one of its sessions, the client of that session gets the connection.
-/

namespace CMXSafe.OpenSSH
open Strings

/-- A `-R` option for TCP; a dynamic one has no port to connect to. -/
def ForwardSpec.remote (fwd : ForwardSpec) : Option RemoteForward :=
  if fwd.listenPath.isSome ∨ fwd.connectPath.isSome then none
  else
    fwd.connectHost.map (fun host =>
      { listenHost := fwd.listenHost
        listenPort := fwd.listenPort.toNat
        connectHost := host
        connectPort := fwd.connectPort.toNat })

/-- What a `-L` option for TCP lets the server connect to. -/
def ForwardSpec.target (fwd : ForwardSpec) : Option (Str × Nat) :=
  if fwd.connectPath.isSome ∨ fwd.connectPort ≤ 0 then none
  else fwd.connectHost.map (fun host => (host, fwd.connectPort.toNat))

/-- A login with the client at its other end, and the channels that the client has asked for and
the server has not opened yet: host, port and the port of the originator. -/
structure Peer where
  ci : ConnectionInfo
  auth : AuthOpts
  opts : ServerOptions
  localForwards : List ForwardSpec
  tunnel : Tunnel
  opens : List (Str × Nat × Nat) := []

def Peer.withTunnel (p : Peer) (t : Tunnel) : Peer := { p with tunnel := t }

/-- Whether a connection to a host and port gets to the listener; `net` says which hosts lead to
a socket that is bound so. -/
def Listener.answers (net : Bound → Str → Bool) (l : Listener) (host : Str) (port : Nat) : Bool :=
  l.localPort = port && net l.bound host

variable (env : Env) (other : Str → Option Bool) (cfg : List Str)

/-- A client with its options logs in. -/
def joinPeer (ci : ConnectionInfo) (auth : AuthOpts) (options : ForwardOptions) : Option Peer := do
  let l ← login env other cfg ci auth
  let fwds ← options.remoteForwards.mapM ForwardSpec.remote
  return { ci := l.ci
           auth := l.auth
           opts := l.opts
           localForwards := options.localForwards
           tunnel := Tunnel.start options.exitOnForwardFailure fwds l.session }

/-- One step of a client with its session. -/
def Peer.step (p : Peer) (a : TunnelAction) : Option Peer :=
  (p.tunnel.step p.opts p.auth a).map p.withTunnel

/-- The client accepts a connection for one of its `-L` options. -/
def Peer.dial (p : Peer) (fwd : ForwardSpec) (originatorPort : Nat) : Option Peer :=
  if fwd ∈ p.localForwards then
    fwd.target.map (fun target =>
      { p with opens := p.opens ++ [(target.1, target.2, originatorPort)] })
  else none

/-- The server takes the next channel that the client has asked for: whether it has been opened,
and where to. -/
def Peer.open (p : Peer) (os : Os) : Option (Bool × (Str × Nat) × Peer) :=
  match p.opens with
  | [] => none
  | (host, port, originatorPort) :: opens =>
    let answer := p.tunnel.session.request p.opts p.auth os (.directTcpip host port originatorPort)
    some (answer.1, (host, port),
      { p with opens := opens, tunnel := { p.tunnel with session := answer.2 } })

/-- The session takes a request of a client that is not ours, or a connection of it ends. -/
def Peer.sessionStep (p : Peer) (a : SessionAction) : Option Peer :=
  (p.tunnel.session.step p.opts p.auth a).map (fun s => p.withTunnel { p.tunnel with session := s })

inductive MeshAction where
  | join (ci : ConnectionInfo) (auth : AuthOpts) (options : ForwardOptions)
  | act (i : Nat) (a : TunnelAction)
  | dial (i : Nat) (fwd : ForwardSpec) (originatorPort : Nat)
  /-- The server takes the next channel; its connection leaves the machine, or is refused. -/
  | leave (i : Nat) (os : Os)
  /-- The server takes the next channel; its connection gets to a listener of a session. -/
  | relay (i : Nat) (os : Os) (j : Nat) (l : Listener) (originatorPort : Nat)
  | session (i : Nat) (a : SessionAction)
  /-- A connection ends, on either side; a client that exits goes this way. -/
  | logout (i : Nat)

variable (net : Bound → Str → Bool)

/-- One step of anybody; the peers stand in the order of the logins. -/
def meshStep (mesh : List Peer) : MeshAction → Option (List Peer)
  | .join ci auth options => (joinPeer env other cfg ci auth options).map (fun p => mesh ++ [p])
  | .act i a => do
    let p ← mesh[i]?
    let p' ← p.step a
    return mesh.set i p'
  | .dial i fwd originatorPort => do
    let p ← mesh[i]?
    let p' ← p.dial fwd originatorPort
    return mesh.set i p'
  | .leave i os => do
    let p ← mesh[i]?
    let (_, _, p') ← p.open os
    return mesh.set i p'
  | .relay i os j l originatorPort => do
    let p ← mesh[i]?
    let (opened, target, p') ← p.open os
    if !opened ∨ !l.answers net target.1 target.2 then none
    let q ← (mesh.set i p')[j]?
    let q' ← q.step (.accept l originatorPort)
    return (mesh.set i p').set j q'
  | .session i a => do
    let p ← mesh[i]?
    let p' ← p.sessionStep a
    return mesh.set i p'
  | .logout i => some (mesh.eraseIdx i)

end CMXSafe.OpenSSH
