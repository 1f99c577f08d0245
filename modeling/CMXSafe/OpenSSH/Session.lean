import CMXSafe.OpenSSH.Servconf
import CMXSafe.Lib.Machines

/-!
# Sessions of sshd

`session.c` and `serverloop.c`: the permissions that an authenticated session starts with,
and what it does with the requests of its client. What the system answers to a `connect` or a
`bind` is an argument. Privilege separation is on, as it is by default, and the peer has none
of the bugs that sshd works around.
-/

namespace CMXSafe.OpenSSH
open Strings Machines

/-- The options of the key that the user has shown. -/
structure AuthOpts where
  permitPortForwardingFlag : Bool := true
  permitopen : List Str := []
  permitlisten : List Str := []
  deriving DecidableEq, Repr

variable (env : Env)

/-- A host and a port in the form `host:port`; a slash may stand for the colon where `hpdelim2`
is used. -/
def parsePermission (slash : Bool) (arg : Str) : Option (Str × Int) :=
  match hpdelim2 arg with
  | some (host, some port, delim) =>
    if !slash ∧ delim = some '/' then none
    else (permitopenPort env.getservbyname port).map (fun port => (cleanhostname host, port))
  | _ => none

/-- Adds the entries one after the other; a malformed one is fatal. -/
def addPermissions (slash : Bool) (who : Who) (dir : Where) (args : List Str) (p : Perms) :
    Option Perms :=
  args.foldlM (fun p arg => (parsePermission env slash arg).map (fun e =>
    channelAddPermission who dir e.1 e.2 p)) p

/-- `process_permitopen_list`. -/
def processPermitopenList (dir : Where) (opens : List Str) (p : Perms) : Option Perms :=
  let p := channelClearPermission .adm dir p
  if opens = [] then some p
  else if opens = [anyKeyword] then some p
  else if opens = [noneKeyword] then some (channelDisableAdmin dir p)
  else addPermissions env false .adm dir opens p

def processPermitopen (opts : ServerOptions) (p : Perms) : Option Perms := do
  let p ← processPermitopenList env .localFwd (opts.permitted .localFwd) p
  processPermitopenList env .remoteFwd (opts.permitted .remoteFwd) p

/-- Whether `AllowTcpForwarding` has the bit of a direction. -/
def tcpFwd (opts : ServerOptions) : Where → Bool
  | .localFwd => opts.val .allowTcpForwarding &&& forwardLocal ≠ 0
  | .remoteFwd => opts.val .allowTcpForwarding &&& forwardRemote ≠ 0

/-- The entries of the key for one direction, in `set_fwdpermit_from_authopts`. -/
def setFwdpermit (opts : ServerOptions) (auth : AuthOpts) (dir : Where) (p : Perms) :
    Option Perms :=
  if tcpFwd opts dir then
    match dir with
    | .localFwd =>
      addPermissions env true .user dir auth.permitopen (channelClearPermission .user dir p)
    | .remoteFwd =>
      addPermissions env false .user dir auth.permitlisten (channelClearPermission .user dir p)
  else some p

/-- Whether neither the key nor the configuration forbids all forwarding. -/
def forwardingEnabled (opts : ServerOptions) (auth : AuthOpts) : Bool :=
  auth.permitPortForwardingFlag && opts.val .disableForwarding = 0

/-- What `do_authenticated` does for one direction: it is disabled, or all is permitted that the
lists do not rule out. -/
def openDirection (opts : ServerOptions) (auth : AuthOpts) (dir : Where) (p : Perms) : Perms :=
  if !forwardingEnabled opts auth ∨ !tcpFwd opts dir then channelDisableAdmin dir p
  else channelPermitAll dir p

/-- `do_authenticated`, behind `process_permitopen`. -/
def doAuthenticated (opts : ServerOptions) (auth : AuthOpts) : Option Perms := do
  let p ← processPermitopen env opts {}
  let p ← setFwdpermit env opts auth .localFwd p
  let p ← setFwdpermit env opts auth .remoteFwd p
  return openDirection opts auth .remoteFwd (openDirection opts auth .localFwd p)

/-! ## Listening -/

/-- What a socket is bound to. -/
inductive Bound where
  | wildcard
  | loopback
  | addr (a : Str)
  deriving DecidableEq, Repr

/-- `channel_fwd_bind_addr` on a server: the address to bind to, and whether any will do. -/
def channelFwdBindAddr (gatewayPorts : Nat) (listenAddr : Str) : Option Str × Bool :=
  if gatewayPorts ≠ 0 then
    if listenAddr = [] ∨ listenAddr = ['*'] ∨ gatewayPorts = 1 then (none, true)
    else if listenAddr ≠ "localhost".toList then (some listenAddr, false)
    else (none, false)
  else if listenAddr = "127.0.0.1".toList ∨ listenAddr = "::1".toList then (some listenAddr, false)
  else (none, false)

/-- What `getaddrinfo` makes of the address; without one it is the loopback, unless any
address will do. -/
def boundOf : Option Str × Bool → Bound
  | (some a, _) => .addr a
  | (none, true) => .wildcard
  | (none, false) => .loopback

/-- A channel of type `SSH_CHANNEL_RPORT_LISTENER`, with what its socket is bound to. -/
structure Listener where
  path : Str
  listeningAddr : Option Str
  listeningPort : Int
  bound : Bound
  localPort : Nat
  deriving DecidableEq, Repr

/-- What the system answers: whether a connection can be started, the ports of the sockets that
listen where they are asked to, whether a socket listens on a path, and whether there is a
tunnel device. -/
structure Os where
  connect : Str → Int → Bool
  listen : Bound → Int → List Nat
  listenPath : Str → Bool
  tunOpen : Nat → Bool

/-- `NI_MAXHOST`. -/
def niMaxhost : Nat := 1025

/-- `channel_setup_fwd_listener_tcpip`: the channels of the new listeners, none where it
fails, and the port that was allocated for a request of port 0. -/
def channelSetupFwdListenerTcpip (os : Os) (gatewayPorts : Nat) (listenHost : Str)
    (listenPort : Int) : List Listener × Int :=
  if niMaxhost ≤ listenHost.length then ([], 0)
  else
    let addr := channelFwdBindAddr gatewayPorts listenHost
    let ports := os.listen (boundOf addr) listenPort
    let allocated : Int := if listenPort = 0 then ports.head?.elim 0 Int.ofNat else 0
    (ports.map (fun port =>
      { path := listenHost
        listeningAddr := addr.1
        listeningPort := if listenPort = 0 then allocated else listenPort
        bound := boundOf addr
        localPort := port }), allocated)

/-! ## Requests -/

/-- A session: its permissions and its channels. -/
structure Session where
  perms : Perms
  listeners : List Listener := []
  unixListeners : List Str := []
  connecting : List (Str × Int) := []
  tunnels : Nat := 0

inductive ClientRequest where
  | directTcpip (target : Str) (targetPort : Nat) (originatorPort : Nat)
  | directStreamlocal (target : Str) (originatorPort : Nat)
  | tun (mode : Nat)
  | tcpipForward (listenHost : Str) (port : Nat) (wantReply : Bool)
  | cancelTcpipForward (listenHost : Str) (port : Nat)
  | streamlocalForward (path : Str)
  | cancelStreamlocalForward (path : Str)
  deriving DecidableEq, Repr

variable (opts : ServerOptions) (auth : AuthOpts)

def intMax : Nat := 2 ^ 31 - 1

/-- `server_request_direct_tcpip`. -/
def serverRequestDirectTcpip (os : Os) (target : Str) (targetPort originatorPort : Nat)
    (s : Session) : Bool × Session :=
  if 0xFFFF < targetPort ∨ 0xFFFF < originatorPort then (false, s)
  else if tcpFwd opts .localFwd && auth.permitPortForwardingFlag &&
      opts.val .disableForwarding = 0 then
    if checkOpenPermission s.perms target targetPort && os.connect target targetPort then
      (true, { s with connecting := s.connecting ++ [(target, (targetPort : Int))] })
    else (false, s)
  else (false, s)

/-- `server_request_direct_streamlocal`. -/
def serverRequestDirectStreamlocal (os : Os) (target : Str) (originatorPort : Nat)
    (s : Session) : Bool × Session :=
  if 0xFFFF < originatorPort then (false, s)
  else if opts.val .allowStreamlocalForwarding &&& forwardLocal ≠ 0 &&
      auth.permitPortForwardingFlag && opts.val .disableForwarding = 0 then
    if checkOpenPermission s.perms target portStreamlocal && os.connect target portStreamlocal then
      (true, { s with connecting := s.connecting ++ [(target, portStreamlocal)] })
    else (false, s)
  else (false, s)

/-- `server_request_tun`, without a device that the key prescribes. -/
def serverRequestTun (os : Os) (mode : Nat) (s : Session) : Bool × Session :=
  if mode ≠ 1 ∧ mode ≠ 2 then (false, s)
  else if opts.val .permitTun &&& mode = 0 then (false, s)
  else if os.tunOpen mode then (true, { s with tunnels := s.tunnels + 1 })
  else (false, s)

/-- `channel_setup_remote_fwd_listener` for a host. -/
def channelSetupRemoteFwdListener (os : Os) (listenHost : Str) (listenPort : Int)
    (s : Session) : Bool × Session :=
  if checkRfwdPermission s.perms { listenHost := some listenHost, listenPort := listenPort } then
    let new := channelSetupFwdListenerTcpip os (opts.val .gatewayPorts) listenHost listenPort
    (new.1 ≠ [], { s with listeners := s.listeners ++ new.1 })
  else (false, s)

/-- The branch for `tcpip-forward` in `server_input_global_request`. -/
def requestTcpipForward (os : Os) (listenHost : Str) (port : Nat) (wantReply : Bool)
    (s : Session) : Bool × Session :=
  if intMax < port ∨ !tcpFwd opts .remoteFwd ∨ !auth.permitPortForwardingFlag ∨
      opts.val .disableForwarding ≠ 0 ∨ (!wantReply ∧ port = 0) then (false, s)
  else channelSetupRemoteFwdListener opts os listenHost port s

/-- `channel_cancel_rport_listener_tcpip`; the port is cut to 16 bits on the way. -/
def channelCancelRportListenerTcpip (host : Str) (port : Nat) (s : Session) : Bool × Session :=
  let doomed := fun (l : Listener) => l.path = host && l.listeningPort = (port % 65536 : Nat)
  (s.listeners.any doomed, { s with listeners := s.listeners.filter (fun l => !doomed l) })

/-- The size of `sun_path`. -/
def sunPathSize : Nat := 108

/-- The branch for `streamlocal-forward@openssh.com`; every path is permitted. -/
def requestStreamlocalForward (os : Os) (path : Str) (s : Session) : Bool × Session :=
  if opts.val .allowStreamlocalForwarding &&& forwardRemote = 0 ∨
      !auth.permitPortForwardingFlag ∨ opts.val .disableForwarding ≠ 0 then (false, s)
  else if checkRfwdPermission s.perms { listenPath := some path } then
    if path.length ≤ sunPathSize ∧ os.listenPath path then
      (true, { s with unixListeners := s.unixListeners ++ [path] })
    else (false, s)
  else (false, s)

/-- What a request of the client does, with whether it succeeds. -/
def Session.request (os : Os) (r : ClientRequest) (s : Session) : Bool × Session :=
  match r with
  | .directTcpip target targetPort originatorPort =>
    serverRequestDirectTcpip opts auth os target targetPort originatorPort s
  | .directStreamlocal target originatorPort =>
    serverRequestDirectStreamlocal opts auth os target originatorPort s
  | .tun mode => serverRequestTun opts os mode s
  | .tcpipForward listenHost port wantReply =>
    requestTcpipForward opts auth os listenHost port wantReply s
  | .cancelTcpipForward listenHost port =>
    if port ≤ intMax then channelCancelRportListenerTcpip listenHost port s else (false, s)
  | .streamlocalForward path => requestStreamlocalForward opts auth os path s
  | .cancelStreamlocalForward path =>
    (s.unixListeners.any (· = path), { s with unixListeners := s.unixListeners.filter (· ≠ path) })

/-- What may happen to a session: a request, or the end of a connection. -/
inductive SessionAction where
  | request (os : Os) (r : ClientRequest)
  | closed (target : Str) (port : Int)

def Session.step (s : Session) : SessionAction → Option Session
  | .request os r => some (s.request opts auth os r).2
  | .closed target port => some { s with connecting := s.connecting.erase (target, port) }

end CMXSafe.OpenSSH
