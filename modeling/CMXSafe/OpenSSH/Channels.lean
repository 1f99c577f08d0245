import CMXSafe.OpenSSH.Match

/-!
# Forwarding permissions of a session

`channels.c`: the lists of what the user and the administrator permit in each direction, and
how a request is matched against them.
-/

namespace CMXSafe.OpenSSH
open Strings

def portStreamlocal : Int := -2

/-- `struct permission`; without multiplexing there is no downstream. -/
structure Permission where
  hostToConnect : Option Str := none
  portToConnect : Int := 0
  listenHost : Option Str := none
  listenPath : Option Str := none
  listenPort : Int := 0
  deriving DecidableEq, Repr

structure PermissionSet where
  permittedUser : List Permission := []
  permittedAdmin : List Permission := []
  allPermitted : Bool := false
  deriving DecidableEq, Repr

inductive Who where
  | user
  | adm
  deriving DecidableEq, Repr

/-- The directions, `FORWARD_LOCAL` and `FORWARD_REMOTE`. -/
inductive Where where
  | localFwd
  | remoteFwd
  deriving DecidableEq, Repr

/-- The permissions in `struct ssh_channels`. -/
structure Perms where
  localPerms : PermissionSet := {}
  remotePerms : PermissionSet := {}
  deriving DecidableEq, Repr

def Perms.set (p : Perms) : Where → PermissionSet
  | .localFwd => p.localPerms
  | .remoteFwd => p.remotePerms

def Perms.modify (f : PermissionSet → PermissionSet) : Where → Perms → Perms
  | .localFwd, p => { p with localPerms := f p.localPerms }
  | .remoteFwd, p => { p with remotePerms := f p.remotePerms }

def PermissionSet.array (p : PermissionSet) : Who → List Permission
  | .user => p.permittedUser
  | .adm => p.permittedAdmin

def PermissionSet.setArray (perms : List Permission) : Who → PermissionSet → PermissionSet
  | .user, p => { p with permittedUser := perms }
  | .adm, p => { p with permittedAdmin := perms }

def permissionSetAdd (who : Who) (dir : Where) (perm : Permission) : Perms → Perms :=
  Perms.modify (fun p => p.setArray (p.array who ++ [perm]) who) dir

def channelClearPermission (who : Who) (dir : Where) : Perms → Perms :=
  Perms.modify (PermissionSet.setArray [] who) dir

def channelPermitAll (dir : Where) : Perms → Perms :=
  Perms.modify (fun p => if p.permittedUser = [] then { p with allPermitted := true } else p) dir

/-- What `channel_add_permission` enters for a host and a port. -/
def addedPermission (dir : Where) (host : Str) (port : Int) : Permission :=
  match dir with
  | .localFwd => { hostToConnect := some host, portToConnect := port }
  | .remoteFwd => { listenHost := some host, listenPort := port }

def channelAddPermission (who : Who) (dir : Where) (host : Str) (port : Int) (p : Perms) : Perms :=
  Perms.modify (fun q => { q with allPermitted := false }) dir
    (permissionSetAdd who dir (addedPermission dir host port) p)

/-- Disables the direction: the one entry of the administrator's list matches nothing. -/
def channelDisableAdmin (dir : Where) (p : Perms) : Perms :=
  permissionSetAdd .adm dir {} (channelClearPermission .adm dir p)

def fwdPermitAnyHost : Str := ['*']

def openMatch (allowedOpen : Permission) (requestedhost : Str) (requestedport : Int) : Bool :=
  match allowedOpen.hostToConnect with
  | none => false
  | some host =>
    (allowedOpen.portToConnect = 0 || allowedOpen.portToConnect = requestedport) &&
      (host = fwdPermitAnyHost || host = requestedhost)

/-- `struct Forward` as a request to listen fills it. -/
structure Forward where
  listenHost : Option Str := none
  listenPort : Int := 0
  listenPath : Option Str := none
  deriving DecidableEq, Repr

def remoteOpenMatch (allowedOpen : Permission) (fwd : Forward) : Bool :=
  if fwd.listenPath.isSome then true
  else
    match fwd.listenHost, allowedOpen.listenHost with
    | some lhost, some host =>
      (allowedOpen.listenPort = 0 || allowedOpen.listenPort = fwd.listenPort) &&
        matchPattern (lowercase lhost) host
    | _, _ => false

/-- The test that opens and listens share: the user's list must permit a request, and the
administrator's list must, unless it is empty. -/
def PermissionSet.permits (p : PermissionSet) (matched : Permission → Bool) : Bool :=
  (p.allPermitted || p.permittedUser.any matched) &&
    (p.permittedAdmin = [] || p.permittedAdmin.any matched)

def checkRfwdPermission (p : Perms) (fwd : Forward) : Bool :=
  p.remotePerms.permits (fun perm => remoteOpenMatch perm fwd)

/-- The test of `channel_connect_to_port` and, for `port = PORT_STREAMLOCAL`, of
`channel_connect_to_path`. -/
def checkOpenPermission (p : Perms) (host : Str) (port : Int) : Bool :=
  p.localPerms.permits (fun perm => openMatch perm host port)

end CMXSafe.OpenSSH
