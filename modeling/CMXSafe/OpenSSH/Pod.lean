import CMXSafe.OpenSSH.Session

/-!
# The sessions of one sshd

Users log in and out and use their sessions in any order. A session keeps the options that its
connection has been given.
-/

namespace CMXSafe.OpenSSH
open Strings

structure Login where
  ci : ConnectionInfo
  auth : AuthOpts
  opts : ServerOptions
  session : Session

variable (env : Env) (other : Str → Option Bool) (cfg : List Str)

/-- A login with a key that is in order: the options for the connection, the user lists of
`allowed_user`, and the session with its first permissions. -/
def login (ci : ConnectionInfo) (auth : AuthOpts) : Option Login := do
  let opts ← serverOptions env other cfg ci
  let allowed ← allowedUser env opts ci
  if !allowed then none
  let perms ← doAuthenticated env opts auth
  return { ci := ci, auth := auth, opts := opts, session := { perms := perms } }

inductive PodAction where
  | login (ci : ConnectionInfo) (auth : AuthOpts)
  | act (i : Nat) (a : SessionAction)
  | logout (i : Nat)

/-- One step of anybody; the sessions stand in the order of the logins. -/
def gatewayStep (pod : List Login) : PodAction → Option (List Login)
  | .login ci auth => (login env other cfg ci auth).map (fun l => pod ++ [l])
  | .act i a => do
    let l ← pod[i]?
    let s ← l.session.step l.opts l.auth a
    return pod.set i { l with session := s }
  | .logout i => some (pod.eraseIdx i)

end CMXSafe.OpenSSH
