import CMXSafe.OpenSSH.Agent

/-!
# Forwarding specifications

`readconf.c`: what stands behind `-L`, `-R` and `-D`, split into fields and read as a
forward, and the lists of forwards that the options of a command line make.
-/

namespace CMXSafe.OpenSSH
open Strings

/-- `dollar_expand`, with the name of the variable being read, if any; the result is `none` also
where a variable has no value. -/
def dollarExpandFrom (getenv : Str → Option Str) : Option Str → Str → Option Str
  | none, [] => some []
  | some _, [] => none
  | none, '$' :: '{' :: s => dollarExpandFrom getenv (some []) s
  | none, c :: s => (dollarExpandFrom getenv none s).map (c :: ·)
  | some var, c :: s =>
    if c = '}' then
      if var = [] then none
      else (getenv var).bind (fun val => (dollarExpandFrom getenv none s).map (val ++ ·))
    else dollarExpandFrom getenv (some (var ++ [c])) s

def dollarExpand (getenv : Str → Option Str) (s : Str) : Option Str :=
  dollarExpandFrom getenv none s

/-- `struct fwdarg`. -/
structure FwdArg where
  arg : Str
  ispath : Bool
  deriving DecidableEq, Repr

/-- A field without brackets, with what follows its colon. It fails at a backslash that escapes
nothing; what is left then is the text in front of it, each backslash taken off. -/
def parsePlainField : Str → Except Str (FwdArg × Str)
  | [] => .ok (⟨[], false⟩, [])
  | ['\\'] => .error []
  | '\\' :: c :: s =>
    match parsePlainField s with
    | .ok (fwd, rest) => .ok (⟨c :: fwd.arg, fwd.ispath⟩, rest)
    | .error left => .error (c :: left)
  | c :: s =>
    if c = ':' then .ok (⟨[], false⟩, s)
    else
      match parsePlainField s with
      | .ok (fwd, rest) => .ok (⟨c :: fwd.arg, c = '/' || fwd.ispath⟩, rest)
      | .error left => .error (c :: left)

/-- `parse_fwd_field`: the next field and what follows it, or what is left where there is none. -/
def parseFwdField (s : Str) : Except Str (FwdArg × Str) :=
  if s = [] then .error []
  else if s.head? = some '[' then
    let arg := s.tail.takeWhile (· != ']')
    match s.tail.dropWhile (· != ']') with
    | [']'] => .ok (⟨arg, '/' ∈ arg⟩, [])
    | ']' :: ':' :: rest => .ok (⟨arg, '/' ∈ arg⟩, rest)
    | _ => .error s
  else parsePlainField s

/-- The loop of `parse_forward`: the fields, and what is left behind them. -/
def parseFwdFields : Nat → Str → List FwdArg × Str
  | 0, s => ([], s)
  | n + 1, s =>
    match parseFwdField s with
    | .ok (fwd, rest) =>
      let fields := parseFwdFields n rest
      (fwd :: fields.1, fields.2)
    | .error left => ([], left)

/-- `struct Forward` as a specification fills it. -/
structure ForwardSpec extends Forward where
  connectHost : Option Str := none
  connectPort : Int := 0
  connectPath : Option Str := none
  deriving DecidableEq, Repr

def socks : Str := "socks".toList

/-- The `switch` of `parse_forward` on the number of fields. -/
def forwardOfFields (services : Str → Option Int) (fields : List FwdArg) : Option ForwardSpec :=
  let port := fun (a : FwdArg) => (a2port services a.arg).getD (-1)
  match fields with
  | [a] =>
    if a.ispath then
      some { listenPath := some a.arg, listenPort := portStreamlocal, connectHost := some socks }
    else some { listenPort := port a, connectHost := some socks }
  | [a, b] =>
    if a.ispath ∧ b.ispath then
      some { listenPath := some a.arg
             listenPort := portStreamlocal
             connectPath := some b.arg
             connectPort := portStreamlocal }
    else if b.ispath then
      some { listenPort := port a, connectPath := some b.arg, connectPort := portStreamlocal }
    else some { listenHost := some a.arg, listenPort := port b, connectHost := some socks }
  | [a, b, c] =>
    if a.ispath then
      some { listenPath := some a.arg
             listenPort := portStreamlocal
             connectHost := some b.arg
             connectPort := port c }
    else if c.ispath then
      some { listenHost := some a.arg
             listenPort := port b
             connectPath := some c.arg
             connectPort := portStreamlocal }
    else some { listenPort := port a, connectHost := some b.arg, connectPort := port c }
  | [a, b, c, d] =>
    some { listenHost := some a.arg
           listenPort := port b
           connectHost := some c.arg
           connectPort := port d }
  | _ => none

/-- The checks behind the `switch`; the size of a path is bounded by `PATH_MAX_SUN`. -/
def ForwardSpec.accepted (dynamicfwd remotefwd : Bool) (n : Nat) (fwd : ForwardSpec) : Bool :=
  (if dynamicfwd then n = 1 || n = 2
    else
      (n = 3 || n = 4 || fwd.connectPath.isSome || fwd.listenPath.isSome) &&
        (0 < fwd.connectPort || fwd.connectPath.isSome)) &&
    (0 ≤ fwd.listenPort || fwd.listenPath.isSome) && (remotefwd || fwd.listenPort ≠ 0) &&
    fwd.connectHost.all (fun host => host.length < niMaxhost) &&
    fwd.connectPath.all (fun path => path.length < sunPathSize) &&
    fwd.listenHost.all (fun host => host.length < niMaxhost) &&
    fwd.listenPath.all (fun path => path.length < sunPathSize)

/-- `parse_forward`. -/
def parseForward (getenv : Str → Option Str) (services : Str → Option Int) (fwdspec : Str)
    (dynamicfwd remotefwd : Bool) : Option ForwardSpec :=
  (dollarExpand getenv fwdspec).bind (fun text =>
    let fields := parseFwdFields 4 (text.dropWhile isCSpace)
    if fields.2 ≠ [] then none
    else (forwardOfFields services fields.1).filter
      (ForwardSpec.accepted dynamicfwd remotefwd fields.1.length))

/-! ## The options of a client -/

inductive ForwardFlag where
  | L
  | R
  | D
  deriving DecidableEq, Repr

/-- What `main` of `ssh.c` does with the text behind a flag. -/
def forwardOption (getenv : Str → Option Str) (services : Str → Option Int) (fwdspec : Str) :
    ForwardFlag → Option ForwardSpec
  | .L => parseForward getenv services fwdspec false false
  | .R => (parseForward getenv services fwdspec false true).or
      (parseForward getenv services fwdspec true true)
  | .D => parseForward getenv services fwdspec true false

/-- `add_local_forward` and `add_remote_forward`: duplicates are left out. -/
def addForward (fwds : List ForwardSpec) (fwd : ForwardSpec) : List ForwardSpec :=
  if fwd ∈ fwds then fwds else fwds ++ [fwd]

structure ForwardOptions where
  localForwards : List ForwardSpec := []
  remoteForwards : List ForwardSpec := []
  exitOnForwardFailure : Bool := false
  deriving DecidableEq, Repr

def ForwardOptions.add (options : ForwardOptions) (fwd : ForwardSpec) : ForwardFlag → ForwardOptions
  | .R => { options with remoteForwards := addForward options.remoteForwards fwd }
  | _ => { options with localForwards := addForward options.localForwards fwd }

/-- The forwards of a command line; a bad specification ends the client. -/
def readForwards (getenv : Str → Option Str) (services : Str → Option Int)
    (argv : List (ForwardFlag × Str)) : Option ForwardOptions :=
  argv.foldlM (fun options arg =>
    (forwardOption getenv services arg.2 arg.1).map (fun fwd => options.add fwd arg.1)) {}

end CMXSafe.OpenSSH
