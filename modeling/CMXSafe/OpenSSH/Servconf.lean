import CMXSafe.OpenSSH.Channels
import CMXSafe.OpenSSH.Misc
import Mathlib.Data.List.DropRight
import Mathlib.Logic.Function.Basic

/-!
# The server configuration

`servconf.c`: the options of a connection. The file is read twice, first for its global part
and then for the `Match` blocks that the connection meets; what the second pass sets replaces
what the first has set.
-/

namespace CMXSafe.OpenSSH
open Strings

/-- What the parser asks the system: TCP services, matching of addresses (`addrmatch.c`) and
the groups of a user. -/
structure Env where
  getservbyname : Str → Option Int
  addrMatchList : Option Str → Str → Int
  matchGroup : Str → Str → Bool

structure ConnectionInfo where
  user : Str
  host : Str
  address : Str
  laddress : Str
  lport : Int
  rdomain : Option Str

/-! ## Words of a `Match` line -/

def isWhitespace (c : Char) : Bool := c = ' ' || c = '\t' || c = '\r' || c = '\n'

def isDelim (c : Char) : Bool := isWhitespace c || c = '"' || c = '='

/-- `strdelim`: the next word and what is left, with `none` for `NULL`. -/
def strdelim : Option Str → Option Str × Option Str
  | none => (none, none)
  | some s =>
    let old := s.takeWhile (fun c => !isDelim c)
    match s.dropWhile (fun c => !isDelim c) with
    | [] => (some s, none)
    | c :: post =>
      if c = '"' then
        -- the word goes on to the closing quote
        match post.dropWhile (· ≠ '"') with
        | [] => (none, none)
        | _ :: rest => (some (old ++ post.takeWhile (· ≠ '"')), some (rest.dropWhile isWhitespace))
      else
        let rest := post.dropWhile isWhitespace
        -- one `=` is passed over
        if c ≠ '=' ∧ rest.head? = some '=' then (some old, some (rest.tail.dropWhile isWhitespace))
        else (some old, some rest)

/-- Whether `strcasecmp` is 0. -/
def strcasecmp : Str → Str → Bool
  | [], [] => true
  | c :: s, d :: t => c.toLower = d.toLower && strcasecmp s t
  | _, _ => false

/-- What one criterion of a `Match` line says about a connection; without a connection only
its syntax counts, and `none` is an error. -/
def matchAttribute (env : Env) (ci : Option ConnectionInfo) (attrib arg : Str) : Option Bool :=
  if strcasecmp attrib "user".toList then
    some (ci.any (fun ci => matchUsergroupPatternList ci.user arg = 1))
  else if strcasecmp attrib "group".toList then
    some (ci.any (fun ci => env.matchGroup ci.user arg))
  else if strcasecmp attrib "host".toList then
    some (ci.any (fun ci => matchHostname ci.host arg = 1))
  else if strcasecmp attrib "address".toList then
    matchAddress (ci.map ConnectionInfo.address) arg
  else if strcasecmp attrib "localaddress".toList then
    matchAddress (ci.map ConnectionInfo.laddress) arg
  else if strcasecmp attrib "localport".toList then
    match a2port env.getservbyname arg with
    | some port => some (ci.any (fun ci => port = ci.lport))
    | none => none
  else if strcasecmp attrib "rdomain".toList then
    match ci with
    | none => some false
    | some ci => ci.rdomain.map (fun rdomain => matchPatternList rdomain arg false = 1)
  else none
where
  matchAddress : Option Str → Str → Option Bool
    | none, arg => if env.addrMatchList none arg = 0 then some false else none
    | some address, arg =>
      if env.addrMatchList (some address) arg = -2 then none
      else some (env.addrMatchList (some address) arg = 1)

/-- `match_cfg_line`: whether all criteria are met, and what is left of the line; `none` where
it is malformed. Each turn takes two words off the line, which bounds the first argument. -/
def matchCfgLine (env : Env) (ci : Option ConnectionInfo) :
    Nat → Bool → Nat → Option Str → Option (Bool × Option Str)
  | 0, _, _, _ => none
  | fuel + 1, result, attributes, cp =>
    match strdelim cp with
    | (none, cp) => if attributes = 0 then none else some (result, cp)
    | (some attrib, cp) =>
      if attrib = [] then if attributes = 0 then none else some (result, cp)
      else if attrib.head? = some '#' then if attributes = 0 then none else some (result, none)
      else
        let next := strdelim cp
        let absent := next.1.all (fun arg => arg = [] || arg.head? = some '#')
        if strcasecmp attrib "all".toList then
          if attributes ≠ 0 ∨ !absent then none
          else some (true, if next.1.any (fun arg => arg.head? = some '#') then none else next.2)
        else if absent then none
        else
          match matchAttribute env ci attrib (next.1.getD []) with
          | some met => matchCfgLine env ci fuel (result && met) (attributes + 1) next.2
          | none => none

/-! ## Options -/

/-- The options that the parser keeps as integers. -/
inductive IntOption where
  | allowTcpForwarding
  | allowStreamlocalForwarding
  | disableForwarding
  | gatewayPorts
  | permitTun
  deriving DecidableEq, Repr

inductive UserList where
  | allowUsers
  | denyUsers
  deriving DecidableEq, Repr

/-- An integer that is not set is `none`, -1 in the source. -/
structure ServerOptions where
  int : IntOption → Option Nat := fun _ => none
  /-- `permitted_opens` and `permitted_listens`. -/
  permitted : Where → List Str := fun _ => []
  users : UserList → List Str := fun _ => []
  admForcedCommand : Option Str := none

def forwardDeny : Nat := 0
def forwardRemote : Nat := 1
def forwardLocal : Nat := 2
def forwardAllow : Nat := 3

def multistateFlag : List (String × Nat) := [("yes", 1), ("no", 0)]

def multistateGatewayports : List (String × Nat) := [("clientspecified", 2), ("yes", 1), ("no", 0)]

def multistateTcpfwd : List (String × Nat) :=
  [("yes", forwardAllow), ("all", forwardAllow), ("no", forwardDeny), ("remote", forwardRemote),
    ("local", forwardLocal)]

def tunmodeDesc : List (String × Nat) :=
  [("no", 0), ("point-to-point", 1), ("ethernet", 2), ("yes", 3)]

/-- The value of an argument; the modes of a tunnel are compared with regard to case. -/
def IntOption.value (o : IntOption) (arg : Str) : Option Nat :=
  let find := fun (table : List (String × Nat)) (eq : Str → Bool) =>
    (table.find? (fun e => eq e.1.toList)).map Prod.snd
  match o with
  | .allowTcpForwarding => find multistateTcpfwd (strcasecmp arg)
  | .allowStreamlocalForwarding => find multistateTcpfwd (strcasecmp arg)
  | .disableForwarding => find multistateFlag (strcasecmp arg)
  | .gatewayPorts => find multistateGatewayports (strcasecmp arg)
  | .permitTun => find tunmodeDesc (fun key => arg = key)

/-- `fill_default_server_options`. -/
def IntOption.default : IntOption → Nat
  | .allowTcpForwarding => forwardAllow
  | .allowStreamlocalForwarding => forwardAllow
  | .disableForwarding => 0
  | .gatewayPorts => 0
  | .permitTun => 0

/-! ## Lines -/

inductive ServerOpCode where
  | int (o : IntOption)
  | permit (dir : Where)
  | users (l : UserList)
  | forceCommand
  | matchBlock
  | includeFiles
  /-- A directive that this development does not interpret, with whether it may stand in a
  `Match` block. -/
  | other (inMatch : Bool)
  deriving DecidableEq, Repr

def keywords : List (String × ServerOpCode) :=
  [("allowtcpforwarding", .int .allowTcpForwarding),
    ("allowstreamlocalforwarding", .int .allowStreamlocalForwarding),
    ("disableforwarding", .int .disableForwarding), ("gatewayports", .int .gatewayPorts),
    ("permittunnel", .int .permitTun), ("permitopen", .permit .localFwd),
    ("permitlisten", .permit .remoteFwd), ("allowusers", .users .allowUsers),
    ("denyusers", .users .denyUsers), ("forcecommand", .forceCommand), ("match", .matchBlock),
    ("include", .includeFiles)]

variable (env : Env)

/-- `parse_token`; what is not listed is left to the second argument. -/
def parseToken (other : Str → Option Bool) (keyword : Str) : Option ServerOpCode :=
  match keywords.find? (fun e => strcasecmp keyword e.1.toList) with
  | some e => some e.2
  | none => (other keyword).map .other

/-- `SSHCFG_MATCH` of an opcode. -/
def ServerOpCode.inMatch : ServerOpCode → Bool
  | .other inMatch => inMatch
  | _ => true

/-- An entry of `PermitOpen` or `PermitListen` as it is stored, `none` where it is malformed.
`PermitListen` takes a bare port for any host. -/
def permitArg (dir : Where) (arg : Str) : Option Str :=
  if dir = .remoteFwd ∧ ':' ∉ arg then
    (permitopenPort env.getservbyname arg).map (fun _ => '*' :: ':' :: arg)
  else
    match hpdelim arg with
    | some (_, some port) => (permitopenPort env.getservbyname port).map (fun _ => arg)
    | _ => none

def anyKeyword : Str := "any".toList
def noneKeyword : Str := "none".toList

/-- The entries of a `PermitOpen` or `PermitListen` line. -/
def permitArgs (dir : Where) (av : List Str) : Option (List Str) :=
  match av with
  | [] => none
  | arg :: rest =>
    if arg = [] then none
    else if arg = anyKeyword ∨ arg = noneKeyword then if rest = [] then some [arg] else none
    else if ((arg :: rest).dropWhile (· ≠ [])).tail ≠ [] then none
    else ((arg :: rest).takeWhile (· ≠ [])).mapM (permitArg env dir)

/-- `match_user` without a connection, which only looks at the addresses of the pattern. -/
def validUserPattern (pattern : Str) : Bool :=
  pattern ≠ [] && ('@' ∉ pattern ||
    env.addrMatchList none (pattern.dropWhile (· ≠ '@')).tail ≠ -2)

/-- An option that an earlier line has set stays as it is. -/
def ServerOptions.setInt (o : IntOption) (value : Nat) (opts : ServerOptions) : ServerOptions :=
  { opts with int := Function.update opts.int o ((opts.int o).or (some value)) }

def ServerOptions.setPermitted (dir : Where) (entries : List Str) (opts : ServerOptions) :
    ServerOptions :=
  { opts with
    permitted := Function.update opts.permitted dir
      (if opts.permitted dir = [] then entries else opts.permitted dir) }

def ServerOptions.addUsers (l : UserList) (patterns : List Str) (opts : ServerOptions) :
    ServerOptions :=
  { opts with users := Function.update opts.users l (opts.users l ++ patterns) }

def ServerOptions.setForceCommand (command : Str) (opts : ServerOptions) : ServerOptions :=
  { opts with admForcedCommand := opts.admForcedCommand.or (some command) }

/-- What a directive does to the options, `none` where its arguments are malformed. The words
are those of `argv_split`, the text is what stands behind the keyword. `Include` reads other
files, and is not modelled: a text with such a line has no result here. -/
def applyDirective (opcode : ServerOpCode) (str : Str) (av : List Str) :
    Option (ServerOptions → ServerOptions) :=
  match opcode with
  | .int o =>
    match av with
    | [arg] => (o.value arg).map (ServerOptions.setInt o)
    | _ => none
  | .permit dir => (permitArgs env dir av).map (ServerOptions.setPermitted dir)
  | .users l => if av.all (validUserPattern env) then some (.addUsers l av) else none
  | .forceCommand => some (.setForceCommand (str.dropWhile isWhitespace))
  | .matchBlock => none
  | .includeFiles => none
  | .other _ => some id

/-- Trailing white space goes, except for the first character of the line. -/
def stripTrailing : Str → Str
  | [] => []
  | c :: line => c :: line.rdropWhile (fun c => isWhitespace c || c = '\x0c')

/-- A line as keyword and text behind it, `none` for a blank line or a comment. -/
def splitLine (line : Str) : Option (Str × Option Str) :=
  let first := strdelim (some (stripTrailing line))
  let word := if first.1 = some [] then strdelim first.2 else first
  match word with
  | (some keyword, str) =>
    if keyword = [] ∨ keyword.head? = some '#' then none else some (keyword, str)
  | (none, _) => none

/-- The options read so far, and whether the lines to come are in force. -/
structure Parse where
  options : ServerOptions := {}
  active : Bool

variable (other : Str → Option Bool) (ci : Option ConnectionInfo)

/-- A `Match` line, with what it says about the lines to come. -/
def processMatch (str : Str) (av : List Str) : Option Bool :=
  match matchCfgLine env ci (str.length + 1) true 0 (some str) with
  | some (result, rest) => if rest.getD [] ≠ [] ∧ av ≠ [] then none else some result
  | none => none

/-- `process_server_config_line`; the result is `none` where sshd does not start, or drops the
connection, and for an `Include`. -/
def processServerConfigLine (st : Parse) (line : Str) : Option Parse :=
  if line = [] then some st
  else
    match splitLine line with
    | none => some st
    | some (keyword, str) =>
      let str := str.getD []
      match parseToken other keyword, argvSplit str with
      | some opcode, some av =>
        if str = [] then none
        else if !st.active ∧ !opcode.inMatch then if ci.isNone then none else some st
        else if opcode = .matchBlock then
          (processMatch env ci str av).map (fun active => { st with active := active })
        else
          match applyDirective env opcode str av with
          | some set => some (if st.active then { st with options := set st.options } else st)
          | none => none
      | _, _ => none

/-- `load_server_config`: the lines of the buffer. -/
def loadServerConfig (file : List Str) : List Str :=
  file.map (List.dropWhile (fun c => c = ' ' || c = '\t' || c = '\r'))

/-- `parse_server_config`: without a connection the lines in front of the first `Match` are in
force, with one they are not. -/
def parseServerConfig (cfg : List Str) : Option ServerOptions :=
  (cfg.foldlM (processServerConfigLine env other ci) { active := ci.isNone }).map Parse.options

/-- `fill_default_server_options`. -/
def fillDefaultServerOptions (opts : ServerOptions) : ServerOptions :=
  { opts with int := fun o => (opts.int o).or (some o.default) }

/-- `copy_set_server_options`; `none` as a forced command takes away a global one. -/
def copySetServerOptions (dst src : ServerOptions) : ServerOptions where
  int o := (src.int o).or (dst.int o)
  permitted dir := if src.permitted dir = [] then dst.permitted dir else src.permitted dir
  users l := if src.users l = [] then dst.users l else src.users l
  admForcedCommand :=
    let command := src.admForcedCommand.or dst.admForcedCommand
    if command.all (fun c => strcasecmp c noneKeyword) then none else command

/-- The options for a connection: the global ones at the start of sshd, then
`parse_server_match_config`. -/
def serverOptions (cfg : List Str) (ci : ConnectionInfo) : Option ServerOptions := do
  let options ← parseServerConfig env other none cfg
  let mo ← parseServerConfig env other (some ci) cfg
  return copySetServerOptions (fillDefaultServerOptions options) mo

/-- The value of an option, all of which have a default. -/
def ServerOptions.val (opts : ServerOptions) (o : IntOption) : Nat := (opts.int o).getD o.default

/-! ## Who may log in -/

/-- `match_host_and_ip`. -/
def matchHostAndIp (ci : ConnectionInfo) (patterns : Str) : Int :=
  let mip := env.addrMatchList (some ci.address) patterns
  if mip = -2 then -1
  else if mip = -1 then 0
  else
    let mhost := matchHostname ci.host patterns
    if mhost = -1 ∨ mhost = 0 ∧ mip = 0 then 0 else 1

/-- Whether some pattern of a list matches the user; an invalid pattern ends the connection. -/
def matchUsers (ci : ConnectionInfo) : List Str → Option Bool
  | [] => some false
  | pattern :: patterns =>
    let r := matchUser ci.user (matchHostAndIp env ci) pattern
    if r < 0 then none else if r ≠ 0 then some true else matchUsers ci patterns

/-- The lists of users in `allowed_user`. -/
def allowedUser (opts : ServerOptions) (ci : ConnectionInfo) : Option Bool := do
  let denied ← matchUsers env ci (opts.users .denyUsers)
  if denied then return false
  if opts.users .allowUsers = [] then return true
  matchUsers env ci (opts.users .allowUsers)

end CMXSafe.OpenSSH
