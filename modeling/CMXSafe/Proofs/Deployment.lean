import CMXSafe.Gateway.SshdConfig
import CMXSafe.Proofs.Addresses
import CMXSafe.Proofs.Entries
import CMXSafe.Proofs.Sessions

/-!
# What the gateway lets each user do

A configuration with one `Match User` block for each device gives every user a policy of its
own; this is the policy that the deployed one gives.
-/

namespace CMXSafe.Proofs
open OpenSSH Gateway Strings Globs Machines

/-! ## Blocks for one user -/

/-- A user name that a `Match User` line takes literally. -/
structure PlainUser (u : Str) : Prop where
  bare : Bare u
  plain : ∀ c ∈ u, c ≠ '*' ∧ c ≠ '?' ∧ c ≠ ',' ∧ c ≠ '!'
  fits : u.length < subSize - 1

lemma subpatterns_plain {u : Str} (h : PlainUser u) : subpatterns u = [u] := by
  have hcomma : ',' ∉ u := fun hc => (h.plain _ hc).2.2.1 rfl
  have hsplit : split u ',' = [u] := by
    have h1 : ([','].intercalate [u]).splitOn ',' = [u] :=
      List.splitOn_intercalate ',' (by simpa using hcomma) (by simp)
    simpa [split, List.intercalate] using h1
  simp [subpatterns, hsplit, h.bare.ne_nil]

lemma matchUsergroup_plain {u : Str} (h : PlainUser u) (user : Str) :
    matchUsergroupPatternList user u = 1 ↔ user = u := by
  have hhead : u.head? ≠ some '!' := by
    intro hh
    exact (h.plain _ (List.mem_of_head? hh)).2.2.2 rfl
  have hbody : subBody u = u := by rw [subBody, if_neg hhead]
  have hmatch : matchPattern user u = true ↔ user = u :=
    matchPattern_plain (fun hc => (h.plain _ hc).1 rfl) (fun hc => (h.plain _ hc).2.1 rfl)
  have hfits : ¬subSize - 1 ≤ u.length := Nat.not_le.mpr h.fits
  rw [matchUsergroupPatternList, matchPatternList, subpatterns_plain h]
  rw [← hmatch]
  cases hu : matchPattern user u <;> simp [matchSubpatterns, hbody, hhead, hu, hfits]

/-- A `Match User` line with the lines up to the next one. -/
structure UserBlock where
  user : Str
  body : List Directive
  plain : PlainUser user
  noMatch : ∀ d ∈ body, d.opcode ≠ .matchBlock

def userKeyword : Str := "User".toList

def UserBlock.directives (b : UserBlock) : List Directive :=
  ⟨.matchBlock, userKeyword ++ ' ' :: b.user, [userKeyword, b.user]⟩ :: b.body

variable {env : Env} {other : Str → Option Bool} {ci : Option ConnectionInfo}

lemma processMatch_user {u : Str} (h : PlainUser u) (av : List Str) :
    processMatch env ci (userKeyword ++ ' ' :: u) av = some (ci.any (fun ci => ci.user = u)) := by
  have hkeyword : Bare userKeyword := bare_of_all (by decide) (by decide) (by decide)
  have hall : strcasecmp userKeyword "all".toList = false := by decide
  have hcriterion : ∀ c ∈ [(userKeyword, u)], Criterion c := by
    intro c hc
    rw [List.mem_singleton.mp hc]
    exact ⟨hkeyword, h.bare, hall⟩
  have hattr : matchAttribute env ci userKeyword u =
      some (ci.any (fun ci => matchUsergroupPatternList ci.user u = 1)) := by
    unfold matchAttribute
    rw [if_pos (by decide)]
  have htext : userKeyword ++ ' ' :: u = matchText [(userKeyword, u)] := rfl
  rw [htext, processMatch_text (by simp) hcriterion av]
  simp [List.mapM_cons, hattr, matchUsergroup_plain h]

lemma inForce_append {ds es : List Directive} (h : ∀ d ∈ ds, d.opcode ≠ .matchBlock)
    (active : Bool) :
    inForce env ci active (ds ++ es) =
      (if active then ds else []) ++ inForce env ci active es := by
  induction ds with
  | nil => simp
  | cons d ds ih =>
    have hrec := ih (fun e he => h e (List.mem_cons_of_mem _ he))
    rw [List.cons_append, inForce, if_neg (h d (by simp)), hrec]
    cases active <;> simp

/-- The blocks for the user of a connection. -/
def ownBody (user : Str) (blocks : List UserBlock) : List Directive :=
  (blocks.filter (fun b => b.user = user)).flatMap UserBlock.body

lemma inForce_blocks (blocks : List UserBlock) (active : Bool) :
    inForce env ci active (blocks.flatMap UserBlock.directives) =
      ci.elim [] (fun ci => ownBody ci.user blocks) := by
  induction blocks generalizing active with
  | nil => cases ci <;> rfl
  | cons b blocks ih =>
    rw [List.flatMap_cons, UserBlock.directives, List.cons_append, inForce, if_pos rfl,
      processMatch_user b.plain, Option.getD_some, inForce_append b.noMatch, ih]
    cases ci with
    | none => simp
    | some ci =>
      by_cases hu : ci.user = b.user
      · simp [ownBody, hu]
      · simp [ownBody, hu, Ne.symm hu]

/-- A configuration whose `Match` blocks are for one user each. -/
structure PerUser (other : Str → Option Bool) (cfg : List Str) (global : List Directive)
    (blocks : List UserBlock) : Prop where
  directives_eq : directives other cfg = global ++ blocks.flatMap UserBlock.directives
  noMatch : ∀ d ∈ global, d.opcode ≠ .matchBlock

lemma PerUser.resolved {cfg : List Str} {global : List Directive} {blocks : List UserBlock}
    (hcfg : PerUser other cfg global blocks) {ci : ConnectionInfo} {opts : ServerOptions}
    (h : serverOptions env other cfg ci = some opts) :
    Resolved env (ownBody ci.user blocks) global opts := by
  have hopts := serverOptions_eq h
  rw [hcfg.directives_eq, inForce_append hcfg.noMatch, inForce_append hcfg.noMatch, inForce_blocks,
    inForce_blocks] at hopts
  rw [hopts]
  simpa using mergedOptions_resolved (ownBody ci.user blocks) global

section
variable {cfg cfg' : List Str} {global : List Directive} {blocks blocks' : List UserBlock}
  {conn : ConnectionInfo} {opts opts' : ServerOptions}

lemma Resolved.unique {matching : List Directive} (h : Resolved env matching global opts)
    (h' : Resolved env matching global opts') :
    opts.val = opts'.val ∧ opts.permitted = opts'.permitted ∧ opts.users = opts'.users ∧
      opts.admForcedCommand = opts'.admForcedCommand :=
  ⟨funext fun o => (h.int o).trans (h'.int o).symm,
    funext fun dir => (h.permitted dir).trans (h'.permitted dir).symm,
    funext fun l => (h.users l).trans (h'.users l).symm, h.command.trans h'.command.symm⟩

/-- Blocks for other users make no difference: where two configurations have the same global
part and the same blocks for a user, the connections of the user get the same options. -/
theorem user_policy_local (hcfg : PerUser other cfg global blocks)
    (hcfg' : PerUser other cfg' global blocks')
    (hown : blocks.filter (fun b => b.user = conn.user) =
      blocks'.filter (fun b => b.user = conn.user))
    (h : serverOptions env other cfg conn = some opts)
    (h' : serverOptions env other cfg' conn = some opts') :
    opts.val = opts'.val ∧ opts.permitted = opts'.permitted ∧ opts.users = opts'.users ∧
      opts.admForcedCommand = opts'.admForcedCommand := by
  have hres := hcfg.resolved h
  have hres' := hcfg'.resolved h'
  rw [ownBody, ← hown] at hres'
  exact hres.unique hres'

end

lemma plainUser_of_all {u : Str} (h : (u ≠ [] ∧ u.head? ≠ some '#' ∧ u.length < 100) ∧
    u.all (fun c => !isDelim c && c != '*' && c != '?' && c != ',' && c != '!') = true) :
    PlainUser u := by
  have hall : ∀ c ∈ u, isDelim c = false ∧ c ≠ '*' ∧ c ≠ '?' ∧ c ≠ ',' ∧ c ≠ '!' := by
    intro c hc
    simpa [and_assoc] using List.all_eq_true.mp h.2 c hc
  exact ⟨⟨h.1.1, fun c hc => (hall c hc).1, h.1.2.1⟩, fun c hc => (hall c hc).2,
    Nat.lt_of_lt_of_le h.1.2.2 (by decide)⟩

def gwBlock : UserBlock where
  user := "gw".toList
  body := [⟨.int .gatewayPorts, "yes".toList, ["yes".toList]⟩]
  plain := plainUser_of_all (by decide +kernel)
  noMatch := by decide

def devBlock : UserBlock where
  user := "dev".toList
  body := [⟨.int .gatewayPorts, "no".toList, ["no".toList]⟩]
  plain := plainUser_of_all (by decide +kernel)
  noMatch := by decide

def twoBlocks : List Str :=
  ["Match User gw".toList, "GatewayPorts yes".toList, "Match User dev".toList,
    "GatewayPorts no".toList]

theorem user_policy_local_gw :
    ∃ opts opts', serverOptions bareEnv (fun _ => none) (twoBlocks.take 2)
        (connectionOf "gw".toList) = some opts ∧
      serverOptions bareEnv (fun _ => none) twoBlocks (connectionOf "gw".toList) = some opts' ∧
      opts.val = opts'.val ∧ opts.permitted = opts'.permitted ∧ opts.users = opts'.users ∧
        opts.admForcedCommand = opts'.admForcedCommand := by
  have hcfg : PerUser (fun _ => none) (twoBlocks.take 2) [] [gwBlock] :=
    ⟨by decide +kernel, by simp⟩
  have hcfg' : PerUser (fun _ => none) twoBlocks [] [gwBlock, devBlock] :=
    ⟨by decide +kernel, by simp⟩
  have hown : [gwBlock].filter (fun b => b.user = (connectionOf "gw".toList).user) =
      [gwBlock, devBlock].filter (fun b => b.user = (connectionOf "gw".toList).user) := by rfl
  obtain ⟨opts, h⟩ := Option.isSome_iff_exists.mp (show (serverOptions bareEnv (fun _ => none)
    (twoBlocks.take 2) (connectionOf "gw".toList)).isSome = true by decide +kernel)
  obtain ⟨opts', h'⟩ := Option.isSome_iff_exists.mp (show (serverOptions bareEnv (fun _ => none)
    twoBlocks (connectionOf "gw".toList)).isSome = true by decide +kernel)
  exact ⟨opts, opts', h, h', user_policy_local hcfg hcfg' hown h h'⟩

/-! ## The deployed configuration -/

/-- The characters of some texts, spelled out for the evaluation of what is said of them. -/
structure Chars (ss : List String) where
  chars : List Str
  eq : ss.map String.toList = chars

def Chars.nil : Chars [] := ⟨[], rfl⟩

def Chars.cons {s : String} {l : Str} {ss : List String} (h : s = String.ofList l)
    (rest : Chars ss) : Chars (s :: ss) where
  chars := l :: rest.chars
  eq := by rw [List.map_cons, h, String.toList_ofList, rest.eq]

def configChars : Chars (transportLines ++ authorizationLines ++ matchLines) := by
  delta transportLines authorizationLines matchLines
  repeat apply Chars.cons rfl
  exact Chars.nil

def globalChars : Chars globalKeywords := by
  delta globalKeywords
  repeat apply Chars.cons rfl
  exact Chars.nil

def matchChars : Chars matchKeywords := by
  delta matchKeywords
  repeat apply Chars.cons rfl
  exact Chars.nil

def deployedConfig : List Str := loadServerConfig sshdConfig

lemma deployedConfig_chars :
    deployedConfig = loadServerConfig (configChars.chars.map (· ++ ['\r'])) := by
  rw [← configChars.eq]
  rfl

lemma otherKeyword_chars : otherKeyword = otherIn globalChars.chars matchChars.chars := by
  rw [← globalChars.eq, ← matchChars.eq]
  rfl

def rootUser : Str := "root".toList
def iotServer : Str := "a23ff868ec8f".toList
def iotDevice1 : Str := "025f9a3db712".toList
def iotDevice2 : Str := "0242ac110002".toList

/-- The address of the server, as the agents and the configuration write it. -/
def srvAddr : Str := "2001:0242:6392:f935:a23f:f8ff:fe68:ec8f".toList

/-- The service that the controller creates for the server. -/
def srvName : Str := "a23ff868ec8f.default.svc.cluster.local".toList

def directive (opcode : ServerOpCode) (words : List String) : Directive where
  opcode := opcode
  text := [' '].intercalate (words.map String.toList)
  words := words.map String.toList

def forcedEcho : Directive where
  opcode := .forceCommand
  text := "echo \"Access granted but no command allowed\"".toList
  words := ["echo".toList, "Access granted but no command allowed".toList]

def globalDirectives : List Directive :=
  [directive (.int .allowTcpForwarding) ["no"], directive (.int .disableForwarding) ["no"],
    directive (.int .allowStreamlocalForwarding) ["no"],
    directive (.users .allowUsers) ["a23ff868ec8f", "025f9a3db712", "0242ac110002"],
    directive (.users .denyUsers) ["root"], forcedEcho, directive (.permit .localFwd) ["none"],
    directive (.permit .remoteFwd) ["none"], directive (.int .gatewayPorts) ["no"],
    directive (.int .permitTun) ["no"]]

def serverBody : List Directive :=
  [directive (.int .allowTcpForwarding) ["remote"],
    directive (.int .gatewayPorts) ["clientspecified"],
    directive (.permit .remoteFwd) ["[2001:0242:6392:f935:a23f:f8ff:fe68:ec8f]:1883"],
    directive .forceCommand ["/etc/createservice.sh;", "sleep", "infinity"]]

def device1Body : List Directive :=
  [directive (.int .allowTcpForwarding) ["local"],
    directive (.permit .localFwd) ["[2001:0242:6392:f935:a23f:f8ff:fe68:ec8f]:1883"]]

def device2Body : List Directive :=
  [directive (.int .allowTcpForwarding) ["yes"],
    directive (.permit .localFwd) ["a23ff868ec8f.default.svc.cluster.local:22",
      "[2001:0242:6392:f935:a23f:f8ff:fe68:ec8f]:1883"]]

def deployedBlocks : List UserBlock :=
  [{ user := iotServer, body := serverBody, plain := plainUser_of_all (by decide +kernel)
     noMatch := by decide },
    { user := iotDevice1, body := device1Body, plain := plainUser_of_all (by decide +kernel)
      noMatch := by decide },
    { user := iotDevice2, body := device2Body, plain := plainUser_of_all (by decide +kernel)
      noMatch := by decide }]

/-- The directives do not depend on what is known about the other keywords. -/
lemma readDirective_other (other : Str → Option Bool) (line : Str) :
    readDirective other line = readDirective (fun _ => none) line := by
  unfold readDirective parseToken
  cases splitLine line with
  | none => rfl
  | some ks =>
    obtain ⟨keyword, str⟩ := ks
    dsimp only
    cases keywords.find? (fun e => strcasecmp keyword e.1.toList) with
    | some e => rfl
    | none => cases other keyword <;> cases argvSplit (str.getD []) <;> rfl

lemma chars_directives : directives (fun _ => none)
    (loadServerConfig (configChars.chars.map (· ++ ['\r']))) =
      globalDirectives ++ deployedBlocks.flatMap UserBlock.directives := by
  decide +kernel

/-- The file as the server reads it. -/
lemma deployed_perUser (other : Str → Option Bool) :
    PerUser other deployedConfig globalDirectives deployedBlocks := by
  refine ⟨?_, by decide⟩
  have hother : directives other deployedConfig = directives (fun _ => none) deployedConfig := by
    simp only [directives, readDirective_other other]
  rw [hother, deployedConfig_chars, chars_directives]

/-! ## The policy of each user -/

def brokerAt : Entry where
  host := srvAddr
  port := 1883
  notClosed := by decide +kernel
  notOpened := by decide +kernel
  fits := mqtt_fits

def sshAt : Entry where
  host := srvName
  port := 22
  notClosed := by decide +kernel
  notOpened := by decide +kernel
  fits := by decide

/-- What the users may open and what they may listen to. -/
def grants (user : Str) : Where → List Entry
  | .localFwd =>
    if user = iotDevice1 then [brokerAt] else if user = iotDevice2 then [sshAt, brokerAt] else []
  | .remoteFwd => if user = iotServer then [brokerAt] else []

/-- The words of a `PermitOpen` or `PermitListen` line for some entries. -/
def permitWords (es : List Entry) : List Str :=
  if es = [] then [noneKeyword] else es.map Entry.text

lemma permit_of_words {dir : Where} {ws : List String} {es : List Entry}
    (h : ws.map String.toList = es.map Entry.text) (hne : es ≠ []) :
    (directive (.permit dir) ws).permit env dir = some (es.map Entry.text) := by
  simp only [Directive.permit, directive, if_true, h]
  exact permitArgs_text hne dir

lemma global_permit (dir : Where) :
    globalDirectives.findSome? (Directive.permit env dir) = some [noneKeyword] := by
  cases dir <;> rfl

lemma ownBody_cases (user : Str) :
    user = iotServer ∧ ownBody user deployedBlocks = serverBody ∨
      user = iotDevice1 ∧ ownBody user deployedBlocks = device1Body ∨
      user = iotDevice2 ∧ ownBody user deployedBlocks = device2Body ∨
      (user ≠ iotServer ∧ user ≠ iotDevice1 ∧ user ≠ iotDevice2) ∧
        ownBody user deployedBlocks = [] := by
  by_cases h1 : user = iotServer
  · exact Or.inl ⟨h1, by rw [h1]; decide⟩
  by_cases h2 : user = iotDevice1
  · exact Or.inr (Or.inl ⟨h2, by rw [h2]; decide⟩)
  by_cases h3 : user = iotDevice2
  · exact Or.inr (Or.inr (Or.inl ⟨h3, by rw [h3]; decide⟩))
  · exact Or.inr (Or.inr (Or.inr ⟨⟨h1, h2, h3⟩, by
      simp [ownBody, deployedBlocks, Ne.symm h1, Ne.symm h2, Ne.symm h3]⟩))

lemma brokerAt_words : ["[2001:0242:6392:f935:a23f:f8ff:fe68:ec8f]:1883"].map String.toList =
    [brokerAt].map Entry.text := by
  decide +kernel

lemma device2_words : ["a23ff868ec8f.default.svc.cluster.local:22",
    "[2001:0242:6392:f935:a23f:f8ff:fe68:ec8f]:1883"].map String.toList =
    [sshAt, brokerAt].map Entry.text := by
  decide +kernel

lemma server_permit (dir : Where) :
    ((serverBody ++ globalDirectives).findSome? (Directive.permit env dir)).getD [] =
      permitWords (grants iotServer dir) := by
  rw [List.findSome?_append, global_permit]
  cases dir with
  | localFwd => rfl
  | remoteFwd =>
    simp only [serverBody, List.findSome?_cons, permit_of_words brokerAt_words (by simp)]
    rfl

lemma device1_permit (dir : Where) :
    ((device1Body ++ globalDirectives).findSome? (Directive.permit env dir)).getD [] =
      permitWords (grants iotDevice1 dir) := by
  rw [List.findSome?_append, global_permit]
  cases dir with
  | localFwd =>
    simp only [device1Body, List.findSome?_cons, permit_of_words brokerAt_words (by simp)]
    rfl
  | remoteFwd => rfl

lemma device2_permit (dir : Where) :
    ((device2Body ++ globalDirectives).findSome? (Directive.permit env dir)).getD [] =
      permitWords (grants iotDevice2 dir) := by
  rw [List.findSome?_append, global_permit]
  cases dir with
  | localFwd =>
    simp only [device2Body, List.findSome?_cons, permit_of_words device2_words (by simp)]
    rfl
  | remoteFwd => rfl

lemma users_of_words {l : UserList} {ws : List String} {us : List Str}
    (h : ws.map String.toList = us) (hus : ∀ u ∈ us, u ≠ [] ∧ '@' ∉ u) :
    (directive (.users l) ws).users env l = us := by
  have hvalid : us.all (validUserPattern env) = true := by
    refine List.all_eq_true.mpr (fun u hu => ?_)
    simp [validUserPattern, (hus u hu).1, (hus u hu).2]
  simp [Directive.users, directive, h, hvalid]

lemma global_users (l : UserList) : globalDirectives.flatMap (Directive.users env l) =
    match l with
    | .allowUsers => [iotServer, iotDevice1, iotDevice2]
    | .denyUsers => [rootUser] := by
  have hallow : (directive (.users .allowUsers)
      ["a23ff868ec8f", "025f9a3db712", "0242ac110002"]).users env .allowUsers =
      [iotServer, iotDevice1, iotDevice2] := users_of_words rfl (by decide)
  have hdeny : (directive (.users .denyUsers) ["root"]).users env .denyUsers = [rootUser] :=
    users_of_words rfl (by decide)
  cases l with
  | allowUsers =>
    simp only [globalDirectives, List.flatMap_cons, hallow]
    rfl
  | denyUsers =>
    simp only [globalDirectives, List.flatMap_cons, hdeny]
    rfl

lemma own_users (user : Str) (l : UserList) :
    (ownBody user deployedBlocks).flatMap (Directive.users env l) = [] := by
  rcases ownBody_cases user with ⟨_, hb⟩ | ⟨_, hb⟩ | ⟨_, hb⟩ | ⟨_, hb⟩ <;> rw [hb] <;> rfl

variable {user : Str} {opts : ServerOptions}

lemma deployed_permitted
    (h : Resolved env (ownBody user deployedBlocks) globalDirectives opts) (dir : Where) :
    opts.permitted dir = permitWords (grants user dir) := by
  rw [h.permitted]
  rcases ownBody_cases user with ⟨rfl, hb⟩ | ⟨rfl, hb⟩ | ⟨rfl, hb⟩ | ⟨⟨h1, h2, h3⟩, hb⟩
  · rw [hb, server_permit]
  · rw [hb, device1_permit]
  · rw [hb, device2_permit]
  · rw [hb, List.nil_append, global_permit]
    cases dir <;> simp [grants, h1, h2, h3, permitWords]

/-- The value of an option of the gateway for a user. -/
def deployedInt (user : Str) : IntOption → Nat
  | .allowTcpForwarding =>
    if user = iotServer then forwardRemote
    else if user = iotDevice1 then forwardLocal
    else if user = iotDevice2 then forwardAllow
    else forwardDeny
  | .gatewayPorts => if user = iotServer then 2 else 0
  | _ => 0

lemma deployed_int (h : Resolved env (ownBody user deployedBlocks) globalDirectives opts)
    (o : IntOption) : opts.val o = deployedInt user o := by
  rw [h.int]
  rcases ownBody_cases user with ⟨rfl, hb⟩ | ⟨rfl, hb⟩ | ⟨rfl, hb⟩ | ⟨⟨h1, h2, h3⟩, hb⟩
  · rw [hb]
    cases o <;> decide +kernel
  · rw [hb]
    cases o <;> decide +kernel
  · rw [hb]
    cases o <;> decide +kernel
  · rw [hb, List.nil_append]
    cases o <;> simp [deployedInt, h1, h2, h3] <;> decide +kernel

lemma matchUsers_plain {ci : ConnectionInfo} {patterns : List Str}
    (h : ∀ p ∈ patterns, '@' ∉ p ∧ '*' ∉ p ∧ '?' ∉ p) :
    matchUsers env ci patterns = some (decide (ci.user ∈ patterns)) := by
  induction patterns with
  | nil => rfl
  | cons p patterns ih =>
    obtain ⟨hat, hstar, hone⟩ := h p (by simp)
    have hp : matchUser ci.user (matchHostAndIp env ci) p = if ci.user = p then 1 else 0 := by
      simp only [matchUser, if_neg hat, matchPattern_plain hstar hone]
    rw [matchUsers, hp, ih (fun q hq => h q (List.mem_cons_of_mem _ hq))]
    by_cases hu : ci.user = p <;> simp [hu]

/-- The users that the gateway serves. -/
def served : List Str := [iotServer, iotDevice1, iotDevice2]

lemma deployed_allowed {ci : ConnectionInfo}
    (h : Resolved env (ownBody ci.user deployedBlocks) globalDirectives opts) :
    allowedUser env opts ci = some (decide (ci.user ∈ served)) := by
  have hallow : opts.users .allowUsers = served := by
    rw [h.users, own_users, if_pos rfl, global_users]
    rfl
  have hdeny : opts.users .denyUsers = [rootUser] := by
    rw [h.users, own_users, if_pos rfl, global_users]
  have hserved : ∀ p ∈ served, '@' ∉ p ∧ '*' ∉ p ∧ '?' ∉ p := by decide
  have hroot : ∀ p ∈ [rootUser], '@' ∉ p ∧ '*' ∉ p ∧ '?' ∉ p := by decide
  rw [allowedUser, hallow, hdeny, matchUsers_plain hserved, matchUsers_plain hroot]
  have hno : rootUser ∉ served := by decide
  have hne : served ≠ [] := by decide
  by_cases hu : ci.user = rootUser
  · simp [hu, hno]
  · simp [hu, hne]

lemma covers_text {slash : Bool} {dir : Where} {host : Str} {port : Int} (e : Entry) :
    Covers env slash dir host port e.text ↔
      ((e.port : Int) = 0 ∨ (e.port : Int) = port) ∧ StandsFor dir e.host host := by
  constructor
  · rintro ⟨h, p, hp, hm⟩
    rw [parsePermission_text] at hp
    cases hp
    exact hm
  · exact fun hm => ⟨_, _, parsePermission_text e slash, hm⟩

/-- What the words of a list cover is what its entries stand for. -/
lemma covers_permitWords {dir : Where} {host : Str} {port : Int} (es : List Entry) :
    (permitWords es = [] ∨ permitWords es = [anyKeyword] ∨
        ∃ w ∈ permitWords es, Covers env false dir host port w) ↔
      ∃ e ∈ es, ((e.port : Int) = 0 ∨ (e.port : Int) = port) ∧ StandsFor dir e.host host := by
  unfold permitWords
  split_ifs with hnil
  · subst hnil
    refine iff_of_false ?_ (by simp)
    rintro (h | h | ⟨w, hw, h', p, hp, _⟩)
    · cases h
    · exact absurd h (by decide)
    · rw [List.mem_singleton.mp hw] at hp
      cases hp
  · have hne : es.map Entry.text ≠ [] := by simpa using hnil
    have hany : es.map Entry.text ≠ [anyKeyword] := by
      intro h
      obtain ⟨e, es, rfl⟩ := List.exists_cons_of_ne_nil hnil
      exact (text_ne_keyword e).1 (List.cons.inj h).1
    simp only [hne, hany, false_or, List.mem_map, exists_exists_and_eq_and, covers_text]

/-- How a grant names a host: for opens as it is written, for listens in any case. -/
def Names (dir : Where) (entry host : Str) : Prop :=
  match dir with
  | .localFwd => host = entry
  | .remoteFwd => lowercase host = entry

lemma mem_grants {dir : Where} {e : Entry} (h : e ∈ grants user dir) :
    e = brokerAt ∨ e = sshAt := by
  cases dir with
  | localFwd =>
    simp only [grants] at h
    split_ifs at h
    · exact Or.inl (List.mem_singleton.mp h)
    · rcases List.mem_cons.mp h with h | h
      · exact Or.inr h
      · exact Or.inl (List.mem_singleton.mp h)
    · cases h
  | remoteFwd =>
    simp only [grants] at h
    split_ifs at h
    · exact Or.inl (List.mem_singleton.mp h)
    · cases h

lemma grants_iff {dir : Where} {host : Str} {port : Int} :
    (∃ e ∈ grants user dir, ((e.port : Int) = 0 ∨ (e.port : Int) = port) ∧
        StandsFor dir e.host host) ↔
      ∃ e ∈ grants user dir, (e.port : Int) = port ∧ Names dir e.host host := by
  have hplain : ∀ e ∈ grants user dir, (e.port : Int) ≠ 0 ∧ e.host ≠ fwdPermitAnyHost ∧
      '*' ∉ e.host ∧ '?' ∉ e.host := by
    intro e he
    rcases mem_grants he with rfl | rfl <;> decide +kernel
  have hnames : ∀ e ∈ grants user dir, (StandsFor dir e.host host ↔ Names dir e.host host) := by
    intro e he
    obtain ⟨_, hany, hstar, hone⟩ := hplain e he
    cases dir with
    | localFwd => simp [StandsFor, Names, hany, eq_comm]
    | remoteFwd => rw [StandsFor, ← matchPattern_iff, matchPattern_plain hstar hone, Names]
  constructor
  · rintro ⟨e, he, hport, hhost⟩
    exact ⟨e, he, hport.resolve_left (hplain e he).1, (hnames e he).mp hhost⟩
  · rintro ⟨e, he, hport, hhost⟩
    exact ⟨e, he, Or.inr hport, (hnames e he).mpr hhost⟩

lemma deployed_tcpFwd (h : Resolved env (ownBody user deployedBlocks) globalDirectives opts)
    {dir : Where} (hne : grants user dir ≠ []) : tcpFwd opts dir = true := by
  cases dir with
  | localFwd =>
    rw [tcpFwd, deployed_int h]
    by_cases h1 : user = iotDevice1
    · rw [h1]
      decide
    · by_cases h2 : user = iotDevice2
      · rw [h2]
        decide
      · simp [grants, h1, h2] at hne
  | remoteFwd =>
    rw [tcpFwd, deployed_int h]
    by_cases h1 : user = iotServer
    · rw [h1]
      decide
    · simp [grants, h1] at hne

variable {auth : AuthOpts}

/-- The options of a key do not stand in the way. -/
def KeyAllows (env : Env) (auth : AuthOpts) (dir : Where) (host : Str) (port : Int) : Prop :=
  auth.permitPortForwardingFlag = true ∧ (keyEntries auth dir = [] ∨
    ∃ e ∈ keyEntries auth dir, Covers env (dir = .localFwd) dir host port e)

/-- The policy of a user of the gateway: its key may narrow down what the gateway grants. -/
lemma deployed_policy_iff
    (h : Resolved env (ownBody user deployedBlocks) globalDirectives opts) (dir : Where)
    (host : Str) (port : Int) :
    Permitted env opts auth dir host port ↔ KeyAllows env auth dir host port ∧
      ∃ e ∈ grants user dir, (e.port : Int) = port ∧ Names dir e.host host := by
  have hconfig : (opts.permitted dir = [] ∨ opts.permitted dir = [anyKeyword] ∨
      ∃ w ∈ opts.permitted dir, Covers env false dir host port w) ↔
      ∃ e ∈ grants user dir, (e.port : Int) = port ∧ Names dir e.host host := by
    rw [deployed_permitted h, covers_permitWords, grants_iff]
  have henabled : forwardingEnabled opts auth = auth.permitPortForwardingFlag := by
    rw [forwardingEnabled, deployed_int h]
    simp [deployedInt]
  constructor
  · rintro ⟨hon, _, hkey, hlist⟩
    exact ⟨⟨henabled ▸ hon, hkey⟩, hconfig.mp hlist⟩
  · rintro ⟨⟨hon, hkey⟩, hgrant⟩
    have hne : grants user dir ≠ [] := by
      obtain ⟨e, he, _⟩ := hgrant
      exact List.ne_nil_of_mem he
    exact ⟨henabled ▸ hon, deployed_tcpFwd h hne, hkey, hconfig.mpr hgrant⟩

end CMXSafe.Proofs
