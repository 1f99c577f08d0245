import CMXSafe.Proofs.Config
import CMXSafe.Proofs.Forwarding

/-!
# Runs of a session

No sequence of requests, whatever the system answers to them, gets a session beyond its
policy; and what the policy permits is granted whenever the system grants it.
-/

namespace CMXSafe.Proofs
open OpenSSH Strings Machines

variable {env : Env} {opts : ServerOptions} {auth : AuthOpts}

lemma checkOpenPermission_eq (p : Perms) (host : Str) (port : Int) :
    checkOpenPermission p host port = (p.set .localFwd).permits (matched .localFwd host port) :=
  rfl

lemma checkRfwdPermission_eq (p : Perms) (host : Str) (port : Int) :
    checkRfwdPermission p { listenHost := some host, listenPort := port } =
      (p.set .remoteFwd).permits (matched .remoteFwd host port) :=
  rfl

/-- A listener as the policy and `GatewayPorts` allow it. Its port is the one that was asked
for, or was allocated for a request of port 0. -/
def ListenerAllowed (env : Env) (opts : ServerOptions) (auth : AuthOpts) (l : Listener) : Prop :=
  l.bound = boundOf (channelFwdBindAddr (opts.val .gatewayPorts) l.path) ∧
    ∃ port : Nat, Permitted env opts auth .remoteFwd l.path port ∧
      (port = 0 ∨ l.listeningPort = port)

/-- Nothing that a session has open is beyond its policy. -/
structure WithinPolicy (env : Env) (opts : ServerOptions) (auth : AuthOpts) (s : Session) :
    Prop where
  connecting : ∀ c ∈ s.connecting, Permitted env opts auth .localFwd c.1 c.2 ∧
    (c.2 = portStreamlocal ∧ opts.val .allowStreamlocalForwarding &&& forwardLocal ≠ 0 ∨
      0 ≤ c.2 ∧ c.2 ≤ 0xFFFF)
  listeners : ∀ l ∈ s.listeners, ListenerAllowed env opts auth l
  unixListeners : s.unixListeners ≠ [] →
    forwardingEnabled opts auth = true ∧
      opts.val .allowStreamlocalForwarding &&& forwardRemote ≠ 0
  tunnels : 0 < s.tunnels → opts.val .permitTun ≠ 0

section
variable {perms : Perms} (hp : doAuthenticated env opts auth = some perms) {s : Session}
  (hs : s.perms = perms) (os : Os)
include hp hs

lemma checkOpen_iff (host : Str) (port : Int) :
    checkOpenPermission s.perms host port = true ↔ Permitted env opts auth .localFwd host port := by
  rw [hs, checkOpenPermission_eq]
  exact permits_iff hp _ _ _

lemma checkRfwd_iff (host : Str) (port : Int) :
    checkRfwdPermission s.perms { listenHost := some host, listenPort := port } = true ↔
      Permitted env opts auth .remoteFwd host port := by
  rw [hs, checkRfwdPermission_eq]
  exact permits_iff hp _ _ _

lemma serverRequestDirectTcpip_cases (target : Str) (targetPort originatorPort : Nat) :
    (targetPort ≤ 0xFFFF ∧ originatorPort ≤ 0xFFFF ∧
        Permitted env opts auth .localFwd target targetPort ∧ os.connect target targetPort = true) ∧
      serverRequestDirectTcpip opts auth os target targetPort originatorPort s =
        (true, { s with connecting := s.connecting ++ [(target, (targetPort : Int))] }) ∨
    ¬(targetPort ≤ 0xFFFF ∧ originatorPort ≤ 0xFFFF ∧
        Permitted env opts auth .localFwd target targetPort ∧ os.connect target targetPort = true) ∧
      serverRequestDirectTcpip opts auth os target targetPort originatorPort s = (false, s) := by
  have hperm := checkOpen_iff hp hs target targetPort
  unfold serverRequestDirectTcpip
  split_ifs with h1 h2 h3
  · exact Or.inr ⟨fun h => by omega, rfl⟩
  · rw [Bool.and_eq_true, hperm] at h3
    exact Or.inl ⟨⟨by omega, by omega, h3⟩, rfl⟩
  · rw [Bool.and_eq_true, hperm] at h3
    exact Or.inr ⟨fun h => h3 h.2.2, rfl⟩
  · refine Or.inr ⟨fun h => h2 ?_, rfl⟩
    have hgate := h.2.2.1.enabled
    rw [forwardingEnabled, Bool.and_eq_true] at hgate
    simp [h.2.2.1.allowed, hgate.1, hgate.2]

lemma serverRequestDirectStreamlocal_cases (target : Str) (originatorPort : Nat) :
    (opts.val .allowStreamlocalForwarding &&& forwardLocal ≠ 0 ∧
        Permitted env opts auth .localFwd target portStreamlocal) ∧
      serverRequestDirectStreamlocal opts auth os target originatorPort s =
        (true, { s with connecting := s.connecting ++ [(target, portStreamlocal)] }) ∨
      serverRequestDirectStreamlocal opts auth os target originatorPort s = (false, s) := by
  have hperm := checkOpen_iff hp hs target portStreamlocal
  unfold serverRequestDirectStreamlocal
  split_ifs with h1 h2 h3
  · exact Or.inr rfl
  · rw [Bool.and_eq_true, hperm] at h3
    simp only [Bool.and_eq_true, decide_eq_true_eq] at h2
    exact Or.inl ⟨⟨h2.1.1, h3.1⟩, rfl⟩
  · exact Or.inr rfl
  · exact Or.inr rfl

lemma requestTcpipForward_cases (listenHost : Str) (port : Nat) (wantReply : Bool) :
    (port ≤ intMax ∧ (wantReply = true ∨ port ≠ 0) ∧
        Permitted env opts auth .remoteFwd listenHost port) ∧
      requestTcpipForward opts auth os listenHost port wantReply s =
        (let new := (channelSetupFwdListenerTcpip os (opts.val .gatewayPorts) listenHost port).1
        (decide (new ≠ []), { s with listeners := s.listeners ++ new })) ∨
    ¬(port ≤ intMax ∧ (wantReply = true ∨ port ≠ 0) ∧
        Permitted env opts auth .remoteFwd listenHost port) ∧
      requestTcpipForward opts auth os listenHost port wantReply s = (false, s) := by
  have hperm := checkRfwd_iff hp hs listenHost port
  unfold requestTcpipForward channelSetupRemoteFwdListener
  split_ifs with h1 h2
  · refine Or.inr ⟨?_, rfl⟩
    rintro ⟨hport, hreply, hpol⟩
    have hgate := hpol.enabled
    rw [forwardingEnabled, Bool.and_eq_true, decide_eq_true_eq] at hgate
    rcases h1 with h | h | h | h | ⟨h, h'⟩
    · omega
    · simp [hpol.allowed] at h
    · simp [hgate.1] at h
    · exact h hgate.2
    · rcases hreply with hr | hr
      · simp [hr] at h
      · exact hr h'
  · rw [hperm] at h2
    push Not at h1
    refine Or.inl ⟨⟨h1.1, ?_, h2⟩, rfl⟩
    cases wantReply with
    | true => exact Or.inl rfl
    | false => exact Or.inr (h1.2.2.2.2 rfl)
  · rw [hperm] at h2
    exact Or.inr ⟨fun h => h2 h.2.2, rfl⟩

end

lemma requestStreamlocalForward_cases (opts : ServerOptions) (auth : AuthOpts) (os : Os)
    (path : Str) (s : Session) :
    (forwardingEnabled opts auth = true ∧
        opts.val .allowStreamlocalForwarding &&& forwardRemote ≠ 0) ∧
      requestStreamlocalForward opts auth os path s =
        (true, { s with unixListeners := s.unixListeners ++ [path] }) ∨
      requestStreamlocalForward opts auth os path s = (false, s) := by
  unfold requestStreamlocalForward
  split_ifs with h1 h2 h3
  · exact Or.inr rfl
  · push Not at h1
    refine Or.inl ⟨⟨?_, h1.1⟩, rfl⟩
    have hflag : auth.permitPortForwardingFlag = true := by simpa using h1.2.1
    simp [forwardingEnabled, hflag, h1.2.2]
  · exact Or.inr rfl
  · exact Or.inr rfl

lemma mem_newListeners {os : Os} {gatewayPorts : Nat} {host : Str} {port : Nat} {l : Listener}
    (h : l ∈ (channelSetupFwdListenerTcpip os gatewayPorts host port).1) :
    l.path = host ∧ l.bound = boundOf (channelFwdBindAddr gatewayPorts host) ∧
      (port = 0 ∨ l.listeningPort = port) ∧
        l.localPort ∈ os.listen (boundOf (channelFwdBindAddr gatewayPorts host)) port := by
  unfold channelSetupFwdListenerTcpip at h
  by_cases hlen : niMaxhost ≤ host.length
  · rw [if_pos hlen] at h
    cases h
  · rw [if_neg hlen] at h
    obtain ⟨q, hq, rfl⟩ := List.mem_map.mp h
    refine ⟨rfl, rfl, ?_, hq⟩
    by_cases h0 : port = 0
    · exact Or.inl h0
    · exact Or.inr (by simp [h0])

lemma newListeners_ne_nil {os : Os} {gatewayPorts : Nat} {host : Str} {port : Nat} :
    (channelSetupFwdListenerTcpip os gatewayPorts host port).1 ≠ [] ↔
      host.length < niMaxhost ∧
        os.listen (boundOf (channelFwdBindAddr gatewayPorts host)) port ≠ [] := by
  unfold channelSetupFwdListenerTcpip
  by_cases hlen : niMaxhost ≤ host.length
  · rw [if_pos hlen]
    exact iff_of_false (by simp) (by omega)
  · simp [hlen, Nat.not_le.mp hlen]

/-- The states of a session that started with the permissions. -/
def Inside (env : Env) (opts : ServerOptions) (auth : AuthOpts) (perms : Perms) (s : Session) :
    Prop :=
  s.perms = perms ∧ WithinPolicy env opts auth s

variable {perms : Perms}

lemma request_inside (hp : doAuthenticated env opts auth = some perms) (os : Os)
    (r : ClientRequest) {s : Session} (h : Inside env opts auth perms s) :
    Inside env opts auth perms (s.request opts auth os r).2 := by
  obtain ⟨hs, hc, hl, hu, ht⟩ := h
  cases r with
  | directTcpip target targetPort originatorPort =>
    rw [Session.request]
    rcases serverRequestDirectTcpip_cases hp hs os target targetPort originatorPort with
      ⟨⟨hport, _, hpol, _⟩, heq⟩ | ⟨_, heq⟩
    · rw [heq]
      refine ⟨hs, fun c hmem => ?_, hl, hu, ht⟩
      rcases List.mem_append.mp hmem with hmem | hmem
      · exact hc c hmem
      · rw [List.mem_singleton.mp hmem]
        exact ⟨hpol, Or.inr (by dsimp only; omega)⟩
    · rw [heq]
      exact ⟨hs, hc, hl, hu, ht⟩
  | directStreamlocal target originatorPort =>
    rw [Session.request]
    rcases serverRequestDirectStreamlocal_cases hp hs os target originatorPort with
      ⟨⟨hstream, hpol⟩, heq⟩ | heq
    · rw [heq]
      refine ⟨hs, fun c hmem => ?_, hl, hu, ht⟩
      rcases List.mem_append.mp hmem with hmem | hmem
      · exact hc c hmem
      · rw [List.mem_singleton.mp hmem]
        exact ⟨hpol, Or.inl ⟨rfl, hstream⟩⟩
    · rw [heq]
      exact ⟨hs, hc, hl, hu, ht⟩
  | tun mode =>
    rw [Session.request, serverRequestTun]
    split_ifs with h1 h2 h3
    · exact ⟨hs, hc, hl, hu, ht⟩
    · exact ⟨hs, hc, hl, hu, ht⟩
    · refine ⟨hs, hc, hl, hu, fun _ h0 => h2 ?_⟩
      rw [h0, Nat.zero_and]
    · exact ⟨hs, hc, hl, hu, ht⟩
  | tcpipForward listenHost port wantReply =>
    rw [Session.request]
    rcases requestTcpipForward_cases hp hs os listenHost port wantReply with
      ⟨⟨_, _, hpol⟩, heq⟩ | ⟨_, heq⟩
    · rw [heq]
      refine ⟨hs, hc, fun l hmem => ?_, hu, ht⟩
      rcases List.mem_append.mp hmem with hmem | hmem
      · exact hl l hmem
      · obtain ⟨hpath, hbound, hport, _⟩ := mem_newListeners hmem
        exact ⟨hpath ▸ hbound, port, hpath ▸ hpol, hport.imp_left (by simp)⟩
    · rw [heq]
      exact ⟨hs, hc, hl, hu, ht⟩
  | cancelTcpipForward listenHost port =>
    rw [Session.request]
    split_ifs
    · exact ⟨hs, hc, fun l hmem => hl l (List.mem_of_mem_filter hmem), hu, ht⟩
    · exact ⟨hs, hc, hl, hu, ht⟩
  | streamlocalForward path =>
    rw [Session.request]
    rcases requestStreamlocalForward_cases opts auth os path s with
      ⟨hstream, heq⟩ | heq
    · rw [heq]
      exact ⟨hs, hc, hl, fun _ => hstream, ht⟩
    · rw [heq]
      exact ⟨hs, hc, hl, hu, ht⟩
  | cancelStreamlocalForward path =>
    refine ⟨hs, hc, hl, fun hne => hu (fun hnil => hne ?_), ht⟩
    simp [Session.request, hnil]

lemma step_inside (hp : doAuthenticated env opts auth = some perms) {a : SessionAction}
    {s t : Session} (h : Inside env opts auth perms s) (hstep : s.step opts auth a = some t) :
    Inside env opts auth perms t := by
  cases a with
  | request os r =>
    cases hstep
    exact request_inside hp os r h
  | closed target port =>
    cases hstep
    obtain ⟨hs, hc, hl, hu, ht⟩ := h
    exact ⟨hs, fun c hmem => hc c (List.mem_of_mem_erase hmem), hl, hu, ht⟩

lemma inside_start (perms : Perms) : Inside env opts auth perms { perms := perms } :=
  ⟨rfl, by simp, by simp, by simp, by simp⟩

lemma run_inside (hp : doAuthenticated env opts auth = some perms) {as : List SessionAction}
    {s : Session} (hr : run (Session.step opts auth) { perms := perms } as = some s) :
    Inside env opts auth perms s := by
  exact run_preserves (Inside env opts auth perms) (fun _ _ _ hi hstep => step_inside hp hi hstep)
    (inside_start perms) hr

/-- Whatever its client asks for, and whatever the system answers, a session has nothing
open that its options and its key do not permit. -/
theorem session_within_policy (hp : doAuthenticated env opts auth = some perms)
    {as : List SessionAction} {s : Session}
    (hr : run (Session.step opts auth) { perms := perms } as = some s) :
    WithinPolicy env opts auth s :=
  (run_inside hp hr).2

/-- A system that grants everything. -/
def grantingOs : Os where
  connect _ _ := true
  listen _ port := [port.toNat]
  listenPath _ := true
  tunOpen _ := true

def brokerOpts : ServerOptions where
  int := fun o => if o = .gatewayPorts then some 2 else none
  permitted := fun dir => if dir = .remoteFwd then ["[::1]:1883".toList] else ["none".toList]

def brokerPerms : Perms where
  localPerms := { permittedAdmin := [{}], allPermitted := true }
  remotePerms :=
    { permittedAdmin := [{ listenHost := some "::1".toList, listenPort := 1883 }]
      allPermitted := true }

def brokerRun : List SessionAction :=
  [.request grantingOs (.tcpipForward "::1".toList 1884 true),
    .request grantingOs (.tcpipForward "::1".toList 1883 true),
    .request grantingOs (.directTcpip "::1".toList 1883 0)]

def brokerListener : Listener where
  path := "::1".toList
  listeningAddr := some "::1".toList
  listeningPort := 1883
  bound := .addr "::1".toList
  localPort := 1883

theorem session_within_policy_broker :
    run (Session.step brokerOpts {}) { perms := brokerPerms } brokerRun =
        some { perms := brokerPerms, listeners := [brokerListener] } ∧
      WithinPolicy bareEnv brokerOpts {}
        { perms := brokerPerms, listeners := [brokerListener] } :=
  have hp : doAuthenticated bareEnv brokerOpts {} = some brokerPerms := by rfl
  have hr : run (Session.step brokerOpts {}) { perms := brokerPerms } brokerRun =
      some { perms := brokerPerms, listeners := [brokerListener] } := by rfl
  ⟨hr, session_within_policy hp hr⟩

lemma directTcpip_iff (hp : doAuthenticated env opts auth = some perms) {s : Session}
    (hs : s.perms = perms) (os : Os) (host : Str) (port originatorPort : Nat) :
    (s.request opts auth os (.directTcpip host port originatorPort)).1 = true ↔
      port ≤ 0xFFFF ∧ originatorPort ≤ 0xFFFF ∧
        Permitted env opts auth .localFwd host port ∧ os.connect host port = true := by
  rw [Session.request]
  rcases serverRequestDirectTcpip_cases hp hs os host port originatorPort with
    ⟨hyes, heq⟩ | ⟨hno, heq⟩
  · simp only [heq, true_iff]
    exact hyes
  · simp only [heq, Bool.false_eq_true, false_iff]
    exact hno

lemma tcpipForward_iff (hp : doAuthenticated env opts auth = some perms) {s : Session}
    (hs : s.perms = perms) (os : Os) (host : Str) (port : Nat) (wantReply : Bool) :
    (s.request opts auth os (.tcpipForward host port wantReply)).1 = true ↔
      (port ≤ intMax ∧ (wantReply = true ∨ port ≠ 0)) ∧
        Permitted env opts auth .remoteFwd host port ∧ host.length < niMaxhost ∧
        os.listen (boundOf (channelFwdBindAddr (opts.val .gatewayPorts) host)) port ≠ [] := by
  rw [Session.request]
  rcases requestTcpipForward_cases hp hs os host port wantReply with ⟨hyes, heq⟩ | ⟨hno, heq⟩
  · simp only [heq, decide_eq_true_eq, newListeners_ne_nil]
    exact ⟨fun h => ⟨⟨hyes.1, hyes.2.1⟩, hyes.2.2, h⟩, fun h => h.2.2⟩
  · simp only [heq, Bool.false_eq_true, false_iff]
    exact fun h => hno ⟨h.1.1, h.1.2, h.2.1⟩

/-- The other direction: at any time of a session, a request for a connection or for a listener
that the policy permits succeeds exactly if the system grants it. -/
theorem session_serves_iff (hp : doAuthenticated env opts auth = some perms)
    {as : List SessionAction} {s : Session}
    (hr : run (Session.step opts auth) { perms := perms } as = some s) (os : Os) (host : Str)
    (port : Nat) :
    (∀ originatorPort : Nat,
      ((s.request opts auth os (.directTcpip host port originatorPort)).1 = true ↔
        port ≤ 0xFFFF ∧ originatorPort ≤ 0xFFFF ∧
          Permitted env opts auth .localFwd host port ∧ os.connect host port = true)) ∧
    (∀ wantReply : Bool,
      ((s.request opts auth os (.tcpipForward host port wantReply)).1 = true ↔
        (port ≤ intMax ∧ (wantReply = true ∨ port ≠ 0)) ∧
          Permitted env opts auth .remoteFwd host port ∧ host.length < niMaxhost ∧
          os.listen (boundOf (channelFwdBindAddr (opts.val .gatewayPorts) host)) port ≠ [])) :=
  have hs := (run_inside hp hr).1
  ⟨directTcpip_iff hp hs os host port, tcpipForward_iff hp hs os host port⟩

theorem session_serves_iff_broker :
    run (Session.step brokerOpts {}) { perms := brokerPerms } brokerRun =
        some { perms := brokerPerms, listeners := [brokerListener] } ∧
      ∀ wantReply : Bool,
        ((Session.request brokerOpts {} grantingOs (.tcpipForward "::1".toList 1883 wantReply)
            { perms := brokerPerms, listeners := [brokerListener] }).1 = true ↔
          (1883 ≤ intMax ∧ (wantReply = true ∨ (1883 : Nat) ≠ 0)) ∧
            Permitted bareEnv brokerOpts {} .remoteFwd "::1".toList (1883 : Nat) ∧
            "::1".toList.length < niMaxhost ∧
            grantingOs.listen (boundOf (channelFwdBindAddr (brokerOpts.val .gatewayPorts)
              "::1".toList)) (1883 : Nat) ≠ []) :=
  have hp : doAuthenticated bareEnv brokerOpts {} = some brokerPerms := by rfl
  have hr : run (Session.step brokerOpts {}) { perms := brokerPerms } brokerRun =
      some { perms := brokerPerms, listeners := [brokerListener] } := by rfl
  ⟨hr, (session_serves_iff hp hr grantingOs _ 1883).2⟩

end CMXSafe.Proofs
