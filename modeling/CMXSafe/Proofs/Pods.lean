import CMXSafe.OpenSSH.Pod
import CMXSafe.Proofs.Deployment

/-!
# Runs of the gateway

In whatever order users log in and out and use their sessions, every session stays within the
policy of its user.
-/

namespace CMXSafe.Proofs
open OpenSSH Gateway Strings Machines

variable {env : Env} {other : Str → Option Bool} {cfg : List Str}

/-- A session that has come about by a login. -/
structure LoggedIn (env : Env) (other : Str → Option Bool) (cfg : List Str) (l : Login) : Prop where
  opts : serverOptions env other cfg l.ci = some l.opts
  allowed : allowedUser env l.opts l.ci = some true
  inside : ∃ perms, doAuthenticated env l.opts l.auth = some perms ∧
    Inside env l.opts l.auth perms l.session

lemma login_loggedIn {ci : ConnectionInfo} {auth : AuthOpts} {l : Login}
    (h : login env other cfg ci auth = some l) : LoggedIn env other cfg l := by
  simp only [login, Option.bind_eq_bind, Option.pure_def, Option.bind_eq_some_iff] at h
  obtain ⟨opts, hopts, allowed, hallowed, h⟩ := h
  cases allowed with
  | false => cases h
  | true =>
    simp only [Bool.not_true, Bool.false_eq_true, if_false, Option.bind_eq_some_iff,
      Option.some.injEq] at h
    obtain ⟨perms, hperms, rfl⟩ := h
    exact ⟨hopts, hallowed, perms, hperms, inside_start perms⟩

lemma gatewayStep_loggedIn {pod pod' : List Login} {a : PodAction}
    (h : ∀ l ∈ pod, LoggedIn env other cfg l)
    (hstep : gatewayStep env other cfg pod a = some pod') :
    ∀ l ∈ pod', LoggedIn env other cfg l := by
  cases a with
  | login ci auth =>
    obtain ⟨l, hl, rfl⟩ := Option.map_eq_some_iff.mp hstep
    intro m hm
    rcases List.mem_append.mp hm with hm | hm
    · exact h m hm
    · rw [List.mem_singleton.mp hm]
      exact login_loggedIn hl
  | act i a =>
    simp only [gatewayStep, Option.bind_eq_bind, Option.pure_def, Option.bind_eq_some_iff,
      Option.some.injEq] at hstep
    obtain ⟨l, hl, s, hs, rfl⟩ := hstep
    intro m hm
    rcases List.mem_or_eq_of_mem_set hm with hm | rfl
    · exact h m hm
    · obtain ⟨hopts, hallowed, perms, hperms, hin⟩ := h l (List.mem_of_getElem? hl)
      exact ⟨hopts, hallowed, perms, hperms, step_inside hperms hin hs⟩
  | logout i =>
    cases hstep
    exact fun m hm => h m (List.mem_of_mem_eraseIdx hm)

lemma pod_loggedIn {pod : List Login} {as : List PodAction}
    (hr : run (gatewayStep env other cfg) [] as = some pod) : ∀ l ∈ pod, LoggedIn env other cfg l :=
  run_preserves (fun pod => ∀ l ∈ pod, LoggedIn env other cfg l)
    (fun _ _ _ hi hstep => gatewayStep_loggedIn hi hstep) (by simp) hr

/-! ## The deployed gateway -/

/-- Nothing that a session has open is beyond what the gateway grants its user. -/
structure WithinGrants (user : Str) (s : Session) : Prop where
  connecting : ∀ c ∈ s.connecting, ∃ e ∈ grants user .localFwd, c = (e.host, (e.port : Int))
  listeners : ∀ x ∈ s.listeners, x.bound = .addr x.path ∧
    ∃ e ∈ grants user .remoteFwd, lowercase x.path = e.host ∧ x.listeningPort = e.port
  unixListeners : s.unixListeners = []
  tunnels : s.tunnels = 0

lemma channelFwdBindAddr_specified {host : Str} (h : lowercase host = srvAddr) :
    channelFwdBindAddr 2 host = (some host, false) := by
  have hne : ∀ s : Str, lowercase s ≠ srvAddr → host ≠ s := by
    rintro s hs rfl
    exact hs h
  have hnil := hne [] (by decide +kernel)
  have hstar := hne ['*'] (by decide +kernel)
  have hlocal := hne "localhost".toList (by decide +kernel)
  rw [channelFwdBindAddr, if_pos (by decide), if_neg (by simp [hnil, hstar]), if_pos hlocal]

lemma grants_remote {user : Str} {e : Entry} (h : e ∈ grants user .remoteFwd) :
    user = iotServer ∧ e = brokerAt := by
  simp only [grants] at h
  split_ifs at h with hu
  · exact ⟨hu, List.mem_singleton.mp h⟩
  · cases h

lemma withinGrants_of_policy {user : Str} {opts : ServerOptions} {auth : AuthOpts} {s : Session}
    (hres : Resolved env (ownBody user deployedBlocks) globalDirectives opts)
    (h : WithinPolicy env opts auth s) : WithinGrants user s := by
  constructor
  · intro c hc
    obtain ⟨_, e, he, hport, hhost⟩ := (deployed_policy_iff hres _ _ _).mp (h.connecting c hc).1
    exact ⟨e, he, Prod.ext hhost hport.symm⟩
  · intro x hx
    obtain ⟨hbound, port, hpol, hport⟩ := h.listeners x hx
    obtain ⟨_, e, he, heport, hhost⟩ := (deployed_policy_iff hres _ _ _).mp hpol
    obtain ⟨hu, rfl⟩ := grants_remote he
    have hpath : lowercase x.path = srvAddr := hhost
    refine ⟨?_, brokerAt, he, hhost, ?_⟩
    · rw [hbound, deployed_int hres]
      simp only [deployedInt, if_pos hu, channelFwdBindAddr_specified hpath, boundOf]
    · rcases hport with h0 | hport
      · rw [h0] at heport
        cases heport
      · rw [hport, heport]
  · by_contra hne
    have hstream := (h.unixListeners hne).2
    rw [deployed_int hres] at hstream
    exact hstream (Nat.zero_and _)
  · by_contra hne
    have htun := h.tunnels (Nat.pos_of_ne_zero hne)
    rw [deployed_int hres] at htun
    exact htun rfl

/-- At any time, whoever is logged in, a session of the gateway has only opened what its user is
granted, and where it listens is the address that its user's account has been given. -/
theorem gateway_within_grants {pod : List Login} {as : List PodAction}
    (hr : run (gatewayStep env other deployedConfig) [] as = some pod) :
    ∀ l ∈ pod, l.ci.user ∈ served ∧ WithinGrants l.ci.user l.session ∧
      ∀ x ∈ l.session.listeners, addressBlock macGW l.ci.user = some (lowercase x.path) := by
  intro l hl
  obtain ⟨hopts, hallowed, perms, hperms, _, hpol⟩ := pod_loggedIn hr l hl
  have hres := (deployed_perUser other).resolved hopts
  have hserved : l.ci.user ∈ served := by
    rw [deployed_allowed hres] at hallowed
    simpa using hallowed
  have hgrants := withinGrants_of_policy hres hpol
  refine ⟨hserved, hgrants, fun x hx => ?_⟩
  obtain ⟨_, e, he, hpath, _⟩ := hgrants.listeners x hx
  obtain ⟨hu, rfl⟩ := grants_remote he
  rw [hu, hpath]
  decide +kernel

def gatewayRun : List PodAction :=
  [.login (connectionOf iotServer) {},
    .act 0 (.request grantingOs (.tcpipForward srvAddr 1883 true)),
    .login (connectionOf iotDevice1) {},
    .act 1 (.request grantingOs (.directTcpip srvAddr 1883 0))]

/-- What each session has open. -/
def opened (pod : List Login) : List (List Str × List (Str × Int)) :=
  pod.map (fun l => (l.session.listeners.map Listener.path, l.session.connecting))

lemma gatewayRun_opened : (run (gatewayStep bareEnv otherKeyword deployedConfig) [] gatewayRun).map
    opened = some [([srvAddr], []), ([], [(srvAddr, 1883)])] := by
  rw [deployedConfig_chars, otherKeyword_chars]
  decide +kernel

theorem gateway_within_grants_broker :
    ∃ pod, run (gatewayStep bareEnv otherKeyword deployedConfig) [] gatewayRun = some pod ∧
      opened pod = [([srvAddr], []), ([], [(srvAddr, 1883)])] ∧
      ∀ l ∈ pod, l.ci.user ∈ served ∧ WithinGrants l.ci.user l.session ∧
        ∀ x ∈ l.session.listeners, addressBlock macGW l.ci.user = some (lowercase x.path) := by
  obtain ⟨pod, hr, ho⟩ := Option.map_eq_some_iff.mp gatewayRun_opened
  exact ⟨pod, hr, ho, gateway_within_grants hr⟩

/-- What a session of the gateway opens. -/
lemma LoggedIn.direct_iff {l : Login} (h : LoggedIn env other deployedConfig l) {os : Os}
    {host : Str} {port originatorPort : Nat} :
    (l.session.request l.opts l.auth os (.directTcpip host port originatorPort)).1 = true ↔
      originatorPort ≤ 0xFFFF ∧ KeyAllows env l.auth .localFwd host port ∧
        (∃ e ∈ grants l.ci.user .localFwd, e.port = port ∧ host = e.host) ∧
        os.connect host port = true := by
  obtain ⟨hopts, _, perms, hperms, hs, _⟩ := h
  rw [directTcpip_iff hperms hs, deployed_policy_iff ((deployed_perUser other).resolved hopts)]
  constructor
  · rintro ⟨_, horig, ⟨hkey, e, he, hport, hhost⟩, hos⟩
    exact ⟨horig, hkey, ⟨e, he, Int.ofNat.inj hport, hhost⟩, hos⟩
  · rintro ⟨horig, hkey, ⟨e, he, rfl, hhost⟩, hos⟩
    exact ⟨e.fits, horig, ⟨hkey, e, he, rfl, hhost⟩, hos⟩

lemma lowercase_length (s : Str) : (lowercase s).length = s.length := List.length_map _

/-- The agents get what they ask for: at any time, a session of a user opens and listens to what
the user is granted, unless its key or the system stands in the way, and to nothing else. -/
theorem gateway_serves_iff {pod : List Login} {as : List PodAction}
    (hr : run (gatewayStep env other deployedConfig) [] as = some pod) {l : Login} (hl : l ∈ pod)
    (os : Os) (host : Str) (port : Nat) :
    (∀ originatorPort : Nat,
      (l.session.request l.opts l.auth os (.directTcpip host port originatorPort)).1 = true ↔
        originatorPort ≤ 0xFFFF ∧ KeyAllows env l.auth .localFwd host port ∧
          (∃ e ∈ grants l.ci.user .localFwd, e.port = port ∧ host = e.host) ∧
          os.connect host port = true) ∧
    (∀ wantReply : Bool,
      (l.session.request l.opts l.auth os (.tcpipForward host port wantReply)).1 = true ↔
        KeyAllows env l.auth .remoteFwd host port ∧
          (∃ e ∈ grants l.ci.user .remoteFwd, e.port = port ∧ lowercase host = e.host) ∧
          os.listen (.addr host) port ≠ []) := by
  have hin := pod_loggedIn hr l hl
  refine ⟨fun _ => hin.direct_iff, fun wantReply => ?_⟩
  obtain ⟨hopts, _, perms, hperms, hs, _⟩ := hin
  have hres := (deployed_perUser other).resolved hopts
  have hbound : ∀ e ∈ grants l.ci.user .remoteFwd, lowercase host = e.host →
      boundOf (channelFwdBindAddr (l.opts.val .gatewayPorts) host) = .addr host := by
    intro e he hhost
    obtain ⟨hu, rfl⟩ := grants_remote he
    rw [deployed_int hres]
    simp only [deployedInt, if_pos hu, channelFwdBindAddr_specified hhost, boundOf]
  rw [tcpipForward_iff hperms hs, deployed_policy_iff hres]
  constructor
  · rintro ⟨_, ⟨hkey, e, he, hport, hhost⟩, _, hos⟩
    rw [hbound e he hhost] at hos
    exact ⟨hkey, ⟨e, he, Int.ofNat.inj hport, hhost⟩, hos⟩
  · rintro ⟨hkey, ⟨e, he, rfl, hhost⟩, hos⟩
    obtain ⟨_, rfl⟩ := grants_remote he
    have hlen : host.length < niMaxhost := by
      rw [← lowercase_length, hhost]
      decide +kernel
    rw [hbound brokerAt he hhost]
    exact ⟨⟨by decide, Or.inr (by decide)⟩, ⟨hkey, brokerAt, he, rfl, hhost⟩, hlen, hos⟩

theorem gateway_serves_iff_broker :
    ∃ pod l, run (gatewayStep bareEnv otherKeyword deployedConfig) [] gatewayRun = some pod ∧
      l ∈ pod ∧ ∀ wantReply : Bool,
        ((l.session.request l.opts l.auth grantingOs
            (.tcpipForward srvAddr 1883 wantReply)).1 = true ↔
          KeyAllows bareEnv l.auth .remoteFwd srvAddr (1883 : Nat) ∧
            (∃ e ∈ grants l.ci.user .remoteFwd, e.port = 1883 ∧ lowercase srvAddr = e.host) ∧
            grantingOs.listen (.addr srvAddr) (1883 : Nat) ≠ []) := by
  obtain ⟨pod, hr, ho⟩ := Option.map_eq_some_iff.mp gatewayRun_opened
  cases pod with
  | nil => cases ho
  | cons l pod =>
    have hl : l ∈ l :: pod := List.mem_cons_self
    exact ⟨l :: pod, l, hr, hl, (gateway_serves_iff hr hl grantingOs srvAddr 1883).2⟩

end CMXSafe.Proofs
