import CMXSafe.Gateway.Endpoints
import CMXSafe.Lib.Tokens
import CMXSafe.OpenSSH.Mesh
import CMXSafe.Proofs.Delivery
import CMXSafe.Proofs.Pods
import CMXSafe.Proofs.Specs
import CMXSafe.Proofs.Vips

/-!
# From the socket of a device to the broker

The sessions of the gateway with the agents at their other ends. What a device opens can only
get to the machine that the address of its request is named after, and there the agent connects
it to the broker.
-/

namespace CMXSafe.Proofs
open OpenSSH Gateway Strings Machines Inet6

variable {env : Env} {other : Str → Option Bool} {cfg : List Str} {net : Bound → Str → Bool}

/-! ## Steps of a peer -/

def loginOf (p : Peer) : Login := ⟨p.ci, p.auth, p.opts, p.tunnel.session⟩

/-- What an action does to a peer that takes part in it. -/
inductive Move : MeshAction → Peer → Peer → Prop where
  | act {i a p q} (h : p.step a = some q) : Move (.act i a) p q
  | dial {i fwd port p q} (h : p.dial fwd port = some q) : Move (.dial i fwd port) p q
  | leave {i os opened target p q} (h : p.open os = some (opened, target, q)) :
      Move (.leave i os) p q
  | relay {i os j l port opened target p q} (h : p.open os = some (opened, target, q)) :
      Move (.relay i os j l port) p q
  | accept {i os j l port p q} (h : p.step (.accept l port) = some q) :
      Move (.relay i os j l port) p q
  | session {i a p q} (h : p.sessionStep a = some q) : Move (.session i a) p q

lemma forall_set {P : Peer → Prop} {mesh : List Peer} (h : ∀ p ∈ mesh, P p) {i : Nat} {q : Peer}
    (hq : P q) : ∀ p ∈ mesh.set i q, P p := by
  intro p hp
  rcases List.mem_or_eq_of_mem_set hp with hp | rfl
  · exact h p hp
  · exact hq

/-- The connection of an open channel gets to a listener of a session. -/
lemma relay_cases {mesh mesh' : List Peer} {i j : Nat} {os : Os} {l : Listener} {port : Nat}
    (h : meshStep env other cfg net mesh (.relay i os j l port) = some mesh') :
    ∃ p target p' q q', mesh[i]? = some p ∧ p.open os = some (true, target, p') ∧
      l.answers net target.1 target.2 = true ∧ (mesh.set i p')[j]? = some q ∧
      q.step (.accept l port) = some q' ∧ mesh' = (mesh.set i p').set j q' := by
  simp only [meshStep, Option.bind_eq_bind, Option.pure_def, Option.bind_eq_some_iff] at h
  obtain ⟨p, hp, ⟨opened, target, p'⟩, hopen, h⟩ := h
  cases opened with
  | false => cases h
  | true =>
    cases hl : l.answers net target.1 target.2 with
    | false => simp [hl] at h
    | true =>
      simp only [hl, Bool.not_true, Bool.false_eq_true, or_self, if_false,
        Option.bind_eq_some_iff, Option.some.injEq] at h
      obtain ⟨q, hq, q', hq', rfl⟩ := h
      exact ⟨p, target, p', q, q', hp, hopen, hl, hq, hq', rfl⟩

/-- What a login gives a peer and its own moves keep, every peer has. -/
lemma meshStep_forall {P : Peer → Prop} {mesh mesh' : List Peer} {a : MeshAction}
    (hjoin : ∀ ci auth options p, a = .join ci auth options →
      joinPeer env other cfg ci auth options = some p → P p)
    (hmove : ∀ p q, P p → Move a p q → P q) (h : ∀ p ∈ mesh, P p)
    (hstep : meshStep env other cfg net mesh a = some mesh') : ∀ p ∈ mesh', P p := by
  cases a with
  | join ci auth options =>
    obtain ⟨p, hp, rfl⟩ := Option.map_eq_some_iff.mp hstep
    exact List.forall_mem_append.mpr
      ⟨h, List.forall_mem_singleton.mpr (hjoin ci auth options p rfl hp)⟩
  | act i a =>
    simp only [meshStep, Option.bind_eq_bind, Option.pure_def, Option.bind_eq_some_iff,
      Option.some.injEq] at hstep
    obtain ⟨p, hp, q, hq, rfl⟩ := hstep
    exact forall_set h (hmove p q (h p (List.mem_of_getElem? hp)) (.act hq))
  | dial i fwd port =>
    simp only [meshStep, Option.bind_eq_bind, Option.pure_def, Option.bind_eq_some_iff,
      Option.some.injEq] at hstep
    obtain ⟨p, hp, q, hq, rfl⟩ := hstep
    exact forall_set h (hmove p q (h p (List.mem_of_getElem? hp)) (.dial hq))
  | leave i os =>
    simp only [meshStep, Option.bind_eq_bind, Option.pure_def, Option.bind_eq_some_iff,
      Option.some.injEq] at hstep
    obtain ⟨p, hp, ⟨opened, target, q⟩, hq, rfl⟩ := hstep
    exact forall_set h (hmove p q (h p (List.mem_of_getElem? hp)) (.leave hq))
  | relay i os j l port =>
    obtain ⟨p, target, p', q, q', hp, hopen, _, hq, hq', rfl⟩ := relay_cases hstep
    have hset := forall_set (i := i) h (hmove p p' (h p (List.mem_of_getElem? hp)) (.relay hopen))
    exact forall_set hset (hmove q q' (hset q (List.mem_of_getElem? hq)) (.accept hq'))
  | session i a =>
    simp only [meshStep, Option.bind_eq_bind, Option.pure_def, Option.bind_eq_some_iff,
      Option.some.injEq] at hstep
    obtain ⟨p, hp, q, hq, rfl⟩ := hstep
    exact forall_set h (hmove p q (h p (List.mem_of_getElem? hp)) (.session hq))
  | logout i =>
    cases hstep
    exact fun p hp => h p (List.mem_of_mem_eraseIdx hp)

/-! ## Sessions -/

lemma joinPeer_cases {ci : ConnectionInfo} {auth : AuthOpts} {options : ForwardOptions} {p : Peer}
    (h : joinPeer env other cfg ci auth options = some p) :
    ∃ l fwds, login env other cfg ci auth = some l ∧
      options.remoteForwards.mapM ForwardSpec.remote = some fwds ∧ loginOf p = l ∧
      p.tunnel = Tunnel.start options.exitOnForwardFailure fwds l.session := by
  simp only [joinPeer, Option.bind_eq_bind, Option.pure_def, Option.bind_eq_some_iff,
    Option.some.injEq] at h
  obtain ⟨l, hl, fwds, hfwds, rfl⟩ := h
  exact ⟨l, fwds, hl, hfwds, rfl, rfl⟩

/-- What the server does for a peer, its session does. -/
lemma step_session {p q : Peer} {a : TunnelAction} (h : p.step a = some q) :
    loginOf q = loginOf p ∨ ∃ os r, a = .serve os ∧ loginOf q = { loginOf p with
      session := (p.tunnel.session.request p.opts p.auth os r).2 } := by
  obtain ⟨t, ht, rfl⟩ := Option.map_eq_some_iff.mp h
  cases a with
  | keepalive =>
    cases ht
    exact Or.inl rfl
  | serve os =>
    cases hm : p.tunnel.toServer with
    | nil => simp [Tunnel.step, hm] at ht
    | cons m toServer =>
      simp only [Tunnel.step, hm, Option.some.injEq] at ht
      subst ht
      cases m with
      | tcpipForward host port => exact Or.inr ⟨os, .tcpipForward host port true, rfl, rfl⟩
      | cancelTcpipForward host port => exact Or.inr ⟨os, .cancelTcpipForward host port, rfl, rfl⟩
      | keepalive => exact Or.inl rfl
  | accept l port =>
    by_cases hl : l ∈ p.tunnel.session.listeners
    · simp only [Tunnel.step, if_pos hl, Option.some.injEq] at ht
      subst ht
      exact Or.inl rfl
    · simp [Tunnel.step, hl] at ht
  | receive =>
    cases hm : p.tunnel.toClient with
    | nil => simp [Tunnel.step, hm] at ht
    | cons m toClient =>
      simp only [Tunnel.step, hm] at ht
      obtain ⟨agent, _, rfl⟩ := Option.map_eq_some_iff.mp ht
      exact Or.inl rfl

lemma open_of_opens {p : Peer} (os : Os) {host : Str} {port originatorPort : Nat}
    {opens : List (Str × Nat × Nat)} (h : p.opens = (host, port, originatorPort) :: opens) :
    p.open os = some ((p.tunnel.session.request p.opts p.auth os
        (.directTcpip host port originatorPort)).1, (host, port),
      { p with
        opens := opens
        tunnel := { p.tunnel with session := (p.tunnel.session.request p.opts p.auth os
          (.directTcpip host port originatorPort)).2 } }) := by
  rw [Peer.open, h]

lemma open_cases {p q : Peer} {os : Os} {opened : Bool} {target : Str × Nat}
    (h : p.open os = some (opened, target, q)) :
    ∃ originatorPort opens s, p.opens = (target.1, target.2, originatorPort) :: opens ∧
      p.tunnel.session.request p.opts p.auth os
        (.directTcpip target.1 target.2 originatorPort) = (opened, s) ∧
      q = { p with opens := opens, tunnel := { p.tunnel with session := s } } := by
  cases ho : p.opens with
  | nil => simp [Peer.open, ho] at h
  | cons o opens =>
    obtain ⟨host, port, originatorPort⟩ := o
    rw [open_of_opens os ho, Option.some.injEq, Prod.mk.injEq, Prod.mk.injEq] at h
    obtain ⟨rfl, rfl, rfl⟩ := h
    exact ⟨originatorPort, opens, _, rfl, rfl, rfl⟩

lemma loggedIn_step {l : Login} (h : LoggedIn env other cfg l) {sa : SessionAction} {s : Session}
    (hs : l.session.step l.opts l.auth sa = some s) :
    LoggedIn env other cfg { l with session := s } := by
  obtain ⟨hopts, hallowed, perms, hperms, hin⟩ := h
  exact ⟨hopts, hallowed, perms, hperms, step_inside hperms hin hs⟩

lemma move_loggedIn {a : MeshAction} {p q : Peer} (h : LoggedIn env other cfg (loginOf p))
    (hm : Move a p q) : LoggedIn env other cfg (loginOf q) := by
  have hstep : ∀ {b : TunnelAction} {q : Peer}, p.step b = some q →
      LoggedIn env other cfg (loginOf q) := by
    intro b q hb
    rcases step_session hb with heq | ⟨os, r, -, heq⟩
    · exact heq ▸ h
    · have hserved : p.tunnel.session.step p.opts p.auth (.request os r) =
          some (p.tunnel.session.request p.opts p.auth os r).2 := rfl
      exact heq ▸ loggedIn_step h hserved
  have hopen : ∀ {os : Os} {opened : Bool} {target : Str × Nat} {q : Peer},
      p.open os = some (opened, target, q) → LoggedIn env other cfg (loginOf q) := by
    intro os opened target q ho
    obtain ⟨originatorPort, _, s, _, hs, rfl⟩ := open_cases ho
    have hstep : p.tunnel.session.step p.opts p.auth
        (.request os (.directTcpip target.1 target.2 originatorPort)) = some s := by
      rw [Session.step, hs]
    exact loggedIn_step h hstep
  cases hm with
  | act hb => exact hstep hb
  | dial hd =>
    unfold Peer.dial at hd
    split_ifs at hd
    obtain ⟨target, _, rfl⟩ := Option.map_eq_some_iff.mp hd
    exact h
  | leave ho => exact hopen ho
  | relay ho => exact hopen ho
  | accept hb => exact hstep hb
  | session hs =>
    obtain ⟨s, hsession, rfl⟩ := Option.map_eq_some_iff.mp hs
    exact loggedIn_step h hsession

lemma mesh_loggedIn {mesh : List Peer} {as : List MeshAction}
    (hr : run (meshStep env other cfg net) [] as = some mesh) :
    ∀ p ∈ mesh, LoggedIn env other cfg (loginOf p) := by
  refine run_preserves (fun mesh => ∀ p ∈ mesh, LoggedIn env other cfg (loginOf p))
    (fun _ _ _ hi hstep => ?_) (by simp) hr
  refine meshStep_forall (fun ci auth options p _ hp => ?_) (fun _ _ => move_loggedIn) hi hstep
  obtain ⟨l, _, hl, _, heq, _⟩ := joinPeer_cases hp
  exact heq ▸ login_loggedIn hl

/-! ## Ports -/

/-- The port of a listener is the port of its socket. -/
def PortsKept (s : Session) : Prop := ∀ l ∈ s.listeners, l.listeningPort = l.localPort

lemma newListeners_port {os : Os} (hos : Faithful os) {gatewayPorts : Nat} {host : Str}
    {port : Nat} {l : Listener}
    (h : l ∈ (channelSetupFwdListenerTcpip os gatewayPorts host port).1) :
    l.listeningPort = l.localPort := by
  unfold channelSetupFwdListenerTcpip at h
  by_cases hlen : niMaxhost ≤ host.length
  · rw [if_pos hlen] at h
    cases h
  · rw [if_neg hlen] at h
    obtain ⟨q, hq, rfl⟩ := List.mem_map.mp h
    by_cases h0 : (port : Int) = 0
    · rw [h0] at hq
      obtain ⟨q', qs, hqs⟩ := List.exists_cons_of_ne_nil (List.ne_nil_of_mem hq)
      have hone : q' = q := hos.one _ q' q (by simp [hqs]) hq
      simp [h0, hqs, hone]
    · dsimp only
      rw [if_neg h0]
      exact (hos.asked _ _ _ hq h0).symm

lemma directTcpip_listeners (opts : ServerOptions) (auth : AuthOpts) (os : Os) (host : Str)
    (port originatorPort : Nat) (s : Session) :
    (s.request opts auth os (.directTcpip host port originatorPort)).2.listeners =
      s.listeners := by
  simp only [Session.request, serverRequestDirectTcpip]
  split_ifs <;> rfl

lemma request_listeners {opts : ServerOptions} {auth : AuthOpts} {os : Os} {host : Str}
    {port originatorPort : Nat} {s s' : Session} {opened : Bool}
    (h : s.request opts auth os (.directTcpip host port originatorPort) = (opened, s')) :
    s'.listeners = s.listeners := by
  rw [← directTcpip_listeners opts auth os host port originatorPort s, h]

lemma request_ports {opts : ServerOptions} {auth : AuthOpts} {os : Os} (hos : Faithful os)
    (r : ClientRequest) {s : Session} (h : PortsKept s) :
    PortsKept (s.request opts auth os r).2 := by
  cases r with
  | directTcpip host port originatorPort =>
    intro l hl
    rw [directTcpip_listeners] at hl
    exact h l hl
  | directStreamlocal path originatorPort =>
    simp only [Session.request, serverRequestDirectStreamlocal]
    split_ifs <;> exact h
  | tun mode =>
    simp only [Session.request, serverRequestTun]
    split_ifs <;> exact h
  | tcpipForward host port wantReply =>
    simp only [Session.request, requestTcpipForward, channelSetupRemoteFwdListener]
    split_ifs
    · exact h
    · exact List.forall_mem_append.mpr ⟨h, fun l hl => newListeners_port hos hl⟩
    · exact h
  | cancelTcpipForward host port =>
    simp only [Session.request, channelCancelRportListenerTcpip]
    split_ifs
    · exact fun l hl => h l (List.mem_filter.mp hl).1
    · exact h
  | streamlocalForward path =>
    simp only [Session.request, requestStreamlocalForward]
    split_ifs <;> exact h
  | cancelStreamlocalForward path => exact h

lemma login_start {ci : ConnectionInfo} {auth : AuthOpts} {l : Login}
    (h : login env other cfg ci auth = some l) : l.ci = ci ∧ l.session.listeners = [] := by
  simp only [login, Option.bind_eq_bind, Option.pure_def, Option.bind_eq_some_iff] at h
  obtain ⟨opts, _, allowed, _, h⟩ := h
  cases allowed with
  | false => cases h
  | true =>
    simp only [Bool.not_true, Bool.false_eq_true, if_false, Option.bind_eq_some_iff,
      Option.some.injEq] at h
    obtain ⟨perms, _, rfl⟩ := h
    exact ⟨rfl, rfl⟩

/-- The system of the gateway is faithful to its sessions. -/
def FairAction : MeshAction → Prop
  | .act _ (.serve os) => Faithful os
  | .session _ (.request os _) => Faithful os
  | _ => True

lemma step_ports {p q : Peer} {a : TunnelAction} (h : PortsKept p.tunnel.session)
    (ha : ∀ os, a = .serve os → Faithful os) (hs : p.step a = some q) :
    PortsKept q.tunnel.session := by
  rcases step_session hs with heq | ⟨os, r, rfl, heq⟩
  · have hsession : q.tunnel.session = p.tunnel.session := congrArg Login.session heq
    exact hsession ▸ h
  · have hsession : q.tunnel.session = (p.tunnel.session.request p.opts p.auth os r).2 :=
      congrArg Login.session heq
    exact hsession ▸ request_ports (ha os rfl) r h

lemma move_ports {a : MeshAction} {p q : Peer} (ha : FairAction a)
    (h : PortsKept p.tunnel.session) (hm : Move a p q) : PortsKept q.tunnel.session := by
  have hopen : ∀ {os : Os} {opened : Bool} {target : Str × Nat} {q : Peer},
      p.open os = some (opened, target, q) → PortsKept q.tunnel.session := by
    intro os opened target q ho
    obtain ⟨_, _, s, _, hs, rfl⟩ := open_cases ho
    exact fun l hl => h l (request_listeners hs ▸ hl)
  cases hm with
  | act hb => exact step_ports h (fun os heq => by subst heq; exact ha) hb
  | dial hd =>
    unfold Peer.dial at hd
    split_ifs at hd
    obtain ⟨target, _, rfl⟩ := Option.map_eq_some_iff.mp hd
    exact h
  | leave ho => exact hopen ho
  | relay ho => exact hopen ho
  | accept hb => exact step_ports h (fun _ heq => TunnelAction.noConfusion heq) hb
  | @session _ b _ _ hb =>
    obtain ⟨s, hs, rfl⟩ := Option.map_eq_some_iff.mp hb
    cases b with
    | request os r =>
      cases hs
      exact request_ports ha r h
    | closed target port =>
      cases hs
      exact h

lemma mesh_ports {mesh : List Peer} {as : List MeshAction} (hf : ∀ a ∈ as, FairAction a)
    (hr : run (meshStep env other cfg net) [] as = some mesh) :
    ∀ p ∈ mesh, PortsKept p.tunnel.session := by
  have hg : Guarded (meshStep env other cfg net) (fun _ => FairAction) [] as :=
    guarded_of_forall hf
  refine run_invariant (fun mesh => ∀ p ∈ mesh, PortsKept p.tunnel.session)
    (fun _ a _ hi ha hstep => ?_) (by simp) hg hr
  refine meshStep_forall (fun ci auth options p _ hp => ?_) (fun _ _ => move_ports ha) hi hstep
  obtain ⟨l, fwds, hl, _, _, ht⟩ := joinPeer_cases hp
  intro x hx
  have hnil : x ∈ l.session.listeners := by rwa [ht] at hx
  rw [(login_start hl).2] at hnil
  cases hnil

/-! ## Who gets to whom -/

lemma grants_local {user : Str} {e : Entry} (h : e ∈ grants user .localFwd) :
    (user = iotDevice1 ∨ user = iotDevice2) ∧ (e = brokerAt ∨ e = sshAt) := by
  simp only [grants] at h
  split_ifs at h with h1 h2
  · exact ⟨Or.inl h1, Or.inl (List.mem_singleton.mp h)⟩
  · simp only [List.mem_cons, List.not_mem_nil, or_false] at h
    exact ⟨Or.inr h2, h.symm⟩
  · cases h

/-- Where a session of the gateway listens. -/
lemma listener_server {l : Login} (h : LoggedIn env other deployedConfig l) {x : Listener}
    (hx : x ∈ l.session.listeners) :
    l.ci.user = iotServer ∧ lowercase x.path = srvAddr ∧ x.listeningPort = 1883 := by
  obtain ⟨hopts, _, _, _, _, hpol⟩ := h
  have hgrants := withinGrants_of_policy ((deployed_perUser other).resolved hopts) hpol
  obtain ⟨_, e, he, hpath, hport⟩ := hgrants.listeners x hx
  obtain ⟨hu, rfl⟩ := grants_remote he
  exact ⟨hu, hpath, hport⟩

lemma step_accept {p : Peer} {l : Listener} {port : Nat} :
    (p.step (.accept l port)).isSome = true ↔ l ∈ p.tunnel.session.listeners := by
  by_cases hl : l ∈ p.tunnel.session.listeners
  · simp [Peer.step, Tunnel.step, hl]
  · simp [Peer.step, Tunnel.step, hl]

/-- A connection of a device to the address of the server, and where it gets. -/
structure Relays (env : Env) (net : Bound → Str → Bool) (os : Os) (l : Listener) (p q : Peer) :
    Prop where
  device : p.ci.user = iotDevice1 ∨ p.ci.user = iotDevice2
  key : KeyAllows env p.auth .localFwd srvAddr (1883 : Nat)
  asked : ∃ originatorPort opens,
    p.opens = (srvAddr, 1883, originatorPort) :: opens ∧ originatorPort ≤ 0xFFFF
  connects : os.connect srvAddr (1883 : Nat) = true ∧ net l.bound srvAddr = true
  server : q.ci.user = iotServer ∧ addressBlock macGW q.ci.user = some srvAddr
  listens : l ∈ q.tunnel.session.listeners ∧ lowercase l.path = srvAddr ∧ l.localPort = 1883

lemma users_ne {user : Str} (h : user = iotDevice1 ∨ user = iotDevice2) : user ≠ iotServer := by
  rcases h with rfl | rfl
  · decide +kernel
  · decide +kernel

lemma addressBlock_server : addressBlock macGW iotServer = some srvAddr := by decide +kernel

lemma set_other {mesh : List Peer} {i j : Nat} {p q : Peer} (p' : Peer) (hp : mesh[i]? = some p)
    (hu : p'.ci.user = p.ci.user) (hd : p.ci.user = iotDevice1 ∨ p.ci.user = iotDevice2)
    (hs : q.ci.user = iotServer) : (mesh.set i p')[j]? = some q ↔ mesh[j]? = some q := by
  by_cases hij : i = j
  · subst hij
    rw [List.getElem?_set_self (List.getElem?_eq_some_iff.mp hp).1, hp]
    refine iff_of_false ?_ ?_
    · rintro ⟨⟩
      exact users_ne hd (hu.symm.trans hs)
    · rintro ⟨⟩
      exact users_ne hd hs
  · rw [List.getElem?_set_ne hij]

lemma relay_relays {mesh mesh' : List Peer} {as : List MeshAction} {i j : Nat} {os : Os}
    {l : Listener} {port : Nat} (hf : ∀ a ∈ as, FairAction a)
    (hr : run (meshStep env other deployedConfig net) [] as = some mesh)
    (hstep : meshStep env other deployedConfig net mesh (.relay i os j l port) = some mesh') :
    ∃ p q, mesh[i]? = some p ∧ mesh[j]? = some q ∧ Relays env net os l p q := by
  obtain ⟨p, target, p', q, q', hp, hopen, hl, hq, hq', -⟩ := relay_cases hstep
  have hin := mesh_loggedIn hr
  have hpin := hin p (List.mem_of_getElem? hp)
  have hset : ∀ p ∈ mesh.set i p', LoggedIn env other deployedConfig (loginOf p) :=
    forall_set hin (move_loggedIn (a := .leave i os) hpin (.leave hopen))
  have hmem : l ∈ q.tunnel.session.listeners := step_accept.mp (Option.isSome_of_eq_some hq')
  obtain ⟨hserver, hpath, hlistening⟩ := listener_server (hset q (List.mem_of_getElem? hq)) hmem
  obtain ⟨originatorPort, opens, s, hopens, hreq, rfl⟩ := open_cases hopen
  obtain ⟨horig, hkey, ⟨e, he, hport, hhost⟩, hos⟩ :=
    hpin.direct_iff.mp (congrArg Prod.fst hreq)
  obtain ⟨hdevice, he'⟩ := grants_local he
  rw [set_other _ hp (by rfl) hdevice hserver] at hq
  have hlocal : l.localPort = 1883 := by
    have hkept := mesh_ports hf hr q (List.mem_of_getElem? hq) l hmem
    rw [hlistening] at hkept
    exact (Int.ofNat.inj hkept).symm
  simp only [Listener.answers, Bool.and_eq_true, decide_eq_true_eq, hlocal] at hl
  obtain rfl : e = brokerAt := by
    rcases he' with rfl | rfl
    · rfl
    · exact absurd (hport.trans hl.1.symm) (by decide)
  obtain ⟨host, port'⟩ := target
  obtain rfl : host = srvAddr := hhost
  obtain rfl : 1883 = port' := hl.1
  exact ⟨p, q, hp, hq, hdevice, hkey, ⟨originatorPort, opens, hopens, horig⟩, ⟨hos, hl.2⟩,
    ⟨hserver, (congrArg _ hserver).trans addressBlock_server⟩, hmem, hpath, hlocal⟩

lemma relay_of_relays {mesh : List Peer} {as : List MeshAction} {i j : Nat} {os : Os}
    {l : Listener} {port : Nat} {p q : Peer}
    (hr : run (meshStep env other deployedConfig net) [] as = some mesh) (hp : mesh[i]? = some p)
    (hq : mesh[j]? = some q) (h : Relays env net os l p q) :
    (meshStep env other deployedConfig net mesh (.relay i os j l port)).isSome = true := by
  obtain ⟨hdevice, hkey, ⟨originatorPort, opens, hopens, horig⟩, ⟨hos, hnet⟩, ⟨hserver, _⟩, hmem,
    _, hlocal⟩ := h
  have hpin := mesh_loggedIn hr p (List.mem_of_getElem? hp)
  have hgrant : brokerAt ∈ grants p.ci.user .localFwd := by
    rcases hdevice with hd | hd
    · simp [grants, hd]
    · simp only [grants, hd]
      split_ifs <;> simp
  have hok : (p.tunnel.session.request p.opts p.auth os
      (.directTcpip srvAddr 1883 originatorPort)).1 = true :=
    hpin.direct_iff.mpr ⟨horig, hkey, ⟨brokerAt, hgrant, rfl, rfl⟩, hos⟩
  have hopen := open_of_opens os hopens
  rw [hok] at hopen
  have haccept : (q.step (.accept l port)).isSome = true := step_accept.mpr hmem
  obtain ⟨q', hq'⟩ := Option.isSome_iff_exists.mp haccept
  have hanswers : l.answers net srvAddr 1883 = true := by
    simp [Listener.answers, hlocal, hnet]
  have hset := fun p' hu => (set_other p' hp hu hdevice hserver).mpr hq
  simp [meshStep, hp, hopen, hanswers, hset, hq']

/-- Whatever the clients of the gateway do, ours or not, at any time: a connection through it
gets to a listener of a session exactly if a device asks for the broker at the address of the
server's account, its key and the system do not stand in the way, and the session is one of the
server's. -/
theorem relay_iff {mesh : List Peer} {as : List MeshAction} (hf : ∀ a ∈ as, FairAction a)
    (hr : run (meshStep env other deployedConfig net) [] as = some mesh) (i j : Nat) (os : Os)
    (l : Listener) (port : Nat) :
    (meshStep env other deployedConfig net mesh (.relay i os j l port)).isSome = true ↔
      ∃ p q, mesh[i]? = some p ∧ mesh[j]? = some q ∧ Relays env net os l p q := by
  constructor
  · intro h
    obtain ⟨mesh', hstep⟩ := Option.isSome_iff_exists.mp h
    exact relay_relays hf hr hstep
  · rintro ⟨p, q, hp, hq, h⟩
    exact relay_of_relays hr hp hq h

def srvForward : ForwardSpec := tcpForward srvAddr 1883 "::1".toList 1883

def devForward : ForwardSpec := tcpForward srvAddr 1883 srvAddr 1883

def srvListener : Listener where
  path := srvAddr
  listeningAddr := some srvAddr
  listeningPort := 1883
  bound := .addr srvAddr
  localPort := 1883

/-- The server logs in and gets its listener; a device logs in, and its client accepts a
connection. -/
def meshRun : List MeshAction :=
  [.join (connectionOf iotServer) {}
      { remoteForwards := [srvForward], exitOnForwardFailure := true },
    .act 0 (.serve bindingOs), .act 0 .receive,
    .join (connectionOf iotDevice1) {}
      { localForwards := [devForward], exitOnForwardFailure := true },
    .dial 1 devForward 5]

def meshRelay : MeshAction := .relay 1 grantingOs 0 srvListener 6

/-- What is on its way to each client. -/
def toClients (mesh : List Peer) : List (List ToClient) := mesh.map (fun p => p.tunnel.toClient)

lemma meshRun_toClients : (run (meshStep bareEnv otherKeyword deployedConfig (fun _ _ => true)) []
    (meshRun ++ [meshRelay])).map toClients = some [[.forwardedTcpip srvAddr 1883 6], []] := by
  rw [deployedConfig_chars, otherKeyword_chars]
  decide +kernel

lemma meshRun_fair : ∀ a ∈ meshRun, FairAction a := by
  simp [meshRun, FairAction, bindingOs_faithful]

theorem relay_iff_device :
    ∃ mesh, run (meshStep bareEnv otherKeyword deployedConfig (fun _ _ => true)) [] meshRun =
        some mesh ∧
      ∃ p q, mesh[1]? = some p ∧ mesh[0]? = some q ∧
        Relays bareEnv (fun _ _ => true) grantingOs srvListener p q := by
  obtain ⟨_, hr, _⟩ := Option.map_eq_some_iff.mp meshRun_toClients
  obtain ⟨mesh, hr, hrelay⟩ := run_append.mp hr
  obtain ⟨mesh', hstep, _⟩ := run_cons.mp hrelay
  exact ⟨mesh, hr, (relay_iff meshRun_fair hr 1 0 grantingOs srvListener 6).mp
    (Option.isSome_of_eq_some hstep)⟩

/-! ## The agents of the endpoints -/

lemma get_vip_groups {mac addr : Str} (h : get_vip macGW mac = some addr) :
    ∃ m, isMac m = true ∧ addr = [':'].intercalate (groups m) := by
  rw [get_vip_eq (by decide +kernel), addressBlock] at h
  split_ifs at h with hm
  refine ⟨_, hm, ?_⟩
  rw [← text_eq_groups (isMac_iff.mp hm).1]
  exact (Option.some.inj h).symm

/-- The address of an agent can stand in brackets. -/
lemma vip_plain (mac : Str) :
    (∀ c, c ≠ ':' → lowerHex c = false → c ∉ vip mac) ∧ (vip mac).length < niMaxhost := by
  unfold vip
  cases h : get_vip macGW mac with
  | none => exact ⟨by simp, by decide⟩
  | some addr =>
    obtain ⟨m, hm, rfl⟩ := get_vip_groups h
    constructor
    · intro c hc hhex hmem
      rw [Option.getD_some, ← List.count_pos_iff, Tokens.count_intercalate hc,
        List.count_pos_iff, List.mem_flatten] at hmem
      obtain ⟨g, hg, hcg⟩ := hmem
      exact absurd ((padded_groups hm g hg).2 c hcg) (by simp [hhex])
    · obtain ⟨a, b, c, d, e, f, g, i, j, k, l, n, rfl⟩ :=
        eq_of_length_twelve (isMac_iff.mp hm).1
      exact (by decide : 39 < niMaxhost)

lemma bindHost_of_ne {host : Str} (h : host ≠ ['*']) : channelRfwdBindHost (some host) = host := by
  unfold channelRfwdBindHost
  dsimp only
  split_ifs with hany
  · exact (hany.resolve_right h).symm
  · rfl

lemma bindHost_vip (mac : Str) : channelRfwdBindHost (some (vip mac)) = vip mac :=
  bindHost_of_ne (fun h => (vip_plain mac).1 '*' (by decide) (by decide) (h ▸ List.mem_cons_self))

/-- The `-R` option of the server on a machine. -/
def brokerForward (mac : Str) : RemoteForward where
  listenHost := some (vip mac)
  listenPort := 1883
  connectHost := "::1".toList
  connectPort := 1883

section
variable {getenv : Str → Option Str} {services : Str → Option Int}

lemma readForwards_server {mac : Str} {options : ForwardOptions}
    (h : readForwards getenv services (serverArgv mac) = some options) :
    options.remoteForwards.mapM ForwardSpec.remote = some [brokerForward mac] := by
  obtain ⟨hplain, hlen⟩ := vip_plain mac
  have htext : '[' :: (vip mac ++ ']' :: ':' :: (mqttPort ++ ":[::1]:".toList ++ mqttPort)) =
      bracketText (vip mac) 1883 "::1".toList 1883 := by
    have hport : Nat.toDigits 10 1883 = mqttPort := by decide +kernel
    have hlocal : ":[::1]:".toList = ':' :: '[' :: ("::1".toList ++ [']']) ++ [':'] := by
      decide +kernel
    simp [bracketText, hport, hlocal]
  have hparse : parseForward getenv services (bracketText (vip mac) 1883 "::1".toList 1883) false
      true = some (tcpForward (vip mac) (1883 : Nat) "::1".toList (1883 : Nat)) :=
    parseForward_bracketText
      ⟨hplain ']' (by decide) (by decide), hplain '$' (by decide) (by decide), hlen⟩
      ⟨by decide, by decide, by decide⟩ (by decide) (by decide)
  simp only [readForwards, serverArgv, htext, List.foldlM_cons, List.foldlM_nil, forwardOption,
    hparse, Option.some_or, Option.map_some, Option.bind_eq_bind, Option.bind_some,
    Option.pure_def, Option.some.injEq] at h
  subst h
  rfl

lemma readForwards_device {options : ForwardOptions}
    (h : readForwards getenv services deviceArgv = some options) :
    options.remoteForwards.mapM ForwardSpec.remote = some [] := by
  simp only [readForwards, deviceArgv, List.foldlM_cons, List.foldlM_nil, Option.bind_eq_bind,
    Option.pure_def, Option.bind_eq_some_iff, Option.map_eq_some_iff, Option.some.injEq] at h
  obtain ⟨_, ⟨fwd, _, rfl⟩, rfl⟩ := h
  rfl

/-- Every agent is one of the endpoints' on some machine, sessions only do what their agents ask
for, the system of the gateway is faithful, and ports have 16 bits. -/
def Scripted (getenv : Str → Option Str) (services : Str → Option Int) : MeshAction → Prop
  | .join ci _ options => ∃ mac, ci.user = endpointUser mac ∧
      (agentOptions getenv services (serverArgv mac) = some options ∨
        agentOptions getenv services deviceArgv = some options)
  | .act _ a => Honest a
  | .relay _ _ _ _ port => port ≤ 0xFFFF
  | .session _ (.request _ _) => False
  | _ => True

/-- The two ends of a connection of an endpoint agree. -/
def Bridged (p : Peer) : Prop :=
  ∃ mac fwds, p.ci.user = endpointUser mac ∧ (fwds = [brokerForward mac] ∨ fwds = []) ∧
    InStep true fwds p.tunnel

lemma InStep.session {exits : Bool} {fwds : List RemoteForward} {t : Tunnel} {s : Session}
    (h : InStep exits fwds t) (hs : s.listeners = t.session.listeners) :
    InStep exits fwds { t with session := s } :=
  ⟨h.exit, h.own, h.counted, hs ▸ h.served⟩

lemma join_bridged {ci : ConnectionInfo} {auth : AuthOpts} {options : ForwardOptions} {p : Peer}
    (hs : Scripted getenv services (.join ci auth options))
    (h : joinPeer env other cfg ci auth options = some p) : Bridged p := by
  obtain ⟨l, fwds, hl, hfwds, heq, ht⟩ := joinPeer_cases h
  obtain ⟨mac, hmac, hargv⟩ := hs
  obtain ⟨hci, hlisteners⟩ := login_start hl
  have huser : p.ci.user = endpointUser mac := by
    have hpci : p.ci = ci := hci ▸ congrArg Login.ci heq
    rw [hpci, hmac]
  have hexits : options.exitOnForwardFailure = true := by
    rcases hargv with hargv | hargv
    · obtain ⟨_, _, rfl⟩ := Option.map_eq_some_iff.mp hargv
      rfl
    · obtain ⟨_, _, rfl⟩ := Option.map_eq_some_iff.mp hargv
      rfl
  rw [hexits] at ht
  refine ⟨mac, fwds, huser, ?_, ht ▸ inStep_start true fwds hlisteners⟩
  rcases hargv with hargv | hargv
  · obtain ⟨_, hread, rfl⟩ := Option.map_eq_some_iff.mp hargv
    have hforwards := readForwards_server hread
    exact Or.inl (Option.some.inj (hfwds.symm.trans hforwards))
  · obtain ⟨_, hread, rfl⟩ := Option.map_eq_some_iff.mp hargv
    have hforwards := readForwards_device hread
    exact Or.inr (Option.some.inj (hfwds.symm.trans hforwards))

lemma move_bridged {a : MeshAction} {p q : Peer} (hs : Scripted getenv services a)
    (h : Bridged p) (hm : Move a p q) : Bridged q := by
  obtain ⟨mac, fwds, huser, hfwds, hin⟩ := h
  have hstep : ∀ {b : TunnelAction} {q : Peer}, Honest b → p.step b = some q → Bridged q := by
    intro b q hb hq
    obtain ⟨t, ht, rfl⟩ := Option.map_eq_some_iff.mp hq
    exact ⟨mac, fwds, huser, hfwds, inStep_step hin hb ht⟩
  have hopen : ∀ {os : Os} {opened : Bool} {target : Str × Nat} {q : Peer},
      p.open os = some (opened, target, q) → Bridged q := by
    intro os opened target q ho
    obtain ⟨_, _, s, _, hs, rfl⟩ := open_cases ho
    exact ⟨mac, fwds, huser, hfwds, hin.session (request_listeners hs)⟩
  cases hm with
  | act hb => exact hstep hs hb
  | dial hd =>
    unfold Peer.dial at hd
    split_ifs at hd
    obtain ⟨target, _, rfl⟩ := Option.map_eq_some_iff.mp hd
    exact ⟨mac, fwds, huser, hfwds, hin⟩
  | leave ho => exact hopen ho
  | relay ho => exact hopen ho
  | accept hb => exact hstep (b := .accept _ _) hs hb
  | @session _ b _ _ hb =>
    cases b with
    | request os r => exact hs.elim
    | closed target port =>
      cases hb
      exact ⟨mac, fwds, huser, hfwds, hin.session rfl⟩

lemma mesh_bridged {mesh : List Peer} {as : List MeshAction}
    (hs : ∀ a ∈ as, Scripted getenv services a)
    (hr : run (meshStep env other cfg net) [] as = some mesh) : ∀ p ∈ mesh, Bridged p := by
  have hg : Guarded (meshStep env other cfg net) (fun _ => Scripted getenv services) [] as :=
    guarded_of_forall hs
  refine run_invariant (fun mesh => ∀ p ∈ mesh, Bridged p) (fun _ a _ hi ha hstep => ?_)
    (by simp) hg hr
  exact meshStep_forall (fun ci auth options p heq hp => join_bridged (heq ▸ ha) hp)
    (fun _ _ => move_bridged ha) hi hstep

/-- Where the agents are those of the endpoints, the next message on its way to an agent ends it
exactly if it refuses its forward, and what is forwarded to it gets to the broker of its machine,
for the address of this machine. -/
theorem agents_reach_broker {mesh : List Peer} {as : List MeshAction}
    (hs : ∀ a ∈ as, Scripted getenv services a)
    (hr : run (meshStep env other cfg net) [] as = some mesh) {p : Peer} (hp : p ∈ mesh)
    {m : ToClient} {toClient : List ToClient} (hm : p.tunnel.toClient = m :: toClient) :
    ((p.step .receive).isSome = true ↔ ¬Refuses p.tunnel.agent m) ∧
      ∀ addr port originatorPort, m = .forwardedTcpip addr port originatorPort →
        (p.tunnel.agent.receive m).2 = some (.connectTo "::1".toList 1883) ∧ port = 1883 ∧
          ∃ mac, p.ci.user = endpointUser mac ∧ addr = vip mac := by
  obtain ⟨mac, fwds, huser, hfwds, hin⟩ := mesh_bridged hs hr p hp
  constructor
  · rw [Peer.step, Option.isSome_map, inStep_receive_iff hin hm]
    simp
  · rintro addr port originatorPort rfl
    obtain ⟨fwd, hmem, heq, haddr, hport⟩ := inStep_forwarded hin hm
    rcases hfwds with rfl | rfl
    · obtain rfl := List.mem_singleton.mp hmem
      refine ⟨heq, ?_, mac, huser, ?_⟩
      · rcases hport with hport | hport
        · exact hport.symm
        · cases hport
      · exact haddr.symm.trans (bindHost_vip mac)
    · cases hmem

def macDevice1 : Str := "02:5f:9a:3d:b7:12".toList

/-- Without variables and without named services. -/
lemma read_server : agentOptions (fun _ => none) (fun _ => none) (serverArgv macSrv) =
    some { remoteForwards := [srvForward], exitOnForwardFailure := true } := by
  decide +kernel

lemma read_device : agentOptions (fun _ => none) (fun _ => none) deviceArgv =
    some { localForwards := [devForward], exitOnForwardFailure := true } := by
  decide +kernel

lemma meshRun_scripted :
    ∀ a ∈ meshRun ++ [meshRelay], Scripted (fun _ => none) (fun _ => none) a := by
  have hserver : endpointUser macSrv = iotServer := by decide +kernel
  have hdevice : endpointUser macDevice1 = iotDevice1 := by decide +kernel
  intro a ha
  simp only [meshRun, meshRelay, List.cons_append, List.nil_append, List.mem_cons,
    List.not_mem_nil, or_false] at ha
  rcases ha with rfl | rfl | rfl | rfl | rfl | rfl
  · exact ⟨macSrv, hserver.symm, Or.inl read_server⟩
  · exact bindingOs_faithful
  · trivial
  · exact ⟨macDevice1, hdevice.symm, Or.inr read_device⟩
  · trivial
  · exact (by decide : 6 ≤ 0xFFFF)

/-- The agent of the server, before it has got an answer. -/
def waitingAgent : Agent where
  remoteForwards := [brokerForward macSrv]
  exitOnForwardFailure := true
  permittedUser := [requestedPermission (brokerForward macSrv)]
  globalConfirms := [⟨some 0, 1⟩]

/-- The gateway does not get the socket that the server asks for. -/
def refusedRun : List MeshAction :=
  [.join (connectionOf iotServer) {}
      { remoteForwards := [srvForward], exitOnForwardFailure := true },
    .act 0 (.serve refusingOs)]

lemma refusedRun_agents :
    (run (meshStep bareEnv otherKeyword deployedConfig (fun _ _ => true)) [] refusedRun).map
      (List.map (fun p => (p.tunnel.toClient, p.tunnel.agent))) =
        some [([.failure], waitingAgent)] := by
  rw [deployedConfig_chars, otherKeyword_chars]
  decide +kernel

lemma refusedRun_scripted : ∀ a ∈ refusedRun, Scripted (fun _ => none) (fun _ => none) a := by
  intro a ha
  simp only [refusedRun, List.mem_cons, List.not_mem_nil, or_false] at ha
  rcases ha with rfl | rfl
  · exact ⟨macSrv, by decide +kernel, Or.inl read_server⟩
  · exact refusingOs_faithful

/-- A connection of a device gets to the broker, and an agent that is refused its forward ends. -/
theorem agents_reach_broker_device :
    (∃ mesh p, run (meshStep bareEnv otherKeyword deployedConfig (fun _ _ => true)) []
        (meshRun ++ [meshRelay]) = some mesh ∧ p ∈ mesh ∧
      p.tunnel.toClient = [.forwardedTcpip srvAddr 1883 6] ∧
      (p.tunnel.agent.receive (.forwardedTcpip srvAddr 1883 6)).2 =
        some (.connectTo "::1".toList 1883)) ∧
    ∃ mesh p, run (meshStep bareEnv otherKeyword deployedConfig (fun _ _ => true)) []
        refusedRun = some mesh ∧ p ∈ mesh ∧ p.tunnel.toClient = [.failure] ∧
      ¬(p.step .receive).isSome = true := by
  constructor
  · obtain ⟨mesh, hr, hu⟩ := Option.map_eq_some_iff.mp meshRun_toClients
    cases mesh with
    | nil => cases hu
    | cons p mesh =>
      have hto : p.tunnel.toClient = [.forwardedTcpip srvAddr 1883 6] := (List.cons.inj hu).1
      have hp : p ∈ p :: mesh := List.mem_cons_self
      exact ⟨p :: mesh, p, hr, hp, hto,
        ((agents_reach_broker meshRun_scripted hr hp hto).2 srvAddr 1883 6 rfl).1⟩
  · obtain ⟨mesh, hr, hu⟩ := Option.map_eq_some_iff.mp refusedRun_agents
    cases mesh with
    | nil => cases hu
    | cons p mesh =>
      have hto : p.tunnel.toClient = [.failure] := congrArg Prod.fst (List.cons.inj hu).1
      have hagent : p.tunnel.agent = waitingAgent := congrArg Prod.snd (List.cons.inj hu).1
      have hp : p ∈ p :: mesh := List.mem_cons_self
      refine ⟨p :: mesh, p, hr, hp, hto, fun hsome => ?_⟩
      refine (agents_reach_broker refusedRun_scripted hr hp hto).1.mp hsome ?_
      rw [hagent]
      exact ⟨rfl, ⟨some 0, 1⟩, 0, brokerForward macSrv, rfl, rfl, rfl⟩

end

end CMXSafe.Proofs
