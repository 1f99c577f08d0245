import CMXSafe.Proofs.Sessions
import CMXSafe.Proofs.Tunnels

/-!
# Delivery through a tunnel

A client and an sshd at the two ends of a connection. Replies carry no name: the client tells by
their order, with identical callbacks counted, which request one is for. Every reply gets to the
request that it is for, and every connection that a listener accepts gets to a target.
-/

namespace CMXSafe.Proofs
open OpenSSH Strings Machines

/-! ## Callbacks -/

/-- The callbacks that wait for a reply, one by one. -/
def callbacks (confirms : List GlobalConfirm) : List (Option Nat) :=
  confirms.flatMap (fun gc => List.replicate gc.refCount gc.ctx)

def Counted (confirms : List GlobalConfirm) : Prop := ∀ gc ∈ confirms, 0 < gc.refCount

lemma callbacks_cons (gc : GlobalConfirm) (confirms : List GlobalConfirm) :
    callbacks (gc :: confirms) = List.replicate gc.refCount gc.ctx ++ callbacks confirms := rfl

lemma callbacks_concat (confirms : List GlobalConfirm) (gc : GlobalConfirm) :
    callbacks (confirms ++ [gc]) = callbacks confirms ++ List.replicate gc.refCount gc.ctx := by
  simp [callbacks]

lemma counted_concat {confirms : List GlobalConfirm} {gc : GlobalConfirm} :
    Counted (confirms ++ [gc]) ↔ Counted confirms ∧ 0 < gc.refCount := by
  simp only [Counted, List.forall_mem_append, List.forall_mem_singleton]

lemma callbacks_register (ctx : Option Nat) (confirms : List GlobalConfirm) :
    callbacks (clientRegisterGlobalConfirm ctx confirms) = callbacks confirms ++ [ctx] := by
  unfold clientRegisterGlobalConfirm
  rcases List.eq_nil_or_concat' confirms with rfl | ⟨front, last, rfl⟩
  · rfl
  · simp only [List.getLast?_concat, List.dropLast_concat]
    split_ifs with h
    · rw [callbacks_concat, callbacks_concat, List.append_assoc, List.replicate_succ', h]
    · exact callbacks_concat _ _

lemma counted_register (ctx : Option Nat) {confirms : List GlobalConfirm} (h : Counted confirms) :
    Counted (clientRegisterGlobalConfirm ctx confirms) := by
  unfold clientRegisterGlobalConfirm
  rcases List.eq_nil_or_concat' confirms with rfl | ⟨front, last, rfl⟩
  · simp [Counted]
  · simp only [List.getLast?_concat, List.dropLast_concat]
    split_ifs
    · exact counted_concat.mpr ⟨(counted_concat.mp h).1, Nat.succ_pos _⟩
    · exact counted_concat.mpr ⟨h, Nat.one_pos⟩

/-- What a reply does to the permissions of the client whose callback it meets. -/
def confirmed (exits : Bool) (fwds : List RemoteForward) (ctx : Option Nat) (reply : ToClient)
    (perms : List Permission) : Option (List Permission) :=
  ctx.elim (some perms) (fun idx => (sshConfirmRemoteForward idx reply
    { remoteForwards := fwds, exitOnForwardFailure := exits, permittedUser := perms }).map
      Agent.permittedUser)

lemma confirm_frame (idx : Nat) (reply : ToClient) (agent : Agent) :
    sshConfirmRemoteForward idx reply agent =
      (confirmed agent.exitOnForwardFailure agent.remoteForwards (some idx) reply
        agent.permittedUser).map (fun perms => { agent with permittedUser := perms }) := by
  obtain ⟨fwds, exits, perms, confirms⟩ := agent
  simp only [confirmed, Option.elim_some, sshConfirmRemoteForward]
  cases fwds[idx]? with
  | none => rfl
  | some rfwd =>
    by_cases h : rfwd.listenPort = 0
    · simp only [if_pos h]
      cases reply with
      | success port =>
        cases port with
        | none => rfl
        | some port => by_cases hp : 65535 < port <;> cases exits <;> simp [hp]
      | failure => cases exits <;> rfl
      | forwardedTcpip _ _ _ => cases exits <;> rfl
    · simp only [if_neg h]
      cases reply <;> cases exits <;> simp

/-- A reply meets the callback that has waited longest. -/
lemma reply_confirmed {agent : Agent} {ctx : Option Nat} {waiting : List (Option Nat)}
    {reply : ToClient} {perms : List Permission} (hc : Counted agent.globalConfirms)
    (hw : callbacks agent.globalConfirms = ctx :: waiting)
    (hp : confirmed agent.exitOnForwardFailure agent.remoteForwards ctx reply
      agent.permittedUser = some perms) :
    ∃ left, Counted left ∧ callbacks left = waiting ∧
      clientGlobalRequestReply reply agent =
        some { agent with permittedUser := perms, globalConfirms := left } := by
  obtain ⟨fwds, exits, perms₀, confirms⟩ := agent
  cases confirms with
  | nil => cases hw
  | cons gc confirms =>
    have hpos : 0 < gc.refCount := hc gc (by simp)
    have hrest : Counted confirms := fun g hg => hc g (by simp [hg])
    obtain ⟨n, hn⟩ : ∃ n, gc.refCount = n + 1 := ⟨gc.refCount - 1, by omega⟩
    dsimp only at hw hp
    rw [callbacks_cons, hn, List.replicate_succ, List.cons_append, List.cons.injEq] at hw
    obtain ⟨rfl, hw⟩ := hw
    refine ⟨if gc.refCount ≤ 1 then confirms
      else { gc with refCount := gc.refCount - 1 } :: confirms, ?_, ?_, ?_⟩
    · split_ifs with h1
      · exact hrest
      · exact List.forall_mem_cons.mpr ⟨by dsimp only; omega, hrest⟩
    · rw [← hw]
      split_ifs with h1
      · obtain rfl : n = 0 := by omega
        rfl
      · rw [callbacks_cons, hn]
        rfl
    · simp only [clientGlobalRequestReply]
      cases hctx : gc.ctx with
      | none =>
        rw [hctx] at hp
        cases hp
        simp
      | some idx =>
        rw [hctx] at hp
        simp [confirm_frame, hp]

/-! ## What is on its way -/

/-- On their way to the server are the requests of the options from the `k`-th on, between
keepalives; each has its callback. -/
inductive Awaits (fwds : List RemoteForward) : Nat → List ToServer → List (Option Nat) → Prop where
  | done : Awaits fwds fwds.length [] []
  | keepalive {k toServer waiting} (h : Awaits fwds k toServer waiting) :
      Awaits fwds k (.keepalive :: toServer) (none :: waiting)
  | forward {k toServer waiting fwd} (hfwd : fwds[k]? = some fwd)
      (h : Awaits fwds (k + 1) toServer waiting) :
      Awaits fwds k (.tcpipForward (channelRfwdBindHost fwd.listenHost) fwd.listenPort :: toServer)
        (some k :: waiting)

lemma Awaits.concat {fwds : List RemoteForward} {k : Nat} {toServer : List ToServer}
    {waiting : List (Option Nat)} (h : Awaits fwds k toServer waiting) :
    Awaits fwds k (toServer ++ [.keepalive]) (waiting ++ [none]) := by
  induction h with
  | done => exact .keepalive .done
  | keepalive _ ih => exact .keepalive ih
  | forward hfwd _ ih => exact .forward hfwd ih

lemma awaits_start (front back : List RemoteForward) :
    Awaits (front ++ back) front.length
      (back.map (fun fwd => .tcpipForward (channelRfwdBindHost fwd.listenHost) fwd.listenPort))
      ((List.range' front.length back.length).map some) := by
  induction back generalizing front with
  | nil =>
    have h : Awaits front front.length [] [] := .done
    simpa using h
  | cons fwd back ih =>
    have h := ih (front ++ [fwd])
    rw [List.append_assoc, List.singleton_append, List.length_append, List.length_singleton] at h
    exact .forward (by simp) h

/-- The listener stands where the option asks for it, and the client knows its port. -/
def Serves (fwd : RemoteForward) (perm : Permission) (l : Listener) : Prop :=
  l.path = channelRfwdBindHost fwd.listenHost ∧
    perm = { requestedPermission fwd with listenPort := l.localPort }

/-- What the client holds of an option behind the reply. The port is that of a listener, unless
the server has refused it, which only a client survives that does not exit on it; then a port
that it asked for stays, and one that it left to the server is cleared. -/
def KnownPort (exits : Bool) (listeners : List Listener) (fwd : RemoteForward)
    (perm : Permission) : Prop :=
  (exits = false ∧ perm = if fwd.listenPort = 0 then {} else requestedPermission fwd) ∨
    (fwd.listenPort ≠ 0 → perm = requestedPermission fwd) ∧ ∃ l ∈ listeners, Serves fwd perm l

/-- The client and the server agree, the first `k` requests being answered. -/
structure Agreed (exits : Bool) (fwds : List RemoteForward) (toServer : List ToServer)
    (listeners : List Listener) (k : Nat) (waiting : List (Option Nat))
    (perms : List Permission) : Prop where
  awaits : Awaits fwds k toServer waiting
  length : perms.length = fwds.length
  unanswered : ∀ (i : Nat) (fwd : RemoteForward), k ≤ i → fwds[i]? = some fwd →
    perms[i]? = some (requestedPermission fwd)
  answered : ∀ (i : Nat) (fwd : RemoteForward) (perm : Permission), i < k → fwds[i]? = some fwd →
    perms[i]? = some perm → KnownPort exits listeners fwd perm
  listening : ∀ l ∈ listeners, l.localPort ≤ 0xFFFF ∧ ∃ (i : Nat) (fwd : RemoteForward)
    (perm : Permission), i < k ∧ fwds[i]? = some fwd ∧ perms[i]? = some perm ∧ Serves fwd perm l

/-- A connection to a port of the server that the client will not refuse. -/
def Connected (perms : List Permission) (addr : Str) (port originatorPort : Nat) : Prop :=
  port ≤ 0xFFFF ∧ originatorPort ≤ 0xFFFF ∧
    ∃ perm ∈ perms, openListenMatchTcpip perm (some addr) port true = true

def IsReply : ToClient → Prop
  | .forwardedTcpip _ _ _ => False
  | _ => True

/-- The messages on their way to the client lead to agreement, or to the end of the client, and
none is a surprise. -/
inductive Served (exits : Bool) (fwds : List RemoteForward) (toServer : List ToServer)
    (listeners : List Listener) :
    List (Option Nat) → List Permission → List ToClient → Prop where
  | agreed {k waiting perms} (h : Agreed exits fwds toServer listeners k waiting perms) :
      Served exits fwds toServer listeners waiting perms []
  | opened {waiting perms toClient addr port originatorPort}
      (hc : Connected perms addr port originatorPort)
      (h : Served exits fwds toServer listeners waiting perms toClient) :
      Served exits fwds toServer listeners waiting perms
        (.forwardedTcpip addr port originatorPort :: toClient)
  | answered {ctx waiting perms perms' reply toClient} (hr : IsReply reply)
      (hp : confirmed exits fwds ctx reply perms = some perms')
      (h : Served exits fwds toServer listeners waiting perms' toClient) :
      Served exits fwds toServer listeners (ctx :: waiting) perms (reply :: toClient)
  | fatal {idx fwd waiting perms toClient} (he : exits = true) (hfwd : fwds[idx]? = some fwd) :
      Served exits fwds toServer listeners (some idx :: waiting) perms (.failure :: toClient)

variable {exits : Bool}

/-- What is sent, on either side, is met once all that is on its way has arrived. -/
lemma Served.append {fwds : List RemoteForward} {toServer toServer' : List ToServer}
    {listeners listeners' : List Listener} {waiting more : List (Option Nat)}
    {perms : List Permission} {toClient sent : List ToClient}
    (h : Served exits fwds toServer listeners waiting perms toClient)
    (hs : ∀ k waiting perms, Agreed exits fwds toServer listeners k waiting perms →
      Served exits fwds toServer' listeners' (waiting ++ more) perms sent) :
    Served exits fwds toServer' listeners' (waiting ++ more) perms (toClient ++ sent) := by
  induction h with
  | agreed h => exact hs _ _ _ h
  | opened hc _ ih => exact .opened hc ih
  | answered hr hp _ ih => exact .answered hr hp ih
  | fatal he hfwd => exact .fatal he hfwd

/-! ## Requests -/

/-- The system listens where it is asked to; for port 0 it takes one free port for every socket. -/
structure Faithful (os : Os) : Prop where
  port : ∀ b p q, q ∈ os.listen b p → 0 < q ∧ q ≤ 0xFFFF
  asked : ∀ b p q, q ∈ os.listen b p → p ≠ 0 → (q : Int) = p
  one : ∀ b q q', q ∈ os.listen b 0 → q' ∈ os.listen b 0 → q = q'

/-- What a server has done about the request of an option. -/
inductive Answer (fwd : RemoteForward) (s : Session) : Option ToClient × Session → Prop where
  | refused : Answer fwd s (some .failure, s)
  | asked (new : List Listener) (hport : fwd.listenPort ≠ 0) (hne : new ≠ [])
      (hnew : ∀ l ∈ new, l.path = channelRfwdBindHost fwd.listenHost ∧
        l.localPort = fwd.listenPort ∧ l.localPort ≤ 0xFFFF) :
      Answer fwd s (some (.success none), { s with listeners := s.listeners ++ new })
  | allocated (new : List Listener) (port : Nat) (hport : fwd.listenPort = 0) (hne : new ≠ [])
      (hpos : 0 < port) (hle : port ≤ 0xFFFF)
      (hnew : ∀ l ∈ new, l.path = channelRfwdBindHost fwd.listenHost ∧ l.localPort = port) :
      Answer fwd s (some (.success (some port)), { s with listeners := s.listeners ++ new })

variable {opts : ServerOptions} {auth : AuthOpts}

/-- The port that new listeners report is that of one of their sockets, for a request of port 0. -/
lemma allocatedPort {os : Os} {gatewayPorts : Nat} {host : Str} {port : Nat}
    (hne : (channelSetupFwdListenerTcpip os gatewayPorts host port).1 ≠ []) :
    port ≠ 0 ∧ (channelSetupFwdListenerTcpip os gatewayPorts host port).2 = 0 ∨
      port = 0 ∧ ∃ q ∈ os.listen (boundOf (channelFwdBindAddr gatewayPorts host)) 0,
        (channelSetupFwdListenerTcpip os gatewayPorts host port).2 = (q : Int) := by
  have hlisten := (newListeners_ne_nil.mp hne).2
  have hlen : ¬niMaxhost ≤ host.length := Nat.not_le.mpr (newListeners_ne_nil.mp hne).1
  unfold channelSetupFwdListenerTcpip
  rw [if_neg hlen]
  by_cases h0 : port = 0
  · subst h0
    obtain ⟨q, qs, hq⟩ := List.exists_cons_of_ne_nil hlisten
    replace hq : os.listen (boundOf (channelFwdBindAddr gatewayPorts host)) 0 = q :: qs := hq
    exact Or.inr ⟨rfl, q, by simp [hq], by simp [hq]⟩
  · exact Or.inl ⟨h0, by simp [h0]⟩

lemma requestTcpipForward_listeners (opts : ServerOptions) (auth : AuthOpts) (os : Os)
    (host : Str) (port : Nat) (s : Session) :
    requestTcpipForward opts auth os host port true s = (false, s) ∨
      (channelSetupFwdListenerTcpip os (opts.val .gatewayPorts) host port).1 ≠ [] ∧
        requestTcpipForward opts auth os host port true s =
          (true, { s with listeners := s.listeners ++
            (channelSetupFwdListenerTcpip os (opts.val .gatewayPorts) host port).1 }) := by
  unfold requestTcpipForward channelSetupRemoteFwdListener
  split_ifs with h1 h2
  · exact Or.inl rfl
  · by_cases hnew : (channelSetupFwdListenerTcpip os (opts.val .gatewayPorts) host port).1 = []
    · exact Or.inl (by simp [hnew])
    · exact Or.inr ⟨hnew, by simp [hnew]⟩
  · exact Or.inl rfl

/-- A faithful system lets the server answer the request of an option in one of three ways. -/
lemma request_answer {os : Os} (hos : Faithful os) (fwd : RemoteForward) (s : Session) :
    Answer fwd s (serverInputGlobalRequest opts auth os s
      (.tcpipForward (channelRfwdBindHost fwd.listenHost) fwd.listenPort)) := by
  simp only [serverInputGlobalRequest, Session.request]
  rcases requestTcpipForward_listeners opts auth os (channelRfwdBindHost fwd.listenHost)
    fwd.listenPort s with heq | ⟨hne, heq⟩
  · simp only [heq]
    exact .refused
  · simp only [heq]
    rcases allocatedPort hne with ⟨hport, halloc⟩ | ⟨hport, port, hmem, halloc⟩
    · rw [halloc]
      refine .asked _ hport hne (fun l hl => ?_)
      obtain ⟨hpath, _, _, hlocal⟩ := mem_newListeners hl
      have hq := hos.asked _ _ _ hlocal (by omega)
      exact ⟨hpath, by omega, (hos.port _ _ _ hlocal).2⟩
    · obtain ⟨hpos, hle⟩ := hos.port _ _ _ hmem
      rw [halloc, if_pos trivial, if_neg (by omega), Int.toNat_natCast]
      refine .allocated _ port hport hne hpos hle (fun l hl => ?_)
      obtain ⟨hpath, _, _, hlocal⟩ := mem_newListeners hl
      rw [hport] at hlocal
      exact ⟨hpath, hos.one _ _ _ hlocal hmem⟩

/-! ## Agreement -/

lemma KnownPort.mono {listeners new : List Listener} {fwd : RemoteForward} {perm : Permission}
    (h : KnownPort exits listeners fwd perm) : KnownPort exits (listeners ++ new) fwd perm :=
  h.imp_right (fun ⟨hp, l, hl, hs⟩ => ⟨hp, l, List.mem_append_left _ hl, hs⟩)

/-- One more request is answered. -/
lemma Agreed.answer {fwds : List RemoteForward} {toServer toServer' : List ToServer}
    {listeners : List Listener} {k : Nat} {waiting waiting' : List (Option Nat)}
    {perms perms' : List Permission} {fwd : RemoteForward} {perm : Permission}
    (h : Agreed exits fwds toServer listeners k waiting perms) (hfwd : fwds[k]? = some fwd)
    (hawaits : Awaits fwds (k + 1) toServer' waiting') (hlen : perms'.length = perms.length)
    (hrest : ∀ i, k ≠ i → perms'[i]? = perms[i]?) (hperm : perms'[k]? = some perm)
    (new : List Listener) (hans : KnownPort exits (listeners ++ new) fwd perm)
    (hnew : ∀ l ∈ new, l.localPort ≤ 0xFFFF ∧ Serves fwd perm l) :
    Agreed exits fwds toServer' (listeners ++ new) (k + 1) waiting' perms' := by
  refine ⟨hawaits, hlen.trans h.length, ?_, ?_, ?_⟩
  · intro i f hi hf
    rw [hrest i (by omega)]
    exact h.unanswered i f (by omega) hf
  · intro i f p hi hf hp
    by_cases hik : k = i
    · subst hik
      rw [hfwd, Option.some.injEq] at hf
      rw [hperm, Option.some.injEq] at hp
      exact hf ▸ hp ▸ hans
    · rw [hrest i hik] at hp
      exact (h.answered i f p (by omega) hf hp).mono
  · intro l hl
    rcases List.mem_append.mp hl with hl | hl
    · obtain ⟨hle, i, f, p, hi, hf, hp, hs⟩ := h.listening l hl
      exact ⟨hle, i, f, p, by omega, hf, (hrest i (by omega)).trans hp, hs⟩
    · exact ⟨(hnew l hl).1, k, fwd, perm, by omega, hfwd, hperm, (hnew l hl).2⟩

lemma update_self {k : Nat} {perms : List Permission} {perm : Permission} (port : Int)
    (h : perms[k]? = some perm) :
    (channelUpdatePermission k port perms)[k]? =
      some (if port ≤ 0 then {} else { perm with listenPort := port }) := by
  simp [channelUpdatePermission, h]

lemma update_ne {k i : Nat} (hki : k ≠ i) (port : Int) (perms : List Permission) :
    (channelUpdatePermission k port perms)[i]? = perms[i]? := by
  simp [channelUpdatePermission, hki]

/-- A client that does not exit on a refused forward takes the refusal. -/
lemma Agreed.refused {fwds : List RemoteForward} {toServer toServer' : List ToServer} {k : Nat}
    {waiting waiting' : List (Option Nat)} {perms : List Permission} {fwd : RemoteForward}
    {listeners : List Listener} (h : Agreed false fwds toServer listeners k waiting perms)
    (hfwd : fwds[k]? = some fwd) (hawaits : Awaits fwds (k + 1) toServer' waiting') :
    Served false fwds toServer' listeners (some k :: waiting') perms [.failure] := by
  have hperm := h.unanswered k fwd le_rfl hfwd
  by_cases hport : fwd.listenPort = 0
  · have hc : confirmed false fwds (some k) .failure perms =
        some (channelUpdatePermission k (-1) perms) := by
      simp [confirmed, sshConfirmRemoteForward, hfwd, hport]
    have hs := h.answer hfwd hawaits (by simp [channelUpdatePermission])
      (fun i hi => update_ne hi (-1) perms) (update_self (-1) hperm) []
      (by simp [KnownPort, hport]) (by simp)
    rw [List.append_nil] at hs
    exact .answered trivial hc (.agreed hs)
  · have hc : confirmed false fwds (some k) .failure perms = some perms := by
      simp [confirmed, sshConfirmRemoteForward, hfwd, hport]
    have hs := h.answer hfwd hawaits rfl (fun _ _ => rfl) hperm []
      (by simp [KnownPort, hport]) (by simp)
    rw [List.append_nil] at hs
    exact .answered trivial hc (.agreed hs)

/-- The client makes of each answer what the server has made of the request. -/
lemma Agreed.served {fwds : List RemoteForward} {toServer toServer' : List ToServer} {k : Nat}
    {waiting waiting' : List (Option Nat)} {perms : List Permission} {fwd : RemoteForward}
    {s s' : Session} {reply : Option ToClient}
    (h : Agreed exits fwds toServer s.listeners k waiting perms) (hfwd : fwds[k]? = some fwd)
    (hawaits : Awaits fwds (k + 1) toServer' waiting') (ha : Answer fwd s (reply, s')) :
    Served exits fwds toServer' s'.listeners (some k :: waiting') perms reply.toList := by
  have hperm := h.unanswered k fwd le_rfl hfwd
  cases ha with
  | refused =>
    cases exits with
    | true => exact .fatal rfl hfwd
    | false => exact h.refused hfwd hawaits
  | asked new hport hne hnew =>
    have hc : confirmed exits fwds (some k) (.success none) perms = some perms := by
      simp [confirmed, sshConfirmRemoteForward, hfwd, hport]
    have hserves : ∀ l ∈ new, Serves fwd (requestedPermission fwd) l := by
      intro l hl
      obtain ⟨hpath, hlocal, _⟩ := hnew l hl
      exact ⟨hpath, by simp [requestedPermission, hlocal]⟩
    refine .answered trivial hc (.agreed (h.answer hfwd hawaits rfl (fun _ _ => rfl) hperm new
      ?_ (fun l hl => ⟨(hnew l hl).2.2, hserves l hl⟩)))
    obtain ⟨l, hl⟩ := List.exists_mem_of_ne_nil new hne
    exact Or.inr ⟨fun _ => rfl, l, List.mem_append_right _ hl, hserves l hl⟩
  | allocated new port hport hne hpos hle hnew =>
    have hc : confirmed exits fwds (some k) (.success (some port)) perms =
        some (channelUpdatePermission k port perms) := by
      simp [confirmed, sshConfirmRemoteForward, hfwd, hport, Nat.not_lt.mpr hle]
    have hself := update_self port hperm
    rw [if_neg (by omega)] at hself
    have hserves : ∀ l ∈ new, Serves fwd { requestedPermission fwd with listenPort := port } l :=
      fun l hl => ⟨(hnew l hl).1, by rw [(hnew l hl).2]⟩
    refine .answered trivial hc (.agreed (h.answer hfwd hawaits (by simp [channelUpdatePermission])
      (fun i hi => update_ne hi port perms) hself new ?_ (fun l hl => ?_)))
    · obtain ⟨l, hl⟩ := List.exists_mem_of_ne_nil new hne
      exact Or.inr ⟨fun hne => absurd hport hne, l, List.mem_append_right _ hl, hserves l hl⟩
    · exact ⟨(hnew l hl).2 ▸ hle, hserves l hl⟩

lemma Agreed.keepalive {fwds : List RemoteForward} {toServer : List ToServer}
    {listeners : List Listener} {k : Nat} {waiting : List (Option Nat)} {perms : List Permission}
    (h : Agreed exits fwds toServer listeners k waiting perms) :
    Agreed exits fwds (toServer ++ [.keepalive]) listeners k (waiting ++ [none]) perms :=
  { h with awaits := h.awaits.concat }

/-- The client knows every listener. -/
lemma Agreed.connected {fwds : List RemoteForward} {toServer : List ToServer}
    {listeners : List Listener} {k : Nat} {waiting : List (Option Nat)} {perms : List Permission}
    (h : Agreed exits fwds toServer listeners k waiting perms) {l : Listener} (hl : l ∈ listeners)
    {originatorPort : Nat} (ho : originatorPort ≤ 0xFFFF) :
    Connected perms l.path l.localPort originatorPort := by
  obtain ⟨hle, i, fwd, perm, _, _, hperm, hpath, rfl⟩ := h.listening l hl
  refine ⟨hle, ho, _, List.mem_of_getElem? hperm, openListen_iff.mpr ⟨?_, rfl, ?_⟩⟩
  · simp [requestedPermission]
  · simp [requestedPermission, hpath]

/-- The client, the server and all that is on its way between them fit together. -/
structure InStep (exits : Bool) (fwds : List RemoteForward) (t : Tunnel) : Prop where
  exit : t.agent.exitOnForwardFailure = exits
  own : OwnPermissions fwds t.agent
  counted : Counted t.agent.globalConfirms
  served : Served exits fwds t.toServer t.session.listeners (callbacks t.agent.globalConfirms)
    t.agent.permittedUser t.toClient

/-- The system of the server is faithful, and peers have ports of 16 bits. -/
def Honest : TunnelAction → Prop
  | .serve os => Faithful os
  | .accept _ originatorPort => originatorPort ≤ 0xFFFF
  | _ => True

lemma foldl_callbacks (fwds : List RemoteForward) (st : Agent × List ToServer)
    (h : Counted st.1.globalConfirms) :
    Counted (fwds.foldl (fun st fwd => channelRequestRemoteForwarding fwd st.1 st.2)
        st).1.globalConfirms ∧
      callbacks (fwds.foldl (fun st fwd => channelRequestRemoteForwarding fwd st.1 st.2)
          st).1.globalConfirms =
        callbacks st.1.globalConfirms ++
          (List.range' st.1.permittedUser.length fwds.length).map some := by
  induction fwds generalizing st with
  | nil => simp [h]
  | cons fwd fwds ih =>
    rw [List.foldl_cons]
    obtain ⟨hcount, heq⟩ := ih (channelRequestRemoteForwarding fwd st.1 st.2)
      (counted_register _ h)
    refine ⟨hcount, heq.trans ?_⟩
    simp [channelRequestRemoteForwarding, callbacks_register, List.range'_succ]

lemma foldl_exit (fwds : List RemoteForward) (st : Agent × List ToServer) :
    (fwds.foldl (fun st fwd => channelRequestRemoteForwarding fwd st.1 st.2)
      st).1.exitOnForwardFailure = st.1.exitOnForwardFailure := by
  induction fwds generalizing st with
  | nil => rfl
  | cons fwd fwds ih => exact ih (channelRequestRemoteForwarding fwd st.1 st.2)

lemma inStep_start (exits : Bool) (fwds : List RemoteForward) {session : Session}
    (hs : session.listeners = []) : InStep exits fwds (Tunnel.start exits fwds session) := by
  let agent : Agent := { remoteForwards := fwds, exitOnForwardFailure := exits }
  obtain ⟨hcount, heq⟩ := foldl_callbacks fwds (agent, []) (fun _ h => nomatch h)
  have hserver := (foldl_request fwds (agent, [])).2.2
  have hawaits := awaits_start [] fwds
  refine ⟨foldl_exit fwds (agent, []), init_own exits fwds, hcount,
    .agreed (k := 0) ⟨?_, ?_, ?_, ?_, ?_⟩⟩
  · simp only [Tunnel.start, sshInitForwarding]
    rw [heq, hserver]
    exact hawaits
  · simp [Tunnel.start, init_permittedUser]
  · intro i fwd _ hfwd
    simp [Tunnel.start, init_permittedUser, hfwd]
  · intro i fwd perm hi
    omega
  · simp [Tunnel.start, hs]

lemma inStep_keepalive {fwds : List RemoteForward} {t : Tunnel} (h : InStep exits fwds t) :
    InStep exits fwds
      { t with agent := t.agent.keepalive, toServer := t.toServer ++ [.keepalive] } := by
  refine ⟨h.exit, agentStep_own (a := .keepalive) h.own rfl, counted_register none h.counted, ?_⟩
  have hs : Served exits fwds (t.toServer ++ [.keepalive]) t.session.listeners
      (callbacks t.agent.globalConfirms ++ [none]) t.agent.permittedUser (t.toClient ++ []) :=
    h.served.append (fun _ _ _ hs => .agreed hs.keepalive)
  rw [List.append_nil] at hs
  simpa [Agent.keepalive, callbacks_register] using hs

lemma inStep_serve {fwds : List RemoteForward} {t : Tunnel} (h : InStep exits fwds t) {os : Os}
    (hos : Faithful os) {m : ToServer} {toServer : List ToServer}
    (hm : t.toServer = m :: toServer) :
    InStep exits fwds { t with
      toServer := toServer
      session := (serverInputGlobalRequest opts auth os t.session m).2
      toClient := t.toClient ++ (serverInputGlobalRequest opts auth os t.session m).1.toList } := by
  refine ⟨h.exit, h.own, h.counted, ?_⟩
  have hserved := h.served
  rw [hm] at hserved
  have hs : Served exits fwds toServer
      (serverInputGlobalRequest opts auth os t.session m).2.listeners
      (callbacks t.agent.globalConfirms ++ []) t.agent.permittedUser
      (t.toClient ++ (serverInputGlobalRequest opts auth os t.session m).1.toList) := by
    refine hserved.append (fun k waiting perms hs => ?_)
    rw [List.append_nil]
    have hawaits := hs.awaits
    cases hawaits with
    | keepalive hawaits => exact .answered trivial rfl (.agreed { hs with awaits := hawaits })
    | forward hfwd hawaits => exact hs.served hfwd hawaits (request_answer hos _ t.session)
  rwa [List.append_nil] at hs

lemma inStep_accept {fwds : List RemoteForward} {t : Tunnel} (h : InStep exits fwds t)
    {l : Listener} (hl : l ∈ t.session.listeners) {originatorPort : Nat}
    (ho : originatorPort ≤ 0xFFFF) :
    InStep exits fwds { t with
      toClient := t.toClient ++ [.forwardedTcpip l.path l.localPort originatorPort] } := by
  refine ⟨h.exit, h.own, h.counted, ?_⟩
  have hs : Served exits fwds t.toServer t.session.listeners
      (callbacks t.agent.globalConfirms ++ []) t.agent.permittedUser
      (t.toClient ++ [.forwardedTcpip l.path l.localPort originatorPort]) := by
    refine h.served.append (fun k waiting perms hs => .opened (hs.connected hl ho) ?_)
    rw [List.append_nil]
    exact .agreed hs
  rwa [List.append_nil] at hs

lemma connected_isSome {agent : Agent} {addr : Str} {port originatorPort : Nat}
    (h : Connected agent.permittedUser addr port originatorPort) :
    (clientRequestForwardedTcpip agent addr port originatorPort).isSome := by
  obtain ⟨hport, ho, perm, hmem, hopen⟩ := h
  rw [clientRequestForwardedTcpip, if_neg (by omega), channelConnectByListenAddress]
  cases hfind : agent.permittedUser.find?
      (fun perm => openListenMatchTcpip perm (some addr) port true) with
  | none => exact absurd hopen (List.find?_eq_none.mp hfind perm hmem)
  | some found =>
    have hfound := openListen_iff.mp (List.find?_some
      (p := fun perm => openListenMatchTcpip perm (some addr) port true) hfind)
    by_cases h0 : found.portToConnect = 0
    · simp [h0]
    · simpa [h0] using hfound.1

/-- The message refuses an option of the client. -/
def Refuses (agent : Agent) (m : ToClient) : Prop :=
  m = .failure ∧ ∃ gc idx rfwd, agent.globalConfirms.head? = some gc ∧ gc.ctx = some idx ∧
    agent.remoteForwards[idx]? = some rfwd

/-- A client that exits on a refused forward ends with the refusal. -/
lemma receive_refusal {agent : Agent} {m : ToClient} (he : agent.exitOnForwardFailure = true)
    (h : Refuses agent m) : (agent.receive m).1 = none := by
  obtain ⟨fwds, exits, perms, confirms⟩ := agent
  obtain rfl : exits = true := he
  obtain ⟨rfl, gc, idx, rfwd, hgc, hctx, hidx⟩ := h
  obtain ⟨confirms, rfl⟩ := List.head?_eq_some_iff.mp hgc
  dsimp only at hidx
  by_cases h0 : rfwd.listenPort = 0
  · simp [Agent.receive, clientGlobalRequestReply, hctx, sshConfirmRemoteForward, hidx, h0]
  · simp [Agent.receive, clientGlobalRequestReply, hctx, sshConfirmRemoteForward, hidx, h0]

lemma refuses_of_callbacks {agent : Agent} {idx : Nat} {waiting : List (Option Nat)}
    {rfwd : RemoteForward} (hc : Counted agent.globalConfirms)
    (hw : callbacks agent.globalConfirms = some idx :: waiting)
    (hidx : agent.remoteForwards[idx]? = some rfwd) : Refuses agent .failure := by
  cases hg : agent.globalConfirms with
  | nil =>
    rw [hg] at hw
    cases hw
  | cons gc confirms =>
    have hpos : 0 < gc.refCount := hc gc (by simp [hg])
    obtain ⟨n, hn⟩ : ∃ n, gc.refCount = n + 1 := ⟨gc.refCount - 1, by omega⟩
    rw [hg, callbacks_cons, hn, List.replicate_succ, List.cons_append, List.cons.injEq] at hw
    exact ⟨rfl, gc, idx, rfwd, by rw [hg, List.head?_cons], hw.1, hidx⟩

/-- The client can take every message that does not end it, and connects what is forwarded to
it. -/
lemma inStep_receive {fwds : List RemoteForward} {t : Tunnel} (h : InStep exits fwds t)
    {m : ToClient} {toClient : List ToClient} (hm : t.toClient = m :: toClient) :
    (exits = true ∧ Refuses t.agent m) ∨ ∃ agent target, t.agent.receive m = (some agent, target) ∧
      (¬IsReply m → target.isSome) ∧
        InStep exits fwds { t with agent := agent, toClient := toClient } := by
  obtain ⟨hexit, hown, hcount, hserved⟩ := h
  rw [hm] at hserved
  generalize hw : callbacks t.agent.globalConfirms = waiting at hserved
  generalize hp : t.agent.permittedUser = perms at hserved
  cases hserved with
  | opened hc hserved =>
    subst hw hp
    exact Or.inr ⟨t.agent, _, rfl, fun _ => connected_isSome hc, hexit, hown, hcount, hserved⟩
  | @answered _ _ _ perms' _ _ hr hc hserved =>
    rw [← hown.forwards, ← hp, ← hexit] at hc
    obtain ⟨left, hleft, rfl, heq⟩ := reply_confirmed hcount hw hc
    have hreceive : t.agent.receive m =
        (some { t.agent with permittedUser := perms', globalConfirms := left }, none) := by
      cases m with
      | success port => exact congrArg (·, none) heq
      | failure => exact congrArg (·, none) heq
      | forwardedTcpip _ _ _ => exact hr.elim
    have hstep : t.agent.step (.receive m) =
        some { t.agent with permittedUser := perms', globalConfirms := left } := by
      rw [Agent.step, hreceive]
    exact Or.inr ⟨_, none, hreceive, fun h => absurd hr h, hexit, agentStep_own hown hstep, hleft,
      hserved⟩
  | fatal he hfwd =>
    exact Or.inl ⟨he, refuses_of_callbacks hcount hw (hown.forwards ▸ hfwd)⟩

/-- The next message ends a client exactly if it refuses an option and the client exits on this. -/
lemma inStep_receive_iff {fwds : List RemoteForward} {t : Tunnel} (h : InStep exits fwds t)
    {m : ToClient} {toClient : List ToClient} (hm : t.toClient = m :: toClient) :
    (t.step opts auth .receive).isSome = true ↔ ¬(exits = true ∧ Refuses t.agent m) := by
  have hstep : (t.step opts auth .receive).isSome = (t.agent.receive m).1.isSome := by
    simp [Tunnel.step, hm]
  rw [hstep]
  constructor
  · rintro hsome ⟨he, href⟩
    rw [receive_refusal (h.exit.trans he) href] at hsome
    cases hsome
  · intro hno
    obtain ⟨agent, target, hrecv, -⟩ := (inStep_receive h hm).resolve_left hno
    rw [hrecv]
    rfl

/-- What is forwarded to a client, it connects to where an option says that asked for it. -/
lemma inStep_forwarded {fwds : List RemoteForward} {t : Tunnel} (h : InStep exits fwds t)
    {addr : Str} {port originatorPort : Nat} {toClient : List ToClient}
    (hm : t.toClient = .forwardedTcpip addr port originatorPort :: toClient) :
    ∃ fwd ∈ fwds,
      (t.agent.receive (.forwardedTcpip addr port originatorPort)).2 = some (connectOf fwd) ∧
        channelRfwdBindHost fwd.listenHost = addr ∧
        (fwd.listenPort = port ∨ fwd.listenPort = 0) := by
  have hno : ¬(exits = true ∧ Refuses t.agent (.forwardedTcpip addr port originatorPort)) :=
    fun href => nomatch href.2.1
  obtain ⟨agent, target, hrecv, htarget, _⟩ := (inStep_receive h hm).resolve_left hno
  obtain ⟨found, hfound⟩ := Option.isSome_iff_exists.mp (htarget not_false)
  have hc : clientRequestForwardedTcpip t.agent addr port originatorPort = some found :=
    (congrArg Prod.snd hrecv).trans hfound
  obtain ⟨_, fwd, hmem, heq, haddr, hport⟩ := connects_own h.own hc
  exact ⟨fwd, hmem, by rw [← heq, hrecv, hfound], haddr, hport⟩

lemma inStep_step {fwds : List RemoteForward} {t t' : Tunnel} {a : TunnelAction}
    (h : InStep exits fwds t) (ha : Honest a) (hs : t.step opts auth a = some t') :
    InStep exits fwds t' := by
  cases a with
  | keepalive =>
    cases hs
    exact inStep_keepalive h
  | serve os =>
    cases hm : t.toServer with
    | nil => simp [Tunnel.step, hm] at hs
    | cons m toServer =>
      simp only [Tunnel.step, hm, Option.some.injEq] at hs
      exact hs ▸ inStep_serve h ha hm
  | accept l originatorPort =>
    by_cases hl : l ∈ t.session.listeners
    · simp only [Tunnel.step, if_pos hl, Option.some.injEq] at hs
      exact hs ▸ inStep_accept h hl ha
    · simp [Tunnel.step, hl] at hs
  | receive =>
    cases hm : t.toClient with
    | nil => simp [Tunnel.step, hm] at hs
    | cons m toClient =>
      have hsome : (t.step opts auth .receive).isSome = true := Option.isSome_of_eq_some hs
      obtain ⟨agent, target, hrecv, _, hstep⟩ :=
        (inStep_receive h hm).resolve_left ((inStep_receive_iff h hm).mp hsome)
      simp only [Tunnel.step, hm, hrecv, Option.map_some, Option.some.injEq] at hs
      exact hs ▸ hstep

lemma inStep_run {fwds : List RemoteForward} {session : Session} {t : Tunnel}
    {as : List TunnelAction} (hs : session.listeners = []) (ha : ∀ a ∈ as, Honest a)
    (hr : run (Tunnel.step opts auth) (Tunnel.start exits fwds session) as = some t) :
    InStep exits fwds t :=
  have hg : Guarded (Tunnel.step opts auth) (fun _ => Honest) (Tunnel.start exits fwds session)
      as := guarded_of_forall ha
  run_invariant (InStep exits fwds) (fun _ _ _ h ha hs => inStep_step h ha hs)
    (inStep_start exits fwds hs) hg hr

/-- The next message on its way to a client ends it exactly if it refuses an option of a client
that exits on this, and every connection that a listener has accepted gets to where an option
says that asked for the address of the listener. -/
theorem tunnel_delivers {fwds : List RemoteForward} {session : Session} {t : Tunnel}
    {as : List TunnelAction} (hs : session.listeners = []) (ha : ∀ a ∈ as, Honest a)
    (hr : run (Tunnel.step opts auth) (Tunnel.start exits fwds session) as = some t)
    {m : ToClient} {toClient : List ToClient} (hm : t.toClient = m :: toClient) :
    ((t.step opts auth .receive).isSome = true ↔ ¬(exits = true ∧ Refuses t.agent m)) ∧
      ∀ addr port originatorPort, m = .forwardedTcpip addr port originatorPort →
        ∃ fwd ∈ fwds, (t.agent.receive m).2 = some (connectOf fwd) ∧
          channelRfwdBindHost fwd.listenHost = addr ∧
          (fwd.listenPort = port ∨ fwd.listenPort = 0) := by
  have hstep := inStep_run hs ha hr
  refine ⟨inStep_receive_iff hstep hm, ?_⟩
  rintro addr port originatorPort rfl
  exact inStep_forwarded hstep hm

def bindingOs : Os where
  connect _ _ := false
  listen _ port :=
    if port = 0 then [40000] else if 0 < port ∧ port ≤ 0xFFFF then [port.toNat] else []
  listenPath _ := false
  tunOpen _ := false

lemma bindingOs_faithful : Faithful bindingOs where
  port b p q hq := by
    simp only [bindingOs] at hq
    split_ifs at hq with h0 hp
    · simp_all
    · rw [List.mem_singleton] at hq
      omega
    · cases hq
  asked b p q hq hp := by
    simp only [bindingOs, if_neg hp] at hq
    split_ifs at hq with hp
    · rw [List.mem_singleton] at hq
      omega
    · cases hq
  one b q q' hq hq' := by simp_all [bindingOs]

/-- A system that grants no listener. -/
def refusingOs : Os := { bindingOs with listen := fun _ _ => [] }

lemma refusingOs_faithful : Faithful refusingOs where
  port _ _ _ hq := nomatch hq
  asked _ _ _ hq := nomatch hq
  one _ _ _ hq := nomatch hq

def agentSession : Session where
  perms := { remotePerms := { allPermitted := true } }

def agentListener (port : Nat) : Listener where
  path := "fd00::a".toList
  listeningAddr := some "fd00::a".toList
  listeningPort := port
  bound := .addr "fd00::a".toList
  localPort := port

def agentListeners : List Listener := [agentListener 8080, agentListener 40000, agentListener 1080]

def agentTunnel (toClient : List ToClient) : Tunnel where
  agent := answeredAgent
  toServer := []
  session := { agentSession with listeners := agentListeners }
  toClient := toClient

def agentRun : List TunnelAction :=
  [.serve bindingOs, .keepalive, .serve bindingOs, .receive, .serve bindingOs, .serve bindingOs,
    .receive, .receive, .receive]

lemma agentRun_honest : ∀ a ∈ agentRun, Honest a := by
  simp [agentRun, Honest, bindingOs_faithful]

/-- A client that exits on a refused forward, in front of a refusal. -/
def refusedTunnel : Tunnel where
  agent := {
    remoteForwards := agentForwards
    exitOnForwardFailure := true
    permittedUser := agentForwards.map requestedPermission
    globalConfirms := [⟨some 1, 1⟩, ⟨some 2, 1⟩] }
  toServer := [.tcpipForward "fd00::a".toList 1080]
  session := { agentSession with listeners := [agentListener 8080] }
  toClient := [.failure]

/-- A connection to the port that the server chose gets to its target, and a client that exits on
a refused forward does so. -/
theorem tunnel_delivers_ssh :
    (run (Tunnel.step brokerOpts {}) (Tunnel.start false agentForwards agentSession)
        (agentRun ++ [.accept (agentListener 40000) 5]) =
      some (agentTunnel [.forwardedTcpip "fd00::a".toList 40000 5]) ∧
    ∃ fwd ∈ agentForwards,
      (answeredAgent.receive (.forwardedTcpip "fd00::a".toList 40000 5)).2 = some (connectOf fwd) ∧
        channelRfwdBindHost fwd.listenHost = "fd00::a".toList ∧
        (fwd.listenPort = 40000 ∨ fwd.listenPort = 0)) ∧
    run (Tunnel.step brokerOpts {}) (Tunnel.start true agentForwards agentSession)
        [.serve bindingOs, .receive, .serve refusingOs] = some refusedTunnel ∧
      ¬(refusedTunnel.step brokerOpts {} .receive).isSome = true := by
  have hr : run (Tunnel.step brokerOpts {}) (Tunnel.start false agentForwards agentSession)
      (agentRun ++ [.accept (agentListener 40000) 5]) =
        some (agentTunnel [.forwardedTcpip "fd00::a".toList 40000 5]) := by rfl
  have ha : ∀ a ∈ agentRun ++ [.accept (agentListener 40000) 5], Honest a :=
    List.forall_mem_append.mpr ⟨agentRun_honest, by simp [Honest]⟩
  have hrefused : ∀ a ∈ [.serve bindingOs, .receive, .serve refusingOs], Honest a := by
    simp [Honest, bindingOs_faithful, refusingOs_faithful]
  have hrun : run (Tunnel.step brokerOpts {}) (Tunnel.start true agentForwards agentSession)
      [.serve bindingOs, .receive, .serve refusingOs] = some refusedTunnel := by rfl
  refine ⟨⟨hr, (tunnel_delivers rfl ha hr rfl).2 _ _ _ rfl⟩, hrun, fun hstep => ?_⟩
  exact (tunnel_delivers rfl hrefused hrun rfl).1.mp hstep
    ⟨rfl, rfl, ⟨some 1, 1⟩, 1, _, rfl, rfl, rfl⟩

/-- Once nothing is on its way, no callback waits, the client knows the port of every listener,
and every option has its listener at the address that it asked for, unless the server has refused
it and the client does not exit on this. -/
theorem tunnel_settles {fwds : List RemoteForward} {session : Session} {t : Tunnel}
    {as : List TunnelAction} (hs : session.listeners = []) (ha : ∀ a ∈ as, Honest a)
    (hr : run (Tunnel.step opts auth) (Tunnel.start exits fwds session) as = some t)
    (hserver : t.toServer = []) (hclient : t.toClient = []) :
    t.agent.globalConfirms = [] ∧
      (∀ l ∈ t.session.listeners, ∃ (i : Nat) (fwd : RemoteForward) (perm : Permission),
        fwds[i]? = some fwd ∧ t.agent.permittedUser[i]? = some perm ∧ Serves fwd perm l) ∧
      ∀ (i : Nat) (fwd : RemoteForward), fwds[i]? = some fwd →
        ∃ perm, t.agent.permittedUser[i]? = some perm ∧
          KnownPort exits t.session.listeners fwd perm := by
  obtain ⟨_, _, hcount, hserved⟩ := inStep_run hs ha hr
  rw [hserver, hclient] at hserved
  generalize hw : callbacks t.agent.globalConfirms = waiting at hserved
  cases hserved with
  | agreed hagreed =>
    have hawaits := hagreed.awaits
    cases hawaits
    refine ⟨?_, ?_, ?_⟩
    · cases hc : t.agent.globalConfirms with
      | nil => rfl
      | cons gc confirms =>
        have hpos : 0 < gc.refCount := hcount gc (by simp [hc])
        rw [hc, callbacks_cons, List.append_eq_nil_iff, List.replicate_eq_nil_iff] at hw
        omega
    · intro l hl
      obtain ⟨_, i, fwd, perm, _, hfwd, hperm, hserves⟩ := hagreed.listening l hl
      exact ⟨i, fwd, perm, hfwd, hperm, hserves⟩
    · intro i fwd hfwd
      have hlt : i < fwds.length := (List.getElem?_eq_some_iff.mp hfwd).1
      have hlt' : i < t.agent.permittedUser.length := hagreed.length ▸ hlt
      have hperm := List.getElem?_eq_getElem hlt'
      exact ⟨_, hperm, hagreed.answered i fwd _ hlt hfwd hperm⟩

theorem tunnel_settles_ssh :
    run (Tunnel.step brokerOpts {}) (Tunnel.start true agentForwards agentSession) agentRun =
      some { agentTunnel [] with agent := { answeredAgent with exitOnForwardFailure := true } } ∧
    (∀ l ∈ agentListeners, ∃ (i : Nat) (fwd : RemoteForward) (perm : Permission),
      agentForwards[i]? = some fwd ∧ answeredAgent.permittedUser[i]? = some perm ∧
        Serves fwd perm l) ∧
    ∀ (i : Nat) (fwd : RemoteForward), agentForwards[i]? = some fwd →
      ∃ perm, answeredAgent.permittedUser[i]? = some perm ∧
        KnownPort true agentListeners fwd perm :=
  have hr : run (Tunnel.step brokerOpts {}) (Tunnel.start true agentForwards agentSession)
      agentRun =
        some { agentTunnel [] with
          agent := { answeredAgent with exitOnForwardFailure := true } } := by
    rfl
  ⟨hr, (tunnel_settles rfl agentRun_honest hr rfl rfl).2⟩

end CMXSafe.Proofs
