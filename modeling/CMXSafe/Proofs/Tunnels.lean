import CMXSafe.OpenSSH.Agent
import CMXSafe.Lib.Machines

/-!
# Remote forwards

A client connects to the targets of its own options only, whatever server it talks to.
-/

namespace CMXSafe.Proofs
open OpenSSH Strings Machines

/-- A permission that belongs to an option: cleared, or as it was requested, but for a port that
was left to the server. -/
def Belongs (fwd : RemoteForward) (perm : Permission) : Prop :=
  perm.hostToConnect = none ∨ ∃ p : Int,
    perm = { requestedPermission fwd with listenPort := p } ∧
      (p = fwd.listenPort ∨ fwd.listenPort = 0)

/-- Where a client connects what comes from the listener of an option. -/
def connectOf (fwd : RemoteForward) : ClientConnect :=
  if fwd.connectPort = 0 then .rdynamicConnect else .connectTo fwd.connectHost fwd.connectPort

/-- Every permission of the client belongs to the option with its index. -/
structure OwnPermissions (fwds : List RemoteForward) (agent : Agent) : Prop where
  forwards : agent.remoteForwards = fwds
  length : agent.permittedUser.length = fwds.length
  belongs : ∀ (i : Nat) (fwd : RemoteForward) (perm : Permission), fwds[i]? = some fwd →
    agent.permittedUser[i]? = some perm → Belongs fwd perm

lemma foldl_request (fwds : List RemoteForward) (st : Agent × List ToServer) :
    (fwds.foldl (fun st fwd => channelRequestRemoteForwarding fwd st.1 st.2) st).1.remoteForwards =
        st.1.remoteForwards ∧
      (fwds.foldl (fun st fwd => channelRequestRemoteForwarding fwd st.1 st.2) st).1.permittedUser =
        st.1.permittedUser ++ fwds.map requestedPermission ∧
      (fwds.foldl (fun st fwd => channelRequestRemoteForwarding fwd st.1 st.2) st).2 =
        st.2 ++ fwds.map (fun fwd =>
          .tcpipForward (channelRfwdBindHost fwd.listenHost) fwd.listenPort) := by
  induction fwds generalizing st with
  | nil => simp
  | cons fwd fwds ih =>
    obtain ⟨h1, h2, h3⟩ := ih (channelRequestRemoteForwarding fwd st.1 st.2)
    rw [List.foldl_cons]
    refine ⟨h1, ?_, ?_⟩
    · rw [h2]
      simp [channelRequestRemoteForwarding]
    · rw [h3]
      simp [channelRequestRemoteForwarding]

lemma init_permittedUser (exits : Bool) (fwds : List RemoteForward) :
    (sshInitForwarding exits fwds).1.permittedUser = fwds.map requestedPermission := by
  have h := (foldl_request fwds
    ({ remoteForwards := fwds, exitOnForwardFailure := exits }, [])).2.1
  simpa [sshInitForwarding] using h

lemma init_forwards (exits : Bool) (fwds : List RemoteForward) :
    (sshInitForwarding exits fwds).1.remoteForwards = fwds :=
  (foldl_request fwds ({ remoteForwards := fwds, exitOnForwardFailure := exits }, [])).1

lemma init_own (exits : Bool) (fwds : List RemoteForward) :
    OwnPermissions fwds (sshInitForwarding exits fwds).1 := by
  refine ⟨init_forwards exits fwds, by simp [init_permittedUser], ?_⟩
  intro i fwd perm hf hp
  rw [init_permittedUser, List.getElem?_map, hf, Option.map_some, Option.some.injEq] at hp
  exact Or.inr ⟨fwd.listenPort, hp.symm, Or.inl rfl⟩

lemma updatePermission_own {fwds : List RemoteForward} {agent : Agent} {idx : Nat}
    {rfwd : RemoteForward} (h : OwnPermissions fwds agent) (hidx : fwds[idx]? = some rfwd)
    (h0 : rfwd.listenPort = 0) (newport : Int) :
    OwnPermissions fwds { agent with
      permittedUser := channelUpdatePermission idx newport agent.permittedUser } := by
  refine ⟨h.forwards, by simp [channelUpdatePermission, h.length], ?_⟩
  intro i fwd perm hf hp
  rw [channelUpdatePermission, List.getElem?_modify] at hp
  obtain ⟨old, hold, rfl⟩ := Option.map_eq_some_iff.mp hp
  have hb := h.belongs i fwd old hf hold
  by_cases hi : idx = i
  · subst hi
    rw [hidx, Option.some.injEq] at hf
    subst hf
    rw [if_pos rfl]
    split_ifs
    · exact Or.inl rfl
    · rcases hb with hb | ⟨p, rfl, _⟩
      · exact Or.inl hb
      · exact Or.inr ⟨newport, rfl, Or.inr h0⟩
  · rw [if_neg hi]
    exact hb

lemma confirm_own {fwds : List RemoteForward} {agent agent' : Agent} {idx : Nat} {reply : ToClient}
    (h : OwnPermissions fwds agent) (hc : sshConfirmRemoteForward idx reply agent = some agent') :
    OwnPermissions fwds agent' := by
  unfold sshConfirmRemoteForward at hc
  cases hidx : agent.remoteForwards[idx]? with
  | none =>
    rw [hidx] at hc
    cases hc
    exact h
  | some rfwd =>
    simp only [hidx, Option.bind_eq_some_iff] at hc
    obtain ⟨⟨success, mid⟩, hmid, hc⟩ := hc
    split_ifs at hc
    cases hc
    by_cases h0 : rfwd.listenPort = 0
    · have hup := updatePermission_own h (h.forwards ▸ hidx) h0
      rw [if_pos h0] at hmid
      cases reply with
      | success port =>
        cases port with
        | none => cases hmid
        | some port =>
          dsimp only at hmid
          split_ifs at hmid <;> cases hmid <;> exact hup _
      | failure =>
        cases hmid
        exact hup _
      | forwardedTcpip _ _ _ =>
        cases hmid
        exact hup _
    · rw [if_neg h0] at hmid
      cases hmid
      exact h

lemma reply_own {fwds : List RemoteForward} {agent agent' : Agent} {reply : ToClient}
    (h : OwnPermissions fwds agent) (hc : clientGlobalRequestReply reply agent = some agent') :
    OwnPermissions fwds agent' := by
  unfold clientGlobalRequestReply at hc
  cases hg : agent.globalConfirms with
  | nil =>
    rw [hg] at hc
    cases hc
    exact h
  | cons gc confirms =>
    rw [hg] at hc
    obtain ⟨mid, hmid, rfl⟩ := Option.map_eq_some_iff.mp hc
    have hown : OwnPermissions fwds mid := by
      cases hctx : gc.ctx with
      | none =>
        rw [hctx] at hmid
        cases hmid
        exact h
      | some idx =>
        rw [hctx] at hmid
        exact confirm_own h hmid
    exact ⟨hown.forwards, hown.length, hown.belongs⟩

lemma agentStep_own {fwds : List RemoteForward} {agent agent' : Agent} {a : AgentAction}
    (h : OwnPermissions fwds agent) (hs : agent.step a = some agent') :
    OwnPermissions fwds agent' := by
  cases a with
  | receive m =>
    cases m with
    | success port => exact reply_own h hs
    | failure => exact reply_own h hs
    | forwardedTcpip _ _ _ =>
      cases hs
      exact h
  | keepalive =>
    cases hs
    exact ⟨h.forwards, h.length, h.belongs⟩
  | cancel host port =>
    simp only [Agent.step, channelRequestRforwardCancelTcpip, Option.some.injEq] at hs
    cases hfind : agent.permittedUser.findIdx?
        (fun perm => openListenMatchTcpip perm host port false) with
    | none =>
      rw [hfind] at hs
      exact hs ▸ h
    | some j =>
      rw [hfind] at hs
      subst hs
      refine ⟨h.forwards, by simp [h.length], ?_⟩
      intro i fwd perm hf hp
      dsimp only at hp
      by_cases hi : j = i
      · subst hi
        rw [List.getElem?_set_self'] at hp
        obtain ⟨_, _, rfl⟩ := Option.map_eq_some_iff.mp hp
        exact Or.inl rfl
      · rw [List.getElem?_set_ne hi] at hp
        exact h.belongs i fwd perm hf hp

lemma openListen_iff {perm : Permission} {addr : Str} {port : Int} :
    openListenMatchTcpip perm (some addr) port true = true ↔
      perm.hostToConnect.isSome = true ∧ perm.listenPort = port ∧
        channelRfwdBindHost perm.listenHost = addr := by
  unfold openListenMatchTcpip
  cases perm.hostToConnect with
  | none => simp
  | some host => by_cases h : perm.listenPort = port <;> simp [h]

/-- A client that holds its own permissions connects to where an option says that asked for the
address, and for the port, unless it left the port to the server. -/
lemma connects_own {fwds : List RemoteForward} {agent : Agent} (h : OwnPermissions fwds agent)
    {addr : Str} {port originatorPort : Nat} {target : ClientConnect}
    (hc : clientRequestForwardedTcpip agent addr port originatorPort = some target) :
    port ≤ 0xFFFF ∧ ∃ fwd ∈ fwds, target = connectOf fwd ∧
      channelRfwdBindHost fwd.listenHost = addr ∧ (fwd.listenPort = port ∨ fwd.listenPort = 0) := by
  unfold clientRequestForwardedTcpip at hc
  split_ifs at hc with hport
  refine ⟨by omega, ?_⟩
  obtain ⟨perm, hfind, htarget⟩ := Option.bind_eq_some_iff.mp hc
  have hfound : openListenMatchTcpip perm (some addr) port true = true :=
    List.find?_some (p := fun perm => openListenMatchTcpip perm (some addr) port true) hfind
  have hmatch := openListen_iff.mp hfound
  obtain ⟨i, hi⟩ := List.mem_iff_getElem?.mp (List.mem_of_find?_eq_some hfind)
  have hlt : i < fwds.length := h.length ▸ (List.getElem?_eq_some_iff.mp hi).1
  have hfwd : fwds[i]? = some fwds[i] := List.getElem?_eq_getElem hlt
  rcases h.belongs i _ perm hfwd hi with hnone | ⟨p, rfl, hp⟩
  · simp [hnone] at hmatch
  · obtain ⟨_, rfl, haddr⟩ := hmatch
    refine ⟨fwds[i], List.getElem_mem hlt, ?_, haddr, ?_⟩
    · unfold connectOf
      by_cases h0 : fwds[i].connectPort = 0
      · simpa [requestedPermission, h0] using htarget.symm
      · simpa [requestedPermission, h0] using htarget.symm
    · rcases hp with hp | hp
      · exact Or.inl (by exact_mod_cast hp.symm)
      · exact Or.inr hp

/-- The options of a client: a service at a fixed port, one at a port that the gateway chooses, and
a dynamic forward. -/
def agentForwards : List RemoteForward :=
  [⟨some "fd00::a".toList, 8080, "localhost".toList, 80⟩,
    ⟨some "fd00::a".toList, 0, "localhost".toList, 22⟩,
    ⟨some "fd00::a".toList, 1080, "socks".toList, 0⟩]

/-- The client after a server that answers, forwards and answers again. -/
def answeredAgent : Agent where
  remoteForwards := agentForwards
  permittedUser :=
    [requestedPermission ⟨some "fd00::a".toList, 8080, "localhost".toList, 80⟩,
      { requestedPermission ⟨some "fd00::a".toList, 0, "localhost".toList, 22⟩ with
        listenPort := 40000 },
      requestedPermission ⟨some "fd00::a".toList, 1080, "socks".toList, 0⟩]

end CMXSafe.Proofs
