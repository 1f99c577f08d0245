import CMXSafe.OpenSSH.Session
import CMXSafe.Proofs.Patterns

/-!
# The forwarding policy of a session

The permission lists that a session starts with say what its options and its key say, and
no run of requests opens or listens to anything else.
-/

namespace CMXSafe.Proofs
open OpenSSH Strings Globs Machines

@[simp] lemma set_modify_self (f : PermissionSet → PermissionSet) (dir : Where) (p : Perms) :
    (Perms.modify f dir p).set dir = f (p.set dir) := by
  cases dir <;> rfl

lemma set_modify_of_ne (f : PermissionSet → PermissionSet) {dir d : Where} (h : d ≠ dir)
    (p : Perms) : (Perms.modify f dir p).set d = p.set d := by
  cases dir <;> cases d <;> first | rfl | exact absurd rfl h

@[simp] lemma array_setArray_self (who : Who) (l : List Permission) (p : PermissionSet) :
    (p.setArray l who).array who = l := by
  cases who <;> rfl

@[simp] lemma allPermitted_setArray (who : Who) (l : List Permission) (p : PermissionSet) :
    (p.setArray l who).allPermitted = p.allPermitted := by
  cases who <;> rfl

/-- The match of an entry with a host and a port, in either direction. -/
def matched (dir : Where) (host : Str) (port : Int) (perm : Permission) : Bool :=
  match dir with
  | .localFwd => openMatch perm host port
  | .remoteFwd => remoteOpenMatch perm { listenHost := some host, listenPort := port }

/-- The hosts that the host of an entry stands for: for opens it is compared as it is, with
`*` for every host; for listens it is a pattern for the host in lower case. -/
def StandsFor (dir : Where) (entry host : Str) : Prop :=
  match dir with
  | .localFwd => entry = fwdPermitAnyHost ∨ entry = host
  | .remoteFwd => lowercase host ∈ language (entry.map piece)

lemma openMatch_iff {perm : Permission} {host : Str} {port : Int} :
    openMatch perm host port = true ↔ ∃ h, perm.hostToConnect = some h ∧
      (perm.portToConnect = 0 ∨ perm.portToConnect = port) ∧ (h = fwdPermitAnyHost ∨ h = host) := by
  unfold openMatch
  cases perm.hostToConnect <;> simp

lemma remoteOpenMatch_iff {perm : Permission} {host : Str} {port : Int} :
    remoteOpenMatch perm { listenHost := some host, listenPort := port } = true ↔
      ∃ h, perm.listenHost = some h ∧ (perm.listenPort = 0 ∨ perm.listenPort = port) ∧
        lowercase host ∈ language (h.map piece) := by
  unfold remoteOpenMatch
  cases perm.listenHost <;> simp [matchPattern_iff]

lemma matched_added (dir : Where) (h : Str) (p : Int) (host : Str) (port : Int) :
    matched dir host port (addedPermission dir h p) = true ↔
      (p = 0 ∨ p = port) ∧ StandsFor dir h host := by
  cases dir with
  | localFwd => simp [matched, openMatch_iff, addedPermission, StandsFor]
  | remoteFwd => simp [matched, remoteOpenMatch_iff, addedPermission, StandsFor]

lemma matched_empty (dir : Where) (host : Str) (port : Int) : matched dir host port {} = false := by
  cases dir <;> rfl

variable {env : Env}

/-- An entry of the configuration or of a key covers a host and a port. -/
def Covers (env : Env) (slash : Bool) (dir : Where) (host : Str) (port : Int) (entry : Str) :
    Prop :=
  ∃ h p, parsePermission env slash entry = some (h, p) ∧ (p = 0 ∨ p = port) ∧ StandsFor dir h host

/-- The entries that are added to a list of one direction. -/
def addEntries (who : Who) (dir : Where) (es : List (Str × Int)) (p : PermissionSet) :
    PermissionSet :=
  { p.setArray (p.array who ++ es.map (fun e => addedPermission dir e.1 e.2)) who with
    allPermitted := p.allPermitted && es = [] }

lemma addEntries_nil (who : Who) (dir : Where) (p : PermissionSet) :
    addEntries who dir [] p = p := by
  cases who <;> simp [addEntries, PermissionSet.setArray, PermissionSet.array]

lemma addEntries_cons (who : Who) (dir : Where) (e : Str × Int) (es : List (Str × Int))
    (p : PermissionSet) :
    addEntries who dir (e :: es) p = addEntries who dir es (addEntries who dir [e] p) := by
  cases who <;> simp [addEntries, PermissionSet.setArray, PermissionSet.array]

lemma channelAddPermission_eq (who : Who) (dir : Where) (e : Str × Int) (p : Perms) :
    channelAddPermission who dir e.1 e.2 p = Perms.modify (addEntries who dir [e]) dir p := by
  cases dir <;> simp [channelAddPermission, permissionSetAdd, Perms.modify, addEntries]

lemma addPermissions_spec {slash : Bool} {who : Who} {dir : Where} {args : List Str}
    {p q : Perms} (h : addPermissions env slash who dir args p = some q) :
    ∃ es : List (Str × Int), args.map (parsePermission env slash) = es.map some ∧
      q = Perms.modify (addEntries who dir es) dir p := by
  induction args generalizing p with
  | nil =>
    cases h
    refine ⟨[], rfl, ?_⟩
    cases dir <;> simp [Perms.modify, addEntries_nil]
  | cons arg args ih =>
    unfold addPermissions at h ih
    rw [List.foldlM_cons] at h
    cases he : parsePermission env slash arg with
    | none => simp [he] at h
    | some e =>
      simp only [he, Option.map_some, Option.bind_eq_bind, Option.bind_some] at h
      obtain ⟨es, hes, rfl⟩ := ih h
      refine ⟨e :: es, by simp [he, hes], ?_⟩
      rw [channelAddPermission_eq]
      cases dir <;> simp [Perms.modify, addEntries_cons who _ e es]

lemma any_matched {slash : Bool} (dir : Where) {args : List Str} {es : List (Str × Int)}
    (h : args.map (parsePermission env slash) = es.map some) (host : Str) (port : Int) :
    (es.map (fun e => addedPermission dir e.1 e.2)).any (matched dir host port) = true ↔
      ∃ arg ∈ args, Covers env slash dir host port arg := by
  simp only [List.any_eq_true, List.mem_map, exists_exists_and_eq_and, matched_added]
  constructor
  · rintro ⟨e, he, hm⟩
    have hmem : some e ∈ args.map (parsePermission env slash) := h ▸ List.mem_map_of_mem he
    obtain ⟨arg, harg, hp⟩ := List.mem_map.mp hmem
    exact ⟨arg, harg, e.1, e.2, hp, hm⟩
  · rintro ⟨arg, harg, host', p, hp, hm⟩
    have hmem : some (host', p) ∈ es.map some := h ▸ List.mem_map.mpr ⟨arg, harg, hp⟩
    obtain ⟨e, he, hp'⟩ := List.mem_map.mp hmem
    cases hp'
    exact ⟨_, he, hm⟩

/-- What the key says about a direction. -/
def keyEntries (auth : AuthOpts) : Where → List Str
  | .localFwd => auth.permitopen
  | .remoteFwd => auth.permitlisten

/-- The policy of a session: forwarding in the direction is on, and both the key and the
configuration, where they list anything, cover the host and the port. -/
structure Permitted (env : Env) (opts : ServerOptions) (auth : AuthOpts) (dir : Where) (host : Str)
    (port : Int) : Prop where
  enabled : forwardingEnabled opts auth = true
  allowed : tcpFwd opts dir = true
  key : keyEntries auth dir = [] ∨
    ∃ e ∈ keyEntries auth dir, Covers env (dir = .localFwd) dir host port e
  config : opts.permitted dir = [] ∨ opts.permitted dir = [anyKeyword] ∨
    ∃ e ∈ opts.permitted dir, Covers env false dir host port e

variable {opts : ServerOptions} {auth : AuthOpts}

/-- What `process_permitopen_list` leaves in the administrator's list. -/
inductive AdminList (env : Env) (dir : Where) (opens : List Str) : List Permission → Prop
  | any (h : opens = [] ∨ opens = [anyKeyword]) : AdminList env dir opens []
  | none (h : opens = [noneKeyword]) : AdminList env dir opens [{}]
  | list (es : List (Str × Int)) (h : opens.map (parsePermission env false) = es.map some)
      (hne : opens ≠ []) :
      AdminList env dir opens (es.map (fun e => addedPermission dir e.1 e.2))

lemma processPermitopenList_spec {dir : Where} {opens : List Str} {p q : Perms}
    (h : processPermitopenList env dir opens p = some q) :
    (∀ d, d ≠ dir → q.set d = p.set d) ∧ (q.set dir).permittedUser = (p.set dir).permittedUser ∧
      ((p.set dir).allPermitted = false → (q.set dir).allPermitted = false) ∧
      AdminList env dir opens (q.set dir).permittedAdmin := by
  unfold processPermitopenList at h
  split_ifs at h with h1 h2 h3
  · cases h
    refine ⟨fun d hd => set_modify_of_ne _ hd _, ?_⟩
    rw [channelClearPermission, set_modify_self]
    exact ⟨rfl, id, .any (Or.inl h1)⟩
  · cases h
    refine ⟨fun d hd => set_modify_of_ne _ hd _, ?_⟩
    rw [channelClearPermission, set_modify_self]
    exact ⟨rfl, id, .any (Or.inr h2)⟩
  · cases h
    refine ⟨fun d hd => ?_, ?_⟩
    · simp only [channelDisableAdmin, permissionSetAdd, channelClearPermission,
        set_modify_of_ne _ hd]
    · simp only [channelDisableAdmin, permissionSetAdd, channelClearPermission, set_modify_self]
      exact ⟨rfl, id, .none h3⟩
  · obtain ⟨es, hes, rfl⟩ := addPermissions_spec h
    refine ⟨fun d hd => ?_, ?_⟩
    · simp only [channelClearPermission, set_modify_of_ne _ hd]
    · simp only [channelClearPermission, set_modify_self]
      refine ⟨rfl, fun hp => ?_, .list es hes h1⟩
      simp only [addEntries, allPermitted_setArray, hp, Bool.false_and]

lemma setFwdpermit_spec {dir : Where} {p q : Perms}
    (h : setFwdpermit env opts auth dir p = some q) :
    (∀ d, d ≠ dir → q.set d = p.set d) ∧ (q.set dir).permittedAdmin = (p.set dir).permittedAdmin ∧
      ((p.set dir).allPermitted = false → (q.set dir).allPermitted = false) ∧
      (tcpFwd opts dir = true → ∃ es : List (Str × Int),
        (keyEntries auth dir).map (parsePermission env (dir = .localFwd)) = es.map some ∧
        (q.set dir).permittedUser = es.map (fun e => addedPermission dir e.1 e.2)) := by
  unfold setFwdpermit at h
  by_cases ht : tcpFwd opts dir = true
  · rw [if_pos ht] at h
    have hadd : addPermissions env (dir = .localFwd) .user dir (keyEntries auth dir)
        (channelClearPermission .user dir p) = some q := by
      cases dir <;> exact h
    obtain ⟨es, hes, rfl⟩ := addPermissions_spec hadd
    refine ⟨fun d hd => ?_, ?_⟩
    · simp only [channelClearPermission, set_modify_of_ne _ hd]
    · simp only [channelClearPermission, set_modify_self]
      refine ⟨rfl, fun hp => ?_, fun _ => ⟨es, hes, rfl⟩⟩
      simp only [addEntries, allPermitted_setArray, hp, Bool.false_and]
  · rw [if_neg ht] at h
    cases h
    exact ⟨fun _ _ => rfl, rfl, id, fun h => absurd h ht⟩

lemma openDirection_of_ne {dir d : Where} (h : d ≠ dir) (p : Perms) :
    (openDirection opts auth dir p).set d = p.set d := by
  unfold openDirection
  split_ifs
  · simp only [channelDisableAdmin, permissionSetAdd, channelClearPermission, set_modify_of_ne _ h]
  · simp only [channelPermitAll, set_modify_of_ne _ h]

lemma openDirection_disabled {dir : Where} (p : Perms)
    (h : ¬(forwardingEnabled opts auth = true ∧ tcpFwd opts dir = true)) :
    ((openDirection opts auth dir p).set dir).permittedAdmin = [{}] := by
  have h' : (!forwardingEnabled opts auth) = true ∨ (!tcpFwd opts dir) = true := by
    rcases not_and_or.mp h with h | h <;> simp [h]
  rw [openDirection, if_pos h']
  simp only [channelDisableAdmin, permissionSetAdd, channelClearPermission, set_modify_self]
  rfl

lemma openDirection_enabled {dir : Where} (p : Perms)
    (h : forwardingEnabled opts auth = true ∧ tcpFwd opts dir = true) :
    (openDirection opts auth dir p).set dir =
      if (p.set dir).permittedUser = [] then { p.set dir with allPermitted := true }
      else p.set dir := by
  have h' : ¬((!forwardingEnabled opts auth) = true ∨ (!tcpFwd opts dir) = true) := by
    simp [h.1, h.2]
  rw [openDirection, if_neg h', channelPermitAll, set_modify_self]

lemma AdminList.covers {dir : Where} {opens : List Str} {adm : List Permission}
    (h : AdminList env dir opens adm) (host : Str) (port : Int) :
    (decide (adm = []) || adm.any (matched dir host port)) = true ↔
      opens = [] ∨ opens = [anyKeyword] ∨ ∃ e ∈ opens, Covers env false dir host port e := by
  cases h with
  | any h => exact iff_of_true (by simp) (by tauto)
  | none h =>
    refine iff_of_false (by simp [matched_empty]) ?_
    rw [h]
    rintro (h | h | ⟨e, he, host', p, hp, _⟩)
    · cases h
    · exact absurd h (by decide)
    · rw [List.mem_singleton.mp he] at hp
      cases hp
  | list es h hne =>
    have hes : es ≠ [] := by
      rintro rfl
      exact hne (List.map_eq_nil_iff.mp h)
    have hany : opens ≠ [anyKeyword] := by
      rintro rfl
      cases es with
      | nil => exact hes rfl
      | cons e es => cases h
    have hlist := any_matched dir h host port
    simp [hne, hany, hes] at hlist ⊢
    exact hlist

/-- The lists that a session starts with, in one direction. -/
def StartsWith (env : Env) (opts : ServerOptions) (auth : AuthOpts) (dir : Where)
    (p : PermissionSet) : Prop :=
  (¬(forwardingEnabled opts auth = true ∧ tcpFwd opts dir = true) ∧ p.permittedAdmin = [{}]) ∨
    ((forwardingEnabled opts auth = true ∧ tcpFwd opts dir = true) ∧
      ∃ es : List (Str × Int),
        (keyEntries auth dir).map (parsePermission env (dir = .localFwd)) = es.map some ∧
        p.permittedUser = es.map (fun e => addedPermission dir e.1 e.2) ∧
        (p.allPermitted = true ↔ es = []) ∧ AdminList env dir (opts.permitted dir) p.permittedAdmin)

/-- The three stages for one direction; between them only the other one changes. -/
lemma startsWith_of_stages {dir : Where} {p q q' r r' : Perms} (hp : p.set dir = {})
    (h1 : processPermitopenList env dir (opts.permitted dir) p = some q)
    (hq : q'.set dir = q.set dir) (h2 : setFwdpermit env opts auth dir q' = some r)
    (hr : r'.set dir = r.set dir) :
    StartsWith env opts auth dir ((openDirection opts auth dir r').set dir) := by
  obtain ⟨_, huser, hall, hadm⟩ := processPermitopenList_spec h1
  obtain ⟨_, hadm', hall', hkey⟩ := setFwdpermit_spec h2
  rw [hp] at huser hall
  rw [hq] at hadm' hall'
  by_cases h : forwardingEnabled opts auth = true ∧ tcpFwd opts dir = true
  · obtain ⟨es, hes, hu⟩ := hkey h.2
    have hfalse : (r'.set dir).allPermitted = false := by rw [hr, hall' (hall rfl)]
    have hlist : AdminList env dir (opts.permitted dir) (r'.set dir).permittedAdmin := by
      rwa [hr, hadm']
    refine Or.inr ⟨h, es, hes, ?_⟩
    rw [← hr] at hu
    rw [openDirection_enabled _ h]
    split_ifs with hnil
    · have hnil' : es = [] := by simpa [hu] using hnil
      exact ⟨hu, by simp [hnil'], hlist⟩
    · have hnil' : es ≠ [] := by simpa [hu] using hnil
      exact ⟨hu, by simp [hnil', hfalse], hlist⟩
  · exact Or.inl ⟨h, openDirection_disabled _ h⟩

lemma doAuthenticated_spec {perms : Perms} (h : doAuthenticated env opts auth = some perms)
    (dir : Where) : StartsWith env opts auth dir (perms.set dir) := by
  simp only [doAuthenticated, processPermitopen, Option.bind_eq_bind, Option.bind_eq_some_iff,
    Option.pure_def, Option.some.injEq] at h
  obtain ⟨p1, ⟨p0, h0, h1⟩, p2, h2, p3, h3, rfl⟩ := h
  cases dir with
  | localFwd =>
    rw [openDirection_of_ne (by decide)]
    exact startsWith_of_stages rfl h0 ((processPermitopenList_spec h1).1 _ (by decide)) h2
      ((setFwdpermit_spec h3).1 _ (by decide))
  | remoteFwd =>
    have hp : p0.set .remoteFwd = {} := (processPermitopenList_spec h0).1 _ (by decide)
    exact startsWith_of_stages hp h1 ((setFwdpermit_spec h2).1 _ (by decide)) h3
      (openDirection_of_ne (by decide) _)

theorem permits_iff {perms : Perms} (h : doAuthenticated env opts auth = some perms)
    (dir : Where) (host : Str) (port : Int) :
    (perms.set dir).permits (matched dir host port) = true ↔
      Permitted env opts auth dir host port := by
  rcases doAuthenticated_spec h dir with ⟨hoff, hadm⟩ | ⟨hon, es, hes, huser, hall, hadm⟩
  · refine iff_of_false ?_ (fun hp => hoff ⟨hp.enabled, hp.allowed⟩)
    simp [PermissionSet.permits, hadm, matched_empty]
  · have hkey : ((perms.set dir).allPermitted ||
        (perms.set dir).permittedUser.any (matched dir host port)) = true ↔
        keyEntries auth dir = [] ∨
          ∃ e ∈ keyEntries auth dir, Covers env (dir = .localFwd) dir host port e := by
      have hnil : es = [] ↔ keyEntries auth dir = [] := by
        rw [← List.map_eq_nil_iff (f := some), ← hes, List.map_eq_nil_iff]
      rw [Bool.or_eq_true, hall, hnil, huser, any_matched dir hes]
    rw [PermissionSet.permits, Bool.and_eq_true, hkey, hadm.covers host port]
    exact ⟨fun hp => ⟨hon.1, hon.2, hp.1, hp.2⟩, fun hp => ⟨hp.key, hp.config⟩⟩

end CMXSafe.Proofs
