import CMXSafe.Lib.Inet6
import CMXSafe.Proofs.Events

/-!
# The last event of a user decides its routes

While nobody else writes Services and every call is served, the routes of a user are those
of the last event of that user that was handled, whatever the other users did.
-/

namespace CMXSafe.Proofs
open Strings Stores Tokens Machines Inet6

def IsHexName (u : Str) : Prop := u.length = 12 ∧ ∀ c ∈ u, isHexDigit c = true

lemma nameChar_of_isHexDigit {c : Char} (h : isHexDigit c = true) : nameChar c = true := by
  have hf : 'f'.val ≤ 'z'.val := by decide
  have hF : 'F'.val ≤ 'Z'.val := by decide
  have hlower : c.isLower = (decide (c.val ≥ 'a'.val) && decide (c.val ≤ 'z'.val)) := rfl
  have hupper : c.isUpper = decide (c.val ≥ 'A'.val ∧ c.val ≤ 'Z'.val) := rfl
  have halnum : c.isAlphanum = (c.isUpper || c.isLower || c.isDigit) := rfl
  simp only [isHexDigit, lowerHex, nameChar, halnum, hlower, hupper, Bool.or_eq_true,
    Bool.and_eq_true, decide_eq_true_eq] at *
  rcases h with (h | ⟨h1, h2⟩) | ⟨h1, h2⟩
  · exact Or.inl (Or.inl (Or.inr h))
  · exact Or.inl (Or.inl (Or.inl (Or.inr ⟨h1, UInt32.le_trans h2 hf⟩)))
  · exact Or.inl (Or.inl (Or.inl (Or.inl ⟨h1, UInt32.le_trans h2 hF⟩)))

lemma IsHexName.acceptsName {u : Str} (h : IsHexName u) : acceptsName u = true := by
  simp only [CMXSafe.acceptsName, Bool.and_eq_true, decide_eq_true_eq, List.all_eq_true]
  refine ⟨?_, fun c hc => nameChar_of_isHexDigit (h.2 c hc)⟩
  rintro rfl
  exact absurd h.1 (by decide)

lemma IsHexName.ne_primary {u : Str} (h : IsHexName u) (w : Str) : u ≠ servicePrefix ++ w := by
  rintro rfl
  have hdash : '-' ∈ servicePrefix ++ w := List.mem_append_left _ (by decide +kernel)
  exact absurd (h.2 '-' hdash) (by decide)

/-- The two routes of the user lead to `ip`. -/
structure RoutedTo (ns user ip : Str) (c : Cluster) : Prop where
  slice : ∃ s, c.slices.get (defaultNS, sliceName user) = some s ∧
    lookup s.labels labelServiceName = some (servicePrefix ++ user) ∧
    s.endpoints = [⟨[ip]⟩] ∧
    s.ports = [buildEndpointPort sshPrimary 22, buildEndpointPort sshSecondary 2222]
  service : ∃ s, c.services.get (ns, user) = some s ∧ s.externalName = ewHost ns ip

/-- The IP that the event of the user is handled with, if it is one and is handled. -/
def handledIP (user : Str) (c : Sys) : Action → Option Str
  | .exec ev verdicts =>
    if ev.user = user ∧ c.handles ev verdicts = true then
      some (lookupPodIP c.podIPCache ev.podNS ev.podName)
    else none
  | _ => none

def handledIPs (user : Str) (c : Sys) (as : List Action) : List Str :=
  observe Sys.step (handledIP user) c as

/-- Nobody else writes Services, and every call of the controller is served. -/
def Peaceful : Action → Prop
  | .createService _ | .updateService _ | .deleteService _ => False
  | .exec _ verdicts => ∀ n, verdicts n = .serve
  | _ => True

lemma healthy_arm {c : Sys} {verdicts : Nat → Verdict} (h : ∀ n, verdicts n = .serve) :
    (c.arm verdicts).Healthy := h

lemma step_peaceful {c d : Sys} {a : Action} (ha : Peaceful a) (h : c.step a = some d) :
    d.api.cluster = c.api.cluster ∧ (∀ u, handledIP u c a = none) ∨
      ∃ ev verdicts, a = .exec ev verdicts ∧ (∀ n, verdicts n = .serve) ∧
        d = c.exec ev verdicts := by
  cases a with
  | createService s => exact absurd ha id
  | updateService s => exact absurd ha id
  | deleteService k => exact absurd ha id
  | exec ev verdicts =>
    cases h
    exact Or.inr ⟨ev, verdicts, rfl, ha, rfl⟩
  | createPod p =>
    left
    simp only [Sys.step] at h
    split_ifs at h
    split at h
    · cases h
      exact ⟨rfl, fun _ => rfl⟩
    · cases h
  | updatePod p | deletePod k | deliverService | deliverPod =>
    left
    simp only [Sys.step] at h
    split at h
    · cases h
    · cases h
      exact ⟨rfl, fun _ => rfl⟩

lemma sliceName_inj {u w : Str} (h : sliceName u = sliceName w) : u = w :=
  List.append_cancel_right h

section
variable {c : Sys} {ev : ProcessExec} {verdicts : Nat → Verdict} {user : Str}

/-- Against a healthy server, an event is handled if its Pod and user are known and every
listed Service exists. -/
lemma handles_iff (hv : ∀ n, verdicts n = .serve) :
    c.handles ev verdicts = true ↔ lookupPodIP c.podIPCache ev.podNS ev.podName ≠ [] ∧
      ev.user ≠ [] ∧ ∀ t ∈ listedFor c.serviceCache ev.user,
        (c.api.cluster.services.get t).isSome = true := by
  rw [Sys.handles, handled_iff]
  have hkept := (handleNSService_healthy (healthy_arm (c := c) hv) ev.user c.serviceCache).kept
  exact and_congr_right fun _ => and_congr_right fun _ => hkept

lemma handledIP_exec_eq_none (h : handledIP user c (.exec ev verdicts) = none) :
    c.handles ev verdicts = true → ev.user ≠ user := by
  intro hh he
  simp [handledIP, he, hh] at h

lemma exec_handled (hv : ∀ n, verdicts n = .serve) (h : c.handles ev verdicts = true)
    (hns : acceptsName ev.podNS = true) (huser : acceptsName ev.user = true) :
    ∃ a, a.cluster.slices = c.api.cluster.slices ∧
      WroteRoutes ev.podNS ev.user (servicePrefix ++ ev.user)
        (lookupPodIP c.podIPCache ev.podNS ev.podName) a (c.exec ev verdicts).api := by
  have hspec := nsService_spec ev.user (c.arm verdicts) c.serviceCache
  have hhandled := handleNSService_healthy (healthy_arm (c := c) hv) ev.user c.serviceCache
  refine ⟨(nsService ev.user (c.arm verdicts) c.serviceCache).2.1, hspec.slices, ?_⟩
  have hapi : (c.exec ev verdicts).api = _ := api_of_handled h
  rw [hapi]
  exact writeRoutes_healthy hhandled.healthy _ _ hns huser

/-- A handled event sets the routes of its user. -/
theorem routedTo_exec (hv : ∀ n, verdicts n = .serve) (h : c.handles ev verdicts = true)
    (hns : acceptsName ev.podNS = true) (huser : acceptsName ev.user = true) :
    RoutedTo ev.podNS ev.user (lookupPodIP c.podIPCache ev.podNS ev.podName)
      (c.exec ev verdicts).api.cluster := by
  obtain ⟨a, -, hw⟩ := exec_handled hv h hns huser
  constructor
  · refine ⟨_, hw.slice, ?_⟩
    cases a.cluster.slices.get (defaultNS, sliceName ev.user) with
    | none => exact ⟨(lookup_cons _ _ _).trans (if_pos rfl), rfl, rfl⟩
    | some s => exact ⟨lookup_setKey_self _ _ _, rfl, rfl⟩
  · cases hget : a.cluster.services.get (ev.podNS, ev.user) with
    | none =>
      obtain ⟨s, hs, hbody⟩ := hw.created hget
      exact ⟨s, hs, by rw [hbody]⟩
    | some s => exact ⟨_, hw.service s hget, rfl⟩

theorem routedTo_exec_of_not {ns ip : Str} (h : c.handles ev verdicts = true → ev.user ≠ user)
    (hr : RoutedTo ns user ip c.api.cluster) :
    RoutedTo ns user ip (c.exec ev verdicts).api.cluster := by
  obtain ⟨⟨s, hs, hlabel, hends, hports⟩, t, ht, hname⟩ := hr
  constructor
  · refine ⟨s, ?_, hlabel, hends, hports⟩
    rw [← hs]
    exact slices_handleProcessExec _ _ _ _
      (fun hh he => h hh (sliceName_inj (Prod.ext_iff.mp he).2.symm))
  · have hserv := services_handleProcessExec c.podIPCache ev (c.arm verdicts) c.serviceCache
      (k := (ns, user)) (fun hh he => h hh (Prod.ext_iff.mp he).2.symm)
    have ht' : (c.arm verdicts).cluster.services.get (ns, user) = some t := ht
    rw [ht'] at hserv
    rcases hserv with h' | ⟨-, h'⟩ | ⟨-, h', -⟩
    · exact ⟨t, h', hname⟩
    · exact ⟨strip t, h', hname⟩
    · cases h'

lemma handledIP_eq_some {a : Action} {ip : Str} (h : handledIP user c a = some ip) :
    ∃ ev verdicts, a = .exec ev verdicts ∧ ev.user = user ∧ c.handles ev verdicts = true ∧
      ip = lookupPodIP c.podIPCache ev.podNS ev.podName := by
  cases a with
  | exec ev verdicts =>
    simp only [handledIP] at h
    split_ifs at h with hc
    cases h
    exact ⟨ev, verdicts, rfl, hc.1, hc.2, rfl⟩
  | _ => cases h

end

def FromGateways (a : Action) : Prop :=
  Peaceful a ∧ ∀ ev verdicts, a = .exec ev verdicts → ev.podNS = defaultNS

/-- What the controller writes of the two routes of a user. -/
def routesOf (user : Str) (c : Cluster) : Option EndpointSlice × Option Str :=
  (c.slices.get (defaultNS, sliceName user),
    (c.services.get (defaultNS, user)).map (fun s => s.externalName))

def reroute (user : Str) (r : Option EndpointSlice × Option Str) (ip : Str) :
    Option EndpointSlice × Option Str :=
  (some (sliceAfter (servicePrefix ++ user) user ip r.1), some (ewHost defaultNS ip))

section
variable {c d : Sys} {a : Action} {user : Str}

lemma routesOf_hidden (hu : IsHexName user) (ha : Peaceful a) (hv : handledIP user c a = none)
    (h : c.step a = some d) : routesOf user d.api.cluster = routesOf user c.api.cluster := by
  rcases step_peaceful ha h with ⟨hc, -⟩ | ⟨ev, verdicts, rfl, -, rfl⟩
  · rw [hc]
  · have hne := handledIP_exec_eq_none hv
    have hslice := slices_handleProcessExec c.podIPCache ev (c.arm verdicts) c.serviceCache
      (k := (defaultNS, sliceName user))
      (fun hh he => hne hh (sliceName_inj (Prod.ext_iff.mp he).2.symm))
    have hserv := services_handleProcessExec c.podIPCache ev (c.arm verdicts) c.serviceCache
      (k := (defaultNS, user)) (fun hh he => hne hh (Prod.ext_iff.mp he).2.symm)
    refine Prod.ext hslice ?_
    change ((c.exec ev verdicts).api.cluster.services.get (defaultNS, user)).map _ =
      ((c.arm verdicts).cluster.services.get (defaultNS, user)).map _
    rcases hserv with h' | ⟨-, h'⟩ | ⟨h', -⟩
    · exact congrArg _ h'
    · exact (congrArg _ h').trans (by rw [Option.map_map]; rfl)
    · exact absurd (Prod.ext_iff.mp h').2 (hu.ne_primary ev.user)

lemma routesOf_visible (hu : acceptsName user = true) (ha : FromGateways a) {ip : Str}
    (hv : handledIP user c a = some ip) (h : c.step a = some d) :
    routesOf user d.api.cluster = reroute user (routesOf user c.api.cluster) ip := by
  obtain ⟨ev, verdicts, rfl, rfl, hh, rfl⟩ := handledIP_eq_some hv
  cases h
  have hns := ha.2 ev verdicts rfl
  obtain ⟨b, hslices, hw⟩ := exec_handled ha.1 hh (hns ▸ acceptsName_defaultNS) hu
  rw [hns] at hw ⊢
  refine Prod.ext ?_ ?_
  · have hslice := hw.slice
    rw [hslices] at hslice
    exact hslice
  · change ((c.exec ev verdicts).api.cluster.services.get (defaultNS, ev.user)).map _ = _
    cases hget : b.cluster.services.get (defaultNS, ev.user) with
    | none =>
      obtain ⟨s, hs, hbody⟩ := hw.created hget
      rw [hs]
      simp [reroute, hbody]
    | some s =>
      rw [hw.service s hget]
      rfl

theorem routesOf_run (hu : IsHexName user) {as : List Action}
    (hg : Guarded Sys.step (fun _ a => FromGateways a) c as) (hr : run Sys.step c as = some d) :
    routesOf user d.api.cluster =
      (handledIPs user c as).foldl (reroute user) (routesOf user c.api.cluster) :=
  run_normal (fun c => routesOf user c.api.cluster) (fun _ => True)
    (fun _ _ _ _ _ _ => trivial)
    (fun _ _ _ _ ha hv h => routesOf_hidden hu ha.1 hv h)
    (fun _ _ _ _ _ ha hv h => routesOf_visible hu.acceptsName ha hv h)
    trivial hg hr

theorem routedTo_run (hu : acceptsName user = true) {as : List Action}
    (hg : Guarded Sys.step (fun _ a => FromGateways a) c as) (hr : run Sys.step c as = some d)
    {ip : Str} (hip : (handledIPs user c as).getLast? = some ip) :
    RoutedTo defaultNS user ip d.api.cluster := by
  refine run_last (fun ip c => RoutedTo defaultNS user ip c.api.cluster)
    ?_ ?_ hg hr hip
  · intro s a ip t ha hv h
    obtain ⟨ev, verdicts, rfl, rfl, hh, rfl⟩ := handledIP_eq_some hv
    cases h
    have hns := ha.2 ev verdicts rfl
    have hr := routedTo_exec ha.1 hh (hns ▸ acceptsName_defaultNS) hu
    rw [hns] at hr ⊢
    exact hr
  · intro s a ip t ha hv hs h
    rcases step_peaceful ha.1 h with ⟨hc, -⟩ | ⟨ev, verdicts, rfl, -, rfl⟩
    · rw [hc]
      exact hs
    · exact routedTo_exec_of_not (handledIP_exec_eq_none hv) hs

end

/-! ## Which events are handled -/

def isExec : Action → Bool
  | .exec _ _ => true
  | _ => false

def isOf (user : Str) : Action → Bool
  | .exec ev _ => ev.user = user
  | _ => false

def ownIP (user : Str) (podIPCache : SyncMap) : Action → Option Str
  | .exec ev _ =>
    if ev.user = user ∧ lookupPodIP podIPCache ev.podNS ev.podName ≠ [] then
      some (lookupPodIP podIPCache ev.podNS ev.podName)
    else none
  | _ => none

/-- No listed Service is missing, so that nothing blocks the user. -/
structure Unblocked (user : Str) (c : Sys) : Prop where
  closed : c.serviceCache.cached (servicePrefix ++ user) = [] ∨
    [';'] <:+ c.serviceCache.cached (servicePrefix ++ user)
  exist : ∀ t ∈ listedFor c.serviceCache user, (c.api.cluster.services.get t).isSome = true

lemma isEntry_primaryOf {user : Str} (hu : Plain user) : IsEntry (primaryOf user) := by
  have hpfx : Plain servicePrefix := plain_of_acceptsName (by decide +kernel)
  refine ⟨defaultNS, servicePrefix ++ user, plain_of_acceptsName acceptsName_defaultNS, ?_, rfl⟩
  exact ⟨by simp [hpfx.1, hu.1], by simp [hpfx.2, hu.2]⟩

/-- Appending the primary entry to a closed string adds no target. -/
lemma targets_appendVal {user cur : Str} (hu : acceptsName user = true)
    (hc : cur = [] ∨ [';'] <:+ cur) :
    targets (primaryOf user) (pieces ';' (appendVal cur (primaryOf user ++ [';']))) =
      targets (primaryOf user) (pieces ';' cur) := by
  have hp : pieces ';' (primaryOf user ++ [';']) = [primaryOf user] := by
    rw [pieces_append_cons ((isEntry_primaryOf (plain_of_acceptsName hu)).semicolon_not_mem)
      (by simp [primaryOf, refBody]), pieces_nil]
  have ht : targets (primaryOf user) [primaryOf user] = [] := by simp [targets, targetOf]
  unfold appendVal
  split_ifs with h
  · rfl
  · rcases hc with rfl | ⟨s, rfl⟩
    · rw [List.nil_append, hp, ht]
      rfl
    · rw [List.append_assoc, List.singleton_append, pieces_append, hp, pieces_append, pieces_nil]
      simp [targets, List.filterMap_append, targetOf]

lemma Unblocked.exec {c : Sys} {user : Str} (hu : acceptsName user = true) (h : Unblocked user c)
    (ev : ProcessExec) (verdicts : Nat → Verdict) : Unblocked user (c.exec ev verdicts) := by
  have hcached : (c.exec ev verdicts).serviceCache.cached (servicePrefix ++ user) =
      c.serviceCache.cached (servicePrefix ++ user) ∨
      (c.exec ev verdicts).serviceCache.cached (servicePrefix ++ user) =
        appendVal (c.serviceCache.cached (servicePrefix ++ user)) (primaryOf user ++ [';']) := by
    by_cases he : ev.user = user
    · subst he
      exact cached_handleProcessExec_self _ _ _ _
    · left
      exact cached_handleProcessExec _ _ _ _ (fun hk => he (List.append_cancel_left hk).symm)
  have hlisted : listedFor (c.exec ev verdicts).serviceCache user =
      listedFor c.serviceCache user := by
    unfold listedFor
    rcases hcached with h' | h'
    · rw [h']
    · rw [h', targets_appendVal hu h.closed]
  constructor
  · rcases hcached with h' | h'
    · rw [h']
      exact h.closed
    · rw [h', appendVal]
      split_ifs
      · exact h.closed
      · right
        rw [← List.append_assoc]
        exact List.suffix_append _ _
  · intro t ht
    rw [hlisted] at ht
    exact isSome_handleProcessExec _ _ _ _ (h.exist t ht)

lemma Unblocked.handledIP_eq {c : Sys} {user : Str} (hu : user ≠ []) (h : Unblocked user c)
    {a : Action} (ha : Peaceful a) : handledIP user c a = ownIP user c.podIPCache a := by
  cases a with
  | exec ev verdicts =>
    simp only [handledIP, ownIP]
    by_cases he : ev.user = user
    · subst he
      have hiff : c.handles ev verdicts = true ↔
          lookupPodIP c.podIPCache ev.podNS ev.podName ≠ [] := by
        rw [handles_iff ha]
        exact and_iff_left ⟨hu, h.exist⟩
      simp only [hiff]
    · simp [he]
  | _ => rfl

/-- In a run of events alone, which events of an unblocked user are handled does not
depend on the events of the others. -/
theorem handledIPs_eq_ownIP {c : Sys} {user : Str} (hu : acceptsName user = true)
    (h : Unblocked user c) {as : List Action} (hexec : ∀ a ∈ as, isExec a = true)
    (ha : ∀ a ∈ as, Peaceful a) :
    handledIPs user c as = as.filterMap (ownIP user c.podIPCache) := by
  induction as generalizing c with
  | nil => rfl
  | cons a as ih =>
    have hhead := h.handledIP_eq (ne_nil_of_acceptsName hu) (ha a (by simp))
    cases a with
    | exec ev verdicts =>
      have hrec := ih (h.exec hu ev verdicts) (fun b hb => hexec b (by simp [hb]))
        (fun b hb => ha b (by simp [hb]))
      have hstep : handledIPs user c (.exec ev verdicts :: as) =
          (handledIP user c (.exec ev verdicts)).toList ++
            handledIPs user (c.exec ev verdicts) as := rfl
      rw [hstep, hrec, hhead]
      change _ ++ as.filterMap (ownIP user c.podIPCache) = _
      cases hown : ownIP user c.podIPCache (.exec ev verdicts) with
      | none => simp [hown]
      | some ip => simp [hown]
    | _ => cases hexec _ List.mem_cons_self

/-- Last writer wins. After a run of events from the gateways, the routes of a user lead
to the IP of its last handled event. Two runs leave the same routes if the user's events
are handled with the same IPs, which in runs of events alone is so if they have the same
events of the user and nothing blocks it at the start. -/
theorem last_writer_wins {user : Str} (hu : IsHexName user) {c d : Sys} {as : List Action}
    (hg : ∀ a ∈ as, FromGateways a) (hr : run Sys.step c as = some d) {ip : Str}
    (hip : (handledIPs user c as).getLast? = some ip) :
    RoutedTo defaultNS user ip d.api.cluster ∧
      ∀ bs d', (∀ b ∈ bs, FromGateways b) → run Sys.step c bs = some d' →
        (handledIPs user c bs = handledIPs user c as ∨
          Unblocked user c ∧ (∀ a ∈ as ++ bs, isExec a = true) ∧
            bs.filter (isOf user) = as.filter (isOf user)) →
        routesOf user d'.api.cluster = routesOf user d.api.cluster := by
  refine ⟨routedTo_run hu.acceptsName (guarded_of_forall hg) hr hip, ?_⟩
  intro bs d' hg' hr' hsame
  rw [routesOf_run hu (guarded_of_forall hg) hr, routesOf_run hu (guarded_of_forall hg') hr']
  suffices h : handledIPs user c bs = handledIPs user c as by rw [h]
  rcases hsame with h | ⟨hub, hexec, hfilter⟩
  · exact h
  · have hown : ∀ l : List Action, l.filterMap (ownIP user c.podIPCache) =
        (l.filter (isOf user)).filterMap (ownIP user c.podIPCache) := by
      intro l
      rw [List.filterMap_filter]
      refine List.filterMap_congr (fun a _ => ?_)
      cases a with
      | exec ev verdicts => by_cases he : ev.user = user <;> simp [isOf, ownIP, he]
      | _ => rfl
    rw [handledIPs_eq_ownIP hu.acceptsName hub (fun a ha => hexec a (by simp [ha]))
        (fun a ha => (hg' a ha).1),
      handledIPs_eq_ownIP hu.acceptsName hub (fun a ha => hexec a (by simp [ha]))
        (fun a ha => (hg a ha).1), hown bs, hown as, hfilter]

def exampleEvent : ProcessExec where
  podName := "cmxsafe-gw-7d4b9".toList
  podNS := defaultNS
  cwd := "/home/025f9a3db712".toList

def exampleIP : Str := "10.244.1.7".toList

def exampleSys : Sys :=
  { Sys.init with
    podIPCache := SyncMap.empty.store (podKey defaultNS exampleEvent.podName) exampleIP }

def exampleLogin : Action := .exec exampleEvent (fun _ => .serve)

lemma exampleLogin_fromGateways : FromGateways exampleLogin :=
  ⟨fun _ => rfl, fun _ _ h => by cases h; rfl⟩

lemma isHexName_exampleUser : IsHexName exampleUser :=
  ⟨rfl, List.all_eq_true.mp (by decide +kernel)⟩

/-- Another device, which logs in on another Pod. -/
def secondEvent : ProcessExec where
  podName := "cmxsafe-gw-7d4c2".toList
  podNS := defaultNS
  cwd := "/home/0242ac110002".toList

def secondIP : Str := "10.244.1.8".toList

/-- The first device on the second Pod. -/
def roamingEvent : ProcessExec := { exampleEvent with podName := secondEvent.podName }

def twoPods : Sys :=
  { exampleSys with
    podIPCache := exampleSys.podIPCache.store (podKey defaultNS secondEvent.podName) secondIP }

/-- The first device logs in and roams to the second Pod, with a login of the second device
between the two. -/
def roaming : List Action :=
  [exampleEvent, secondEvent, roamingEvent].map (fun ev => .exec ev (fun _ => .serve))

/-- The same logins of the first device, and other ones of the second. -/
def roamingAlone : List Action :=
  [secondEvent, secondEvent, exampleEvent, roamingEvent, secondEvent].map
    (fun ev => .exec ev (fun _ => .serve))

lemma logins_fromGateways {evs : List ProcessExec} (h : ∀ ev ∈ evs, ev.podNS = defaultNS) :
    ∀ a ∈ evs.map (fun ev => Action.exec ev (fun _ => .serve)), FromGateways a := by
  intro a ha
  obtain ⟨ev, hev, rfl⟩ := List.mem_map.mp ha
  refine ⟨fun _ => rfl, fun ev' verdicts he => ?_⟩
  cases he
  exact h ev hev

lemma twoPods_unblocked : Unblocked exampleUser twoPods := by
  have hnone : listedFor twoPods.serviceCache exampleUser = [] := by decide +kernel
  refine ⟨Or.inl rfl, fun t ht => ?_⟩
  rw [hnone] at ht
  cases ht

lemma roaming_filter :
    roamingAlone.filter (isOf exampleUser) = roaming.filter (isOf exampleUser) := by
  have hown : extractUsername exampleEvent.cwd = exampleUser := by decide +kernel
  have hroams : extractUsername roamingEvent.cwd = exampleUser := hown
  have hother : extractUsername secondEvent.cwd ≠ exampleUser := by decide +kernel
  simp [roaming, roamingAlone, isOf, ProcessExec.user, hown, hroams, hother]

theorem last_writer_wins_roaming : ∃ d d', run Sys.step twoPods roaming = some d ∧
    run Sys.step twoPods roamingAlone = some d' ∧
    RoutedTo defaultNS exampleUser secondIP d.api.cluster ∧
    routesOf exampleUser d'.api.cluster = routesOf exampleUser d.api.cluster := by
  have hroaming : ∀ a ∈ roaming, FromGateways a := logins_fromGateways (by decide +kernel)
  have halone : ∀ a ∈ roamingAlone, FromGateways a := logins_fromGateways (by decide +kernel)
  have hlast : (handledIPs exampleUser twoPods roaming).getLast? = some secondIP := by
    decide +kernel
  have hexec : ∀ a ∈ roaming ++ roamingAlone, isExec a = true := by
    simp [roaming, roamingAlone, isExec]
  obtain ⟨hroutes, hsame⟩ := last_writer_wins isHexName_exampleUser hroaming rfl hlast
  exact ⟨_, _, rfl, rfl, hroutes,
    hsame roamingAlone _ halone rfl (Or.inr ⟨twoPods_unblocked, hexec, roaming_filter⟩)⟩

end CMXSafe.Proofs
