import CMXSafe.Proofs.PodRoutes

/-!
# When the two routes part

The EndpointSlice and the ExternalName Service of a user are written one after the other,
and neither write knows of the other's failure. They lead to one Pod as long as in every
event of the user both writes take effect, or neither does.
-/

namespace CMXSafe.Proofs
open Strings Stores Machines

/-- Whether the next call changes the cluster. -/
def takesEffect (r : Request) (a : Api) : Bool :=
  match a.verdicts 0, r.serve a.cluster with
  | .refuse _, _ => false
  | _, .ok _ => true
  | _, .error _ => false

/-- Whether a patch, or the creation behind it, changes the cluster. -/
def upsertTakes (p r : Request) (a : Api) : Bool :=
  takesEffect p a || isNotFound (a.call p).1 && takesEffect r (a.call p).2

lemma call_takesEffect (r : Request) (a : Api) :
    if takesEffect r a = true then
      ∃ e, r.serve a.cluster = .ok e ∧ (a.call r).2.cluster = e.1
    else (a.call r).2.cluster = a.cluster := by
  unfold takesEffect Api.call
  cases a.verdicts 0 <;> cases r.serve a.cluster <;> simp [Api.commit]

/-- A write that takes effect establishes what both its requests do, another one changes
nothing. -/
theorem upsert_takes {p r : Request} {holds : Cluster → Prop}
    (hp : ∀ c e, p.serve c = .ok e → holds e.1) (hr : ∀ c e, r.serve c = .ok e → holds e.1)
    (a : Api) :
    if upsertTakes p r a = true then holds (upsert p r a).2.cluster
    else (upsert p r a).2.cluster = a.cluster := by
  have hpatch := call_takesEffect p a
  have hcreate := call_takesEffect r (a.call p).2
  have hcreated : holds (a.call p).2.cluster → holds ((a.call p).2.call r).2.cluster := by
    intro h
    split_ifs at hcreate
    · obtain ⟨e, he, hc⟩ := hcreate
      exact hc ▸ hr _ e he
    · exact hcreate ▸ h
  unfold upsertTakes upsert
  dsimp only
  cases htakes : takesEffect p a with
  | true =>
    rw [if_pos htakes] at hpatch
    obtain ⟨e, he, hc⟩ := hpatch
    have hdone : holds (a.call p).2.cluster := hc ▸ hp _ e he
    rw [Bool.true_or, if_pos rfl]
    split_ifs
    · exact hcreated hdone
    · exact hdone
  | false =>
    rw [if_neg (by simp [htakes])] at hpatch
    rw [Bool.false_or]
    cases hfound : isNotFound (a.call p).1 with
    | false => simpa using hpatch
    | true =>
      rw [Bool.true_and, if_pos rfl]
      cases hlate : takesEffect r (a.call p).2 with
      | true =>
        rw [if_pos hlate] at hcreate
        obtain ⟨e, he, hc⟩ := hcreate
        rw [if_pos rfl, hc]
        exact hr _ e he
      | false =>
        rw [if_neg (by simp [hlate])] at hcreate
        rw [if_neg (by simp), hcreate, hpatch]

def SliceTo (user ip : Str) (c : Cluster) : Prop :=
  ∃ s, c.slices.get (defaultNS, sliceName user) = some s ∧
    lookup s.labels labelServiceName = some (servicePrefix ++ user) ∧ s.endpoints = [⟨[ip]⟩] ∧
    s.ports = [buildEndpointPort sshPrimary 22, buildEndpointPort sshSecondary 2222]

def EwTo (ns user ip : Str) (c : Cluster) : Prop :=
  ∃ s, c.services.get (ns, user) = some s ∧ s.externalName = ewHost ns ip

/-- The EndpointSlice of the user is the same in `d` as in `c`. -/
def SliceKept (user : Str) (c d : Cluster) : Prop :=
  d.slices.get (defaultNS, sliceName user) = c.slices.get (defaultNS, sliceName user)

/-- The ExternalName Service of the user leads in `d` where it leads in `c`. -/
def EwKept (ns user : Str) (c d : Cluster) : Prop :=
  (d.services.get (ns, user)).map (fun s => s.externalName) =
    (c.services.get (ns, user)).map (fun s => s.externalName)

section
variable (c : Sys) (ev : ProcessExec) (verdicts : Nat → Verdict)

/-- The server as the event finds it behind `handleNSService`. -/
def routesServer : Api := (nsService ev.user (c.arm verdicts) c.serviceCache).2.1

def eventIP : Str := lookupPodIP c.podIPCache ev.podNS ev.podName

/-- The server behind the write of the EndpointSlice. -/
def sliceServer : Api :=
  (upsert (slicePatchRequest ev.user (servicePrefix ++ ev.user) (eventIP c ev))
    (.createSlice (freshSlice (servicePrefix ++ ev.user) ev.user (eventIP c ev)))
    (routesServer c ev verdicts)).2

def sliceTakes : Bool :=
  upsertTakes (slicePatchRequest ev.user (servicePrefix ++ ev.user) (eventIP c ev))
    (.createSlice (freshSlice (servicePrefix ++ ev.user) ev.user (eventIP c ev)))
    (routesServer c ev verdicts)

/-- The server behind the write of the ExternalName Service. -/
def ewServer : Api :=
  (upsert (ewPatchRequest ev.podNS ev.user (eventIP c ev))
    (ewCreateRequest ev.podNS ev.user (eventIP c ev)) (sliceServer c ev verdicts)).2

def ewTakes : Bool :=
  upsertTakes (ewPatchRequest ev.podNS ev.user (eventIP c ev))
    (ewCreateRequest ev.podNS ev.user (eventIP c ev)) (sliceServer c ev verdicts)

/-- Both writes of a handled event take effect, or neither does. -/
def TakeTogether : Prop :=
  c.handles ev verdicts = true → sliceTakes c ev verdicts = ewTakes c ev verdicts

end

lemma sliceTo_of_serve {user ip : Str} :
    (∀ c e, (slicePatchRequest user (servicePrefix ++ user) ip).serve c = .ok e →
        SliceTo user ip e.1) ∧
      ∀ c e, (Request.createSlice (freshSlice (servicePrefix ++ user) user ip)).serve c = .ok e →
        SliceTo user ip e.1 := by
  constructor
  · intro c e h
    obtain ⟨s, -, -, hall⟩ := serve_patchSlice h
    exact ⟨_, (hall _).trans (if_pos rfl), lookup_setKey_self _ _ _, rfl, rfl⟩
  · intro c e h
    obtain ⟨-, -, hall⟩ := serve_createSlice h
    exact ⟨_, (hall _).trans (if_pos rfl), (lookup_cons _ _ _).trans (if_pos rfl), rfl, rfl⟩

lemma ewTo_of_serve {ns user ip : Str} :
    (∀ c e, (ewPatchRequest ns user ip).serve c = .ok e → EwTo ns user ip e.1) ∧
      ∀ c e, (ewCreateRequest ns user ip).serve c = .ok e → EwTo ns user ip e.1 := by
  constructor
  · intro c e h
    obtain ⟨s, -, -, hall⟩ := serve_patchService h
    exact ⟨_, (hall _).trans (if_pos rfl), rfl⟩
  · intro c e h
    obtain ⟨-, -, s, -, hbody, hall⟩ := serve_createService h
    exact ⟨s, (hall _).trans (if_pos rfl), congrArg ServiceBody.externalName hbody⟩

section
variable {c : Sys} {ev : ProcessExec} {verdicts : Nat → Verdict}

lemma ewKept_nsService :
    EwKept ev.podNS ev.user c.api.cluster (routesServer c ev verdicts).cluster := by
  unfold EwKept routesServer
  rcases (nsService_spec ev.user (c.arm verdicts) c.serviceCache).services (ev.podNS, ev.user) with
    h | ⟨-, h⟩ | ⟨hp, -⟩
  · rw [h]
    rfl
  · rw [h, Option.map_map]
    rfl
  · exact absurd hp.symm (primaryKey_ne_bare ev.podNS ev.user)

lemma exec_handled_eq (h : c.handles ev verdicts = true) :
    (c.exec ev verdicts).api = ewServer c ev verdicts := by
  have hapi : (c.exec ev verdicts).api = _ := api_of_handled h
  rw [hapi, writeRoutes_eq]
  rfl

lemma routes_kept_of_not_handled (h : ¬c.handles ev verdicts = true) :
    SliceKept ev.user c.api.cluster (c.exec ev verdicts).api.cluster ∧
      EwKept ev.podNS ev.user c.api.cluster (c.exec ev verdicts).api.cluster := by
  refine ⟨slices_handleProcessExec _ _ _ _ (fun hh => absurd hh h), ?_⟩
  rcases services_handleProcessExec c.podIPCache ev (c.arm verdicts) c.serviceCache
    (k := (ev.podNS, ev.user)) (fun hh => absurd hh h) with h' | ⟨-, h'⟩ | ⟨hp, -⟩
  · exact congrArg _ h'
  · refine (congrArg _ h').trans ?_
    rw [Option.map_map]
    rfl
  · exact absurd hp.symm (primaryKey_ne_bare ev.podNS ev.user)

/-- What a handled event makes of the two routes of its user, whatever becomes of its
calls. -/
theorem exec_routes (h : c.handles ev verdicts = true) :
    let d := (c.exec ev verdicts).api.cluster
    (if sliceTakes c ev verdicts = true then SliceTo ev.user (eventIP c ev) d
      else SliceKept ev.user c.api.cluster d) ∧
    (if ewTakes c ev verdicts = true then EwTo ev.podNS ev.user (eventIP c ev) d
      else EwKept ev.podNS ev.user c.api.cluster d) := by
  have hstart : (routesServer c ev verdicts).cluster.slices = c.api.cluster.slices :=
    (nsService_spec ev.user (c.arm verdicts) c.serviceCache).slices
  have hslice : if sliceTakes c ev verdicts = true then
      SliceTo ev.user (eventIP c ev) (sliceServer c ev verdicts).cluster
      else (sliceServer c ev verdicts).cluster = (routesServer c ev verdicts).cluster :=
    upsert_takes sliceTo_of_serve.1 sliceTo_of_serve.2 (routesServer c ev verdicts)
  have hew : if ewTakes c ev verdicts = true then
      EwTo ev.podNS ev.user (eventIP c ev) (ewServer c ev verdicts).cluster
      else (ewServer c ev verdicts).cluster = (sliceServer c ev verdicts).cluster :=
    upsert_takes ewTo_of_serve.1 ewTo_of_serve.2 (sliceServer c ev verdicts)
  -- each write leaves the other object alone
  have hservices : ∀ k, (sliceServer c ev verdicts).cluster.services.get k =
      (routesServer c ev verdicts).cluster.services.get k :=
    fun k => sliceUpsert_services _ _ (routesServer c ev verdicts)
  have hslices : ∀ k, (ewServer c ev verdicts).cluster.slices.get k =
      (sliceServer c ev verdicts).cluster.slices.get k :=
    fun k => ewUpsert_slices _ (sliceServer c ev verdicts)
  intro d
  have hd : d = (ewServer c ev verdicts).cluster := congrArg Api.cluster (exec_handled_eq h)
  rw [hd]
  constructor
  · cases hs : sliceTakes c ev verdicts with
    | true =>
      rw [if_pos hs] at hslice
      rw [if_pos rfl, SliceTo, hslices]
      exact hslice
    | false =>
      rw [if_neg (by simp [hs])] at hslice
      rw [if_neg (by simp), SliceKept, hslices, hslice, hstart]
  · cases he : ewTakes c ev verdicts with
    | true =>
      rw [if_pos he] at hew
      rw [if_pos rfl]
      exact hew
    | false =>
      rw [if_neg (by simp [he])] at hew
      rw [if_neg (by simp), EwKept, hew, hservices]
      exact ewKept_nsService

/-- Each route is kept or leads to the Pod of the event, and both do the same if both
writes take effect or neither does. -/
theorem exec_routes_each :
    let d := (c.exec ev verdicts).api.cluster
    (SliceKept ev.user c.api.cluster d ∨ SliceTo ev.user (eventIP c ev) d) ∧
    (EwKept ev.podNS ev.user c.api.cluster d ∨ EwTo ev.podNS ev.user (eventIP c ev) d) ∧
    (TakeTogether c ev verdicts →
      (SliceKept ev.user c.api.cluster d ∧ EwKept ev.podNS ev.user c.api.cluster d) ∨
        SliceTo ev.user (eventIP c ev) d ∧ EwTo ev.podNS ev.user (eventIP c ev) d) := by
  intro d
  by_cases h : c.handles ev verdicts = true
  · obtain ⟨hslice, hew⟩ := exec_routes h
    refine ⟨?_, ?_, fun htogether => ?_⟩
    · split_ifs at hslice
      · exact Or.inr hslice
      · exact Or.inl hslice
    · split_ifs at hew
      · exact Or.inr hew
      · exact Or.inl hew
    · rw [← htogether h] at hew
      split_ifs at hslice hew
      · exact Or.inr ⟨hslice, hew⟩
      · exact Or.inl ⟨hslice, hew⟩
  · obtain ⟨hslice, hew⟩ := routes_kept_of_not_handled h
    exact ⟨Or.inl hslice, Or.inl hew, fun _ => Or.inl ⟨hslice, hew⟩⟩

end

/-- If the EndpointSlice of the user is there, then both routes lead to one Pod. -/
def Joined (user : Str) (c : Cluster) : Prop :=
  ∀ s, c.slices.get (defaultNS, sliceName user) = some s →
    ∃ ip, SliceTo user ip c ∧ EwTo defaultNS user ip c

lemma joined_of_kept {user : Str} {c d : Cluster} (hs : SliceKept user c d)
    (he : EwKept defaultNS user c d) (h : Joined user c) : Joined user d := by
  intro s hget
  obtain ⟨ip, hslice, t, ht, hname⟩ := h s (hs ▸ hget)
  refine ⟨ip, by rw [SliceTo, hs]; exact hslice, ?_⟩
  rw [EwKept, ht, Option.map_some, Option.map_eq_some_iff] at he
  obtain ⟨t', ht', hname'⟩ := he
  exact ⟨t', ht', hname'.trans hname⟩

/-- A step that does not part the routes of the user: its events write both or neither, and
nobody else writes its ExternalName Service. -/
def Joining (user : Str) (c : Sys) : Action → Prop
  | .exec ev verdicts => ev.user = user → TakeTogether c ev verdicts
  | .createService s | .updateService s => s.key ≠ (defaultNS, user)
  | .deleteService k => k ≠ (defaultNS, user)
  | _ => True

lemma step_kept {user : Str} {c d : Sys} {a : Action} (ha : Joining user c a)
    (hexec : ∀ ev verdicts, a ≠ .exec ev verdicts) (h : c.step a = some d) :
    SliceKept user c.api.cluster d.api.cluster ∧
      EwKept defaultNS user c.api.cluster d.api.cluster := by
  cases a with
  | exec ev verdicts => exact absurd rfl (hexec ev verdicts)
  | createPod p =>
    simp only [Sys.step] at h
    split_ifs at h
    split at h <;> cases h
    exact ⟨rfl, rfl⟩
  | updatePod p | deletePod k | deliverPod | deliverService =>
    simp only [Sys.step] at h
    split at h <;> cases h
    exact ⟨rfl, rfl⟩
  | createService s | updateService s =>
    simp only [Sys.step] at h
    split at h <;> cases h
    exact ⟨rfl, congrArg _ (Store.get_put_of_ne _ (Ne.symm ha))⟩
  | deleteService k =>
    simp only [Sys.step] at h
    split at h <;> cases h
    refine ⟨rfl, congrArg _ ?_⟩
    exact (Store.get_erase _ _ _).trans (if_neg (Ne.symm ha))

theorem joined_step {user : Str} {c d : Sys} {a : Action} (ha : Joining user c a)
    (h : c.step a = some d) (hview : ∃ seen, PodView seen c) (hc : Joined user c.api.cluster) :
    Joined user d.api.cluster := by
  by_cases hexec : ∃ ev verdicts, a = .exec ev verdicts
  · obtain ⟨ev, verdicts, rfl⟩ := hexec
    cases h
    by_cases hu : c.handles ev verdicts = true ∧ ev.user = user
    · obtain ⟨hh, rfl⟩ := hu
      obtain ⟨seen, hseen⟩ := hview
      obtain ⟨p, -, hns, -, hdefault, -⟩ := pod_of_handles hseen ((handled_iff _ _ _ _).mp hh).1
      have hpod : ev.podNS = defaultNS := hns.symm.trans hdefault
      rcases exec_routes_each.2.2 (ha rfl) with ⟨hs, he⟩ | ⟨hs, he⟩
      · exact joined_of_kept hs (hpod ▸ he) hc
      · exact fun _ _ => ⟨_, hs, hpod ▸ he⟩
    · intro s hs
      rw [show (c.exec ev verdicts).api.cluster.slices.get (defaultNS, sliceName user) = _ from
        slices_handleProcessExec _ _ _ _
          (fun hh he => hu ⟨hh, (sliceName_inj (Prod.ext_iff.mp he).2).symm⟩)] at hs
      obtain ⟨ip, hslice, hew⟩ := hc s hs
      have hrouted := routedTo_exec_of_not (fun hh he => hu ⟨hh, he⟩) ⟨hslice, hew⟩
      exact ⟨ip, hrouted.slice, hrouted.service⟩
  · rw [not_exists] at hexec
    obtain ⟨hs, he⟩ := step_kept ha (fun ev verdicts he => hexec ev ⟨verdicts, he⟩) h
    exact joined_of_kept hs he hc

theorem joined_run {user : Str} {as : List Action} {c : Sys}
    (hg : Guarded Sys.step (Joining user) Sys.init as) (hr : run Sys.step Sys.init as = some c) :
    Joined user c.api.cluster :=
  (run_invariant (fun c => (∃ seen, PodView seen c) ∧ Joined user c.api.cluster)
    (fun _ _ _ hi ha h => ⟨podView_step h hi.1, joined_step ha h hi.1 hi.2⟩)
    ⟨⟨_, podView_init⟩, fun _ hs => nomatch hs⟩ hg hr).2

/-- After an event each route of its user is kept or leads to the Pod of the event, and both
alike if both writes take effect or neither does. In a run in which this is so at every
event of the user, both routes lead to one Pod in every state where both are there. -/
theorem routes_joined :
    (∀ (c : Sys) (ev : ProcessExec) (verdicts : Nat → Verdict),
      let d := (c.exec ev verdicts).api.cluster
      (SliceKept ev.user c.api.cluster d ∨ SliceTo ev.user (eventIP c ev) d) ∧
      (EwKept ev.podNS ev.user c.api.cluster d ∨ EwTo ev.podNS ev.user (eventIP c ev) d) ∧
      (TakeTogether c ev verdicts →
        (SliceKept ev.user c.api.cluster d ∧ EwKept ev.podNS ev.user c.api.cluster d) ∨
          SliceTo ev.user (eventIP c ev) d ∧ EwTo ev.podNS ev.user (eventIP c ev) d)) ∧
    ∀ (user : Str) (as : List Action) (c : Sys),
      Guarded Sys.step (Joining user) Sys.init as → run Sys.step Sys.init as = some c →
      ∀ s t, c.api.cluster.slices.get (defaultNS, sliceName user) = some s →
        c.api.cluster.services.get (defaultNS, user) = some t →
        ∃ ip, s.endpoints = [⟨[ip]⟩] ∧ t.externalName = ewHost defaultNS ip := by
  refine ⟨fun _ _ _ => exec_routes_each, fun user as c hg hr s t hs ht => ?_⟩
  obtain ⟨ip, ⟨s', hs', -, hends, -⟩, t', ht', hname⟩ := joined_run hg hr s hs
  rw [hs] at hs'
  rw [ht] at ht'
  cases hs'
  cases ht'
  exact ⟨ip, hends, hname⟩

instance (c : Sys) (ev : ProcessExec) (verdicts : Nat → Verdict) :
    Decidable (TakeTogether c ev verdicts) :=
  inferInstanceAs (Decidable (_ = true → _ = _))

instance (user : Str) (c : Sys) : ∀ a, Decidable (Joining user c a)
  | .exec ev verdicts => inferInstanceAs (Decidable (ev.user = user → TakeTogether c ev verdicts))
  | .createService s | .updateService s =>
    inferInstanceAs (Decidable (s.key ≠ (defaultNS, user)))
  | .deleteService k => inferInstanceAs (Decidable (k ≠ (defaultNS, user)))
  | .createPod _ | .updatePod _ | .deletePod _ | .deliverService | .deliverPod => .isTrue trivial

def loginRun : List Action := [.createPod examplePod, .deliverPod, exampleLogin]

/-- Two logins of one device, with outside edits of a Service between the two, and one of
another device for which no EndpointSlice can be created. -/
def joiningRun : List Action :=
  loginRun ++ [.createPod secondPod, .deliverPod, .exec secondEvent (refuseAt 2),
    .createService exampleLB, .deliverService, .updateService exampleClusterIP,
    .exec roamingEvent (fun _ => .serve)]

theorem routes_joined_login : ∃ c s t, run Sys.step Sys.init joiningRun = some c ∧
    c.api.cluster.slices.get (defaultNS, sliceName exampleUser) = some s ∧
    c.api.cluster.services.get (defaultNS, exampleUser) = some t ∧
    s.endpoints = [⟨[secondIP]⟩] ∧ t.externalName = ewHost defaultNS secondIP ∧
    (SliceKept exampleEvent.user c.api.cluster (c.exec exampleEvent (refuseAt 2)).api.cluster ∨
      SliceTo exampleEvent.user (eventIP c exampleEvent)
        (c.exec exampleEvent (refuseAt 2)).api.cluster) := by
  obtain ⟨c, hc⟩ : ∃ c, run Sys.step Sys.init joiningRun = some c :=
    Option.isSome_iff_exists.mp (by decide +kernel)
  have hthere : (run Sys.step Sys.init joiningRun).map (fun c =>
      ((c.api.cluster.slices.get (defaultNS, sliceName exampleUser)).map (fun s => s.endpoints),
        (c.api.cluster.services.get (defaultNS, exampleUser)).isSome)) =
      some (some [⟨[secondIP]⟩], true) := by
    decide +kernel
  rw [hc, Option.map_some, Option.some.injEq, Prod.mk.injEq] at hthere
  obtain ⟨s, hs, hends⟩ := Option.map_eq_some_iff.mp hthere.1
  obtain ⟨t, ht⟩ := Option.isSome_iff_exists.mp hthere.2
  obtain ⟨hevents, hruns⟩ := routes_joined
  obtain ⟨ip, hip, hname⟩ := hruns exampleUser joiningRun c (by decide +kernel) hc s t hs ht
  rw [hends] at hip
  cases hip
  exact ⟨c, s, t, hc, hs, ht, hends, hname, (hevents c exampleEvent (refuseAt 2)).1⟩

/-- A login on the second Pod in which the patch of the ExternalName Service is refused. -/
def halfLogin : Action := .exec roamingEvent (refuseAt 2)

theorem routes_part : ∃ c s t,
    run Sys.step Sys.init (loginRun ++ [.createPod secondPod, .deliverPod, halfLogin]) = some c ∧
    c.api.cluster.slices.get (defaultNS, sliceName exampleUser) = some s ∧
    c.api.cluster.services.get (defaultNS, exampleUser) = some t ∧
    s.endpoints = [⟨["10.244.1.8".toList]⟩] ∧ t.externalName = ewHost defaultNS exampleIP ∧
    ¬∃ ip, s.endpoints = [⟨[ip]⟩] ∧ t.externalName = ewHost defaultNS ip := by
  have hroutes : (run Sys.step Sys.init
      (loginRun ++ [.createPod secondPod, .deliverPod, halfLogin])).map (fun c =>
        ((c.api.cluster.slices.get (defaultNS, sliceName exampleUser)).map (fun s => s.endpoints),
          (c.api.cluster.services.get (defaultNS, exampleUser)).map (fun t => t.externalName))) =
      some (some [⟨["10.244.1.8".toList]⟩], some (ewHost defaultNS exampleIP)) := by decide +kernel
  obtain ⟨c, hc, hpair⟩ := Option.map_eq_some_iff.mp hroutes
  rw [Prod.mk.injEq] at hpair
  obtain ⟨s, hs, hends⟩ := Option.map_eq_some_iff.mp hpair.1
  obtain ⟨t, ht, hname⟩ := Option.map_eq_some_iff.mp hpair.2
  refine ⟨c, s, t, hc, hs, ht, hends, hname, ?_⟩
  rintro ⟨ip, hip, hip'⟩
  rw [hends] at hip
  cases hip
  rw [hname] at hip'
  exact absurd hip' (by decide +kernel)

end CMXSafe.Proofs
