import CMXSafe.Proofs.LastWriter

/-!
# Isolation of users

The objects that route a user are found by three schemes for names. An event of another
user stays clear of them exactly when the names do not meet and the cache lists none of
them under the other user, save those that publish the other user's host name.
-/

namespace CMXSafe.Proofs
open Strings Stores Tokens Machines

/-- The headless Service of the gateways. -/
def gatewayKey : Str × Str := (defaultNS, "cmxsafe-gw".toList)

/-- The Services that an event of another user, from a Pod in `ns`, must not touch. -/
def Protected (ns v : Str) (k : Str × Str) : Prop :=
  k = primaryKey v ∨ k = (ns, v) ∨ k = gatewayKey

/-- An event of `user` has left the objects of `v` alone, but for taking the host name of
`user` off a Service that carries it. -/
structure Isolated (ns user v : Str) (c d : Cluster) : Prop where
  slice : d.slices.get (defaultNS, sliceName v) = c.slices.get (defaultNS, sliceName v)
  services : ∀ k, Protected ns v k → d.services.get k = c.services.get k ∨
    ∃ s, c.services.get k = some s ∧ s.hostname = hostOf user ∧ d.services.get k = some (strip s)

/-- What keeps an event of `ev.user` from the objects of `v`. -/
structure KeepsApart (ev : ProcessExec) (v : Str) (c : Sys) : Prop where
  /-- A listed Service of `v` has no host name, or the one of the event's user. -/
  listed : ∀ k ∈ listedFor c.serviceCache ev.user, Protected ev.podNS v k →
    ∀ s, c.api.cluster.services.get k = some s → strip s = s ∨ s.hostname = hostOf ev.user
  /-- If the event can get that far, no primary Service is created under the name of `v`. -/
  primary : (∀ t ∈ listedFor c.serviceCache ev.user, (c.api.cluster.services.get t).isSome = true) →
    ev.podNS = defaultNS → v = servicePrefix ++ ev.user →
    (c.api.cluster.services.get (primaryKey ev.user)).isSome = true
  /-- If the event can get that far, its ExternalName Service does not carry a name of `v`
  or of the gateways, or is as it will be written. -/
  bare : (∀ t ∈ listedFor c.serviceCache ev.user, (c.api.cluster.services.get t).isSome = true) →
    ev.podNS = defaultNS → Protected ev.podNS v (defaultNS, ev.user) →
    ∃ s, c.api.cluster.services.get (defaultNS, ev.user) = some s ∧
      s.externalName = ewHost defaultNS (lookupPodIP c.podIPCache ev.podNS ev.podName)

/-- Writing the ExternalName Service as it is changes nothing, whatever becomes of the
calls. -/
lemma ewUpsert_settled {ns user ip : Str} {a : Api} {s : Service}
    (hs : a.cluster.services.get (ns, user) = some s) (he : s.externalName = ewHost ns ip) :
    (upsert (ewPatchRequest ns user ip) (ewCreateRequest ns user ip) a
      ).2.cluster.services.get (ns, user) = some s := by
  obtain ⟨t, ht, rfl | rfl⟩ := ewUpsert_existing ip hs
  · exact ht
  · rw [ht, ← he]

lemma protected_bare {ns u v : Str} (hne : u ≠ v) (h : Protected ns v (ns, u)) :
    ns = defaultNS := by
  rcases h with h | h | h
  · exact (Prod.ext_iff.mp h).1
  · exact absurd (Prod.ext_iff.mp h).2 hne
  · exact (Prod.ext_iff.mp h).1

lemma protected_primary {ns u v : Str} (hne : u ≠ v) (h : Protected ns v (primaryKey u)) :
    ns = defaultNS ∧ v = servicePrefix ++ u := by
  rcases h with h | h | h
  · exact absurd (List.append_cancel_left (Prod.ext_iff.mp h).2) hne
  · exact ⟨(Prod.ext_iff.mp h).1.symm, (Prod.ext_iff.mp h).2.symm⟩
  · have hname : servicePrefix ++ u = "cmxsafe-gw".toList := (Prod.ext_iff.mp h).2
    have htake := congrArg (List.take 7) hname
    rw [List.take_append_of_le_length (by decide +kernel)] at htake
    exact absurd htake (by decide +kernel)

section
variable {c : Sys} {ev : ProcessExec} {v : Str}

/-- What keeps users apart does so whatever becomes of the calls. -/
theorem isolated_of_keepsApart (hne : ev.user ≠ v)
    (hk : lookupPodIP c.podIPCache ev.podNS ev.podName ≠ [] → KeepsApart ev v c)
    (verdicts : Nat → Verdict) :
    Isolated ev.podNS ev.user v c.api.cluster (c.exec ev verdicts).api.cluster := by
  refine ⟨slices_handleProcessExec _ _ _ _
    (fun _ he => hne (sliceName_inj (Prod.ext_iff.mp he).2).symm), ?_⟩
  intro k hprot
  have hspec := nsService_spec ev.user (c.arm verdicts) c.serviceCache
  -- the part of `handleNSService`, where the event gets to it
  have hns : KeepsApart ev v c →
      (nsService ev.user (c.arm verdicts) c.serviceCache).2.1.cluster.services.get k =
        c.api.cluster.services.get k ∨
      ∃ s, c.api.cluster.services.get k = some s ∧ s.hostname = hostOf ev.user ∧
        (nsService ev.user (c.arm verdicts) c.serviceCache).2.1.cluster.services.get k =
          some (strip s) := by
    intro hk
    rcases hspec.services k with h | ⟨hl, h⟩ | ⟨rfl, hlabel, hnone, -⟩
    · exact Or.inl h
    · rw [show (c.arm verdicts).cluster.services.get k = c.api.cluster.services.get k from rfl] at h
      cases hget : c.api.cluster.services.get k with
      | none => exact Or.inl (by rw [h, hget]; rfl)
      | some s =>
        rw [hget] at h
        rcases hk.listed k hl hprot s hget with hs | hs
        · exact Or.inl (by rw [h, Option.map_some, hs])
        · exact Or.inr ⟨s, rfl, hs, h⟩
    · obtain ⟨hdefault, hv⟩ := protected_primary hne hprot
      have hsome := hk.primary (hspec.exist hlabel) hdefault hv
      have hnone' : c.api.cluster.services.get (primaryKey ev.user) = none := hnone
      rw [hnone'] at hsome
      cases hsome
  have hout := handleProcessExec_outcome c.podIPCache ev (c.arm verdicts) c.serviceCache
  unfold Sys.exec
  generalize handleProcessExec c.podIPCache ev (c.arm verdicts) c.serviceCache = r at hout ⊢
  cases hout with
  | dropped h => exact Or.inl rfl
  | gaveUp hip huser h => exact hns (hk hip)
  | handled hip huser h =>
    dsimp only
    by_cases hkey : k = (ev.podNS, ev.user)
    · subst hkey
      have hdefault := protected_bare hne hprot
      have hexist := hspec.exist (by rw [h]; exact servicePrefix_append_ne_nil ev.user)
      obtain ⟨s, hs, hname⟩ := (hk hip).bare hexist hdefault (hdefault ▸ hprot)
      rw [← hdefault] at hs hname
      -- the Service is there before the write, stripped or not, and stays so
      obtain ⟨t, ht, htname⟩ : ∃ t, (nsService ev.user (c.arm verdicts) c.serviceCache
          ).2.1.cluster.services.get (ev.podNS, ev.user) = some t ∧
          t.externalName = s.externalName := by
        rcases hns (hk hip) with h' | ⟨s', hs', -, h'⟩
        · exact ⟨s, h'.trans hs, rfl⟩
        · rw [hs] at hs'
          cases hs'
          exact ⟨strip s, h', rfl⟩
      have hkeep : (writeRoutes ev.podNS ev.user (servicePrefix ++ ev.user)
          (lookupPodIP c.podIPCache ev.podNS ev.podName)
          (nsService ev.user (c.arm verdicts) c.serviceCache).2.1).cluster.services.get
            (ev.podNS, ev.user) = some t := by
        rw [writeRoutes_eq]
        exact ewUpsert_settled ((sliceUpsert_services _ _ _).trans ht) (htname.trans hname)
      rw [hkeep, ← ht]
      exact hns (hk hip)
    · rw [writeRoutes_services_of_ne _ _ _ hkey]
      exact hns (hk hip)

lemma annotations_of_listed {verdicts : Nat → Verdict} (hv : ∀ n, verdicts n = .serve)
    (hip : lookupPodIP c.podIPCache ev.podNS ev.podName ≠ []) (hu : acceptsName ev.user = true)
    {k : Str × Str} (hl : k ∈ listedFor c.serviceCache ev.user) {s : Service}
    (hs : c.api.cluster.services.get k = some s) :
    ∃ t, (c.exec ev verdicts).api.cluster.services.get k = some t ∧
      t.annotations = (strip s).annotations := by
  have hr := handleNSService_healthy (healthy_arm (c := c) hv) ev.user c.serviceCache
  have hne : k ≠ primaryKey ev.user := by
    rintro rfl
    exact primaryKey_not_listed _ _ hl
  have hstrip := hr.others k hne
  rw [if_pos hl, show (c.arm verdicts).cluster.services.get k = some s from hs] at hstrip
  by_cases hkey : k = (ev.podNS, ev.user)
  · subst hkey
    have hns : acceptsName ev.podNS = true := by
      have hsns : s.ns = ev.podNS := (Prod.ext_iff.mp (c.api.cluster.services.keyed _ _ hs)).1
      exact hsns ▸ s.named.1
    have hout := handleProcessExec_outcome c.podIPCache ev (c.arm verdicts) c.serviceCache
    unfold Sys.exec
    generalize handleProcessExec c.podIPCache ev (c.arm verdicts) c.serviceCache = r at hout ⊢
    cases hout with
    | dropped h' => exact absurd h' (by simp [hip, ne_nil_of_acceptsName hu])
    | gaveUp _ huser h' => exact ⟨strip s, hstrip, rfl⟩
    | handled _ huser h' =>
      exact ⟨_, (writeRoutes_healthy hr.healthy _ _ hns hu).service _ hstrip, rfl⟩
  · have heq := services_eq_nsService hip (ne_nil_of_acceptsName hu) (c.arm verdicts)
      c.serviceCache hkey
    exact ⟨strip s, heq.trans hstrip, rfl⟩

/-- A healthy event that leaves the objects of `v` alone was kept apart from them. -/
theorem keepsApart_of_isolated (hu : acceptsName ev.user = true)
    {verdicts : Nat → Verdict} (hv : ∀ n, verdicts n = .serve)
    (hip : lookupPodIP c.podIPCache ev.podNS ev.podName ≠ [])
    (h : Isolated ev.podNS ev.user v c.api.cluster (c.exec ev verdicts).api.cluster) :
    KeepsApart ev v c where
  listed := by
    intro k hl hprot s hs
    obtain ⟨t, ht, hann⟩ := annotations_of_listed hv hip hu hl hs
    rcases h.services k hprot with h' | ⟨s', hs', hhost, -⟩
    · left
      rw [ht, hs] at h'
      cases h'
      rw [strip]
      congr
      exact hann.symm
    · rw [hs] at hs'
      cases hs'
      exact Or.inr hhost
  primary := by
    intro hexist hns hname
    have hr := handleNSService_healthy (healthy_arm (c := c) hv) ev.user c.serviceCache
    by_contra hnone
    have hnone' : c.api.cluster.services.get (primaryKey ev.user) = none := by simpa using hnone
    obtain ⟨p, hp, -⟩ := hr.created (hr.kept.mpr hexist) hnone' (acceptsName_primary hu)
    have hprot : Protected ev.podNS v (primaryKey ev.user) :=
      Or.inr (Or.inl (Prod.ext hns.symm hname.symm))
    have hafter : (c.exec ev verdicts).api.cluster.services.get (primaryKey ev.user) = some p :=
      (services_eq_nsService hip (ne_nil_of_acceptsName hu) _ _ (primaryKey_ne_bare _ _)).trans hp
    rcases h.services _ hprot with h' | ⟨s, hs, -⟩
    · rw [hafter, hnone'] at h'
      cases h'
    · rw [hnone'] at hs
      cases hs
  bare := by
    intro hexist hns hprot
    have hhandled := (handles_iff hv).mpr ⟨hip, ne_nil_of_acceptsName hu, hexist⟩
    obtain ⟨-, t, ht, hname⟩ := routedTo_exec hv hhandled (hns ▸ acceptsName_defaultNS) hu
    rw [hns] at ht hname
    rcases h.services _ hprot with h' | ⟨s, hs, -, h'⟩
    · rw [ht] at h'
      exact ⟨t, h'.symm, by rw [hname, hns]⟩
    · rw [ht] at h'
      cases h'
      exact ⟨s, hs, by rw [hns]; exact hname⟩

/-- An event of one user leaves the objects of another alone, whatever becomes of its
calls, if and only if it is dropped for want of an IP or kept apart from them. -/
theorem event_isolated_iff (hu : acceptsName ev.user = true) (hne : ev.user ≠ v) :
    (∀ verdicts, Isolated ev.podNS ev.user v c.api.cluster (c.exec ev verdicts).api.cluster) ↔
      (lookupPodIP c.podIPCache ev.podNS ev.podName ≠ [] → KeepsApart ev v c) :=
  ⟨fun h hip => keepsApart_of_isolated hu (fun _ => rfl) hip
    (h (fun _ => .serve)), fun hk => isolated_of_keepsApart hne hk⟩

end

theorem event_isolated_iff_login :
    (∀ verdicts, Isolated exampleEvent.podNS exampleEvent.user "0242ac110002".toList
      exampleSys.api.cluster (exampleSys.exec exampleEvent verdicts).api.cluster) ↔
      (lookupPodIP exampleSys.podIPCache exampleEvent.podNS exampleEvent.podName ≠ [] →
        KeepsApart exampleEvent "0242ac110002".toList exampleSys) :=
  event_isolated_iff (by decide +kernel) (by decide +kernel)

/-- The login of an account whose name is the one of another user's primary Service. -/
def clashingEvent : ProcessExec :=
  { exampleEvent with cwd := "/home/dynamic-service-025f9a3db712".toList }

/-- Its ExternalName Service takes the place of the north-south Service of that user. -/
theorem event_not_isolated :
    acceptsName clashingEvent.user = true ∧ acceptsName exampleUser = true ∧
      clashingEvent.user ≠ exampleUser ∧
      ¬Isolated clashingEvent.podNS clashingEvent.user exampleUser exampleSys.api.cluster
        (exampleSys.exec clashingEvent (fun _ => .serve)).api.cluster := by
  refine ⟨by decide +kernel, by decide +kernel, by decide +kernel, ?_⟩
  intro h
  have hbefore : exampleSys.api.cluster.services.get (primaryKey exampleUser) = none := rfl
  have hafter : ((exampleSys.exec clashingEvent (fun _ => .serve)).api.cluster.services.get
      (primaryKey exampleUser)).map (fun s => s.type) = some .externalName := by decide +kernel
  rcases h.services _ (Or.inl rfl) with h' | ⟨s, hs, -⟩
  · rw [h', hbefore] at hafter
    cases hafter
  · rw [hbefore] at hs
    cases hs

end CMXSafe.Proofs
