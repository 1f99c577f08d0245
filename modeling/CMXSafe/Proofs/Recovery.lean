import CMXSafe.Proofs.PodRoutes
import CMXSafe.Proofs.References

/-!
# Recovery

With nothing left to deliver and a server that serves every call, one event restores the
Services and routes of its user, unless the cache still lists a Service that is gone or
the primary Service has lost its type or host name. Neither happens in a run that leaves
no stale reference and in which nobody spoils the primary Service.
-/

namespace CMXSafe.Proofs
open Strings Stores Tokens Machines startServiceInformer

/-- A north-south Service that does its work. -/
def Publishing (user : Str) (p : Service) : Prop :=
  lookup p.annotations externalDNSAnn = some (hostOf user) ∧ p.type = .loadBalancer

/-- Handling the event restores all that its user needs. -/
structure Recovers (c : Sys) (ev : ProcessExec) (verdicts : Nat → Verdict) : Prop where
  handled : c.handles ev verdicts = true
  primary : ∃ p, (c.exec ev verdicts).api.cluster.services.get (primaryKey ev.user) = some p ∧
    Publishing ev.user p
  routes : RoutedTo defaultNS ev.user (lookupPodIP c.podIPCache ev.podNS ev.podName)
    (c.exec ev verdicts).api.cluster

/-- Every listed Service exists, and the primary Service does its work if it exists. -/
structure Recoverable (user : Str) (c : Sys) : Prop where
  listed : ∀ t ∈ listedFor c.serviceCache user, (c.api.cluster.services.get t).isSome = true
  primary : ∀ p, c.api.cluster.services.get (primaryKey user) = some p → Publishing user p

lemma publishing_of_body {user : Str} {p : Service}
    (h : p.toServiceBody = nsServiceBody servicePrefix user serviceSuffix) : Publishing user p :=
  ⟨(meetsSpec_of_body h).2.1, (meetsSpec_of_body h).1⟩

section
variable {c : Sys} {ev : ProcessExec} {verdicts : Nat → Verdict}

/-- A healthy event from a known Pod recovers its user exactly from the recoverable states. -/
theorem recovers_iff (hv : ∀ n, verdicts n = .serve) (hu : acceptsName ev.user = true)
    (hns : ev.podNS = defaultNS) (hip : lookupPodIP c.podIPCache ev.podNS ev.podName ≠ []) :
    Recovers c ev verdicts ↔ Recoverable ev.user c := by
  have hne : ev.user ≠ [] := ne_nil_of_acceptsName hu
  have hr := handleNSService_healthy (healthy_arm (c := c) hv) ev.user c.serviceCache
  have hprimary : (c.exec ev verdicts).api.cluster.services.get (primaryKey ev.user) =
      (nsService ev.user (c.arm verdicts) c.serviceCache).2.1.cluster.services.get
        (primaryKey ev.user) :=
    services_eq_nsService hip hne _ _ (primaryKey_ne_bare ev.podNS ev.user)
  constructor
  · intro h
    constructor
    · exact ((handles_iff hv).mp h.handled).2.2
    · intro p hp
      obtain ⟨q, hq, hpub⟩ := h.primary
      rw [hprimary, hr.primary p hp] at hq
      cases hq
      exact hpub
  · intro h
    have hhandled := (handles_iff hv).mpr ⟨hip, hne, h.listed⟩
    refine ⟨hhandled, ?_, ?_⟩
    · rw [hprimary]
      cases hget : c.api.cluster.services.get (primaryKey ev.user) with
      | none =>
        obtain ⟨p, hp, hbody⟩ := hr.created (hr.kept.mpr h.listed) hget (acceptsName_primary hu)
        exact ⟨p, hp, publishing_of_body hbody⟩
      | some p => exact ⟨p, hr.primary p hget, h.primary p hget⟩
    · have hroutes := routedTo_exec hv hhandled (hns ▸ acceptsName_defaultNS) hu
      rw [hns] at hroutes ⊢
      exact hroutes

end

/-- A step after which the user can still recover: deliveries leave no stale reference,
outside writes leave the primary Service as the controller makes it, and no event of
another user takes its name or lists it. -/
def Harmless (user : Str) (c : Sys) : Action → Prop
  | .createService s | .updateService s => s.key = primaryKey user → Publishing user s
  | .deliverService => ∀ n rest, c.api.pending = n :: rest →
      Tidy (fun s => s.hostKey = servicePrefix ++ user) (servicePrefix ++ user) c.serviceCache n
  | .exec ev _ => ev.user ≠ user →
      primaryKey user ∉ listedFor c.serviceCache ev.user ∧
      (primaryKey user = (ev.podNS, ev.user) →
        (c.api.cluster.services.get (primaryKey user)).isSome = true)
  | _ => True

def PrimarySound (user : Str) (c : Sys) : Prop :=
  ∀ p, c.api.cluster.services.get (primaryKey user) = some p → Publishing user p

lemma primarySound_writeService {user : Str} {c : Sys} (h : PrimarySound user c) {s : Service}
    (hs : s.key = primaryKey user → Publishing user s) (n : List (Notification Service)) :
    PrimarySound user (c.writeService s n) := by
  intro p hp
  change (c.api.cluster.services.put s).get (primaryKey user) = some p at hp
  rw [Store.get_put] at hp
  split_ifs at hp with hk
  · cases hp
    exact hs hk.symm
  · exact h p hp

lemma primarySound_exec {user : Str} {c : Sys} (h : PrimarySound user c) {ev : ProcessExec}
    {verdicts : Nat → Verdict} (ha : Harmless user c (.exec ev verdicts)) :
    PrimarySound user (c.exec ev verdicts) := by
  have hspec := nsService_spec ev.user (c.arm verdicts) c.serviceCache
  -- `handleNSService` creates the primary Service or leaves it alone
  have hns : ∀ p, (nsService ev.user (c.arm verdicts) c.serviceCache).2.1.cluster.services.get
      (primaryKey user) = some p → Publishing user p := by
    intro p hp
    rcases hspec.services (primaryKey user) with h' | ⟨hl, -⟩ | ⟨hk, -, -, s, hs, hbody⟩
    · exact h p (h'.symm.trans hp)
    · by_cases he : ev.user = user
      · rw [he] at hl
        exact absurd hl (primaryKey_not_listed _ _)
      · exact absurd hl (ha he).1
    · rw [hs] at hp
      cases hp
      rw [List.append_cancel_left (Prod.ext_iff.mp hk).2]
      exact publishing_of_body hbody
  intro p hp
  have hout := handleProcessExec_outcome c.podIPCache ev (c.arm verdicts) c.serviceCache
  unfold Sys.exec at hp
  generalize handleProcessExec c.podIPCache ev (c.arm verdicts) c.serviceCache = r at hout hp
  cases hout with
  | dropped h' => exact h p hp
  | gaveUp hip huser h' => exact hns p hp
  | handled hip huser h' =>
    dsimp only at hp
    by_cases hk : primaryKey user = (ev.podNS, ev.user)
    · have hne : ev.user ≠ user := by
        rintro rfl
        exact primaryKey_ne_bare _ _ hk
      have hsome := (ha hne).2 hk
      -- the Service is there, so that only its target is written
      have hsome' : ((nsService ev.user (c.arm verdicts) c.serviceCache).2.1.cluster.services.get
          (primaryKey user)).isSome = true := by
        rcases hspec.services (primaryKey user) with h' | ⟨-, h'⟩ | ⟨-, -, -, s, h', -⟩
        · rw [h']
          exact hsome
        · rw [h', Option.isSome_map]
          exact hsome
        · rw [h']
          rfl
      obtain ⟨q, hq⟩ := Option.isSome_iff_exists.mp hsome'
      have hpub := hns q hq
      rw [hk] at hp hq
      rw [writeRoutes_eq] at hp
      obtain ⟨t, ht, hts⟩ := ewUpsert_existing
        (lookupPodIP c.podIPCache ev.podNS ev.podName)
        ((sliceUpsert_services (servicePrefix ++ ev.user) _ _).trans hq)
      rw [ht] at hp
      cases hp
      rcases hts with rfl | rfl <;> exact hpub
    · rw [writeRoutes_services_of_ne _ _ _ hk] at hp
      exact hns p hp

theorem primarySound_step {user : Str} {c d : Sys} {a : Action} (ha : Harmless user c a)
    (h : c.step a = some d) (hc : PrimarySound user c) : PrimarySound user d := by
  cases a with
  | exec ev verdicts =>
    cases h
    exact primarySound_exec hc ha
  | createService s | updateService s =>
    simp only [Sys.step] at h
    split at h <;> cases h
    exact primarySound_writeService hc ha _
  | deleteService k =>
    simp only [Sys.step] at h
    split at h
    · cases h
    · cases h
      intro p hp
      change (c.api.cluster.services.erase k).get _ = some p at hp
      rw [Store.get_erase] at hp
      split_ifs at hp
      exact hc p hp
  | createPod p =>
    simp only [Sys.step] at h
    split_ifs at h
    split at h <;> cases h
    exact hc
  | updatePod p | deletePod k | deliverService | deliverPod =>
    simp only [Sys.step] at h
    split at h <;> cases h
    exact hc

lemma Harmless.tidyStep {user : Str} (hu : acceptsName user = true) {c : Sys} {a : Action}
    (h : Harmless user c a) :
    TidyStep (fun s => s.hostKey = servicePrefix ++ user) (servicePrefix ++ user) c a := by
  cases a with
  | deliverService => exact h
  | exec ev verdicts =>
    intro hk
    rw [List.append_cancel_left hk]
    exact semicolon_not_mem hu
  | _ => trivial

/-- Where everything is delivered, backed references name Services that exist. -/
lemma exist_of_backed {user : Str} {c : Sys} {seen : Live}
    (hview : View (fun s => s.hostKey = servicePrefix ++ user) (servicePrefix ++ user) seen c)
    (hpending : c.api.pending = []) {t : Str × Str} (ht : t ∈ listedFor c.serviceCache user) :
    (c.api.cluster.services.get t).isSome = true := by
  obtain ⟨es, henc, hes⟩ := hview.backed
  obtain ⟨e, he, htarget⟩ := List.mem_filterMap.mp ht
  rw [henc.pieces_eq] at he
  have hlinked := hview.linked
  rw [hpending] at hlinked
  rcases hes e he with rfl | ⟨s, hs, -, rfl⟩
  · exact absurd rfl (targetOf_eq_some htarget).2
  · rw [targetOf_entry (targetOf_eq_some htarget).2] at htarget
    cases htarget
    rw [← hlinked.eq_of_nil, hs]
    rfl

/-- In every state that a harmless run reaches, and in which everything is delivered, one
healthy event of the user from a known Pod is handled and restores its Services. -/
theorem recovers_of_harmless {user : Str} (hu : IsHexName user) {as : List Action} {d : Sys}
    (hg : Guarded Sys.step (Harmless user) Sys.init as) (hr : run Sys.step Sys.init as = some d)
    (hpending : d.api.pending = []) {ev : ProcessExec} (hev : ev.user = user)
    (hip : lookupPodIP d.podIPCache ev.podNS ev.podName ≠ []) {verdicts : Nat → Verdict}
    (hv : ∀ n, verdicts n = .serve) : Recovers d ev verdicts := by
  subst hev
  obtain ⟨seen, hview⟩ := view_run (fun _ h => h) (servicePrefix_append_ne_nil ev.user)
    (hg.mono (fun _ _ h => h.tidyStep hu.acceptsName)) hr
  obtain ⟨seenPods, hpods⟩ := podView_run hr
  obtain ⟨p, -, hns, -, hdefault, -⟩ := pod_of_handles hpods hip
  have hsound : PrimarySound ev.user d :=
    run_invariant _ (fun _ _ _ hi ha h => primarySound_step ha h hi) (fun p hp => by cases hp) hg hr
  exact (recovers_iff hv hu.acceptsName (hns ▸ hdefault) hip).mpr
    ⟨fun t ht => exist_of_backed hview hpending ht, hsound⟩

instance (user : Str) (s : Service) : Decidable (Publishing user s) :=
  inferInstanceAs (Decidable (_ ∧ _))

lemma tidy_iff {k : Str} {m : SyncMap} {n : Notification Service} :
    Tidy (fun s => s.hostKey = k) k m n ↔
      (.append k n.subject.ref ∈ cacheOps n → ∃ s ∈ n.newest.toList, s.hostKey = k) ∧
        (n.newest = none → isManaged n.subject = false → n.subject.hostKey = k →
          (pieces ';' (m.cached k)).contains n.subject.entry = false) ∧
        (.remove k n.subject.ref ∈ cacheOps n →
          ∀ e ∈ pieces ';' (m.cached k), n.subject.entry <:+ e → e = n.subject.entry) := by
  constructor
  · intro h
    refine ⟨fun hop => ?_, fun hn => ?_, h.remove⟩
    · obtain ⟨s, hs, hk⟩ := h.append hop
      simp [hs, hk]
    · cases n with
      | delete s => simpa [Notification.subject] using h.delete s rfl
      | _ => cases hn
  · rintro ⟨happend, hdelete, hremove⟩
    refine ⟨fun hop => ?_, ?_, hremove⟩
    · simpa using happend hop
    · rintro s rfl
      simpa [Notification.subject] using hdelete rfl

instance (k : Str) (m : SyncMap) (n : Notification Service) :
    Decidable (Tidy (fun s => s.hostKey = k) k m n) :=
  decidable_of_iff _ tidy_iff.symm

instance (user : Str) (c : Sys) : ∀ a, Decidable (Harmless user c a)
  | .createService s | .updateService s =>
    inferInstanceAs (Decidable (s.key = primaryKey user → Publishing user s))
  | .deliverService =>
    decidable_of_iff (∀ n ∈ c.api.pending.head?.toList,
      Tidy (fun s => s.hostKey = servicePrefix ++ user) (servicePrefix ++ user)
        c.serviceCache n) <| by
      cases h : c.api.pending <;> simp [Harmless, h]
  | .exec ev _ => inferInstanceAs (Decidable (ev.user ≠ user →
      primaryKey user ∉ listedFor c.serviceCache ev.user ∧
      (primaryKey user = (ev.podNS, ev.user) →
        (c.api.cluster.services.get (primaryKey user)).isSome = true)))
  | .deleteService _ | .createPod _ | .updatePod _ | .deletePod _ | .deliverPod => .isTrue trivial

def relabelledPrimary : Service :=
  { readyPrimary with labels := [("app".toList, "gateway".toList)] }

/-- A LoadBalancer of somebody else takes the host name of the user, whose first login fails
half-way: the host name is removed, the primary Service is refused. Another device logs in,
the Service takes the host name back, and a login of the user on the second Pod is dropped,
as the removal is refused. The Service is deleted, and a login of the user is handled. Then
the primary Service is relabelled and deleted. -/
def eventfulRun : List Action :=
  [.createPod examplePod, .deliverPod, .createPod secondPod, .deliverPod,
    .createService exampleLB, .deliverService,
    .exec exampleEvent (refuseAt 1), .deliverService, .deliverService,
    .exec secondEvent (fun _ => .serve), .deliverService, .deliverService,
    .updateService exampleLB, .deliverService, .exec roamingEvent (refuseAt 0),
    .deleteService exampleLB.key, .deliverService,
    .exec roamingEvent (fun _ => .serve), .deliverService, .deliverService,
    .updateService relabelledPrimary, .deliverService,
    .deleteService relabelledPrimary.key, .deliverService]

/-- Everything is delivered, the Pod is known, and the primary Service is missing. -/
lemma eventfulRun_ends : (run Sys.step Sys.init eventfulRun).map (fun d =>
    (d.api.pending.isEmpty, lookupPodIP d.podIPCache exampleEvent.podNS exampleEvent.podName,
      (d.api.cluster.services.get (primaryKey exampleUser)).isSome)) =
    some (true, exampleIP, false) := by
  decide +kernel

theorem recovers_of_harmless_eventful : ∃ d, run Sys.step Sys.init eventfulRun = some d ∧
    d.api.cluster.services.get (primaryKey exampleUser) = none ∧
    Recovers d exampleEvent (fun _ => .serve) := by
  obtain ⟨d, hd, hends⟩ := Option.map_eq_some_iff.mp eventfulRun_ends
  simp only [Prod.mk.injEq, List.isEmpty_iff, Option.isSome_eq_false_iff, Option.isNone_iff_eq_none]
    at hends
  obtain ⟨hpending, hip, hnone⟩ := hends
  have hharmless : Guarded Sys.step (Harmless exampleUser) Sys.init eventfulRun := by
    decide +kernel
  have hknown : lookupPodIP d.podIPCache exampleEvent.podNS exampleEvent.podName ≠ [] := by
    rw [hip]
    decide +kernel
  exact ⟨d, hd, hnone, recovers_of_harmless isHexName_exampleUser hharmless hd hpending
    (by decide +kernel) hknown (fun _ => rfl)⟩

def podRun : List Action := [.createPod examplePod, .deliverPod]

def staleRun : List Action :=
  podRun ++ [.createService exampleLB, .deliverService, .updateService exampleClusterIP,
    .deliverService, .deleteService exampleLB.key, .deliverService]

/-- Its reference stays in the cache, and no event of the user is handled any more. -/
theorem stale_reference_blocks : ∃ d, run Sys.step Sys.init staleRun = some d ∧
    d.api.pending = [] ∧ d.podPending = [] ∧
    lookupPodIP d.podIPCache exampleEvent.podNS exampleEvent.podName = exampleIP ∧
    ¬Recovers d exampleEvent (fun _ => .serve) := by
  obtain ⟨d, hd⟩ : ∃ d, run Sys.step Sys.init staleRun = some d :=
    Option.isSome_iff_exists.mp (by decide +kernel)
  have hdrained : (run Sys.step Sys.init staleRun).map (fun d =>
      (d.api.pending.isEmpty, d.podPending.isEmpty)) = some (true, true) := by decide +kernel
  have hblocked : (run Sys.step Sys.init staleRun).map (fun d =>
      (lookupPodIP d.podIPCache exampleEvent.podNS exampleEvent.podName,
        d.handles exampleEvent (fun _ => .serve))) = some (exampleIP, false) := by decide +kernel
  rw [hd] at hdrained hblocked
  simp only [Option.map_some, Option.some.injEq, Prod.mk.injEq, List.isEmpty_iff]
    at hdrained hblocked
  refine ⟨d, hd, hdrained.1, hdrained.2, hblocked.1, ?_⟩
  intro h
  rw [h.handled] at hblocked
  cases hblocked.2

end CMXSafe.Proofs
