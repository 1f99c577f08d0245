import CMXSafe.Proofs.PodRoutes
import CMXSafe.Proofs.References

/-!
# Who is stripped

The requests that an event sends, and when each removal of a host name reaches a Service
that carries the host name of the event's user.
-/

namespace CMXSafe.Proofs
open Strings Stores Tokens Machines startServiceInformer

/-- What the loop of `handleNSService` sends: a removal for each target, which it finds as
it was before the loop if it is a target but once. -/
theorem removals_sent (ts : List (Str × Str)) (a : Api) :
    ∃ new, (removals ts a).2.sent = a.sent ++ new ∧
      ∀ x ∈ new, ∃ t ∈ ts, x.request = stripRequest t ∧
        (ts.Nodup → x.before.services.get t = a.cluster.services.get t) := by
  induction ts generalizing a with
  | nil => exact ⟨[], by simp [removals], by simp⟩
  | cons t ts ih =>
    have hsent : (removal t a).2.sent =
        a.sent ++ [⟨stripRequest t, a.verdicts 0, a.cluster⟩] := call_sent _ a
    have hframe : ∀ k, k ≠ t → (removal t a).2.cluster.services.get k =
        a.cluster.services.get k := by
      intro k hk
      exact call_services_of_ne a (fun he => hk (Option.some.inj he).symm)
    rw [removals, keep_snd]
    generalize removal t a = r at hsent hframe ⊢
    obtain ⟨new, hnew, hall⟩ := ih r.2
    refine ⟨⟨stripRequest t, a.verdicts 0, a.cluster⟩ :: new, ?_, ?_⟩
    · rw [hnew, hsent, List.append_assoc]
      rfl
    · intro x hx
      rcases List.mem_cons.mp hx with rfl | hx
      · exact ⟨t, by simp, rfl, fun _ => rfl⟩
      · obtain ⟨t', ht', hreq, hbefore⟩ := hall x hx
        refine ⟨t', by simp [ht'], hreq, fun hnd => ?_⟩
        obtain ⟨hnot, hnd'⟩ := List.nodup_cons.mp hnd
        rw [hbefore hnd', hframe t' (fun he => hnot (he ▸ ht'))]

lemma upsert_sent (p r : Request) (a : Api) :
    ∀ x ∈ (upsert p r a).2.sent, x ∈ a.sent ∨ x.request = p ∨ x.request = r := by
  intro x hx
  unfold upsert at hx
  dsimp only at hx
  split_ifs at hx
  · rw [call_sent, call_sent] at hx
    simp only [List.append_assoc, List.mem_append, List.mem_singleton] at hx
    rcases hx with hx | rfl | rfl
    · exact Or.inl hx
    · exact Or.inr (Or.inl rfl)
    · exact Or.inr (Or.inr rfl)
  · rw [call_sent] at hx
    rcases List.mem_append.mp hx with hx | hx
    · exact Or.inl hx
    · rw [List.mem_singleton.mp hx]
      exact Or.inr (Or.inl rfl)

theorem exec_strips {c : Sys} {ev : ProcessExec} {verdicts : Nat → Verdict} {x : Sent}
    (hx : x ∈ (c.exec ev verdicts).api.sent) {t : Str × Str} (ht : x.request = stripRequest t) :
    t ∈ listedFor c.serviceCache ev.user ∧ ((listedFor c.serviceCache ev.user).Nodup →
      x.before.services.get t = c.api.cluster.services.get t) := by
  obtain ⟨new, hnew, hall⟩ := removals_sent (listedFor c.serviceCache ev.user) (c.arm verdicts)
  have hloop : ∀ y ∈ (nsLoop ev.user (c.arm verdicts) c.serviceCache).2.sent,
      y.request = stripRequest t → t ∈ listedFor c.serviceCache ev.user ∧
        ((listedFor c.serviceCache ev.user).Nodup →
          y.before.services.get t = c.api.cluster.services.get t) := by
    intro y hy hyt
    have hy' : y ∈ new := by
      rw [nsLoop_eq, hnew] at hy
      simpa [Sys.arm] using hy
    obtain ⟨t', ht', hreq, hbefore⟩ := hall y hy'
    have he : t' = t := by
      rw [hreq] at hyt
      simp only [stripRequest, Request.patchService.injEq] at hyt
      exact Prod.ext hyt.1 hyt.2.1
    subst he
    exact ⟨ht', hbefore⟩
  -- the calls behind the loop are no removals
  have hns : ∀ y ∈ (nsService ev.user (c.arm verdicts) c.serviceCache).2.1.sent,
      y.request = stripRequest t → y ∈ (nsLoop ev.user (c.arm verdicts) c.serviceCache).2.sent := by
    intro y hy hyt
    rw [nsService, handleNSService_eq] at hy
    split_ifs at hy
    · rw [createNSService, call_sent] at hy
      rcases List.mem_append.mp hy with hy | hy
      · exact hy
      · rw [List.mem_singleton.mp hy] at hyt
        cases hyt
    · exact hy
  unfold Sys.exec at hx
  have hout := handleProcessExec_outcome c.podIPCache ev (c.arm verdicts) c.serviceCache
  generalize handleProcessExec c.podIPCache ev (c.arm verdicts) c.serviceCache = r at hout hx
  cases hout with
  | dropped h => cases hx
  | gaveUp hip huser h => exact hloop x (hns x hx ht) ht
  | handled hip huser h =>
    dsimp only at hx
    rw [writeRoutes_eq] at hx
    rcases upsert_sent _ _ _ x hx with hx | hx | hx
    · rcases upsert_sent _ _ _ x hx with hx | hx | hx
      · exact hloop x (hns x hx ht) ht
      · rw [hx] at ht
        cases ht
      · rw [hx] at ht
        cases ht
    · rw [hx] at ht
      simp [ewPatchRequest, ewServicePatch, stripRequest, removeAnnotationPatch] at ht
    · rw [hx] at ht
      cases ht

/-- Every removal that the event sends finds no Service, or one that publishes the host
name of the user. -/
def OnlyOwners (c : Sys) (ev : ProcessExec) (verdicts : Nat → Verdict) : Prop :=
  ∀ x ∈ (c.exec ev verdicts).api.sent, ∀ t, x.request = stripRequest t →
    ∀ s, x.before.services.get t = some s → s.hostname = hostOf ev.user

/-- A step that puts no owner's reference in doubt: a delivery leaves no stale reference and
appends under the key of a user only what publishes its host name, and an event finds no
pending version of a listed Service with another host name. -/
def Careful (c : Sys) : Action → Prop
  | .deliverService => ∀ n rest, c.api.pending = n :: rest → ∀ user,
      Tidy (fun s => s.hostname = hostOf user) (servicePrefix ++ user) c.serviceCache n
  | .exec ev _ => ';' ∉ ev.user ∧
      ∀ n ∈ c.api.pending, n.subject.key ∈ listedFor c.serviceCache ev.user →
        ∀ s, n.newest = some s → s.hostname = hostOf ev.user
  | _ => True

lemma hostKey_of_hostname {s : Service} {user : Str} (h : s.hostname = hostOf user) :
    s.hostKey = servicePrefix ++ user := by
  rw [ServiceBody.hostKey, h, hostOf, trimSuffix_append]

lemma Careful.tidyStep {c : Sys} {a : Action} (h : Careful c a) (user : Str) :
    TidyStep (fun s => s.hostname = hostOf user) (servicePrefix ++ user) c a := by
  cases a with
  | deliverService => exact fun n rest hp => h n rest hp user
  | exec ev verdicts => exact fun _ => h.1
  | _ => trivial

lemma nodup_targets {primary : Str} {es : List Str} (h : es.Nodup) :
    (targets primary es).Nodup := by
  refine h.filterMap ?_
  intro e e' t he he'
  rw [(targetOf_eq_some he).1, (targetOf_eq_some he').1]

/-- In a careful run every removal that an event sends on behalf of a user reaches a
Service that publishes the host name of that user. -/
theorem only_owners_stripped {as : List Action} (hg : Guarded Sys.step Careful Sys.init as)
    {pre post : List Action} {ev : ProcessExec} {verdicts : Nat → Verdict} {c : Sys}
    (has : as = pre ++ .exec ev verdicts :: post) (hr : run Sys.step Sys.init pre = some c) :
    OnlyOwners c ev verdicts := by
  subst has
  obtain ⟨hpre, hrest⟩ := guarded_append.mp hg
  obtain ⟨-, hpending⟩ := (hrest c hr).1
  obtain ⟨seen, hview⟩ := view_run (J := fun s => s.hostname = hostOf ev.user)
    (k := servicePrefix ++ ev.user) (fun _ h => hostKey_of_hostname h)
    (servicePrefix_append_ne_nil ev.user) (hpre.mono (fun _ _ h => h.tidyStep ev.user)) hr
  obtain ⟨es, henc, hes⟩ := hview.backed
  have hlisted : listedFor c.serviceCache ev.user = targets (primaryOf ev.user) es := by
    rw [listedFor, henc.pieces_eq]
  intro x hx t ht s hs
  obtain ⟨hmem, hbefore⟩ := exec_strips hx ht
  rw [hbefore (hlisted ▸ nodup_targets henc.nodup)] at hs
  -- the version behind the reference
  obtain ⟨e, he, htarget⟩ := List.mem_filterMap.mp (hlisted ▸ hmem)
  obtain ⟨het, hne⟩ := targetOf_eq_some htarget
  rcases hes e he with hp | ⟨s₀, hs₀, hhost, hentry⟩
  · exact absurd hp hne
  · have hkey : s₀.key = t := by
      have hb : refBody t.1 t.2 = refBody s₀.ns s₀.name := het.symm.trans hentry
      have hb' := (refBody_inj (slash_not_mem s₀.named.1) (slash_not_mem s₀.named.2)).mp hb
      exact (Prod.ext hb'.1 hb'.2).symm
    rw [← hview.linked.replay] at hs
    rcases get_replay_cases hview.linked.history t with h | ⟨n, hn, hnt, h⟩
    · rw [h, ← hkey, hs₀] at hs
      cases hs
      exact hhost
    · rw [h] at hs
      exact hpending n hn (hnt ▸ hmem) s hs

lemma tidy_add (s : Service) (user : Str) (m : SyncMap) :
    Tidy (fun s => s.hostname = hostOf user) (servicePrefix ++ user) m (.add s) where
  append := by
    intro h
    by_cases hm : isManaged s = true
    · simp only [cacheOps, hm, if_true, List.mem_singleton, CacheOp.append.injEq] at h
      exact ⟨s, rfl, by rw [hostname_of_isManaged hm, ← h.1, hostOf]⟩
    · simp [cacheOps, hm] at h
  delete := fun _ h => by cases h
  remove := by
    intro h
    by_cases hm : isManaged s = true <;> simp [cacheOps, hm] at h

def ownerRun : List Action :=
  [.createPod examplePod, .deliverPod, .createService exampleLB] ++ [.deliverService]

lemma ownerRun_careful : Guarded Sys.step Careful Sys.init (ownerRun ++ [exampleLogin]) := by
  refine guarded_append.mpr ⟨guarded_append.mpr ⟨?_, ?_⟩, ?_⟩
  · exact ⟨trivial, fun _ _ => ⟨trivial, fun _ _ => ⟨trivial, fun _ _ => trivial⟩⟩⟩
  · intro t ht
    have hpending : (run Sys.step Sys.init [.createPod examplePod, .deliverPod,
        .createService exampleLB]).map (fun c => c.api.pending) = some [.add exampleLB] := rfl
    rw [ht, Option.map_some, Option.some.injEq] at hpending
    refine ⟨?_, fun _ _ => trivial⟩
    intro n rest hp user
    rw [hpending] at hp
    cases hp
    exact tidy_add exampleLB user _
  · intro t ht
    have hpending : (run Sys.step Sys.init ownerRun).map (fun c => c.api.pending) = some [] := rfl
    rw [ht, Option.map_some, Option.some.injEq] at hpending
    refine ⟨⟨by decide +kernel, ?_⟩, fun _ _ => trivial⟩
    intro n hn
    rw [hpending] at hn
    cases hn

theorem only_owners_stripped_login : ∃ c, run Sys.step Sys.init ownerRun = some c ∧
    OnlyOwners c exampleEvent (fun _ => .serve) := by
  obtain ⟨c, hc⟩ : ∃ c, run Sys.step Sys.init ownerRun = some c :=
    Option.isSome_iff_exists.mp (by decide +kernel)
  exact ⟨c, hc, only_owners_stripped ownerRun_careful rfl hc⟩

def bareService (type : ServiceType) : Service :=
  hostService "prod" "camera" type (servicePrefix ++ exampleUser) prodCamera_named

def bareRun : List Action :=
  [.createPod examplePod, .deliverPod, .createService (bareService .clusterIP), .deliverService,
    .updateService (bareService .loadBalancer), .deliverService]

/-- The next event of the user takes that host name off. -/
theorem other_zone_stripped : ∃ c x, run Sys.step Sys.init bareRun = some c ∧
    x ∈ (c.exec exampleEvent (fun _ => .serve)).api.sent ∧
    x.request = stripRequest (bareService .loadBalancer).key ∧ x.verdict = .serve ∧
    ∃ s, x.before.services.get (bareService .loadBalancer).key = some s ∧
      s.hostname ≠ hostOf exampleEvent.user := by
  obtain ⟨c, hc⟩ : ∃ c, run Sys.step Sys.init bareRun = some c :=
    Option.isSome_iff_exists.mp (by decide +kernel)
  have hsent : (run Sys.step Sys.init bareRun).bind (fun c =>
      (c.exec exampleEvent (fun _ => .serve)).api.sent.head?) =
      (run Sys.step Sys.init bareRun).map (fun c =>
        ⟨stripRequest (bareService .loadBalancer).key, .serve, c.api.cluster⟩) := rfl
  have hget : (run Sys.step Sys.init bareRun).bind (fun c =>
      c.api.cluster.services.get (bareService .loadBalancer).key) =
      some (bareService .loadBalancer) := by decide +kernel
  rw [hc] at hsent hget
  exact ⟨c, _, hc, List.mem_of_mem_head? hsent, rfl, rfl, _, hget, by decide +kernel⟩

end CMXSafe.Proofs
