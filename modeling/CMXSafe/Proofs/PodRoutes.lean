import CMXSafe.Proofs.LastWriter
import CMXSafe.Proofs.Steps

/-!
# Routes and the lifetime of Pods

`podIPCache` follows the Pods, but nothing follows it: the routes of a user are those of
its last handled event until its next one, also when the Pod is gone by then.
-/

namespace CMXSafe.Proofs
open Strings Stores Machines

def CachesIPs (m : SyncMap) (pods : Store Pod.key) : Prop :=
  ∀ k v, m.load k = some v ↔
    ∃ p, pods.get p.key = some p ∧ podKey p.ns p.name = k ∧ p.podIP = v

/-- What the pod watch has delivered, and that it is what the cache holds. -/
structure PodView (seen : Store Pod.key) (c : Sys) : Prop where
  linked : Linked seen c.podPending c.pods
  cache : CachesIPs c.podIPCache seen
  live_ns : ∀ p, c.pods.get p.key = some p → p.ns = defaultNS
  pending_ns : ∀ n ∈ c.podPending, n.subject.ns = defaultNS
  seen_ns : ∀ p, seen.get p.key = some p → p.ns = defaultNS

lemma podKey_inj {p q : Pod} : podKey p.ns p.name = podKey q.ns q.name ↔ p.key = q.key := by
  rw [Pod.key, Pod.key, Prod.mk.injEq]
  exact refBody_inj (slash_not_mem q.named.1) (slash_not_mem q.named.2)

lemma load_handlePod {seen : Store Pod.key} {n : Notification Pod} (h : Admits seen n)
    (m : SyncMap) (k : Str) :
    (startPodInformer.handle m n).load k =
      if k = podKey n.subject.ns n.subject.name then n.newest.map (fun p => p.podIP)
      else m.load k := by
  cases n with
  | add p => exact SyncMap.load_store m _ _ k
  | delete p => exact SyncMap.load_delete m _ k
  | update o p =>
    have hkey : podKey p.ns p.name = podKey o.ns o.name := podKey_inj.mpr (h.newest p rfl)
    change (m.store (podKey p.ns p.name) p.podIP).load k = _
    rw [SyncMap.load_store, hkey]
    rfl

lemma ns_of_key_eq {p q : Pod} (h : p.key = q.key) : p.ns = q.ns := (Prod.ext_iff.mp h).1

lemma cachesIPs_deliver {seen : Store Pod.key} {n : Notification Pod} (h : Admits seen n)
    {m : SyncMap} (hm : CachesIPs m seen) :
    CachesIPs (startPodInformer.handle m n) (deliver seen n) := by
  intro k v
  rw [load_handlePod h]
  by_cases hk : k = podKey n.subject.ns n.subject.name
  · rw [if_pos hk, Option.map_eq_some_iff]
    constructor
    · rintro ⟨p, hp, rfl⟩
      have hkey := h.newest p hp
      exact ⟨p, by rw [get_deliver h, if_pos hkey, hp], hk ▸ podKey_inj.mpr hkey, rfl⟩
    · rintro ⟨p, hp, hpk, rfl⟩
      rw [get_deliver h, if_pos (podKey_inj.mp (hpk.trans hk))] at hp
      exact ⟨p, hp, rfl⟩
  · rw [if_neg hk, hm]
    constructor
    · rintro ⟨p, hp, hpk, rfl⟩
      have hne : p.key ≠ n.subject.key := fun he => hk (hpk ▸ podKey_inj.mpr he)
      exact ⟨p, by rw [get_deliver h, if_neg hne, hp], hpk, rfl⟩
    · rintro ⟨p, hp, hpk, rfl⟩
      have hne : p.key ≠ n.subject.key := fun he => hk (hpk ▸ podKey_inj.mpr he)
      rw [get_deliver h, if_neg hne] at hp
      exact ⟨p, hp, hpk, rfl⟩

lemma ns_deliver {pods : Store Pod.key} {n : Notification Pod} (h : Admits pods n)
    (hpods : ∀ p, pods.get p.key = some p → p.ns = defaultNS) (hn : n.subject.ns = defaultNS)
    {p : Pod} (hp : (deliver pods n).get p.key = some p) : p.ns = defaultNS := by
  by_cases hk : p.key = n.subject.key
  · rw [ns_of_key_eq hk, hn]
  · rw [get_deliver h, if_neg hk] at hp
    exact hpods p hp

theorem podView_step {c d : Sys} {a : Action} (h : c.step a = some d)
    (hc : ∃ seen, PodView seen c) : ∃ seen, PodView seen d := by
  obtain ⟨seen, hview⟩ := hc
  cases podStep h with
  | idle ha hpods hpending hcache =>
    exact ⟨seen, by rw [hpods, hpending]; exact hview.linked, by rw [hcache]; exact hview.cache,
      by rw [hpods]; exact hview.live_ns, by rw [hpending]; exact hview.pending_ns, hview.seen_ns⟩
  | change ha n hn hns hpods hpending hcache =>
    have hsub : n.subject.ns = defaultNS := hns.elim id (hview.live_ns n.subject)
    refine ⟨seen, ?_, by rw [hcache]; exact hview.cache, ?_, ?_, hview.seen_ns⟩
    · rw [hpods, hpending]
      exact hview.linked.push (⟨hn, trivial⟩ : History c.pods [n])
    · intro p hp
      rw [hpods] at hp
      exact ns_deliver hn hview.live_ns hsub hp
    · intro m hm
      rw [hpending] at hm
      rcases List.mem_append.mp hm with hm | hm
      · exact hview.pending_ns m hm
      · rw [List.mem_singleton.mp hm]
        exact hsub
  | deliver n hpods hpending hcache =>
    have hlinked := hview.linked
    rw [hpending] at hlinked
    obtain ⟨hn, hrest⟩ := hlinked.pop
    have hsub : n.subject.ns = defaultNS := hview.pending_ns n (by simp [hpending])
    refine ⟨deliver seen n, by rw [hpods]; exact hrest, ?_, by rw [hpods]; exact hview.live_ns,
      fun m hm => hview.pending_ns m (by simp [hpending, hm]),
      fun p hp => ns_deliver hn hview.seen_ns hsub hp⟩
    rw [hcache]
    exact cachesIPs_deliver hn hview.cache

lemma podView_init : PodView .empty Sys.init where
  linked := Linked.refl _
  cache := by
    intro k v
    constructor
    · intro h
      cases h
    · rintro ⟨p, hp, -⟩
      cases hp
  live_ns := fun p hp => by cases hp
  pending_ns := fun n hn => by cases hn
  seen_ns := fun p hp => by cases hp

theorem podView_run {as : List Action} {d : Sys} (hr : run Sys.step Sys.init as = some d) :
    ∃ seen, PodView seen d :=
  run_invariant _ (fun _ _ _ hi _ h => podView_step h hi) ⟨_, podView_init⟩
    (guarded_of_forall (fun _ _ => trivial) : Guarded Sys.step (fun _ _ => True) _ as) hr

theorem cachesIPs_of_drained {as : List Action} {d : Sys}
    (hr : run Sys.step Sys.init as = some d) (hd : d.podPending = []) :
    CachesIPs d.podIPCache d.pods := by
  obtain ⟨seen, hview⟩ := podView_run hr
  have hlinked := hview.linked
  rw [hd] at hlinked
  rw [← hlinked.eq_of_nil]
  exact hview.cache

lemma pod_of_handles {seen : Store Pod.key} {c : Sys} (hview : PodView seen c) {ev : ProcessExec}
    (h : lookupPodIP c.podIPCache ev.podNS ev.podName ≠ []) :
    ∃ p, seen.get p.key = some p ∧ p.ns = ev.podNS ∧ p.name = ev.podName ∧ p.ns = defaultNS ∧
      p.podIP = lookupPodIP c.podIPCache ev.podNS ev.podName ∧
      c.podIPCache.load (podKey p.ns p.name) = some p.podIP := by
  unfold lookupPodIP at h ⊢
  cases hload : c.podIPCache.load (podKey ev.podNS ev.podName) with
  | none => simp [hload] at h
  | some v =>
    obtain ⟨p, hp, hk, hv⟩ := (hview.cache _ _).mp hload
    have hk' : refBody ev.podNS ev.podName = refBody p.ns p.name := hk.symm
    obtain ⟨hns, hname⟩ := (refBody_inj (slash_not_mem p.named.1) (slash_not_mem p.named.2)).mp hk'
    exact ⟨p, hp, hns.symm, hname.symm, hview.seen_ns p hp, by simpa using hv,
      by rw [hk, hload, hv]⟩

/-- The delivery of a deletion of the Pod, or of a version with another IP. -/
def Readdresses (ev : ProcessExec) (ip : Str) (c : Sys) (a : Action) : Prop :=
  a = .deliverPod ∧ ∃ n rest, c.podPending = n :: rest ∧
    n.subject.key = (ev.podNS, ev.podName) ∧ n.newest.map (fun p => p.podIP) ≠ some ip

lemma load_step_of_not_readdresses {seen : Store Pod.key} {c d : Sys} {a : Action}
    (hview : PodView seen c) {ev : ProcessExec} (hns : '/' ∉ ev.podNS) (hname : '/' ∉ ev.podName)
    {ip : Str} (h : c.step a = some d) (ha : ¬Readdresses ev ip c a)
    (hload : c.podIPCache.load (podKey ev.podNS ev.podName) = some ip) :
    d.podIPCache.load (podKey ev.podNS ev.podName) = some ip := by
  cases podStep h with
  | idle ha' hpods hpending hcache => rw [hcache, hload]
  | change ha' n hn hns hpods hpending hcache => rw [hcache, hload]
  | deliver n hpods hpending hcache =>
    have hlinked := hview.linked
    rw [hpending] at hlinked
    rw [hcache, load_handlePod hlinked.pop.1]
    split_ifs with hk
    · by_contra hne
      refine ha ⟨rfl, n, _, hpending, ?_, hne⟩
      have hk' : refBody n.subject.ns n.subject.name = refBody ev.podNS ev.podName := hk.symm
      obtain ⟨h1, h2⟩ := (refBody_inj hns hname).mp hk'
      rw [Pod.key, h1, h2]
    · exact hload

/-- The Pod of an event is still there with its IP once everything is delivered, unless a
deletion or another IP was delivered for it. -/
lemma pod_live_of_not_readdresses {seen : Store Pod.key} {c d : Sys} {ev : ProcessExec}
    (hview : PodView seen c) (hip : lookupPodIP c.podIPCache ev.podNS ev.podName ≠ [])
    {post : List Action} (hr : run Sys.step c post = some d) (hd : d.podPending = [])
    (hg : Guarded Sys.step (fun s a => ¬Readdresses ev
      (lookupPodIP c.podIPCache ev.podNS ev.podName) s a) c post) :
    ∃ p, d.pods.get p.key = some p ∧ p.key = (ev.podNS, ev.podName) ∧
      p.podIP = lookupPodIP c.podIPCache ev.podNS ev.podName := by
  obtain ⟨p, -, hns, hname, -, hpip, hload⟩ := pod_of_handles hview hip
  have hns' : '/' ∉ ev.podNS := hns ▸ slash_not_mem p.named.1
  have hname' : '/' ∉ ev.podName := hname ▸ slash_not_mem p.named.2
  rw [hns, hname, hpip] at hload
  obtain ⟨⟨seen', hview'⟩, hload'⟩ := run_invariant
    (fun s => (∃ seen, PodView seen s) ∧ s.podIPCache.load (podKey ev.podNS ev.podName) =
      some (lookupPodIP c.podIPCache ev.podNS ev.podName))
    (fun s a t hi ha h => ⟨podView_step h hi.1, hi.1.elim fun _ hv =>
      load_step_of_not_readdresses hv hns' hname' h ha hi.2⟩)
    ⟨⟨seen, hview⟩, hload⟩ hg hr
  have hlinked := hview'.linked
  rw [hd] at hlinked
  obtain ⟨q, hq, hqk, hqip⟩ := (hview'.cache _ _).mp hload'
  obtain ⟨h1, h2⟩ := (refBody_inj hns' hname').mp hqk
  exact ⟨q, by rw [← hlinked.eq_of_nil, hq], by rw [Pod.key, h1, h2], hqip⟩

/-- In every reachable state the routes of a user are explained by its last handled event:
they lead to the IP that its Pod had then. Once all pod notifications are delivered the
cache holds the IPs of the live Pods, and that IP is still the one of a live Pod unless a
deletion of this Pod or another IP of it was delivered since. -/
theorem routes_explained {user : Str} (hu : acceptsName user = true) {as : List Action} {d : Sys}
    (hg : ∀ a ∈ as, Peaceful a) (hr : run Sys.step Sys.init as = some d) :
    (d.podPending = [] → CachesIPs d.podIPCache d.pods) ∧
    ((handledIPs user Sys.init as = [] ∧
        d.api.cluster.slices.get (defaultNS, sliceName user) = none) ∨
      ∃ pre ev verdicts post c, as = pre ++ .exec ev verdicts :: post ∧
        run Sys.step Sys.init pre = some c ∧ c.handles ev verdicts = true ∧ ev.user = user ∧
        handledIPs user (c.exec ev verdicts) post = [] ∧
        RoutedTo defaultNS user (lookupPodIP c.podIPCache ev.podNS ev.podName) d.api.cluster ∧
        (d.podPending = [] → Guarded Sys.step (fun s a => ¬Readdresses ev
            (lookupPodIP c.podIPCache ev.podNS ev.podName) s a) (c.exec ev verdicts) post →
          ∃ p, d.pods.get p.key = some p ∧ p.key = (ev.podNS, ev.podName) ∧
            p.podIP = lookupPodIP c.podIPCache ev.podNS ev.podName)) := by
  refine ⟨cachesIPs_of_drained hr, ?_⟩
  have hguard : Guarded Sys.step (fun _ a => Peaceful a) Sys.init as := guarded_of_forall hg
  rcases observe_cases (handledIP user) hr with
    hnil | ⟨pre, a, post, c, t, ip, rfl, hpre, hv, ha, hpost, hnone, -⟩
  · left
    refine ⟨hnil, run_hidden (fun s =>
      s.api.cluster.slices.get (defaultNS, sliceName user) = none) ?_ hguard hr hnil rfl⟩
    intro s a t ha hv hs h
    rcases step_peaceful ha h with ⟨hc, -⟩ | ⟨ev, verdicts, rfl, -, rfl⟩
    · rw [hc, hs]
    · rw [← hs]
      exact slices_handleProcessExec _ _ _ _ (fun hh he =>
        handledIP_exec_eq_none hv hh (sliceName_inj (Prod.ext_iff.mp he).2.symm))
  · right
    obtain ⟨ev, verdicts, rfl, rfl, hh, rfl⟩ := handledIP_eq_some hv
    cases ha
    obtain ⟨hok, hrest⟩ := (guarded_append.mp hguard).2 c hpre
    obtain ⟨seen, hview⟩ := podView_run hpre
    have hip := ((handled_iff _ _ _ _).mp hh).1
    obtain ⟨p, -, hns, -, hdefault, -⟩ := pod_of_handles hview hip
    refine ⟨pre, ev, verdicts, post, c, rfl, hpre, hh, rfl, hnone, ?_, ?_⟩
    · refine run_hidden (fun s => RoutedTo defaultNS ev.user
        (lookupPodIP c.podIPCache ev.podNS ev.podName) s.api.cluster)
        ?_ (hrest _ rfl) hpost hnone ?_
      · intro s a t ha hv hs h
        rcases step_peaceful ha h with ⟨hc, -⟩ | ⟨ev', verdicts', rfl, -, rfl⟩
        · rw [hc]
          exact hs
        · exact routedTo_exec_of_not (handledIP_exec_eq_none hv) hs
      · have hset := routedTo_exec hok hh (by rw [← hns, hdefault]; exact acceptsName_defaultNS) hu
        rw [← hns, hdefault] at hset ⊢
        exact hset
    · intro hd hnot
      have hview' : PodView seen (c.exec ev verdicts) :=
        ⟨hview.linked, hview.cache, hview.live_ns, hview.pending_ns, hview.seen_ns⟩
      have hip' : lookupPodIP (c.exec ev verdicts).podIPCache ev.podNS ev.podName ≠ [] := hip
      have hlive := pod_live_of_not_readdresses hview' hip' hpost hd hnot
      exact hlive

def examplePod : Pod where
  ns := defaultNS
  name := exampleEvent.podName
  podIP := exampleIP
  named := by decide +kernel

def secondPod : Pod where
  ns := defaultNS
  name := secondEvent.podName
  podIP := secondIP
  named := by decide +kernel

instance (ev : ProcessExec) (ip : Str) (c : Sys) : ∀ a, Decidable (Readdresses ev ip c a)
  | .deliverPod =>
    decidable_of_iff (∃ n ∈ c.podPending.head?.toList,
      n.subject.key = (ev.podNS, ev.podName) ∧ n.newest.map (fun p => p.podIP) ≠ some ip) <| by
      cases h : c.podPending <;> simp [Readdresses, h]
  | .createService _ | .updateService _ | .deleteService _ | .createPod _ | .updatePod _
  | .deletePod _ | .deliverService | .exec _ _ => .isFalse (fun h => by cases h.1)

/-- The first Pod is deleted after its device has roamed to the second. -/
def roamingChurn : List Action :=
  [.createPod examplePod, .deliverPod, .createPod secondPod, .deliverPod] ++ roaming ++
    [.deletePod examplePod.key, .deliverPod]

lemma roamingChurn_peaceful : ∀ a ∈ roamingChurn, Peaceful a := by
  simp [roamingChurn, roaming, Peaceful]

/-- The last handled event of the device is its login on the second Pod. -/
lemma roamingChurn_last {pre post : List Action} {ev : ProcessExec} {verdicts : Nat → Verdict}
    {c : Sys} (h : roamingChurn = pre ++ .exec ev verdicts :: post)
    (hpre : run Sys.step Sys.init pre = some c) (hu : ev.user = exampleUser)
    (hlast : handledIPs exampleUser (c.exec ev verdicts) post = []) :
    pre = roamingChurn.take 6 ∧ ev = roamingEvent ∧
      verdicts = (fun _ => .serve) ∧ post = [.deletePod examplePod.key, .deliverPod] := by
  have hlen : pre.length < roamingChurn.length := by rw [h]; simp
  have hget : roamingChurn[pre.length]? = some (.exec ev verdicts) := by rw [h]; simp
  have htake : pre = roamingChurn.take pre.length := by rw [h]; simp
  have hdrop : post = roamingChurn.drop (pre.length + 1) := by rw [h]; simp
  generalize pre.length = n at hlen hget htake hdrop
  change n < 9 at hlen
  -- only the logins of the device are left, and the first is not the last
  interval_cases n <;> cases hget
  · subst htake hdrop
    have hmore : (run Sys.step Sys.init (roamingChurn.take 4)).map (fun c => (handledIPs exampleUser
        (c.exec exampleEvent (fun _ => .serve)) (roamingChurn.drop 5)).isEmpty) = some false := by
      decide +kernel
    rw [hpre, Option.map_some, hlast] at hmore
    cases hmore
  · exact absurd hu (by decide +kernel)
  · exact ⟨htake, rfl, rfl, hdrop⟩

lemma roamingChurn_stays {c : Sys} (h : run Sys.step Sys.init (roamingChurn.take 6) = some c) :
    lookupPodIP c.podIPCache roamingEvent.podNS roamingEvent.podName = secondIP ∧
      Guarded Sys.step (fun s a => ¬Readdresses roamingEvent secondIP s a)
        (c.exec roamingEvent (fun _ => .serve)) [.deletePod examplePod.key, .deliverPod] := by
  cases h
  decide +kernel

theorem routes_explained_churn : ∃ d, run Sys.step Sys.init roamingChurn = some d ∧
    CachesIPs d.podIPCache d.pods ∧ RoutedTo defaultNS exampleUser secondIP d.api.cluster ∧
    ∃ p, d.pods.get p.key = some p ∧ p.key = secondPod.key ∧ p.podIP = secondIP := by
  obtain ⟨d, hd⟩ : ∃ d, run Sys.step Sys.init roamingChurn = some d :=
    Option.isSome_iff_exists.mp (by decide +kernel)
  have hpending : (run Sys.step Sys.init roamingChurn).map (fun d => d.podPending.isEmpty) =
      some true := by decide +kernel
  rw [hd, Option.map_some, Option.some.injEq, List.isEmpty_iff] at hpending
  obtain ⟨hcache, ⟨hnone, -⟩ |
    ⟨pre, ev, verdicts, post, c, hsplit, hpre, -, hu, hlast, hroutes, hlive⟩⟩ :=
    routes_explained isHexName_exampleUser.acceptsName roamingChurn_peaceful hd
  · have hhandled : (handledIPs exampleUser Sys.init roamingChurn).isEmpty = false := by
      decide +kernel
    rw [hnone] at hhandled
    cases hhandled
  · obtain ⟨rfl, rfl, rfl, rfl⟩ := roamingChurn_last hsplit hpre hu hlast
    obtain ⟨hip, hstays⟩ := roamingChurn_stays hpre
    rw [hip] at hroutes hlive
    exact ⟨d, hd, hcache hpending, hroutes, hlive hpending hstays⟩

def podChurn : List Action :=
  [.createPod examplePod, .deliverPod, exampleLogin, .deletePod examplePod.key, .deliverPod]

lemma podChurn_peaceful : ∀ a ∈ podChurn, Peaceful a := by
  simpa [podChurn, Peaceful] using exampleLogin_fromGateways.1

lemma podChurn_runs : ∃ d, run Sys.step Sys.init podChurn = some d :=
  Option.isSome_iff_exists.mp (by decide +kernel)

/-- The EndpointSlice of a user outlives the Pod that it leads to. -/
theorem route_outlives_pod :
    (∀ a ∈ podChurn, Peaceful a) ∧ ∃ d, run Sys.step Sys.init podChurn = some d ∧
      d.podPending = [] ∧
      ∃ s, d.api.cluster.slices.get (defaultNS, sliceName exampleUser) = some s ∧
        s.endpoints = [⟨[exampleIP]⟩] ∧
        ∀ p, d.pods.get p.key = some p → p.podIP ≠ exampleIP := by
  refine ⟨podChurn_peaceful, ?_⟩
  obtain ⟨d, hd⟩ := podChurn_runs
  have hpods : (run Sys.step Sys.init podChurn).map (fun d => d.pods) =
      some ((Store.empty.put examplePod).erase examplePod.key) := rfl
  have hpending : (run Sys.step Sys.init podChurn).map (fun d => d.podPending.isEmpty) =
      some true := by decide +kernel
  have hslice : (run Sys.step Sys.init podChurn).map (fun d =>
      (d.api.cluster.slices.get (defaultNS, sliceName exampleUser)).map (fun s => s.endpoints)) =
      some (some [⟨[exampleIP]⟩]) := by decide +kernel
  rw [hd] at hpods hpending hslice
  simp only [Option.map_some, Option.some.injEq, List.isEmpty_iff] at hpods hpending hslice
  obtain ⟨s, hs, hends⟩ := Option.map_eq_some_iff.mp hslice
  refine ⟨d, hd, hpending, s, hs, hends, ?_⟩
  intro p hp
  rw [hpods, Store.get_erase] at hp
  split_ifs at hp with hk
  rw [Store.get_put_empty.mp hp] at hk
  exact absurd rfl hk

end CMXSafe.Proofs
