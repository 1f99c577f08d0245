import CMXSafe.Proofs.Twins
import CMXSafe.Proofs.PodRoutes

/-!
# Starting before the caches are filled

`main` handles events while the first lists are still being delivered: nothing waits for
the two calls of `WaitForCacheSync`. An event whose Pod and whose host name have been
delivered finds what it would find later, and then the order of the deliveries does not
matter.
-/

namespace CMXSafe.Proofs
open Strings Stores Tokens Machines

abbrev primaryRef (user : Str) : Str := primaryOf user ++ [';']

/-- An update of the list `cur` of a user that an event of the user need not wait for: it
adds what is listed, or what the event adds itself, or takes a Service off the list that
has no host name left, and no other entry with it. -/
inductive Idle (c : Cluster) (user cur : Str) : CacheOp → Prop
  | known {key val : Str} (h : contains cur val = true) : Idle c user cur (.append key val)
  | primary {key : Str} {es : List Str} (he : Encodes cur es) (hp : IsEntry (primaryOf user)) :
    Idle c user cur (.append key (primaryRef user))
  | unnamed {key : Str} {es : List Str} {s : Service} (he : Encodes cur es)
    (hp : IsEntry (primaryOf user)) (hs : Unnamed c s.key)
    (hends : ∀ e ∈ es, s.entry <:+ e → e = s.entry) (hsp : ¬s.entry <:+ primaryOf user)
    (hps : ¬primaryOf user <:+ s.entry) : Idle c user cur (.remove key s.ref)

def IdleFrom (c : Cluster) (user : Str) : Str → List CacheOp → Prop
  | _, [] => True
  | cur, o :: os => Idle c user cur o ∧ IdleFrom c user (o.upd cur) os

/-- The updates of one key that are still to come. -/
def pendingOps (key : Str) (pending : List (Notification Service)) : List CacheOp :=
  (pending.flatMap startServiceInformer.cacheOps).filter (fun o => o.key = key)

lemma pendingOps_append (key : Str) (p q : List (Notification Service)) :
    pendingOps key (p ++ q) = pendingOps key p ++ pendingOps key q := by
  simp [pendingOps]

lemma cached_deliverAll (p : List (Notification Service)) (m : SyncMap) (k : Str) :
    (p.foldl startServiceInformer.handle m).cached k = updAll (m.cached k) (pendingOps k p) := by
  have hfold : p.foldl startServiceInformer.handle m =
      (p.flatMap startServiceInformer.cacheOps).foldl CacheOp.apply m := by
    rw [List.foldl_flatMap]
    congr 1
    funext m n
    exact startServiceInformer.handle_eq_foldl m n
  rw [hfold]
  refine cached_foldl_apply (fun o ho => ?_) m k
  obtain ⟨n, -, ho⟩ := List.mem_flatMap.mp ho
  exact startServiceInformer.val_ne_nil ho

/-! ## Updates that an event need not wait for -/

lemma contains_appendVal {cur val : Str} (ref : Str) (h : contains cur val = true) :
    contains (appendVal cur ref) val = true := by
  unfold appendVal
  split_ifs
  · exact h
  · exact contains_iff.mpr ((contains_iff.mp h).trans (List.prefix_append _ _).isInfix)

/-- The append of the event and the update may come in either order. -/
lemma Idle.upd_appendVal {c : Cluster} {user cur : Str} {o : CacheOp} (h : Idle c user cur o) :
    o.upd (appendVal cur (primaryRef user)) = appendVal (o.upd cur) (primaryRef user) := by
  cases h with
  | @known key val hc =>
    have hleft : appendVal (appendVal cur (primaryRef user)) val =
        appendVal cur (primaryRef user) := if_pos (contains_appendVal _ hc)
    have hright : appendVal cur val = cur := if_pos hc
    rw [CacheOp.upd, CacheOp.upd, hleft, hright]
  | primary he hp => rfl
  | @unnamed key es s he hp hs hends hsp hps =>
    rw [CacheOp.upd, CacheOp.upd, Service.ref]
    have hremove := he.remove s.isEntry hends
    by_cases hin : ∃ e ∈ es, primaryOf user <:+ e
    · -- listed before and after
      obtain ⟨e, hmem, hsuf⟩ := hin
      have hne : e ≠ s.entry := fun heq => hps (heq ▸ hsuf)
      rw [primaryRef, he.append_of_suffix hp hmem hsuf,
        hremove.append_of_suffix hp (by simp [hmem, hne]) hsuf]
    · push Not at hin
      have hleft := (he.append hp hin).remove s.isEntry (fun e hmem hsuf => by
        rcases List.mem_append.mp hmem with hmem | hmem
        · exact hends e hmem hsuf
        · exact absurd (List.mem_singleton.mp hmem ▸ hsuf) hsp)
      have hright := hremove.append hp (fun e hmem => hin e (List.mem_of_mem_filter hmem))
      have hne : primaryOf user ≠ s.entry := fun heq => hsp (heq ▸ List.suffix_rfl)
      rw [List.filter_append, List.filter_cons_of_pos (by simp [hne]), List.filter_nil] at hleft
      rw [primaryRef, hleft.text, hright.text]

lemma IdleFrom.updAll_appendVal {c : Cluster} {user cur : Str} {ops : List CacheOp}
    (h : IdleFrom c user cur ops) :
    updAll (appendVal cur (primaryRef user)) ops =
      appendVal (updAll cur ops) (primaryRef user) := by
  induction ops generalizing cur with
  | nil => rfl
  | cons o ops ih => rw [updAll_cons, updAll_cons, h.1.upd_appendVal, ih h.2]

lemma Idle.loop {user cur : Str} {o : CacheOp} {a : Api} (ha : a.Healthy)
    (h : Idle a.cluster user cur o) :
    ((removals (targets (primaryOf user) (pieces ';' cur)) a).1 = [] ↔
        (removals (targets (primaryOf user) (pieces ';' (o.upd cur))) a).1 = []) ∧
      Twin a.pending a.pending (removals (targets (primaryOf user) (pieces ';' cur)) a).2
        (removals (targets (primaryOf user) (pieces ';' (o.upd cur))) a).2 := by
  have hrefl := removals_filter (targets (primaryOf user) (pieces ';' cur)) (fun _ => true)
    (Twin.refl ha rfl) (by simp)
  rw [List.filter_true] at hrefl
  cases h with
  | @known key val hc =>
    rw [CacheOp.upd, appendVal, if_pos hc]
    exact hrefl
  | @primary key es he hp =>
    rw [CacheOp.upd]
    by_cases hin : ∃ e ∈ es, primaryOf user <:+ e
    · obtain ⟨e, hmem, hsuf⟩ := hin
      rw [primaryRef, he.append_of_suffix hp hmem hsuf]
      exact hrefl
    · push Not at hin
      -- the primary entry is no target
      have hsame : targets (primaryOf user) (pieces ';' (appendVal cur (primaryRef user))) =
          targets (primaryOf user) (pieces ';' cur) := by
        rw [primaryRef, (he.append hp hin).pieces_eq, ← he.pieces_eq]
        simp [targets, targetOf]
      rw [hsame]
      exact hrefl
  | @unnamed key es s he hp hs hends hsp hps =>
    have hne : s.entry ≠ primaryOf user := fun h' => hsp (h' ▸ List.suffix_rfl)
    rw [CacheOp.upd, Service.ref, (he.remove s.isEntry hends).pieces_eq, ← he.pieces_eq,
      targets_filter_ne hne]
    refine removals_filter _ _ (Twin.refl ha rfl) (fun t _ hk => ?_)
    have heq : t = s.key := by simpa using hk
    exact heq ▸ hs

theorem IdleFrom.loop {user cur : Str} {ops : List CacheOp} {p q : List (Notification Service)}
    {a b : Api} (ht : Twin p q a b) (h : IdleFrom a.cluster user cur ops) :
    ((removals (targets (primaryOf user) (pieces ';' cur)) a).1 = [] ↔
        (removals (targets (primaryOf user) (pieces ';' (updAll cur ops))) b).1 = []) ∧
      Twin p q (removals (targets (primaryOf user) (pieces ';' cur)) a).2
        (removals (targets (primaryOf user) (pieces ';' (updAll cur ops))) b).2 := by
  induction ops generalizing cur with
  | nil =>
    have hsame := removals_filter (targets (primaryOf user) (pieces ';' cur)) (fun _ => true) ht
      (by simp)
    rwa [List.filter_true] at hsame
  | cons o ops ih =>
    obtain ⟨hk, hfirst⟩ := h.1.loop ht.left
    obtain ⟨hk', hrest⟩ := ih h.2
    obtain ⟨n, hn, -⟩ := ht.reported
    exact ⟨hk.trans hk', (hn ▸ hfirst : Twin (p ++ n) (p ++ n) _ _).weaken.trans hrest⟩

/-! ## Runs of the start-up -/

/-- The event finds the IP of its Pod and the list of its user as good as they will be once
everything is delivered. -/
def Settled (c : Sys) (ev : ProcessExec) : Prop :=
  ev.user = [] ∨
    (lookupPodIP c.podIPCache ev.podNS ev.podName =
        lookupPodIP c.drain.podIPCache ev.podNS ev.podName ∧
      (lookupPodIP c.podIPCache ev.podNS ev.podName = [] ∨
        IdleFrom c.api.cluster ev.user (c.serviceCache.cached (servicePrefix ++ ev.user))
          (pendingOps (servicePrefix ++ ev.user) c.api.pending)))

def SettledStep (c : Sys) : Action → Prop
  | .exec ev _ => Settled c ev
  | _ => True

/-- The steps of the start-up: deliveries, and events whose calls are all served. -/
def StartUpStep : Action → Prop
  | .deliverService => True
  | .deliverPod => True
  | .exec _ verdicts => ∀ n, verdicts n = .serve
  | _ => False

def execOf : Action → Option ProcessExec
  | .exec ev _ => some ev
  | _ => none

/-- What a state comes to once everything is delivered, as far as it matters. -/
def settle (c : Sys) : Sys where
  api := healthyApi c.api.cluster
  pods := c.pods
  podPending := []
  podIPCache := c.drain.podIPCache
  serviceCache := fun k => some (c.drain.serviceCache.cached k)

@[simp] lemma cached_settle (c : Sys) (k : Str) : (settle c).serviceCache.cached k =
    updAll (c.serviceCache.cached k) (pendingOps k c.api.pending) :=
  cached_deliverAll c.api.pending c.serviceCache k

theorem twin_handleProcessExec {c : Sys} {ev : ProcessExec} {verdicts : Nat → Verdict}
    (hv : ∀ n, verdicts n = .serve) (hs : Settled c ev) :
    let r := handleProcessExec c.podIPCache ev (c.arm verdicts) c.serviceCache
    let r' := handleProcessExec (settle c).podIPCache ev ((settle c).arm verdicts)
      (settle c).serviceCache
    Twin c.api.pending [] r.2.1 r'.2.1 ∧
      ∀ k, updAll (r.2.2.cached k) (pendingOps k c.api.pending) = r'.2.2.cached k := by
  have htwin : Twin c.api.pending [] (c.arm verdicts) ((settle c).arm verdicts) :=
    ⟨hv, hv, rfl, [], (List.append_nil _).symm, rfl⟩
  unfold handleProcessExec
  dsimp only
  by_cases hdrop : lookupPodIP c.podIPCache ev.podNS ev.podName = [] ∨ ev.user = []
  · have hdrop' : lookupPodIP (settle c).podIPCache ev.podNS ev.podName = [] ∨ ev.user = [] := by
      rcases hs with hu | ⟨hip, -⟩
      · exact Or.inr hu
      · exact hdrop.imp_left (fun h => (hip ▸ h : lookupPodIP c.drain.podIPCache _ _ = []))
    rw [if_pos hdrop, if_pos hdrop']
    exact ⟨htwin, fun k => (cached_settle c k).symm⟩
  · rw [not_or] at hdrop
    obtain ⟨hip, hidle⟩ := hs.resolve_left hdrop.2
    have hip' : lookupPodIP (settle c).podIPCache ev.podNS ev.podName =
        lookupPodIP c.podIPCache ev.podNS ev.podName := hip.symm
    have hidle := hidle.resolve_left hdrop.1
    have hloop := hidle.loop htwin
    rw [← cached_settle, ← listedFor, ← listedFor, ← nsLoop_eq, ← nsLoop_eq] at hloop
    obtain ⟨hlabel, hns⟩ := twin_nsService hloop.1 hloop.2
    have hspec := nsService_spec ev.user (c.arm verdicts) c.serviceCache
    have hspec' := nsService_spec ev.user ((settle c).arm verdicts) (settle c).serviceCache
    have hcached : ∀ k, updAll ((nsService ev.user (c.arm verdicts) c.serviceCache).2.2.cached k)
        (pendingOps k c.api.pending) =
          (nsService ev.user ((settle c).arm verdicts) (settle c).serviceCache).2.2.cached k := by
      intro k
      by_cases hk : k = servicePrefix ++ ev.user
      · rw [hk, hspec.cached, hspec'.cached, ← hlabel, cached_settle]
        split_ifs
        · rfl
        · exact hidle.updAll_appendVal
      · rw [hspec.cached_ne k hk, hspec'.cached_ne k hk, cached_settle]
    rw [if_neg (not_or.mpr hdrop), hip', if_neg (not_or.mpr hdrop)]
    by_cases hnil : (nsService ev.user (c.arm verdicts) c.serviceCache).1 = []
    · rw [if_pos hnil, if_pos (hlabel ▸ hnil)]
      exact ⟨hns, hcached⟩
    · rw [if_neg hnil, if_neg (hlabel ▸ hnil)]
      refine ⟨?_, hcached⟩
      have hroutes := hns.writeRoutes ev.podNS ev.user
        (nsService ev.user (c.arm verdicts) c.serviceCache).1
        (lookupPodIP c.podIPCache ev.podNS ev.podName)
      rwa [hlabel] at hroutes ⊢

lemma settle_congr {c d : Sys} (hcluster : c.api.cluster = d.api.cluster) (hpods : c.pods = d.pods)
    (hips : c.drain.podIPCache = d.drain.podIPCache)
    (hcached : ∀ k, c.drain.serviceCache.cached k = d.drain.serviceCache.cached k) :
    settle c = settle d := by
  unfold settle
  rw [hcluster, hpods, hips]
  congr 1
  funext k
  rw [hcached]

theorem settle_exec {c : Sys} {ev : ProcessExec} {verdicts : Nat → Verdict}
    (hv : ∀ n, verdicts n = .serve) (hs : Settled c ev) :
    settle (c.exec ev verdicts) = settle ((settle c).exec ev verdicts) := by
  obtain ⟨htwin, hcached⟩ := twin_handleProcessExec hv hs
  obtain ⟨n, hn, hn'⟩ := htwin.reported
  refine settle_congr htwin.cluster rfl rfl (fun k => ?_)
  have hleft := cached_deliverAll (c.exec ev verdicts).api.pending
    (c.exec ev verdicts).serviceCache k
  have hright := cached_deliverAll ((settle c).exec ev verdicts).api.pending
    ((settle c).exec ev verdicts).serviceCache k
  refine hleft.trans (Eq.trans ?_ hright.symm)
  unfold Sys.exec
  dsimp only
  rw [hn, hn', pendingOps_append, updAll_append, hcached k, List.nil_append]

lemma settle_deliver {c d : Sys} {a : Action} (ha : StartUpStep a) (hn : execOf a = none)
    (h : c.step a = some d) : settle d = settle c := by
  cases a with
  | deliverService =>
    cases hp : c.api.pending with
    | nil => simp [Sys.step, hp] at h
    | cons n rest =>
      simp only [Sys.step, hp, Option.some.injEq] at h
      subst h
      refine settle_congr rfl rfl rfl (fun k => ?_)
      simp [Sys.drain, hp]
  | deliverPod =>
    cases hp : c.podPending with
    | nil => simp [Sys.step, hp] at h
    | cons n rest =>
      simp only [Sys.step, hp, Option.some.injEq] at h
      subst h
      refine settle_congr rfl rfl ?_ (fun k => rfl)
      simp [Sys.drain, hp]
  | exec ev verdicts => cases hn
  | _ => exact absurd ha id

/-- A run of the start-up whose events are settled comes to the same state, whenever the
deliveries are made. -/
theorem settle_run {c d : Sys} {as : List Action} (ha : ∀ a ∈ as, StartUpStep a)
    (hg : Guarded Sys.step SettledStep c as) (hr : run Sys.step c as = some d) :
    settle d = (as.filterMap execOf).foldl
      (fun s ev => settle (s.exec ev (fun _ => .serve))) (settle c) := by
  rw [← observe_eq_filterMap (fun _ a => execOf a) (fun _ _ => rfl) hr]
  refine run_normal settle (fun _ => True) (fun _ _ _ _ _ _ => trivial) ?_ ?_ trivial
    (hg.and (guarded_of_forall ha)) hr
  · intro s a t _ hok hn hst
    exact settle_deliver hok.2 hn hst
  · intro s a ev t _ hok hev hst
    cases a with
    | exec ev' verdicts =>
      cases hev
      cases hst
      have hall : verdicts = fun _ => .serve := funext hok.2
      rw [settle_exec hok.2 hok.1, hall]
    | _ => cases hev

/-- Two runs of the start-up with the same events end with the same Services and
EndpointSlices if every event is settled when it is handled. -/
theorem startup_order_irrelevant (services : List Service) (slices : Store EndpointSlice.key)
    (pods : List Pod) (as bs : List Action) (d d' : Sys)
    (ha : ∀ a ∈ as, StartUpStep a) (hb : ∀ a ∈ bs, StartUpStep a)
    (he : as.filterMap execOf = bs.filterMap execOf)
    (hga : Guarded Sys.step SettledStep (.boot services slices pods) as)
    (hgb : Guarded Sys.step SettledStep (.boot services slices pods) bs)
    (hra : run Sys.step (.boot services slices pods) as = some d)
    (hrb : run Sys.step (.boot services slices pods) bs = some d') :
    d.api.cluster = d'.api.cluster := by
  have hd := settle_run ha hga hra
  have hd' := settle_run hb hgb hrb
  rw [he, ← hd'] at hd
  exact congrArg (fun c => c.api.cluster) hd

/-- Everything has been delivered when an event is handled. -/
def SyncedStep (c : Sys) : Action → Prop
  | .exec _ _ => c.api.pending.isEmpty = true ∧ c.podPending.isEmpty = true
  | _ => True

instance (c : Sys) : ∀ a, Decidable (SyncedStep c a)
  | .exec _ _ => inferInstanceAs (Decidable (_ ∧ _))
  | .createService _ | .updateService _ | .deleteService _ | .createPod _ | .updatePod _
  | .deletePod _ | .deliverService | .deliverPod => .isTrue trivial

/-- To wait for both caches is enough. -/
lemma SyncedStep.settled {c : Sys} {a : Action} (h : SyncedStep c a) : SettledStep c a := by
  cases a with
  | exec ev verdicts =>
    have hpending : c.api.pending = [] := List.isEmpty_iff.mp h.1
    have hpods : c.podPending = [] := List.isEmpty_iff.mp h.2
    refine Or.inr ⟨by simp [Sys.drain, hpods], Or.inr ?_⟩
    rw [hpending]
    trivial
  | _ => trivial

def exampleBoot : Sys := .boot [exampleLB] .empty [examplePod]

def podsFirst : List Action := [.deliverPod, .deliverService, exampleLogin]

def servicesFirst : List Action := [.deliverService, .deliverPod, exampleLogin]

theorem startup_order_irrelevant_synced : ∃ d d', run Sys.step exampleBoot podsFirst = some d ∧
    run Sys.step exampleBoot servicesFirst = some d' ∧ d.api.cluster = d'.api.cluster := by
  obtain ⟨d, hd⟩ : ∃ d, run Sys.step exampleBoot podsFirst = some d :=
    Option.isSome_iff_exists.mp (by decide +kernel)
  obtain ⟨d', hd'⟩ : ∃ d, run Sys.step exampleBoot servicesFirst = some d :=
    Option.isSome_iff_exists.mp (by decide +kernel)
  have hpods : Guarded Sys.step SyncedStep exampleBoot podsFirst := by decide +kernel
  have hservices : Guarded Sys.step SyncedStep exampleBoot servicesFirst := by decide +kernel
  exact ⟨d, d', hd, hd', startup_order_irrelevant [exampleLB] .empty [examplePod] podsFirst
    servicesFirst d d' (by simp [podsFirst, StartUpStep, exampleLogin])
    (by simp [servicesFirst, StartUpStep, exampleLogin]) rfl
    (hpods.mono (fun _ _ h => h.settled)) (hservices.mono (fun _ _ h => h.settled)) hd hd'⟩

def podInTime : List Action := [.deliverPod, exampleLogin, .deliverService, .deliverService]

def podTooLate : List Action := [exampleLogin, .deliverPod]

/-- An event that is handled before its Pod is delivered is dropped for good. -/
theorem startup_order_matters :
    (∀ a ∈ podInTime ++ podTooLate, StartUpStep a) ∧
      podInTime.filterMap execOf = podTooLate.filterMap execOf ∧
      ∃ d d', run Sys.step (.boot [] .empty [examplePod]) podInTime = some d ∧
        run Sys.step (.boot [] .empty [examplePod]) podTooLate = some d' ∧
        (d.api.pending = [] ∧ d.podPending = []) ∧ (d'.api.pending = [] ∧ d'.podPending = []) ∧
        d.api.cluster.services ≠ d'.api.cluster.services ∧
        d.api.cluster.slices ≠ d'.api.cluster.slices := by
  refine ⟨by simp [podInTime, podTooLate, StartUpStep, exampleLogin], rfl, ?_⟩
  obtain ⟨d, hd, hp, hq, hservice, hslice⟩ :
      ∃ d, run Sys.step (.boot [] .empty [examplePod]) podInTime = some d ∧
        d.api.pending.isEmpty = true ∧ d.podPending.isEmpty = true ∧
        (d.api.cluster.services.get (primaryKey exampleUser)).isSome = true ∧
        (d.api.cluster.slices.get (defaultNS, sliceName exampleUser)).isSome = true := by
    decide +kernel
  obtain ⟨d', hd', hp', hq', hservice', hslice'⟩ :
      ∃ d, run Sys.step (.boot [] .empty [examplePod]) podTooLate = some d ∧
        d.api.pending.isEmpty = true ∧ d.podPending.isEmpty = true ∧
        (d.api.cluster.services.get (primaryKey exampleUser)).isSome = false ∧
        (d.api.cluster.slices.get (defaultNS, sliceName exampleUser)).isSome = false := by
    decide +kernel
  refine ⟨d, d', hd, hd', ⟨List.isEmpty_iff.mp hp, List.isEmpty_iff.mp hq⟩,
    ⟨List.isEmpty_iff.mp hp', List.isEmpty_iff.mp hq'⟩, fun h => ?_, fun h => ?_⟩
  · rw [h, hservice'] at hservice
    cases hservice
  · rw [h, hslice'] at hslice
    cases hslice

end CMXSafe.Proofs
