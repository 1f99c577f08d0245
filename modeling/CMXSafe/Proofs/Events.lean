import CMXSafe.Proofs.Routes

/-!
# What one exec event can do

The footprint of an event of `main`, whatever becomes of its calls: the Services listed
for its user, the primary Service, the EndpointSlice and the ExternalName Service of its
user, and one key of `serviceCache`.
-/

namespace CMXSafe.Proofs
open Strings Stores Tokens Machines

abbrev nsService (user : Str) (a : Api) (m : SyncMap) : Str × Api × SyncMap :=
  handleNSService servicePrefix user serviceSuffix a m

/-- The footprint of `handleNSService`. -/
structure NSSpec (user : Str) (a : Api) (m : SyncMap) (r : Str × Api × SyncMap) : Prop where
  reports : Reports a r.2.1
  slices : r.2.1.cluster.slices = a.cluster.slices
  services : ∀ k, r.2.1.cluster.services.get k = a.cluster.services.get k ∨
    (k ∈ listedFor m user ∧
      r.2.1.cluster.services.get k = (a.cluster.services.get k).map strip) ∨
    (k = primaryKey user ∧ r.1 ≠ [] ∧ a.cluster.services.get k = none ∧
      ∃ s, r.2.1.cluster.services.get k = some s ∧
        s.toServiceBody = nsServiceBody servicePrefix user serviceSuffix)
  label : r.1 = [] ∨ r.1 = servicePrefix ++ user
  exist : r.1 ≠ [] → ∀ t ∈ listedFor m user, (a.cluster.services.get t).isSome = true
  cached_ne : ∀ k, k ≠ servicePrefix ++ user → r.2.2.cached k = m.cached k
  cached : r.2.2.cached (servicePrefix ++ user) =
    if r.1 = [] then m.cached (servicePrefix ++ user)
    else appendVal (m.cached (servicePrefix ++ user)) (primaryOf user ++ [';'])

lemma nsLoop_spec (user : Str) (a : Api) (m : SyncMap) :
    Reports a (nsLoop user a m).2 ∧ (nsLoop user a m).2.cluster.slices = a.cluster.slices ∧
      (∀ k, (nsLoop user a m).2.cluster.services.get k = a.cluster.services.get k ∨
        (k ∈ listedFor m user ∧ (nsLoop user a m).2.cluster.services.get k =
          (a.cluster.services.get k).map strip)) ∧
      ((nsLoop user a m).1 = [] →
        ∀ t ∈ listedFor m user, (a.cluster.services.get t).isSome = true) := by
  rw [nsLoop_eq]
  exact removals_spec (listedFor m user) a

lemma createNSService_services (user : Str) (a : Api) (k : Str × Str) :
    (createNSService servicePrefix user serviceSuffix a).2.cluster.services.get k =
        a.cluster.services.get k ∨
      k = primaryKey user ∧ a.cluster.services.get k = none ∧
        ∃ s, (createNSService servicePrefix user serviceSuffix a).2.cluster.services.get k =
            some s ∧ s.toServiceBody = nsServiceBody servicePrefix user serviceSuffix := by
  unfold createNSService
  rcases call_cases (.createService defaultNS (servicePrefix ++ user)
    (nsServiceBody servicePrefix user serviceSuffix)) a with ⟨h, -⟩ | ⟨e, he, h⟩
  · left
    rw [h]
    rfl
  · obtain ⟨hnone, -, s, -, hbody, hall⟩ := serve_createService he
    rw [h]
    by_cases hk : k = (defaultNS, servicePrefix ++ user)
    · right
      rw [hk]
      exact ⟨rfl, hnone, s, by change e.1.services.get _ = _; rw [hall, if_pos rfl], hbody⟩
    · left
      change e.1.services.get k = _
      rw [hall, if_neg hk]

lemma primaryRef_ne_nil (user : Str) : primaryOf user ++ [';'] ≠ [] := by simp

theorem nsService_spec (user : Str) (a : Api) (m : SyncMap) :
    NSSpec user a m (nsService user a m) := by
  obtain ⟨hreports, hslices, hservices, hexist⟩ := nsLoop_spec user a m
  rw [nsService, handleNSService_eq]
  by_cases hk : (nsLoop user a m).1 = []
  · rw [if_pos hk]
    have hcreate : Reports a (createNSService servicePrefix user serviceSuffix
        (nsLoop user a m).2).2 := hreports.trans (reports_call _ _)
    refine ⟨hcreate, ?_, ?_, Or.inr rfl, fun _ => hexist hk, ?_, ?_⟩
    · ext1 k
      rw [← hslices]
      exact call_slices_of_ne _ (by simp [requestedSlice])
    · intro k
      dsimp only
      rcases createNSService_services user (nsLoop user a m).2 k with h | ⟨hp, hnone, hs⟩
      · rw [h]
        exact (hservices k).imp_right Or.inl
      · right
        right
        rcases hservices k with h | ⟨hl, -⟩
        · exact ⟨hp, servicePrefix_append_ne_nil user, h ▸ hnone, hs⟩
        · rw [hp] at hl
          exact absurd hl (primaryKey_not_listed m user)
    · intro k hne
      have hop := CacheOp.cached_apply_of_ne
        (.append (servicePrefix ++ user) (primaryOf user ++ [';']))
        (m.loadOrStore (servicePrefix ++ user) []).2 hne
      exact hop.trans (SyncMap.cached_loadOrStore m _ k)
    · rw [if_neg (servicePrefix_append_ne_nil user),
        cached_append_self _ _ (primaryRef_ne_nil user), SyncMap.cached_loadOrStore]
  · rw [if_neg hk]
    refine ⟨hreports, hslices, ?_, Or.inl rfl, fun h => absurd rfl h, ?_, ?_⟩
    · exact fun k => (hservices k).imp_right Or.inl
    · exact fun k _ => SyncMap.cached_loadOrStore m _ k
    · rw [if_pos rfl, SyncMap.cached_loadOrStore]

lemma writeRoutes_services_of_ne {ns user : Str} (label ip : Str) (a : Api) {k : Str × Str}
    (hk : k ≠ (ns, user)) :
    (writeRoutes ns user label ip a).cluster.services.get k = a.cluster.services.get k := by
  rw [writeRoutes_eq, ewUpsert_services_of_ne _ _ hk]
  exact sliceUpsert_services label ip a

lemma writeRoutes_slices_of_ne {user : Str} (ns label ip : Str) (a : Api) {k : Str × Str}
    (hk : k ≠ (defaultNS, sliceName user)) :
    (writeRoutes ns user label ip a).cluster.slices.get k = a.cluster.slices.get k := by
  rw [writeRoutes_eq, ewUpsert_slices]
  exact sliceUpsert_slices_of_ne label ip a hk

lemma reports_writeRoutes (ns user label ip : Str) (a : Api) :
    Reports a (writeRoutes ns user label ip a) := by
  rw [writeRoutes_eq]
  exact (reports_upsert _ _ a).trans (reports_upsert _ _ _)

/-- Where the ExternalName Service exists, only its target is written. -/
lemma ewUpsert_existing {ns user : Str} (ip : Str) {a : Api} {s : Service}
    (hs : a.cluster.services.get (ns, user) = some s) :
    ∃ t, (upsert (ewPatchRequest ns user ip) (ewCreateRequest ns user ip) a
        ).2.cluster.services.get (ns, user) = some t ∧
      (t = s ∨ t = { s with externalName := ewHost ns ip }) := by
  have hpatch : ∃ t, (a.call (ewPatchRequest ns user ip)).2.cluster.services.get (ns, user) =
      some t ∧ (t = s ∨ t = { s with externalName := ewHost ns ip }) := by
    rcases call_cases (ewPatchRequest ns user ip) a with ⟨h, -⟩ | ⟨e, hserve, h⟩
    · rw [h]
      exact ⟨s, hs, Or.inl rfl⟩
    · obtain ⟨s', hs', -, hall⟩ := serve_patchService hserve
      rw [hs] at hs'
      cases hs'
      rw [h]
      exact ⟨_, (hall _).trans (if_pos rfl), Or.inr rfl⟩
  obtain ⟨t, ht, hts⟩ := hpatch
  refine ⟨t, ?_, hts⟩
  unfold upsert
  dsimp only
  split_ifs
  · -- the creation is refused
    rcases call_cases (ewCreateRequest ns user ip) (a.call (ewPatchRequest ns user ip)).2 with
      ⟨h, -⟩ | ⟨e, hserve, -⟩
    · rw [h]
      exact ht
    · rw [(serve_createService hserve).1] at ht
      cases ht
  · exact ht

/-- How far an event gets: dropped at the first `continue`, at the second, or handled. -/
inductive Outcome (podIPCache : SyncMap) (ev : ProcessExec) (a : Api) (m : SyncMap) :
    Bool × Api × SyncMap → Prop
  | dropped (h : lookupPodIP podIPCache ev.podNS ev.podName = [] ∨ ev.user = []) :
    Outcome podIPCache ev a m (false, a, m)
  | gaveUp (hip : lookupPodIP podIPCache ev.podNS ev.podName ≠ []) (huser : ev.user ≠ [])
      (h : (nsService ev.user a m).1 = []) :
    Outcome podIPCache ev a m (false, (nsService ev.user a m).2)
  | handled (hip : lookupPodIP podIPCache ev.podNS ev.podName ≠ []) (huser : ev.user ≠ [])
      (h : (nsService ev.user a m).1 = servicePrefix ++ ev.user) :
    Outcome podIPCache ev a m
      (true, writeRoutes ev.podNS ev.user (servicePrefix ++ ev.user)
        (lookupPodIP podIPCache ev.podNS ev.podName) (nsService ev.user a m).2.1,
        (nsService ev.user a m).2.2)

theorem handleProcessExec_outcome (podIPCache : SyncMap) (ev : ProcessExec) (a : Api)
    (m : SyncMap) : Outcome podIPCache ev a m (handleProcessExec podIPCache ev a m) := by
  unfold handleProcessExec
  dsimp only
  by_cases h1 : lookupPodIP podIPCache ev.podNS ev.podName = [] ∨ ev.user = []
  · rw [if_pos h1]
    exact .dropped h1
  · rw [if_neg h1]
    rw [not_or] at h1
    by_cases h2 : (nsService ev.user a m).1 = []
    · rw [if_pos h2]
      exact .gaveUp h1.1 h1.2 h2
    · rw [if_neg h2]
      have hlabel := (nsService_spec ev.user a m).label.resolve_left h2
      rw [show (handleNSService servicePrefix ev.user serviceSuffix a m).1 = _ from hlabel]
      exact .handled h1.1 h1.2 hlabel

/-- An event is handled if its Pod and user are known and `handleNSService` does not give
up. -/
lemma handled_iff (podIPCache : SyncMap) (ev : ProcessExec) (a : Api) (m : SyncMap) :
    (handleProcessExec podIPCache ev a m).1 = true ↔
      lookupPodIP podIPCache ev.podNS ev.podName ≠ [] ∧ ev.user ≠ [] ∧
        (nsService ev.user a m).1 ≠ [] := by
  have hout := handleProcessExec_outcome podIPCache ev a m
  generalize handleProcessExec podIPCache ev a m = r at hout ⊢
  cases hout with
  | dropped h =>
    simp only [Bool.false_eq_true, false_iff]
    exact fun hn => h.elim hn.1 hn.2.1
  | gaveUp hip huser h => simp [h]
  | handled hip huser h => simp [hip, huser, h]

lemma reports_handleProcessExec (podIPCache : SyncMap) (ev : ProcessExec) (a : Api)
    (m : SyncMap) : Reports a (handleProcessExec podIPCache ev a m).2.1 := by
  have hout := handleProcessExec_outcome podIPCache ev a m
  generalize handleProcessExec podIPCache ev a m = r at hout ⊢
  cases hout with
  | dropped h => exact Reports.refl a
  | gaveUp hip huser h => exact (nsService_spec ev.user a m).reports
  | handled hip huser h =>
    exact (nsService_spec ev.user a m).reports.trans (reports_writeRoutes _ _ _ _ _)

lemma slices_handleProcessExec (podIPCache : SyncMap) (ev : ProcessExec) (a : Api)
    (m : SyncMap) {k : Str × Str} (hk : (handleProcessExec podIPCache ev a m).1 = true →
      k ≠ (defaultNS, sliceName ev.user)) :
    (handleProcessExec podIPCache ev a m).2.1.cluster.slices.get k = a.cluster.slices.get k := by
  have hout := handleProcessExec_outcome podIPCache ev a m
  generalize handleProcessExec podIPCache ev a m = r at hout hk ⊢
  cases hout with
  | dropped h => rfl
  | gaveUp hip huser h =>
    change (nsService ev.user a m).2.1.cluster.slices.get k = _
    rw [(nsService_spec ev.user a m).slices]
  | handled hip huser h =>
    dsimp only
    rw [writeRoutes_slices_of_ne _ _ _ _ (hk rfl), (nsService_spec ev.user a m).slices]

lemma services_handleProcessExec (podIPCache : SyncMap) (ev : ProcessExec) (a : Api)
    (m : SyncMap) {k : Str × Str} (hk : (handleProcessExec podIPCache ev a m).1 = true →
      k ≠ (ev.podNS, ev.user)) :
    let b := (handleProcessExec podIPCache ev a m).2.1
    b.cluster.services.get k = a.cluster.services.get k ∨
      (k ∈ listedFor m ev.user ∧
        b.cluster.services.get k = (a.cluster.services.get k).map strip) ∨
      (k = primaryKey ev.user ∧ a.cluster.services.get k = none ∧
        ∃ s, b.cluster.services.get k = some s ∧
          s.toServiceBody = nsServiceBody servicePrefix ev.user serviceSuffix) := by
  have hdrop : ∀ {p q r : Prop}, p ∧ q ∧ r → p ∧ r := fun h => ⟨h.1, h.2.2⟩
  have hout := handleProcessExec_outcome podIPCache ev a m
  generalize handleProcessExec podIPCache ev a m = r at hout hk ⊢
  cases hout with
  | dropped h => exact Or.inl rfl
  | gaveUp hip huser h =>
    exact (nsService_spec ev.user a m).services k |>.imp_right (Or.imp_right hdrop)
  | handled hip huser h =>
    dsimp only
    rw [writeRoutes_services_of_ne _ _ _ (hk rfl)]
    exact (nsService_spec ev.user a m).services k |>.imp_right (Or.imp_right hdrop)

/-- Behind the first `continue`, the Services are those that `handleNSService` leaves, but
for the ExternalName Service of the user. -/
lemma services_eq_nsService {podIPCache : SyncMap} {ev : ProcessExec}
    (hip : lookupPodIP podIPCache ev.podNS ev.podName ≠ []) (hu : ev.user ≠ []) (a : Api)
    (m : SyncMap) {k : Str × Str} (hk : k ≠ (ev.podNS, ev.user)) :
    (handleProcessExec podIPCache ev a m).2.1.cluster.services.get k =
      (nsService ev.user a m).2.1.cluster.services.get k := by
  have hout := handleProcessExec_outcome podIPCache ev a m
  generalize handleProcessExec podIPCache ev a m = r at hout ⊢
  cases hout with
  | dropped h => exact absurd h (by simp [hip, hu])
  | gaveUp _ huser h => rfl
  | handled _ huser h => exact writeRoutes_services_of_ne _ _ _ hk

lemma isSome_handleProcessExec (podIPCache : SyncMap) (ev : ProcessExec) (a : Api)
    (m : SyncMap) {k : Str × Str} (hk : (a.cluster.services.get k).isSome = true) :
    ((handleProcessExec podIPCache ev a m).2.1.cluster.services.get k).isSome = true := by
  have hns : ((nsService ev.user a m).2.1.cluster.services.get k).isSome = true := by
    rcases (nsService_spec ev.user a m).services k with h | ⟨-, h⟩ | ⟨-, -, -, s, h, -⟩
    · rw [h]
      exact hk
    · rw [h, Option.isSome_map]
      exact hk
    · rw [h]
      rfl
  have hout := handleProcessExec_outcome podIPCache ev a m
  generalize handleProcessExec podIPCache ev a m = r at hout ⊢
  cases hout with
  | dropped h => exact hk
  | gaveUp hip huser h => exact hns
  | handled hip huser h =>
    dsimp only
    rw [writeRoutes_eq]
    exact isSome_upsert (isSome_upsert hns)

lemma cached_handleProcessExec (podIPCache : SyncMap) (ev : ProcessExec) (a : Api)
    (m : SyncMap) {k : Str} (hk : k ≠ servicePrefix ++ ev.user) :
    (handleProcessExec podIPCache ev a m).2.2.cached k = m.cached k := by
  have hout := handleProcessExec_outcome podIPCache ev a m
  generalize handleProcessExec podIPCache ev a m = r at hout ⊢
  cases hout with
  | dropped h => rfl
  | gaveUp hip huser h => exact (nsService_spec ev.user a m).cached_ne k hk
  | handled hip huser h => exact (nsService_spec ev.user a m).cached_ne k hk

lemma cached_handleProcessExec_self (podIPCache : SyncMap) (ev : ProcessExec) (a : Api)
    (m : SyncMap) :
    let cur := m.cached (servicePrefix ++ ev.user)
    (handleProcessExec podIPCache ev a m).2.2.cached (servicePrefix ++ ev.user) = cur ∨
      (handleProcessExec podIPCache ev a m).2.2.cached (servicePrefix ++ ev.user) =
        appendVal cur (primaryOf ev.user ++ [';']) := by
  have hcached := (nsService_spec ev.user a m).cached
  have hout := handleProcessExec_outcome podIPCache ev a m
  generalize handleProcessExec podIPCache ev a m = r at hout ⊢
  cases hout with
  | dropped h => exact Or.inl rfl
  | gaveUp hip huser h => exact Or.inl (hcached.trans (if_pos h))
  | handled hip huser h =>
    exact Or.inr (hcached.trans (if_neg (h ▸ servicePrefix_append_ne_nil ev.user)))

/-- The server behind an event that is handled. -/
lemma api_of_handled {podIPCache : SyncMap} {ev : ProcessExec} {a : Api} {m : SyncMap}
    (h : (handleProcessExec podIPCache ev a m).1 = true) :
    (handleProcessExec podIPCache ev a m).2.1 =
      writeRoutes ev.podNS ev.user (servicePrefix ++ ev.user)
        (lookupPodIP podIPCache ev.podNS ev.podName) (nsService ev.user a m).2.1 := by
  have hout := handleProcessExec_outcome podIPCache ev a m
  generalize handleProcessExec podIPCache ev a m = r at h hout ⊢
  cases hout with
  | dropped h' => cases h
  | gaveUp hip huser h' => cases h
  | handled hip huser h' => rfl

end CMXSafe.Proofs
