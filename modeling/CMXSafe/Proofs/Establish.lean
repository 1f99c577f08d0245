import CMXSafe.Proofs.NorthSouth
import CMXSafe.Proofs.CacheExact

/-!
# Establishing the north-south service

Against a healthy server and from a cache that lists the right Services, `handleNSService`
strips every duplicate and creates the primary Service where it is missing. A primary
Service that exists is never written, so the outcome is right exactly when it was right.
-/

namespace CMXSafe.Proofs
open Strings Stores Tokens

/-- What `handleNSService` does against a healthy server. -/
structure HandledNS (user : Str) (a : Api) (m : SyncMap) (r : Str × Api × SyncMap) : Prop where
  healthy : r.2.1.Healthy
  slices : r.2.1.cluster.slices = a.cluster.slices
  label : r.1 = [] ∨ r.1 = servicePrefix ++ user
  kept : r.1 ≠ [] ↔ ∀ t ∈ listedFor m user, (a.cluster.services.get t).isSome = true
  others : ∀ k, k ≠ primaryKey user → r.2.1.cluster.services.get k =
    if k ∈ listedFor m user then (a.cluster.services.get k).map strip
    else a.cluster.services.get k
  primary : ∀ p, a.cluster.services.get (primaryKey user) = some p →
    r.2.1.cluster.services.get (primaryKey user) = some p
  rejected : a.cluster.services.get (primaryKey user) = none →
    acceptsName (servicePrefix ++ user) = false →
    r.2.1.cluster.services.get (primaryKey user) = none
  created : r.1 ≠ [] → a.cluster.services.get (primaryKey user) = none →
    acceptsName (servicePrefix ++ user) = true →
    ∃ p, r.2.1.cluster.services.get (primaryKey user) = some p ∧
      p.toServiceBody = nsServiceBody servicePrefix user serviceSuffix

theorem handleNSService_healthy {a : Api} (h : a.Healthy) (user : Str) (m : SyncMap) :
    HandledNS user a m (handleNSService servicePrefix user serviceSuffix a m) := by
  obtain ⟨hkept, hnil, hget⟩ := nsLoop_healthy user h m
  have hslices : (nsLoop user a m).2.cluster.slices = a.cluster.slices := by
    rw [nsLoop_eq]
    exact (removals_spec _ a).2.1
  rw [handleNSService_eq]
  generalize nsLoop user a m = kept at hkept hnil hget hslices ⊢
  have hpk : kept.2.cluster.services.get (primaryKey user) =
      a.cluster.services.get (primaryKey user) := by
    rw [hget, if_neg (primaryKey_not_listed m user)]
  by_cases hk : kept.1 = []
  · obtain ⟨h1, h2, h3, h4, h5, h6⟩ := createNSService_healthy hkept user
    rw [if_pos hk]
    exact
      { healthy := h1
        slices := h2.trans hslices
        label := Or.inr rfl
        kept := ⟨fun _ => hnil.mp hk, fun _ => servicePrefix_append_ne_nil user⟩
        others := fun k hne => (h3 k hne).trans (hget k)
        primary := fun p hp => h4 p (hpk.trans hp)
        rejected := fun hp => h5 (hpk.trans hp)
        created := fun _ hp => h6 (hpk.trans hp) }
  · rw [if_neg hk]
    exact
      { healthy := hkept
        slices := hslices
        label := Or.inl rfl
        kept := ⟨fun hne => absurd rfl hne, fun hall => absurd (hnil.mpr hall) hk⟩
        others := fun k _ => hget k
        primary := fun p hp => hpk.trans hp
        rejected := fun hp _ => hpk.trans hp
        created := fun hne => absurd rfl hne }

/-- The specification that both writers of the north-south Service aim at. -/
def MeetsSpec (user : Str) (p : Service) : Prop :=
  p.type = .loadBalancer ∧ lookup p.annotations externalDNSAnn = some (hostOf user) ∧
    p.ports = [buildPort sshPrimary 22, buildPort sshSecondary 2222] ∧ p.selector = []

/-- The entries under the key of the user are the LoadBalancer Services that publish its
host name. -/
def ListsExactly (m : SyncMap) (c : Cluster) (user : Str) : Prop :=
  ∀ e, e ∈ pieces ';' (m.cached (servicePrefix ++ user)) ↔
    ∃ s, c.services.get s.key = some s ∧ s.type = .loadBalancer ∧
      s.hostname = hostOf user ∧ e = s.entry

/-- The north-south Service of the user is established between `c` and `d`. -/
structure Established (user : Str) (m : SyncMap) (c : Cluster) (label : Str) (d : Cluster) :
    Prop where
  label : label = servicePrefix ++ user
  primary : ∃ p, d.services.get (primaryKey user) = some p ∧ MeetsSpec user p
  stripped : ∀ s, c.services.get s.key = some s → s.key ≠ primaryKey user →
    s.entry ∈ pieces ';' (m.cached (servicePrefix ++ user)) →
    d.services.get s.key = some { s with annotations := eraseKey externalDNSAnn s.annotations }
  unchanged : ∀ k, k ≠ primaryKey user →
    refBody k.1 k.2 ∉ pieces ';' (m.cached (servicePrefix ++ user)) →
    d.services.get k = c.services.get k

/-- The primary Service is missing and can be created, or is as it should be. -/
def PrimaryReady (c : Cluster) (user : Str) : Prop :=
  (c.services.get (primaryKey user) = none ∧ acceptsName (servicePrefix ++ user) = true) ∨
    ∃ p, c.services.get (primaryKey user) = some p ∧ MeetsSpec user p

lemma meetsSpec_of_body {user : Str} {p : Service}
    (h : p.toServiceBody = nsServiceBody servicePrefix user serviceSuffix) : MeetsSpec user p := by
  unfold MeetsSpec
  rw [h]
  exact ⟨rfl, (lookup_cons _ _ _).trans (if_pos rfl), rfl, rfl⟩

lemma mem_listedFor {m : SyncMap} {user : Str} {s : Service} (hne : s.key ≠ primaryKey user)
    (h : s.entry ∈ pieces ';' (m.cached (servicePrefix ++ user))) : s.key ∈ listedFor m user := by
  refine List.mem_filterMap.mpr ⟨s.entry, h, targetOf_entry ?_⟩
  intro he
  have hns : '/' ∉ defaultNS := by decide +kernel
  by_cases hs : '/' ∈ servicePrefix ++ user
  · have hcount := s.isEntry.count_slash
    have hpos : 0 < (servicePrefix ++ user).count '/' := List.count_pos_iff.mpr hs
    rw [he, primaryOf, refBody, List.count_append, List.count_cons_self] at hcount
    omega
  · exact hne (Prod.ext_iff.mpr ((refBody_inj hns hs).mp he))

lemma entry_of_mem_listedFor {m : SyncMap} {user : Str} {k : Str × Str}
    (h : k ∈ listedFor m user) :
    refBody k.1 k.2 ∈ pieces ';' (m.cached (servicePrefix ++ user)) := by
  obtain ⟨e, he, ht⟩ := List.mem_filterMap.mp h
  rw [← (targetOf_eq_some ht).1]
  exact he

/-- From a cache that lists the right Services, a healthy call establishes the north-south
Service if and only if the primary Service is missing or already as it should be. -/
theorem handleNSService_establishes_iff {a : Api} (ha : a.Healthy) {m : SyncMap} {user : Str}
    (hm : ListsExactly m a.cluster user) :
    Established user m a.cluster (handleNSService servicePrefix user serviceSuffix a m).1
        (handleNSService servicePrefix user serviceSuffix a m).2.1.cluster ↔
      PrimaryReady a.cluster user := by
  have hr := handleNSService_healthy ha user m
  generalize handleNSService servicePrefix user serviceSuffix a m = r at hr ⊢
  -- every listed Service exists, so the label is returned
  have hexist : ∀ t ∈ listedFor m user, (a.cluster.services.get t).isSome = true := by
    intro t ht
    obtain ⟨e, he, htarget⟩ := List.mem_filterMap.mp ht
    obtain ⟨s, hs, -, -, rfl⟩ := (hm e).mp he
    rw [targetOf_entry (targetOf_ne htarget).2] at htarget
    cases htarget
    rw [hs]
    rfl
  have hne : r.1 ≠ [] := hr.kept.mpr hexist
  have hlabel := hr.label.resolve_left hne
  constructor
  · intro h
    obtain ⟨p, hp, hspec⟩ := h.primary
    cases hget : a.cluster.services.get (primaryKey user) with
    | none =>
      refine Or.inl ⟨hget, ?_⟩
      by_contra hname
      rw [hr.rejected hget (by simpa using hname)] at hp
      cases hp
    | some q =>
      have hq : q = p := Option.some.inj ((hr.primary q hget).symm.trans hp)
      exact Or.inr ⟨q, hget, hq ▸ hspec⟩
  · intro h
    refine ⟨hlabel, ?_, ?_, ?_⟩
    · rcases h with ⟨hget, hname⟩ | ⟨p, hget, hspec⟩
      · obtain ⟨p, hp, hbody⟩ := hr.created hne hget hname
        exact ⟨p, hp, meetsSpec_of_body hbody⟩
      · exact ⟨p, hr.primary p hget, hspec⟩
    · intro s hs hk he
      rw [hr.others s.key hk, if_pos (mem_listedFor hk he), hs]
      rfl
    · intro k hk hnot
      rw [hr.others k hk, if_neg (fun hmem => hnot (entry_of_mem_listedFor hmem))]

def healthyApi (c : Cluster) : Api := ⟨c, [], fun _ => .serve, []⟩

lemma healthy_healthyApi (c : Cluster) : (healthyApi c).Healthy := fun _ => rfl

/-- All calls are served but the one with this number, counted from 0. -/
def refuseAt (i n : Nat) : Verdict := if n = i then .refuse .other else .serve

def readyPrimary : Service where
  toServiceBody := nsServiceBody servicePrefix exampleUser serviceSuffix
  ns := defaultNS
  name := servicePrefix ++ exampleUser
  named := by decide +kernel

lemma prodWeb_named : acceptsName "prod".toList = true ∧ acceptsName "web".toList = true := by
  decide +kernel

/-- A Service that has the host name, but is no LoadBalancer. -/
def exampleWeb : Service := hostService "prod" "web" .clusterIP (hostOf exampleUser) prodWeb_named

/-- The primary Service, a LoadBalancer of somebody else with its host name, and a Service that
is not listed. -/
def sharedCluster : Cluster :=
  ⟨((Store.empty.put readyPrimary).put exampleLB).put exampleWeb, .empty⟩

def sharedCache : SyncMap :=
  SyncMap.empty.store (servicePrefix ++ exampleUser) (readyPrimary.ref ++ exampleLB.ref)

lemma get_sharedCluster (s : Service) : sharedCluster.services.get s.key = some s ↔
    s = readyPrimary ∨ s = exampleLB ∨ s = exampleWeb := by
  constructor
  · intro h
    rw [sharedCluster, Store.get_put, Store.get_put, Store.get_put] at h
    split_ifs at h
    · exact Or.inr (Or.inr (Option.some.inj h).symm)
    · exact Or.inr (Or.inl (Option.some.inj h).symm)
    · exact Or.inl (Option.some.inj h).symm
    · cases h
  · rintro (rfl | rfl | rfl) <;> decide +kernel

lemma sharedCache_lists : ListsExactly sharedCache sharedCluster exampleUser := by
  have hpieces : pieces ';' (sharedCache.cached (servicePrefix ++ exampleUser)) =
      [readyPrimary.entry, exampleLB.entry] := by decide +kernel
  intro e
  rw [hpieces]
  simp only [get_sharedCluster, List.mem_cons, List.not_mem_nil, or_false]
  constructor
  · rintro (rfl | rfl)
    · exact ⟨readyPrimary, Or.inl rfl, rfl, by decide +kernel, rfl⟩
    · exact ⟨exampleLB, Or.inr (Or.inl rfl), rfl, by decide +kernel, rfl⟩
  · rintro ⟨s, rfl | rfl | rfl, htype, -, rfl⟩
    · exact Or.inl rfl
    · exact Or.inr rfl
    · cases htype

theorem handleNSService_establishes_iff_shared :
    Established exampleUser sharedCache sharedCluster
        (handleNSService servicePrefix exampleUser serviceSuffix
          (healthyApi sharedCluster) sharedCache).1
        (handleNSService servicePrefix exampleUser serviceSuffix
          (healthyApi sharedCluster) sharedCache).2.1.cluster :=
  have hready : PrimaryReady sharedCluster exampleUser :=
    Or.inr ⟨readyPrimary, by decide +kernel, meetsSpec_of_body rfl⟩
  (handleNSService_establishes_iff (healthy_healthyApi sharedCluster) sharedCache_lists).mpr hready

def driftedPrimary : Service where
  annotations := [(externalDNSAnn, hostOf exampleUser)]
  type := .loadBalancer
  ports := [⟨"http".toList, 80, .int 8080, .tcp⟩]
  ns := defaultNS
  name := servicePrefix ++ exampleUser
  named := by decide +kernel

def driftedCluster : Cluster := ⟨Store.empty.put driftedPrimary, .empty⟩

def driftedCache : SyncMap :=
  SyncMap.empty.store (servicePrefix ++ exampleUser) driftedPrimary.ref

/-- The ports of a primary Service that exists are not repaired. -/
theorem handleNSService_keeps_drift :
    (healthyApi driftedCluster).Healthy ∧ ListsExactly driftedCache driftedCluster exampleUser ∧
      ¬Established exampleUser driftedCache driftedCluster
        (handleNSService servicePrefix exampleUser serviceSuffix
          (healthyApi driftedCluster) driftedCache).1
        (handleNSService servicePrefix exampleUser serviceSuffix
          (healthyApi driftedCluster) driftedCache).2.1.cluster := by
  have hlist : ListsExactly driftedCache driftedCluster exampleUser := by
    have hpieces : pieces ';' (driftedCache.cached (servicePrefix ++ exampleUser)) =
        [driftedPrimary.entry] := by decide +kernel
    intro e
    rw [hpieces, List.mem_singleton]
    constructor
    · rintro rfl
      exact ⟨driftedPrimary, Store.get_put_self _ _, rfl, by decide +kernel, rfl⟩
    · rintro ⟨s, hs, -, -, rfl⟩
      rw [Store.get_put_empty.mp hs]
  refine ⟨healthy_healthyApi _, hlist, ?_⟩
  intro h
  obtain ⟨p, hp, hspec⟩ := h.primary
  have hget : (handleNSService servicePrefix exampleUser serviceSuffix
      (healthyApi driftedCluster) driftedCache).2.1.cluster.services.get
        (primaryKey exampleUser) = some driftedPrimary := by decide +kernel
  have hdrift : driftedPrimary = p := Option.some.inj (hget.symm.trans hp)
  rw [← hdrift] at hspec
  exact absurd hspec.2.2.1 (by decide +kernel)

end CMXSafe.Proofs
