import CMXSafe.Proofs.Establish

/-!
# The routes of a user

The EndpointSlice and the ExternalName Service that an event writes: what a healthy server
makes of them, and what leaves them alone.
-/

namespace CMXSafe.Proofs
open Strings Stores Tokens Machines

/-- A patch, and the creation of the object where the patch found nothing. -/
def upsert (p r : Request) (a : Api) : Option ApiError × Api :=
  let x := a.call p
  if isNotFound x.1 then x.2.call r else x

def slicePatchRequest (user label ip : Str) : Request :=
  .patchSlice defaultNS (sliceName user) (slicePatch label ip)

def ewPatchRequest (ns user ip : Str) : Request := .patchService ns user (ewServicePatch ns ip)

def ewCreateRequest (ns user ip : Str) : Request := .createService ns user (ewServiceBody ns ip)

/-- Both routes are written patch first. -/
lemma writeRoutes_eq (ns user label ip : Str) (a : Api) :
    writeRoutes ns user label ip a =
      (upsert (ewPatchRequest ns user ip) (ewCreateRequest ns user ip)
        (upsert (slicePatchRequest user label ip)
          (.createSlice (freshSlice label user ip)) a).2).2 := by
  have hslice : ∀ x : Option ApiError × Api, (if isNotFound x.1 = true then
      x.2.call (.createSlice (freshSlice label user ip)) else x).2 =
      if isNotFound x.1 = true then (createEndpointSlice label user ip x.2).2 else x.2 :=
    fun x => apply_ite Prod.snd _ _ _
  unfold writeRoutes
  dsimp only
  rw [← hslice]
  rfl

lemma upsert_services_of_ne {p r : Request} (a : Api) {k : Str × Str}
    (hp : requestedService p ≠ some k) (hr : requestedService r ≠ some k) :
    (upsert p r a).2.cluster.services.get k = a.cluster.services.get k := by
  unfold upsert
  dsimp only
  split_ifs
  · rw [call_services_of_ne _ hr, call_services_of_ne _ hp]
  · exact call_services_of_ne _ hp

lemma upsert_slices_of_ne {p r : Request} (a : Api) {k : Str × Str}
    (hp : requestedSlice p ≠ some k) (hr : requestedSlice r ≠ some k) :
    (upsert p r a).2.cluster.slices.get k = a.cluster.slices.get k := by
  unfold upsert
  dsimp only
  split_ifs
  · rw [call_slices_of_ne _ hr, call_slices_of_ne _ hp]
  · exact call_slices_of_ne _ hp

/-! The two writes, each on the objects that it is not about. -/

section
variable {ns user : Str} (label ip : Str) (a : Api) {k : Str × Str}

lemma sliceUpsert_services :
    (upsert (slicePatchRequest user label ip) (.createSlice (freshSlice label user ip)) a
      ).2.cluster.services.get k = a.cluster.services.get k :=
  upsert_services_of_ne a (by simp [requestedService, slicePatchRequest])
    (by simp [requestedService])

lemma sliceUpsert_slices_of_ne (hk : k ≠ (defaultNS, sliceName user)) :
    (upsert (slicePatchRequest user label ip) (.createSlice (freshSlice label user ip)) a
      ).2.cluster.slices.get k = a.cluster.slices.get k :=
  upsert_slices_of_ne a (fun he => hk (Option.some.inj he).symm)
    (fun he => hk (Option.some.inj he).symm)

lemma ewUpsert_services_of_ne (hk : k ≠ (ns, user)) :
    (upsert (ewPatchRequest ns user ip) (ewCreateRequest ns user ip) a
      ).2.cluster.services.get k = a.cluster.services.get k :=
  upsert_services_of_ne a (fun he => hk (Option.some.inj he).symm)
    (fun he => hk (Option.some.inj he).symm)

lemma ewUpsert_slices :
    (upsert (ewPatchRequest ns user ip) (ewCreateRequest ns user ip) a
      ).2.cluster.slices.get k = a.cluster.slices.get k :=
  upsert_slices_of_ne a (by simp [requestedSlice, ewPatchRequest])
    (by simp [requestedSlice, ewCreateRequest])

end

lemma reports_upsert (p r : Request) (a : Api) : Reports a (upsert p r a).2 := by
  unfold upsert
  dsimp only
  split_ifs
  · exact (reports_call p a).trans (reports_call r _)
  · exact reports_call p a

lemma isSome_upsert {p r : Request} {a : Api} {k : Str × Str}
    (hk : (a.cluster.services.get k).isSome = true) :
    ((upsert p r a).2.cluster.services.get k).isSome = true := by
  unfold upsert
  dsimp only
  split_ifs
  · exact isSome_call (isSome_call hk)
  · exact isSome_call hk

lemma upsert_healthy {p r : Request} {a : Api} (h : a.Healthy)
    {e : Cluster × List (Notification Service)}
    (he : p.serve a.cluster = .ok e ∨
      p.serve a.cluster = .error .notFound ∧ r.serve a.cluster = .ok e) :
    (upsert p r a).2.Healthy ∧ (upsert p r a).2.cluster = e.1 := by
  unfold upsert
  rcases he with he | ⟨hp, hr⟩
  · rw [call_healthy_ok h he]
    exact ⟨(h.receive p).commit e, rfl⟩
  · rw [call_healthy_error h hp]
    have hcreate := call_healthy_ok (h.receive p) (r := r) hr
    have hfound : isNotFound (some ApiError.notFound) = true := rfl
    dsimp only
    rw [if_pos hfound, hcreate]
    exact ⟨((h.receive p).receive r).commit e, rfl⟩

/-- The EndpointSlice of a user once it has been written over what was there. -/
def sliceAfter (label user ip : Str) : Option EndpointSlice → EndpointSlice
  | some s => { s with
      labels := setKey labelServiceName label s.labels
      endpoints := [⟨[ip]⟩]
      ports := [buildEndpointPort sshPrimary 22, buildEndpointPort sshSecondary 2222] }
  | none => freshSlice label user ip

/-- What an event writes besides the north-south Service, against a healthy server. -/
structure WroteRoutes (ns user label ip : Str) (a b : Api) : Prop where
  healthy : b.Healthy
  slices : ∀ k, k ≠ (defaultNS, sliceName user) →
    b.cluster.slices.get k = a.cluster.slices.get k
  slice : b.cluster.slices.get (defaultNS, sliceName user) =
    some (sliceAfter label user ip (a.cluster.slices.get (defaultNS, sliceName user)))
  services : ∀ k, k ≠ (ns, user) → b.cluster.services.get k = a.cluster.services.get k
  service : ∀ s, a.cluster.services.get (ns, user) = some s →
    b.cluster.services.get (ns, user) = some { s with externalName := ewHost ns ip }
  created : a.cluster.services.get (ns, user) = none →
    ∃ s, b.cluster.services.get (ns, user) = some s ∧
      s.toServiceBody = { type := .externalName, externalName := ewHost ns ip }

lemma acceptsName_append {n m : Str} (hn : acceptsName n = true) (hm : acceptsName m = true) :
    acceptsName (n ++ m) = true := by
  simp only [acceptsName, Bool.and_eq_true, decide_eq_true_eq, List.all_append] at *
  exact ⟨by simp [hn.1], hn.2, hm.2⟩

lemma acceptsName_sliceName {user : Str} (h : acceptsName user = true) :
    acceptsName (sliceName user) = true := acceptsName_append h (by decide +kernel)

lemma acceptsName_primary {user : Str} (h : acceptsName user = true) :
    acceptsName (servicePrefix ++ user) = true := acceptsName_append (by decide +kernel) h

lemma acceptsName_defaultNS : acceptsName defaultNS = true := by decide +kernel

lemma slice_serves (c : Cluster) {user : Str} (label ip : Str) (huser : acceptsName user = true) :
    ∃ e, ((slicePatchRequest user label ip).serve c = .ok e ∨
        (slicePatchRequest user label ip).serve c = .error .notFound ∧
          (Request.createSlice (freshSlice label user ip)).serve c = .ok e) ∧
      e.1.slices.get (defaultNS, sliceName user) =
        some (sliceAfter label user ip (c.slices.get (defaultNS, sliceName user))) := by
  cases hget : c.slices.get (defaultNS, sliceName user) with
  | none =>
    have hfree : c.slices.get (freshSlice label user ip).key = none := hget
    have hok : acceptsName (freshSlice label user ip).ns = true ∧
        acceptsName (freshSlice label user ip).name = true :=
      ⟨acceptsName_defaultNS, acceptsName_sliceName huser⟩
    have hcreate : (Request.createSlice (freshSlice label user ip)).serve c =
        .ok ({ c with slices := c.slices.put (freshSlice label user ip) }, []) := by
      simp [Request.serve, hfree, hok]
    exact ⟨_, Or.inr ⟨by simp [slicePatchRequest, Request.serve, hget], hcreate⟩,
      Store.get_put_self _ (freshSlice label user ip)⟩
  | some s =>
    refine ⟨_, Or.inl (by simp only [slicePatchRequest, Request.serve, hget]; rfl), ?_⟩
    have hkey : s.key = (defaultNS, sliceName user) := c.slices.keyed _ _ hget
    rw [← hkey]
    exact Store.get_put_self _ (sliceAfter label user ip (some s))

lemma ew_serves (c : Cluster) {ns user : Str} (ip : Str) (hns : acceptsName ns = true)
    (huser : acceptsName user = true) :
    ∃ e, ((ewPatchRequest ns user ip).serve c = .ok e ∨
        (ewPatchRequest ns user ip).serve c = .error .notFound ∧
          (ewCreateRequest ns user ip).serve c = .ok e) ∧
      (∀ s, c.services.get (ns, user) = some s →
        e.1.services.get (ns, user) = some { s with externalName := ewHost ns ip }) ∧
      (c.services.get (ns, user) = none → ∃ s, e.1.services.get (ns, user) = some s ∧
        s.toServiceBody = { type := .externalName, externalName := ewHost ns ip }) := by
  cases hget : c.services.get (ns, user) with
  | none =>
    have hok : ∃ e, (ewCreateRequest ns user ip).serve c = .ok e := by
      simp [ewCreateRequest, Request.serve, hget, hns, huser]
    obtain ⟨e, he⟩ := hok
    obtain ⟨-, -, s, -, hbody, hall⟩ := serve_createService he
    refine ⟨e, Or.inr ⟨serve_patchService_notFound hget, he⟩, by simp, fun _ => ⟨s, ?_, hbody⟩⟩
    rw [hall, if_pos rfl]
  | some s =>
    obtain ⟨e, he⟩ := (serve_patchService_isOk
      (p := { externalName := some (ewHost ns ip) })).mpr (by rw [hget]; rfl)
    obtain ⟨s', hs', -, hall⟩ := serve_patchService he
    rw [hget] at hs'
    cases hs'
    refine ⟨e, Or.inl he, ?_, by simp⟩
    intro t ht
    cases ht
    rw [hall, if_pos rfl]
    rfl

theorem writeRoutes_healthy {a : Api} (h : a.Healthy) {ns user : Str} (label ip : Str)
    (hns : acceptsName ns = true) (huser : acceptsName user = true) :
    WroteRoutes ns user label ip a (writeRoutes ns user label ip a) := by
  rw [writeRoutes_eq]
  obtain ⟨e, he, hwritten⟩ := slice_serves a.cluster label ip huser
  obtain ⟨hb, hbc⟩ := upsert_healthy h he
  rw [← hbc] at hwritten
  set b := (upsert (slicePatchRequest user label ip) (.createSlice (freshSlice label user ip)) a).2
  have hbs : ∀ k, b.cluster.services.get k = a.cluster.services.get k :=
    fun k => sliceUpsert_services label ip a
  have hbo : ∀ k, k ≠ (defaultNS, sliceName user) →
      b.cluster.slices.get k = a.cluster.slices.get k :=
    fun k hk => sliceUpsert_slices_of_ne label ip a hk
  obtain ⟨e', he', hold, hnew⟩ := ew_serves b.cluster ip hns huser
  obtain ⟨hc, hcc⟩ := upsert_healthy hb he'
  rw [← hcc, hbs] at hold hnew
  exact
    { healthy := hc
      slices := fun k hk => (ewUpsert_slices ip b).trans (hbo k hk)
      slice := (ewUpsert_slices ip b).trans hwritten
      services := fun k hk => (ewUpsert_services_of_ne ip b hk).trans (hbs k)
      service := hold
      created := hnew }

end CMXSafe.Proofs
