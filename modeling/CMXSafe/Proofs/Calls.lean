import CMXSafe.Client.Main
import CMXSafe.Kube.Watch

/-!
# What one API call can do

Whatever becomes of a call, the server either keeps its objects or takes on the effect of
the request, and it reports to the watchers just what it changes.
-/

namespace CMXSafe.Proofs
open Strings Stores

section
variable (r : Request) (a : Api)

@[simp] lemma receive_cluster : (a.receive r).cluster = a.cluster := rfl

@[simp] lemma receive_pending : (a.receive r).pending = a.pending := rfl

/-- The outcomes of a call: refused or without effect, or carried out. Only a call that is
carried out returns no error. -/
lemma call_cases :
    ((a.call r).2 = a.receive r ∧ (a.call r).1.isSome = true) ∨
      ∃ e, r.serve a.cluster = .ok e ∧ (a.call r).2 = (a.receive r).commit e := by
  unfold Api.call
  cases a.verdicts 0 with
  | refuse e => simp
  | serve => cases r.serve a.cluster <;> simp
  | loseReply e => cases r.serve a.cluster <;> simp

lemma call_sent : (a.call r).2.sent = a.sent ++ [⟨r, a.verdicts 0, a.cluster⟩] := by
  rcases call_cases r a with ⟨h, -⟩ | ⟨e, -, h⟩ <;> rw [h] <;> rfl

lemma call_failed : (a.call r).1.isSome = Sent.failed ⟨r, a.verdicts 0, a.cluster⟩ := by
  unfold Api.call Sent.failed
  cases a.verdicts 0 <;> cases r.serve a.cluster <;> rfl

lemma call_healthy_ok {r : Request} {a : Api} (h : a.Healthy)
    {e : Cluster × List (Notification Service)} (he : r.serve a.cluster = .ok e) :
    a.call r = (none, (a.receive r).commit e) := by
  simp [Api.call, h 0, he]

lemma call_healthy_error {r : Request} {a : Api} (h : a.Healthy) {e : ApiError}
    (he : r.serve a.cluster = .error e) : a.call r = (some e, a.receive r) := by
  simp [Api.call, h 0, he]

lemma healthy_call {a : Api} (h : a.Healthy) : (a.call r).2.Healthy := by
  rcases call_cases r a with ⟨h', -⟩ | ⟨e, -, h'⟩
  · rw [h']
    exact h.receive r
  · rw [h']
    exact (h.receive r).commit e

end

/-- The notifications that a request gives rise to lead from its cluster to the next. -/
lemma serve_history {r : Request} {c : Cluster} {e : Cluster × List (Notification Service)}
    (h : r.serve c = .ok e) :
    History c.services e.2 ∧ replay c.services e.2 = e.1.services := by
  cases r with
  | patchService ns name p =>
    simp only [Request.serve] at h
    split at h
    · cases h
    · rename_i s hs
      cases h
      have hkey : s.key = (ns, name) := c.services.keyed _ _ hs
      have hself : c.services.get (p.apply s).key = some s := by
        change c.services.get s.key = some s
        rw [hkey, hs]
      by_cases hp : p.apply s = s
      · rw [if_pos hp]
        refine ⟨trivial, ?_⟩
        rw [hp] at hself ⊢
        exact (Store.put_eq_self hself).symm
      · rw [if_neg hp]
        exact ⟨⟨⟨hself, fun o ho => by cases ho; rfl⟩, trivial⟩, rfl⟩
  | createService ns name body =>
    simp only [Request.serve] at h
    split_ifs at h with h1 h2
    cases h
    have hnone : c.services.get (ns, name) = none := by simpa using h1
    exact ⟨⟨⟨hnone, fun o ho => by cases ho; rfl⟩, trivial⟩, rfl⟩
  | patchSlice ns name p =>
    simp only [Request.serve] at h
    split at h
    · cases h
    · cases h
      exact ⟨trivial, rfl⟩
  | createSlice s =>
    simp only [Request.serve] at h
    split_ifs at h
    cases h
    exact ⟨trivial, rfl⟩

section
variable {c : Cluster} {e : Cluster × List (Notification Service)} {ns name : Str}

lemma serve_patchService {p : ServicePatch} (h : (Request.patchService ns name p).serve c = .ok e) :
    ∃ s, c.services.get (ns, name) = some s ∧ e.1.slices = c.slices ∧
      ∀ k, e.1.services.get k = if k = (ns, name) then some (p.apply s) else c.services.get k := by
  simp only [Request.serve] at h
  split at h
  · cases h
  · rename_i s hs
    cases h
    have hkey : s.key = (ns, name) := c.services.keyed _ _ hs
    exact ⟨s, hs, rfl, fun k => by rw [← hkey]; exact Store.get_put _ _ k⟩

lemma serve_createService {body : ServiceBody}
    (h : (Request.createService ns name body).serve c = .ok e) :
    c.services.get (ns, name) = none ∧ e.1.slices = c.slices ∧
      ∃ s : Service, s.key = (ns, name) ∧ s.toServiceBody = body ∧
        ∀ k, e.1.services.get k = if k = (ns, name) then some s else c.services.get k := by
  simp only [Request.serve] at h
  split_ifs at h with h1 h2
  cases h
  exact ⟨by simpa using h1, rfl, _, rfl, rfl, fun k => by rw [Store.get_put]; rfl⟩

lemma serve_patchSlice {p : SlicePatch} (h : (Request.patchSlice ns name p).serve c = .ok e) :
    ∃ s, c.slices.get (ns, name) = some s ∧ e.1.services = c.services ∧
      ∀ k, e.1.slices.get k = if k = (ns, name) then some (p.apply s) else c.slices.get k := by
  simp only [Request.serve] at h
  split at h
  · cases h
  · rename_i s hs
    cases h
    have hkey : s.key = (ns, name) := c.slices.keyed _ _ hs
    exact ⟨s, hs, rfl, fun k => by rw [← hkey]; exact Store.get_put _ _ k⟩

lemma serve_createSlice {s : EndpointSlice} (h : (Request.createSlice s).serve c = .ok e) :
    c.slices.get s.key = none ∧ e.1.services = c.services ∧
      ∀ k, e.1.slices.get k = if k = s.key then some s else c.slices.get k := by
  simp only [Request.serve] at h
  split_ifs at h with h1 h2
  cases h
  exact ⟨by simpa using h1, rfl, fun k => by rw [Store.get_put]⟩

lemma serve_patchService_isOk {p : ServicePatch} :
    (∃ e, (Request.patchService ns name p).serve c = .ok e) ↔
      (c.services.get (ns, name)).isSome = true := by
  cases h : c.services.get (ns, name) <;> simp [Request.serve, h]

lemma serve_patchService_notFound {p : ServicePatch} (h : c.services.get (ns, name) = none) :
    (Request.patchService ns name p).serve c = .error .notFound := by
  simp [Request.serve, h]

end

/-- The Service that a request is about. -/
def requestedService : Request → Option (Str × Str)
  | .patchService ns name _ => some (ns, name)
  | .createService ns name _ => some (ns, name)
  | _ => none

/-- The EndpointSlice that a request is about. -/
def requestedSlice : Request → Option (Str × Str)
  | .patchSlice ns name _ => some (ns, name)
  | .createSlice s => some s.key
  | _ => none

lemma serve_services_of_ne {r : Request} {c : Cluster} {e : Cluster × List (Notification Service)}
    (h : r.serve c = .ok e) {k : Str × Str} (hk : requestedService r ≠ some k) :
    e.1.services.get k = c.services.get k := by
  cases r with
  | patchService ns name p =>
    obtain ⟨s, -, -, hall⟩ := serve_patchService h
    rw [hall, if_neg (fun he : k = (ns, name) => hk (congrArg some he.symm))]
  | createService ns name body =>
    obtain ⟨-, -, s, -, -, hall⟩ := serve_createService h
    rw [hall, if_neg (fun he : k = (ns, name) => hk (congrArg some he.symm))]
  | patchSlice ns name p =>
    obtain ⟨s, -, hserv, -⟩ := serve_patchSlice h
    rw [hserv]
  | createSlice s =>
    obtain ⟨-, hserv, -⟩ := serve_createSlice h
    rw [hserv]

lemma serve_slices_of_ne {r : Request} {c : Cluster} {e : Cluster × List (Notification Service)}
    (h : r.serve c = .ok e) {k : Str × Str} (hk : requestedSlice r ≠ some k) :
    e.1.slices.get k = c.slices.get k := by
  cases r with
  | patchService ns name p =>
    obtain ⟨s, -, hsl, -⟩ := serve_patchService h
    rw [hsl]
  | createService ns name body =>
    obtain ⟨-, hsl, -⟩ := serve_createService h
    rw [hsl]
  | patchSlice ns name p =>
    obtain ⟨s, -, -, hall⟩ := serve_patchSlice h
    rw [hall, if_neg (fun he : k = (ns, name) => hk (congrArg some he.symm))]
  | createSlice s =>
    obtain ⟨-, -, hall⟩ := serve_createSlice h
    rw [hall, if_neg (fun he : k = s.key => hk (congrArg some he.symm))]

lemma isSome_serve {r : Request} {c : Cluster} {e : Cluster × List (Notification Service)}
    (h : r.serve c = .ok e) {k : Str × Str} (hk : (c.services.get k).isSome = true) :
    (e.1.services.get k).isSome = true := by
  by_cases hr : requestedService r = some k
  · cases r with
    | patchService ns name p =>
      obtain ⟨s, -, -, hall⟩ := serve_patchService h
      rw [hall, if_pos (Option.some.inj hr).symm]
      rfl
    | createService ns name body =>
      obtain ⟨-, -, s, -, -, hall⟩ := serve_createService h
      rw [hall, if_pos (Option.some.inj hr).symm]
      rfl
    | patchSlice ns name p => cases hr
    | createSlice s => cases hr
  · rw [serve_services_of_ne h hr]
    exact hk

lemma isSome_call {r : Request} {a : Api} {k : Str × Str}
    (hk : (a.cluster.services.get k).isSome = true) :
    ((a.call r).2.cluster.services.get k).isSome = true := by
  rcases call_cases r a with ⟨h, -⟩ | ⟨e, he, h⟩
  · rw [h]
    exact hk
  · rw [h]
    exact isSome_serve he hk

lemma call_services_of_ne {r : Request} (a : Api) {k : Str × Str}
    (hk : requestedService r ≠ some k) :
    (a.call r).2.cluster.services.get k = a.cluster.services.get k := by
  rcases call_cases r a with ⟨h, -⟩ | ⟨e, he, h⟩
  · rw [h]
    rfl
  · rw [h]
    exact serve_services_of_ne he hk

lemma call_slices_of_ne {r : Request} (a : Api) {k : Str × Str}
    (hk : requestedSlice r ≠ some k) :
    (a.call r).2.cluster.slices.get k = a.cluster.slices.get k := by
  rcases call_cases r a with ⟨h, -⟩ | ⟨e, he, h⟩
  · rw [h]
    rfl
  · rw [h]
    exact serve_slices_of_ne he hk

/-- What is still to be reported tells how the Services got from `a` to `b`. -/
def Reports (a b : Api) : Prop :=
  ∃ ns, b.pending = a.pending ++ ns ∧ History a.cluster.services ns ∧
    replay a.cluster.services ns = b.cluster.services

lemma Reports.refl (a : Api) : Reports a a := ⟨[], by simp, trivial, rfl⟩

lemma Reports.trans {a b c : Api} (h : Reports a b) (h' : Reports b c) : Reports a c := by
  obtain ⟨ns, hp, hh, hr⟩ := h
  obtain ⟨ns', hp', hh', hr'⟩ := h'
  rw [← hr] at hh' hr'
  exact ⟨ns ++ ns', by rw [hp', hp, List.append_assoc], history_append.mpr ⟨hh, hh'⟩,
    by rw [replay_append, hr']⟩

lemma reports_call (r : Request) (a : Api) : Reports a (a.call r).2 := by
  rcases call_cases r a with ⟨h, -⟩ | ⟨e, he, h⟩
  · rw [h]
    exact Reports.refl a
  · rw [h]
    obtain ⟨h1, h2⟩ := serve_history he
    exact ⟨e.2, rfl, h1, h2⟩

end CMXSafe.Proofs
