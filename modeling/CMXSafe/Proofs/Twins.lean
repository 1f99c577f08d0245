import CMXSafe.Proofs.Events

/-!
# Two servers that differ in their backlog

Two healthy servers with the same objects answer alike and report the same changes,
whatever each of them still has to deliver. Entries that name Services without a host name
make no difference to `handleNSService`.
-/

namespace CMXSafe.Proofs
open Strings Stores Tokens

/-- Two healthy servers with the same objects, which have reported the same changes since
their backlogs were `p` and `q`. -/
structure Twin (p q : List (Notification Service)) (a b : Api) : Prop where
  left : a.Healthy
  right : b.Healthy
  cluster : a.cluster = b.cluster
  reported : ∃ n, a.pending = p ++ n ∧ b.pending = q ++ n

namespace Twin

variable {p q r : List (Notification Service)} {a b c : Api}

lemma refl (h : a.Healthy) (hp : p = a.pending) : Twin p p a a :=
  ⟨h, h, rfl, [], by simp [hp], by simp [hp]⟩

lemma trans (h : Twin p q a b) (h' : Twin q r b c) : Twin p r a c := by
  obtain ⟨n, hn, hn'⟩ := h.reported
  obtain ⟨m, hm, hm'⟩ := h'.reported
  have hnm : n = m := List.append_cancel_left (hn'.symm.trans hm)
  exact ⟨h.left, h'.right, h.cluster.trans h'.cluster, n, hn, hnm ▸ hm'⟩

lemma weaken {n : List (Notification Service)} (h : Twin (p ++ n) (q ++ n) a b) :
    Twin p q a b := by
  obtain ⟨m, hm, hm'⟩ := h.reported
  exact ⟨h.left, h.right, h.cluster, n ++ m, by rw [hm, List.append_assoc],
    by rw [hm', List.append_assoc]⟩

theorem call (h : Twin p q a b) (x : Request) :
    (a.call x).1 = (b.call x).1 ∧ Twin p q (a.call x).2 (b.call x).2 := by
  obtain ⟨n, hn, hn'⟩ := h.reported
  cases hs : x.serve a.cluster with
  | error e =>
    rw [call_healthy_error h.left hs, call_healthy_error h.right (h.cluster ▸ hs)]
    exact ⟨rfl, h.left.receive x, h.right.receive x, h.cluster, n, hn, hn'⟩
  | ok e =>
    rw [call_healthy_ok h.left hs, call_healthy_ok h.right (h.cluster ▸ hs)]
    refine ⟨rfl, (h.left.receive x).commit e, (h.right.receive x).commit e, rfl, n ++ e.2,
      ?_, ?_⟩
    · change a.pending ++ e.2 = _
      rw [hn, List.append_assoc]
    · change b.pending ++ e.2 = _
      rw [hn', List.append_assoc]

lemma upsert (h : Twin p q a b) (x y : Request) :
    Twin p q (upsert x y a).2 (upsert x y b).2 := by
  obtain ⟨he, ht⟩ := h.call x
  unfold Proofs.upsert
  dsimp only
  rw [he]
  split_ifs
  · exact (ht.call y).2
  · exact ht

lemma writeRoutes (h : Twin p q a b) (ns user label ip : Str) :
    Twin p q (writeRoutes ns user label ip a) (writeRoutes ns user label ip b) := by
  rw [writeRoutes_eq, writeRoutes_eq]
  exact (h.upsert _ _).upsert _ _

end Twin

/-- A Service that is there, without a host name. -/
def Unnamed (c : Cluster) (t : Str × Str) : Prop :=
  ∃ s, c.services.get t = some s ∧ strip s = s

/-- The removal patch changes nothing about a Service without a host name. -/
lemma removal_unnamed {a : Api} (h : a.Healthy) {t : Str × Str}
    (ht : Unnamed a.cluster t) :
    (removal t a).1 = none ∧
      Twin a.pending a.pending (removal t a).2 a := by
  obtain ⟨s, hs, hstrip⟩ := ht
  have hkey : s.key = t := a.cluster.services.keyed _ _ hs
  have hserve : (Request.patchService t.1 t.2 removeAnnotationPatch).serve a.cluster =
      .ok (a.cluster, []) := by
    simp only [Request.serve, hs, removeAnnotationPatch_apply, hstrip, if_true]
    rw [Store.put_eq_self (hkey ▸ hs)]
  have hcall := call_healthy_ok h hserve
  unfold removal removeNSServiceAnnotation
  rw [hcall]
  exact ⟨rfl, (h.receive _).commit _, h, rfl, [], rfl, by simp⟩

lemma unnamed_removal {a : Api} (h : a.Healthy) {t : Str × Str} (ht : Unnamed a.cluster t)
    (u : Str × Str) : Unnamed (removal u a).2.cluster t := by
  obtain ⟨s, hs, hstrip⟩ := ht
  refine ⟨s, ?_, hstrip⟩
  rw [(removal_healthy h u).2.2 t, hs]
  split_ifs
  · rw [Option.map_some, hstrip]
  · rfl

/-- Dropping Services without a host name from the list of the loop. -/
theorem removals_filter (ts : List (Str × Str)) (keep : Str × Str → Bool) {a b : Api}
    {p q : List (Notification Service)} (h : Twin p q a b)
    (hdrop : ∀ t ∈ ts, keep t = false → Unnamed a.cluster t) :
    ((removals ts a).1 = [] ↔ (removals (ts.filter keep) b).1 = []) ∧
      Twin p q (removals ts a).2 (removals (ts.filter keep) b).2 := by
  induction ts generalizing a b with
  | nil => exact ⟨Iff.rfl, h⟩
  | cons t ts ih =>
    have hrest : ∀ u ∈ ts, keep u = false →
        Unnamed (removal t a).2.cluster u :=
      fun u hu hku => unnamed_removal h.left (hdrop u (by simp [hu]) hku) t
    rw [removals]
    by_cases hk : keep t = true
    · -- both servers are patched
      obtain ⟨herr, htwin⟩ := h.call (.patchService t.1 t.2 removeAnnotationPatch)
      obtain ⟨hkept, hafter⟩ := ih htwin hrest
      rw [List.filter_cons_of_pos hk, removals]
      rw [show (removal t a).1 =
        (removal t b).1 from herr]
      split_ifs
      · exact ⟨by simp, hafter⟩
      · exact ⟨hkept, hafter⟩
    · -- only the left server is patched, to no effect
      have hunnamed := hdrop t (by simp) (by simpa using hk)
      obtain ⟨hnone, hsame⟩ := removal_unnamed h.left hunnamed
      obtain ⟨n, hn, -⟩ := h.reported
      have htwin : Twin p q (removal t a).2 b :=
        (hn ▸ hsame : Twin (p ++ n) (p ++ n) _ a).weaken.trans h
      rw [List.filter_cons_of_neg hk, if_neg (by simp [hnone])]
      exact ih htwin hrest

/-- Taking a Service off the listed entries takes it off their targets. -/
lemma targets_filter_ne {primary : Str} {s : Service} (hne : s.entry ≠ primary) (es : List Str) :
    targets primary (es.filter (· ≠ s.entry)) = (targets primary es).filter (· ≠ s.key) := by
  rw [targets, targets, List.filterMap_filter, List.filter_filterMap]
  refine List.filterMap_congr (fun e _ => ?_)
  by_cases he : e = s.entry
  · simp [he, targetOf_entry hne, Option.filter_some]
  · cases ht : targetOf primary e with
    | none => simp [he]
    | some t =>
      have hkey : t ≠ s.key := by
        rintro rfl
        exact he (targetOf_eq_some ht).1
      simp [he, hkey, Option.filter_some]

lemma twin_nsService {p q : List (Notification Service)} {user : Str} {a b : Api}
    {m m' : SyncMap} (hk : (nsLoop user a m).1 = [] ↔ (nsLoop user b m').1 = [])
    (h : Twin p q (nsLoop user a m).2 (nsLoop user b m').2) :
    (nsService user a m).1 = (nsService user b m').1 ∧
      Twin p q (nsService user a m).2.1 (nsService user b m').2.1 := by
  rw [nsService, nsService, handleNSService_eq, handleNSService_eq]
  by_cases hnil : (nsLoop user a m).1 = []
  · rw [if_pos hnil, if_pos (hk.mp hnil)]
    exact ⟨rfl, (h.call _).2⟩
  · rw [if_neg hnil, if_neg (fun h' => hnil (hk.mpr h'))]
    exact ⟨rfl, h⟩

end CMXSafe.Proofs
