import CMXSafe.Proofs.Calls
import CMXSafe.Proofs.ServiceCache

/-!
# The north-south service

What `handleNSService` does to the Services, first under any outcome of its calls and then
against a server that serves them all.
-/

namespace CMXSafe.Proofs
open Strings Stores Tokens

def strip (s : Service) : Service :=
  { s with annotations := eraseKey externalDNSAnn s.annotations }

lemma removeAnnotationPatch_apply (s : Service) : removeAnnotationPatch.apply s = strip s := rfl

@[simp] lemma strip_key (s : Service) : (strip s).key = s.key := rfl

@[simp] lemma strip_hostname (s : Service) : (strip s).hostname = [] := by
  simp [ServiceBody.hostname, strip]

lemma strip_strip (s : Service) : strip (strip s) = strip s := by
  simp [strip, eraseKey_eq_self]

/-- The Service that the loop of `handleNSService` patches for an entry, if any. -/
def targetOf (primary e : Str) : Option (Str × Str) :=
  if e = [] ∨ e = primary then none
  else
    match splitN e '/' 2 with
    | [ns, name] => some (ns, name)
    | _ => none

def targets (primary : Str) (es : List Str) : List (Str × Str) := es.filterMap (targetOf primary)

abbrev stripRequest (t : Str × Str) : Request := .patchService t.1 t.2 removeAnnotationPatch

def primaryKey (user : Str) : Str × Str := (defaultNS, servicePrefix ++ user)

def primaryOf (user : Str) : Str := refBody defaultNS (servicePrefix ++ user)

/-- The Services that an event of the user strips, read off the cache. -/
def listedFor (m : SyncMap) (user : Str) : List (Str × Str) :=
  targets (primaryOf user) (pieces ';' (m.cached (servicePrefix ++ user)))

lemma targetOf_eq_some {primary e : Str} {t : Str × Str} (h : targetOf primary e = some t) :
    e = refBody t.1 t.2 ∧ e ≠ primary := by
  unfold targetOf at h
  split_ifs at h with h1
  rw [not_or] at h1
  rcases splitN_two_eq e '/' with ⟨-, hs⟩ | ⟨a, b, -, he, hs⟩
  · rw [hs] at h
    cases h
  · rw [hs] at h
    cases h
    exact ⟨he, h1.2⟩

lemma targetOf_ne {primary e : Str} {t : Str × Str} (h : targetOf primary e = some t) :
    e ≠ [] ∧ e ≠ primary := by
  obtain ⟨he, hp⟩ := targetOf_eq_some h
  refine ⟨?_, hp⟩
  rw [he]
  simp [refBody]

lemma targetOf_refBody {primary ns name : Str} (hns : '/' ∉ ns)
    (hp : refBody ns name ≠ primary) : targetOf primary (refBody ns name) = some (ns, name) := by
  have hne : refBody ns name ≠ [] := by simp [refBody]
  have hs : splitN (refBody ns name) '/' 2 = [ns, name] := splitN_two_of_mem hns rfl
  rw [targetOf, if_neg (by simp [hne, hp]), hs]

lemma targetOf_entry {primary : Str} {s : Service} (hp : s.entry ≠ primary) :
    targetOf primary s.entry = some s.key := targetOf_refBody (slash_not_mem s.named.1) hp

lemma key_ne_of_mem_targets {ns name : Str} {es : List Str} {t : Str × Str}
    (h : t ∈ targets (refBody ns name) es) : t ≠ (ns, name) := by
  rintro rfl
  obtain ⟨e, -, he⟩ := List.mem_filterMap.mp h
  obtain ⟨h1, h2⟩ := targetOf_eq_some he
  exact h2 h1

lemma targets_split (primary s : Str) :
    targets primary (split (trimSuffix s [';']) ';') = targets primary (pieces ';' s) := by
  rw [← pieces_trimSuffix, pieces, targets, targets, List.filterMap_filter]
  refine List.filterMap_congr (fun e _ => ?_)
  by_cases h : e = []
  · simp [h, targetOf]
  · simp [h]

/-- What the loop does about one target. -/
def removal (t : Str × Str) : Api → Option ApiError × Api := removeNSServiceAnnotation t.1 t.2

lemma removeDuplicates_cons (primary e : Str) (es : List Str) (a : Api) :
    removeDuplicates primary (e :: es) a =
      match targetOf primary e with
      | none => removeDuplicates primary es a
      | some t =>
        let r := removal t a
        let tmp := removeDuplicates primary es r.2
        if r.1.isSome then (e :: tmp.1, tmp.2) else tmp := by
  by_cases h : e = [] ∨ e = primary
  · simp [removeDuplicates, targetOf, h]
  · rcases splitN_two_eq e '/' with ⟨-, hs⟩ | ⟨ns, name, -, -, hs⟩
    · simp [removeDuplicates, targetOf, h, hs]
    · simp only [removeDuplicates, targetOf, if_neg h, hs]
      rfl

/-- The removals of the loop one after the other, with the entries for which they failed. -/
def removals : List (Str × Str) → Api → List Str × Api
  | [], a => ([], a)
  | t :: ts, a =>
    let r := removal t a
    let tmp := removals ts r.2
    if r.1.isSome then (refBody t.1 t.2 :: tmp.1, tmp.2) else tmp

/-- The loop depends on the targets of its entries alone. -/
theorem removeDuplicates_eq (primary : Str) (es : List Str) (a : Api) :
    removeDuplicates primary es a = removals (targets primary es) a := by
  induction es generalizing a with
  | nil => rfl
  | cons e es ih =>
    rw [removeDuplicates_cons]
    unfold targets at ih ⊢
    cases ht : targetOf primary e with
    | none =>
      rw [List.filterMap_cons_none ht]
      exact ih a
    | some t =>
      rw [List.filterMap_cons_some ht, removals, ← ih, ← (targetOf_eq_some ht).1]

/-- Whether an entry is kept does not change the server. -/
lemma keep_snd {p : Prop} [Decidable p] (e : Str) (r : List Str × Api) :
    (if p then (e :: r.1, r.2) else r).2 = r.2 := by
  split_ifs <;> rfl

lemma removal_spec (t : Str × Str) (a : Api) :
    let r := removal t a
    Reports a r.2 ∧ r.2.cluster.slices = a.cluster.slices ∧
      (∀ k, r.2.cluster.services.get k = a.cluster.services.get k ∨
        (k = t ∧ r.2.cluster.services.get k = (a.cluster.services.get k).map strip)) ∧
      (r.1 = none → (a.cluster.services.get t).isSome = true) := by
  intro r
  refine ⟨reports_call _ a, ?_⟩
  rcases call_cases (.patchService t.1 t.2 removeAnnotationPatch) a with ⟨h, he⟩ | ⟨e, hs, h⟩
  · have hr : r.2 = a.receive _ := h
    have hr1 : r.1.isSome = true := he
    refine ⟨by rw [hr]; rfl, fun k => Or.inl (by rw [hr]; rfl), ?_⟩
    intro h0
    rw [h0] at hr1
    cases hr1
  · have hr : r.2 = (a.receive _).commit e := h
    obtain ⟨s, hget, hslices, hall⟩ := serve_patchService hs
    refine ⟨by rw [hr]; exact hslices, fun k => ?_, fun _ => by rw [hget]; rfl⟩
    by_cases hk : k = t
    · right
      refine ⟨hk, ?_⟩
      rw [hr]
      change e.1.services.get k = _
      rw [hall, if_pos hk, hk, hget]
      rfl
    · left
      rw [hr]
      change e.1.services.get k = _
      rw [hall, if_neg hk]

lemma removals_kept {ts : List (Str × Str)} {a : Api} {e : Str} (h : e ∈ (removals ts a).1) :
    ∃ t ∈ ts, e = refBody t.1 t.2 := by
  induction ts generalizing a with
  | nil => cases h
  | cons t ts ih =>
    rw [removals] at h
    split_ifs at h
    · rcases List.mem_cons.mp h with rfl | h
      · exact ⟨t, by simp, rfl⟩
      · obtain ⟨u, hu, he⟩ := ih h
        exact ⟨u, by simp [hu], he⟩
    · obtain ⟨u, hu, he⟩ := ih h
      exact ⟨u, by simp [hu], he⟩

/-- The effect of the removals, whatever becomes of them. -/
theorem removals_spec (ts : List (Str × Str)) (a : Api) :
    let r := removals ts a
    Reports a r.2 ∧ r.2.cluster.slices = a.cluster.slices ∧
      (∀ k, r.2.cluster.services.get k = a.cluster.services.get k ∨
        (k ∈ ts ∧ r.2.cluster.services.get k = (a.cluster.services.get k).map strip)) ∧
      (r.1 = [] → ∀ t ∈ ts, (a.cluster.services.get t).isSome = true) := by
  induction ts generalizing a with
  | nil => exact ⟨Reports.refl a, rfl, fun k => Or.inl rfl, by simp⟩
  | cons t ts ih =>
    obtain ⟨hrep, hsl, hsv, hex⟩ := removal_spec t a
    rw [removals]
    dsimp only
    rw [keep_snd]
    generalize removal t a = r at hrep hsl hsv hex ⊢
    obtain ⟨hreports, hslices, hservices, hexist⟩ := ih r.2
    refine ⟨hrep.trans hreports, hslices.trans hsl, fun k => ?_, fun h0 u hu => ?_⟩
    · rcases hservices k with h | ⟨hk, h⟩
      · rw [h]
        rcases hsv k with h' | ⟨hk, h'⟩
        · exact Or.inl h'
        · exact Or.inr ⟨by simp [hk], h'⟩
      · right
        refine ⟨by simp [hk], ?_⟩
        rw [h]
        rcases hsv k with h' | ⟨-, h'⟩
        · rw [h']
        · rw [h']
          cases a.cluster.services.get k with
          | none => rfl
          | some s => simp [strip_strip]
    · split_ifs at h0 with h1
      have hnone : r.1 = none := by simpa using h1
      rcases List.mem_cons.mp hu with rfl | hu
      · exact hex hnone
      · have hu' := hexist h0 u hu
        rcases hsv u with h' | ⟨-, h'⟩
        · rwa [h'] at hu'
        · rw [h'] at hu'
          simpa using hu'

lemma servicePrefix_append_ne_nil (user : Str) : servicePrefix ++ user ≠ [] :=
  List.append_ne_nil_of_left_ne_nil (by decide +kernel) _

lemma primaryKey_not_listed (m : SyncMap) (user : Str) : primaryKey user ∉ listedFor m user :=
  fun h => key_ne_of_mem_targets h rfl

lemma primaryKey_ne_bare (ns user : Str) : primaryKey user ≠ (ns, user) := by
  intro hk
  have hlen := congrArg List.length (Prod.ext_iff.mp hk).2
  have hpos : 0 < servicePrefix.length := by decide +kernel
  simp only [primaryKey, List.length_append] at hlen
  omega

def nsLoop (user : Str) (a : Api) (m : SyncMap) : List Str × Api :=
  removeDuplicates (primaryOf user)
    (split (trimSuffix (m.cached (servicePrefix ++ user)) [';']) ';') a

/-- The loop removes the host names of the Services listed besides the primary. -/
lemma nsLoop_eq (user : Str) (a : Api) (m : SyncMap) :
    nsLoop user a m = removals (listedFor m user) a := by
  rw [nsLoop, removeDuplicates_eq, targets_split, listedFor]

/-- The loop never keeps the primary entry, so the exit that would patch the primary
Service is not taken: `patchNSService` is never called. -/
theorem handleNSService_eq (user : Str) (a : Api) (m : SyncMap) :
    handleNSService servicePrefix user serviceSuffix a m =
      if (nsLoop user a m).1 = [] then
        (servicePrefix ++ user,
          (createNSService servicePrefix user serviceSuffix (nsLoop user a m).2).2,
          appendToServiceCache (m.loadOrStore (servicePrefix ++ user) []).2
            (servicePrefix ++ user) (primaryOf user ++ [';']))
      else ([], (nsLoop user a m).2, (m.loadOrStore (servicePrefix ++ user) []).2) := by
  have hmem : (nsLoop user a m).1 ≠ [primaryOf user] := by
    intro h
    -- the entry kept would be the primary
    obtain ⟨t, ht, he⟩ : ∃ t ∈ listedFor m user, primaryOf user = refBody t.1 t.2 :=
      removals_kept (by rw [← nsLoop_eq, h]; simp)
    obtain ⟨e, -, htarget⟩ := List.mem_filterMap.mp ht
    obtain ⟨heq, hne⟩ := targetOf_eq_some htarget
    exact hne (heq.trans he.symm)
  unfold handleNSService
  dsimp only
  rw [SyncMap.loadOrStore_fst]
  change (if (nsLoop user a m).1.length = 0 then _ else
    if (nsLoop user a m).1 = [primaryOf user] then _ else _) = _
  rw [if_neg hmem]
  simp only [List.length_eq_zero_iff]
  rfl

/-! ## Against a server that serves every call -/

lemma removal_healthy {a : Api} (h : a.Healthy) (t : Str × Str) :
    let r := removal t a
    r.2.Healthy ∧ (r.1 = none ↔ (a.cluster.services.get t).isSome = true) ∧
      ∀ k, r.2.cluster.services.get k =
        if k = t then (a.cluster.services.get k).map strip else a.cluster.services.get k := by
  intro r
  refine ⟨healthy_call _ h, ?_⟩
  cases hget : a.cluster.services.get t with
  | none =>
    have hr : r = (some .notFound, a.receive _) :=
      call_healthy_error h (serve_patchService_notFound hget)
    refine ⟨by simp [hr], fun k => ?_⟩
    rw [hr]
    change a.cluster.services.get k = _
    by_cases hk : k = t
    · simp [hk, hget]
    · simp [hk]
  | some s =>
    obtain ⟨e, he⟩ := (serve_patchService_isOk (p := removeAnnotationPatch)).mpr
      (by rw [show (t.1, t.2) = t from rfl, hget]; rfl)
    have hr : r = (none, (a.receive _).commit e) := call_healthy_ok h he
    obtain ⟨s', hget', -, hall⟩ := serve_patchService he
    refine ⟨by simp [hr], fun k => ?_⟩
    rw [hr]
    change e.1.services.get k = _
    rw [hall]
    by_cases hk : k = t
    · rw [if_pos hk, if_pos hk, hk, show t = (t.1, t.2) from rfl, hget']
      rfl
    · rw [if_neg hk, if_neg hk]

/-- Against a healthy server the loop strips every target that exists, and keeps no entry
exactly when they all do. -/
theorem removals_healthy (ts : List (Str × Str)) {a : Api} (h : a.Healthy) :
    let r := removals ts a
    r.2.Healthy ∧
      (r.1 = [] ↔ ∀ t ∈ ts, (a.cluster.services.get t).isSome = true) ∧
      ∀ k, r.2.cluster.services.get k =
        if k ∈ ts then (a.cluster.services.get k).map strip
        else a.cluster.services.get k := by
  induction ts generalizing a with
  | nil => exact ⟨h, by simp [removals], fun k => by simp [removals]⟩
  | cons t ts ih =>
    obtain ⟨h1, hnone, hget⟩ := removal_healthy h t
    rw [removals]
    dsimp only
    rw [keep_snd]
    generalize removal t a = r at h1 hnone hget ⊢
    obtain ⟨h2, hkept, hall⟩ := ih h1
    have hexist : ∀ k, (r.2.cluster.services.get k).isSome =
        (a.cluster.services.get k).isSome := by
      intro k
      rw [hget]
      split_ifs
      · simp
      · rfl
    refine ⟨h2, ?_, fun k => ?_⟩
    · by_cases hr : r.1 = none
      · rw [if_neg (by simp [hr]), hkept]
        simp only [List.mem_cons, forall_eq_or_imp, hexist, hnone.mp hr, true_and]
      · rw [if_pos (by simpa [Option.isSome_iff_ne_none] using hr)]
        simp only [reduceCtorEq, List.mem_cons, forall_eq_or_imp, false_iff, not_and]
        exact fun hs => absurd (hnone.mpr hs) hr
    · rw [hall, hget]
      by_cases hk : k = t
      · cases a.cluster.services.get k <;> simp [hk, strip_strip]
      · simp [hk]

lemma nsLoop_healthy (user : Str) {a : Api} (h : a.Healthy) (m : SyncMap) :
    (nsLoop user a m).2.Healthy ∧
      ((nsLoop user a m).1 = [] ↔
        ∀ t ∈ listedFor m user, (a.cluster.services.get t).isSome = true) ∧
      ∀ k, (nsLoop user a m).2.cluster.services.get k =
        if k ∈ listedFor m user then (a.cluster.services.get k).map strip
        else a.cluster.services.get k := by
  rw [nsLoop_eq]
  exact removals_healthy (listedFor m user) h

lemma createNSService_healthy {a : Api} (h : a.Healthy) (user : Str) :
    let r := createNSService servicePrefix user serviceSuffix a
    let k := (defaultNS, servicePrefix ++ user)
    r.2.Healthy ∧ r.2.cluster.slices = a.cluster.slices ∧
      (∀ l, l ≠ k → r.2.cluster.services.get l = a.cluster.services.get l) ∧
      (∀ p, a.cluster.services.get k = some p → r.2.cluster.services.get k = some p) ∧
      (a.cluster.services.get k = none → acceptsName (servicePrefix ++ user) = false →
        r.2.cluster.services.get k = none) ∧
      (a.cluster.services.get k = none → acceptsName (servicePrefix ++ user) = true →
        ∃ p, r.2.cluster.services.get k = some p ∧
          p.toServiceBody = nsServiceBody servicePrefix user serviceSuffix) := by
  intro r k
  have hns : acceptsName defaultNS = true := by decide +kernel
  refine ⟨healthy_call _ h, ?_⟩
  cases hget : a.cluster.services.get k with
  | some p =>
    have he : (Request.createService defaultNS (servicePrefix ++ user)
        (nsServiceBody servicePrefix user serviceSuffix)).serve a.cluster =
        .error .alreadyExists := by
      simp only [k] at hget
      simp [Request.serve, hget]
    have hr : r = (some .alreadyExists, a.receive _) := call_healthy_error h he
    rw [hr]
    exact ⟨rfl, fun l _ => rfl, fun q hq => hq ▸ hget, by simp, by simp⟩
  | none =>
    cases hname : acceptsName (servicePrefix ++ user) with
    | false =>
      have he : (Request.createService defaultNS (servicePrefix ++ user)
          (nsServiceBody servicePrefix user serviceSuffix)).serve a.cluster = .error .other := by
        simp only [k] at hget
        simp [Request.serve, hget, hname]
      have hr : r = (some .other, a.receive _) := call_healthy_error h he
      rw [hr]
      exact ⟨rfl, fun l _ => rfl, by simp, fun _ _ => hget, by simp⟩
    | true =>
      have hok : ∃ e, (Request.createService defaultNS (servicePrefix ++ user)
          (nsServiceBody servicePrefix user serviceSuffix)).serve a.cluster = .ok e := by
        simp only [k] at hget
        simp [Request.serve, hget, hname, hns]
      obtain ⟨e, he⟩ := hok
      have hr : r = (none, (a.receive _).commit e) := call_healthy_ok h he
      obtain ⟨-, hslices, s, hkey, hbody, hall⟩ := serve_createService he
      rw [hr]
      refine ⟨hslices, fun l hl => ?_, by simp, by simp, fun _ _ => ⟨s, ?_, hbody⟩⟩
      · change e.1.services.get l = _
        rw [hall, if_neg hl]
      · change e.1.services.get k = _
        rw [hall, if_pos rfl]

end CMXSafe.Proofs
