import CMXSafe.Proofs.Establish
import CMXSafe.Proofs.Events
import CMXSafe.Proofs.InPlace

/-!
# When a returned label is real

`handleNSService` discards the error of the creation and appends the primary reference all
the same. Its label is real exactly when the loop gave up before that, or the creation was
not needed, or it worked.
-/

namespace CMXSafe.Proofs
open Strings Stores Tokens

/-- A call is served or refused, no reply is lost. -/
def Answered (a : Api) : Prop := ∀ n e, a.verdicts n ≠ .loseReply e

/-- The entry is that of a Service of the cluster. -/
def NamesService (c : Cluster) (e : Str) : Prop :=
  ∃ k, (c.services.get k).isSome = true ∧ e = refBody k.1 k.2

/-- What the label of a user says about the cluster and the cache that it leaves behind. -/
structure RealLabel (user : Str) (a : Api) (m : SyncMap) (r : Str × Api × SyncMap) : Prop where
  label : r.1 ≠ [] → ∃ p, r.2.1.cluster.services.get (defaultNS, r.1) = some p ∧
    p.hostname = hostOf user
  empty : r.1 = [] → r.2.2.cached (servicePrefix ++ user) = m.cached (servicePrefix ++ user) ∧
    ∃ log, r.2.1.sent = a.sent ++ log ∧ ∃ x ∈ log, x.failed = true ∧
      ∃ t, t ≠ primaryKey user ∧ x.request = stripRequest t
  gained : ∀ e ∈ pieces ';' (r.2.2.cached (servicePrefix ++ user)),
    e ∉ pieces ';' (m.cached (servicePrefix ++ user)) → NamesService r.2.1.cluster e

/-- Every removal finds its Service, and is served. -/
def AllStripped (user : Str) (a : Api) (m : SyncMap) : Prop :=
  ∀ i t, (listedFor m user)[i]? = some t →
    a.verdicts i = .serve ∧ (a.cluster.services.get t).isSome = true

/-- The primary Service is there with the host name of the user, or is not there and can be
created by the call behind the removals. -/
def PrimaryStands (user : Str) (a : Api) (m : SyncMap) : Prop :=
  (∃ p, a.cluster.services.get (primaryKey user) = some p ∧ p.hostname = hostOf user) ∨
    a.cluster.services.get (primaryKey user) = none ∧
      a.verdicts (listedFor m user).length = .serve ∧ acceptsName (servicePrefix ++ user) = true

/-- What stands in a list behind its last separator. -/
def openEnd (s : Str) : Str := s.rtakeWhile (· ≠ ';')

/-- The primary reference is found in the list, or what becomes of it behind the open end of
the list is the primary entry, or listed already, or the entry of a Service. -/
def AppendsReal (user : Str) (a : Api) (m : SyncMap) : Prop :=
  contains (m.cached (servicePrefix ++ user)) (primaryOf user ++ [';']) = true ∨
    ∀ e ∈ pieces ';' (openEnd (m.cached (servicePrefix ++ user)) ++ primaryOf user),
      e = primaryOf user ∨ e ∈ pieces ';' (m.cached (servicePrefix ++ user)) ∨
        NamesService a.cluster e

lemma call_verdicts (r : Request) (a : Api) :
    (a.call r).2.verdicts = fun n => a.verdicts (n + 1) := by
  rcases call_cases r a with ⟨h, -⟩ | ⟨e, -, h⟩ <;> rw [h] <;> rfl

lemma Answered.call {a : Api} (h : Answered a) (r : Request) : Answered (a.call r).2 := by
  intro n e
  rw [call_verdicts]
  exact h (n + 1) e

lemma call_answered {a : Api} (h : Answered a) (r : Request) :
    (a.verdicts 0 = .serve ∧ ∃ e, r.serve a.cluster = .ok e ∧
        a.call r = (none, (a.receive r).commit e)) ∨
      ((a.call r).1.isSome = true ∧ (a.call r).2 = a.receive r ∧
        ¬(a.verdicts 0 = .serve ∧ ∃ e, r.serve a.cluster = .ok e)) := by
  have h0 := h 0
  unfold Api.call
  cases hv : a.verdicts 0 with
  | loseReply e => exact absurd hv (h0 e)
  | refuse e => simp
  | serve => cases r.serve a.cluster <;> simp

/-- A removal against a server that answers. -/
lemma removal_answered {a : Api} (h : Answered a) (t : Str × Str) :
    let r := removal t a
    (∀ k, (r.2.cluster.services.get k).isSome = (a.cluster.services.get k).isSome) ∧
      (r.1 = none ↔ a.verdicts 0 = .serve ∧ (a.cluster.services.get t).isSome = true) := by
  intro r
  obtain ⟨-, -, hservices, -⟩ := removal_spec t a
  refine ⟨fun k => ?_, ?_⟩
  · rcases hservices k with hk | ⟨-, hk⟩ <;> rw [hk]
    simp
  · have hok : (∃ e, (stripRequest t).serve a.cluster = .ok e) ↔
        (a.cluster.services.get t).isSome = true := serve_patchService_isOk
    rcases call_answered h (stripRequest t) with ⟨hv, e, he, hcall⟩ | ⟨hsome, -, hno⟩
    · have hr : r.1 = none := congrArg Prod.fst hcall
      exact ⟨fun _ => ⟨hv, hok.mp ⟨e, he⟩⟩, fun _ => hr⟩
    · have hr : r.1.isSome = true := hsome
      constructor
      · intro hnone
        rw [hnone] at hr
        cases hr
      · rintro ⟨hv, hget⟩
        exact absurd ⟨hv, hok.mpr hget⟩ hno

/-- The removals against a server that answers: each uses up a verdict, none creates or
deletes, and no entry is kept just when they all work. -/
theorem removals_answered (ts : List (Str × Str)) {a : Api} (h : Answered a) :
    let r := removals ts a
    Answered r.2 ∧ r.2.verdicts = (fun n => a.verdicts (n + ts.length)) ∧
      (∀ k, (r.2.cluster.services.get k).isSome = (a.cluster.services.get k).isSome) ∧
      (r.1 = [] ↔ ∀ i t, ts[i]? = some t →
        a.verdicts i = .serve ∧ (a.cluster.services.get t).isSome = true) := by
  induction ts generalizing a with
  | nil => exact ⟨h, rfl, fun _ => rfl, by simp [removals]⟩
  | cons t ts ih =>
    obtain ⟨hexist, hnone⟩ := removal_answered h t
    have hans : Answered (removal t a).2 := h.call _
    have hverdicts : (removal t a).2.verdicts =
        fun n => a.verdicts (n + 1) := call_verdicts _ a
    rw [removals]
    dsimp only
    rw [keep_snd]
    generalize removal t a = r at hexist hnone hans hverdicts ⊢
    obtain ⟨hans', hverdicts', hexist', hkept⟩ := ih hans
    refine ⟨hans', ?_, fun k => (hexist' k).trans (hexist k), ?_⟩
    · rw [hverdicts', hverdicts]
      funext n
      rw [List.length_cons, ← Nat.add_assoc]
    · simp only [hverdicts, hexist] at hkept
      by_cases hr : r.1 = none
      · rw [if_neg (by simp [hr]), hkept]
        constructor
        · intro hall i t' hi
          cases i with
          | zero =>
            cases hi
            exact hnone.mp hr
          | succ i => exact hall i t' hi
        · exact fun hall i t' hi => hall (i + 1) t' hi
      · rw [if_pos (by simpa [Option.isSome_iff_ne_none] using hr)]
        constructor
        · intro hcons
          cases hcons
        · exact fun hall => absurd (hnone.mpr (hall 0 t rfl)) hr

lemma openEnd_spec (s : Str) :
    ∃ pre, s = pre ++ openEnd s ∧ (pre = [] ∨ ∃ q, pre = q ++ [';']) := by
  refine ⟨s.rdropWhile (· ≠ ';'), List.rdropWhile_append_rtakeWhile.symm, ?_⟩
  by_cases hnil : s.rdropWhile (· ≠ ';') = []
  · exact Or.inl hnil
  · right
    have hlast := List.rdropWhile_last_not (fun c => decide (c ≠ ';')) s hnil
    have hlast' : (s.rdropWhile (· ≠ ';')).getLast hnil = ';' := by simpa using hlast
    have hsplit := List.dropLast_append_getLast hnil
    rw [hlast'] at hsplit
    exact ⟨_, hsplit.symm⟩

/-- What appending a reference adds to the pieces of a list. -/
lemma mem_pieces_append {s p e : Str} (he : e ∉ pieces ';' s) :
    e ∈ pieces ';' (s ++ (p ++ [';'])) ↔ e ∈ pieces ';' (openEnd s ++ p) := by
  have hclose : ∀ t : Str, pieces ';' (t ++ [';']) = pieces ';' t := by
    intro t
    rw [pieces_append, pieces_nil, List.append_nil]
  obtain ⟨pre, hs, rfl | ⟨q, rfl⟩⟩ := openEnd_spec s
  · rw [← List.append_assoc, hclose]
    conv_lhs => rw [hs, List.nil_append]
  · have hq : e ∉ pieces ';' q := by
      intro hin
      refine he ?_
      rw [hs, List.append_assoc, List.singleton_append, pieces_append]
      exact List.mem_append_left _ hin
    have htext : s ++ (p ++ [';']) = q ++ ';' :: (openEnd s ++ p ++ [';']) := by
      conv_lhs => rw [hs]
      simp
    rw [htext, pieces_append, hclose, List.mem_append]
    exact or_iff_right hq

/-- The Service that the label of a user names, behind the creation. -/
lemma createNSService_stands {a : Api} (h : Answered a) (user : Str) :
    (∃ p, (createNSService servicePrefix user serviceSuffix a).2.cluster.services.get
        (primaryKey user) = some p ∧ p.hostname = hostOf user) ↔
      (∃ p, a.cluster.services.get (primaryKey user) = some p ∧ p.hostname = hostOf user) ∨
        a.cluster.services.get (primaryKey user) = none ∧ a.verdicts 0 = .serve ∧
          acceptsName (servicePrefix ++ user) = true := by
  rcases call_answered h (.createService defaultNS (servicePrefix ++ user)
    (nsServiceBody servicePrefix user serviceSuffix)) with ⟨hv, e, he, hcall⟩ | ⟨-, hcall, hno⟩
  · obtain ⟨hnone, -, s, hkey, hbody, hall⟩ := serve_createService he
    have hget : (createNSService servicePrefix user serviceSuffix a).2.cluster.services.get
        (primaryKey user) = some s := by
      rw [createNSService, hcall]
      change e.1.services.get (primaryKey user) = _
      rw [hall, primaryKey, if_pos rfl]
    have hhost : s.hostname = hostOf user := by
      rw [ServiceBody.hostname, (meetsSpec_of_body hbody).2.1, Option.getD_some]
    have hname : s.name = servicePrefix ++ user := (Prod.ext_iff.mp hkey).2
    have haccepts := s.named.2
    rw [hname] at haccepts
    exact ⟨fun _ => Or.inr ⟨hnone, hv, haccepts⟩, fun _ => ⟨s, hget, hhost⟩⟩
  · have hsame : (createNSService servicePrefix user serviceSuffix a).2.cluster = a.cluster := by
      rw [createNSService, hcall]
      rfl
    rw [hsame]
    refine (or_iff_left ?_).symm
    rintro ⟨hnone, hv, hname⟩
    refine hno ⟨hv, ?_⟩
    have hfree : a.cluster.services.get (defaultNS, servicePrefix ++ user) = none := hnone
    simp [Request.serve, hfree, hname, acceptsName_defaultNS]

section
variable {user : Str} {a : Api} {m : SyncMap}

lemma nsLoop_answered (user : Str) (m : SyncMap) (h : Answered a) :
    Answered (nsLoop user a m).2 ∧
      (nsLoop user a m).2.verdicts = (fun n => a.verdicts (n + (listedFor m user).length)) ∧
      (∀ k, ((nsLoop user a m).2.cluster.services.get k).isSome =
        (a.cluster.services.get k).isSome) ∧
      ((nsLoop user a m).1 = [] ↔ AllStripped user a m) := by
  rw [nsLoop_eq]
  exact removals_answered (listedFor m user) h

/-- A call that gives up says so truly. -/
lemma realLabel_of_kept (h : (nsLoop user a m).1 ≠ []) :
    RealLabel user a m (handleNSService servicePrefix user serviceSuffix a m) := by
  rw [handleNSService_eq, if_neg h]
  have hcached := SyncMap.cached_loadOrStore m (servicePrefix ++ user) (servicePrefix ++ user)
  refine ⟨fun hne => absurd rfl hne, fun _ => ⟨hcached, ?_⟩, fun e he hnot => ?_⟩
  · obtain ⟨log, hsent, hrequests, hkept⟩ := removals_log (listedFor m user) a
    rw [← nsLoop_eq] at hsent hkept
    refine ⟨log, hsent, ?_⟩
    rw [hkept, ne_eq, List.map_eq_nil_iff] at h
    obtain ⟨⟨t, x⟩, hx⟩ := List.exists_mem_of_ne_nil _ h
    obtain ⟨hzip, hfailed⟩ := List.mem_filter.mp hx
    have hmem : x ∈ log := (List.of_mem_zip hzip).2
    have hreq : x.request ∈ log.map Sent.request := List.mem_map_of_mem hmem
    rw [hrequests] at hreq
    obtain ⟨t', ht', hreq'⟩ := List.mem_map.mp hreq
    exact ⟨x, hmem, hfailed, t', key_ne_of_mem_targets ht', hreq'.symm⟩
  · exact absurd (hcached ▸ he) hnot

lemma namesService_after (hexist : ∀ k, ((nsLoop user a m).2.cluster.services.get k).isSome =
    (a.cluster.services.get k).isSome) (e : Str) :
    NamesService
        (createNSService servicePrefix user serviceSuffix (nsLoop user a m).2).2.cluster e →
      NamesService a.cluster e ∨ e = primaryOf user := by
  rintro ⟨k, hk, rfl⟩
  rcases createNSService_services user (nsLoop user a m).2 k with h | ⟨hp, -⟩
  · rw [h, hexist] at hk
    exact Or.inl ⟨k, hk, rfl⟩
  · exact Or.inr (by rw [hp]; rfl)

lemma namesService_before (hexist : ∀ k, ((nsLoop user a m).2.cluster.services.get k).isSome =
    (a.cluster.services.get k).isSome) {e : Str} (h : NamesService a.cluster e) :
    NamesService (createNSService servicePrefix user serviceSuffix (nsLoop user a m).2).2.cluster
      e := by
  obtain ⟨k, hk, rfl⟩ := h
  rw [← hexist] at hk
  exact ⟨k, isSome_call hk, rfl⟩

/-- Where the loop keeps nothing, the label is real just if the primary Service is there in
the end and the append gains nothing else. -/
lemma realLabel_iff_of_stripped (ha : Answered a) (h : (nsLoop user a m).1 = []) :
    RealLabel user a m (handleNSService servicePrefix user serviceSuffix a m) ↔
      PrimaryStands user a m ∧ AppendsReal user a m := by
  obtain ⟨hans, hverdicts, hexist, -⟩ := nsLoop_answered user m ha
  have hpk : (nsLoop user a m).2.cluster.services.get (primaryKey user) =
      a.cluster.services.get (primaryKey user) := by
    rcases (nsLoop_spec user a m).2.2.1 (primaryKey user) with hk | ⟨hk, -⟩
    · exact hk
    · exact absurd hk (primaryKey_not_listed m user)
  have hstands := createNSService_stands hans user
  rw [hpk, hverdicts] at hstands
  dsimp only at hstands
  rw [Nat.zero_add] at hstands
  have hcached := (nsService_spec user a m).cached
  rw [nsService, handleNSService_eq, if_pos h] at hcached
  rw [if_neg (servicePrefix_append_ne_nil user)] at hcached
  rw [handleNSService_eq, if_pos h]
  constructor
  · intro hreal
    refine ⟨hstands.mp (hreal.label (servicePrefix_append_ne_nil user)), ?_⟩
    by_cases hin : contains (m.cached (servicePrefix ++ user)) (primaryOf user ++ [';']) = true
    · exact Or.inl hin
    · refine Or.inr (fun e he => ?_)
      by_cases hlisted : e ∈ pieces ';' (m.cached (servicePrefix ++ user))
      · exact Or.inr (Or.inl hlisted)
      · have hafter := hreal.gained e
        rw [hcached, appendVal, if_neg hin, mem_pieces_append hlisted] at hafter
        rcases namesService_after hexist e (hafter he hlisted) with hnames | hp
        · exact Or.inr (Or.inr hnames)
        · exact Or.inl hp
  · rintro ⟨hprimary, happend⟩
    obtain ⟨p, hp, hhost⟩ := hstands.mpr hprimary
    refine ⟨fun _ => ⟨p, hp, hhost⟩, fun he => absurd he (servicePrefix_append_ne_nil user), ?_⟩
    intro e he hnot
    rw [hcached, appendVal] at he
    split_ifs at he with hin
    · exact absurd he hnot
    · rw [mem_pieces_append hnot] at he
      rcases (happend.resolve_left hin) e he with rfl | hlisted | hnames
      · exact ⟨primaryKey user, by rw [hp]; rfl, rfl⟩
      · exact absurd hlisted hnot
      · exact namesService_before hexist hnames

/-- Against a server that answers, the label of a user is real if and only if some removal
fails, or the primary Service stands and its reference is appended to a closed list. -/
theorem label_real_iff (ha : Answered a) (user : Str) (m : SyncMap) :
    RealLabel user a m (handleNSService servicePrefix user serviceSuffix a m) ↔
      ¬AllStripped user a m ∨ PrimaryStands user a m ∧ AppendsReal user a m := by
  have hnil := (nsLoop_answered user m ha).2.2.2
  by_cases h : (nsLoop user a m).1 = []
  · rw [realLabel_iff_of_stripped ha h, or_iff_right (not_not.mpr (hnil.mp h))]
  · exact ⟨fun _ => Or.inl (fun hall => h (hnil.mpr hall)), fun _ => realLabel_of_kept h⟩

end

/-- A server that refuses one call, with the Services that the cache lists. -/
def sharedApi (i : Nat) : Api := { healthyApi sharedCluster with verdicts := refuseAt i }

lemma sharedApi_answered (i : Nat) : Answered (sharedApi i) := by
  intro n e h
  change refuseAt i n = _ at h
  unfold refuseAt at h
  split_ifs at h

/-- The label is empty where the removal is refused, and real where the creation is. -/
theorem label_real_iff_shared :
    RealLabel exampleUser (sharedApi 0) sharedCache
        (handleNSService servicePrefix exampleUser serviceSuffix (sharedApi 0) sharedCache) ∧
      RealLabel exampleUser (sharedApi 1) sharedCache
        (handleNSService servicePrefix exampleUser serviceSuffix (sharedApi 1) sharedCache) := by
  have hlisted : listedFor sharedCache exampleUser = [exampleLB.key] := by decide +kernel
  constructor
  · refine (label_real_iff (sharedApi_answered 0) exampleUser sharedCache).mpr (Or.inl ?_)
    intro hall
    have hserved := (hall 0 exampleLB.key (by rw [hlisted]; rfl)).1
    cases hserved
  · refine (label_real_iff (sharedApi_answered 1) exampleUser sharedCache).mpr (Or.inr ⟨?_, ?_⟩)
    · exact Or.inl ⟨readyPrimary, by decide +kernel, by decide +kernel⟩
    · exact Or.inl (by decide +kernel)

/-- A server that refuses the first call. -/
def refusing : Api := { Sys.init.api with verdicts := fun _ => .refuse .other }

/-- The label is returned all the same, and the reference is listed. -/
theorem label_not_real :
    Answered refusing ∧
      (handleNSService servicePrefix exampleUser serviceSuffix refusing .empty).1 =
        servicePrefix ++ exampleUser ∧
      (handleNSService servicePrefix exampleUser serviceSuffix refusing .empty
        ).2.1.cluster.services.get (primaryKey exampleUser) = none ∧
      primaryOf exampleUser ∈ pieces ';' ((handleNSService servicePrefix exampleUser serviceSuffix
        refusing .empty).2.2.cached (servicePrefix ++ exampleUser)) ∧
      ¬RealLabel exampleUser refusing .empty
        (handleNSService servicePrefix exampleUser serviceSuffix refusing .empty) := by
  have hlabel : (handleNSService servicePrefix exampleUser serviceSuffix refusing .empty).1 =
      servicePrefix ++ exampleUser := by decide +kernel
  have hnone : (handleNSService servicePrefix exampleUser serviceSuffix refusing .empty
      ).2.1.cluster.services.get (primaryKey exampleUser) = none := by decide +kernel
  refine ⟨fun _ _ h => (by cases h), hlabel, hnone, by decide +kernel, fun hreal => ?_⟩
  obtain ⟨p, hp, -⟩ := hreal.label (by rw [hlabel]; exact servicePrefix_append_ne_nil _)
  rw [hlabel] at hp
  exact absurd (hnone.symm.trans hp) (by simp)

end CMXSafe.Proofs
