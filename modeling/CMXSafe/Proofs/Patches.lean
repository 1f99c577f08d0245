import CMXSafe.Lib.Tables
import CMXSafe.Proofs.LastWriter

/-!
# Creating and patching

Each kind of object is described twice, as it is created and as it is patched. The two
agree on an existing object exactly when it already has what the patch leaves out.
-/

namespace CMXSafe.Proofs
open Strings Stores Tables

/-- What is set in the created Service stands in the other one as well. The order of the
ports does not count, since they are merged by number. -/
structure ServiceCarried (o t : ServiceBody) : Prop where
  annotations : ∀ e ∈ o.annotations, lookup t.annotations e.1 = some e.2
  labels : ∀ e ∈ o.labels, lookup t.labels e.1 = some e.2
  type : t.type = o.type
  externalName : o.externalName ≠ [] → t.externalName = o.externalName
  selector : ∀ e ∈ o.selector, lookup t.selector e.1 = some e.2
  ports : o.ports ≠ [] → t.ports.Perm o.ports

structure SliceCarried (o t : EndpointSlice) : Prop where
  labels : ∀ e ∈ o.labels, lookup t.labels e.1 = some e.2
  addressType : t.addressType = o.addressType
  endpoints : t.endpoints = o.endpoints
  ports : t.ports = o.ports

/-- Merging the ports of the north-south Service leaves just these ports if there were no
others, and none twice. -/
lemma mergedPorts_perm_iff (ports : List ServicePort) :
    (mergeRows ServicePort.port ([buildPortPatch sshPrimary 22,
        buildPortPatch sshSecondary 2222].map ServicePortPatch.toPort) ports).Perm
        [buildPort sshPrimary 22, buildPort sshSecondary 2222] ↔
      (ports.map ServicePort.port).Nodup ∧ ∀ q ∈ ports, q.port = 22 ∨ q.port = 2222 := by
  have hmap : [buildPortPatch sshPrimary 22, buildPortPatch sshSecondary 2222].map
      ServicePortPatch.toPort = [buildPort sshPrimary 22, buildPort sshSecondary 2222] := rfl
  have hports : [buildPort sshPrimary 22, buildPort sshSecondary 2222].map ServicePort.port =
      [22, 2222] := rfl
  rw [hmap, mergeRows_perm_iff (by rw [hports]; decide), hports]
  simp

lemma call_served {r : Request} {a : Api} (h : a.verdicts 0 = .serve)
    {e : Cluster × List (Notification Service)} (he : r.serve a.cluster = .ok e) :
    a.call r = (none, (a.receive r).commit e) := by
  simp [Api.call, h, he]

lemma served_of_none {r : Request} {a : Api} (h : (a.call r).1 = none) :
    ∃ e, r.serve a.cluster = .ok e ∧ (a.call r).2 = (a.receive r).commit e := by
  rcases call_cases r a with ⟨-, h'⟩ | h'
  · rw [h] at h'
    cases h'
  · exact h'

/-- A served patch leaves the patched object behind. -/
lemma patchService_served {a : Api} (h : a.verdicts 0 = .serve) {ns name : Str} {s : Service}
    (hs : a.cluster.services.get (ns, name) = some s) (p : ServicePatch) :
    (a.call (.patchService ns name p)).2.cluster.services.get (ns, name) = some (p.apply s) := by
  obtain ⟨e, he⟩ := (serve_patchService_isOk (p := p)).mpr (by rw [hs]; rfl)
  obtain ⟨s', hs', -, hall⟩ := serve_patchService he
  rw [hs] at hs'
  cases hs'
  rw [call_served h he]
  change e.1.services.get (ns, name) = _
  rw [hall, if_pos rfl]

lemma created_body {b : Api} {ns name : Str} {body : ServiceBody}
    (h : (b.call (.createService ns name body)).1 = none) :
    ∃ o, (b.call (.createService ns name body)).2.cluster.services.get (ns, name) = some o ∧
      o.toServiceBody = body := by
  obtain ⟨e, he, hb⟩ := served_of_none h
  obtain ⟨-, -, s, -, hbody, hall⟩ := serve_createService he
  refine ⟨s, ?_, hbody⟩
  rw [hb]
  change e.1.services.get (ns, name) = _
  rw [hall, if_pos rfl]

lemma created_slice {b : Api} {o : EndpointSlice} (h : (b.call (.createSlice o)).1 = none) :
    (b.call (.createSlice o)).2.cluster.slices.get o.key = some o := by
  obtain ⟨e, he, hb⟩ := served_of_none h
  obtain ⟨-, -, hall⟩ := serve_createSlice he
  rw [hb]
  change e.1.slices.get o.key = _
  rw [hall, if_pos rfl]

lemma patchSlice_served {a : Api} (h : a.verdicts 0 = .serve) {ns name : Str} {s : EndpointSlice}
    (hs : a.cluster.slices.get (ns, name) = some s) (p : SlicePatch) :
    (a.call (.patchSlice ns name p)).2.cluster.slices.get (ns, name) = some (p.apply s) := by
  have he : ∃ e, (Request.patchSlice ns name p).serve a.cluster = .ok e := by
    simp [Request.serve, hs]
  obtain ⟨e, he⟩ := he
  obtain ⟨s', hs', -, hall⟩ := serve_patchSlice he
  rw [hs] at hs'
  cases hs'
  rw [call_served h he]
  change e.1.slices.get (ns, name) = _
  rw [hall, if_pos rfl]

def managedLabel : Str := "cmxsafe.io/managed".toList

section
variable {a b : Api} {pfx user suf ns label ip : Str}

/-- The north-south Service: the patch sets no label and keeps the ports that it does not
know. -/
lemma nsPatch_carries_iff (ha : a.verdicts 0 = .serve) {s : Service}
    (hs : a.cluster.services.get (defaultNS, pfx ++ user) = some s)
    (hb : (createNSService pfx user suf b).1 = none) :
    ∃ o t, (createNSService pfx user suf b).2.cluster.services.get (defaultNS, pfx ++ user) =
        some o ∧
      (patchNSService defaultNS (pfx ++ user) pfx user suf a).2.cluster.services.get
        (defaultNS, pfx ++ user) = some t ∧
      (ServiceCarried o.toServiceBody t.toServiceBody ↔
        lookup s.labels managedLabel = some "true".toList ∧ (s.ports.map ServicePort.port).Nodup ∧
          ∀ q ∈ s.ports, q.port = 22 ∨ q.port = 2222) := by
  obtain ⟨o, ho, hbody⟩ := created_body hb
  refine ⟨o, _, ho, patchService_served ha hs _, ?_⟩
  rw [hbody, ← mergedPorts_perm_iff]
  constructor
  · intro h
    exact ⟨h.labels _ (List.mem_singleton.mpr rfl), h.ports (by simp [nsServiceBody])⟩
  · rintro ⟨hlabel, hports⟩
    exact
      { annotations := by
          intro e he
          rw [List.mem_singleton.mp he]
          exact lookup_setKey_self _ _ _
        labels := by
          intro e he
          rw [List.mem_singleton.mp he]
          exact hlabel
        type := rfl
        externalName := fun h => absurd rfl h
        selector := by simp [nsServiceBody]
        ports := fun _ => hports }

/-- The east-west Service: the patch sets no type. -/
lemma ewPatch_carries_iff (ha : a.verdicts 0 = .serve) {s : Service}
    (hs : a.cluster.services.get (ns, user) = some s)
    (hb : (createEWService ns user ip b).1 = none) :
    ∃ o t, (createEWService ns user ip b).2.cluster.services.get (ns, user) = some o ∧
      (patchEWService ns user ip a).2.cluster.services.get (ns, user) = some t ∧
      (ServiceCarried o.toServiceBody t.toServiceBody ↔ s.type = .externalName) := by
  obtain ⟨o, ho, hbody⟩ := created_body hb
  refine ⟨o, _, ho, patchService_served ha hs _, ?_⟩
  rw [hbody]
  constructor
  · intro h
    exact h.type
  · intro h
    exact ⟨by simp [ewServiceBody], by simp [ewServiceBody], h, fun _ => rfl,
      by simp [ewServiceBody], fun h => absurd rfl h⟩

/-- The EndpointSlice: the patch sets no address type. -/
lemma slicePatch_carries_iff (ha : a.verdicts 0 = .serve) {s : EndpointSlice}
    (hs : a.cluster.slices.get (defaultNS, sliceName user) = some s)
    (hb : (createEndpointSlice label user ip b).1 = none) :
    ∃ o t, (createEndpointSlice label user ip b).2.cluster.slices.get (defaultNS, sliceName user) =
        some o ∧
      (patchEndpointSlice defaultNS (sliceName user) label ip a).2.cluster.slices.get
        (defaultNS, sliceName user) = some t ∧
      (SliceCarried o t ↔ s.addressType = .ipv4) := by
  refine ⟨freshSlice label user ip, _, created_slice hb, patchSlice_served ha hs _, ?_⟩
  constructor
  · intro h
    exact h.addressType
  · intro h
    refine ⟨?_, h, rfl, rfl⟩
    intro e he
    rw [List.mem_singleton.mp he]
    exact lookup_setKey_self _ _ _

/-- What each of the three patches makes of an existing object carries all that creating
the object sets, if and only if the object already has the managed label and no port but 22
and 2222, the type ExternalName, or the address type IPv4. -/
theorem create_patch_agree_iff (ha : a.verdicts 0 = .serve) :
    (∀ s, a.cluster.services.get (defaultNS, pfx ++ user) = some s →
      (createNSService pfx user suf b).1 = none →
      ∃ o t, (createNSService pfx user suf b).2.cluster.services.get (defaultNS, pfx ++ user) =
          some o ∧
        (patchNSService defaultNS (pfx ++ user) pfx user suf a).2.cluster.services.get
          (defaultNS, pfx ++ user) = some t ∧
        (ServiceCarried o.toServiceBody t.toServiceBody ↔
          lookup s.labels managedLabel = some "true".toList ∧
            (s.ports.map ServicePort.port).Nodup ∧ ∀ q ∈ s.ports, q.port = 22 ∨ q.port = 2222)) ∧
    (∀ s, a.cluster.services.get (ns, user) = some s → (createEWService ns user ip b).1 = none →
      ∃ o t, (createEWService ns user ip b).2.cluster.services.get (ns, user) = some o ∧
        (patchEWService ns user ip a).2.cluster.services.get (ns, user) = some t ∧
        (ServiceCarried o.toServiceBody t.toServiceBody ↔ s.type = .externalName)) ∧
    (∀ s, a.cluster.slices.get (defaultNS, sliceName user) = some s →
      (createEndpointSlice label user ip b).1 = none →
      ∃ o t, (createEndpointSlice label user ip b).2.cluster.slices.get
          (defaultNS, sliceName user) = some o ∧
        (patchEndpointSlice defaultNS (sliceName user) label ip a).2.cluster.slices.get
          (defaultNS, sliceName user) = some t ∧
        (SliceCarried o t ↔ s.addressType = .ipv4)) :=
  ⟨fun _ hs hb => nsPatch_carries_iff ha hs hb, fun _ hs hb => ewPatch_carries_iff ha hs hb,
    fun _ hs hb => slicePatch_carries_iff ha hs hb⟩

end

def letterUser : Str := "a23ff868ec8f".toList

def oldPrimary : Service where
  type := .clusterIP
  ports := [⟨"http".toList, 80, .int 80, .tcp⟩]
  ns := defaultNS
  name := servicePrefix ++ letterUser
  named := by decide +kernel

def oldBare : Service where
  type := .clusterIP
  ns := defaultNS
  name := letterUser
  named := by decide +kernel

def oldSlice : EndpointSlice where
  ns := defaultNS
  name := sliceName letterUser
  addressType := .ipv6

/-- A server with an object in each of the three places. -/
def occupied : Api where
  cluster := ⟨(Store.empty.put oldPrimary).put oldBare, Store.empty.put oldSlice⟩
  pending := []
  verdicts _ := .serve
  sent := []

theorem create_patch_agree_iff_occupied :
    (∃ o t, (createNSService servicePrefix letterUser serviceSuffix Sys.init.api
        ).2.cluster.services.get (defaultNS, servicePrefix ++ letterUser) = some o ∧
      (patchNSService defaultNS (servicePrefix ++ letterUser) servicePrefix letterUser serviceSuffix
        occupied).2.cluster.services.get (defaultNS, servicePrefix ++ letterUser) = some t ∧
      (ServiceCarried o.toServiceBody t.toServiceBody ↔
        lookup oldPrimary.labels managedLabel = some "true".toList ∧
          (oldPrimary.ports.map ServicePort.port).Nodup ∧
          ∀ q ∈ oldPrimary.ports, q.port = 22 ∨ q.port = 2222)) ∧
    (∃ o t, (createEWService defaultNS letterUser exampleIP Sys.init.api).2.cluster.services.get
        (defaultNS, letterUser) = some o ∧
      (patchEWService defaultNS letterUser exampleIP occupied).2.cluster.services.get
        (defaultNS, letterUser) = some t ∧
      (ServiceCarried o.toServiceBody t.toServiceBody ↔ oldBare.type = .externalName)) ∧
    (∃ o t, (createEndpointSlice [] letterUser exampleIP Sys.init.api).2.cluster.slices.get
        (defaultNS, sliceName letterUser) = some o ∧
      (patchEndpointSlice defaultNS (sliceName letterUser) [] exampleIP
        occupied).2.cluster.slices.get (defaultNS, sliceName letterUser) = some t ∧
      (SliceCarried o t ↔ oldSlice.addressType = .ipv4)) := by
  obtain ⟨h1, h2, h3⟩ := create_patch_agree_iff (a := occupied) (b := Sys.init.api) rfl
  exact ⟨h1 oldPrimary (by decide +kernel) rfl, h2 oldBare (by decide +kernel) rfl,
    h3 oldSlice (by decide +kernel) rfl⟩

/-- A Service of another type keeps it. -/
theorem create_patch_disagree :
    ∃ s o t, occupied.cluster.services.get (defaultNS, letterUser) = some s ∧
      (createEWService defaultNS letterUser exampleIP Sys.init.api).2.cluster.services.get
        (defaultNS, letterUser) = some o ∧
      (patchEWService defaultNS letterUser exampleIP occupied).2.cluster.services.get
        (defaultNS, letterUser) = some t ∧
      ¬ServiceCarried o.toServiceBody t.toServiceBody := by
  have hs : occupied.cluster.services.get (defaultNS, letterUser) = some oldBare := by
    decide +kernel
  have hcreated : (createEWService defaultNS letterUser exampleIP Sys.init.api).1 = none := rfl
  obtain ⟨o, t, ho, ht, hiff⟩ := ewPatch_carries_iff (a := occupied) rfl hs hcreated
  exact ⟨oldBare, o, t, hs, ho, ht, fun h => absurd (hiff.mp h) (by decide)⟩

end CMXSafe.Proofs
