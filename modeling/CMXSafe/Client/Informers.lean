import CMXSafe.Client.Caches
import CMXSafe.Kube.Api
import CMXSafe.Lib.Tokens

/-!
# The informer handlers

Each handler of `startServiceInformer` is a list of updates of `serviceCache`, read off
the objects that are delivered.
-/

namespace CMXSafe
open Strings Stores Tokens

/-- `s.Annotations[externalDNSAnn]`, which is empty where the annotation is absent. -/
def ServiceBody.hostname (s : ServiceBody) : Str := (lookup s.annotations externalDNSAnn).getD []

/-- The host name without its zone, where it has one. -/
def ServiceBody.hostKey (s : ServiceBody) : Str := trimSuffix s.hostname serviceSuffix

def refBody (ns name : Str) : Str := ns ++ '/' :: name

/-- The entry of a Service in a cached list. -/
def Service.entry (s : Service) : Str := refBody s.ns s.name

def Service.ref (s : Service) : Str := s.entry ++ [';']

def isManaged (s : Service) : Bool :=
  if s.type ≠ .loadBalancer then false
  else if s.hostname ≠ [] && hasSuffix (s.hostname) serviceSuffix then true
  else false

namespace startPodInformer

def addFunc (p : Pod) (podIPCache : SyncMap) : SyncMap :=
  podIPCache.store (podKey p.ns p.name) p.podIP

def updateFunc (_ n : Pod) (podIPCache : SyncMap) : SyncMap :=
  podIPCache.store (podKey n.ns n.name) n.podIP

def deleteFunc (p : Pod) (podIPCache : SyncMap) : SyncMap :=
  podIPCache.delete (podKey p.ns p.name)

def handle (podIPCache : SyncMap) : Notification Pod → SyncMap
  | .add p => addFunc p podIPCache
  | .update o n => updateFunc o n podIPCache
  | .delete p => deleteFunc p podIPCache

end startPodInformer

namespace startServiceInformer

def addFunc (s : Service) (serviceCache : SyncMap) : SyncMap :=
  if !isManaged s then serviceCache
  else appendToServiceCache serviceCache s.hostKey s.ref

/-- The only handler that does not ask `isManaged`. -/
def updateFunc (oldS newS : Service) (serviceCache : SyncMap) : SyncMap :=
  let oldKey := oldS.hostKey
  let newKey := newS.hostKey
  let removed :=
    if oldKey ≠ [] ∧ oldKey ≠ newKey then removeFromServiceCache serviceCache oldKey oldS.ref
    else serviceCache
  if newKey ≠ [] then appendToServiceCache removed newKey newS.ref else removed

def deleteFunc (s : Service) (serviceCache : SyncMap) : SyncMap :=
  if !isManaged s then serviceCache
  else removeFromServiceCache serviceCache s.hostKey s.ref

def handle (serviceCache : SyncMap) : Notification Service → SyncMap
  | .add s => addFunc s serviceCache
  | .update o n => updateFunc o n serviceCache
  | .delete s => deleteFunc s serviceCache

/-- The updates of `serviceCache` that a handler makes, in order. -/
def cacheOps : Notification Service → List CacheOp
  | .add s => if isManaged s then [.append s.hostKey s.ref] else []
  | .update o n =>
    (if o.hostKey ≠ [] ∧ o.hostKey ≠ n.hostKey then [.remove o.hostKey o.ref] else []) ++
      if n.hostKey ≠ [] then [.append n.hostKey n.ref] else []
  | .delete s => if isManaged s then [.remove s.hostKey s.ref] else []

lemma handle_eq_foldl (m : SyncMap) (n : Notification Service) :
    handle m n = (cacheOps n).foldl CacheOp.apply m := by
  cases n with
  | add s => cases h : isManaged s <;> simp [handle, addFunc, cacheOps, h, CacheOp.apply]
  | delete s => cases h : isManaged s <;> simp [handle, deleteFunc, cacheOps, h, CacheOp.apply]
  | update o n =>
    by_cases h1 : o.hostKey ≠ [] ∧ o.hostKey ≠ n.hostKey <;> by_cases h2 : n.hostKey ≠ [] <;>
      simp [handle, updateFunc, cacheOps, h1, h2, CacheOp.apply]

end startServiceInformer

/-- A string without the characters that have a meaning in a cached list. -/
def Plain (s : Str) : Prop := '/' ∉ s ∧ ';' ∉ s

instance (s : Str) : Decidable (Plain s) := inferInstanceAs (Decidable (_ ∧ _))

lemma plain_of_acceptsName {n : Str} (h : acceptsName n = true) : Plain n :=
  ⟨slash_not_mem h, semicolon_not_mem h⟩

def IsEntry (e : Str) : Prop := ∃ ns name, Plain ns ∧ Plain name ∧ e = refBody ns name

lemma refBody_inj {ns name ns' name' : Str} (h : '/' ∉ ns) (h' : '/' ∉ name) :
    refBody ns' name' = refBody ns name ↔ ns' = ns ∧ name' = name := by
  unfold refBody
  constructor
  · intro he
    have h1 := (List.append_cons_inj_of_notMem h h').mp he.symm
    exact ⟨h1.1.symm, h1.2.2.symm⟩
  · rintro ⟨rfl, rfl⟩
    rfl

/-- One entry ends another where the names agree and the namespace ends the other. -/
lemma refBody_suffix_iff {ns name ns' name' : Str} (h : '/' ∉ ns') (h' : '/' ∉ name') :
    refBody ns name <:+ refBody ns' name' ↔ name = name' ∧ ns <:+ ns' := by
  unfold refBody
  constructor
  · rintro ⟨w, hw⟩
    have hw' : (w ++ ns) ++ '/' :: name = ns' ++ '/' :: name' := by simpa using hw
    have h1 := (List.append_cons_inj_of_notMem h h').mp hw'.symm
    exact ⟨h1.2.2.symm, w, h1.1.symm⟩
  · rintro ⟨hn, w, hw⟩
    exact ⟨w, by rw [hn, ← hw]; simp⟩

namespace IsEntry

variable {e : Str} (h : IsEntry e)
include h

lemma ne_nil : e ≠ [] := by
  obtain ⟨ns, name, -, -, rfl⟩ := h
  simp [refBody]

lemma semicolon_not_mem : ';' ∉ e := by
  obtain ⟨ns, name, hns, hname, rfl⟩ := h
  simp [refBody, hns.2, hname.2]

lemma isToken : IsToken ';' (e ++ [';']) := ⟨e, h.semicolon_not_mem, rfl⟩

lemma count_slash : e.count '/' = 1 := by
  obtain ⟨ns, name, hns, hname, rfl⟩ := h
  simp [refBody, List.count_append, List.count_eq_zero_of_not_mem hns.1,
    List.count_eq_zero_of_not_mem hname.1]

end IsEntry

namespace Service

lemma isEntry (s : Service) : IsEntry s.entry :=
  ⟨s.ns, s.name, plain_of_acceptsName s.named.1, plain_of_acceptsName s.named.2, rfl⟩

lemma ref_ne_nil (s : Service) : s.ref ≠ [] := s.isEntry.isToken.ne_nil

lemma entry_eq_iff {s s' : Service} : s.entry = s'.entry ↔ s.key = s'.key := by
  simp [entry, key, refBody_inj (slash_not_mem s'.named.1) (slash_not_mem s'.named.2)]

lemma entry_suffix_iff {s s' : Service} :
    s.entry <:+ s'.entry ↔ s.name = s'.name ∧ s.ns <:+ s'.ns :=
  refBody_suffix_iff (slash_not_mem s'.named.1) (slash_not_mem s'.named.2)

end Service

lemma startServiceInformer.val_ne_nil {n : Notification Service} {o : CacheOp}
    (h : o ∈ startServiceInformer.cacheOps n) : o.val ≠ [] := by
  have hval : ∃ s : Service, o.val = s.ref := by
    cases n with
    | add s =>
      rw [startServiceInformer.cacheOps] at h
      split_ifs at h
      · exact ⟨s, by rw [List.mem_singleton.mp h, CacheOp.val]⟩
      · cases h
    | update old new =>
      rw [startServiceInformer.cacheOps, List.mem_append] at h
      rcases h with h | h
      · split_ifs at h
        · exact ⟨old, by rw [List.mem_singleton.mp h, CacheOp.val]⟩
        · cases h
      · split_ifs at h
        · exact ⟨new, by rw [List.mem_singleton.mp h, CacheOp.val]⟩
        · cases h
    | delete s =>
      rw [startServiceInformer.cacheOps] at h
      split_ifs at h
      · exact ⟨s, by rw [List.mem_singleton.mp h, CacheOp.val]⟩
      · cases h
  obtain ⟨s, hs⟩ := hval
  exact hs ▸ s.ref_ne_nil

lemma hostname_of_isManaged {s : Service} (h : isManaged s = true) :
    s.hostname = s.hostKey ++ serviceSuffix := by
  unfold isManaged at h
  split_ifs at h with h1 h2
  simp only [Bool.and_eq_true, hasSuffix_iff] at h2
  rcases trimSuffix_spec s.hostname serviceSuffix with ⟨he, -⟩ | ⟨-, hn⟩
  · exact he
  · exact absurd h2.2 hn

end CMXSafe
