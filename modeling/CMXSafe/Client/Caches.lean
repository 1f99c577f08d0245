import CMXSafe.Kube.Objects

/-!
# The caches of the controller

`podIPCache` maps `namespace/pod` to an IP, `serviceCache` maps a host name without its
zone to the concatenation of the references `namespace/name;` that publish it.
-/

namespace CMXSafe
open Strings Stores

def defaultNS : Str := "default".toList
def externalDNSAnn : Str := "external-dns.alpha.kubernetes.io/hostname".toList
def serviceSuffix : Str := ".myservices.local".toList
def servicePrefix : Str := "dynamic-service-".toList

def hostOf (user : Str) : Str := servicePrefix ++ user ++ serviceSuffix

/-- `sync.Map` with strings as keys and values. -/
def SyncMap : Type := Str → Option Str

namespace SyncMap

def empty : SyncMap := fun _ => none

def load (m : SyncMap) (k : Str) : Option Str := m k

def store (m : SyncMap) (k v : Str) : SyncMap := fun l => if l = k then some v else m l

def delete (m : SyncMap) (k : Str) : SyncMap := fun l => if l = k then none else m l

/-- The value that `LoadOrStore` returns, and the map afterwards. -/
def loadOrStore (m : SyncMap) (k v : Str) : Str × SyncMap :=
  match m.load k with
  | some cur => (cur, m)
  | none => (v, m.store k v)

/-- The string under a key, empty where there is none. -/
def cached (m : SyncMap) (k : Str) : Str := (m.load k).getD []

@[ext] lemma ext {m m' : SyncMap} (h : ∀ k, m.load k = m'.load k) : m = m' := funext h

lemma load_store (m : SyncMap) (k v l : Str) :
    (m.store k v).load l = if l = k then some v else m.load l := rfl

lemma load_delete (m : SyncMap) (k l : Str) :
    (m.delete k).load l = if l = k then none else m.load l := rfl

lemma load_loadOrStore (m : SyncMap) (k v l : Str) :
    (m.loadOrStore k v).2.load l =
      if l = k then some ((m.load k).getD v) else m.load l := by
  unfold loadOrStore
  cases h : m.load k with
  | none => simp [load_store]
  | some cur =>
    by_cases hl : l = k
    · simp [hl, h]
    · simp [hl]

@[simp] lemma loadOrStore_fst (m : SyncMap) (k : Str) : (m.loadOrStore k []).1 = m.cached k := by
  unfold loadOrStore cached
  cases m.load k <;> rfl

@[simp] lemma cached_loadOrStore (m : SyncMap) (k l : Str) :
    (m.loadOrStore k []).2.cached l = m.cached l := by
  unfold cached
  rw [load_loadOrStore]
  by_cases hl : l = k
  · simp [hl]
  · simp [hl]

@[simp] lemma cached_empty (k : Str) : empty.cached k = [] := rfl

end SyncMap

def appendToServiceCache (serviceCache : SyncMap) (key val : Str) : SyncMap :=
  match serviceCache.load key with
  | none => serviceCache.store key val
  | some cur =>
    if !contains cur val then serviceCache.store key (cur ++ val) else serviceCache

def removeFromServiceCache (serviceCache : SyncMap) (key val : Str) : SyncMap :=
  match serviceCache.load key with
  | none => serviceCache
  | some cur =>
    let newVal := replaceAll cur val []
    if trimSpace newVal = [] then serviceCache.delete key else serviceCache.store key newVal

def appendVal (cur val : Str) : Str := if contains cur val then cur else cur ++ val

def removeVal (cur val : Str) : Str :=
  if trimSpace (replaceAll cur val []) = [] then [] else replaceAll cur val []

/-- One update of `serviceCache`. -/
inductive CacheOp where
  | append (key val : Str)
  | remove (key val : Str)
  deriving DecidableEq

namespace CacheOp

def key : CacheOp → Str
  | append key _ => key
  | remove key _ => key

def val : CacheOp → Str
  | append _ val => val
  | remove _ val => val

def apply (m : SyncMap) : CacheOp → SyncMap
  | append key val => appendToServiceCache m key val
  | remove key val => removeFromServiceCache m key val

def upd : CacheOp → Str → Str
  | append _ val, cur => appendVal cur val
  | remove _ val, cur => removeVal cur val

end CacheOp

section
open SyncMap
variable {val : Str} (m : SyncMap) (key : Str)

lemma load_append_of_ne {k : Str} (h : k ≠ key) :
    (appendToServiceCache m key val).load k = m.load k := by
  unfold appendToServiceCache
  cases hm : m.load key with
  | none => simp [load_store, h]
  | some cur =>
    by_cases hc : contains cur val = true
    · simp [hc]
    · simp [hc, load_store, h]

lemma load_remove_of_ne {k : Str} (h : k ≠ key) :
    (removeFromServiceCache m key val).load k = m.load k := by
  unfold removeFromServiceCache
  cases hm : m.load key with
  | none => rfl
  | some cur =>
    by_cases hc : trimSpace (replaceAll cur val []) = []
    · simp [hc, load_delete, h]
    · simp [hc, load_store, h]

lemma load_append_self (hv : val ≠ []) :
    (appendToServiceCache m key val).load key =
      if contains (m.cached key) val = true then m.load key else some (m.cached key ++ val) := by
  unfold appendToServiceCache cached
  cases hm : m.load key with
  | none => simp [load_store, contains_nil hv]
  | some cur =>
    by_cases hc : contains cur val = true
    · simp [hc, hm]
    · simp [hc, load_store]

lemma load_remove_self (hv : val ≠ []) :
    (removeFromServiceCache m key val).load key =
      if trimSpace (replaceAll (m.cached key) val []) = [] then none
      else some (replaceAll (m.cached key) val []) := by
  unfold removeFromServiceCache cached
  cases hm : m.load key with
  | none => simp [hm, replaceAll_nil _ hv, trimSpace_nil]
  | some cur =>
    by_cases hc : trimSpace (replaceAll cur val []) = []
    · simp [hc, load_delete]
    · simp [hc, load_store]

lemma cached_append_self (hv : val ≠ []) :
    (appendToServiceCache m key val).cached key = appendVal (m.cached key) val := by
  rw [cached, load_append_self m key hv, appendVal]
  by_cases hc : contains (m.cached key) val = true
  · rw [if_pos hc, if_pos hc, cached]
  · rw [if_neg hc, if_neg hc, Option.getD_some]

lemma cached_remove_self (hv : val ≠ []) :
    (removeFromServiceCache m key val).cached key = removeVal (m.cached key) val := by
  rw [cached, load_remove_self m key hv, removeVal]
  by_cases hc : trimSpace (replaceAll (m.cached key) val []) = [] <;> simp [hc]

end

namespace CacheOp

lemma load_apply_of_ne (op : CacheOp) (m : SyncMap) {k : Str} (h : k ≠ op.key) :
    (op.apply m).load k = m.load k := by
  cases op with
  | append key val => exact load_append_of_ne m key h
  | remove key val => exact load_remove_of_ne m key h

lemma cached_apply_of_ne (op : CacheOp) (m : SyncMap) {k : Str} (h : k ≠ op.key) :
    (op.apply m).cached k = m.cached k := by
  unfold SyncMap.cached
  rw [op.load_apply_of_ne m h]

lemma cached_apply_self (op : CacheOp) (m : SyncMap) (hv : op.val ≠ []) :
    (op.apply m).cached op.key = op.upd (m.cached op.key) := by
  cases op with
  | append key val => exact cached_append_self m key hv
  | remove key val => exact cached_remove_self m key hv

lemma load_apply_congr (op : CacheOp) {m m' : SyncMap} (h : m.load op.key = m'.load op.key) :
    (op.apply m).load op.key = (op.apply m').load op.key := by
  cases op with
  | append key val =>
    simp only [CacheOp.key, CacheOp.apply, appendToServiceCache] at h ⊢
    rw [h]
    cases hm : m'.load key with
    | none => simp [SyncMap.load_store]
    | some cur => by_cases hc : contains cur val = true <;> simp [hc, h, hm, SyncMap.load_store]
  | remove key val =>
    simp only [CacheOp.key, CacheOp.apply, removeFromServiceCache] at h ⊢
    rw [h]
    cases hm : m'.load key with
    | none => simp [h, hm]
    | some cur =>
      by_cases hc : trimSpace (replaceAll cur val []) = [] <;>
        simp [hc, SyncMap.load_store, SyncMap.load_delete]

end CacheOp

def podKey (ns pod : Str) : Str := ns ++ '/' :: pod

def lookupPodIP (podIPCache : SyncMap) (ns pod : Str) : Str :=
  match podIPCache.load (podKey ns pod) with
  | some v => v
  | none => []

def extractUsername (cwd : Str) : Str :=
  match split cwd '/' with
  | _ :: home :: user :: _ => if home = "home".toList then user else []
  | _ => []

end CMXSafe
