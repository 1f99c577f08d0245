import Mathlib.Data.List.Basic
import Mathlib.Logic.Function.Basic
import Mathlib.Tactic.Common

/-!
# Keyed stores

A store holds every value under the key that the value itself carries. An association
list is a finite string map that remembers the order of its keys.
-/

namespace Stores

/-- A partial map in which every value is stored under its own key. -/
structure Store {κ ν : Type} (key : ν → κ) where
  get : κ → Option ν
  keyed : ∀ k v, get k = some v → key v = k

namespace Store

variable {κ ν : Type} {key : ν → κ}

def empty : Store key := ⟨fun _ => none, by simp⟩

@[ext] lemma ext {s t : Store key} (h : ∀ k, s.get k = t.get k) : s = t := by
  cases s
  cases t
  congr
  exact funext h

@[simp] lemma get_empty (k : κ) : (empty : Store key).get k = none := rfl

variable [DecidableEq κ]

def put (s : Store key) (v : ν) : Store key where
  get := Function.update s.get (key v) (some v)
  keyed := by
    intro k w h
    by_cases hk : k = key v
    · subst hk
      simp at h
      rw [h]
    · rw [Function.update_of_ne hk] at h
      exact s.keyed k w h

def erase (s : Store key) (k : κ) : Store key where
  get := Function.update s.get k none
  keyed := by
    intro l w h
    by_cases hk : l = k
    · subst hk
      simp at h
    · rw [Function.update_of_ne hk] at h
      exact s.keyed l w h

lemma get_put (s : Store key) (v : ν) (k : κ) :
    (s.put v).get k = if k = key v then some v else s.get k := by
  simp [put, Function.update_apply]

lemma get_erase (s : Store key) (k l : κ) :
    (s.erase k).get l = if l = k then none else s.get l := by
  simp [erase, Function.update_apply]

@[simp] lemma get_put_self (s : Store key) (v : ν) : (s.put v).get (key v) = some v := by
  simp [get_put]

lemma get_put_of_ne (s : Store key) {v : ν} {k : κ} (h : k ≠ key v) :
    (s.put v).get k = s.get k := by
  simp [get_put, h]

@[simp] lemma get_erase_self (s : Store key) (k : κ) : (s.erase k).get k = none := by
  simp [get_erase]

lemma get_put_empty {v w : ν} : ((empty : Store key).put v).get (key w) = some w ↔ w = v := by
  rw [get_put]
  by_cases h : key w = key v
  · simp [h, eq_comm]
  · simp only [h, if_false, get_empty, reduceCtorEq, false_iff]
    rintro rfl
    exact h rfl

/-- Writing back what is stored changes nothing. -/
lemma put_eq_self {s : Store key} {v : ν} (h : s.get (key v) = some v) : s.put v = s := by
  ext1 k
  by_cases hk : k = key v
  · rw [hk, get_put_self, h]
  · exact get_put_of_ne s hk

end Store

/-- A finite map as a list of its entries. -/
abbrev Assoc (κ ν : Type) := List (κ × ν)

variable {κ ν : Type} [DecidableEq κ]

def lookup (m : Assoc κ ν) (k : κ) : Option ν := List.lookup k m

/-- Writes a value, in place where the key is present. -/
def setKey (k : κ) (v : ν) : Assoc κ ν → Assoc κ ν
  | [] => [(k, v)]
  | e :: m => if e.1 = k then (k, v) :: m else e :: setKey k v m

def eraseKey (k : κ) (m : Assoc κ ν) : Assoc κ ν := m.filter (fun e => e.1 ≠ k)

lemma lookup_cons (e : κ × ν) (m : Assoc κ ν) (k : κ) :
    lookup (e :: m) k = if e.1 = k then some e.2 else lookup m k := by
  unfold lookup
  rw [List.lookup_cons]
  by_cases h : e.1 = k
  · simp [h]
  · have hb : (k == e.1) = false := by simpa using Ne.symm h
    simp [h, hb]

@[simp] lemma lookup_setKey_self (k : κ) (v : ν) (m : Assoc κ ν) :
    lookup (setKey k v m) k = some v := by
  induction m with
  | nil => simp [setKey, lookup_cons]
  | cons e m ih =>
    by_cases h : e.1 = k
    · simp [setKey, h, lookup_cons]
    · simp [setKey, h, lookup_cons, ih]

lemma lookup_setKey_of_ne {k l : κ} (h : l ≠ k) (v : ν) (m : Assoc κ ν) :
    lookup (setKey k v m) l = lookup m l := by
  induction m with
  | nil => simp [setKey, h, lookup]
  | cons e m ih =>
    by_cases he : e.1 = k
    · simp [setKey, he, lookup_cons, Ne.symm h]
    · simp [setKey, he, lookup_cons, ih]

@[simp] lemma lookup_eraseKey_self (k : κ) (m : Assoc κ ν) :
    lookup (eraseKey k m) k = none := by
  induction m with
  | nil => rfl
  | cons e m ih =>
    by_cases h : e.1 = k
    · simpa [eraseKey, h] using ih
    · simpa [eraseKey, h, lookup_cons] using ih

lemma eraseKey_eq_self {k : κ} {m : Assoc κ ν} (h : lookup m k = none) :
    eraseKey k m = m := by
  induction m with
  | nil => rfl
  | cons e m ih =>
    rw [lookup_cons] at h
    by_cases he : e.1 = k
    · simp [he] at h
    · rw [if_neg he] at h
      unfold eraseKey at ih ⊢
      rw [List.filter_cons_of_pos (by simpa using he), ih h]

end Stores
