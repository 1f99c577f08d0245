import CMXSafe.Kube.Api

/-!
# Watch histories

A watch delivers the changes of each object in order: it adds what it has not delivered,
and updates or deletes the version that it delivered last.
-/

namespace CMXSafe
open Stores

namespace Notification

variable {ν : Type}

def subject : Notification ν → ν
  | add o => o
  | update old _ => old
  | delete o => o

def oldest : Notification ν → Option ν
  | add _ => none
  | update old _ => some old
  | delete o => some o

def newest : Notification ν → Option ν
  | add o => some o
  | update _ new => some new
  | delete _ => none

end Notification

variable {κ ν : Type} {key : ν → κ}

/-- A notification that may come next where `live` has been delivered. -/
structure Admits (live : Store key) (n : Notification ν) : Prop where
  oldest : live.get (key n.subject) = n.oldest
  newest : ∀ o, n.newest = some o → key o = key n.subject

variable [DecidableEq κ]

def deliver (live : Store key) (n : Notification ν) : Store key :=
  match n.newest with
  | some o => live.put o
  | none => live.erase (key n.subject)

/-- A list of notifications that a watch can deliver one after the other. -/
def History (live : Store key) : List (Notification ν) → Prop
  | [] => True
  | n :: ns => Admits live n ∧ History (deliver live n) ns

def replay (live : Store key) (ns : List (Notification ν)) : Store key := ns.foldl deliver live

lemma get_deliver {live : Store key} {n : Notification ν} (h : Admits live n) (k : κ) :
    (deliver live n).get k = if k = key n.subject then n.newest else live.get k := by
  unfold deliver
  cases hn : n.newest with
  | none => simp [Store.get_erase]
  | some o => simp [Store.get_put, h.newest o hn]

@[simp] lemma replay_nil (live : Store key) : replay live [] = live := rfl

@[simp] lemma replay_cons (live : Store key) (n : Notification ν) (ns : List (Notification ν)) :
    replay live (n :: ns) = replay (deliver live n) ns := rfl

lemma replay_append (live : Store key) (ns ns' : List (Notification ν)) :
    replay live (ns ++ ns') = replay (replay live ns) ns' := by
  simp [replay]

lemma history_append {live : Store key} {ns ns' : List (Notification ν)} :
    History live (ns ++ ns') ↔ History live ns ∧ History (replay live ns) ns' := by
  induction ns generalizing live with
  | nil => simp [History]
  | cons n ns ih => simp [History, ih, and_assoc]

/-- The notifications `pending` lead from what has been delivered to what is there. -/
structure Linked (seen : Store key) (pending : List (Notification ν)) (live : Store key) :
    Prop where
  history : History seen pending
  replay : replay seen pending = live

namespace Linked

variable {seen live : Store key} {pending : List (Notification ν)}

lemma refl (live : Store key) : Linked live [] live := ⟨trivial, rfl⟩

lemma push (h : Linked seen pending live) {ns : List (Notification ν)} (hn : History live ns) :
    Linked seen (pending ++ ns) (CMXSafe.replay live ns) := by
  obtain ⟨hh, rfl⟩ := h
  exact ⟨history_append.mpr ⟨hh, hn⟩, replay_append _ _ _⟩

lemma pop {n : Notification ν} (h : Linked seen (n :: pending) live) :
    Admits seen n ∧ Linked (deliver seen n) pending live :=
  ⟨h.history.1, h.history.2, h.replay⟩

lemma eq_of_nil (h : Linked seen [] live) : seen = live := h.replay

end Linked

/-- An object is as it was delivered, or as some notification says. -/
lemma get_replay_cases {live : Store key} {ns : List (Notification ν)} (h : History live ns)
    (k : κ) : (replay live ns).get k = live.get k ∨
      ∃ n ∈ ns, key n.subject = k ∧ (replay live ns).get k = n.newest := by
  induction ns generalizing live with
  | nil => exact Or.inl rfl
  | cons n ns ih =>
    rw [replay_cons]
    rcases ih h.2 with h' | ⟨m, hm, hk, h'⟩
    · rw [h', get_deliver h.1]
      split_ifs with hk
      · exact Or.inr ⟨n, by simp, hk.symm, rfl⟩
      · exact Or.inl rfl
    · exact Or.inr ⟨m, by simp [hm], hk, h'⟩

end CMXSafe
