import Mathlib.Data.List.Basic
import Mathlib.Tactic.Common

/-!
# Orders of the operations of several threads

An order is a list of operations, each with the thread that performs it. It respects a
thread if the operations of the thread stand in it as the thread performs them.
-/

namespace Interleavings

variable {γ ω σ : Type}

section
variable [DecidableEq γ]

def ofThread (g : γ) (order : List (γ × ω)) : List ω :=
  (order.filter (fun x => x.1 = g)).map (fun x => x.2)

@[simp] lemma ofThread_nil (g : γ) : ofThread g ([] : List (γ × ω)) = [] := rfl

@[simp] lemma ofThread_cons_self (g : γ) (o : ω) (order : List (γ × ω)) :
    ofThread g ((g, o) :: order) = o :: ofThread g order := by
  simp [ofThread]

lemma ofThread_cons_of_ne {g h : γ} (hne : h ≠ g) (o : ω) (order : List (γ × ω)) :
    ofThread g ((h, o) :: order) = ofThread g order := by
  simp [ofThread, hne]

@[simp] lemma ofThread_append (g : γ) (order order' : List (γ × ω)) :
    ofThread g (order ++ order') = ofThread g order ++ ofThread g order' := by
  simp [ofThread]

@[simp] lemma ofThread_map_self (g : γ) (ops : List ω) :
    ofThread g (ops.map (fun o => (g, o))) = ops := by
  induction ops with
  | nil => rfl
  | cons o ops ih => rw [List.map_cons, ofThread_cons_self, ih]

lemma ofThread_map_of_ne {g h : γ} (hne : h ≠ g) (ops : List ω) :
    ofThread g (ops.map (fun o => (h, o))) = [] := by
  induction ops with
  | nil => rfl
  | cons o ops ih => rw [List.map_cons, ofThread_cons_of_ne hne, ih]

lemma mem_ofThread {g : γ} {o : ω} {order : List (γ × ω)} :
    o ∈ ofThread g order ↔ (g, o) ∈ order := by
  simp [ofThread]

end

def serial (apply : σ → ω → σ) (s : σ) (order : List (γ × ω)) : σ :=
  order.foldl (fun s x => apply s x.2) s

lemma serial_append (apply : σ → ω → σ) (s : σ) (order order' : List (γ × ω)) :
    serial apply s (order ++ order') = serial apply (serial apply s order) order' := by
  simp [serial]

/-- What every operation of the order preserves. -/
theorem serial_invariant {apply : σ → ω → σ} {inv : σ → Prop} {order : List (γ × ω)}
    (h : ∀ x ∈ order, ∀ s, inv s → inv (apply s x.2)) {s : σ} (hs : inv s) :
    inv (serial apply s order) := by
  induction order generalizing s with
  | nil => exact hs
  | cons x order ih =>
    exact ih (fun y hy => h y (by simp [hy])) (h x (by simp) s hs)

theorem serial_of_mem {apply : σ → ω → σ} {inv : σ → Prop} {order : List (γ × ω)}
    (h : ∀ x ∈ order, ∀ s, inv s → inv (apply s x.2)) {x : γ × ω} (hx : x ∈ order)
    (hset : ∀ s, inv (apply s x.2)) (s : σ) : inv (serial apply s order) := by
  induction order generalizing s with
  | nil => cases hx
  | cons y order ih =>
    rcases List.mem_cons.mp hx with rfl | hx
    · change inv (serial apply (apply s x.2) order)
      exact serial_invariant (fun z hz => h z (by simp [hz])) (hset s)
    · exact ih (fun z hz => h z (by simp [hz])) hx _

end Interleavings
