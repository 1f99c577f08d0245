import Mathlib.Data.List.Basic
import Mathlib.Tactic.Common

/-!
# Runs of a step machine

`step s a` is the state after action `a`, or `none` where the action is not enabled.
The rules below lift a fact about one step to a fact about a run.
-/

namespace Machines

variable {σ α : Type}

def run (step : σ → α → Option σ) : σ → List α → Option σ
  | s, [] => some s
  | s, a :: as => (step s a).bind (fun t => run step t as)

/-- Every action of the run meets `ok` in the state in which it is taken. -/
def Guarded (step : σ → α → Option σ) (ok : σ → α → Prop) : σ → List α → Prop
  | _, [] => True
  | s, a :: as => ok s a ∧ ∀ t, step s a = some t → Guarded step ok t as

variable {step : σ → α → Option σ} {ok : σ → α → Prop}

@[simp] lemma run_nil (s : σ) : run step s [] = some s := rfl

lemma run_cons {s u : σ} {a : α} {as : List α} :
    run step s (a :: as) = some u ↔ ∃ t, step s a = some t ∧ run step t as = some u := by
  simp [run, Option.bind_eq_some_iff]

lemma run_append {s u : σ} {as bs : List α} :
    run step s (as ++ bs) = some u ↔ ∃ t, run step s as = some t ∧ run step t bs = some u := by
  induction as generalizing s with
  | nil => simp
  | cons a as ih =>
    rw [List.cons_append, run_cons]
    constructor
    · rintro ⟨t, ht, hu⟩
      obtain ⟨t', ht', hu'⟩ := ih.mp hu
      exact ⟨t', run_cons.mpr ⟨t, ht, ht'⟩, hu'⟩
    · rintro ⟨t', ht', hu'⟩
      obtain ⟨t, ht, htt⟩ := run_cons.mp ht'
      exact ⟨t, ht, ih.mpr ⟨t', htt, hu'⟩⟩

lemma guarded_append {s : σ} {as bs : List α} :
    Guarded step ok s (as ++ bs) ↔
      Guarded step ok s as ∧ ∀ t, run step s as = some t → Guarded step ok t bs := by
  induction as generalizing s with
  | nil => simp [Guarded]
  | cons a as ih =>
    simp only [List.cons_append, Guarded]
    constructor
    · rintro ⟨ha, hr⟩
      refine ⟨⟨ha, fun t ht => (ih.mp (hr t ht)).1⟩, fun u hu => ?_⟩
      obtain ⟨t, ht, htu⟩ := run_cons.mp hu
      exact (ih.mp (hr t ht)).2 u htu
    · rintro ⟨⟨ha, hr⟩, hb⟩
      exact ⟨ha, fun t ht => ih.mpr ⟨hr t ht, fun u hu => hb u (run_cons.mpr ⟨t, ht, hu⟩)⟩⟩

def decideGuarded [∀ s a, Decidable (ok s a)] :
    ∀ (s : σ) (as : List α), Decidable (Guarded step ok s as)
  | _, [] => .isTrue trivial
  | s, a :: as =>
    have : Decidable (∀ t, step s a = some t → Guarded step ok t as) :=
      match h : step s a with
      | none => .isTrue (fun _ ht => nomatch ht)
      | some t => @decidable_of_iff _ (Guarded step ok t as) (by simp) (decideGuarded t as)
    inferInstanceAs (Decidable (ok s a ∧ ∀ t, step s a = some t → Guarded step ok t as))

instance [∀ s a, Decidable (ok s a)] (s : σ) (as : List α) : Decidable (Guarded step ok s as) :=
  decideGuarded s as

lemma Guarded.mono {ok' : σ → α → Prop} (h : ∀ s a, ok s a → ok' s a) {s : σ} {as : List α}
    (hg : Guarded step ok s as) : Guarded step ok' s as := by
  induction as generalizing s with
  | nil => trivial
  | cons a as ih => exact ⟨h s a hg.1, fun t ht => ih (hg.2 t ht)⟩

lemma Guarded.and {ok' : σ → α → Prop} {s : σ} {as : List α} (h : Guarded step ok s as)
    (h' : Guarded step ok' s as) : Guarded step (fun s a => ok s a ∧ ok' s a) s as := by
  induction as generalizing s with
  | nil => trivial
  | cons a as ih => exact ⟨⟨h.1, h'.1⟩, fun t ht => ih (h.2 t ht) (h'.2 t ht)⟩

lemma guarded_of_forall {ok' : α → Prop} {s : σ} {as : List α} (h : ∀ a ∈ as, ok' a) :
    Guarded step (fun _ a => ok' a) s as := by
  induction as generalizing s with
  | nil => trivial
  | cons a as ih => exact ⟨h a (by simp), fun t _ => ih (fun b hb => h b (by simp [hb]))⟩

/-- What a guarded step preserves, a guarded run preserves. -/
theorem run_invariant (inv : σ → Prop)
    (hstep : ∀ s a t, inv s → ok s a → step s a = some t → inv t)
    {s u : σ} {as : List α} (hi : inv s) (hg : Guarded step ok s as)
    (hr : run step s as = some u) : inv u := by
  induction as generalizing s with
  | nil =>
    cases hr
    exact hi
  | cons a as ih =>
    obtain ⟨t, ht, hu⟩ := run_cons.mp hr
    exact ih (hstep s a t hi hg.1 ht) (hg.2 t ht) hu

/-- What every step preserves, a run preserves. -/
theorem run_preserves (inv : σ → Prop) (hstep : ∀ s a t, inv s → step s a = some t → inv t)
    {s u : σ} {as : List α} (hi : inv s) (hr : run step s as = some u) : inv u :=
  have hg : Guarded step (fun _ _ => True) s as := guarded_of_forall (fun _ _ => trivial)
  run_invariant inv (fun s a t hi _ => hstep s a t hi) hi hg hr

variable {ε : Type}

def observe (step : σ → α → Option σ) (visible : σ → α → Option ε) : σ → List α → List ε
  | _, [] => []
  | s, a :: as =>
    (visible s a).toList ++ (step s a).elim [] (fun t => observe step visible t as)

/-- Where the action alone decides what is observed, the actions alone decide the trace. -/
lemma observe_eq_filterMap (visible : σ → α → Option ε) {seen : α → Option ε}
    (hv : ∀ s a, visible s a = seen a) {s u : σ} {as : List α} (hr : run step s as = some u) :
    observe step visible s as = as.filterMap seen := by
  induction as generalizing s with
  | nil => rfl
  | cons a as ih =>
    obtain ⟨t, ht, hu⟩ := run_cons.mp hr
    rw [observe, ht, Option.elim_some, ih hu, hv]
    cases h : seen a with
    | none => simp [h]
    | some e => simp [h]

theorem run_hidden {visible : σ → α → Option ε} (inv : σ → Prop)
    (hkeep : ∀ s a t, ok s a → visible s a = none → inv s → step s a = some t → inv t)
    {s u : σ} {as : List α} (hg : Guarded step ok s as) (hr : run step s as = some u)
    (ho : observe step visible s as = []) (hi : inv s) : inv u := by
  induction as generalizing s with
  | nil =>
    cases hr
    exact hi
  | cons a as ih =>
    obtain ⟨t, ht, hu⟩ := run_cons.mp hr
    rw [observe, ht, Option.elim_some, List.append_eq_nil_iff, Option.toList_eq_nil_iff] at ho
    exact ih (hg.2 t ht) hu ho.2 (hkeep s a t hg.1 ho.1 hi ht)

theorem observe_cases (visible : σ → α → Option ε) {s u : σ} {as : List α}
    (hr : run step s as = some u) :
    observe step visible s as = [] ∨
      ∃ pre a post t t' e, as = pre ++ a :: post ∧ run step s pre = some t ∧
        visible t a = some e ∧ step t a = some t' ∧ run step t' post = some u ∧
        observe step visible t' post = [] ∧
        observe step visible s as = observe step visible s pre ++ [e] := by
  induction as generalizing s with
  | nil => exact Or.inl rfl
  | cons a as ih =>
    obtain ⟨t, ht, hu⟩ := run_cons.mp hr
    rw [observe, ht, Option.elim_some]
    rcases ih hu with hnil | ⟨pre, b, post, t', t'', e, rfl, hpre, hv, hb, hpost, hnone, ho⟩
    · cases hv : visible s a with
      | none => exact Or.inl (by simp [hnil])
      | some e =>
        exact Or.inr ⟨[], a, as, s, t, e, rfl, rfl, hv, ht, hu, hnil, by simp [hnil, observe]⟩
    · refine Or.inr ⟨a :: pre, b, post, t', t'', e, rfl, run_cons.mpr ⟨t, ht, hpre⟩, hv, hb, hpost,
        hnone, ?_⟩
      rw [ho, observe, ht, Option.elim_some, List.append_assoc]

/-- The last visible action decides: what it establishes, and hidden steps keep, holds at
the end of the run. -/
theorem run_last {visible : σ → α → Option ε} (holds : ε → σ → Prop)
    (hset : ∀ s a e t, ok s a → visible s a = some e → step s a = some t → holds e t)
    (hkeep : ∀ s a e t, ok s a → visible s a = none → holds e s → step s a = some t → holds e t)
    {s u : σ} {as : List α} (hg : Guarded step ok s as) (hr : run step s as = some u) {e : ε}
    (he : (observe step visible s as).getLast? = some e) : holds e u := by
  rcases observe_cases visible hr with
    hnil | ⟨pre, a, post, t, t', e', rfl, hpre, hv, ha, hpost, hnone, ho⟩
  · simp [hnil] at he
  · rw [ho, List.getLast?_concat] at he
    cases he
    obtain ⟨hok, hrest⟩ := (guarded_append.mp hg).2 t hpre
    exact run_hidden (holds e) (fun s a t => hkeep s a e t) (hrest t' ha) hpost hnone
      (hset t a e t' hok hv ha)

/-- Runs with hidden steps. If hidden steps keep the normal form of a state and visible
ones act on it by a function, then the normal form after a run depends on what was
observed alone, in whatever order the hidden steps came. -/
theorem run_normal {ν : Type} (norm : σ → ν) {visible : σ → α → Option ε} {act : ν → ε → ν}
    (inv : σ → Prop)
    (hinv : ∀ s a t, inv s → ok s a → step s a = some t → inv t)
    (hhidden : ∀ s a t, inv s → ok s a → visible s a = none → step s a = some t →
      norm t = norm s)
    (hvisible : ∀ s a e t, inv s → ok s a → visible s a = some e → step s a = some t →
      norm t = act (norm s) e)
    {s u : σ} {as : List α} (hi : inv s) (hg : Guarded step ok s as)
    (hr : run step s as = some u) :
    norm u = (observe step visible s as).foldl act (norm s) := by
  induction as generalizing s with
  | nil =>
    cases hr
    rfl
  | cons a as ih =>
    obtain ⟨t, ht, hu⟩ := run_cons.mp hr
    have hrec := ih (hinv s a t hi hg.1 ht) (hg.2 t ht) hu
    rw [observe, ht, Option.elim_some, List.foldl_append, hrec]
    cases hv : visible s a with
    | none => rw [hhidden s a t hi hg.1 hv ht, Option.toList_none, List.foldl_nil]
    | some e =>
      rw [hvisible s a e t hi hg.1 hv ht, Option.toList_some, List.foldl_cons, List.foldl_nil]

end Machines
