import Mathlib.Data.List.Nodup
import Mathlib.Data.List.Perm.Basic
import Mathlib.Tactic.Common

/-!
# Lists merged by a key

`mergeRow` writes a row over the first row with its key, or behind the others where there is
none. Merging rows with distinct keys makes a list of these rows exactly when the rows that
were there before have distinct keys among theirs.
-/

namespace Tables

variable {α κ : Type} [DecidableEq κ] (key : α → κ)

def mergeRow (x : α) : List α → List α
  | [] => [x]
  | y :: ys => if key y = key x then x :: ys else y :: mergeRow x ys

def mergeRows (xs rows : List α) : List α := xs.foldl (fun rows x => mergeRow key x rows) rows

variable {key}

lemma keys_mergeRow (x : α) (rows : List α) :
    (mergeRow key x rows).map key =
      if key x ∈ rows.map key then rows.map key else rows.map key ++ [key x] := by
  induction rows with
  | nil => simp [mergeRow]
  | cons y ys ih =>
    by_cases hy : key y = key x
    · simp [mergeRow, hy]
    · rw [mergeRow, if_neg hy, List.map_cons, ih]
      by_cases hx : key x ∈ ys.map key
      · simp [hx]
      · have hx' : key x ∉ (y :: ys).map key := by
          rw [List.map_cons, List.mem_cons, not_or]
          exact ⟨Ne.symm hy, hx⟩
        rw [if_neg hx, if_neg hx', List.map_cons, List.cons_append]

lemma mem_mergeRow {x z : α} {rows : List α} (h : (rows.map key).Nodup) :
    z ∈ mergeRow key x rows ↔ z = x ∨ z ∈ rows ∧ key z ≠ key x := by
  induction rows with
  | nil => simp [mergeRow]
  | cons y ys ih =>
    obtain ⟨hy, hys⟩ := List.nodup_cons.mp h
    by_cases hk : key y = key x
    · have hne : ∀ z ∈ ys, key z ≠ key x := by
        intro z hz he
        exact hy (List.mem_map.mpr ⟨z, hz, he.trans hk.symm⟩)
      rw [mergeRow, if_pos hk, List.mem_cons, List.mem_cons]
      constructor
      · exact Or.imp_right (fun hz => ⟨Or.inr hz, hne z hz⟩)
      · rintro (hz | ⟨rfl | hz, hz'⟩)
        · exact Or.inl hz
        · exact absurd hk hz'
        · exact Or.inr hz
    · rw [mergeRow, if_neg hk, List.mem_cons, List.mem_cons, ih hys]
      constructor
      · rintro (rfl | rfl | ⟨hz, hz'⟩)
        · exact Or.inr ⟨Or.inl rfl, hk⟩
        · exact Or.inl rfl
        · exact Or.inr ⟨Or.inr hz, hz'⟩
      · rintro (rfl | ⟨rfl | hz, hz'⟩)
        · exact Or.inr (Or.inl rfl)
        · exact Or.inl rfl
        · exact Or.inr (Or.inr ⟨hz, hz'⟩)

/-- A merge keeps the keys, in their order. -/
lemma keys_prefix_mergeRows (xs rows : List α) :
    rows.map key <+: (mergeRows key xs rows).map key := by
  induction xs generalizing rows with
  | nil => exact List.prefix_rfl
  | cons x xs ih =>
    refine List.IsPrefix.trans ?_ (ih (mergeRow key x rows))
    rw [keys_mergeRow]
    split_ifs
    · exact List.prefix_rfl
    · exact List.prefix_append _ _

lemma nodup_keys_mergeRows {rows : List α} (h : (rows.map key).Nodup) (xs : List α) :
    ((mergeRows key xs rows).map key).Nodup := by
  induction xs generalizing rows with
  | nil => exact h
  | cons x xs ih =>
    refine ih ?_
    rw [keys_mergeRow]
    split_ifs with hx
    · exact h
    · exact h.append (List.nodup_singleton _) (by simpa using hx)

lemma mem_mergeRows {xs rows : List α} {z : α} (h : (rows.map key).Nodup)
    (hxs : (xs.map key).Nodup) :
    z ∈ mergeRows key xs rows ↔ z ∈ xs ∨ z ∈ rows ∧ key z ∉ xs.map key := by
  induction xs generalizing rows with
  | nil => simp [mergeRows]
  | cons x xs ih =>
    obtain ⟨hx, hxs'⟩ := List.nodup_cons.mp hxs
    have hrows : ((mergeRow key x rows).map key).Nodup := nodup_keys_mergeRows h [x]
    rw [mergeRows, List.foldl_cons, ← mergeRows, ih hrows hxs', mem_mergeRow h, List.map_cons,
      List.mem_cons, List.mem_cons, not_or]
    constructor
    · rintro (hz | ⟨rfl | ⟨hz, hne⟩, hz'⟩)
      · exact Or.inl (Or.inr hz)
      · exact Or.inl (Or.inl rfl)
      · exact Or.inr ⟨hz, hne, hz'⟩
    · rintro ((rfl | hz) | ⟨hz, hne, hz'⟩)
      · exact Or.inr ⟨Or.inl rfl, hx⟩
      · exact Or.inl hz
      · exact Or.inr ⟨Or.inr ⟨hz, hne⟩, hz'⟩

/-- A merge replaces what was there just when nothing was there under another key, and
nothing twice. -/
theorem mergeRows_perm_iff {xs rows : List α} (hxs : (xs.map key).Nodup) :
    (mergeRows key xs rows).Perm xs ↔
      (rows.map key).Nodup ∧ ∀ y ∈ rows, key y ∈ xs.map key := by
  constructor
  · intro h
    have hkeys : ((mergeRows key xs rows).map key).Perm (xs.map key) := h.map key
    have hpfx : rows.map key <+: (mergeRows key xs rows).map key := keys_prefix_mergeRows xs rows
    refine ⟨(hkeys.nodup_iff.mpr hxs).sublist hpfx.sublist, fun y hy => ?_⟩
    exact hkeys.mem_iff.mp (hpfx.subset (List.mem_map_of_mem hy))
  · rintro ⟨h, hsub⟩
    refine (List.perm_ext_iff_of_nodup (nodup_keys_mergeRows h xs).of_map hxs.of_map).mpr ?_
    intro z
    rw [mem_mergeRows h hxs]
    exact or_iff_left (fun hz => hz.2 (hsub z hz.1))

end Tables
