import Mathlib.Data.List.Basic
import Mathlib.Tactic.Common

/-!
# Slices that share an array

A slice cut off an array at length zero, as in `tmp := xs[:0]`, grows into the array as long
as it has room: a loop that ranges over the array and appends to the slice overwrites what
it ranges over.
-/

namespace GoSlices

variable {α σ : Type}

/-- A slice that starts where the array does, or that was moved to an array of its own. -/
inductive Slice (α : Type) where
  | shared (len : Nat)
  | moved (xs : List α)

/-- The elements of a slice over the array `mem`. -/
def Slice.elems (mem : List α) : Slice α → List α
  | .shared len => mem.take len
  | .moved xs => xs

/-- `append`, with the array afterwards. A slice without room is moved. -/
def Slice.append (mem : List α) (x : α) : Slice α → List α × Slice α
  | .shared len =>
    if len < mem.length then (mem.set len x, .shared (len + 1))
    else (mem, .moved (mem.take len ++ [x]))
  | .moved xs => (mem, .moved (xs ++ [x]))

/-- Where a loop stands: the array, the slice that grows, and the rest of the program. -/
structure Loop (α σ : Type) where
  mem : List α
  tmp : Slice α
  state : σ

/-- `for _, e := range xs { if keep(e) { tmp = append(tmp, e) } }` from index `i` on, for `n`
more turns. Each turn reads the array as it is by then. -/
def filterLoop (keep : α → σ → Bool × σ) : Nat → Nat → Loop α σ → Loop α σ
  | 0, _, l => l
  | n + 1, i, l =>
    match l.mem[i]? with
    | none => l
    | some e =>
      let r := keep e l.state
      let w := if r.1 then Slice.append l.mem e l.tmp else (l.mem, l.tmp)
      filterLoop keep n (i + 1) ⟨w.1, w.2, r.2⟩

/-- The same filter without the array. -/
def filterState (keep : α → σ → Bool × σ) : List α → σ → List α × σ
  | [], s => ([], s)
  | e :: es, s =>
    let r := keep e s
    let tmp := filterState keep es r.2
    (if r.1 then e :: tmp.1 else tmp.1, tmp.2)

/-- The slice never catches up with the index, so that every element is read before it is
overwritten. -/
theorem filterLoop_spec (keep : α → σ → Bool × σ) (mem : List α) (s : σ) {n i w : Nat}
    (hw : w ≤ i) (hn : i + n = mem.length) :
    let l := filterLoop keep n i ⟨mem, .shared w, s⟩
    l.tmp.elems l.mem = mem.take w ++ (filterState keep (mem.drop i) s).1 ∧
      l.state = (filterState keep (mem.drop i) s).2 := by
  induction n generalizing i w mem s with
  | zero =>
    have hdrop : mem.drop i = [] := List.drop_eq_nil_of_le (by omega)
    simp [filterLoop, hdrop, filterState, Slice.elems]
  | succ n ih =>
    have hi : i < mem.length := by omega
    have hdrop : mem.drop i = mem[i] :: mem.drop (i + 1) := List.drop_eq_getElem_cons hi
    rw [hdrop]
    simp only [filterLoop, List.getElem?_eq_getElem hi, filterState]
    cases hr : (keep mem[i] s).1 with
    | false =>
      simp only [Bool.false_eq_true, if_false]
      exact ih mem _ (by omega) (by omega)
    | true =>
      have hroom : w < mem.length := by omega
      simp only [if_true, Slice.append, if_pos hroom]
      have hlen : i + 1 + n = (mem.set w mem[i]).length := by simp; omega
      have hle : w + 1 ≤ i + 1 := by omega
      obtain ⟨htmp, hstate⟩ := ih (mem.set w mem[i]) (keep mem[i] s).2 hle hlen
      -- what is written lies before what is still to be read
      have hrest : (mem.set w mem[i]).drop (i + 1) = mem.drop (i + 1) :=
        List.drop_set_of_lt (by omega)
      have hwritten : (mem.set w mem[i]).take (w + 1) = mem.take w ++ [mem[i]] := by
        rw [List.take_succ_eq_append_getElem (by simpa using hroom)]
        simp [List.take_set_of_le]
      rw [hrest] at htmp hstate
      rw [hwritten] at htmp
      exact ⟨by rw [htmp, List.append_assoc]; rfl, hstate⟩

/-- A filter into the array that it reads is a filter. -/
theorem filterLoop_eq (keep : α → σ → Bool × σ) (xs : List α) (s : σ) :
    let l := filterLoop keep xs.length 0 ⟨xs, .shared 0, s⟩
    (l.tmp.elems l.mem, l.state) = filterState keep xs s := by
  obtain ⟨htmp, hstate⟩ := filterLoop_spec keep xs s (Nat.le_refl 0) (Nat.zero_add _)
  exact Prod.ext htmp hstate

end GoSlices
