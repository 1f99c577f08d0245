import Mathlib.Data.List.DropRight
import Mathlib.Data.List.Infix
import Mathlib.Tactic.Common

/-!
# The string functions of Go

Strings are lists of characters. The functions of the package `strings` are generic in
the alphabet; only `trimSpace` needs to know which characters are white space.
-/

namespace Strings

variable {α : Type} [DecidableEq α]

abbrev Str := List Char

def contains (s sub : List α) : Bool := decide (sub <:+: s)

def hasSuffix (s suf : List α) : Bool := decide (suf <:+ s)

def trimSuffix (s suf : List α) : List α :=
  if hasSuffix s suf then s.take (s.length - suf.length) else s

/-- The left-to-right scan of `strings.ReplaceAll` for a non-empty pattern. The counter
holds how many characters of the last match are still to be passed over. -/
def replaceScan (old new : List α) : Nat → List α → List α
  | _, [] => []
  | skip + 1, _ :: s => replaceScan old new skip s
  | 0, c :: s =>
    if old <+: c :: s then new ++ replaceScan old new (old.length - 1) s
    else c :: replaceScan old new 0 s

/-- `strings.ReplaceAll`; the empty pattern matches around every character. -/
def replaceAll (s old new : List α) : List α :=
  if old = [] then new ++ s.flatMap (fun c => c :: new) else replaceScan old new 0 s

def split (s : List α) (sep : α) : List (List α) := s.splitOn sep

/-- `strings.SplitN` at a separator of one character, for a positive bound. -/
def splitN (s : List α) (sep : α) : Nat → List (List α)
  | 0 => []
  | 1 => [s]
  | n + 2 =>
    if sep ∈ s then
      s.takeWhile (· ≠ sep) :: splitN (s.dropWhile (· ≠ sep)).tail sep (n + 1)
    else [s]

def isSpace (c : Char) : Bool :=
  c.toNat ∈ [0x09, 0x0a, 0x0b, 0x0c, 0x0d, 0x20, 0x85, 0xa0, 0x1680, 0x2028, 0x2029,
    0x202f, 0x205f, 0x3000] || (0x2000 ≤ c.toNat && c.toNat ≤ 0x200a)

def trimSpace (s : Str) : Str := (s.dropWhile isSpace).rdropWhile isSpace

@[simp] lemma contains_iff {s sub : List α} : contains s sub = true ↔ sub <:+: s := by
  simp [contains]

@[simp] lemma hasSuffix_iff {s suf : List α} : hasSuffix s suf = true ↔ suf <:+ s := by
  simp [hasSuffix]

lemma contains_nil {sub : List α} (h : sub ≠ []) : contains [] sub = false := by
  simp [contains, h]

@[simp] lemma trimSuffix_append (s suf : List α) : trimSuffix (s ++ suf) suf = s := by
  simp [trimSuffix]

lemma trimSuffix_of_not {s suf : List α} (h : ¬suf <:+ s) : trimSuffix s suf = s := by
  simp [trimSuffix, h]

lemma trimSuffix_spec (s suf : List α) :
    s = trimSuffix s suf ++ suf ∧ suf <:+ s ∨ s = trimSuffix s suf ∧ ¬suf <:+ s := by
  by_cases h : suf <:+ s
  · obtain ⟨t, rfl⟩ := h
    exact Or.inl ⟨by simp, by simp⟩
  · exact Or.inr ⟨(trimSuffix_of_not h).symm, h⟩

lemma replaceScan_skip (old new : List α) (n : Nat) (s : List α) :
    replaceScan old new n s = replaceScan old new 0 (s.drop n) := by
  induction s generalizing n with
  | nil => cases n <;> simp [replaceScan]
  | cons c s ih =>
    cases n with
    | zero => rfl
    | succ n => simpa [replaceScan] using ih n

@[simp] lemma replaceAll_nil {old : List α} (new : List α) (h : old ≠ []) :
    replaceAll [] old new = [] := by
  simp [replaceAll, h, replaceScan]

lemma not_mem_of_mem_split {s p : List α} {sep : α} (h : p ∈ split s sep) : sep ∉ p := by
  induction s generalizing p with
  | nil =>
    have hp : p = [] := by simpa [split] using h
    simp [hp]
  | cons x s ih =>
    unfold split at h ih
    rw [List.splitOn_cons_eq_if_modifyHead] at h
    split_ifs at h with hx
    · rcases List.mem_cons.mp h with rfl | h
      · simp
      · exact ih h
    · obtain ⟨q, qs, hq⟩ := List.exists_cons_of_ne_nil (List.splitOn_ne_nil sep s)
      rw [hq, List.modifyHead_cons] at h
      rw [hq] at ih
      rcases List.mem_cons.mp h with rfl | h
      · have hsep := ih List.mem_cons_self
        simp only [List.mem_cons, not_or]
        exact ⟨fun he => hx (by simp [he]), hsep⟩
      · exact ih (List.mem_cons_of_mem q h)

lemma splitN_two_of_mem {s : List α} {sep : α} {a b : List α} (ha : sep ∉ a)
    (hs : s = a ++ sep :: b) : splitN s sep 2 = [a, b] := by
  have htake : ∀ x ∈ a, decide (x ≠ sep) = true := by
    intro x hx
    simpa using fun he : x = sep => ha (he ▸ hx)
  subst hs
  have h1 : (a ++ sep :: b).takeWhile (· ≠ sep) = a := by
    rw [List.takeWhile_append_of_pos htake]
    simp
  have h2 : (a ++ sep :: b).dropWhile (· ≠ sep) = sep :: b := by
    rw [List.dropWhile_append_of_pos htake]
    simp
  simp only [splitN, h1, h2]
  simp

lemma splitN_two_of_not_mem {s : List α} {sep : α} (h : sep ∉ s) : splitN s sep 2 = [s] := by
  simp [splitN, h]

lemma splitN_two_eq (s : List α) (sep : α) :
    (sep ∉ s ∧ splitN s sep 2 = [s]) ∨
      ∃ a b, sep ∉ a ∧ s = a ++ sep :: b ∧ splitN s sep 2 = [a, b] := by
  by_cases h : sep ∈ s
  · obtain ⟨a, b, hs, ha⟩ := List.eq_append_cons_of_mem h
    exact Or.inr ⟨a, b, ha, hs, splitN_two_of_mem ha hs⟩
  · exact Or.inl ⟨h, splitN_two_of_not_mem h⟩

lemma trimSpace_eq_nil {s : Str} (h : trimSpace s = []) : ∀ c ∈ s, isSpace c = true := by
  unfold trimSpace at h
  rw [List.rdropWhile_eq_nil_iff] at h
  intro c hc
  rw [← List.takeWhile_append_dropWhile (p := isSpace) (l := s)] at hc
  rcases List.mem_append.mp hc with ht | hd
  · exact List.mem_takeWhile_imp ht
  · exact h c hd

lemma trimSpace_nil : trimSpace [] = [] := rfl

end Strings
