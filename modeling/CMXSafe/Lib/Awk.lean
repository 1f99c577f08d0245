import CMXSafe.Lib.Strings
import Mathlib.Algebra.Field.Rat

/-!
# The comparisons of awk

A field and a variable set with `-v` are compared as numbers where both look like decimal
numerals, and as strings otherwise.
-/

namespace Awk
open Strings

def IsDigits (ds : Str) : Prop := ds ≠ [] ∧ ds.all Char.isDigit = true

instance (ds : Str) : Decidable (IsDigits ds) := inferInstanceAs (Decidable (_ ∧ _))

def value (ds : Str) : Nat := Nat.ofDigitChars 10 ds 0

def digits (ds : Str) : Option ℤ := if IsDigits ds then some (value ds) else none

def exponent : Str → Option ℤ
  | [] => some 0
  | c :: s =>
    if c = 'e' ∨ c = 'E' then
      match s with
      | '+' :: ds => digits ds
      | '-' :: ds => (digits ds).map (fun n => -n)
      | ds => digits ds
    else none

/-- A numeral without sign: digits, with a fraction or an exponent or both. -/
def unsigned (s : Str) : Option ℚ :=
  let whole := s.takeWhile Char.isDigit
  let rest := s.dropWhile Char.isDigit
  let (fraction, tail) :=
    match rest with
    | '.' :: t => (t.takeWhile Char.isDigit, t.dropWhile Char.isDigit)
    | t => ([], t)
  if whole = [] ∧ fraction = [] then none
  else (exponent tail).map (fun e : ℤ =>
    (value (whole ++ fraction) : ℚ) * (10 : ℚ) ^ (e - (fraction.length : ℤ)))

def isBlank (c : Char) : Bool := c = ' ' || c = '\t' || c = '\n'

/-- The number that a string looks like. -/
def numeral (s : Str) : Option ℚ :=
  match (s.dropWhile isBlank).rdropWhile isBlank with
  | '+' :: t => unsigned t
  | '-' :: t => (unsigned t).map (fun x => -x)
  | t => unsigned t

variable {ν : Type} [DecidableEq ν]

/-- `a == b`, where `round` is the number that awk computes with. -/
def same (round : ℚ → ν) (a b : Str) : Bool :=
  match numeral a, numeral b with
  | some x, some y => round x = round y
  | _, _ => a = b

variable {round : ℚ → ν} {a b : Str}

@[simp] lemma same_self : same round a a = true := by
  unfold same
  cases numeral a <;> simp

lemma same_comm : same round a b = same round b a := by
  unfold same
  cases numeral a <;> cases numeral b <;> simp [eq_comm]

/-! ## Numerals without signs -/

lemma numeral_eq_unsigned {s : Str} (hb : ∀ c ∈ s, isBlank c = false)
    (hs : ∀ c ∈ s, c ≠ '+' ∧ c ≠ '-') : numeral s = unsigned s := by
  have htrim : (s.dropWhile isBlank).rdropWhile isBlank = s := by
    have hleft : s.dropWhile isBlank = s := by
      cases s with
      | nil => rfl
      | cons c s => simp [hb c (by simp)]
    rw [hleft, List.rdropWhile_eq_self_iff]
    intro hne
    simp [hb _ (List.getLast_mem hne)]
  unfold numeral
  rw [htrim]
  split
  · exact absurd rfl (hs '+' (by simp)).1
  · exact absurd rfl (hs '-' (by simp)).2
  · rfl

/-- Digits before something that is no digit and no point. -/
lemma unsigned_append {w t : Str} (hw : ∀ c ∈ w, c.isDigit = true)
    (ht : ∀ c ∈ t.head?, c.isDigit = false ∧ c ≠ '.') :
    unsigned (w ++ t) =
      if w = [] then none
      else (exponent t).map (fun e : ℤ => (value w : ℚ) * (10 : ℚ) ^ e) := by
  have htake : (w ++ t).takeWhile Char.isDigit = w := by
    rw [List.takeWhile_append_of_pos hw]
    cases t with
    | nil => simp
    | cons c t => simp [(ht c (by simp)).1]
  have hdrop : (w ++ t).dropWhile Char.isDigit = t := by
    rw [List.dropWhile_append_of_pos hw]
    cases t with
    | nil => simp
    | cons c t => simp [(ht c (by simp)).1]
  unfold unsigned
  rw [htake, hdrop]
  dsimp only
  split
  · exact absurd rfl (ht '.' (by simp)).2
  · simp

/-- A string without signs, where it is read behind a numeral. -/
lemma exponent_of_unsigned {t : Str} (hs : ∀ c ∈ t, c ≠ '+' ∧ c ≠ '-' ∧ c ≠ 'E') {e : ℤ} :
    exponent t = some e ↔ (t = [] ∧ e = 0) ∨ ∃ ds, t = 'e' :: ds ∧ digits ds = some e := by
  cases t with
  | nil => simp [exponent, eq_comm]
  | cons c t =>
    have hE := (hs c (by simp)).2.2
    unfold exponent
    dsimp only
    by_cases hc : c = 'e'
    · rw [if_pos (Or.inl hc)]
      split
      · exact absurd rfl (hs '+' (by simp)).1
      · exact absurd rfl (hs '-' (by simp)).2.1
      · simp [hc]
    · rw [if_neg (by simp [hc, hE])]
      simp [hc]

lemma digits_eq_some {ds : Str} {e : ℤ} : digits ds = some e ↔ IsDigits ds ∧ e = value ds := by
  unfold digits
  split_ifs with h <;> simp [h, eq_comm]

end Awk
