import Mathlib.Computability.Language

/-!
# Wildcard patterns

A pattern is a list of pieces: a letter that stands for itself, any one letter, or any
text at all. It denotes the language that is the product of the languages of its pieces.
-/

namespace Globs

variable {α : Type}

inductive Piece (α : Type) where
  | lit (c : α)
  | one
  | many
  deriving DecidableEq, Repr

def Piece.language : Piece α → Language α
  | lit c => {[c]}
  | one => {s | s.length = 1}
  | many => ⊤

def language (p : List (Piece α)) : Language α := (p.map Piece.language).prod

@[simp] lemma mem_language_nil {s : List α} : s ∈ language [] ↔ s = [] := Iff.rfl

lemma language_cons (x : Piece α) (p : List (Piece α)) :
    language (x :: p) = x.language * language p := by
  simp [language]

@[simp] lemma mem_language_lit {c : α} {p : List (Piece α)} {s : List α} :
    s ∈ language (.lit c :: p) ↔ ∃ t, s = c :: t ∧ t ∈ language p := by
  rw [language_cons, Language.mem_mul]
  constructor
  · rintro ⟨u, hu, t, ht, rfl⟩
    obtain rfl : u = [c] := hu
    exact ⟨t, rfl, ht⟩
  · rintro ⟨t, rfl, ht⟩
    exact ⟨[c], rfl, t, ht, rfl⟩

@[simp] lemma mem_language_one {p : List (Piece α)} {s : List α} :
    s ∈ language (.one :: p) ↔ ∃ c t, s = c :: t ∧ t ∈ language p := by
  rw [language_cons, Language.mem_mul]
  constructor
  · rintro ⟨u, hu, t, ht, rfl⟩
    obtain ⟨c, rfl⟩ := List.length_eq_one_iff.mp hu
    exact ⟨c, t, rfl, ht⟩
  · rintro ⟨c, t, rfl, ht⟩
    exact ⟨[c], rfl, t, ht, rfl⟩

lemma mem_language_many {p : List (Piece α)} {s : List α} :
    s ∈ language (.many :: p) ↔ ∃ t, t <:+ s ∧ t ∈ language p := by
  rw [language_cons, Language.mem_mul]
  constructor
  · rintro ⟨u, _, t, ht, rfl⟩
    exact ⟨t, List.suffix_append u t, ht⟩
  · rintro ⟨t, ⟨u, rfl⟩, ht⟩
    exact ⟨u, trivial, t, ht, rfl⟩

/-- Any text after any text is any text. -/
lemma language_many_many (p : List (Piece α)) :
    language (.many :: .many :: p) = language (.many :: p) := by
  ext s
  simp only [mem_language_many]
  constructor
  · rintro ⟨t, hts, u, hut, hu⟩
    exact ⟨u, hut.trans hts, hu⟩
  · rintro ⟨t, hts, ht⟩
    exact ⟨t, hts, t, List.suffix_rfl, ht⟩

@[simp] lemma mem_language_lits {u s : List α} : s ∈ language (u.map .lit) ↔ s = u := by
  induction u generalizing s with
  | nil => rfl
  | cons c u ih => simp [ih]

end Globs
