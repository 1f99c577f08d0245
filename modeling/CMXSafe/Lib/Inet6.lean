import CMXSafe.Lib.Strings
import Mathlib.Data.Nat.Digits.Lemmas

/-!
# IPv6 addresses

The full textual form of an address, eight groups of at most four hex digits, and the
address that it denotes, as its eight groups.
-/

namespace Inet6
open Strings

def lowerHex (c : Char) : Bool := c.isDigit || ('a' ≤ c && c ≤ 'f')

def isHexDigit (c : Char) : Bool := lowerHex c || ('A' ≤ c && c ≤ 'F')

def digitVal (c : Char) : Nat :=
  if c.isDigit then c.toNat - 48 else if 'a' ≤ c then c.toNat - 87 else c.toNat - 55

def hextet (s : Str) : Nat := Nat.ofDigits 16 (s.reverse.map digitVal)

def isHextet (s : Str) : Bool := 1 ≤ s.length && s.length ≤ 4 && s.all isHexDigit

/-- The address that a text denotes, where it is in full form. -/
def parse (s : Str) : Option (List Nat) :=
  if (split s ':').length = 8 ∧ (split s ':').all isHextet then some ((split s ':').map hextet)
  else none

lemma lowerHex_cases {c : Char} (h : lowerHex c = true) :
    (c.isDigit = true ∧ 48 ≤ c.toNat ∧ c.toNat ≤ 57) ∨
      (c.isDigit = false ∧ 'a' ≤ c ∧ 97 ≤ c.toNat ∧ c.toNat ≤ 102) := by
  have hdigit : c.isDigit = true ↔ 48 ≤ c.toNat ∧ c.toNat ≤ 57 := by
    simp [Char.isDigit, UInt32.le_iff_toNat_le]
  by_cases hd : c.isDigit = true
  · exact Or.inl ⟨hd, hdigit.mp hd⟩
  · rw [lowerHex, Bool.eq_false_iff.mpr hd, Bool.false_or, Bool.and_eq_true, decide_eq_true_eq,
      decide_eq_true_eq] at h
    refine Or.inr ⟨Bool.eq_false_iff.mpr hd, h.1, ?_, ?_⟩
    · simpa [Char.le_def, UInt32.le_iff_toNat_le] using h.1
    · simpa [Char.le_def, UInt32.le_iff_toNat_le] using h.2

lemma digitVal_lt {c : Char} (h : lowerHex c = true) : digitVal c < 16 := by
  rcases lowerHex_cases h with ⟨hd, h1, h2⟩ | ⟨hd, ha, h1, h2⟩
  · rw [digitVal, if_pos hd]
    omega
  · rw [digitVal, if_neg (by simp [hd]), if_pos ha]
    omega

lemma digitVal_inj {c d : Char} (hc : lowerHex c = true) (hd : lowerHex d = true)
    (h : digitVal c = digitVal d) : c = d := by
  have hval : c.toNat = d.toNat := by
    unfold digitVal at h
    rcases lowerHex_cases hc with ⟨h1, h2, h3⟩ | ⟨h1, h2, h3, h4⟩ <;>
      rcases lowerHex_cases hd with ⟨h5, h6, h7⟩ | ⟨h5, h6, h7, h8⟩ <;>
      simp only [h1, h5, h2, h6, if_true, if_false, Bool.false_eq_true] at h <;> omega
  exact Char.toNat_inj.mp hval

theorem hextet_inj {s t : Str} (hlen : s.length = t.length) (hs : ∀ c ∈ s, lowerHex c = true)
    (ht : ∀ c ∈ t, lowerHex c = true) (h : hextet s = hextet t) : s = t := by
  have hdigits : s.reverse.map digitVal = t.reverse.map digitVal := by
    refine Nat.ofDigits_inj_of_len_eq (by decide) (by simp [hlen]) ?_ ?_ h
    · intro l hl
      obtain ⟨c, hc, rfl⟩ := List.mem_map.mp hl
      exact digitVal_lt (hs c (List.mem_reverse.mp hc))
    · intro l hl
      obtain ⟨c, hc, rfl⟩ := List.mem_map.mp hl
      exact digitVal_lt (ht c (List.mem_reverse.mp hc))
  rw [List.map_reverse, List.map_reverse, List.reverse_inj] at hdigits
  refine List.ext_getElem hlen (fun i h1 h2 => ?_)
  have hi := congrArg (fun l => l[i]?) hdigits
  simp only [List.getElem?_map, List.getElem?_eq_getElem h1, List.getElem?_eq_getElem h2,
    Option.map_some, Option.some.injEq] at hi
  exact digitVal_inj (hs _ (List.getElem_mem h1)) (ht _ (List.getElem_mem h2)) hi

def Padded (s : Str) : Prop := s.length = 4 ∧ ∀ c ∈ s, lowerHex c = true

lemma Padded.isHextet {s : Str} (h : Padded s) : isHextet s = true := by
  simp only [Inet6.isHextet, h.1, Bool.and_eq_true, decide_eq_true_eq, List.all_eq_true]
  exact ⟨by decide, fun c hc => by simp [isHexDigit, h.2 c hc]⟩

lemma Padded.colon_not_mem {s : Str} (h : Padded s) : ':' ∉ s :=
  fun hm => absurd (h.2 ':' hm) (by decide)

lemma parse_intercalate {gs : List Str} (hlen : gs.length = 8) (hgs : ∀ g ∈ gs, Padded g) :
    parse ([':'].intercalate gs) = some (gs.map hextet) := by
  have hsplit : split ([':'].intercalate gs) ':' = gs := by
    refine List.splitOn_intercalate ':' (fun g hg => (hgs g hg).colon_not_mem) ?_
    rintro rfl
    cases hlen
  rw [parse, hsplit, if_pos ⟨hlen, List.all_eq_true.mpr (fun g hg => (hgs g hg).isHextet)⟩]

theorem map_hextet_inj {gs hs : List Str} (hlen : gs.length = hs.length)
    (hgs : ∀ g ∈ gs, Padded g) (hhs : ∀ g ∈ hs, Padded g) (h : gs.map hextet = hs.map hextet) :
    gs = hs := by
  refine List.ext_getElem hlen (fun i h1 h2 => ?_)
  have hi := congrArg (fun l => l[i]?) h
  simp only [List.getElem?_map, List.getElem?_eq_getElem h1, List.getElem?_eq_getElem h2,
    Option.map_some, Option.some.injEq] at hi
  have hp := hgs _ (List.getElem_mem h1)
  have hq := hhs _ (List.getElem_mem h2)
  exact hextet_inj (hp.1.trans hq.1.symm) hp.2 hq.2 hi

end Inet6
