import CMXSafe.Client.Services
import CMXSafe.Gateway.Init
import CMXSafe.Kube.Names

/-!
# The names derived from an account

A device account is any spelling of a MAC. The three objects of its user have legal names
only for some spellings, because the east-west Service is called like the account itself.
-/

namespace CMXSafe.Proofs
open Strings Inet6 Gateway

def homeOf (u : Str) : Str := "/home/".toList ++ u

/-- A spelling without upper-case letters, dots or colons, that starts with a letter, ends
in no hyphen, and leaves room for the prefix `dynamic-service-`. -/
def plainSpelling (u : Str) : Bool :=
  u.length ≤ 47 && u.all (fun c => lowerHex c || c = '-') &&
    u.head?.all (fun c => !c.isDigit && c ≠ '-') && u.getLast?.all (· ≠ '-')

/-- What Kubernetes demands of the names of a user's Services and EndpointSlice. -/
structure LegalNames (user : Str) : Prop where
  ns : isRFC1035Label (servicePrefix ++ user) = true
  ew : isRFC1035Label user = true
  slice : isRFC1123Subdomain (sliceName user) = true

lemma plainSpelling_iff {u : Str} :
    plainSpelling u = true ↔ u.length ≤ 47 ∧ (∀ c ∈ u, lowerHex c = true ∨ c = '-') ∧
      (∀ c ∈ u.head?, c.isDigit = false ∧ c ≠ '-') ∧ ∀ c ∈ u.getLast?, c ≠ '-' := by
  simp [plainSpelling, and_assoc, Option.all_eq_true]

lemma isLower_iff {c : Char} : c.isLower = true ↔ 97 ≤ c.toNat ∧ c.toNat ≤ 122 := by
  change (decide (97 ≤ c.val) && decide (c.val ≤ 122)) = true ↔ _
  simp [UInt32.le_iff_toNat_le]

lemma isDigit_iff {c : Char} : c.isDigit = true ↔ 48 ≤ c.toNat ∧ c.toNat ≤ 57 := by
  simp [Char.isDigit, UInt32.le_iff_toNat_le]

lemma toLower_of_lowerAlnum {c : Char} (h : lowerAlnum c = true) : c.toLower = c := by
  have hupper : ¬(65 ≤ c.toNat ∧ c.toNat ≤ 90) := by
    rw [lowerAlnum, Bool.or_eq_true, isLower_iff, isDigit_iff] at h
    omega
  have hval : ¬(c.val ≥ 'A'.val ∧ c.val ≤ 'Z'.val) := by
    rw [ge_iff_le, UInt32.le_iff_toNat_le, UInt32.le_iff_toNat_le]
    exact hupper
  exact dif_neg hval

lemma lowerAlnum_of_lowerHex {c : Char} (h : lowerHex c = true) : lowerAlnum c = true := by
  rcases lowerHex_cases h with ⟨hd, -⟩ | ⟨-, -, h1, h2⟩
  · simp [lowerAlnum, hd]
  · simp [lowerAlnum, isLower_iff.mpr ⟨h1, by omega⟩]

section
variable {u : Str} (h : isMac (normalise u) = true)
include h

/-- What a spelling of a MAC is made of. -/
lemma char_of_isMac {c : Char} (hc : c ∈ u) :
    lowerHex c.toLower = true ∨ c.toLower ∈ [':', '.', '\\', '-'] := by
  have hhex : ∀ d ∈ normalise u, lowerHex d = true := by
    simp only [isMac, Bool.and_eq_true, List.all_eq_true] at h
    exact h.2
  by_cases hsep : c.toLower ∈ [':', '.', '\\', '-']
  · exact Or.inr hsep
  · refine Or.inl (hhex c.toLower ?_)
    exact List.mem_filter.mpr ⟨List.mem_map_of_mem hc, by simpa using hsep⟩

lemma ne_nil_of_isMac : u ≠ [] := by
  rintro rfl
  exact absurd h (by decide)

lemma slash_not_mem_of_isMac : '/' ∉ u := by
  intro hc
  exact absurd (char_of_isMac h hc) (by decide)

lemma lowerHex_of_isMac {c : Char} (hc : c ∈ u) (ha : lowerAlnum c = true) :
    lowerHex c = true := by
  have hlower := toLower_of_lowerAlnum ha
  rcases char_of_isMac h hc with hx | hx
  · exact hlower ▸ hx
  · rw [hlower] at hx
    simp only [List.mem_cons, List.not_mem_nil, or_false] at hx
    rcases hx with rfl | rfl | rfl | rfl <;> exact absurd ha (by decide)

lemma extractUsername_home : extractUsername (homeOf u) = u := by
  have hpath : homeOf u = ['/'].intercalate [[], "home".toList, u] := by
    have hhome : "/home/".toList = '/' :: ("home".toList ++ ['/']) := by decide
    have hjoin : ∀ d : Str, '/' :: (d ++ ['/']) ++ u = ['/'].intercalate [[], d, u] := by
      intro d
      simp [List.intercalate]
    exact (congrArg (· ++ u) hhome).trans (hjoin _)
  have hsplit : split (homeOf u) '/' = [[], "home".toList, u] := by
    rw [hpath, split]
    refine List.splitOn_intercalate '/' ?_ (by simp)
    intro p hp
    simp only [List.mem_cons, List.not_mem_nil, or_false] at hp
    rcases hp with rfl | rfl | rfl
    · simp
    · decide
    · exact slash_not_mem_of_isMac h
  simp [extractUsername, hsplit]

/-- The two Services of a user have legal names only if the account is a plain spelling. -/
lemma plainSpelling_of_legal (hu : LegalNames u) : plainSpelling u = true := by
  obtain ⟨hns, hew, -⟩ := hu
  simp only [isRFC1035Label, isRFC1123Label, dnsLabel, Bool.and_eq_true, decide_eq_true_eq,
    List.all_eq_true] at hns hew
  obtain ⟨⟨-, ⟨⟨-, hchar⟩, -⟩, hlast⟩, hhead⟩ := hew
  have hlen : servicePrefix.length = 16 := by decide
  refine plainSpelling_iff.mpr ⟨?_, ?_, ?_, ?_⟩
  · have htotal := hns.1.1
    rw [List.length_append, hlen] at htotal
    omega
  · intro c hc
    have hcc := hchar c hc
    simp only [labelChar, Bool.or_eq_true, decide_eq_true_eq] at hcc
    exact hcc.imp_left (lowerHex_of_isMac h hc)
  · intro c hc
    have hlower : c.isLower = true := by rwa [hc, Option.all_some] at hhead
    refine ⟨?_, by rintro rfl; exact absurd hlower (by decide)⟩
    rw [Bool.eq_false_iff]
    intro hdigit
    have h1 := isLower_iff.mp hlower
    have h2 := isDigit_iff.mp hdigit
    omega
  · rintro c hc rfl
    rw [hc, Option.all_some] at hlast
    exact absurd hlast (by decide)

omit h in
lemma legal_of_plainSpelling (hne : u ≠ []) (hu : plainSpelling u = true) : LegalNames u := by
  obtain ⟨hlen, hchar, hhead, hlast⟩ := plainSpelling_iff.mp hu
  have hall : u.all labelChar = true := by
    refine List.all_eq_true.mpr (fun c hc => ?_)
    rcases hchar c hc with hx | rfl
    · simp [labelChar, lowerAlnum_of_lowerHex hx]
    · decide
  have hlower : u.head?.all Char.isLower = true := by
    cases hu' : u.head? with
    | none => rfl
    | some c =>
      obtain ⟨hd, hm⟩ := hhead c hu'
      have hx := (hchar c (List.mem_of_head? hu')).resolve_right hm
      rw [Option.all_some, isLower_iff]
      rcases lowerHex_cases hx with ⟨hd', -⟩ | ⟨-, -, h1, h2⟩
      · rw [hd] at hd'
        cases hd'
      · omega
  have hstart : u.head?.all lowerAlnum = true := by
    cases hu' : u.head? with
    | none => rfl
    | some c =>
      rw [hu', Option.all_some] at hlower
      simp [lowerAlnum, hlower]
  have hend : u.getLast?.all lowerAlnum = true := by
    cases hu' : u.getLast? with
    | none => rfl
    | some c =>
      have hx := (hchar c (List.mem_of_getLast? hu')).resolve_right (hlast c hu')
      rw [Option.all_some]
      exact lowerAlnum_of_lowerHex hx
  refine ⟨?_, ?_, ?_⟩
  · have hlabel : dnsLabel (servicePrefix ++ u) = true :=
      dnsLabel_append (by decide) hne (by decide) hall (by decide) hend
    have htotal : (servicePrefix ++ u).length ≤ 63 := by
      have hpfx : servicePrefix.length = 16 := by decide
      rw [List.length_append, hpfx]
      omega
    have hfirst : (servicePrefix ++ u).head?.all Char.isLower = true := rfl
    simp only [isRFC1035Label, isRFC1123Label, hlabel, htotal, hfirst, decide_true, Bool.and_self]
  · have hlabel : dnsLabel u = true := by simp [dnsLabel, hne, hall, hstart, hend]
    have htotal : u.length ≤ 63 := by omega
    simp only [isRFC1035Label, isRFC1123Label, hlabel, htotal, hlower, decide_true, Bool.and_self]
  · have hlabel : dnsLabel (sliceName u) = true :=
      dnsLabel_append hne (by decide) hall (by decide) hstart (by decide)
    have hdot : '.' ∉ sliceName u := not_mem_of_dnsLabel hlabel (by decide)
    have hsplit : split (sliceName u) '.' = [sliceName u] := by
      have hone := List.splitOn_intercalate '.' (fun p hp => List.mem_singleton.mp hp ▸ hdot)
        (List.cons_ne_nil (sliceName u) [])
      simpa [List.intercalate, split] using hone
    have htotal : (sliceName u).length ≤ 253 := by
      have hsuf : "-slice".toList.length = 6 := by decide
      rw [sliceName, List.length_append, hsuf]
      omega
    simp [isRFC1123Subdomain, hsplit, hlabel, htotal]

/-- In a session in the home directory of a device account, the three objects of the user
have legal names if and only if the account is a plain spelling of its MAC. -/
theorem legal_names_iff :
    (extractUsername (homeOf u) = u ∧ LegalNames (extractUsername (homeOf u))) ↔
      plainSpelling u = true := by
  rw [extractUsername_home h]
  exact ⟨fun hl => plainSpelling_of_legal h hl.2,
    fun hp => ⟨rfl, legal_of_plainSpelling (ne_nil_of_isMac h) hp⟩⟩

end

theorem legal_names_iff_letter :
    (extractUsername (homeOf "a23ff868ec8f".toList) = "a23ff868ec8f".toList ∧
        LegalNames (extractUsername (homeOf "a23ff868ec8f".toList))) ↔
      plainSpelling "a23ff868ec8f".toList = true :=
  legal_names_iff (by decide)

/-- A MAC that starts with a digit is no name for a Service. -/
theorem digit_name_not_legal :
    isMac (normalise "025f9a3db712".toList) = true ∧
      ¬LegalNames (extractUsername (homeOf "025f9a3db712".toList)) := by
  refine ⟨by decide, fun h => ?_⟩
  exact absurd h.ew (by decide)

end CMXSafe.Proofs
