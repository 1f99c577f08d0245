import CMXSafe.Gateway.Init

/-!
# Virtual addresses

The address of a MAC spells out this MAC, so that two names have the same address exactly when
they are spellings of one MAC.
-/

namespace CMXSafe.Proofs
open Strings Inet6 Gateway

/-- The four groups of the interface identifier. -/
def vipGroups (m : Str) : List Str :=
  [m.take 4, (m.drop 4).take 2 ++ "ff".toList, "fe".toList ++ (m.drop 6).take 2, m.drop 8]

def groups (m : Str) : List Str :=
  ["2001".toList, "0242".toList, "6392".toList, "f935".toList] ++ vipGroups m

lemma isMac_iff {m : Str} : isMac m = true ↔ m.length = 12 ∧ ∀ c ∈ m, lowerHex c = true := by
  simp [isMac]

lemma eq_of_length_twelve {m : Str} (h : m.length = 12) :
    ∃ a b c d e f g i j k l n, m = [a, b, c, d, e, f, g, i, j, k, l, n] := by
  match m, h with
  | [a, b, c, d, e, f, g, i, j, k, l, n], _ => exact ⟨a, b, c, d, e, f, g, i, j, k, l, n, rfl⟩

lemma iid_eq {m : Str} (h : m.length = 12) : iid m = [':'].intercalate (vipGroups m) := by
  obtain ⟨a, b, c, d, e, f, g, i, j, k, l, n, rfl⟩ := eq_of_length_twelve h
  have hcolons : colonEvery4 ([a, b, c, d, e, f] ++ "fffe".toList ++ [g, i, j, k, l, n]) =
      [a, b, c, d, ':', e, f, 'f', 'f', ':', 'f', 'e', g, i, ':', j, k, l, n] ++ [':'] := rfl
  change trimSuffix (colonEvery4 ([a, b, c, d, e, f] ++ "fffe".toList ++ [g, i, j, k, l, n]))
    [':'] = _
  rw [hcolons, trimSuffix_append]
  rfl

lemma text_eq_groups {m : Str} (h : m.length = 12) :
    macGW ++ ':' :: iid m = [':'].intercalate (groups m) := by
  rw [iid_eq h]
  obtain ⟨a, b, c, d, e, f, g, i, j, k, l, n, rfl⟩ := eq_of_length_twelve h
  rfl

lemma padded_groups {m : Str} (h : isMac m = true) : ∀ g ∈ groups m, Padded g := by
  obtain ⟨hlen, hhex⟩ := isMac_iff.mp h
  obtain ⟨a, b, c, d, e, f, g, i, j, k, l, n, rfl⟩ := eq_of_length_twelve hlen
  have hff : lowerHex 'f' = true := by decide
  have hfe : lowerHex 'e' = true := by decide
  simp only [List.mem_cons, List.not_mem_nil, or_false, forall_eq_or_imp, forall_eq] at hhex
  intro x hx
  simp only [groups, vipGroups, List.cons_append, List.nil_append, List.mem_cons,
    List.not_mem_nil, or_false] at hx
  rcases hx with rfl | rfl | rfl | rfl | rfl | rfl | rfl | rfl
  · exact ⟨rfl, List.all_eq_true.mp (by decide +kernel)⟩
  · exact ⟨rfl, List.all_eq_true.mp (by decide +kernel)⟩
  · exact ⟨rfl, List.all_eq_true.mp (by decide +kernel)⟩
  · exact ⟨rfl, List.all_eq_true.mp (by decide +kernel)⟩
  all_goals
    refine ⟨rfl, ?_⟩
    simp [hhex, hff, hfe]

lemma groups_inj {m m' : Str} (h : m.length = 12) (h' : m'.length = 12)
    (hg : groups m = groups m') : m = m' := by
  obtain ⟨a, b, c, d, e, f, g, i, j, k, l, n, rfl⟩ := eq_of_length_twelve h
  obtain ⟨a', b', c', d', e', f', g', i', j', k', l', n', rfl⟩ := eq_of_length_twelve h'
  simpa [groups, vipGroups, and_assoc] using hg

lemma addressBlock_eq_none {pfx u : Str} :
    addressBlock pfx u = none ↔ isMac (normalise u) = false := by
  simp [addressBlock]

lemma parse_addressBlock {u : Str} (h : isMac (normalise u) = true) :
    (addressBlock macGW u).bind parse = some ((groups (normalise u)).map hextet) := by
  rw [addressBlock, if_pos h, Option.bind_some, text_eq_groups (isMac_iff.mp h).1]
  exact parse_intercalate rfl (padded_groups h)

/-- The address of a name tells its normalised form. -/
lemma addressBlock_inj {u v : Str} {a b : List Nat}
    (hu : (addressBlock macGW u).bind parse = some a)
    (hv : (addressBlock macGW v).bind parse = some b) :
    a = b ↔ normalise u = normalise v := by
  have hmac : ∀ {w c}, (addressBlock macGW w).bind parse = some c →
      isMac (normalise w) = true := by
    intro w c h
    by_contra hno
    rw [addressBlock_eq_none.mpr (Bool.eq_false_iff.mpr hno)] at h
    cases h
  have hmu := hmac hu
  have hmv := hmac hv
  rw [parse_addressBlock hmu, Option.some.injEq] at hu
  rw [parse_addressBlock hmv, Option.some.injEq] at hv
  subst hu hv
  constructor
  · intro h
    have hlen : (groups (normalise u)).length = (groups (normalise v)).length := rfl
    have hgroups := map_hextet_inj hlen (padded_groups hmu) (padded_groups hmv) h
    exact groups_inj (isMac_iff.mp hmu).1 (isMac_iff.mp hmv).1 hgroups
  · intro h
    rw [h]

def isSecretKey (u : Str) : Bool := u ≠ [] && u.all (fun c => c.isAlphanum || c ∈ ['-', '.', '_'])

def plainKey : Str := "025f9a3db712".toList

def dashedKey : Str := "02-5f-9a-3d-b7-12".toList

end CMXSafe.Proofs
