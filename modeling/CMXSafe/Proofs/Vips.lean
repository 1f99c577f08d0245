import CMXSafe.Proofs.Addresses

/-!
# The same address twice

`get_vip` of the endpoints and the init loop of the gateway give the same text, save for the one
shape of MAC that `echo` takes for an option, and for files that the glob of the loop does not
match.
-/

namespace CMXSafe.Proofs
open Strings Inet6 Gateway

/-- Four groups of hex digits between colons. -/
def isPrefix64 (pfx : Str) : Bool := (split pfx ':').length = 4 && (split pfx ':').all isHextet

/-- A text spells out the MAC `mac` behind the prefix: four groups of four digits, which are
the MAC with `fffe` in its middle. -/
def SpellsOut (pfx mac text : Str) : Prop :=
  ∃ gs : List Str, gs.length = 4 ∧ (∀ g ∈ gs, Padded g) ∧
    text = pfx ++ ':' :: [':'].intercalate gs ∧
    gs.flatten = mac.take 6 ++ "fffe".toList ++ mac.drop 6

/-- The endpoint and the gateway agree on a MAC. -/
structure SameVip (pfx m : Str) : Prop where
  fails : get_vip pfx m = none ↔ initAddress pfx m = none
  same : ∀ text, get_vip pfx m = some text →
    initAddress pfx m = some text ∧ SpellsOut pfx (normalise m) text

/-- A hyphen and twelve letters `e` or `E`. -/
def Swallowed (m : Str) : Prop := ∃ s, m = '-' :: s ∧ s.length = 12 ∧ ∀ c ∈ s, c = 'e' ∨ c = 'E'

/-- The name of a file that the glob does not match, although it is a spelling of a MAC. -/
def Hidden (m : Str) : Prop := m.head? = some '.' ∧ isMac (normalise m) = true

lemma initAddress_of_visible (pfx : Str) {m : Str} (h : m.head? ≠ some '.') :
    initAddress pfx m = addressBlock pfx m := by
  simp [initAddress, glob, h]

lemma initAddress_of_dot (pfx : Str) {m : Str} (h : m.head? = some '.') :
    initAddress pfx m = none := by
  simp [initAddress, glob, h]

lemma hasSuffix_colon {pfx : Str} (h : isPrefix64 pfx = true) : hasSuffix pfx [':'] = false := by
  rw [Bool.eq_false_iff]
  intro hs
  obtain ⟨t, rfl⟩ := hasSuffix_iff.mp hs
  -- the last group would be empty
  have hlast : ([] : Str) ∈ split (t ++ [':']) ':' := by
    rw [split, List.splitOn_append_cons_self]
    simp
  simp only [isPrefix64, Bool.and_eq_true, List.all_eq_true] at h
  exact absurd (h.2 [] hlast) (by decide)

lemma get_vip_eq {pfx : Str} (h : isPrefix64 pfx = true) (m : Str) :
    get_vip pfx m = addressBlock pfx (echoN m) := by
  unfold get_vip addressBlock
  change (if isMac (normalise (echoN m)) = true then _ else none) = _
  cases isMac (normalise (echoN m)) <;> simp [hasSuffix_colon h, normalise]

lemma padded_vipGroups {m : Str} (h : isMac m = true) : ∀ g ∈ vipGroups m, Padded g :=
  fun g hg => padded_groups h g (List.mem_of_mem_drop (i := 4) hg)

lemma spellsOut_addressBlock {pfx u text : Str} (h : addressBlock pfx u = some text) :
    SpellsOut pfx (normalise u) text := by
  unfold addressBlock at h
  split_ifs at h with hu
  cases h
  have hlen := (isMac_iff.mp hu).1
  refine ⟨vipGroups (normalise u), rfl, padded_vipGroups hu, by rw [iid_eq hlen], ?_⟩
  obtain ⟨a, b, c, d, e, f, g, i, j, k, l, n, hu'⟩ := eq_of_length_twelve hlen
  rw [hu']
  rfl

lemma isEchoOption_iff {m : Str} : isEchoOption m = true ↔
    ∃ s, m = '-' :: s ∧ s ≠ [] ∧ ∀ c ∈ s, c = 'n' ∨ c = 'e' ∨ c = 'E' := by
  constructor
  · intro h
    unfold isEchoOption at h
    split at h
    · rename_i s
      exact ⟨s, rfl, by simpa using h⟩
    · cases h
  · rintro ⟨s, rfl, hs⟩
    simpa [isEchoOption] using hs

/-- What `echo` swallows is an account that the gateway accepts in just one shape. -/
lemma swallowed_iff {m : Str} :
    (isEchoOption m = true ∧ isMac (normalise m) = true) ↔ Swallowed m := by
  have hnormalise : ∀ s : Str, (∀ c ∈ s, c = 'n' ∨ c = 'e' ∨ c = 'E') →
      normalise ('-' :: s) = lower s := by
    intro s hs
    have hhyphen : normalise ('-' :: s) = dropSeparators (lower s) := rfl
    rw [hhyphen, dropSeparators, List.filter_eq_self]
    intro c hc
    obtain ⟨d, hd, rfl⟩ := List.mem_map.mp hc
    rcases hs d hd with rfl | rfl | rfl <;> decide
  rw [isEchoOption_iff]
  constructor
  · rintro ⟨⟨s, rfl, -, hs⟩, hmac⟩
    rw [hnormalise s hs, isMac_iff, lower, List.length_map] at hmac
    refine ⟨s, rfl, hmac.1, fun c hc => (hs c hc).resolve_left ?_⟩
    rintro rfl
    exact absurd (hmac.2 _ (List.mem_map_of_mem hc)) (by decide)
  · rintro ⟨s, rfl, hlen, hs⟩
    have hs' : ∀ c ∈ s, c = 'n' ∨ c = 'e' ∨ c = 'E' := fun c hc => Or.inr (hs c hc)
    have hne : s ≠ [] := List.ne_nil_of_length_pos (by omega)
    refine ⟨⟨s, rfl, hne, hs'⟩, ?_⟩
    rw [hnormalise s hs', isMac_iff, lower, List.length_map]
    refine ⟨hlen, fun c hc => ?_⟩
    obtain ⟨d, hd, rfl⟩ := List.mem_map.mp hc
    rcases hs d hd with rfl | rfl <;> decide

lemma sameVip_of_visible {pfx m : Str} (h : isPrefix64 pfx = true) (hm : m.head? ≠ some '.') :
    SameVip pfx m ↔ ¬Swallowed m := by
  rw [← swallowed_iff]
  have hinit := initAddress_of_visible pfx hm
  by_cases hopt : isEchoOption m = true
  · have hnone : get_vip pfx m = none := by
      rw [get_vip_eq h, echoN, if_pos hopt]
      rfl
    constructor
    · rintro hsame ⟨-, hmac⟩
      have hskip := addressBlock_eq_none.mp (hinit ▸ hsame.fails.mp hnone)
      rw [hmac] at hskip
      cases hskip
    · intro hno
      refine ⟨⟨fun _ => hinit ▸ addressBlock_eq_none.mpr ?_, fun _ => hnone⟩, ?_⟩
      · exact Bool.eq_false_iff.mpr (fun hmac => hno ⟨hopt, hmac⟩)
      · intro text htext
        rw [hnone] at htext
        cases htext
  · have heq : get_vip pfx m = addressBlock pfx m := by rw [get_vip_eq h, echoN, if_neg hopt]
    have hsame : SameVip pfx m :=
      ⟨by rw [heq, hinit], fun text htext =>
        ⟨hinit ▸ heq ▸ htext, spellsOut_addressBlock (heq ▸ htext)⟩⟩
    exact ⟨fun _ hno => hopt hno.1, fun _ => hsame⟩

/-- The endpoint makes an address of a spelling of a MAC with a leading dot. -/
lemma sameVip_of_dot {pfx m : Str} (h : isPrefix64 pfx = true) (hm : m.head? = some '.') :
    SameVip pfx m ↔ isMac (normalise m) = false := by
  have hinit := initAddress_of_dot pfx hm
  have hopt : isEchoOption m = false := by
    obtain ⟨s, rfl⟩ := List.head?_eq_some_iff.mp hm
    rfl
  have heq : get_vip pfx m = addressBlock pfx m := by
    rw [get_vip_eq h, echoN, if_neg (by simp [hopt])]
  constructor
  · intro hsame
    exact addressBlock_eq_none.mp (heq ▸ hsame.fails.mpr hinit)
  · intro hmac
    have hnone : get_vip pfx m = none := heq ▸ addressBlock_eq_none.mpr hmac
    refine ⟨⟨fun _ => hinit, fun _ => hnone⟩, ?_⟩
    intro text htext
    rw [hnone] at htext
    cases htext

/-- Endpoint and gateway agree on a MAC if and only if `echo` does not swallow it, and the glob
matches its file. -/
theorem same_vip_iff {pfx : Str} (h : isPrefix64 pfx = true) (m : Str) :
    SameVip pfx m ↔ ¬Swallowed m ∧ ¬Hidden m := by
  by_cases hm : m.head? = some '.'
  · rw [sameVip_of_dot h hm]
    have hswallowed : ¬Swallowed m := by
      rintro ⟨s, rfl, -⟩
      cases hm
    simp [Hidden, hm, hswallowed]
  · rw [sameVip_of_visible h hm]
    simp [Hidden, hm]

theorem same_vip_iff_device :
    SameVip macGW "02:5f:9a:3d:b7:12".toList ↔
      ¬Swallowed "02:5f:9a:3d:b7:12".toList ∧ ¬Hidden "02:5f:9a:3d:b7:12".toList :=
  same_vip_iff (by decide +kernel) _

/-- Twelve letters behind a hyphen. -/
theorem vips_differ :
    isSecretKey "-eeeeeeeeeeee".toList = true ∧ get_vip macGW "-eeeeeeeeeeee".toList = none ∧
      initAddress macGW "-eeeeeeeeeeee".toList =
        some "2001:0242:6392:f935:eeee:eeff:feee:eeee".toList ∧
      ¬SameVip macGW "-eeeeeeeeeeee".toList := by
  have hnone : get_vip macGW "-eeeeeeeeeeee".toList = none := by decide +kernel
  have hsome : initAddress macGW "-eeeeeeeeeeee".toList =
      some "2001:0242:6392:f935:eeee:eeff:feee:eeee".toList := by decide +kernel
  refine ⟨by decide +kernel, hnone, hsome, fun h => ?_⟩
  have hskip := h.fails.mp hnone
  rw [hsome] at hskip
  cases hskip

end CMXSafe.Proofs
