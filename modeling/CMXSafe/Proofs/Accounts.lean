import CMXSafe.Gateway.Accounts
import CMXSafe.Proofs.Addresses

/-!
# The accounts of a gateway

awk finds the line of a user by a comparison that takes some names for numbers, and reports
the first line that it finds. The loop goes on as long as each entry has a line of its own
name, and a home belongs to its account as long as no earlier line compares equal.
-/

namespace CMXSafe.Proofs
open Strings Stores Machines Gateway Awk Inet6

variable {base : List PasswdLine} {U : Useradd base} {ν : Type} [DecidableEq ν] {round : ℚ → ν}

/-- The ids of the first line that awk finds. -/
def firstIds (round : ℚ → ν) (u : Str) (passwd : List PasswdLine) : Option (Nat × Nat) :=
  (passwd.find? (fun l => same round l.name u)).map (fun l => (l.uid, l.gid))

def passwdAfter (U : Useradd base) (keys : List Str) : List PasswdLine :=
  base ++ keys.filterMap U.line

lemma passwdAfter_concat (keys : List Str) (u : Str) :
    passwdAfter U (keys ++ [u]) = useradd U u (passwdAfter U keys) := by
  rw [passwdAfter, useradd, passwdAfter, List.filterMap_append, List.append_assoc]
  cases h : U.line u <;> simp [h]

/-- A turn gets to its end if and only if the entry has a line, and then its home goes to
the first line that awk finds. -/
lemma addUser_eq (s : Setup) (u : Str) :
    addUser U round s u =
      if u ∈ (useradd U u s.passwd).map PasswdLine.name then
        (firstIds round u (useradd U u s.passwd)).map (fun i =>
          ⟨s.addresses ++ (addressBlock macGW u).toList, useradd U u s.passwd,
            setKey u i s.homes, s.locked ++ [u]⟩)
      else none := by
  unfold addUser awkIds firstIds
  dsimp only
  generalize useradd U u s.passwd = p
  rw [← List.head?_filter]
  cases h : p.filter (fun l => same round l.name u) with
  | nil => simp
  | cons l ls => simp

lemma firstIds_isSome {u : Str} {p : List PasswdLine} (h : u ∈ p.map PasswdLine.name) :
    (firstIds round u p).isSome = true := by
  obtain ⟨l, hl, rfl⟩ := List.mem_map.mp h
  rw [firstIds, Option.isSome_map, List.find?_isSome]
  exact ⟨l, hl, same_self⟩

/-- What the loop has set up behind the entries `keys`. -/
structure SetUp (U : Useradd base) (round : ℚ → ν) (keys : List Str) (s : Setup) : Prop where
  addresses : s.addresses = keys.flatMap (fun u => (addressBlock macGW u).toList)
  passwd : s.passwd = passwdAfter U keys
  homes : ∀ pre u post, keys = pre ++ u :: post → u ∉ post →
    lookup s.homes u = firstIds round u (passwdAfter U (pre ++ [u]))
  locked : s.locked = keys

lemma setUp_nil : SetUp U round [] { passwd := base } where
  addresses := rfl
  passwd := (List.append_nil base).symm
  homes := fun pre u post h => absurd h (by simp)
  locked := rfl

lemma setUp_concat {keys : List Str} {s t : Setup} {u : Str} (h : SetUp U round keys s)
    (ht : addUser U round s u = some t) : SetUp U round (keys ++ [u]) t := by
  rw [addUser_eq, h.passwd, ← passwdAfter_concat] at ht
  split_ifs at ht
  obtain ⟨i, hi, rfl⟩ := Option.map_eq_some_iff.mp ht
  refine ⟨?_, rfl, ?_, ?_⟩
  · rw [h.addresses, List.flatMap_append, List.flatMap_singleton]
  · intro pre v post he hv
    rcases List.eq_nil_or_concat post with rfl | ⟨post', w, rfl⟩
    · obtain ⟨rfl, hvu⟩ := List.append_inj' he rfl
      cases hvu
      exact (lookup_setKey_self _ _ _).trans hi.symm
    · -- the last entry is another one, so the home of `v` stays
      have he' : keys ++ [u] = (pre ++ v :: post') ++ [w] := by rw [he]; simp
      obtain ⟨rfl, huw⟩ := List.append_inj' he' rfl
      cases huw
      have hne : v ≠ u := by
        rintro rfl
        simp at hv
      refine (lookup_setKey_of_ne hne _ _).trans (h.homes pre v post' rfl ?_)
      intro hmem
      simp [hmem] at hv
  · rw [h.locked]

theorem setUp_run {keys : List Str} {s : Setup}
    (h : run (addUser U round) { passwd := base } keys = some s) : SetUp U round keys s := by
  induction keys using List.reverseRecOn generalizing s with
  | nil =>
    cases h
    exact setUp_nil
  | append_singleton keys u ih =>
    obtain ⟨t, ht, hs⟩ := run_append.mp h
    obtain ⟨s', hs', hnil⟩ := run_cons.mp hs
    cases hnil
    exact setUp_concat (ih ht) hs'

lemma mem_names_passwdAfter {keys : List Str} {u : Str} :
    u ∈ (passwdAfter U keys).map PasswdLine.name ↔
      u ∈ base.map PasswdLine.name ∨ u ∈ keys ∧ (U.ids u).isSome = true := by
  have hline : ∀ v l, U.line v = some l → l.name = v := by
    intro v l hl
    obtain ⟨i, -, rfl⟩ := Option.map_eq_some_iff.mp hl
    rfl
  rw [passwdAfter, List.map_append, List.mem_append]
  refine or_congr_right ⟨?_, ?_⟩
  · intro h
    obtain ⟨l, hl, rfl⟩ := List.mem_map.mp h
    obtain ⟨v, hv, hvl⟩ := List.mem_filterMap.mp hl
    rw [hline v l hvl]
    refine ⟨hv, ?_⟩
    rw [Useradd.line, Option.map_eq_some_iff] at hvl
    obtain ⟨i, hi, -⟩ := hvl
    rw [hi]
    rfl
  · rintro ⟨hu, hi⟩
    obtain ⟨i, hi⟩ := Option.isSome_iff_exists.mp hi
    exact List.mem_map.mpr ⟨⟨u, i.1, i.2⟩,
      List.mem_filterMap.mpr ⟨u, hu, by rw [Useradd.line, hi]; rfl⟩, rfl⟩

/-- The loop gets to its end if and only if each entry for which `useradd` fails has a line
in the seeded file. -/
theorem run_isSome_iff {keys : List Str} :
    (∃ s, run (addUser U round) { passwd := base } keys = some s) ↔
      ∀ u ∈ keys, U.ids u = none → u ∈ base.map PasswdLine.name := by
  induction keys using List.reverseRecOn with
  | nil => simp
  | append_singleton keys u ih =>
    have hlast : ∀ s, run (addUser U round) { passwd := base } keys = some s →
        ((addUser U round s u).isSome = true ↔
          (U.ids u = none → u ∈ base.map PasswdLine.name)) := by
      intro s hs
      have hmem : u ∈ (passwdAfter U (keys ++ [u])).map PasswdLine.name ↔
          (U.ids u = none → u ∈ base.map PasswdLine.name) := by
        rw [mem_names_passwdAfter]
        cases U.ids u <;> simp
      rw [addUser_eq, (setUp_run hs).passwd, ← passwdAfter_concat, ← hmem]
      split_ifs with h
      · simp only [Option.isSome_map, firstIds_isSome h, h]
      · simp [h]
    rw [List.forall_mem_append, ← ih, List.forall_mem_singleton]
    constructor
    · rintro ⟨t, ht⟩
      obtain ⟨s, hs, hst⟩ := run_append.mp ht
      obtain ⟨t', ht', -⟩ := run_cons.mp hst
      exact ⟨⟨s, hs⟩, (hlast s hs).mp (by rw [ht']; rfl)⟩
    · rintro ⟨⟨s, hs⟩, hu⟩
      obtain ⟨t, ht⟩ := Option.isSome_iff_exists.mp ((hlast s hs).mpr hu)
      exact ⟨t, run_append.mpr ⟨s, hs, run_cons.mpr ⟨t, ht, rfl⟩⟩⟩

/-- A home belongs to its account if and only if no earlier line compares equal. -/
lemma firstIds_eq_iff {keys : List Str} {u : Str} {i : Nat × Nat} (hi : U.ids u = some i)
    (hu : u ∉ keys) :
    firstIds round u (passwdAfter U (keys ++ [u])) = some i ↔
      ∀ l ∈ passwdAfter U keys, same round l.name u = false := by
  have hfresh : ∀ l ∈ passwdAfter U keys, l.uid ≠ i.1 := by
    intro l hl heq
    rcases List.mem_append.mp hl with hl | hl
    · exact U.fresh_base hi (heq ▸ List.mem_map.mpr ⟨l, hl, rfl⟩)
    · obtain ⟨v, hv, hvl⟩ := List.mem_filterMap.mp hl
      obtain ⟨j, hj, rfl⟩ := Option.map_eq_some_iff.mp hvl
      exact hu (U.fresh hj hi heq ▸ hv)
  have hline : passwdAfter U (keys ++ [u]) = passwdAfter U keys ++ [⟨u, i.1, i.2⟩] := by
    rw [passwdAfter_concat, useradd, Useradd.line, hi]
    rfl
  rw [firstIds, hline, List.find?_append]
  constructor
  · intro h
    by_contra hno
    have hfound : (passwdAfter U keys).find? (fun l => same round l.name u) ≠ none := by
      simpa using hno
    obtain ⟨l, hl⟩ := Option.ne_none_iff_exists'.mp hfound
    rw [hl, Option.some_or, Option.map_some, Option.some.injEq] at h
    exact hfresh l (List.mem_of_find?_eq_some hl) (congrArg Prod.fst h)
  · intro h
    rw [List.find?_eq_none.mpr (by simpa using h)]
    simp

/-- awk tells the names apart from each other and from those of the seeded file. -/
structure Apart (round : ℚ → ν) (base : List PasswdLine) (us : List Str) : Prop where
  seeded : ∀ l ∈ base, ∀ u ∈ us, same round l.name u = false
  added : ∀ u ∈ us, ∀ v ∈ us, same round u v = true → u = v

/-- The entries for which `useradd` succeeds. -/
def added (U : Useradd base) (keys : List Str) : List Str :=
  keys.filter (fun u => (U.ids u).isSome)

lemma mem_added {keys : List Str} {u : Str} :
    u ∈ added U keys ↔ u ∈ keys ∧ ∃ i, U.ids u = some i := by
  rw [added, List.mem_filter, Option.isSome_iff_exists]

lemma mem_passwdAfter {keys : List Str} {l : PasswdLine} :
    l ∈ passwdAfter U keys ↔
      l ∈ base ∨ l.name ∈ keys ∧ U.ids l.name = some (l.uid, l.gid) := by
  rw [passwdAfter, List.mem_append, List.mem_filterMap]
  refine or_congr_right ⟨?_, ?_⟩
  · rintro ⟨u, hu, hl⟩
    obtain ⟨i, hi, rfl⟩ := Option.map_eq_some_iff.mp hl
    exact ⟨hu, hi⟩
  · rintro ⟨hu, hi⟩
    exact ⟨l.name, hu, by rw [Useradd.line, hi]; rfl⟩

section
variable {keys : List Str} {s : Setup}

lemma lookup_homes (h : SetUp U round keys s) (hn : keys.Nodup) {pre post : List Str} {u : Str}
    (hk : keys = pre ++ u :: post) {i : Nat × Nat} (hi : U.ids u = some i) :
    lookup s.homes u = some i ↔ ∀ l ∈ passwdAfter U pre, same round l.name u = false := by
  rw [hk, List.nodup_middle, List.nodup_cons, List.mem_append, not_or] at hn
  rw [h.homes pre u post hk hn.1.2]
  exact firstIds_eq_iff hi hn.1.1

/-- Every account owns its home if and only if awk tells the names apart. -/
theorem homes_iff_apart (h : SetUp U round keys s) (hn : keys.Nodup) :
    (∀ u ∈ keys, ∀ i, U.ids u = some i → lookup s.homes u = some i) ↔
      Apart round base (added U keys) := by
  constructor
  · intro hall
    have hpre : ∀ pre u post, keys = pre ++ u :: post → ∀ i, U.ids u = some i →
        ∀ l ∈ passwdAfter U pre, same round l.name u = false := by
      intro pre u post hk i hi
      exact (lookup_homes h hn hk hi).mp (hall u (by simp [hk]) i hi)
    -- a name compares different from the names added before it
    have hlater : ∀ pre u post, keys = pre ++ u :: post → ∀ i, U.ids u = some i →
        ∀ v ∈ pre, ∀ j, U.ids v = some j → same round v u = false := by
      intro pre u post hk i hi v hv j hj
      exact hpre pre u post hk i hi ⟨v, j.1, j.2⟩ (mem_passwdAfter.mpr (Or.inr ⟨hv, hj⟩))
    refine ⟨fun l hl u hu => ?_, fun u hu v hv hsame => ?_⟩
    · obtain ⟨hu, i, hi⟩ := mem_added.mp hu
      obtain ⟨pre, post, hk⟩ := List.append_of_mem hu
      exact hpre pre u post hk i hi l (mem_passwdAfter.mpr (Or.inl hl))
    · obtain ⟨hu, i, hi⟩ := mem_added.mp hu
      obtain ⟨hv, j, hj⟩ := mem_added.mp hv
      obtain ⟨pre, post, hk⟩ := List.append_of_mem hu
      rw [hk, List.mem_append, List.mem_cons] at hv
      rcases hv with hv | hv | hv
      · have hdiff := hlater pre u post hk i hi v hv j hj
        rw [same_comm, hsame] at hdiff
        cases hdiff
      · exact hv.symm
      · obtain ⟨mid, post', rfl⟩ := List.append_of_mem hv
        have hk' : keys = (pre ++ u :: mid) ++ v :: post' := by simp [hk]
        have hdiff := hlater _ v post' hk' j hj u (by simp) i hi
        rw [hsame] at hdiff
        cases hdiff
  · intro hapart u hu i hi
    obtain ⟨pre, post, hk⟩ := List.append_of_mem hu
    refine (lookup_homes h hn hk hi).mpr (fun l hl => ?_)
    have hu' : u ∈ added U keys := mem_added.mpr ⟨hu, i, hi⟩
    rcases mem_passwdAfter.mp hl with hl | ⟨hl, hids⟩
    · exact hapart.seeded l hl u hu'
    · have hl' : l.name ∈ added U keys := mem_added.mpr ⟨by simp [hk, hl], _, hids⟩
      rw [Bool.eq_false_iff]
      intro hsame
      rw [hapart.added _ hl' u hu' hsame] at hl
      rw [hk, List.nodup_middle, List.nodup_cons, List.mem_append, not_or] at hn
      exact hn.1.1 hl

end

lemma glob_of_isMac {keys : List Str} (h : ∀ u ∈ keys, isMac u = true) : glob keys = keys := by
  refine List.filter_eq_self.mpr (fun u hu => ?_)
  obtain ⟨hlen, hhex⟩ := isMac_iff.mp (h u hu)
  cases u with
  | nil => cases hlen
  | cons c u =>
    have hc : c ≠ '.' := by
      rintro rfl
      exact absurd (hhex '.' (by simp)) (by decide)
    simpa using hc

/-- For keys of twelve hex digits that `useradd` all adds, each home belongs to the account
of its name, and no two to one account, if and only if awk tells the keys apart from each
other and from the seeded names. -/
theorem homes_own_iff (U : Useradd base) (round : ℚ → ν) (keys : List Str) (hn : keys.Nodup)
    (hmac : ∀ u ∈ keys, isMac u = true) (hadd : ∀ u ∈ keys, (U.ids u).isSome = true) :
    (∃ s, addUsers U round keys = some s ∧
      (∀ u ∈ keys, ∃ l ∈ s.passwd, l.name = u ∧ lookup s.homes u = some (l.uid, l.gid)) ∧
      ∀ u ∈ keys, ∀ v ∈ keys, u ≠ v →
        (lookup s.homes u).map Prod.fst ≠ (lookup s.homes v).map Prod.fst) ↔
      Apart round base keys := by
  have hall : added U keys = keys := List.filter_eq_self.mpr hadd
  have hruns : ∃ s, addUsers U round keys = some s := by
    rw [addUsers, glob_of_isMac hmac]
    refine run_isSome_iff.mpr (fun u hu hnone => ?_)
    have hsome := hadd u hu
    rw [hnone] at hsome
    cases hsome
  have hset : ∀ s, addUsers U round keys = some s → SetUp U round keys s := by
    intro s hs
    rw [addUsers, glob_of_isMac hmac] at hs
    exact setUp_run hs
  constructor
  · rintro ⟨s, hs, hown, -⟩
    have hs' := hset s hs
    rw [← hall, ← homes_iff_apart hs' hn]
    intro u hu i hi
    obtain ⟨l, hl, rfl, hhome⟩ := hown u hu
    rw [hs'.passwd] at hl
    rcases mem_passwdAfter.mp hl with hl | ⟨-, hids⟩
    · exact absurd (List.mem_map.mpr ⟨l, hl, rfl⟩) (U.unused hi)
    · rw [hhome, ← hids, hi]
  · intro hapart
    obtain ⟨s, hs⟩ := hruns
    have hs' := hset s hs
    rw [← hall, ← homes_iff_apart hs' hn] at hapart
    refine ⟨s, hs, fun u hu => ?_, fun u hu v hv hne heq => ?_⟩
    · obtain ⟨i, hi⟩ := Option.isSome_iff_exists.mp (hadd u hu)
      refine ⟨⟨u, i.1, i.2⟩, ?_, rfl, hapart u hu i hi⟩
      rw [hs'.passwd]
      exact mem_passwdAfter.mpr (Or.inr ⟨hu, hi⟩)
    · obtain ⟨i, hi⟩ := Option.isSome_iff_exists.mp (hadd u hu)
      obtain ⟨j, hj⟩ := Option.isSome_iff_exists.mp (hadd v hv)
      rw [hapart u hu i hi, hapart v hv j hj, Option.map_some, Option.map_some,
        Option.some.injEq] at heq
      exact hne (U.fresh hi hj heq)

def rootLine : PasswdLine := ⟨"root".toList, 0, 0⟩

/-- The first two free uids for two new names. -/
def twoUsers (a b : Str) (h : a ≠ "root".toList ∧ b ≠ "root".toList) : Useradd [rootLine] where
  ids u := if u = a then some (1000, 1000) else if u = b then some (1001, 1001) else none
  unused := by
    intro u i hi
    rw [List.map_singleton, List.mem_singleton]
    split_ifs at hi with ha hb
    · exact ha ▸ h.1
    · exact hb ▸ h.2
  fresh_base := by
    intro u i hi
    rw [List.map_singleton, List.mem_singleton]
    split_ifs at hi <;> cases hi <;> decide
  fresh := by
    intro u v i j hi hj heq
    split_ifs at hi hj <;> cases hi <;> cases hj <;> simp_all

def otherKey : Str := "0242ac110002".toList

def exampleUseradd : Useradd [rootLine] := twoUsers plainKey otherKey (by decide)

instance (us : List Str) : Decidable (Apart round base us) :=
  decidable_of_iff ((∀ l ∈ base, ∀ u ∈ us, same round l.name u = false) ∧
      ∀ u ∈ us, ∀ v ∈ us, same round u v = true → u = v)
    ⟨fun h => ⟨h.1, h.2⟩, fun h => ⟨h.1, h.2⟩⟩

theorem homes_own_iff_devices :
    (∃ s, addUsers exampleUseradd (id : ℚ → ℚ) [plainKey, otherKey] = some s ∧
      (∀ u ∈ [plainKey, otherKey], ∃ l ∈ s.passwd, l.name = u ∧
        lookup s.homes u = some (l.uid, l.gid)) ∧
      ∀ u ∈ [plainKey, otherKey], ∀ v ∈ [plainKey, otherKey], u ≠ v →
        (lookup s.homes u).map Prod.fst ≠ (lookup s.homes v).map Prod.fst) ↔
      Apart (id : ℚ → ℚ) [rootLine] [plainKey, otherKey] :=
  homes_own_iff exampleUseradd id [plainKey, otherKey] (by decide) (by decide)
    (by decide)

/-! ## Two names for one number -/

/-- What a string of hex digits looks like to awk: digits, perhaps with one `e` among them. -/
def Reads (u : Str) (x : ℚ) : Prop :=
  ∃ a, IsDigits a ∧ ((u = a ∧ x = value a) ∨
    ∃ b, IsDigits b ∧ u = a ++ 'e' :: b ∧ x = value a * 10 ^ value b)

lemma numeral_hex {a t : Str} (h : ∀ c ∈ a ++ t, lowerHex c = true)
    (ha : ∀ c ∈ a, c.isDigit = true) (ht : ∀ c ∈ t.head?, c.isDigit = false) {x : ℚ} :
    numeral (a ++ t) = some x ↔ a ≠ [] ∧ ((t = [] ∧ x = value a) ∨
      ∃ b, t = 'e' :: b ∧ IsDigits b ∧ x = value a * 10 ^ value b) := by
  have hne : ∀ d, lowerHex d = false → ∀ c ∈ a ++ t, c ≠ d := by
    rintro d hd c hc rfl
    rw [h c hc] at hd
    cases hd
  have hblank : ∀ c ∈ a ++ t, isBlank c = false := by
    intro c hc
    simp [isBlank, hne ' ' (by decide) c hc, hne '\t' (by decide) c hc, hne '\n' (by decide) c hc]
  rw [numeral_eq_unsigned hblank
      (fun c hc => ⟨hne '+' (by decide) c hc, hne '-' (by decide) c hc⟩),
    unsigned_append ha (fun c hc => ⟨ht c hc, hne '.' (by decide) c
      (List.mem_append_right a (List.mem_of_mem_head? hc))⟩)]
  have hexp : ∀ e, exponent t = some e ↔ (t = [] ∧ e = 0) ∨ ∃ b, t = 'e' :: b ∧
      IsDigits b ∧ e = value b := by
    intro e
    simp only [← digits_eq_some]
    refine exponent_of_unsigned (fun c hc => ?_)
    have hmem := List.mem_append_right a hc
    exact ⟨hne '+' (by decide) c hmem, hne '-' (by decide) c hmem, hne 'E' (by decide) c hmem⟩
  by_cases hnil : a = []
  · simp [hnil]
  · rw [if_neg hnil, Option.map_eq_some_iff]
    simp only [hexp]
    constructor
    · rintro ⟨e, ⟨rfl, rfl⟩ | ⟨b, rfl, hb, rfl⟩, rfl⟩
      · exact ⟨hnil, Or.inl ⟨rfl, by simp⟩⟩
      · exact ⟨hnil, Or.inr ⟨b, rfl, hb, by simp⟩⟩
    · rintro ⟨-, ⟨rfl, rfl⟩ | ⟨b, rfl, hb, rfl⟩⟩
      · exact ⟨0, Or.inl ⟨rfl, rfl⟩, by simp⟩
      · exact ⟨value b, Or.inr ⟨b, rfl, hb, rfl⟩, by simp⟩

theorem numeral_hex_iff {u : Str} (h : ∀ c ∈ u, lowerHex c = true) {x : ℚ} :
    numeral u = some x ↔ Reads u x := by
  constructor
  · intro hx
    have hu : u.takeWhile Char.isDigit ++ u.dropWhile Char.isDigit = u :=
      List.takeWhile_append_dropWhile
    have hdigits : ∀ c ∈ u.takeWhile Char.isDigit, c.isDigit = true :=
      fun c hc => List.mem_takeWhile_imp hc
    have hhead : ∀ c ∈ (u.dropWhile Char.isDigit).head?, c.isDigit = false := by
      intro c hc
      have hnot := List.head?_dropWhile_not Char.isDigit u
      rw [Option.mem_def.mp hc] at hnot
      simpa using hnot
    rw [← hu] at hx
    obtain ⟨hne, hcases⟩ := (numeral_hex (by rwa [hu]) hdigits hhead).mp hx
    refine ⟨_, ⟨hne, List.all_eq_true.mpr hdigits⟩, ?_⟩
    rcases hcases with ⟨hnil, rfl⟩ | ⟨b, hb, hdb, rfl⟩
    · rw [hnil, List.append_nil] at hu
      exact Or.inl ⟨hu.symm, rfl⟩
    · exact Or.inr ⟨b, hdb, by rw [← hb, hu], rfl⟩
  · rintro ⟨a, ha, ⟨rfl, rfl⟩ | ⟨b, hb, rfl, rfl⟩⟩
    · have hu := numeral_hex (a := u) (t := []) (x := (value u : ℚ)) (by simpa using h)
        (List.all_eq_true.mp ha.2) (by simp)
      rw [List.append_nil] at hu
      exact hu.mpr ⟨ha.1, Or.inl ⟨rfl, rfl⟩⟩
    · exact (numeral_hex h (List.all_eq_true.mp ha.2) (by simp)).mpr
        ⟨ha.1, Or.inr ⟨b, rfl, hb, rfl⟩⟩

/-- awk takes one MAC for another where both look like numbers and it computes the same
number for both. -/
theorem same_mac_iff {u v : Str} (hu : isMac u = true) (hv : isMac v = true) :
    same round u v = true ↔ u = v ∨ ∃ x y, Reads u x ∧ Reads v y ∧ round x = round y := by
  simp only [← numeral_hex_iff (isMac_iff.mp hu).2, ← numeral_hex_iff (isMac_iff.mp hv).2]
  unfold same
  cases hx : numeral u with
  | none => simp
  | some x =>
    cases hy : numeral v with
    | none => simp
    | some y =>
      simp only [decide_eq_true_eq, Option.some.injEq]
      constructor
      · exact fun h => Or.inr ⟨x, y, rfl, rfl, h⟩
      · rintro (rfl | ⟨_, _, rfl, rfl, h⟩)
        · rw [hx] at hy
          rw [Option.some.inj hy]
        · exact h

def tenTimesTen : Str := "0000000010e1".toList

def oneHundred : Str := "0000000001e2".toList

/-- The home of the second user goes to the first. -/
theorem homes_not_own :
    (∀ u ∈ [oneHundred, tenTimesTen], isMac u = true ∧
      ((twoUsers oneHundred tenTimesTen (by decide)).ids u).isSome = true) ∧
    oneHundred ≠ tenTimesTen ∧
    ¬∃ s, addUsers (twoUsers oneHundred tenTimesTen (by decide)) (id : ℚ → ℚ)
        [oneHundred, tenTimesTen] = some s ∧
      (∀ u ∈ [oneHundred, tenTimesTen], ∃ l ∈ s.passwd, l.name = u ∧
        lookup s.homes u = some (l.uid, l.gid)) ∧
      ∀ u ∈ [oneHundred, tenTimesTen], ∀ v ∈ [oneHundred, tenTimesTen], u ≠ v →
        (lookup s.homes u).map Prod.fst ≠ (lookup s.homes v).map Prod.fst := by
  refine ⟨by decide, by decide, ?_⟩
  rintro ⟨s, hs, -, hdistinct⟩
  have howners : (addUsers (twoUsers oneHundred tenTimesTen (by decide)) (id : ℚ → ℚ)
      [oneHundred, tenTimesTen]).map (fun s =>
        ((lookup s.homes oneHundred).map Prod.fst, (lookup s.homes tenTimesTen).map Prod.fst)) =
      some (some 1000, some 1000) := by decide +kernel
  rw [hs, Option.map_some, Option.some.injEq, Prod.mk.injEq] at howners
  refine hdistinct oneHundred (by simp) tenTimesTen (by simp) (by decide) ?_
  rw [howners.1, howners.2]

/-! ## Entries that fail -/

/-- The loop survives its failures, and they harm no other entry. -/
structure Survives (U : Useradd base) (round : ℚ → ν) (keys : List Str) : Prop where
  /-- An entry for which `useradd` fails has a line in the seeded file. -/
  seeded : ∀ u ∈ glob keys, U.ids u = none → u ∈ base.map PasswdLine.name
  /-- The glob sees every other entry. -/
  visible : ∀ u ∈ added U keys, u.head? ≠ some '.'
  apart : Apart round base (added U keys)

lemma added_glob {keys : List Str} (h : ∀ u ∈ added U keys, u.head? ≠ some '.') :
    added U (glob keys) = added U keys := by
  unfold added at h ⊢
  rw [glob, List.filter_comm]
  exact List.filter_eq_self.mpr (by simpa using h)

/-- The loop ends and sets every entry up for which `useradd` succeeds, if and only if each
other entry has a seeded line, the glob sees the former, and awk tells them apart. -/
theorem entries_set_up_iff (U : Useradd base) (round : ℚ → ν) (keys : List Str)
    (hn : keys.Nodup) :
    (∃ s, addUsers U round keys = some s ∧
      ∀ u ∈ keys, ∀ uid gid, U.ids u = some (uid, gid) →
        (∀ a, addressBlock macGW u = some a → a ∈ s.addresses) ∧
        ⟨u, uid, gid⟩ ∈ s.passwd ∧ lookup s.homes u = some (uid, gid) ∧ u ∈ s.locked) ↔
      Survives U round keys := by
  have hglob : (glob keys).Nodup := hn.filter _
  constructor
  · rintro ⟨s, hs, hall⟩
    have hset : SetUp U round (glob keys) s := setUp_run hs
    have hvisible : ∀ u ∈ added U keys, u.head? ≠ some '.' := by
      intro u hu
      obtain ⟨hu, ⟨uid, gid⟩, hi⟩ := mem_added.mp hu
      obtain ⟨-, hline, -⟩ := hall u hu uid gid hi
      rw [hset.passwd] at hline
      rcases mem_passwdAfter.mp hline with hbase | ⟨hmem, -⟩
      · exact absurd (List.mem_map.mpr ⟨_, hbase, rfl⟩) (U.unused hi)
      · simpa using (List.mem_filter.mp hmem).2
    refine ⟨run_isSome_iff.mp ⟨s, hs⟩, hvisible, ?_⟩
    rw [← added_glob hvisible, ← homes_iff_apart hset hglob]
    exact fun u hu i hi => (hall u (List.mem_of_mem_filter hu) i.1 i.2 hi).2.2.1
  · rintro ⟨hseeded, hvisible, hapart⟩
    have hends : ∃ s, addUsers U round keys = some s := run_isSome_iff.mpr hseeded
    obtain ⟨s, hs⟩ := hends
    have hset : SetUp U round (glob keys) s := setUp_run hs
    rw [← added_glob hvisible, ← homes_iff_apart hset hglob] at hapart
    refine ⟨s, hs, fun u hu uid gid hi => ?_⟩
    have hmem : u ∈ glob keys :=
      List.mem_filter.mpr ⟨hu, by simpa using hvisible u (mem_added.mpr ⟨hu, _, hi⟩)⟩
    refine ⟨fun a ha => ?_, ?_, hapart u hmem _ hi, ?_⟩
    · rw [hset.addresses]
      exact List.mem_flatMap.mpr ⟨u, hmem, by simp [ha]⟩
    · rw [hset.passwd]
      exact mem_passwdAfter.mpr (Or.inr ⟨hmem, hi⟩)
    · rw [hset.locked]
      exact hmem

theorem entries_set_up_iff_devices :
    (∃ s, addUsers exampleUseradd (id : ℚ → ℚ) ["root".toList, plainKey, otherKey] = some s ∧
      ∀ u ∈ ["root".toList, plainKey, otherKey], ∀ uid gid,
        exampleUseradd.ids u = some (uid, gid) →
        (∀ a, addressBlock macGW u = some a → a ∈ s.addresses) ∧
        ⟨u, uid, gid⟩ ∈ s.passwd ∧ lookup s.homes u = some (uid, gid) ∧ u ∈ s.locked) ↔
      Survives exampleUseradd (id : ℚ → ℚ) ["root".toList, plainKey, otherKey] :=
  entries_set_up_iff exampleUseradd id ["root".toList, plainKey, otherKey] (by decide)

/-- `useradd` refuses a name of digits only. -/
def numericKey : Str := "001122334455".toList

/-- The shell exits at the first entry, so the second is never set up. -/
theorem entries_not_set_up :
    exampleUseradd.ids numericKey = none ∧ exampleUseradd.ids plainKey = some (1000, 1000) ∧
    addUsers exampleUseradd (id : ℚ → ℚ) [numericKey, plainKey] = none ∧
    ¬∃ s, addUsers exampleUseradd (id : ℚ → ℚ) [numericKey, plainKey] = some s ∧
      ∀ u ∈ [numericKey, plainKey], ∀ uid gid, exampleUseradd.ids u = some (uid, gid) →
        (∀ a, addressBlock macGW u = some a → a ∈ s.addresses) ∧
        ⟨u, uid, gid⟩ ∈ s.passwd ∧ lookup s.homes u = some (uid, gid) ∧ u ∈ s.locked := by
  have hends : addUsers exampleUseradd (id : ℚ → ℚ) [numericKey, plainKey] = none := by
    decide
  refine ⟨by decide, by decide, hends, ?_⟩
  rintro ⟨s, hs, -⟩
  rw [hends] at hs
  cases hs

/-! ## Addresses on `lo` -/

/-- The turn of an entry begins if and only if the loop gets through the entries before it. -/
lemma mem_turns {s : Setup} {pre post : List Str} {u : Str} (hu : u ∉ pre) :
    u ∈ turns U round s (pre ++ u :: post) ↔ ∃ t, run (addUser U round) s pre = some t := by
  induction pre generalizing s with
  | nil => simp [turns]
  | cons v pre ih =>
    rw [List.mem_cons, not_or] at hu
    rw [List.cons_append, turns, List.mem_cons, or_iff_right hu.1]
    simp only [run_cons]
    cases h : addUser U round s v with
    | none => simp
    | some t =>
      rw [ih hu.2]
      simp

lemma turns_subset {s : Setup} {us : List Str} : turns U round s us ⊆ us := by
  induction us generalizing s with
  | nil => simp [turns]
  | cons v us ih =>
    rw [turns]
    refine List.cons_subset_cons v ?_
    cases addUser U round s v with
    | none => simp
    | some t => exact ih

lemma mem_initAddresses {keys : List Str} {u : Str} {a : List Nat} :
    (u, a) ∈ initAddresses U round keys ↔ u ∈ turns U round { passwd := base } (glob keys) ∧
      (addressBlock macGW u).bind parse = some a := by
  rw [initAddresses, List.mem_filterMap]
  constructor
  · rintro ⟨v, hv, h⟩
    obtain ⟨b, hb, hvb⟩ := Option.map_eq_some_iff.mp h
    cases hvb
    exact ⟨hv, hb⟩
  · rintro ⟨hu, ha⟩
    exact ⟨u, hu, by rw [ha]; rfl⟩

/-- Two entries that are given an address are given the same one if and only if their names have
the same normalised form. An entry that the glob matches is given one if and only if its
normalised form is a MAC and every entry before it has a line of its own. -/
theorem initAddresses_eq_iff (U : Useradd base) (round : ℚ → ν) {keys : List Str}
    (hn : keys.Nodup) :
    (∀ u v a b, (u, a) ∈ initAddresses U round keys → (v, b) ∈ initAddresses U round keys →
      (a = b ↔ normalise u = normalise v)) ∧
    (∀ u a, (u, a) ∈ initAddresses U round keys → u ∈ glob keys) ∧
    ∀ pre u post, glob keys = pre ++ u :: post →
      ((∃ a, (u, a) ∈ initAddresses U round keys) ↔ isMac (normalise u) = true ∧
        ∀ v ∈ pre, U.ids v = none → v ∈ base.map PasswdLine.name) := by
  refine ⟨fun u v a b hu hv => ?_, fun u a hu => ?_, fun pre u post hk => ?_⟩
  · exact addressBlock_inj (mem_initAddresses.mp hu).2 (mem_initAddresses.mp hv).2
  · exact turns_subset (mem_initAddresses.mp hu).1
  · have hglob : (glob keys).Nodup := hn.filter _
    rw [hk, List.nodup_middle, List.nodup_cons, List.mem_append, not_or] at hglob
    simp only [mem_initAddresses, exists_and_left, hk, mem_turns hglob.1.1, run_isSome_iff]
    rw [and_comm]
    refine and_congr_left' ⟨fun ⟨a, ha⟩ => ?_, fun hmac => ⟨_, parse_addressBlock hmac⟩⟩
    by_contra hno
    rw [addressBlock_eq_none.mpr (Bool.eq_false_iff.mpr hno)] at ha
    cases ha

/-- The second entry gets its address, and the shell exits behind it. -/
theorem initAddresses_eq_iff_devices :
    (∃ a b, (plainKey, a) ∈ initAddresses exampleUseradd (id : ℚ → ℚ)
        [plainKey, numericKey, otherKey] ∧
      (numericKey, b) ∈ initAddresses exampleUseradd (id : ℚ → ℚ)
        [plainKey, numericKey, otherKey] ∧
      (a = b ↔ normalise plainKey = normalise numericKey)) ∧
    ¬∃ c, (otherKey, c) ∈ initAddresses exampleUseradd (id : ℚ → ℚ)
      [plainKey, numericKey, otherKey] := by
  have hnodup : [plainKey, numericKey, otherKey].Nodup := by decide
  obtain ⟨hsame, -, hgiven⟩ := initAddresses_eq_iff exampleUseradd (id : ℚ → ℚ) hnodup
  obtain ⟨a, ha⟩ := (hgiven [] plainKey [numericKey, otherKey] rfl).mpr (by decide)
  obtain ⟨b, hb⟩ := (hgiven [plainKey] numericKey [otherKey] rfl).mpr (by decide)
  refine ⟨⟨a, b, ha, hb, hsame _ _ _ _ ha hb⟩, fun hc => ?_⟩
  have hlines := ((hgiven [plainKey, numericKey] otherKey [] rfl).mp hc).2
  exact absurd (hlines numericKey (by simp) (by decide)) (by decide)

def twoSpellings : Useradd [rootLine] := twoUsers plainKey dashedKey (by decide)

/-- Two accounts with one address, in a loop that gets to its end. -/
theorem spellings_share_address :
    isSecretKey plainKey = true ∧ isSecretKey dashedKey = true ∧ plainKey ≠ dashedKey ∧
      isMac (normalise plainKey) = true ∧ isMac (normalise dashedKey) = true ∧
      (addUsers twoSpellings (id : ℚ → ℚ) [plainKey, dashedKey]).isSome = true ∧
      ∃ a, (plainKey, a) ∈ initAddresses twoSpellings (id : ℚ → ℚ) [plainKey, dashedKey] ∧
        (dashedKey, a) ∈ initAddresses twoSpellings (id : ℚ → ℚ) [plainKey, dashedKey] := by
  refine ⟨by decide, by decide, by decide, by decide, by decide, by decide,
    (groups plainKey).map hextet, ?_, ?_⟩
  · exact mem_initAddresses.mpr ⟨by decide, parse_addressBlock (by decide)⟩
  · exact mem_initAddresses.mpr ⟨by decide, parse_addressBlock (by decide)⟩

end CMXSafe.Proofs
