import CMXSafe.OpenSSH.Match

/-!
# What sshd's patterns match

The matcher accepts the language of its pattern, and a list of patterns is decided by the
first subpattern that excludes the text or does not fit its buffer.
-/

namespace CMXSafe.Proofs
open OpenSSH Strings Globs

lemma piece_of_ne {c : Char} (h : c ≠ '*') (h' : c ≠ '?') : piece c = .lit c := by
  unfold piece
  split
  · exact absurd rfl h
  · exact absurd rfl h'
  · rfl

lemma ne_star {c : Char} {pattern : Str} (h : c = '*' → pattern = [] → False)
    (h' : ∀ d p, c = '*' → pattern = d :: p → False) : c ≠ '*' := by
  rintro rfl
  cases pattern with
  | nil => exact h rfl rfl
  | cons d p => exact h' d p rfl rfl

lemma matchPattern_nil {c : Char} (h : c ≠ '*') (pattern : Str) :
    matchPattern [] (c :: pattern) = false := by
  cases pattern <;> simp [matchPattern, h]

lemma matchPattern_cons {c : Char} (h : c ≠ '*') (pattern : Str) (x : Char) (s : Str) :
    matchPattern (x :: s) (c :: pattern) =
      ((c = '?' || c = x) && matchPattern s pattern) := by
  cases pattern <;> simp [matchPattern, h]

/-- The shortcut of the scan: behind an asterisk a letter can only be met where it stands. -/
lemma any_tails_lit {c : Char} {s : Str} {q : List (Piece Char)} {ok : Str → Bool}
    (hok : ∀ t, ok t = true ↔ t ∈ language q) :
    s.tails.any (fun t => t.head? = some c && ok t.tail) = true ↔
      s ∈ language (.many :: .lit c :: q) := by
  simp only [List.any_eq_true, List.mem_tails, Bool.and_eq_true, decide_eq_true_eq,
    mem_language_many, mem_language_lit]
  constructor
  · rintro ⟨t, hts, hc, ht⟩
    cases t with
    | nil => simp at hc
    | cons x t =>
      obtain rfl : x = c := by simpa using hc
      exact ⟨_, hts, t, rfl, (hok t).mp ht⟩
  · rintro ⟨_, hts, t, rfl, ht⟩
    exact ⟨c :: t, hts, rfl, (hok t).mpr ht⟩

theorem matchPattern_iff (s pattern : Str) :
    matchPattern s pattern = true ↔ s ∈ language (pattern.map piece) := by
  induction s, pattern using matchPattern.induct with
  | case1 s => simp [matchPattern]
  | case2 s =>
    simp only [matchPattern, true_iff, List.map_cons, List.map_nil, piece, mem_language_many]
    exact ⟨[], List.nil_suffix, rfl⟩
  | case3 s pattern ih =>
    rw [matchPattern, if_pos rfl, ih]
    simp only [List.map_cons, piece, language_many_many]
  | case4 s pattern h ih =>
    rw [matchPattern, if_neg (by decide), if_pos rfl]
    simp only [List.any_eq_true, List.mem_tails, Bool.and_eq_true, decide_eq_true_eq, ih,
      List.map_cons, piece, mem_language_many]
    constructor
    · rintro ⟨t, hts, _, ht⟩
      exact ⟨t, hts, ht⟩
    · rintro ⟨t, hts, ht⟩
      obtain ⟨c, u, rfl, hu⟩ := mem_language_one.mp ht
      exact ⟨c :: u, hts, by simp, ht⟩
  | case5 s c pattern h h' ih =>
    rw [matchPattern, if_neg h, if_neg h', List.map_cons, List.map_cons, piece_of_ne h h']
    exact any_tails_lit (fun t => ih (c :: t))
  | case6 c pattern h h' =>
    have hc : c ≠ '*' := ne_star h h'
    rw [matchPattern_nil hc, List.map_cons]
    by_cases hq : c = '?'
    · simp [hq, piece]
    · simp [piece_of_ne hc hq]
  | case7 c pattern h h' x s ih =>
    have hc : c ≠ '*' := ne_star h h'
    rw [matchPattern_cons hc, List.map_cons]
    by_cases hq : c = '?'
    · simp [hq, piece, ih]
    · rw [piece_of_ne hc hq, mem_language_lit]
      simp only [hq, decide_false, Bool.false_or, Bool.and_eq_true, decide_eq_true_eq, ih]
      constructor
      · rintro ⟨rfl, ht⟩
        exact ⟨s, rfl, ht⟩
      · rintro ⟨t, he, ht⟩
        cases he
        exact ⟨rfl, ht⟩

/-- Without wildcards only the text itself matches. -/
lemma matchPattern_plain {s pattern : Str} (h : '*' ∉ pattern) (h' : '?' ∉ pattern) :
    matchPattern s pattern = true ↔ s = pattern := by
  have hp : pattern.map piece = pattern.map .lit := by
    apply List.map_congr_left
    intro c hc
    exact piece_of_ne (fun he => h (he ▸ hc)) (fun he => h' (he ▸ hc))
  rw [matchPattern_iff, hp, mem_language_lits]

/-! ## Lists of patterns -/

/-- The subpattern fits the buffer that it is copied to. -/
def Fits (sub : Str) : Prop := (subBody sub).length < subSize - 1

/-- The text is of the form that a subpattern describes. -/
def Describes (dolower : Bool) (sub string : Str) : Prop :=
  string ∈ language ((if dolower then lowercase (subBody sub) else subBody sub).map piece)

def Excludes (dolower : Bool) (string sub : Str) : Prop :=
  sub.head? = some '!' ∧ Describes dolower sub string

def Accepts (dolower : Bool) (string sub : Str) : Prop :=
  sub.head? ≠ some '!' ∧ Describes dolower sub string

section
variable {string : Str} {dolower got : Bool} {sub : Str} {subs : List Str}

lemma matchSubpatterns_long (h : ¬Fits sub) :
    matchSubpatterns string dolower got (sub :: subs) = 0 := by
  rw [matchSubpatterns, if_pos (Nat.le_of_not_lt h)]

lemma matchSubpatterns_excludes (h : Fits sub) (he : Excludes dolower string sub) :
    matchSubpatterns string dolower got (sub :: subs) = -1 := by
  rw [matchSubpatterns, if_neg (Nat.not_le.mpr h), if_pos ((matchPattern_iff string _).mpr he.2),
    if_pos (by simpa using he.1)]

lemma matchSubpatterns_passes (got : Bool) (subs : List Str) (h : Fits sub)
    (he : ¬Excludes dolower string sub) :
    ∃ got', (got' = true ↔ got = true ∨ Accepts dolower string sub) ∧
      matchSubpatterns string dolower got (sub :: subs) =
        matchSubpatterns string dolower got' subs := by
  rw [matchSubpatterns, if_neg (Nat.not_le.mpr h)]
  by_cases hd : Describes dolower sub string
  · have hn : sub.head? ≠ some '!' := fun hn => he ⟨hn, hd⟩
    refine ⟨true, by simp [Accepts, hn, hd], ?_⟩
    rw [if_pos ((matchPattern_iff string _).mpr hd), if_neg (by simpa using hn)]
  · refine ⟨got, by simp [Accepts, hd], ?_⟩
    rw [if_neg (fun hm => hd ((matchPattern_iff string _).mp hm))]

end

/-- The first subpattern that excludes the text or does not fit the buffer decides. -/
def FirstExcludes (dolower : Bool) (string : Str) (subs : List Str) : Prop :=
  ∃ pre sub post, subs = pre ++ sub :: post ∧
    (∀ x ∈ pre, Fits x ∧ ¬Excludes dolower string x) ∧ Fits sub ∧ Excludes dolower string sub

lemma firstExcludes_cons {dolower : Bool} {string sub : Str} {subs : List Str} :
    FirstExcludes dolower string (sub :: subs) ↔
      Fits sub ∧ (Excludes dolower string sub ∨ FirstExcludes dolower string subs) := by
  constructor
  · rintro ⟨pre, x, post, he, hpre, hx⟩
    cases pre with
    | nil =>
      cases he
      exact ⟨hx.1, Or.inl hx.2⟩
    | cons y pre =>
      cases he
      refine ⟨(hpre sub (by simp)).1, Or.inr ⟨pre, x, post, rfl, fun z hz => ?_, hx⟩⟩
      exact hpre z (by simp [hz])
  · rintro ⟨hf, he | ⟨pre, x, post, rfl, hpre, hx⟩⟩
    · exact ⟨[], sub, subs, rfl, by simp, hf, he⟩
    · by_cases he : Excludes dolower string sub
      · exact ⟨[], sub, _, rfl, by simp, hf, he⟩
      · refine ⟨sub :: pre, x, post, rfl, fun z hz => ?_, hx⟩
        rcases List.mem_cons.mp hz with rfl | hz
        · exact ⟨hf, he⟩
        · exact hpre z hz

lemma FirstExcludes.not_all {dolower : Bool} {string : Str} {subs : List Str}
    (h : FirstExcludes dolower string subs) :
    ¬∀ sub ∈ subs, Fits sub ∧ ¬Excludes dolower string sub := by
  obtain ⟨pre, sub, post, rfl, _, hx⟩ := h
  exact fun hall => (hall sub (by simp)).2 hx.2

lemma matchSubpatterns_cases (string : Str) (dolower got : Bool) (subs : List Str) :
    (matchSubpatterns string dolower got subs = -1 ∧ FirstExcludes dolower string subs) ∨
    (matchSubpatterns string dolower got subs = 0 ∧ ¬FirstExcludes dolower string subs ∧
      ((∃ sub ∈ subs, ¬Fits sub) ∨ got = false ∧ ∀ sub ∈ subs, ¬Accepts dolower string sub)) ∨
    (matchSubpatterns string dolower got subs = 1 ∧
      (∀ sub ∈ subs, Fits sub ∧ ¬Excludes dolower string sub) ∧
      (got = true ∨ ∃ sub ∈ subs, Accepts dolower string sub)) := by
  induction subs generalizing got with
  | nil =>
    cases got with
    | false => exact Or.inr (Or.inl ⟨rfl, by simp [FirstExcludes], Or.inr ⟨rfl, by simp⟩⟩)
    | true => exact Or.inr (Or.inr ⟨rfl, by simp, Or.inl rfl⟩)
  | cons sub subs ih =>
    rw [firstExcludes_cons]
    by_cases hf : Fits sub
    · by_cases he : Excludes dolower string sub
      · exact Or.inl ⟨matchSubpatterns_excludes hf he, hf, Or.inl he⟩
      · obtain ⟨got', hgot, h⟩ := matchSubpatterns_passes got subs hf he
        rw [h]
        rcases ih got' with ⟨hr, hx⟩ | ⟨hr, hx, hz⟩ | ⟨hr, hall, hz⟩
        · exact Or.inl ⟨hr, hf, Or.inr hx⟩
        · refine Or.inr (Or.inl ⟨hr, fun h => h.2.elim he hx, ?_⟩)
          rcases hz with ⟨x, hx, hl⟩ | ⟨hg, hz⟩
          · exact Or.inl ⟨x, by simp [hx], hl⟩
          · have hno : ¬(got = true ∨ Accepts dolower string sub) := fun h => by
              simp [hgot.mpr h] at hg
            rw [not_or] at hno
            exact Or.inr ⟨by simpa using hno.1, by simpa using ⟨hno.2, hz⟩⟩
        · refine Or.inr (Or.inr ⟨hr, by simpa using ⟨⟨hf, he⟩, hall⟩, ?_⟩)
          rcases hz with hg | ⟨x, hx, ha⟩
          · rcases hgot.mp hg with hg | ha
            · exact Or.inl hg
            · exact Or.inr ⟨sub, by simp, ha⟩
          · exact Or.inr ⟨x, by simp [hx], ha⟩
    · exact Or.inr (Or.inl ⟨matchSubpatterns_long hf, fun h => hf h.1, Or.inl ⟨sub, by simp, hf⟩⟩)

/-- A list of patterns refuses a text if the first subpattern that excludes it or is too long
for the buffer excludes it, and accepts it if there is no such subpattern and one admits it.
In every other case, the overlong subpattern among them, it does not match. -/
theorem matchPatternList_spec (string pattern : Str) (dolower : Bool) :
    let r := matchPatternList string pattern dolower
    let subs := subpatterns pattern
    (r = -1 ∨ r = 0 ∨ r = 1) ∧
      (r = -1 ↔ FirstExcludes dolower string subs) ∧
      (r = 1 ↔ (∀ sub ∈ subs, Fits sub ∧ ¬Excludes dolower string sub) ∧
        ∃ sub ∈ subs, Accepts dolower string sub) := by
  intro r subs
  rcases matchSubpatterns_cases string dolower false subs with
    ⟨hr, hx⟩ | ⟨hr, hx, hz⟩ | ⟨hr, hall, hz⟩
  · refine ⟨Or.inl hr, iff_of_true hr hx, iff_of_false ?_ (fun h => hx.not_all h.1)⟩
    exact fun h1 => absurd (hr.symm.trans h1) (by decide)
  · refine ⟨Or.inr (Or.inl hr), iff_of_false ?_ hx, iff_of_false ?_ ?_⟩
    · exact fun h1 => absurd (hr.symm.trans h1) (by decide)
    · exact fun h1 => absurd (hr.symm.trans h1) (by decide)
    · rintro ⟨hall, sub, hs, ha⟩
      rcases hz with ⟨x, hxs, hl⟩ | ⟨_, hno⟩
      · exact hl (hall x hxs).1
      · exact hno sub hs ha
  · refine ⟨Or.inr (Or.inr hr), iff_of_false ?_ (fun h => h.not_all hall), iff_of_true hr ?_⟩
    · exact fun h1 => absurd (hr.symm.trans h1) (by decide)
    · exact ⟨hall, hz.resolve_left (by decide)⟩

end CMXSafe.Proofs
