import CMXSafe.Lib.Strings

/-!
# Concatenations of terminated tokens

A token is a string that ends in a delimiter and has no other. A list of tokens can be
written one after the other without a separator and read back by splitting. Looking a
token up and deleting it by substring operations is faithful up to one effect: a token
is also found at the end of every longer token that it is a suffix of.
-/

namespace Tokens
open Strings

variable {α : Type}

/-- A string with the delimiter in its last place and nowhere else. -/
def IsToken (d : α) (t : List α) : Prop := ∃ b, d ∉ b ∧ t = b ++ [d]

lemma IsToken.ne_nil {d : α} {t : List α} (h : IsToken d t) : t ≠ [] := by
  obtain ⟨b, -, rfl⟩ := h
  simp

/-- A token that occurs inside a token followed by other text is a suffix of that token
or occurs in the text. -/
lemma token_infix_append {d : α} {t u s : List α} (ht : IsToken d t) (hu : IsToken d u) :
    t <:+: u ++ s ↔ t <:+ u ∨ t <:+: s := by
  obtain ⟨b, hb, rfl⟩ := ht
  obtain ⟨c, hc, rfl⟩ := hu
  constructor
  · rintro ⟨x, y, he⟩
    have he' : (x ++ b) ++ d :: y = c ++ d :: s := by simpa using he
    rcases List.append_eq_append_iff.mp he' with ⟨w, hw, hy⟩ | ⟨w, hw, hy⟩
    · cases w with
      | nil =>
        left
        exact ⟨x, by rw [← List.append_assoc, hw]; simp⟩
      | cons e w =>
        simp only [List.cons_append, List.cons.injEq] at hy
        exact absurd (by rw [hw, ← hy.1]; simp) hc
    · cases w with
      | nil =>
        left
        exact ⟨x, by rw [← List.append_assoc, hw]; simp⟩
      | cons e w =>
        right
        simp only [List.cons_append, List.cons.injEq] at hy
        -- the delimiter of `u` comes before `b`, so all of `b` lies behind it
        have hsub : b <:+ d :: w := by
          have h1 : b <:+ c ++ d :: w := by rw [← hy.1] at hw; exact ⟨x, hw⟩
          rcases List.suffix_or_suffix_of_suffix h1 (List.suffix_append c (d :: w)) with h | h
          · exact h
          · exact absurd (h.subset (by simp)) hb
        obtain ⟨z, hz⟩ := hsub
        cases z with
        | nil =>
          rw [List.nil_append] at hz
          exact absurd (by rw [hz]; simp) hb
        | cons e' z =>
          simp only [List.cons_append, List.cons.injEq] at hz
          exact ⟨z, y, by rw [hy.2, ← hz.2]; simp⟩
  · rintro (h | h)
    · exact h.isInfix.trans (List.infix_append_left)
    · exact h.trans (List.infix_append_right)

/-- A token occurs in a concatenation exactly when it ends one of the tokens there. -/
theorem token_infix_flatten {d : α} {t : List α} {ts : List (List α)} (ht : IsToken d t)
    (hts : ∀ u ∈ ts, IsToken d u) : t <:+: ts.flatten ↔ ∃ u ∈ ts, t <:+ u := by
  induction ts with
  | nil => simp [ht.ne_nil]
  | cons u ts ih =>
    have hu := hts u (by simp)
    have hts' : ∀ v ∈ ts, IsToken d v := fun v hv => hts v (by simp [hv])
    rw [List.flatten_cons, token_infix_append ht hu, ih hts']
    simp

variable [DecidableEq α]

def cut (t u : List α) : List α := trimSuffix u t

lemma replaceScan_append {d : α} {t b s : List α} (ht : IsToken d t) (hb : d ∉ b) :
    replaceScan t [] 0 (b ++ d :: s) = cut t (b ++ [d]) ++ replaceScan t [] 0 s := by
  induction b with
  | nil =>
    by_cases h : t = [d]
    · subst h
      simp [replaceScan, cut, trimSuffix]
    · obtain ⟨b, hb', rfl⟩ := ht
      have hbn : b ≠ [] := by rintro rfl; simp at h
      have hp : ¬b ++ [d] <+: d :: s := by
        rintro ⟨z, hz⟩
        cases b with
        | nil => exact hbn rfl
        | cons e b =>
          simp only [List.cons_append, List.cons.injEq] at hz
          exact hb' (by simp [hz.1])
      have hs : ¬b ++ [d] <:+ [d] := by
        intro hz
        have hlen := hz.length_le
        simp only [List.length_append, List.length_singleton] at hlen
        exact hbn (List.length_eq_zero_iff.mp (by omega))
      simp [replaceScan, hp, cut, trimSuffix_of_not hs]
  | cons c b ih =>
    have hcd : c ≠ d := fun h => hb (by simp [h])
    have hb' : d ∉ b := fun h => hb (by simp [h])
    have hrec := ih hb'
    by_cases h : t = c :: b ++ [d]
    · subst h
      have hp : c :: b ++ [d] <+: c :: (b ++ d :: s) := ⟨s, by simp⟩
      have hdrop : (b ++ d :: s).drop ((c :: b ++ [d]).length - 1) = s := by
        simp [List.drop_append]
      change replaceScan _ [] 0 (c :: (b ++ d :: s)) = _
      rw [replaceScan, if_pos hp, replaceScan_skip, hdrop]
      simp [cut, trimSuffix]
    · have hp : ¬t <+: c :: (b ++ d :: s) := by
        rintro ⟨z, hz⟩
        obtain ⟨b', hb'', rfl⟩ := ht
        have hz' : b' ++ d :: z = (c :: b) ++ d :: s := by simpa using hz
        have h1 := congrArg (List.takeWhile (· ≠ d)) hz'
        rw [List.takeWhile_append_of_pos, List.takeWhile_append_of_pos] at h1
        · simp at h1
          exact h (by simp [h1])
        · intro x hx
          simpa using fun he : x = d => hb (he ▸ hx)
        · intro x hx
          simpa using fun he : x = d => hb'' (he ▸ hx)
      have hsuf : t <:+ (c :: b) ++ [d] ↔ t <:+ b ++ [d] := by
        rw [List.cons_append, List.suffix_cons_iff]
        constructor
        · rintro (h' | h')
          · exact absurd h' h
          · exact h'
        · exact Or.inr
      have hcut : cut t ((c :: b) ++ [d]) = c :: cut t (b ++ [d]) := by
        unfold cut
        by_cases hs : t <:+ b ++ [d]
        · obtain ⟨w, hw⟩ := hs
          rw [List.cons_append, ← hw, ← List.cons_append, trimSuffix_append, trimSuffix_append]
        · rw [trimSuffix_of_not (fun h' => hs (hsuf.mp h')), trimSuffix_of_not hs]
          rfl
      rw [hcut, List.cons_append, replaceScan, if_neg hp, hrec, List.cons_append]

/-- Deleting a token from a concatenation cuts it off every token that it ends. -/
theorem replaceAll_flatten {d : α} {t : List α} {ts : List (List α)} (ht : IsToken d t)
    (hts : ∀ u ∈ ts, IsToken d u) : replaceAll ts.flatten t [] = (ts.map (cut t)).flatten := by
  unfold replaceAll
  rw [if_neg ht.ne_nil]
  induction ts with
  | nil => rfl
  | cons u ts ih =>
    obtain ⟨b, hb, hu⟩ := hts u (by simp)
    have hts' : ∀ v ∈ ts, IsToken d v := fun v hv => hts v (by simp [hv])
    rw [List.flatten_cons, hu, List.append_assoc, List.singleton_append,
      replaceScan_append ht hb, ih hts', List.map_cons, List.flatten_cons]

theorem replaceAll_flatten_filter {d : α} {t : List α} {ts : List (List α)}
    (ht : IsToken d t) (hts : ∀ u ∈ ts, IsToken d u)
    (hclear : ∀ u ∈ ts, t <:+ u → u = t) :
    replaceAll ts.flatten t [] = (ts.filter (· ≠ t)).flatten := by
  rw [replaceAll_flatten ht hts]
  clear hts
  induction ts with
  | nil => rfl
  | cons u ts ih =>
    have hrec := ih (fun v hv => hclear v (by simp [hv]))
    rw [List.map_cons, List.flatten_cons, hrec]
    by_cases h : u = t
    · subst h
      have : cut u u = [] := by simp [cut, trimSuffix]
      simp [this]
    · have hns : ¬t <:+ u := fun hs => h (hclear u (by simp) hs)
      simp [h, cut, trimSuffix_of_not hns]

def pieces (d : α) (s : List α) : List (List α) := (split s d).filter (· ≠ [])

@[simp] lemma pieces_nil (d : α) : pieces d [] = [] := by
  simp [pieces, split]

lemma pieces_append_cons {d : α} {b s : List α} (hb : d ∉ b) (hn : b ≠ []) :
    pieces d (b ++ d :: s) = b :: pieces d s := by
  simp only [pieces, split]
  rw [List.splitOn_append_cons_self_of_not_mem hb]
  simp [hn]

lemma pieces_append {d : α} (s t : List α) : pieces d (s ++ d :: t) = pieces d s ++ pieces d t := by
  simp only [pieces, split]
  rw [List.splitOn_append_cons_self, List.filter_append]

lemma pieces_trimSuffix (d : α) (s : List α) : pieces d (trimSuffix s [d]) = pieces d s := by
  rcases trimSuffix_spec s [d] with ⟨h, -⟩ | ⟨h, -⟩
  · conv_rhs => rw [h]
    simp only [pieces, split]
    rw [List.splitOn_append_cons_self]
    simp
  · rw [← h]

/-- Splitting reads a concatenation of tokens back. -/
theorem pieces_flatten {d : α} {bs : List (List α)} (hd : ∀ b ∈ bs, d ∉ b)
    (hn : ∀ b ∈ bs, b ≠ []) : pieces d (bs.map (· ++ [d])).flatten = bs := by
  induction bs with
  | nil => simp
  | cons b bs ih =>
    rw [List.map_cons, List.flatten_cons, List.append_assoc, List.singleton_append,
      pieces_append_cons (hd b (by simp)) (hn b (by simp)),
      ih (fun c hc => hd c (by simp [hc])) (fun c hc => hn c (by simp [hc]))]

lemma count_intercalate {d x : α} (hx : x ≠ d) (ls : List (List α)) :
    ([d].intercalate ls).count x = ls.flatten.count x := by
  induction ls with
  | nil => rfl
  | cons l ls ih =>
    cases ls with
    | nil => simp [List.intercalate]
    | cons l' ls =>
      have hstep : [d].intercalate (l :: l' :: ls) = l ++ (d :: [d].intercalate (l' :: ls)) := by
        simp [List.intercalate]
      rw [hstep, List.count_append, List.count_cons, ih, List.flatten_cons, List.count_append]
      simp [hx.symm]

theorem count_pieces {d x : α} (hx : x ≠ d) (s : List α) :
    (pieces d s).flatten.count x = s.count x := by
  have hfilter : ∀ ls : List (List α), (ls.filter (· ≠ [])).flatten = ls.flatten := by
    intro ls
    induction ls with
    | nil => rfl
    | cons l ls ih =>
      cases l with
      | nil => simpa using ih
      | cons c l => simpa using ih
  rw [pieces, hfilter, ← count_intercalate hx, split, List.intercalate_splitOn]

end Tokens
