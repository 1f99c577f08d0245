import CMXSafe.Client.Informers
import Mathlib.Data.List.Nodup

/-!
# The cached string as a set of entries

`Encodes cur es` says that the cached string `cur` is the concatenation of the references
of the distinct entries `es`. Appending and removing act on the entries as on a set, but
for one effect: an entry is also found, and cut off, at the end of a longer entry.
-/

namespace CMXSafe.Proofs
open Strings Tokens

def textOf (es : List Str) : Str := (es.map (· ++ [';'])).flatten

/-- A cached string that lists the entries `es`, each once. -/
structure Encodes (cur : Str) (es : List Str) : Prop where
  text : cur = textOf es
  entry : ∀ e ∈ es, IsEntry e
  nodup : es.Nodup

lemma encodes_nil : Encodes [] [] := ⟨rfl, by simp, by simp⟩

lemma contains_textOf {es : List Str} (hes : ∀ e ∈ es, IsEntry e) {e : Str} (he : IsEntry e) :
    contains (textOf es) (e ++ [';']) = true ↔ ∃ c ∈ es, e <:+ c := by
  have htok : ∀ t ∈ es.map (· ++ [';']), IsToken ';' t := by
    intro t ht
    obtain ⟨c, hc, rfl⟩ := List.mem_map.mp ht
    exact (hes c hc).isToken
  rw [contains_iff, textOf, token_infix_flatten he.isToken htok]
  simp [List.suffix_append_self_iff]

def residue (e c : Str) : Str := cut (e ++ [';']) (c ++ [';'])

lemma replaceAll_textOf {es : List Str} (hes : ∀ e ∈ es, IsEntry e) {e : Str}
    (he : IsEntry e) :
    replaceAll (textOf es) (e ++ [';']) [] = (es.map (residue e)).flatten := by
  have htok : ∀ t ∈ es.map (· ++ [';']), IsToken ';' t := by
    intro t ht
    obtain ⟨c, hc, rfl⟩ := List.mem_map.mp ht
    exact (hes c hc).isToken
  rw [textOf, replaceAll_flatten he.isToken htok, List.map_map]
  rfl

lemma trimSpace_textOf {es : List Str} : trimSpace (textOf es) = [] ↔ es = [] := by
  constructor
  · intro h
    cases es with
    | nil => rfl
    | cons e es =>
      have hsp := trimSpace_eq_nil h ';' (by simp [textOf])
      exact absurd hsp (by decide)
  · rintro rfl
    rfl

lemma count_slash_flatten {f : Str → Str} {es : List Str} (p : Str → Bool)
    (hf : ∀ e ∈ es, (f e).count '/' = if p e then 1 else 0) :
    ((es.map f).flatten).count '/' = (es.filter p).length := by
  induction es with
  | nil => rfl
  | cons e es ih =>
    have hrec := ih (fun c hc => hf c (by simp [hc]))
    rw [List.map_cons, List.flatten_cons, List.count_append, hrec, hf e (by simp)]
    by_cases h : p e = true
    · simp [h, Nat.add_comm]
    · simp [h]

lemma count_slash_residue {e c : Str} (he : IsEntry e) (hc : IsEntry c) :
    (residue e c).count '/' = if e <:+ c then 0 else 1 := by
  have hslash : ∀ x : Str, IsEntry x → (x ++ [';']).count '/' = 1 := by
    intro x hx
    simp [List.count_append, hx.count_slash]
  by_cases h : e <:+ c
  · have hs : e ++ [';'] <:+ c ++ [';'] := List.suffix_append_self_iff.mpr h
    obtain ⟨w, hw⟩ := hs
    have hcount := congrArg (List.count '/') hw
    rw [List.count_append, hslash e he, hslash c hc] at hcount
    rw [if_pos h, residue, cut, ← hw, trimSuffix_append]
    omega
  · have hs : ¬e ++ [';'] <:+ c ++ [';'] := fun hs => h (List.suffix_append_self_iff.mp hs)
    rw [if_neg h, residue, cut, trimSuffix_of_not hs, hslash c hc]

lemma count_slash_removeVal {cur e : Str} :
    (removeVal cur (e ++ [';'])).count '/' =
      (replaceAll cur (e ++ [';']) []).count '/' := by
  unfold removeVal
  by_cases h : trimSpace (replaceAll cur (e ++ [';']) []) = []
  · rw [if_pos h]
    symm
    rw [List.count_nil, List.count_eq_zero]
    intro hm
    exact absurd (trimSpace_eq_nil h '/' hm) (by decide)
  · rw [if_neg h]

namespace Encodes

variable {cur : Str} {es : List Str}

lemma pieces_eq (h : Encodes cur es) : pieces ';' cur = es := by
  rw [h.text]
  exact pieces_flatten (fun e he => (h.entry e he).semicolon_not_mem)
    (fun e he => (h.entry e he).ne_nil)

lemma count_slash (h : Encodes cur es) : cur.count '/' = es.length := by
  rw [h.text, textOf, count_slash_flatten (fun _ => true)]
  · simp
  · intro e he
    simp [List.count_append, (h.entry e he).count_slash]

theorem append (h : Encodes cur es) {e : Str} (he : IsEntry e) (hn : ∀ c ∈ es, ¬e <:+ c) :
    Encodes (appendVal cur (e ++ [';'])) (es ++ [e]) where
  text := by
    have hc : ¬contains cur (e ++ [';']) = true := by
      rw [h.text, contains_textOf h.entry he]
      rintro ⟨c, hc, hs⟩
      exact hn c hc hs
    rw [appendVal, if_neg hc, h.text]
    simp [textOf]
  entry := by
    intro c hc
    rcases List.mem_append.mp hc with hc | hc
    · exact h.entry c hc
    · rw [List.mem_singleton.mp hc]
      exact he
  nodup := by
    refine List.Nodup.append h.nodup (by simp) ?_
    intro c hc hc'
    rw [List.mem_singleton.mp hc'] at hc
    exact hn e hc List.suffix_rfl

theorem append_of_suffix (h : Encodes cur es) {e c : Str} (he : IsEntry e) (hc : c ∈ es)
    (hs : e <:+ c) : appendVal cur (e ++ [';']) = cur := by
  rw [appendVal, if_pos]
  rw [h.text, contains_textOf h.entry he]
  exact ⟨c, hc, hs⟩

lemma replaceAll_eq (h : Encodes cur es) {e : Str} (he : IsEntry e)
    (hn : ∀ c ∈ es, e <:+ c → c = e) :
    replaceAll cur (e ++ [';']) [] = textOf (es.filter (· ≠ e)) := by
  have htok : ∀ t ∈ es.map (· ++ [';']), IsToken ';' t := by
    intro t ht
    obtain ⟨c, hc, rfl⟩ := List.mem_map.mp ht
    exact (h.entry c hc).isToken
  rw [h.text, textOf, replaceAll_flatten_filter he.isToken htok, textOf, List.filter_map]
  · congr 3
    funext c
    simp
  · intro t ht hs
    obtain ⟨c, hc, rfl⟩ := List.mem_map.mp ht
    rw [hn c hc (List.suffix_append_self_iff.mp hs)]

theorem remove (h : Encodes cur es) {e : Str} (he : IsEntry e)
    (hn : ∀ c ∈ es, e <:+ c → c = e) :
    Encodes (removeVal cur (e ++ [';'])) (es.filter (· ≠ e)) where
  text := by
    unfold removeVal
    rw [h.replaceAll_eq he hn]
    by_cases hb : trimSpace (textOf (es.filter (· ≠ e))) = []
    · rw [if_pos hb, trimSpace_textOf.mp hb]
      rfl
    · rw [if_neg hb]
  entry := fun c hc => h.entry c (List.mem_of_mem_filter hc)
  nodup := h.nodup.filter _

theorem count_slash_remove (h : Encodes cur es) {e : Str} (he : IsEntry e) :
    (removeVal cur (e ++ [';'])).count '/' = (es.filter (fun c => ¬e <:+ c)).length := by
  rw [count_slash_removeVal, h.text, replaceAll_textOf h.entry he, count_slash_flatten]
  intro c hc
  rw [count_slash_residue he (h.entry c hc)]
  by_cases hs : e <:+ c <;> simp [hs]

end Encodes

/-- A string whose pieces are known entries, each once, has as many slashes. -/
lemma count_slash_of_pieces {cur : Str} {es : List Str} (hn : (pieces ';' cur).Nodup)
    (hes : es.Nodup) (hentry : ∀ e ∈ es, IsEntry e)
    (hmem : ∀ e, e ∈ pieces ';' cur ↔ e ∈ es) : cur.count '/' = es.length := by
  have hperm : (pieces ';' cur).Perm es := (List.perm_ext_iff_of_nodup hn hes).mpr hmem
  have hone : (pieces ';' cur).map (List.count '/') =
      List.replicate (pieces ';' cur).length 1 := by
    rw [List.eq_replicate_iff]
    refine ⟨by simp, ?_⟩
    intro n hn'
    obtain ⟨e, he, rfl⟩ := List.mem_map.mp hn'
    exact (hentry e ((hmem e).mp he)).count_slash
  rw [← count_pieces (d := ';') (by decide), List.count_flatten, hone, List.sum_replicate_nat,
    hperm.length_eq]
  simp

/-- If a removal takes off just the entry that it names, then no other entry ends in it. -/
lemma Encodes.clear_of_remove {cur : Str} {es : List Str} (h : Encodes cur es) {e : Str}
    (he : IsEntry e) (hn : (pieces ';' (removeVal cur (e ++ [';']))).Nodup)
    (hmem : ∀ c, c ∈ pieces ';' (removeVal cur (e ++ [';'])) ↔ c ∈ es ∧ c ≠ e) :
    ∀ c ∈ es, e <:+ c → c = e := by
  intro c hc hs
  by_contra hne
  -- the removal also takes the slash of `c`
  have hcount := h.count_slash_remove he
  rw [count_slash_of_pieces hn (h.nodup.filter (fun c => c ≠ e))
    (fun c hc => h.entry c (List.mem_of_mem_filter hc)) (fun c => by simp [hmem])] at hcount
  have hlt : (es.filter (fun c => ¬e <:+ c)).length < (es.filter (fun c => c ≠ e)).length := by
    have hsub : es.filter (fun c => ¬e <:+ c) =
        (es.filter (fun c => c ≠ e)).filter (fun c => ¬e <:+ c) := by
      rw [List.filter_filter]
      refine List.filter_congr (fun c _ => ?_)
      by_cases hce : c = e <;> simp [hce]
    rw [hsub, List.length_filter_lt_length_iff_exists]
    exact ⟨c, List.mem_filter.mpr ⟨hc, by simpa using hne⟩, by simpa using hs⟩
  omega

/-- A list of distinct entries that all satisfy `P`. -/
def Lists (P : Str → Prop) (cur : Str) : Prop := ∃ es, Encodes cur es ∧ ∀ e ∈ es, P e

namespace Lists

variable {P Q : Str → Prop} {cur e : Str}

lemma mono (h : Lists P cur) (hpq : ∀ e, P e → Q e) : Lists Q cur := by
  obtain ⟨es, henc, hes⟩ := h
  exact ⟨es, henc, fun e he => hpq e (hes e he)⟩

lemma append (h : Lists P cur) (he : IsEntry e) (hp : P e) :
    Lists P (appendVal cur (e ++ [';'])) := by
  obtain ⟨es, henc, hes⟩ := h
  by_cases hsuf : ∃ c ∈ es, e <:+ c
  · obtain ⟨c, hc, hs⟩ := hsuf
    exact ⟨es, by rw [henc.append_of_suffix he hc hs]; exact henc, hes⟩
  · refine ⟨es ++ [e], henc.append he (fun c hc hs => hsuf ⟨c, hc, hs⟩), fun x hx => ?_⟩
    rcases List.mem_append.mp hx with hx | hx
    · exact hes x hx
    · rw [List.mem_singleton.mp hx]
      exact hp

lemma remove (h : Lists P cur) (he : IsEntry e)
    (hclear : ∀ c ∈ pieces ';' cur, e <:+ c → c = e) :
    Lists (fun x => P x ∧ x ≠ e) (removeVal cur (e ++ [';'])) := by
  obtain ⟨es, henc, hes⟩ := h
  rw [henc.pieces_eq] at hclear
  refine ⟨_, henc.remove he hclear, fun x hx => ?_⟩
  obtain ⟨hx, hne⟩ := List.mem_filter.mp hx
  exact ⟨hes x hx, by simpa using hne⟩

lemma of_mem_pieces (h : Lists P cur) (he : e ∈ pieces ';' cur) : P e := by
  obtain ⟨es, henc, hes⟩ := h
  rw [henc.pieces_eq] at he
  exact hes e he

end Lists

end CMXSafe.Proofs
