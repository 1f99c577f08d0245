import CMXSafe.OpenSSH.Readconf
import CMXSafe.Proofs.Entries

/-!
# What a forwarding specification says

The fields of a specification stand in brackets or have their colons escaped; a forward is read
from a text exactly if the text is spelled so.
-/

namespace CMXSafe.Proofs
open OpenSSH Strings

/-! ## Fields -/

/-- A text without brackets, with what it says and whether a slash in it is not escaped. -/
inductive Unescapes : Str → Str → Bool → Prop where
  | nil : Unescapes [] [] false
  | escaped {t s : Str} {p : Bool} (c : Char) (h : Unescapes t s p) :
      Unescapes ('\\' :: c :: t) (c :: s) p
  | literal {t s : Str} {p : Bool} {c : Char} (hc : c ≠ '\\' ∧ c ≠ ':') (h : Unescapes t s p) :
      Unescapes (c :: t) (c :: s) (c = '/' || p)

inductive Field : Str → FwdArg → Prop where
  | bracketed {s : Str} (h : ']' ∉ s) : Field ('[' :: (s ++ [']'])) ⟨s, '/' ∈ s⟩
  | plain {t s : Str} {p : Bool} (h : Unescapes t s p) (ho : t.head? ≠ some '[') : Field t ⟨s, p⟩

/-- A field ends with the text or with a colon. -/
def Ends (t s rest : Str) : Prop := s = t ∧ rest = [] ∨ s = t ++ ':' :: rest

lemma ends_cons {t text rest : Str} {c : Char} :
    Ends (c :: t) text rest ↔ ∃ u, text = c :: u ∧ Ends t u rest := by
  constructor
  · rintro (⟨rfl, hr⟩ | rfl)
    · exact ⟨t, rfl, Or.inl ⟨rfl, hr⟩⟩
    · exact ⟨t ++ ':' :: rest, rfl, Or.inr rfl⟩
  · rintro ⟨u, rfl, ⟨rfl, hr⟩ | rfl⟩
    · exact Or.inl ⟨rfl, hr⟩
    · exact Or.inr rfl

lemma parsePlainField_literal {c : Char} (hc : c ≠ '\\' ∧ c ≠ ':') (s : Str) :
    parsePlainField (c :: s) = match parsePlainField s with
      | .ok (fwd, rest) => .ok (⟨c :: fwd.arg, c = '/' || fwd.ispath⟩, rest)
      | .error left => .error (c :: left) := by
  rw [parsePlainField]
  · exact if_neg hc.2
  · exact fun h _ => hc.1 h
  · exact fun _ _ h _ => hc.1 h

/-- A field is read as what it says, up to its end. -/
lemma parsePlainField_unescapes {t s : Str} {p : Bool} (h : Unescapes t s p) {text rest : Str}
    (he : Ends t text rest) : parsePlainField text = .ok (⟨s, p⟩, rest) := by
  induction h generalizing text with
  | nil =>
    rcases he with ⟨rfl, rfl⟩ | rfl
    · rfl
    · rfl
  | escaped c _ ih =>
    obtain ⟨_, rfl, he'⟩ := ends_cons.mp he
    obtain ⟨_, rfl, he''⟩ := ends_cons.mp he'
    rw [parsePlainField, ih he'']
  | literal hc _ ih =>
    obtain ⟨_, rfl, he'⟩ := ends_cons.mp he
    rw [parsePlainField_literal hc, ih he']

lemma literal_of_not_escaped {c : Char} {s : Str} (h1 : c = '\\' → s = [] → False)
    (h2 : ∀ d u, c = '\\' → s = d :: u → False) (hc : c ≠ ':') : c ≠ '\\' ∧ c ≠ ':' := by
  refine ⟨fun h => ?_, hc⟩
  cases s with
  | nil => exact h1 h rfl
  | cons d u => exact h2 d u h rfl

lemma unescapes_of_parsePlainField {text : Str} {fwd : FwdArg} {rest : Str}
    (h : parsePlainField text = .ok (fwd, rest)) :
    ∃ t, Unescapes t fwd.arg fwd.ispath ∧ Ends t text rest := by
  induction text using parsePlainField.induct generalizing fwd rest with
  | case1 =>
    cases h
    exact ⟨[], .nil, Or.inl ⟨rfl, rfl⟩⟩
  | case2 => cases h
  | case3 c s fwd' rest' heq ih =>
    rw [parsePlainField, heq] at h
    cases h
    obtain ⟨t, ht, he⟩ := ih heq
    exact ⟨_, .escaped c ht, ends_cons.mpr ⟨_, rfl, ends_cons.mpr ⟨_, rfl, he⟩⟩⟩
  | case4 c s left heq ih =>
    rw [parsePlainField, heq] at h
    cases h
  | case5 s _ _ =>
    rw [parsePlainField, if_pos rfl] at h
    · cases h
      exact ⟨[], .nil, Or.inr rfl⟩
    · simp
    · simp
  | case6 c s h1 h2 hc fwd' rest' heq ih =>
    have hlit := literal_of_not_escaped h1 h2 hc
    rw [parsePlainField_literal hlit, heq] at h
    cases h
    obtain ⟨t, ht, he⟩ := ih heq
    exact ⟨_, .literal hlit ht, ends_cons.mpr ⟨_, rfl, he⟩⟩
  | case7 c s h1 h2 hc left heq ih =>
    have hlit := literal_of_not_escaped h1 h2 hc
    rw [parsePlainField_literal hlit, heq] at h
    cases h

/-- What is left is nothing only behind a single backslash. -/
lemma parsePlainField_error {s left : Str} (h : parsePlainField s = .error left) :
    left = [] ↔ s = ['\\'] := by
  induction s using parsePlainField.induct generalizing left with
  | case1 => cases h
  | case2 =>
    cases h
    exact iff_of_true rfl rfl
  | case3 c s fwd rest heq _ =>
    rw [parsePlainField, heq] at h
    cases h
  | case4 c s left' heq _ =>
    rw [parsePlainField, heq] at h
    cases h
    exact iff_of_false (List.cons_ne_nil _ _) (by simp)
  | case5 s h1 h2 =>
    rw [parsePlainField, if_pos rfl] at h
    · cases h
    · simp
    · simp
  | case6 c s h1 h2 hc fwd rest heq _ =>
    rw [parsePlainField_literal (literal_of_not_escaped h1 h2 hc), heq] at h
    cases h
  | case7 c s h1 h2 hc left' heq _ =>
    have hlit := literal_of_not_escaped h1 h2 hc
    rw [parsePlainField_literal hlit, heq] at h
    cases h
    exact iff_of_false (List.cons_ne_nil _ _) (fun he => hlit.1 (List.cons.inj he).1)

lemma takeWhile_closed {s : Str} (h : ']' ∉ s) (rest : Str) :
    (s ++ ']' :: rest).takeWhile (· != ']') = s :=
  have hne : ∀ c ∈ s, (c != ']') = true :=
    fun c hc => bne_iff_ne.mpr (fun he : c = ']' => h (he ▸ hc))
  takeWhile_append_cons hne (by decide) rest

lemma dropWhile_closed {s : Str} (h : ']' ∉ s) (rest : Str) :
    (s ++ ']' :: rest).dropWhile (· != ']') = ']' :: rest := by
  have hsplit := List.takeWhile_append_dropWhile (p := (· != ']')) (l := s ++ ']' :: rest)
  rw [takeWhile_closed h rest] at hsplit
  exact List.append_cancel_left hsplit

lemma parseFwdField_bracketed {s text rest : Str} (h : ']' ∉ s)
    (he : Ends ('[' :: (s ++ [']'])) text rest) :
    parseFwdField text = .ok (⟨s, '/' ∈ s⟩, rest) := by
  rcases he with ⟨rfl, rfl⟩ | rfl
  · simp [parseFwdField, takeWhile_closed h, dropWhile_closed h]
  · simp [parseFwdField, takeWhile_closed h, dropWhile_closed h]

lemma parseFwdField_plain {t text rest : Str} (ho : t.head? ≠ some '[') (hne : text ≠ [])
    (he : Ends t text rest) : parseFwdField text = parsePlainField text := by
  have hopen : text.head? ≠ some '[' := by
    rcases he with ⟨rfl, _⟩ | rfl
    · exact ho
    · cases t with
      | nil => simp
      | cons c t => simpa using ho
  rw [parseFwdField, if_neg hne, if_neg hopen]

lemma field_of_bracketed {s rest : Str} {fwd : FwdArg} (ho : s.head? = some '[')
    (h : parseFwdField s = .ok (fwd, rest)) : ∃ t, Field t fwd ∧ Ends t s rest := by
  obtain ⟨s, rfl⟩ := List.head?_eq_some_iff.mp ho
  have hclosed : ']' ∉ s.takeWhile (· != ']') :=
    fun hmem => absurd (List.mem_takeWhile_imp hmem) (by decide)
  have hsplit := List.takeWhile_append_dropWhile (p := (· != ']')) (l := s)
  simp only [parseFwdField, reduceCtorEq, if_false, List.head?_cons, if_true, List.tail_cons] at h
  split at h
  · next hd =>
    cases h
    rw [hd] at hsplit
    exact ⟨_, .bracketed hclosed, Or.inl ⟨congrArg _ hsplit.symm, rfl⟩⟩
  · next hd =>
    cases h
    rw [hd] at hsplit
    have htext : '[' :: (s.takeWhile (· != ']') ++ [']']) ++ ':' :: rest = '[' :: s := by
      simpa using hsplit
    exact ⟨_, .bracketed hclosed, Or.inr htext.symm⟩
  · cases h

/-- The next field is what a text before the end or a colon says. -/
lemma parseFwdField_iff {s rest : Str} {fwd : FwdArg} :
    parseFwdField s = .ok (fwd, rest) ↔ s ≠ [] ∧ ∃ t, Field t fwd ∧ Ends t s rest := by
  constructor
  · intro h
    have hne : s ≠ [] := by
      rintro rfl
      cases h
    refine ⟨hne, ?_⟩
    by_cases ho : s.head? = some '['
    · exact field_of_bracketed ho h
    · rw [parseFwdField, if_neg hne, if_neg ho] at h
      obtain ⟨t, ht, he⟩ := unescapes_of_parsePlainField h
      refine ⟨t, .plain ht ?_, he⟩
      rcases he with ⟨rfl, _⟩ | rfl
      · exact ho
      · cases t with
        | nil => simp
        | cons c t => simpa using ho
  · rintro ⟨hne, t, ht, he⟩
    cases ht with
    | bracketed hc => exact parseFwdField_bracketed hc he
    | plain ht ho => rw [parseFwdField_plain ho hne he, parsePlainField_unescapes ht he]

lemma parseFwdField_error {s left : Str} (h : parseFwdField s = .error left) :
    left = [] ↔ s = [] ∨ s = ['\\'] := by
  unfold parseFwdField at h
  split_ifs at h with hne ho
  · cases h
    simp [hne]
  · have hleft : left = s := by
      dsimp only at h
      split at h
      · cases h
      · cases h
      · cases h
        rfl
    have hs : s ≠ ['\\'] := by
      rintro rfl
      cases ho
    simp [hleft, hne, hs]
  · simp [parsePlainField_error h, hne]

/-! ## Specifications -/

/-- The texts of at most `n` fields with a colon between two of them, and perhaps one at the
end; a backslash alone counts as no field. -/
inductive Fields : Nat → List FwdArg → Str → Prop where
  | none {n : Nat} : Fields n [] []
  | backslash {n : Nat} : Fields (n + 1) [] ['\\']
  | last {n : Nat} {t : Str} {fwd : FwdArg} (h : Field t fwd) (hne : t ≠ []) :
      Fields (n + 1) [fwd] t
  | cons {n : Nat} {t s : Str} {fwd : FwdArg} {fwds : List FwdArg} (h : Field t fwd)
      (hs : Fields n fwds s) : Fields (n + 1) (fwd :: fwds) (t ++ ':' :: s)

lemma parseFwdFields_fields {n : Nat} {s : Str} {fwds : List FwdArg} (h : Fields n fwds s) :
    parseFwdFields n s = (fwds, []) := by
  induction h with
  | @none n => cases n <;> rfl
  | backslash => rfl
  | @last n t fwd h hne =>
    have hf : parseFwdField t = .ok (fwd, []) :=
      parseFwdField_iff.mpr ⟨hne, t, h, Or.inl ⟨rfl, rfl⟩⟩
    have hrest : parseFwdFields n [] = ([], []) := by cases n <;> rfl
    simp only [parseFwdFields, hf, hrest]
  | @cons n t s fwd fwds h _ ih =>
    have hf : parseFwdField (t ++ ':' :: s) = .ok (fwd, s) :=
      parseFwdField_iff.mpr ⟨by simp, t, h, Or.inr rfl⟩
    simp only [parseFwdFields, hf, ih]

/-- All of a text is read exactly if it is the text of some fields. -/
lemma parseFwdFields_iff {n : Nat} {s : Str} {fwds : List FwdArg} :
    parseFwdFields n s = (fwds, []) ↔ Fields n fwds s := by
  refine ⟨fun h => ?_, parseFwdFields_fields⟩
  induction n generalizing s fwds with
  | zero =>
    cases h
    exact .none
  | succ n ih =>
    rw [parseFwdFields] at h
    cases hf : parseFwdField s with
    | error left =>
      simp only [hf, Prod.mk.injEq] at h
      obtain ⟨rfl, hleft⟩ := h
      rcases (parseFwdField_error hf).mp hleft with rfl | rfl
      · exact .none
      · exact .backslash
    | ok r =>
      obtain ⟨fwd, rest⟩ := r
      simp only [hf, Prod.mk.injEq] at h
      obtain ⟨rfl, hleft⟩ := h
      obtain ⟨hne, t, ht, he⟩ := parseFwdField_iff.mp hf
      have hs := ih (Prod.ext rfl hleft : parseFwdFields n rest = ((parseFwdFields n rest).1, []))
      rcases he with ⟨rfl, rfl⟩ | rfl
      · have hrest : parseFwdFields n [] = ([], []) := by cases n <;> rfl
        rw [hrest]
        exact .last ht hne
      · exact .cons ht hs

section
variable {getenv : Str → Option Str} {services : Str → Option Int} {fwdspec : Str}

lemma parseForward_iff {dynamicfwd remotefwd : Bool} {fwd : ForwardSpec} :
    parseForward getenv services fwdspec dynamicfwd remotefwd = some fwd ↔
      ∃ text fields, dollarExpand getenv fwdspec = some text ∧
        Fields 4 fields (text.dropWhile isCSpace) ∧
        forwardOfFields services fields = some fwd ∧
        fwd.accepted dynamicfwd remotefwd fields.length = true := by
  simp only [parseForward, Option.bind_eq_some_iff]
  refine exists_congr fun text => ?_
  constructor
  · rintro ⟨hd, h⟩
    split_ifs at h with hleft
    obtain ⟨hf, ha⟩ := Option.filter_eq_some_iff.mp h
    exact ⟨_, hd, parseFwdFields_iff.mp (Prod.ext rfl (not_not.mp hleft)), hf, ha⟩
  · rintro ⟨fields, hd, hf, hfwd, ha⟩
    refine ⟨hd, ?_⟩
    rw [parseFwdFields_fields hf, if_neg (by simp)]
    exact Option.filter_eq_some_iff.mpr ⟨hfwd, ha⟩

/-- A forward from a host and port to a host and port. -/
def tcpForward (listenHost : Str) (listenPort : Int) (connectHost : Str) (connectPort : Int) :
    ForwardSpec where
  listenHost := some listenHost
  listenPort := listenPort
  connectHost := some connectHost
  connectPort := connectPort

lemma port_getD {port : Option Int} {p : Int} (hp : 0 ≤ p) :
    port.getD (-1) = p ↔ port = some p := by
  cases port with
  | none => simp only [Option.getD_none, reduceCtorEq, iff_false]; omega
  | some q => simp

lemma tcpForward_accepted {remotefwd : Bool} {n : Nat} {h h' : Str} {p p' : Int} :
    (tcpForward h p h' p').accepted false remotefwd n = true ↔
      (n = 3 ∨ n = 4) ∧ 0 ≤ p ∧ (remotefwd = true ∨ p ≠ 0) ∧ 0 < p' ∧ h.length < niMaxhost ∧
        h'.length < niMaxhost := by
  unfold ForwardSpec.accepted tcpForward
  dsimp only
  simp only [Bool.false_eq_true, if_false, Option.isSome_none, Bool.or_false, Option.all_some,
    Option.all_none, Bool.and_true, Bool.and_eq_true, Bool.or_eq_true, decide_eq_true_eq]
  tauto

/-- Only four fields are read as such a forward. -/
lemma tcpForward_fields {n : Nat} {fields : List FwdArg} {h h' : Str} {p p' : Int}
    (hn : fields.length = n) (h34 : n = 3 ∨ n = 4)
    (hf : forwardOfFields services fields = some (tcpForward h p h' p')) :
    ∃ a b c d, fields = [a, b, c, d] := by
  match fields, hn, hf with
  | [a, b, c, d], _, _ => exact ⟨a, b, c, d, rfl⟩
  | [a, b, c], _, hf =>
    simp only [forwardOfFields] at hf
    split_ifs at hf <;> simp [tcpForward] at hf
  | [], hn, _ => simp at hn; omega
  | [_], hn, _ => simp at hn; omega
  | [_, _], hn, _ => simp at hn; omega
  | _ :: _ :: _ :: _ :: _ :: _, hn, _ => simp at hn; omega

/-- What a specification of four fields has to say. -/
structure Specifies (services : Str → Option Int) (remotefwd : Bool) (h : Str) (p : Int) (h' : Str)
    (p' : Int) (a b c d : FwdArg) : Prop where
  listenHost : a.arg = h ∧ h.length < niMaxhost
  listenPort : a2port services b.arg = some p ∧ 0 ≤ p ∧ (remotefwd = true ∨ p ≠ 0)
  connectHost : c.arg = h' ∧ h'.length < niMaxhost
  connectPort : a2port services d.arg = some p' ∧ 0 < p'

lemma specifies_iff {remotefwd : Bool} {h h' : Str} {p p' : Int} {a b c d : FwdArg} :
    (forwardOfFields services [a, b, c, d] = some (tcpForward h p h' p') ∧
        (tcpForward h p h' p').accepted false remotefwd 4 = true) ↔
      Specifies services remotefwd h p h' p' a b c d := by
  rw [tcpForward_accepted]
  constructor
  · rintro ⟨hf, -, hp, hr, hp', hl, hl'⟩
    simp only [forwardOfFields, tcpForward, Option.some.injEq, ForwardSpec.mk.injEq,
      Forward.mk.injEq, and_true] at hf
    obtain ⟨⟨ha, hb⟩, hc, hd⟩ := hf
    exact ⟨⟨ha, hl⟩, ⟨(port_getD hp).mp hb, hp, hr⟩, ⟨hc, hl'⟩,
      (port_getD (Int.le_of_lt hp')).mp hd, hp'⟩
  · rintro ⟨⟨rfl, hl⟩, ⟨hb, hp, hr⟩, ⟨rfl, hl'⟩, hd, hp'⟩
    exact ⟨by simp [forwardOfFields, tcpForward, hb, hd], Or.inr rfl, hp, hr, hp', hl, hl'⟩

/-- A specification is read as a forward from a host and port to a host and port exactly if its
text, variables being expanded, is that of four fields that say so. -/
theorem forward_spec_iff {remotefwd : Bool} {h h' : Str} {p p' : Int} :
    parseForward getenv services fwdspec false remotefwd = some (tcpForward h p h' p') ↔
      ∃ text a b c d, dollarExpand getenv fwdspec = some text ∧
        Fields 4 [a, b, c, d] (text.dropWhile isCSpace) ∧
        Specifies services remotefwd h p h' p' a b c d := by
  rw [parseForward_iff]
  constructor
  · rintro ⟨text, fields, hd, hs, hf, ha⟩
    obtain ⟨a, b, c, d, rfl⟩ := tcpForward_fields rfl (tcpForward_accepted.mp ha).1 hf
    exact ⟨text, a, b, c, d, hd, hs, specifies_iff.mp ⟨hf, ha⟩⟩
  · rintro ⟨text, a, b, c, d, hd, hs, h⟩
    obtain ⟨hf, ha⟩ := specifies_iff.mpr h
    exact ⟨text, [a, b, c, d], hd, hs, hf, ha⟩

/-! ## Specifications in brackets -/

lemma dollarExpand_plain {s : Str} (h : '$' ∉ s) : dollarExpand getenv s = some s := by
  induction s with
  | nil => rfl
  | cons c s ih =>
    have hc : c ≠ '$' := fun he => h (he ▸ List.mem_cons_self)
    rw [dollarExpand, dollarExpandFrom]
    · rw [dollarExpand] at ih
      rw [ih (fun hmem => h (List.mem_cons_of_mem c hmem)), Option.map_some]
    · exact fun _ he _ => hc he

lemma unescapes_plain {s : Str} (h : ∀ c ∈ s, c ≠ '\\' ∧ c ≠ ':') : ∃ p, Unescapes s s p := by
  induction s with
  | nil => exact ⟨false, .nil⟩
  | cons c s ih =>
    obtain ⟨p, hp⟩ := ih (fun d hd => h d (List.mem_cons_of_mem c hd))
    exact ⟨_, .literal (h c List.mem_cons_self) hp⟩

lemma field_port (n : Nat) : ∃ p, Field (Nat.toDigits 10 n) ⟨Nat.toDigits 10 n, p⟩ := by
  obtain ⟨p, hp⟩ := unescapes_plain (s := Nat.toDigits 10 n) (fun c hc =>
    ⟨ne_of_isDigit (isDigit_toDigits hc) rfl, ne_of_isDigit (isDigit_toDigits hc) rfl⟩)
  refine ⟨p, .plain hp ?_⟩
  obtain ⟨d, ds, hd, hdigit⟩ := toDigits_cons n
  rw [hd, List.head?_cons, Ne, Option.some.injEq]
  exact ne_of_isDigit hdigit rfl

/-- A forward as the agents write it, with both hosts in brackets. -/
def bracketText (h : Str) (p : Nat) (h' : Str) (p' : Nat) : Str :=
  '[' :: (h ++ [']']) ++ ':' :: (Nat.toDigits 10 p ++
    ':' :: ('[' :: (h' ++ [']']) ++ ':' :: Nat.toDigits 10 p'))

/-- What is written in brackets is read back. -/
lemma parseForward_bracketText {remotefwd : Bool} {h h' : Str} {p p' : Nat}
    (hh : ']' ∉ h ∧ '$' ∉ h ∧ h.length < niMaxhost)
    (hh' : ']' ∉ h' ∧ '$' ∉ h' ∧ h'.length < niMaxhost) (hp : 0 < p ∧ p ≤ 0xFFFF)
    (hp' : 0 < p' ∧ p' ≤ 0xFFFF) :
    parseForward getenv services (bracketText h p h' p') false remotefwd =
      some (tcpForward h p h' p') := by
  have hdigits : ∀ n, '$' ∉ Nat.toDigits 10 n :=
    fun n hmem => ne_of_isDigit (isDigit_toDigits hmem) rfl rfl
  have hdollar : '$' ∉ bracketText h p h' p' := by
    simp [bracketText, hh.2.1, hh'.2.1, hdigits]
  have hspace : (bracketText h p h' p').dropWhile isCSpace = bracketText h p h' p' := by
    rw [bracketText, List.cons_append, List.dropWhile_cons_of_neg (by decide)]
  have hport : ∀ {n : Nat}, n ≤ 0xFFFF → a2port services (Nat.toDigits 10 n) = some (n : Int) := by
    intro n hn
    rw [a2port, strtonum_toDigits hn]
  obtain ⟨q, hq⟩ := field_port p
  obtain ⟨q', hq'⟩ := field_port p'
  have hfields : Fields 4 [⟨h, '/' ∈ h⟩, ⟨Nat.toDigits 10 p, q⟩, ⟨h', '/' ∈ h'⟩,
      ⟨Nat.toDigits 10 p', q'⟩] (bracketText h p h' p') :=
    .cons (.bracketed hh.1) (.cons hq (.cons (.bracketed hh'.1) (.last hq' Nat.toDigits_ne_nil)))
  have hspec : Specifies services remotefwd h p h' p' ⟨h, '/' ∈ h⟩ ⟨Nat.toDigits 10 p, q⟩
      ⟨h', '/' ∈ h'⟩ ⟨Nat.toDigits 10 p', q'⟩ :=
    ⟨⟨rfl, hh.2.2⟩, ⟨hport hp.2, by omega, Or.inr (by omega)⟩, ⟨rfl, hh'.2.2⟩, hport hp'.2,
      by omega⟩
  exact parseForward_iff.mpr ⟨_, _, dollarExpand_plain hdollar, hspace.symm ▸ hfields,
    specifies_iff.mpr hspec⟩

end

end CMXSafe.Proofs
