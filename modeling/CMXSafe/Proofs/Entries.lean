import CMXSafe.Proofs.Config
import CMXSafe.Proofs.Forwarding

/-!
# Words and entries, written and read

What is written as words of a line, as a port or as an entry of `PermitOpen` or `PermitListen`
is read back as what it was.
-/

namespace CMXSafe.Proofs
open OpenSSH Strings

/-! ## Words -/

def special (c : Char) : Bool := c = '\'' || c = '"' || c = '\\'

def escape (w : Str) : Str := w.flatMap (fun c => if special c then ['\\', c] else [c])

def quoted (w : Str) : Str := '"' :: (escape w ++ ['"'])

lemma argvSplitFrom_quoted (w acc rest : Str) :
    argvSplitFrom (some (some '"', acc)) (escape w ++ '"' :: rest) =
      argvSplitFrom (some (none, acc ++ w)) rest := by
  induction w generalizing acc with
  | nil => simp [escape, argvSplitFrom]
  | cons c w ih =>
    have hrec := ih (acc ++ [c])
    rw [List.append_assoc, List.singleton_append] at hrec
    rw [← hrec]
    by_cases hc : special c = true
    · have hesc : escapable (some '"') c = true := by
        simp only [special, Bool.or_eq_true, decide_eq_true_eq] at hc
        rcases hc with (rfl | rfl) | rfl <;> rfl
      simp [escape, hc, argvSplitFrom, hesc]
    · simp only [special, Bool.or_eq_true, decide_eq_true_eq, not_or] at hc
      have hs : special c = false := by simp [special, hc]
      simp [escape, hs, argvSplitFrom, hc, Ne.symm hc.1.2]

/-- The words of a line, each in quotes. -/
def wordsText (ws : List Str) : Str := [' '].intercalate (ws.map quoted)

lemma argvSplit_quoted (w rest : Str) :
    argvSplit (quoted w ++ rest) = argvSplitFrom (some (none, w)) rest := by
  have h := argvSplitFrom_quoted w [] rest
  simp only [List.nil_append] at h
  simp [argvSplit, quoted, argvSplitFrom, isBlank, h]

/-- Words of whatever characters, written in quotes, are read as they were. -/
lemma argvSplit_wordsText (ws : List Str) : argvSplit (wordsText ws) = some ws := by
  induction ws with
  | nil => rfl
  | cons w ws ih =>
    cases ws with
    | nil =>
      have h := argvSplit_quoted w []
      simpa [wordsText, List.intercalate, argvSplitFrom] using h
    | cons v ws =>
      have h := argvSplit_quoted w (' ' :: wordsText (v :: ws))
      have htext : wordsText (w :: v :: ws) = quoted w ++ ' ' :: wordsText (v :: ws) := by
        simp [wordsText, List.intercalate]
      rw [argvSplit] at ih
      rw [htext, h]
      simp [argvSplitFrom, isBlank, ih]

/-! ## Ports -/

variable {env : Env} {services : Str → Option Int}

def portText (n : Nat) : Str := if n = 0 then ['*'] else Nat.toDigits 10 n

lemma isDigit_toDigits {n : Nat} {c : Char} (h : c ∈ Nat.toDigits 10 n) : c.isDigit = true :=
  Nat.isDigit_of_mem_toDigits (by decide) (by decide) h

lemma toDigits_cons (n : Nat) : ∃ d ds, Nat.toDigits 10 n = d :: ds ∧ d.isDigit = true := by
  cases h : Nat.toDigits 10 n with
  | nil => exact absurd h Nat.toDigits_ne_nil
  | cons d ds => exact ⟨d, ds, rfl, isDigit_toDigits (n := n) (h ▸ List.mem_cons_self)⟩

lemma ne_of_isDigit {c d : Char} (hc : c.isDigit = true) (hd : d.isDigit = false) : c ≠ d := by
  rintro rfl
  rw [hc] at hd
  cases hd

lemma not_isCSpace_of_isDigit {c : Char} (h : c.isDigit = true) : isCSpace c = false := by
  have hspace : c ≠ ' ' := ne_of_isDigit h rfl
  have hc : 48 ≤ c.toNat := by
    simp only [Char.isDigit, Bool.and_eq_true, decide_eq_true_eq] at h
    exact h.1
  simp [isCSpace, hspace]
  omega

lemma strtonum_toDigits {n : Nat} (h : n ≤ 65535) :
    strtonum (Nat.toDigits 10 n) 0 65535 = some (n : Int) := by
  obtain ⟨d, ds, hd, hdigit⟩ := toDigits_cons n
  have hspace : (Nat.toDigits 10 n).dropWhile isCSpace = Nat.toDigits 10 n := by
    rw [hd, List.dropWhile_cons, not_isCSpace_of_isDigit hdigit, if_neg Bool.false_ne_true]
  have hminus : (Nat.toDigits 10 n).head? ≠ some '-' := by
    rw [hd, List.head?_cons, Ne, Option.some.injEq]
    exact ne_of_isDigit hdigit rfl
  have hplus : (Nat.toDigits 10 n).head? ≠ some '+' := by
    rw [hd, List.head?_cons, Ne, Option.some.injEq]
    exact ne_of_isDigit hdigit rfl
  have hall : (Nat.toDigits 10 n).all Char.isDigit = true :=
    List.all_eq_true.mpr (fun c hc => isDigit_toDigits hc)
  unfold strtonum
  simp only [hspace, hminus, hplus, or_self, if_false, hall, Nat.ofDigitChars_ten_toDigits,
    Nat.toDigits_ne_nil, ne_eq, not_false_eq_true, and_self, if_true]
  rw [if_pos (by omega)]

lemma permitopenPort_portText {n : Nat} (h : n ≤ 65535) :
    permitopenPort services (portText n) = some (n : Int) := by
  unfold permitopenPort portText
  by_cases h0 : n = 0
  · simp [h0, fwdPermitAnyPort]
  · obtain ⟨d, ds, hd, hdigit⟩ := toDigits_cons n
    have hstar : Nat.toDigits 10 n ≠ ['*'] := by
      rw [hd]
      rintro ⟨⟩
      cases hdigit
    rw [if_neg h0, if_neg hstar, a2port, strtonum_toDigits h]
    simp [Nat.pos_of_ne_zero h0]

/-! ## Entries -/

/-- An entry for a host and a port, or for all ports of the host. -/
structure Entry where
  host : Str
  port : Nat
  notClosed : ']' ∉ host
  notOpened : host.head? ≠ some '['
  fits : port ≤ 65535

/-- A host with a delimiter in it stands in brackets. -/
def Entry.field (e : Entry) : Str :=
  if ':' ∈ e.host ∨ '/' ∈ e.host then '[' :: (e.host ++ [']']) else e.host

def Entry.text (e : Entry) : Str := e.field ++ ':' :: portText e.port

lemma cleanhostname_field (e : Entry) : cleanhostname e.field = e.host := by
  unfold Entry.field cleanhostname
  split_ifs with h h1 h2
  · simp
  · exact absurd ⟨rfl, by rw [← List.cons_append, List.getLast?_concat]⟩ h1
  · exact absurd h2.1 e.notOpened
  · rfl

lemma takeWhile_append_cons {p : Char → Bool} {s : Str} {c : Char} (hs : ∀ d ∈ s, p d = true)
    (hc : p c = false) (t : Str) : (s ++ c :: t).takeWhile p = s := by
  rw [List.takeWhile_append_of_pos hs, List.takeWhile_cons_of_neg (by simp [hc]), List.append_nil]

/-- The length that `hpdelim2` finds for the field in front of the port. -/
lemma field_length (e : Entry) :
    (if e.text.head? = some '[' then (e.text.takeWhile (· ≠ ']')).length + 1
      else (e.text.takeWhile (fun c => c ≠ ':' && c ≠ '/')).length) = e.field.length := by
  by_cases h : ':' ∈ e.host ∨ '/' ∈ e.host
  · have hclosed : ∀ c ∈ '[' :: e.host, (decide (c ≠ ']')) = true := by
      intro c hc
      rcases List.mem_cons.mp hc with rfl | hc
      · decide
      · exact decide_eq_true (fun he => e.notClosed (he ▸ hc))
    have htext : e.text = ('[' :: e.host) ++ ']' :: ':' :: portText e.port := by
      simp [Entry.text, Entry.field, h]
    rw [htext, takeWhile_append_cons hclosed (by decide)]
    simp [Entry.field, h]
  · have hfield : e.field = e.host := by simp [Entry.field, h]
    have hopen : e.text.head? ≠ some '[' := by
      rw [Entry.text, hfield]
      have := e.notOpened
      cases hh : e.host with
      | nil => simp
      | cons c s => simpa [hh] using this
    have hplain : ∀ c ∈ e.host, (decide (c ≠ ':') && decide (c ≠ '/')) = true := by
      intro c hc
      rw [Bool.and_eq_true]
      exact ⟨decide_eq_true (fun he => h (Or.inl (he ▸ hc))),
        decide_eq_true (fun he => h (Or.inr (he ▸ hc)))⟩
    rw [if_neg hopen, Entry.text, hfield, takeWhile_append_cons hplain (by decide)]

lemma closed_text (e : Entry) : ¬(e.text.head? = some '[' ∧ ']' ∉ e.text) := by
  rintro ⟨hopen, hclosed⟩
  by_cases h : ':' ∈ e.host ∨ '/' ∈ e.host
  · exact hclosed (by simp [Entry.text, Entry.field, h])
  · have hn := e.notOpened
    rw [Entry.text, Entry.field, if_neg h] at hopen
    cases hh : e.host with
    | nil => simp [hh] at hopen
    | cons c s => exact hn (by simpa [hh] using hopen)

lemma hpdelim2_text (e : Entry) :
    hpdelim2 e.text = some (e.field, some (portText e.port), some ':') := by
  unfold hpdelim2
  rw [if_neg (closed_text e)]
  simp only [field_length]
  simp [Entry.text]

/-- An entry is read as the host and the port that it was written for. -/
lemma parsePermission_text (e : Entry) (slash : Bool) :
    parsePermission env slash e.text = some (e.host, (e.port : Int)) := by
  simp [parsePermission, hpdelim2_text, cleanhostname_field, permitopenPort_portText e.fits]

lemma colon_mem_text (e : Entry) : ':' ∈ e.text := by
  simp [Entry.text]

lemma permitArg_text (e : Entry) (dir : Where) : permitArg env dir e.text = some e.text := by
  simp [permitArg, hpdelim, hpdelim2_text, colon_mem_text, permitopenPort_portText e.fits]

lemma text_ne_nil (e : Entry) : e.text ≠ [] := List.ne_nil_of_mem (colon_mem_text e)

lemma text_ne_keyword (e : Entry) : e.text ≠ anyKeyword ∧ e.text ≠ noneKeyword := by
  have h := colon_mem_text e
  constructor
  · intro he
    rw [he] at h
    exact absurd h (by decide)
  · intro he
    rw [he] at h
    exact absurd h (by decide)

lemma mapM_permitArg (dir : Where) (es : List Entry) :
    (es.map Entry.text).mapM (permitArg env dir) = some (es.map Entry.text) := by
  induction es with
  | nil => rfl
  | cons e es ih => simp [List.mapM_cons, permitArg_text, ih]

lemma permitArgs_text {es : List Entry} (hne : es ≠ []) (dir : Where) :
    permitArgs env dir (es.map Entry.text) = some (es.map Entry.text) := by
  have hnonempty : ∀ w ∈ es.map Entry.text, (decide (w ≠ [])) = true := by
    intro w hw
    obtain ⟨e, _, rfl⟩ := List.mem_map.mp hw
    exact decide_eq_true (text_ne_nil e)
  cases es with
  | nil => exact absurd rfl hne
  | cons e es =>
    have hk := text_ne_keyword e
    rw [List.map_cons] at hnonempty
    simp only [permitArgs, List.map_cons, if_neg (text_ne_nil e), hk.1, hk.2, or_self, if_false,
      List.dropWhile_eq_nil_iff.mpr hnonempty, List.takeWhile_eq_self_iff.mpr hnonempty,
      List.tail_nil, ne_eq, not_true_eq_false]
    exact mapM_permitArg dir (e :: es)

lemma addPermissions_of_map {slash : Bool} (who : Who) (dir : Where) {args : List Str}
    {es : List (Str × Int)} (h : args.map (parsePermission env slash) = es.map some) (p : Perms) :
    addPermissions env slash who dir args p =
      some (Perms.modify (addEntries who dir es) dir p) := by
  induction args generalizing es p with
  | nil =>
    have hes : es = [] := by simpa using h.symm
    subst hes
    cases dir <;> simp [addPermissions, Perms.modify, addEntries_nil]
  | cons arg args ih =>
    cases es with
    | nil => cases h
    | cons e es =>
      simp only [List.map_cons, List.cons.injEq] at h
      have hrec := ih h.2 (channelAddPermission who dir e.1 e.2 p)
      unfold addPermissions at hrec ⊢
      rw [List.foldlM_cons, h.1, Option.map_some, Option.bind_eq_bind, Option.bind_some, hrec,
        channelAddPermission_eq]
      cases dir <;> simp [Perms.modify, addEntries_cons who _ e es]

/-! ## Lines -/

def permitKeyword : Where → Str
  | .localFwd => "PermitOpen".toList
  | .remoteFwd => "PermitListen".toList

def permitLine (dir : Where) (es : List Entry) : Str :=
  permitKeyword dir ++ ' ' :: wordsText (es.map Entry.text)

lemma wordsText_cons (w : Str) (ws : List Str) :
    ∃ s, wordsText (w :: ws) = '"' :: (s ++ ['"']) := by
  induction ws generalizing w with
  | nil => exact ⟨escape w, by simp [wordsText, List.intercalate, quoted]⟩
  | cons v ws ih =>
    obtain ⟨s, hs⟩ := ih v
    refine ⟨escape w ++ '"' :: ' ' :: '"' :: s, ?_⟩
    have htext : wordsText (w :: v :: ws) = quoted w ++ ' ' :: wordsText (v :: ws) := by
      simp [wordsText, List.intercalate]
    rw [htext, hs]
    simp [quoted]

lemma bare_permitKeyword (dir : Where) : Bare (permitKeyword dir) := by
  cases dir with
  | localFwd => exact bare_of_all (by decide) (by decide) (by decide)
  | remoteFwd => exact bare_of_all (by decide) (by decide) (by decide)

lemma stripTrailing_concat {w : Str} (hw : w ≠ []) (s : Str) :
    stripTrailing (w ++ (s ++ ['"'])) = w ++ (s ++ ['"']) := by
  obtain ⟨c, w, rfl⟩ := List.exists_cons_of_ne_nil hw
  rw [List.cons_append, stripTrailing, ← List.append_assoc, List.rdropWhile_concat_neg]
  decide

lemma splitLine_permitLine (dir : Where) {es : List Entry} (hne : es ≠ []) :
    splitLine (permitLine dir es) =
      some (permitKeyword dir, some (wordsText (es.map Entry.text))) := by
  obtain ⟨e, es, rfl⟩ := List.exists_cons_of_ne_nil hne
  obtain ⟨s, hs⟩ := wordsText_cons e.text (es.map Entry.text)
  have hbare := bare_permitKeyword dir
  have hstrip := stripTrailing_concat hbare.ne_nil (' ' :: '"' :: s)
  have hword : strdelim (some (permitKeyword dir ++ ' ' :: '"' :: (s ++ ['"']))) =
      (some (permitKeyword dir), some ('"' :: (s ++ ['"']))) := by
    simp only [strdelim, takeWhile_bare hbare, dropWhile_bare hbare]
    simp [isWhitespace]
  rw [permitLine, List.map_cons, hs, splitLine]
  simp only [List.cons_append] at hstrip
  rw [hstrip]
  simp [hword, hbare.ne_nil, hbare.noComment]

lemma parseToken_permitKeyword (other : Str → Option Bool) (dir : Where) :
    parseToken other (permitKeyword dir) = some (.permit dir) := by
  have h : keywords.find? (fun e => strcasecmp (permitKeyword dir) e.1.toList) =
      some (if dir = .localFwd then "permitopen" else "permitlisten", .permit dir) := by
    cases dir <;> decide +kernel
  rw [parseToken, h]

lemma readDirective_permitLine (other : Str → Option Bool) (dir : Where) {es : List Entry}
    (hne : es ≠ []) :
    readDirective other (permitLine dir es) =
      some ⟨.permit dir, wordsText (es.map Entry.text), es.map Entry.text⟩ := by
  simp [readDirective, splitLine_permitLine dir hne, parseToken_permitKeyword, argvSplit_wordsText]

/-- A `PermitOpen` or `PermitListen` line that is written for some entries sets the option to
these entries, and a session that starts with them has them, and no others, in its list. -/
theorem permit_line_round_trip (other : Str → Option Bool) (dir : Where) {es : List Entry}
    (hne : es ≠ []) (p : Perms) :
    ∃ d, readDirective other (permitLine dir es) = some d ∧
      d.permit env dir = some (es.map Entry.text) ∧
      ∃ q, processPermitopenList env dir (es.map Entry.text) p = some q ∧
        (q.set dir).permittedAdmin =
          es.map (fun e => addedPermission dir e.host (e.port : Int)) := by
  refine ⟨_, readDirective_permitLine other dir hne, ?_, ?_⟩
  · simp [Directive.permit, permitArgs_text hne]
  · obtain ⟨e, es, rfl⟩ := List.exists_cons_of_ne_nil hne
    have hk := text_ne_keyword e
    have hmap : ((e :: es).map Entry.text).map (parsePermission env false) =
        ((e :: es).map (fun e => (e.host, (e.port : Int)))).map some := by
      rw [List.map_map, List.map_map]
      exact List.map_congr_left (fun e _ => parsePermission_text e false)
    have hany : (e :: es).map Entry.text ≠ [anyKeyword] := by
      intro h
      exact hk.1 (List.cons.inj h).1
    have hnone : (e :: es).map Entry.text ≠ [noneKeyword] := by
      intro h
      exact hk.2 (List.cons.inj h).1
    have hadd := addPermissions_of_map .adm dir hmap (channelClearPermission .adm dir p)
    refine ⟨_, Eq.trans ?_ hadd, ?_⟩
    · rw [processPermitopenList, if_neg (by simp), if_neg hany, if_neg hnone]
    · rw [set_modify_self, addEntries, channelClearPermission, set_modify_self]
      cases dir <;> simp [PermissionSet.setArray, PermissionSet.array]

lemma mqtt_fits : 1883 ≤ 65535 := by decide

def brokerEntry : Entry where
  host := "::1".toList
  port := 1883
  notClosed := by decide
  notOpened := by decide
  fits := mqtt_fits

theorem permit_line_round_trip_broker :
    ∃ d, readDirective (fun _ => none) (permitLine .remoteFwd [brokerEntry]) = some d ∧
      d.permit bareEnv .remoteFwd = some ["[::1]:1883".toList] ∧
      ∃ q, processPermitopenList bareEnv .remoteFwd ["[::1]:1883".toList] {} = some q ∧
        (q.set .remoteFwd).permittedAdmin =
          [{ listenHost := some "::1".toList, listenPort := 1883 }] :=
  have hne : [brokerEntry] ≠ [] := List.cons_ne_nil _ _
  permit_line_round_trip (fun _ => none) .remoteFwd hne {}

end CMXSafe.Proofs
