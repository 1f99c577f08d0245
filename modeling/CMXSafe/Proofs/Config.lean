import CMXSafe.OpenSSH.Servconf

/-!
# What a configuration says about a connection

The options that the two passes of sshd end with: the first line in force sets an option, and
one in a `Match` block that the connection meets goes before the global lines.
-/

namespace CMXSafe.Proofs
open OpenSSH Strings

/-! ## The criteria of a `Match` line -/

/-- How much of a line is left, with the end of the string counted. -/
def remaining : Option Str → Nat
  | none => 0
  | some s => s.length + 1

lemma strdelim_remaining {cp : Option Str} {word : Str} {rest : Option Str}
    (h : strdelim cp = (some word, rest)) : remaining rest < remaining cp := by
  cases cp with
  | none => cases h
  | some s =>
    have hsplit := List.takeWhile_append_dropWhile (p := fun c => !isDelim c) (l := s)
    simp only [strdelim] at h
    cases hd : s.dropWhile (fun c => !isDelim c) with
    | nil =>
      rw [hd] at h
      cases h
      exact Nat.succ_pos _
    | cons c post =>
      have hlen : post.length < s.length := by
        rw [← hsplit, hd, List.length_append, List.length_cons]
        omega
      have hdrop := fun (p : Char → Bool) (l : Str) => (List.dropWhile_sublist (l := l) p).length_le
      rw [hd] at h
      dsimp only at h
      split_ifs at h with hq he
      · cases hp : post.dropWhile (· ≠ '"') with
        | nil =>
          rw [hp] at h
          cases h
        | cons d rest' =>
          rw [hp] at h
          cases h
          have h1 := hdrop (· ≠ '"') post
          have h2 := hdrop isWhitespace rest'
          rw [hp, List.length_cons] at h1
          simp only [remaining]
          omega
      · cases h
        have h1 := hdrop isWhitespace post
        have h2 := hdrop isWhitespace (post.dropWhile isWhitespace).tail
        rw [List.length_tail] at h2
        simp only [remaining]
        omega
      · cases h
        have h1 := hdrop isWhitespace post
        simp only [remaining]
        omega

variable {env : Env} {other : Str → Option Bool} {ci : Option ConnectionInfo} {w : Str}

/-- The number of turns that is given to a `Match` line does not matter, as long as there is one
for each character. -/
theorem matchCfgLine_fuel {n m : Nat} {result : Bool} {attributes : Nat} {cp : Option Str}
    (hn : remaining cp ≤ n) (hm : remaining cp ≤ m) (hn0 : 0 < n) (hm0 : 0 < m) :
    matchCfgLine env ci n result attributes cp = matchCfgLine env ci m result attributes cp := by
  induction n generalizing m result attributes cp with
  | zero => omega
  | succ n ih =>
    obtain ⟨m, rfl⟩ := Nat.exists_eq_succ_of_ne_zero hm0.ne'
    rw [matchCfgLine, matchCfgLine]
    rcases hw : strdelim cp with ⟨_ | attrib, cp'⟩
    · rfl
    · have h1 := strdelim_remaining hw
      rcases hw' : strdelim cp' with ⟨_ | arg, rest⟩
      · simp only [hw', Option.all_none]
        split_ifs <;> rfl
      · have h2 := strdelim_remaining hw'
        have hrec : ∀ met, matchCfgLine env ci n (result && met) (attributes + 1) rest =
            matchCfgLine env ci m (result && met) (attributes + 1) rest :=
          fun met => ih (by omega) (by omega) (by omega) (by omega)
        simp only [hw', hrec]

/-- A word of a `Match` line that needs no quotes. -/
structure Bare (w : Str) : Prop where
  ne_nil : w ≠ []
  noDelim : ∀ c ∈ w, isDelim c = false
  noComment : w.head? ≠ some '#'

lemma bare_of_all {w : Str} (h : w.all (fun c => !isDelim c) = true) (hne : w ≠ [])
    (hc : w.head? ≠ some '#') : Bare w :=
  ⟨hne, fun c hm => by simpa using List.all_eq_true.mp h c hm, hc⟩

lemma Bare.head (h : Bare w) : ∃ c w', w = c :: w' ∧ isDelim c = false := by
  cases w with
  | nil => exact absurd rfl h.ne_nil
  | cons c w' => exact ⟨c, w', rfl, h.noDelim c (by simp)⟩

lemma takeWhile_bare {w : Str} (h : Bare w) (s : Str) :
    (w ++ ' ' :: s).takeWhile (fun c => !isDelim c) = w := by
  rw [List.takeWhile_append_of_pos (fun c hc => by simp [h.noDelim c hc])]
  simp [show isDelim ' ' = true from rfl]

lemma dropWhile_bare {w : Str} (h : Bare w) (s : Str) :
    (w ++ ' ' :: s).dropWhile (fun c => !isDelim c) = ' ' :: s := by
  rw [List.dropWhile_append_of_pos (fun c hc => by simp [h.noDelim c hc])]
  simp [show isDelim ' ' = true from rfl]

lemma strdelim_last {w : Str} (h : Bare w) : strdelim (some w) = (some w, none) := by
  have hdrop : w.dropWhile (fun c => !isDelim c) = [] :=
    List.dropWhile_eq_nil_iff.mpr (fun c hc => by simp [h.noDelim c hc])
  simp only [strdelim, hdrop]

lemma strdelim_word {w v : Str} (h : Bare w) (hv : Bare v) (s : Str) :
    strdelim (some (w ++ ' ' :: (v ++ s))) = (some w, some (v ++ s)) := by
  obtain ⟨c, v', rfl, hc⟩ := hv.head
  have hws : isWhitespace c = false := by
    simp only [isDelim, Bool.or_eq_false_iff] at hc
    exact hc.1.1
  have heq : c ≠ '=' := by
    rintro rfl
    cases hc
  simp only [strdelim, takeWhile_bare h, dropWhile_bare h]
  simp [hws, heq]

/-- Criteria as a `Match` line gives them. -/
def matchText : List (Str × Str) → Str
  | [] => []
  | [c] => c.1 ++ ' ' :: c.2
  | c :: cs => c.1 ++ ' ' :: (c.2 ++ ' ' :: matchText cs)

structure Criterion (c : Str × Str) : Prop where
  attrib : Bare c.1
  arg : Bare c.2
  notAll : strcasecmp c.1 "all".toList = false

lemma matchText_cons (c d : Str × Str) (cs : List (Str × Str)) :
    matchText (c :: d :: cs) = c.1 ++ ' ' :: (c.2 ++ ' ' :: matchText (d :: cs)) := rfl

lemma matchText_head (d : Str × Str) (cs : List (Str × Str)) :
    ∃ s, matchText (d :: cs) = d.1 ++ s := by
  cases cs with
  | nil => exact ⟨_, rfl⟩
  | cons e es => exact ⟨_, rfl⟩

/-- A turn that reads a criterion. -/
lemma matchCfgLine_criterion {c : Str × Str} (hc : Criterion c) {n attributes : Nat}
    {result : Bool} {cp mid rest : Option Str} (h1 : strdelim cp = (some c.1, mid))
    (h2 : strdelim mid = (some c.2, rest)) :
    matchCfgLine env ci (n + 1) result attributes cp =
      (matchAttribute env ci c.1 c.2).bind (fun met =>
        matchCfgLine env ci n (result && met) (attributes + 1) rest) := by
  have hpresent : (c.2 = [] || c.2.head? = some '#') = false := by
    simp [hc.arg.ne_nil, hc.arg.noComment]
  rw [matchCfgLine]
  simp only [h1, h2, if_neg hc.attrib.ne_nil, if_neg hc.attrib.noComment, hc.notAll,
    Option.all_some, hpresent, Bool.false_eq_true, if_false, Option.getD_some]
  cases matchAttribute env ci c.1 c.2 <;> rfl

lemma matchCfgLine_text {cs : List (Str × Str)} (hne : cs ≠ []) (hcs : ∀ c ∈ cs, Criterion c)
    (n attributes : Nat) (result : Bool) (hn : cs.length < n) :
    matchCfgLine env ci n result attributes (some (matchText cs)) =
      (cs.mapM (fun c => matchAttribute env ci c.1 c.2)).map (fun mets =>
        (result && mets.all id, none)) := by
  induction cs generalizing n attributes result with
  | nil => exact absurd rfl hne
  | cons c cs ih =>
    obtain ⟨n, rfl⟩ := Nat.exists_eq_succ_of_ne_zero (by omega : n ≠ 0)
    have hc := hcs c (by simp)
    cases cs with
    | nil =>
      have h1 : strdelim (some (matchText [c])) = (some c.1, some c.2) := by
        simpa [matchText] using strdelim_word hc.attrib hc.arg []
      rw [matchCfgLine_criterion hc h1 (strdelim_last hc.arg)]
      obtain ⟨m, rfl⟩ := Nat.exists_eq_succ_of_ne_zero (by simp at hn; omega : n ≠ 0)
      cases h : matchAttribute env ci c.1 c.2 with
      | none => simp [h]
      | some met => simp [h, matchCfgLine, strdelim]
    | cons d cs =>
      obtain ⟨s, hs⟩ := matchText_head d cs
      have hd := hcs d (by simp)
      have h1 : strdelim (some (matchText (c :: d :: cs))) =
          (some c.1, some (c.2 ++ ' ' :: matchText (d :: cs))) := by
        rw [matchText_cons]
        exact strdelim_word hc.attrib hc.arg _
      have h2 : strdelim (some (c.2 ++ ' ' :: matchText (d :: cs))) =
          (some c.2, some (matchText (d :: cs))) := by
        rw [hs]
        exact strdelim_word hc.arg hd.attrib _
      have hrec := fun met => ih (by simp) (fun e he => hcs e (List.mem_cons_of_mem _ he)) n
        (attributes + 1) (result && met) (by simp at hn ⊢; omega)
      rw [matchCfgLine_criterion hc h1 h2, List.mapM_cons]
      simp only [hrec]
      cases matchAttribute env ci c.1 c.2 with
      | none => rfl
      | some met =>
        cases (d :: cs).mapM (fun c => matchAttribute env ci c.1 c.2) with
        | none => rfl
        | some mets => simp [Bool.and_assoc]

lemma length_lt_matchText {cs : List (Str × Str)} (hne : cs ≠ []) :
    cs.length ≤ (matchText cs).length := by
  induction cs with
  | nil => exact absurd rfl hne
  | cons c cs ih =>
    cases cs with
    | nil => simp [matchText]; omega
    | cons d cs =>
      have := ih (by simp)
      rw [matchText_cons]
      simp at this ⊢
      omega

lemma processMatch_text {cs : List (Str × Str)} (hne : cs ≠ []) (hcs : ∀ c ∈ cs, Criterion c)
    (av : List Str) :
    processMatch env ci (matchText cs) av =
      (cs.mapM (fun c => matchAttribute env ci c.1 c.2)).map (fun mets => mets.all id) := by
  rw [processMatch, matchCfgLine_text hne hcs _ _ _ (Nat.lt_succ_of_le (length_lt_matchText hne))]
  cases cs.mapM (fun c => matchAttribute env ci c.1 c.2) with
  | none => rfl
  | some mets => simp

/-! ## The lines that are in force -/

/-- A line that sets an option or opens a block. -/
structure Directive where
  opcode : ServerOpCode
  text : Str
  words : List Str
  deriving DecidableEq, Repr

def readDirective (other : Str → Option Bool) (line : Str) : Option Directive :=
  match splitLine line with
  | none => none
  | some (keyword, str) =>
    match parseToken other keyword, argvSplit (str.getD []) with
    | some (.other _), _ => none
    | some opcode, some av => some ⟨opcode, str.getD [], av⟩
    | _, _ => none

def directives (other : Str → Option Bool) (cfg : List Str) : List Directive :=
  cfg.filterMap (readDirective other)

/-- The directives in force: those behind a `Match` line that the connection meets, and, in a
pass that starts active, those in front of the first one. -/
def inForce (env : Env) (ci : Option ConnectionInfo) : Bool → List Directive → List Directive
  | _, [] => []
  | active, d :: ds =>
    if d.opcode = .matchBlock then
      inForce env ci ((processMatch env ci d.text d.words).getD false) ds
    else if active then d :: inForce env ci active ds
    else inForce env ci active ds

/-- What a line does to the options where it is in force. -/
def Directive.apply (env : Env) (opts : ServerOptions) (d : Directive) : ServerOptions :=
  (applyDirective env d.opcode d.text d.words).elim opts (fun set => set opts)

lemma processServerConfigLine_cases {st t : Parse} {line : Str}
    (h : processServerConfigLine env other ci st line = some t) :
    (readDirective other line = none ∧ t = st) ∨
      ∃ d, readDirective other line = some d ∧
        ((d.opcode = .matchBlock ∧ ∃ active, processMatch env ci d.text d.words = some active ∧
            t = { st with active := active }) ∨
          (d.opcode ≠ .matchBlock ∧
            t = if st.active then { st with options := d.apply env st.options } else st)) := by
  unfold processServerConfigLine at h
  by_cases hnil : line = []
  · rw [if_pos hnil] at h
    cases h
    rw [hnil]
    exact Or.inl ⟨rfl, rfl⟩
  rw [if_neg hnil] at h
  cases hl : splitLine line with
  | none =>
    rw [hl] at h
    cases h
    exact Or.inl ⟨by simp [readDirective, hl], rfl⟩
  | some ks =>
    obtain ⟨keyword, str⟩ := ks
    cases ht : parseToken other keyword with
    | none => simp [hl, ht] at h
    | some opcode =>
      cases ha : argvSplit (str.getD []) with
      | none => simp [hl, ht, ha] at h
      | some av =>
        simp only [hl, ht, ha] at h
        by_cases hs : str.getD [] = []
        · rw [if_pos hs] at h
          cases h
        rw [if_neg hs] at h
        by_cases hother : ∃ inMatch, opcode = .other inMatch
        · obtain ⟨inMatch, rfl⟩ := hother
          refine Or.inl ⟨by simp [readDirective, hl, ht], ?_⟩
          simp only [applyDirective, reduceCtorEq, if_false, id] at h
          split_ifs at h <;> cases h <;> rfl
        refine Or.inr ⟨⟨opcode, str.getD [], av⟩, ?_, ?_⟩
        · cases opcode <;> simp [readDirective, hl, ht, ha] at hother ⊢
        by_cases hskip : (!st.active) = true ∧ (!opcode.inMatch) = true
        · cases opcode with
          | other inMatch => exact absurd ⟨inMatch, rfl⟩ hother
          | _ => exact absurd hskip.2 Bool.false_ne_true
        rw [if_neg hskip] at h
        by_cases hm : opcode = .matchBlock
        · rw [if_pos hm, Option.map_eq_some_iff] at h
          obtain ⟨active, hp, rfl⟩ := h
          exact Or.inl ⟨hm, active, hp, rfl⟩
        rw [if_neg hm] at h
        refine Or.inr ⟨hm, ?_⟩
        cases hd : applyDirective env opcode (str.getD []) av with
        | none =>
          rw [hd] at h
          cases h
        | some set =>
          rw [hd, Option.some.injEq] at h
          rw [← h]
          simp [Directive.apply, hd]

lemma processServerConfigLine_inForce {st t : Parse} {line : Str} (lines : List Str)
    (h : processServerConfigLine env other ci st line = some t) :
    (inForce env ci st.active (directives other (line :: lines))).foldl (Directive.apply env)
        st.options =
      (inForce env ci t.active (directives other lines)).foldl (Directive.apply env) t.options := by
  rw [directives, List.filterMap_cons, ← directives]
  rcases processServerConfigLine_cases h with
    ⟨hr, rfl⟩ | ⟨d, hr, ⟨hm, active, hp, rfl⟩ | ⟨hm, rfl⟩⟩
  · simp only [hr]
  · simp only [hr, inForce, if_pos hm, hp, Option.getD_some]
  · simp only [hr, inForce, if_neg hm]
    cases hact : st.active with
    | true => simp
    | false => simp [hact]

/-- A pass ends with the options that the lines in force make, one after the other. -/
lemma parse_inForce {cfg : List Str} {st t : Parse}
    (h : cfg.foldlM (processServerConfigLine env other ci) st = some t) :
    t.options =
      (inForce env ci st.active (directives other cfg)).foldl (Directive.apply env) st.options := by
  induction cfg generalizing st with
  | nil =>
    cases h
    rfl
  | cons line lines ih =>
    rw [List.foldlM_cons, Option.bind_eq_bind, Option.bind_eq_some_iff] at h
    obtain ⟨u, hu, ht⟩ := h
    rw [ih ht, processServerConfigLine_inForce lines hu]

/-! ## The values of the options -/

/-- The value that a directive gives to an option. -/
def Directive.int (o : IntOption) (d : Directive) : Option Nat :=
  match d.opcode, d.words with
  | .int o', [arg] => if o' = o then o.value arg else none
  | _, _ => none

def Directive.permit (env : Env) (dir : Where) (d : Directive) : Option (List Str) :=
  if d.opcode = .permit dir then permitArgs env dir d.words else none

def Directive.users (env : Env) (l : UserList) (d : Directive) : List Str :=
  if d.opcode = .users l ∧ d.words.all (validUserPattern env) then d.words else []

def Directive.command (d : Directive) : Option Str :=
  if d.opcode = .forceCommand then some (d.text.dropWhile isWhitespace) else none

lemma permitArgs_ne_nil {dir : Where} {av entries : List Str}
    (h : permitArgs env dir av = some entries) : entries ≠ [] := by
  cases av with
  | nil => cases h
  | cons arg rest =>
    simp only [permitArgs] at h
    split_ifs at h with h1 h2 h3 h4
    · cases h
      simp
    · rintro rfl
      simp [h1, List.mapM_cons, Option.bind_eq_some_iff] at h

lemma permit_ne_nil {dir : Where} {d : Directive} {entries : List Str}
    (h : d.permit env dir = some entries) : entries ≠ [] := by
  unfold Directive.permit at h
  split_ifs at h
  exact permitArgs_ne_nil h

lemma apply_eq (opts : ServerOptions) (d : Directive) :
    d.apply env opts =
      { int := fun o => (opts.int o).or (d.int o)
        permitted := fun dir =>
          if opts.permitted dir = [] then (d.permit env dir).getD [] else opts.permitted dir
        users := fun l => opts.users l ++ d.users env l
        admForcedCommand := opts.admForcedCommand.or d.command } := by
  obtain ⟨opcode, text, words⟩ := d
  have hkeep : ∀ dir, (if opts.permitted dir = [] then [] else opts.permitted dir) =
      opts.permitted dir := by
    intro dir
    split_ifs with h
    · rw [h]
    · rfl
  cases opcode with
  | int o' =>
    match words with
    | [] =>
      simp [Directive.apply, applyDirective, Directive.int, Directive.permit, Directive.users,
        Directive.command, hkeep]
    | _ :: _ :: _ =>
      simp [Directive.apply, applyDirective, Directive.int, Directive.permit, Directive.users,
        Directive.command, hkeep]
    | [arg] =>
      cases hv : o'.value arg with
      | none =>
        have hint : ∀ o, (if o' = o then o.value arg else none) = none := by
          intro o
          split_ifs with ho
          · rw [← ho, hv]
          · rfl
        simp [Directive.apply, applyDirective, Directive.int, Directive.permit, Directive.users,
          Directive.command, hkeep, hv, hint]
      | some v =>
        have hint : Function.update opts.int o' (some ((opts.int o').getD v)) =
            fun o => (opts.int o).or (if o' = o then o.value arg else none) := by
          funext o
          by_cases ho : o' = o
          · subst ho
            simp [hv]
          · simp [ho, Function.update_of_ne (Ne.symm ho)]
        simp [Directive.apply, applyDirective, Directive.int, Directive.permit, Directive.users,
          Directive.command, ServerOptions.setInt, hkeep, hv, hint]
  | permit dir' =>
    cases hv : permitArgs env dir' words with
    | none =>
      have hnone : ∀ dir, (if dir' = dir then permitArgs env dir words else none) = none := by
        intro dir
        split_ifs with hd
        · rw [← hd, hv]
        · rfl
      simp [Directive.apply, applyDirective, Directive.int, Directive.permit, Directive.users,
        Directive.command, hkeep, hv, hnone]
    | some entries =>
      have hset : Function.update opts.permitted dir'
          (if opts.permitted dir' = [] then entries else opts.permitted dir') =
          fun dir => if opts.permitted dir = [] then
            (if dir' = dir then permitArgs env dir words else none).getD []
            else opts.permitted dir := by
        funext dir
        by_cases hd : dir' = dir
        · subst hd
          simp [hv]
        · simp [hd, Function.update_of_ne (Ne.symm hd), hkeep]
      simp [Directive.apply, applyDirective, Directive.int, Directive.permit, Directive.users,
        Directive.command, ServerOptions.setPermitted, hv, hset]
  | users l' =>
    cases hv : words.all (validUserPattern env) with
    | false =>
      simp [Directive.apply, applyDirective, Directive.int, Directive.permit, Directive.users,
        Directive.command, hkeep, hv]
    | true =>
      have hset : Function.update opts.users l' (opts.users l' ++ words) =
          fun l => opts.users l ++ (if l' = l then words else []) := by
        funext l
        by_cases hl : l' = l
        · subst hl
          simp
        · simp [hl, Function.update_of_ne (Ne.symm hl)]
      simp [Directive.apply, applyDirective, Directive.int, Directive.permit, Directive.users,
        Directive.command, ServerOptions.addUsers, hkeep, hv, hset]
  | forceCommand =>
    simp [Directive.apply, applyDirective, Directive.int, Directive.permit, Directive.users,
      Directive.command, ServerOptions.setForceCommand, hkeep]
  | matchBlock =>
    simp [Directive.apply, applyDirective, Directive.int, Directive.permit, Directive.users,
      Directive.command, hkeep]
  | includeFiles =>
    simp [Directive.apply, applyDirective, Directive.int, Directive.permit, Directive.users,
      Directive.command, hkeep]
  | other inMatch =>
    simp [Directive.apply, applyDirective, Directive.int, Directive.permit, Directive.users,
      Directive.command, hkeep]

variable (ds : List Directive) (opts : ServerOptions)

lemma foldl_int (o : IntOption) :
    (ds.foldl (Directive.apply env) opts).int o =
      (opts.int o).or (ds.findSome? (Directive.int o)) := by
  induction ds generalizing opts with
  | nil => simp
  | cons d ds ih =>
    rw [List.foldl_cons, ih, apply_eq, List.findSome?_cons]
    dsimp only
    cases opts.int o <;> cases d.int o <;> rfl

lemma foldl_permitted (dir : Where) :
    (ds.foldl (Directive.apply env) opts).permitted dir =
      if opts.permitted dir = [] then (ds.findSome? (Directive.permit env dir)).getD []
      else opts.permitted dir := by
  induction ds generalizing opts with
  | nil => simp +contextual
  | cons d ds ih =>
    rw [List.foldl_cons, ih, apply_eq, List.findSome?_cons]
    by_cases hset : opts.permitted dir = []
    · cases hd : d.permit env dir with
      | none => simp [hset, hd]
      | some entries => simp [hset, hd, permit_ne_nil hd]
    · simp [hset]

lemma foldl_users (l : UserList) :
    (ds.foldl (Directive.apply env) opts).users l =
      opts.users l ++ ds.flatMap (Directive.users env l) := by
  induction ds generalizing opts with
  | nil => simp
  | cons d ds ih => rw [List.foldl_cons, ih, apply_eq, List.flatMap_cons, List.append_assoc]

lemma foldl_command :
    (ds.foldl (Directive.apply env) opts).admForcedCommand =
      opts.admForcedCommand.or (ds.findSome? Directive.command) := by
  induction ds generalizing opts with
  | nil => simp
  | cons d ds ih =>
    rw [List.foldl_cons, ih, apply_eq, List.findSome?_cons]
    dsimp only
    cases opts.admForcedCommand <;> cases d.command <;> rfl

lemma filter_none (command : Option Str) :
    (if command.all (fun c => strcasecmp c noneKeyword) = true then none else command) =
      command.filter (fun c => !strcasecmp c noneKeyword) := by
  cases command with
  | none => rfl
  | some c => cases hn : strcasecmp c noneKeyword <;> simp [Option.filter_some, hn]

/-- The options that a list of directives, and the first ones before the later ones, leaves. -/
structure Resolved (env : Env) (matching global : List Directive) (opts : ServerOptions) :
    Prop where
  int : ∀ o, opts.val o = ((matching ++ global).findSome? (Directive.int o)).getD o.default
  permitted : ∀ dir, opts.permitted dir =
    ((matching ++ global).findSome? (Directive.permit env dir)).getD []
  users : ∀ l, opts.users l =
    if matching.flatMap (Directive.users env l) = [] then global.flatMap (Directive.users env l)
    else matching.flatMap (Directive.users env l)
  command : opts.admForcedCommand =
    ((matching ++ global).findSome? Directive.command).filter (fun c => !strcasecmp c noneKeyword)

/-- The options of two passes, one for a connection and one without. -/
def mergedOptions (env : Env) (matching global : List Directive) : ServerOptions :=
  copySetServerOptions (fillDefaultServerOptions (global.foldl (Directive.apply env) {}))
    (matching.foldl (Directive.apply env) {})

lemma mergedOptions_resolved (matching global : List Directive) :
    Resolved env matching global (mergedOptions env matching global) := by
  constructor
  · intro o
    simp only [mergedOptions, ServerOptions.val, copySetServerOptions, fillDefaultServerOptions,
      foldl_int, List.findSome?_append]
    cases matching.findSome? (Directive.int o) <;>
      cases global.findSome? (Directive.int o) <;> rfl
  · intro dir
    simp only [mergedOptions, copySetServerOptions, fillDefaultServerOptions, foldl_permitted,
      List.findSome?_append]
    cases hd : matching.findSome? (Directive.permit env dir) with
    | none => simp
    | some entries =>
      obtain ⟨d, _, hd⟩ := List.exists_of_findSome?_eq_some hd
      simp [permit_ne_nil hd]
  · intro l
    simp [mergedOptions, copySetServerOptions, fillDefaultServerOptions, foldl_users]
  · simp only [mergedOptions, copySetServerOptions, fillDefaultServerOptions, foldl_command,
      List.findSome?_append]
    exact filter_none _

variable {opts} {cfg : List Str} {ci : ConnectionInfo}

lemma serverOptions_eq (h : serverOptions env other cfg ci = some opts) :
    opts = mergedOptions env (inForce env (some ci) false (directives other cfg))
      (inForce env none true (directives other cfg)) := by
  simp only [serverOptions, parseServerConfig, Option.bind_eq_bind, Option.pure_def,
    Option.bind_eq_some_iff, Option.map_eq_some_iff, Option.some.injEq] at h
  obtain ⟨_, ⟨p, hp, rfl⟩, _, ⟨q, hq, rfl⟩, rfl⟩ := h
  rw [parse_inForce hp, parse_inForce hq]
  rfl

/-- A connection gets the first value that a line of the blocks it matches gives, else the
first one of the global part, else the default; its user lists are those of its blocks, if
these have any. -/
theorem server_options_resolved (h : serverOptions env other cfg ci = some opts) :
    Resolved env (inForce env (some ci) false (directives other cfg))
      (inForce env none true (directives other cfg)) opts := by
  rw [serverOptions_eq h]
  exact mergedOptions_resolved _ _

/-- A system without services, groups and addresses to match. -/
def bareEnv : Env where
  getservbyname _ := none
  addrMatchList _ _ := 0
  matchGroup _ _ := false

/-- A connection of a user to the gateway. -/
def connectionOf (user : Str) : ConnectionInfo where
  user := user
  host := "::1".toList
  address := "::1".toList
  laddress := "::1".toList
  lport := 22
  rdomain := none

def blockConfig : List Str :=
  ["GatewayPorts no".toList, "Match User gw".toList, "GatewayPorts yes".toList]

theorem server_options_resolved_block :
    ∃ opts, serverOptions bareEnv (fun _ => none) blockConfig (connectionOf "gw".toList) =
        some opts ∧
      Resolved bareEnv
        (inForce bareEnv (some (connectionOf "gw".toList)) false
          (directives (fun _ => none) blockConfig))
        (inForce bareEnv none true (directives (fun _ => none) blockConfig)) opts := by
  obtain ⟨opts, h⟩ := Option.isSome_iff_exists.mp (show (serverOptions bareEnv (fun _ => none)
    blockConfig (connectionOf "gw".toList)).isSome = true by decide +kernel)
  exact ⟨opts, h, server_options_resolved h⟩

end CMXSafe.Proofs
