import CMXSafe.Client.Goroutines
import CMXSafe.Lib.Interleavings
import CMXSafe.Proofs.Establish

/-!
# Updates of the cache as atomic operations

If every write finds under its key the string that its own `Load` has read, the updates of
both goroutines take effect one after the other, in the order of their writes. Nothing in
the code sees to that: two goroutines that load the same string lose an update.
-/

namespace CMXSafe.Proofs
open Strings Stores Machines Interleavings

lemma apply_eq_write (o : CacheOp) (m : SyncMap) :
    o.apply m = match o.write (m.load o.key) with
      | some w => w m
      | none => m := by
  cases o with
  | append key val =>
    simp only [CacheOp.apply, CacheOp.key, appendToServiceCache]
    cases m.load key with
    | none => rfl
    | some cur => by_cases h : contains cur val = true <;> simp [CacheOp.write, h]
  | remove key val =>
    simp only [CacheOp.apply, CacheOp.key, removeFromServiceCache]
    cases m.load key with
    | none => rfl
    | some cur =>
      by_cases h : trimSpace (replaceAll cur val []) = [] <;> simp [CacheOp.write, h]

lemma load_write_of_ne {o : CacheOp} {read : Option Str} {w : SyncMap → SyncMap}
    (hw : o.write read = some w) (m : SyncMap) {k : Str} (hk : k ≠ o.key) :
    (w m).load k = m.load k := by
  cases o with
  | append key val =>
    cases read with
    | none =>
      cases hw
      exact if_neg hk
    | some cur =>
      simp only [CacheOp.write] at hw
      split_ifs at hw
      cases hw
      exact if_neg hk
  | remove key val =>
    cases read with
    | none => cases hw
    | some cur =>
      simp only [CacheOp.write] at hw
      split_ifs at hw <;> cases hw <;> exact if_neg hk

/-- A write does what the whole update would do where the string is still what was read. -/
lemma load_write_self {o : CacheOp} (hv : o.val ≠ []) {read : Option Str}
    {w : SyncMap → SyncMap} (hw : o.write read = some w) (m : SyncMap) {m' : SyncMap}
    (h : m'.cached o.key = read.getD []) : (w m).load o.key = (o.apply m').load o.key := by
  cases o with
  | append key val =>
    simp only [CacheOp.key, CacheOp.val, CacheOp.apply] at h hv ⊢
    rw [load_append_self m' key hv, h]
    cases read with
    | none =>
      cases hw
      simp [contains_nil hv, SyncMap.load_store]
    | some cur =>
      simp only [CacheOp.write] at hw
      split_ifs at hw with hc
      cases hw
      have hc' : contains cur val = false := by simpa using hc
      simp [hc', SyncMap.load_store]
  | remove key val =>
    simp only [CacheOp.key, CacheOp.val, CacheOp.apply] at h hv ⊢
    rw [load_remove_self m' key hv, h]
    cases read with
    | none => cases hw
    | some cur =>
      simp only [CacheOp.write] at hw
      split_ifs at hw with hc
      · cases hw
        simp [hc, SyncMap.load_delete]
      · cases hw
        simp [hc, SyncMap.load_store]

/-- What an atomic step of a goroutine does to its thread and to the cache. -/
inductive ThreadStep (m : SyncMap) : Thread → Thread → SyncMap → Prop
  | write {o : CacheOp} {read : Option Str} {todo : List Work} {w : SyncMap → SyncMap}
    (hw : o.write read = some w) : ThreadStep m ⟨todo, some (o, read)⟩ ⟨todo, none⟩ (w m)
  | idle {o : CacheOp} {read : Option Str} {todo : List Work} (hw : o.write read = none) :
    ThreadStep m ⟨todo, some (o, read)⟩ ⟨todo, none⟩ m
  | read {o : CacheOp} {rest : List Work} (hw : (o.write (m.load o.key)).isSome) :
    ThreadStep m ⟨.op o :: rest, none⟩ ⟨rest, some (o, m.load o.key)⟩ m
  | skip {o : CacheOp} {rest : List Work} (hw : o.write (m.load o.key) = none) :
    ThreadStep m ⟨.op o :: rest, none⟩ ⟨rest, none⟩ m
  | add {user : Str} {api : Api} {rest : List Work}
    (hk : keptEntries user (m.cached (servicePrefix ++ user)) api = []) :
    ThreadStep m ⟨.nsCall user api :: rest, none⟩ ⟨.op (nsAppend user) :: rest, none⟩
      (m.loadOrStore (servicePrefix ++ user) []).2
  | giveUp {user : Str} {api : Api} {rest : List Work}
    (hk : keptEntries user (m.cached (servicePrefix ++ user)) api ≠ []) :
    ThreadStep m ⟨.nsCall user api :: rest, none⟩ ⟨rest, none⟩
      (m.loadOrStore (servicePrefix ++ user) []).2

theorem threadStep {t t' : Thread} {m m' : SyncMap} (h : t.step m = some (t', m')) :
    ThreadStep m t t' m' := by
  obtain ⟨todo, loaded⟩ := t
  unfold Thread.step at h
  cases loaded with
  | some x =>
    obtain ⟨o, read⟩ := x
    cases hw : o.write read with
    | none =>
      simp only [hw] at h
      cases h
      exact .idle hw
    | some w =>
      simp only [hw] at h
      cases h
      exact .write hw
  | none =>
    cases todo with
    | nil => cases h
    | cons w rest =>
      cases w with
      | op o =>
        cases hw : o.write (m.load o.key) with
        | none =>
          simp only [hw] at h
          cases h
          exact .skip hw
        | some w =>
          simp only [hw] at h
          cases h
          exact .read (by simp [hw])
      | nsCall user api =>
        simp only [SyncMap.loadOrStore_fst, List.length_eq_zero_iff] at h
        split_ifs at h with hk
        · cases h
          exact .add hk
        · cases h
          exact .giveUp hk

lemma step_cases {c t : Conc} {g : Goroutine} (h : c.step g = some t) :
    ThreadStep c.cache (c.threads g) (t.threads g) t.cache ∧
      ∀ h, h ≠ g → t.threads h = c.threads h := by
  obtain ⟨⟨t', m'⟩, hs, rfl⟩ := Option.map_eq_some_iff.mp h
  refine ⟨?_, fun h hne => by simp [hne]⟩
  simpa using threadStep hs

lemma begins_eq {c : Conc} {g g' : Goroutine} {o : CacheOp} (h : c.begins g = some (g', o)) :
    g' = g := by
  unfold Conc.begins at h
  split at h
  · cases h
    rfl
  · cases h

lemma ofThread_begins_of_ne {c : Conc} {g h : Goroutine} (hne : h ≠ g) :
    ofThread h (c.begins g).toList = [] := by
  cases hb : c.begins g with
  | none => rfl
  | some x =>
    obtain ⟨g', o⟩ := x
    rw [Option.toList_some, ofThread_cons_of_ne (begins_eq hb ▸ Ne.symm hne), ofThread_nil]

/-- A thread whose updates all have something to add or to remove. -/
structure WellFormed (t : Thread) : Prop where
  todo : ∀ o, .op o ∈ t.todo → o.val ≠ []
  loaded : ∀ o read, t.loaded = some (o, read) → o.val ≠ [] ∧ (o.write read).isSome

lemma wellFormed_step {t t' : Thread} {m m' : SyncMap} (hw : WellFormed t)
    (h : ThreadStep m t t' m') : WellFormed t' := by
  cases h with
  | write _ => exact ⟨hw.todo, by simp⟩
  | idle _ => exact ⟨hw.todo, by simp⟩
  | @read o rest hr =>
    refine ⟨fun o ho => hw.todo o (by simp [ho]), ?_⟩
    rintro _ _ ⟨⟩
    exact ⟨hw.todo o (by simp), hr⟩
  | skip _ => exact ⟨fun o ho => hw.todo o (by simp [ho]), by simp⟩
  | @add user api rest _ =>
    refine ⟨fun o ho => ?_, by simp⟩
    rcases List.mem_cons.mp ho with ⟨⟨⟩⟩ | ho
    · simp [nsAppend, CacheOp.val]
    · exact hw.todo o (by simp [ho])
  | giveUp _ => exact ⟨fun o ho => hw.todo o (by simp [ho]), by simp⟩

/-- The next write of the thread puts something under the key. -/
def Owes (t : Thread) (k : Str) : Prop :=
  ∃ val, (t.loaded = none ∧ t.todo.head? = some (.op (.append k val))) ∨
    ∃ read, t.loaded = some (.append k val, read)

@[simp] lemma owes_loaded {todo : List Work} {o : CacheOp} {read : Option Str} {k : Str} :
    Owes ⟨todo, some (o, read)⟩ k ↔ ∃ val, o = .append k val := by
  simp [Owes]

@[simp] lemma owes_op {o : CacheOp} {rest : List Work} {k : Str} :
    Owes ⟨.op o :: rest, none⟩ k ↔ ∃ val, o = .append k val := by
  simp [Owes]

@[simp] lemma owes_nsCall {user : Str} {api : Api} {rest : List Work} {k : Str} :
    ¬Owes ⟨.nsCall user api :: rest, none⟩ k := by
  simp [Owes]

lemma key_of_owes {o : CacheOp} {k : Str} : (∃ val, o = .append k val) → k = o.key := by
  rintro ⟨val, rfl⟩
  rfl

/-- The cache is the one that the updates so far produce one after the other, apart from
empty strings under the keys of appends to come. -/
def Agrees (c : Conc) (σ : SyncMap) : Prop :=
  ∀ k, c.cache.load k = σ.load k ∨
    (c.cache.load k = some [] ∧ σ.load k = none ∧ ∃ g, Owes (c.threads g) k)

lemma Agrees.cached_eq {c : Conc} {σ : SyncMap} (h : Agrees c σ) (k : Str) :
    c.cache.cached k = σ.cached k := by
  unfold SyncMap.cached
  rcases h k with hk | ⟨hc, hσ, -⟩
  · rw [hk]
  · rw [hc, hσ]
    rfl

def underway (t : Thread) : List CacheOp := t.loaded.toList.map (fun x => x.1)

lemma Agrees.move {c t : Conc} {g : Goroutine} {σ σ' : SyncMap} (ha : Agrees c σ) (key : Str)
    (hother : ∀ h, h ≠ g → t.threads h = c.threads h)
    (howes : ∀ k, k ≠ key → Owes (c.threads g) k → Owes (t.threads g) k)
    (hcache : ∀ k, k ≠ key → t.cache.load k = c.cache.load k)
    (hσ : ∀ k, k ≠ key → σ'.load k = σ.load k)
    (hkey : t.cache.load key = σ'.load key ∨
      (t.cache.load key = some [] ∧ σ'.load key = none ∧ ∃ h, Owes (t.threads h) key)) :
    Agrees t σ' := by
  intro k
  by_cases hk : k = key
  · exact hk ▸ hkey
  · rw [hcache k hk, hσ k hk]
    refine (ha k).imp_right (fun h => ⟨h.1, h.2.1, ?_⟩)
    obtain ⟨h, ho⟩ := h.2.2
    by_cases hg : h = g
    · exact ⟨g, howes k hk (hg ▸ ho)⟩
    · exact ⟨h, by rwa [hother h hg]⟩

lemma write_some_nil_ne_none {o : CacheOp} (hv : o.val ≠ []) : o.write (some []) ≠ none := by
  cases o with
  | append key val => simp [CacheOp.write, contains_nil (show val ≠ [] from hv)]
  | remove key val =>
    simp only [CacheOp.write]
    split_ifs <;> simp

lemma keptEntries_nil (user : Str) (api : Api) : keptEntries user [] api = [] := rfl

/-- The updates that one atomic step completes account for what it does to the cache. -/
theorem step_agrees {c t : Conc} {g : Goroutine} {σ : SyncMap}
    (hwf : WellFormed (c.threads g)) (hf : Fresh c g) (ha : Agrees c σ)
    (hs : c.step g = some t) :
    ∃ ops : List CacheOp, Agrees t (ops.foldl CacheOp.apply σ) ∧
      ops.map (fun o => (g, o)) ++ (underway (t.threads g)).map (fun o => (g, o)) =
        (underway (c.threads g)).map (fun o => (g, o)) ++ (c.begins g).toList := by
  obtain ⟨hstep, hother⟩ := step_cases hs
  have hstay : ∀ k, (Owes (c.threads g) k → Owes (t.threads g) k) →
      (∃ h, Owes (c.threads h) k) → ∃ h, Owes (t.threads h) k := by
    rintro k hg ⟨h, ho⟩
    by_cases hne : h = g
    · exact ⟨g, hg (hne ▸ ho)⟩
    · exact ⟨h, by rwa [hother h hne]⟩
  have hself : ∀ k, Owes (t.threads g) k → ∃ h, Owes (t.threads h) k := fun k ho => ⟨g, ho⟩
  have hmove := @Agrees.move c t g σ
  unfold Conc.begins Fresh at *
  generalize c.threads g = tc at *
  generalize t.threads g = tt at *
  generalize hm : t.cache = mt at *
  cases hstep with
  | @write o read todo w hw =>
    -- The update takes effect here, on a string that is still what it has read.
    have hread : σ.cached o.key = read.getD [] := (ha.cached_eq _).symm.trans (hf _ rfl)
    refine ⟨[o], hmove ha o.key hother ?_ ?_ ?_ (Or.inl ?_), by simp [underway]⟩
    · exact fun k hk ho => absurd (key_of_owes (owes_loaded.mp ho)) hk
    · exact fun k hk => load_write_of_ne hw _ hk
    · exact fun k hk => o.load_apply_of_ne σ hk
    · exact load_write_self (hwf.loaded o read rfl).1 hw _ hread
  | @idle o read todo hw => exact absurd (hwf.loaded o read rfl).2 (by simp [hw])
  | @read o rest hw =>
    have howes : ∀ k, Owes ⟨.op o :: rest, none⟩ k →
        Owes ⟨rest, some (o, c.cache.load o.key)⟩ k :=
      fun k ho => owes_loaded.mpr (owes_op.mp ho)
    refine ⟨[], hmove ha o.key hother (fun k _ => howes k) (fun _ _ => rfl)
      (fun _ _ => rfl) ?_, by simp [underway]⟩
    exact (ha o.key).imp_right (fun h => ⟨h.1, h.2.1, hstay _ (howes _) h.2.2⟩)
  | @skip o rest hw =>
    -- An update that writes nothing takes effect with its `Load`.
    refine ⟨[o], hmove ha o.key hother ?_ (fun _ _ => rfl) ?_ (Or.inl ?_),
      by simp [underway]⟩
    · exact fun k hk ho => absurd (key_of_owes (owes_op.mp ho)) hk
    · exact fun k hk => o.load_apply_of_ne σ hk
    · rcases ha o.key with heq | ⟨hnil, -, -⟩
      · rw [List.foldl_cons, List.foldl_nil, ← o.load_apply_congr heq, apply_eq_write, hw]
      · exact absurd (hnil ▸ hw) (write_some_nil_ne_none (hwf.todo o (by simp)))
  | @add user api rest hk =>
    refine ⟨[], hmove ha (servicePrefix ++ user) hother
      (fun _ _ ho => absurd ho owes_nsCall) ?_ (fun _ _ => rfl) ?_, by simp [underway]⟩
    · intro k hk
      rw [SyncMap.load_loadOrStore, if_neg hk]
    · rw [SyncMap.load_loadOrStore, if_pos rfl, List.foldl_nil]
      rcases ha (servicePrefix ++ user) with heq | ⟨hnil, hnone, hq⟩
      · cases hload : c.cache.load (servicePrefix ++ user) with
        | none => exact Or.inr ⟨rfl, heq ▸ hload, hself _ (owes_op.mpr ⟨_, rfl⟩)⟩
        | some cur => exact Or.inl (by rw [← heq, hload, Option.getD_some])
      · rw [hnil]
        exact Or.inr ⟨rfl, hnone, hself _ (owes_op.mpr ⟨_, rfl⟩)⟩
  | @giveUp user api rest hk =>
    have hload : (c.cache.loadOrStore (servicePrefix ++ user) []).2 = c.cache := by
      cases hload : c.cache.load (servicePrefix ++ user) with
      | none => exact absurd (by rw [SyncMap.cached, hload]; exact keptEntries_nil user api) hk
      | some cur => simp [SyncMap.loadOrStore, hload]
    refine ⟨[], hmove ha (servicePrefix ++ user) hother
      (fun _ _ ho => absurd ho owes_nsCall) (fun _ _ => by rw [hload]) (fun _ _ => rfl) ?_,
      by simp [underway]⟩
    rw [hload]
    exact (ha _).imp_right
      (fun h => ⟨h.1, h.2.1, hstay _ (fun ho => absurd ho owes_nsCall) h.2.2⟩)

theorem run_agrees {c d : Conc} {σ : SyncMap} {sched : List Goroutine}
    (hwf : ∀ g, WellFormed (c.threads g)) (hg : Guarded Conc.step Fresh c sched)
    (ha : Agrees c σ) (hr : run Conc.step c sched = some d) :
    ∃ order : List (Goroutine × CacheOp), Agrees d (serial CacheOp.apply σ order) ∧
      ∀ h, ofThread h order ++ underway (d.threads h) =
        underway (c.threads h) ++ ofThread h (observe Conc.step Conc.begins c sched) := by
  induction sched generalizing c σ with
  | nil =>
    cases hr
    exact ⟨[], ha, fun h => by simp [observe]⟩
  | cons g sched ih =>
    obtain ⟨t, ht, hd⟩ := run_cons.mp hr
    obtain ⟨hstep, hother⟩ := step_cases ht
    obtain ⟨ops, hops, htrace⟩ := step_agrees (hwf g) hg.1 ha ht
    have hwf' : ∀ h, WellFormed (t.threads h) := fun h => by
      by_cases hne : h = g
      · exact hne ▸ wellFormed_step (hwf g) hstep
      · exact hother h hne ▸ hwf h
    obtain ⟨order, horder, hrest⟩ := ih hwf' (hg.2 t ht) hops hd
    refine ⟨ops.map (fun o => (g, o)) ++ order, ?_, fun h => ?_⟩
    · rw [serial_append]
      simpa [serial, List.foldl_map] using horder
    · rw [observe, ht, Option.elim_some, ofThread_append, ofThread_append, List.append_assoc,
        hrest h, ← List.append_assoc, ← List.append_assoc]
      congr 1
      by_cases hne : h = g
      · subst hne
        simpa using congrArg (ofThread h) htrace
      · rw [ofThread_map_of_ne (Ne.symm hne), ofThread_begins_of_ne hne, hother h hne,
          List.nil_append, List.append_nil]

lemma idle_iff {t : Thread} : t.idle = true ↔ t.todo = [] ∧ t.loaded = none := by
  simp [Thread.idle]

lemma idle_of_done {c : Conc} (hd : c.Done) (g : Goroutine) : (c.threads g).idle = true := by
  cases g with
  | informer => exact hd.1
  | main => exact hd.2

def Work.update : Work → CacheOp
  | .op o => o
  | .nsCall user _ => nsAppend user

lemma todo_step {c t : Conc} {g : Goroutine} (hs : c.step g = some t) (h : Goroutine) :
    (ofThread h (c.begins g).toList ++ (t.threads h).todo.map Work.update).Sublist
        ((c.threads h).todo.map Work.update) ∧
      ((∀ user api, .nsCall user api ∉ (c.threads h).todo) →
        ofThread h (c.begins g).toList ++ (t.threads h).todo.map Work.update =
          (c.threads h).todo.map Work.update) := by
  obtain ⟨hstep, hother⟩ := step_cases hs
  by_cases hne : h = g
  · subst hne
    unfold Conc.begins
    generalize c.threads h = tc at *
    generalize t.threads h = tt at *
    generalize t.cache = mt at *
    cases hstep with
    | write hw => simp
    | idle hw => simp
    | read hw => simp [Work.update]
    | skip hw => simp [Work.update]
    | @add user api rest hk =>
      exact ⟨by simp [Work.update], fun hn => absurd (by simp) (hn user api)⟩
    | @giveUp user api rest hk => exact ⟨by simp, fun hn => absurd (by simp) (hn user api)⟩
  · rw [ofThread_begins_of_ne hne, hother h hne, List.nil_append]
    exact ⟨List.Sublist.refl _, fun _ => rfl⟩

lemma call_mem_step {c t : Conc} {g : Goroutine} (hs : c.step g = some t) {h : Goroutine}
    {user : Str} {api : Api} (hm : .nsCall user api ∈ (t.threads h).todo) :
    .nsCall user api ∈ (c.threads h).todo := by
  obtain ⟨hstep, hother⟩ := step_cases hs
  by_cases hne : h = g
  · subst hne
    generalize c.threads h = tc at *
    generalize t.threads h = tt at *
    generalize t.cache = mt at *
    cases hstep <;> simp_all
  · rwa [hother h hne] at hm

lemma todo_run {c d : Conc} {sched : List Goroutine} (hr : run Conc.step c sched = some d)
    (g : Goroutine) :
    (ofThread g (observe Conc.step Conc.begins c sched) ++
        (d.threads g).todo.map Work.update).Sublist ((c.threads g).todo.map Work.update) ∧
      ((∀ user api, .nsCall user api ∉ (c.threads g).todo) →
        ofThread g (observe Conc.step Conc.begins c sched) ++
          (d.threads g).todo.map Work.update = (c.threads g).todo.map Work.update) := by
  induction sched generalizing c with
  | nil =>
    cases hr
    exact ⟨List.Sublist.refl _, fun _ => rfl⟩
  | cons h sched ih =>
    obtain ⟨t, ht, hd⟩ := run_cons.mp hr
    obtain ⟨hsub, heq⟩ := todo_step ht g
    obtain ⟨ihsub, iheq⟩ := ih hd
    rw [observe, ht, Option.elim_some, ofThread_append, List.append_assoc]
    refine ⟨((List.append_sublist_append_left _).mpr ihsub).trans hsub, fun hn => ?_⟩
    rw [iheq (fun user api hm => hn user api (call_mem_step ht hm)), heq hn]

/-- The updates of a finished run: those of the callbacks, in order, and one append for
each call that does not give up. -/
theorem trace_of_done {m : SyncMap} {callbacks : List (Notification Service)}
    {calls : List (Str × Api)} {sched : List Goroutine} {d : Conc}
    (hr : run Conc.step (Conc.start m callbacks calls) sched = some d) (hd : d.Done) :
    ofThread .informer (observe Conc.step Conc.begins (Conc.start m callbacks calls) sched) =
        callbacks.flatMap startServiceInformer.cacheOps ∧
      (ofThread .main
        (observe Conc.step Conc.begins (Conc.start m callbacks calls) sched)).Sublist
          (calls.map (fun c => nsAppend c.1)) := by
  have hnil : ∀ g, (d.threads g).todo = [] := fun g => (idle_iff.mp (idle_of_done hd g)).1
  have hinformer := (todo_run hr .informer).2 (by simp [Conc.start])
  have hmain := (todo_run hr .main).1
  rw [hnil, List.map_nil, List.append_nil] at hinformer hmain
  refine ⟨hinformer.trans ((List.map_map ..).trans (List.map_id _)), ?_⟩
  have hcalls : (calls.map (fun c => Work.nsCall c.1 c.2)).map Work.update =
      calls.map (fun c => nsAppend c.1) := List.map_map ..
  exact hcalls ▸ hmain

/-- The cache at the end of a run is the one that the updates of the run produce one after
the other, in an order that respects both goroutines. -/
def Linearizes (c : Conc) (sched : List Goroutine) (d : Conc) : Prop :=
  ∃ order : List (Goroutine × CacheOp),
    (∀ g, ofThread g order = ofThread g (observe Conc.step Conc.begins c sched)) ∧
      d.cache = serial CacheOp.apply c.cache order

lemma wellFormed_start (m : SyncMap) (callbacks : List (Notification Service))
    (calls : List (Str × Api)) (g : Goroutine) :
    WellFormed ((Conc.start m callbacks calls).threads g) := by
  cases g with
  | informer =>
    refine ⟨fun o ho => ?_, by simp [Conc.start]⟩
    simp only [Conc.start, List.mem_map, Work.op.injEq, exists_eq_right, List.mem_flatMap] at ho
    obtain ⟨n, -, ho⟩ := ho
    exact startServiceInformer.val_ne_nil ho
  | main =>
    refine ⟨fun o ho => ?_, by simp [Conc.start]⟩
    simp [Conc.start] at ho

lemma Agrees.eq_of_done {c : Conc} {σ : SyncMap} (ha : Agrees c σ) (hd : c.Done) :
    c.cache = σ := by
  refine SyncMap.ext (fun k => (ha k).resolve_right ?_)
  rintro ⟨-, -, g, val, ho⟩
  obtain ⟨ht, hl⟩ := idle_iff.mp (idle_of_done hd g)
  rcases ho with ⟨-, h⟩ | ⟨read, h⟩
  · rw [ht] at h
    cases h
  · rw [hl] at h
    cases h

/-- No update is lost where every write finds the string that its `Load` has read. -/
theorem updates_linearize (m : SyncMap) (callbacks : List (Notification Service))
    (calls : List (Str × Api)) (sched : List Goroutine) (d : Conc)
    (hg : Guarded Conc.step Fresh (Conc.start m callbacks calls) sched)
    (hr : run Conc.step (Conc.start m callbacks calls) sched = some d) (hd : d.Done) :
    Linearizes (Conc.start m callbacks calls) sched d := by
  have ha : Agrees (Conc.start m callbacks calls) m := fun k => Or.inl rfl
  obtain ⟨order, horder, htrace⟩ := run_agrees (wellFormed_start m callbacks calls) hg ha hr
  refine ⟨order, fun g => ?_, horder.eq_of_done hd⟩
  have hd' : underway (d.threads g) = [] := by
    rw [underway, (idle_iff.mp (idle_of_done hd g)).2]
    rfl
  have hs : underway ((Conc.start m callbacks calls).threads g) = [] := by cases g <;> rfl
  have h := htrace g
  rwa [hd', hs, List.append_nil, List.nil_append] at h

/-! ## A goroutine alone -/

lemma run_replicate_add {c t d : Conc} {g : Goroutine} {i j : Nat}
    (h : run Conc.step c (List.replicate i g) = some t)
    (h' : run Conc.step t (List.replicate j g) = some d) :
    run Conc.step c (List.replicate (i + j) g) = some d := by
  rw [List.replicate_add]
  exact run_append.mpr ⟨t, h, h'⟩

lemma op_alone {c : Conc} {g : Goroutine} {o : CacheOp} {rest : List Work}
    (h : c.threads g = ⟨.op o :: rest, none⟩) :
    ∃ n, run Conc.step c (List.replicate n g) =
      some ⟨o.apply c.cache, Function.update c.threads g ⟨rest, none⟩⟩ := by
  cases hw : o.write (c.cache.load o.key) with
  | none => exact ⟨1, by simp [run, Conc.step, Thread.step, h, hw, apply_eq_write]⟩
  | some w => exact ⟨2, by simp [run, Conc.step, Thread.step, h, hw, apply_eq_write]⟩

lemma ops_alone {c : Conc} {g : Goroutine} {ops : List CacheOp} {rest : List Work}
    (h : c.threads g = ⟨ops.map .op ++ rest, none⟩) :
    ∃ n, run Conc.step c (List.replicate n g) =
      some ⟨ops.foldl CacheOp.apply c.cache, Function.update c.threads g ⟨rest, none⟩⟩ := by
  induction ops generalizing c with
  | nil => exact ⟨0, by simp [← show c.threads g = ⟨rest, none⟩ from h]⟩
  | cons o ops ih =>
    obtain ⟨i, hi⟩ := op_alone h
    let t : Conc := ⟨o.apply c.cache, Function.update c.threads g ⟨ops.map .op ++ rest, none⟩⟩
    have ht : t.threads g = ⟨ops.map .op ++ rest, none⟩ := Function.update_self ..
    obtain ⟨j, hj⟩ := ih ht
    refine ⟨i + j, run_replicate_add hi (hj.trans ?_)⟩
    rw [Function.update_idem]
    rfl

/-- Undisturbed, the informer goroutine does what its handler does. -/
theorem callback_alone {c : Conc} {g : Goroutine} {n : Notification Service} {rest : List Work}
    (h : c.threads g = ⟨(startServiceInformer.cacheOps n).map .op ++ rest, none⟩) :
    ∃ i, run Conc.step c (List.replicate i g) = some
      ⟨startServiceInformer.handle c.cache n, Function.update c.threads g ⟨rest, none⟩⟩ := by
  rw [startServiceInformer.handle_eq_foldl]
  exact ops_alone h

/-- Undisturbed, the main loop does to the cache what `handleNSService` does. -/
theorem nsCall_alone {c : Conc} {g : Goroutine} {user : Str} {api : Api} {rest : List Work}
    (h : c.threads g = ⟨.nsCall user api :: rest, none⟩) :
    ∃ i, run Conc.step c (List.replicate i g) = some
      ⟨(handleNSService servicePrefix user serviceSuffix api c.cache).2.2,
        Function.update c.threads g ⟨rest, none⟩⟩ := by
  have hkept : (nsLoop user api c.cache).1 =
      keptEntries user (c.cache.cached (servicePrefix ++ user)) api := rfl
  rw [handleNSService_eq, hkept]
  by_cases hk : keptEntries user (c.cache.cached (servicePrefix ++ user)) api = []
  · let t : Conc := ⟨(c.cache.loadOrStore (servicePrefix ++ user) []).2,
      Function.update c.threads g ⟨.op (nsAppend user) :: rest, none⟩⟩
    have hfirst : run Conc.step c (List.replicate 1 g) = some t := by
      simp [run, Conc.step, Thread.step, h, hk, t]
    have ht : t.threads g = ⟨.op (nsAppend user) :: rest, none⟩ := Function.update_self ..
    obtain ⟨n, hn⟩ := op_alone ht
    refine ⟨1 + n, run_replicate_add hfirst (hn.trans ?_)⟩
    rw [if_pos hk, Function.update_idem]
    rfl
  · refine ⟨1, ?_⟩
    rw [if_neg hk]
    simp [run, Conc.step, Thread.step, h, hk]

/-! ## The race -/

def raceStart : Conc :=
  .start .empty [.add exampleLB] [(exampleUser, healthyApi ⟨Store.empty.put exampleLB, .empty⟩)]

def turns : List Goroutine := [.informer, .informer, .main, .main, .main]

def race : List Goroutine := [.main, .main, .informer, .informer, .main]

theorem updates_linearize_turns :
    ∃ d, run Conc.step raceStart turns = some d ∧ Linearizes raceStart turns d := by
  obtain ⟨d, hd⟩ : ∃ d, run Conc.step raceStart turns = some d ∧ d.Done := by
    decide +kernel
  exact ⟨d, hd.1, updates_linearize _ _ _ turns d (by decide +kernel) hd.1 hd.2⟩

lemma contains_append_of_contains {m : SyncMap} {key val k ref : Str} (hv : val ≠ [])
    (h : contains (m.cached k) ref = true) :
    contains ((appendToServiceCache m key val).cached k) ref = true := by
  by_cases hk : k = key
  · subst hk
    rw [cached_append_self m k hv, appendVal]
    split_ifs
    · exact h
    · exact contains_iff.mpr ((contains_iff.mp h).trans (List.prefix_append _ _).isInfix)
  · rwa [SyncMap.cached, load_append_of_ne m key hk]

lemma contains_append_self (m : SyncMap) (key : Str) {val : Str} (hv : val ≠ []) :
    contains ((appendToServiceCache m key val).cached key) val = true := by
  rw [cached_append_self m key hv, appendVal]
  split_ifs with hc
  · exact hc
  · exact contains_iff.mpr (List.suffix_append _ _).isInfix

/-- A call loads the string, the callback appends to it, and the call stores what it has
made of the string that it loaded: the Service that appeared is not in the cache. -/
theorem append_lost :
    ∃ d, run Conc.step raceStart race = some d ∧ d.Done ∧ ¬Linearizes raceStart race d := by
  obtain ⟨d, hr, hd, hlost⟩ : ∃ d, run Conc.step raceStart race = some d ∧ d.Done ∧
      contains (d.cache.cached exampleLB.hostKey) exampleLB.ref = false := by
    decide +kernel
  refine ⟨d, hr, hd, ?_⟩
  rintro ⟨order, htrace, hcache⟩
  have hinformer : ofThread .informer order = [.append exampleLB.hostKey exampleLB.ref] := by
    rw [htrace]
    decide +kernel
  have hmain : ofThread .main order = [nsAppend exampleUser] := by
    rw [htrace]
    decide +kernel
  have happend : ∀ x ∈ order, ∃ key val, val ≠ [] ∧ x.2 = .append key val := by
    rintro ⟨g, o⟩ hx
    have ho := mem_ofThread.mpr hx
    cases g with
    | informer =>
      rw [hinformer, List.mem_singleton] at ho
      exact ⟨_, _, exampleLB.ref_ne_nil, ho⟩
    | main =>
      rw [hmain, List.mem_singleton] at ho
      exact ⟨_, _, by simp, ho⟩
  have hmem : (Goroutine.informer, CacheOp.append exampleLB.hostKey exampleLB.ref) ∈ order :=
    mem_ofThread.mp (by rw [hinformer]; exact List.mem_singleton_self _)
  have hkept : contains (d.cache.cached exampleLB.hostKey) exampleLB.ref = true := by
    rw [hcache]
    let lists : SyncMap → Prop :=
      fun m => contains (m.cached exampleLB.hostKey) exampleLB.ref = true
    refine serial_of_mem (show ∀ x ∈ order, ∀ m, lists m → lists (CacheOp.apply m x.2) from
      fun x hx m hm => ?_) hmem (fun m => ?_) _
    · obtain ⟨key, val, hv, hval⟩ := happend x hx
      rw [hval]
      exact contains_append_of_contains hv hm
    · exact contains_append_self m _ exampleLB.ref_ne_nil
  rw [hlost] at hkept
  cases hkept

end CMXSafe.Proofs
