import CMXSafe.Kube.Watch
import CMXSafe.Proofs.ServiceCache

/-!
# When the cache is exact

After a history of deliveries, `serviceCache` ought to list under each key the live
Services that are managed and publish that key. The handlers keep it so exactly when each
delivery is `Clean`: an update to a version that is not managed must not leave a trimmed
host name behind, and no listed entry may end in the entry that is appended or removed.
-/

namespace CMXSafe.Proofs
open Strings Stores Tokens startServiceInformer

abbrev Live := Store Service.key

/-- The entry of a live version of which `J` holds. -/
def Held (live : Live) (J : Service → Prop) (e : Str) : Prop :=
  ∃ s, live.get s.key = some s ∧ J s ∧ e = s.entry

/-- A version that belongs under the key `k`. -/
def Publishes (k : Str) (s : Service) : Prop :=
  isManaged s = true ∧ s.hostname = k ++ serviceSuffix

/-- The entries that belong under the key `k`. -/
def entriesAt (live : Live) (k : Str) : Set Str :=
  {e | ∃ s, live.get s.key = some s ∧ Publishes k s ∧ e = s.entry}

/-- The pieces of every non-empty key are the entries that belong there, each once. -/
def Exact (m : SyncMap) (live : Live) : Prop :=
  ∀ k, k ≠ [] → (pieces ';' (m.cached k)).Nodup ∧
    ∀ e, e ∈ pieces ';' (m.cached k) ↔ e ∈ entriesAt live k

/-- Some other entry under the key ends in the entry of `s`: a Service of the same name
whose namespace has the namespace of `s` as a proper suffix. -/
def Shadowed (live : Live) (k : Str) (s : Service) : Prop :=
  ∃ t, live.get t.key = some t ∧ Publishes k t ∧
    s.name = t.name ∧ s.ns ≠ t.ns ∧ s.ns <:+ t.ns

/-- A delivery that the handlers get right. -/
def Clean (live : Live) (n : Notification Service) : Prop :=
  ∀ op ∈ cacheOps n, op.key ≠ [] →
    match op with
    | .remove k _ => ¬Shadowed live k n.subject
    | .append k _ =>
      -- the new version belongs under the key, and is listed or can be appended
      ((∃ s, n.newest = some s ∧ Publishes k s) ∧
          ((∃ s, n.oldest = some s ∧ Publishes k s) ∨ ¬Shadowed live k n.subject)) ∨
      -- it does not, is not listed, and the append fails to see that
      ((¬∃ s, n.newest = some s ∧ Publishes k s) ∧
          (¬∃ s, n.oldest = some s ∧ Publishes k s) ∧ Shadowed live k n.subject)

def CleanHistory (live : Live) : List (Notification Service) → Prop
  | [] => True
  | n :: ns => Clean live n ∧ CleanHistory (deliver live n) ns

def cacheAfter (m : SyncMap) (ns : List (Notification Service)) : SyncMap :=
  ns.foldl handle m

/-- The stronger form of exactness that the handlers preserve. -/
def Sound (m : SyncMap) (live : Live) : Prop :=
  ∀ k, k ≠ [] → ∃ es, Encodes (m.cached k) es ∧ ∀ e, e ∈ es ↔ e ∈ entriesAt live k

lemma Sound.exact {m : SyncMap} {live : Live} (h : Sound m live) : Exact m live := by
  intro k hk
  obtain ⟨es, henc, hes⟩ := h k hk
  rw [henc.pieces_eq]
  exact ⟨henc.nodup, hes⟩

lemma publishes_iff {k : Str} {s : Service} :
    Publishes k s ↔ isManaged s = true ∧ s.hostKey = k := by
  constructor
  · rintro ⟨hm, hh⟩
    exact ⟨hm, by rw [ServiceBody.hostKey, hh, trimSuffix_append]⟩
  · rintro ⟨hm, rfl⟩
    exact ⟨hm, hostname_of_isManaged hm⟩

/-! ## The updates of one key -/

def updAll (cur : Str) (ops : List CacheOp) : Str := ops.foldl (fun cur o => o.upd cur) cur

@[simp] lemma updAll_nil (cur : Str) : updAll cur [] = cur := rfl

@[simp] lemma updAll_cons (cur : Str) (o : CacheOp) (ops : List CacheOp) :
    updAll cur (o :: ops) = updAll (o.upd cur) ops := rfl

lemma updAll_append (cur : Str) (ops ops' : List CacheOp) :
    updAll cur (ops ++ ops') = updAll (updAll cur ops) ops' := by
  simp [updAll]

lemma cached_foldl_apply {ops : List CacheOp} (hv : ∀ o ∈ ops, o.val ≠ []) (m : SyncMap)
    (k : Str) : (ops.foldl CacheOp.apply m).cached k =
      updAll (m.cached k) (ops.filter (fun o => o.key = k)) := by
  induction ops generalizing m with
  | nil => rfl
  | cons o ops ih =>
    rw [List.foldl_cons, ih (fun o' ho => hv o' (by simp [ho]))]
    by_cases hk : o.key = k
    · rw [List.filter_cons_of_pos (by simp [hk]), updAll_cons, ← hk,
        o.cached_apply_self m (hv o (by simp))]
    · rw [List.filter_cons_of_neg (by simp [hk]), o.cached_apply_of_ne m (Ne.symm hk)]

lemma keyOps_add (s : Service) (k : Str) :
    (cacheOps (.add s)).filter (fun op => op.key = k) =
      if isManaged s = true ∧ s.hostKey = k then [.append k s.ref] else [] := by
  by_cases hm : isManaged s = true
  · by_cases hk : s.hostKey = k <;> simp [cacheOps, hm, hk, CacheOp.key]
  · simp [cacheOps, hm]

lemma keyOps_delete (s : Service) (k : Str) :
    (cacheOps (.delete s)).filter (fun op => op.key = k) =
      if isManaged s = true ∧ s.hostKey = k then [.remove k s.ref] else [] := by
  by_cases hm : isManaged s = true
  · by_cases hk : s.hostKey = k <;> simp [cacheOps, hm, hk, CacheOp.key]
  · simp [cacheOps, hm]

lemma keyOps_update (o s : Service) (k : Str) :
    (cacheOps (.update o s)).filter (fun op => op.key = k) =
      if k = [] then [] else if s.hostKey = k then [.append k s.ref]
      else if o.hostKey = k then [.remove k o.ref] else [] := by
  have hremove : ((if o.hostKey ≠ [] ∧ o.hostKey ≠ s.hostKey then
      [CacheOp.remove o.hostKey o.ref] else []).filter (fun op => op.key = k)) =
      if k = [] ∨ s.hostKey = k ∨ o.hostKey ≠ k then [] else [.remove k o.ref] := by
    by_cases ho : o.hostKey = k
    · subst ho
      by_cases hs : o.hostKey = s.hostKey
      · simp [hs]
      · by_cases hk : o.hostKey = [] <;> simp [hk, hs, Ne.symm hs, CacheOp.key]
    · split_ifs <;> simp_all [CacheOp.key]
  have happend : ((if s.hostKey ≠ [] then [CacheOp.append s.hostKey s.ref] else []).filter
      (fun op => op.key = k)) = if k = [] ∨ s.hostKey ≠ k then [] else [.append k s.ref] := by
    by_cases hs : s.hostKey = k
    · subst hs
      by_cases hk : s.hostKey = [] <;> simp [hk, CacheOp.key]
    · split_ifs <;> simp_all [CacheOp.key]
  rw [cacheOps, List.filter_append, hremove, happend]
  by_cases hk : k = [] <;> by_cases hs : s.hostKey = k <;> by_cases ho : o.hostKey = k <;>
    simp [hk, hs, ho]

lemma cached_handle_eq (m : SyncMap) (n : Notification Service) (k : Str) :
    (handle m n).cached k = updAll (m.cached k) ((cacheOps n).filter (fun op => op.key = k)) := by
  rw [handle_eq_foldl]
  exact cached_foldl_apply (fun op hop => val_ne_nil hop) m k

section
variable {n : Notification Service} {k : Str}

lemma handle_of_keyOps_nil (m : SyncMap)
    (h : (cacheOps n).filter (fun op => op.key = k) = []) :
    (∀ op ∈ cacheOps n, op.key ≠ k) ∧ (handle m n).cached k = m.cached k := by
  refine ⟨by simpa [List.filter_eq_nil_iff] using h, ?_⟩
  rw [cached_handle_eq, h, updAll_nil]

lemma handle_of_keyOps_singleton (m : SyncMap) {o : CacheOp}
    (h : (cacheOps n).filter (fun op => op.key = k) = [o]) :
    o ∈ cacheOps n ∧ (∀ op ∈ cacheOps n, op.key = k → op = o) ∧
      (handle m n).cached k = o.upd (m.cached k) := by
  have hmem : ∀ op, op ∈ cacheOps n ∧ op.key = k ↔ op = o := by
    intro op
    have hop : op ∈ (cacheOps n).filter (fun op => op.key = k) ↔ op ∈ [o] := by rw [h]
    rwa [List.mem_filter, decide_eq_true_eq, List.mem_singleton] at hop
  refine ⟨((hmem o).mpr rfl).1, fun op hop hk => (hmem op).mp ⟨hop, hk⟩, ?_⟩
  rw [cached_handle_eq, h, updAll_cons, updAll_nil]

end

/-! ## Deliveries -/

section
variable {live : Live} {n : Notification Service} {k : Str}

lemma held_subject_iff (h : Admits live n) {J : Service → Prop} :
    Held live J n.subject.entry ↔ ∃ s, n.oldest = some s ∧ J s := by
  constructor
  · rintro ⟨s, hs, hj, he⟩
    rw [Service.entry_eq_iff] at he
    rw [← he, h.oldest] at hs
    exact ⟨s, hs, hj⟩
  · rintro ⟨s, hs, hj⟩
    have hget := h.oldest.trans hs
    have hkey := live.keyed _ _ hget
    exact ⟨s, by rw [hkey, hget], hj, Service.entry_eq_iff.mpr hkey.symm⟩

lemma held_deliver_iff (h : Admits live n) {J : Service → Prop} (e : Str) :
    Held (deliver live n) J e ↔
      (e ≠ n.subject.entry ∧ Held live J e) ∨
        (e = n.subject.entry ∧ ∃ s, n.newest = some s ∧ J s) := by
  constructor
  · rintro ⟨s, hs, hj, rfl⟩
    rw [get_deliver h] at hs
    by_cases hk : s.key = n.subject.key
    · rw [if_pos hk] at hs
      exact Or.inr ⟨Service.entry_eq_iff.mpr hk, s, hs, hj⟩
    · rw [if_neg hk] at hs
      exact Or.inl ⟨fun he => hk (Service.entry_eq_iff.mp he), s, hs, hj, rfl⟩
  · rintro (⟨hne, s, hs, hj, rfl⟩ | ⟨rfl, s, hs, hj⟩)
    · have hk : s.key ≠ n.subject.key := fun hk => hne (Service.entry_eq_iff.mpr hk)
      exact ⟨s, by rw [get_deliver h, if_neg hk, hs], hj, rfl⟩
    · have hk := h.newest s hs
      exact ⟨s, by rw [get_deliver h, if_pos hk, hs], hj, (Service.entry_eq_iff.mpr hk).symm⟩

lemma entry_mem_entriesAt (h : Admits live n) :
    n.subject.entry ∈ entriesAt live k ↔ ∃ s, n.oldest = some s ∧ Publishes k s :=
  held_subject_iff h

lemma entriesAt_deliver (h : Admits live n) (e : Str) :
    e ∈ entriesAt (deliver live n) k ↔
      (e ≠ n.subject.entry ∧ e ∈ entriesAt live k) ∨
        (e = n.subject.entry ∧ ∃ s, n.newest = some s ∧ Publishes k s) :=
  held_deliver_iff h e

lemma shadowed_iff :
    Shadowed live k n.subject ↔
      ∃ c ∈ entriesAt live k, c ≠ n.subject.entry ∧ n.subject.entry <:+ c := by
  constructor
  · rintro ⟨t, ht, hp, hname, hns, hsuf⟩
    refine ⟨t.entry, ⟨t, ht, hp, rfl⟩, ?_, Service.entry_suffix_iff.mpr ⟨hname, hsuf⟩⟩
    intro he
    rw [Service.entry_eq_iff, Service.key, Service.key, Prod.mk.injEq] at he
    exact hns he.1.symm
  · rintro ⟨c, ⟨t, ht, hp, rfl⟩, hne, hsuf⟩
    obtain ⟨hname, hs⟩ := Service.entry_suffix_iff.mp hsuf
    refine ⟨t, ht, hp, hname, ?_, hs⟩
    intro hns
    exact hne (Service.entry_eq_iff.mpr (by rw [Service.key, Service.key, hname, hns]))

/-- A handler updates a key once or not at all. Where it does not, the object belongs
under the key neither before nor after; where it removes, not after. -/
lemma cached_handle (h : Admits live n) (m : SyncMap) (hk : k ≠ []) :
    ((∀ op ∈ cacheOps n, op.key ≠ k) ∧ (handle m n).cached k = m.cached k ∧
        (¬∃ s, n.newest = some s ∧ Publishes k s) ∧ ¬∃ s, n.oldest = some s ∧ Publishes k s) ∨
      (.append k n.subject.ref ∈ cacheOps n ∧
        (∀ op ∈ cacheOps n, op.key = k → op = .append k n.subject.ref) ∧
        (handle m n).cached k = appendVal (m.cached k) n.subject.ref) ∨
      (.remove k n.subject.ref ∈ cacheOps n ∧
        (∀ op ∈ cacheOps n, op.key = k → op = .remove k n.subject.ref) ∧
        (handle m n).cached k = removeVal (m.cached k) n.subject.ref ∧
        ¬∃ s, n.newest = some s ∧ Publishes k s) := by
  cases n with
  | add s =>
    have hkeyOps := keyOps_add s k
    split_ifs at hkeyOps with hop
    · exact Or.inr (Or.inl (handle_of_keyOps_singleton m hkeyOps))
    · obtain ⟨hkey, heq⟩ := handle_of_keyOps_nil m hkeyOps
      refine Or.inl ⟨hkey, heq, ?_, by simp [Notification.oldest]⟩
      simpa [Notification.newest, publishes_iff] using hop
  | delete s =>
    have hkeyOps := keyOps_delete s k
    split_ifs at hkeyOps with hop
    · obtain ⟨hmem, hall, heq⟩ := handle_of_keyOps_singleton m hkeyOps
      exact Or.inr (Or.inr ⟨hmem, hall, heq, by simp [Notification.newest]⟩)
    · obtain ⟨hkey, heq⟩ := handle_of_keyOps_nil m hkeyOps
      refine Or.inl ⟨hkey, heq, by simp [Notification.newest], ?_⟩
      simpa [Notification.oldest, publishes_iff] using hop
  | update o s =>
    have href : s.ref = o.ref := by
      rw [Service.ref, Service.ref, Service.entry_eq_iff.mpr (h.newest s rfl)]
      rfl
    have hkeyOps := keyOps_update o s k
    rw [if_neg hk, href] at hkeyOps
    split_ifs at hkeyOps with hs ho
    · exact Or.inr (Or.inl (handle_of_keyOps_singleton m hkeyOps))
    · obtain ⟨hmem, hall, heq⟩ := handle_of_keyOps_singleton m hkeyOps
      refine Or.inr (Or.inr ⟨hmem, hall, heq, ?_⟩)
      simp [Notification.newest, publishes_iff, hs]
    · obtain ⟨hkey, heq⟩ := handle_of_keyOps_nil m hkeyOps
      refine Or.inl ⟨hkey, heq, ?_, ?_⟩
      · simp [Notification.newest, publishes_iff, hs]
      · simp [Notification.oldest, publishes_iff, ho]

theorem sound_handle {m : SyncMap} (h : Admits live n) (hc : Clean live n)
    (hm : Sound m live) : Sound (handle m n) (deliver live n) := by
  intro k hk
  obtain ⟨es, henc, hes⟩ := hm k hk
  have hentry : IsEntry n.subject.entry := n.subject.isEntry
  rcases cached_handle h m hk with ⟨-, heq, hnew, hold⟩ | ⟨hop, -, heq⟩ | ⟨hop, -, heq, hnew⟩
  · refine ⟨es, by rw [heq]; exact henc, fun e => ?_⟩
    have hnot : n.subject.entry ∉ es :=
      fun hin => hold ((entry_mem_entriesAt h).mp ((hes _).mp hin))
    rw [entriesAt_deliver h, hes]
    constructor
    · intro he
      exact Or.inl ⟨fun he' => hnot ((hes _).mpr (he' ▸ he)), he⟩
    · rintro (⟨-, he⟩ | ⟨-, hp⟩)
      · exact he
      · exact absurd hp hnew
  · rcases hc _ hop hk with ⟨hnew, hshadow⟩ | ⟨hnew, hold, hshadow⟩
    · by_cases hin : n.subject.entry ∈ es
      · refine ⟨es, ?_, fun e => ?_⟩
        · rw [heq, Service.ref, henc.append_of_suffix hentry hin List.suffix_rfl]
          exact henc
        · rw [entriesAt_deliver h, ← hes]
          constructor
          · intro he
            by_cases hx : e = n.subject.entry
            · exact Or.inr ⟨hx, hnew⟩
            · exact Or.inl ⟨hx, he⟩
          · rintro (⟨-, he⟩ | ⟨rfl, -⟩)
            · exact he
            · exact hin
      · have hold : ¬∃ s, n.oldest = some s ∧ Publishes k s :=
          fun ho => hin ((hes _).mpr ((entry_mem_entriesAt h).mpr ho))
        have hns := hshadow.resolve_left hold
        refine ⟨es ++ [n.subject.entry], ?_, fun e => ?_⟩
        · rw [heq]
          refine henc.append hentry ?_
          intro c hcm hs
          refine hns (shadowed_iff.mpr ⟨c, (hes c).mp hcm, ?_, hs⟩)
          rintro rfl
          exact hin hcm
        · rw [entriesAt_deliver h, ← hes, List.mem_append, List.mem_singleton]
          constructor
          · rintro (he | he)
            · exact Or.inl ⟨fun hx => hin (hx ▸ he), he⟩
            · exact Or.inr ⟨he, hnew⟩
          · rintro (⟨-, he⟩ | ⟨he, -⟩)
            · exact Or.inl he
            · exact Or.inr he
    · obtain ⟨c, hcm, -, hs⟩ := shadowed_iff.mp hshadow
      refine ⟨es, ?_, fun e => ?_⟩
      · rw [heq, Service.ref, henc.append_of_suffix hentry ((hes c).mpr hcm) hs]
        exact henc
      · rw [entriesAt_deliver h, hes]
        constructor
        · intro he
          exact Or.inl ⟨fun hx => hold ((entry_mem_entriesAt h).mp (hx ▸ he)), he⟩
        · rintro (⟨-, he⟩ | ⟨-, hp⟩)
          · exact he
          · exact absurd hp hnew
  · have hns : ¬Shadowed live k n.subject := hc _ hop hk
    refine ⟨es.filter (· ≠ n.subject.entry), ?_, fun e => ?_⟩
    · rw [heq]
      refine henc.remove hentry ?_
      intro c hcm hs
      by_contra hne
      exact hns (shadowed_iff.mpr ⟨c, (hes c).mp hcm, hne, hs⟩)
    · rw [entriesAt_deliver h, ← hes, List.mem_filter]
      simp only [decide_eq_true_eq]
      constructor
      · rintro ⟨he, hne⟩
        exact Or.inl ⟨hne, he⟩
      · rintro (⟨hne, he⟩ | ⟨-, hp⟩)
        · exact ⟨he, hne⟩
        · exact absurd hp hnew

theorem clean_of_exact {m : SyncMap} (h : Admits live n) (hm : Sound m live)
    (hex : Exact (handle m n) (deliver live n)) : Clean live n := by
  intro op hop hk
  obtain ⟨es, henc, hes⟩ := hm op.key hk
  obtain ⟨hnodup, hmem⟩ := hex op.key hk
  have hentry : IsEntry n.subject.entry := n.subject.isEntry
  have hold : n.subject.entry ∈ es ↔ ∃ s, n.oldest = some s ∧ Publishes op.key s :=
    (hes _).trans (entry_mem_entriesAt h)
  rcases cached_handle h m hk with ⟨hkey, -⟩ | ⟨-, hall, heq⟩ | ⟨-, hall, heq, hnew⟩
  · exact absurd rfl (hkey op hop)
  · have hop' := hall op hop rfl
    rw [heq, Service.ref] at hnodup hmem
    rw [hop']
    by_cases hnew : ∃ s, n.newest = some s ∧ Publishes op.key s
    · refine Or.inl ⟨hnew, ?_⟩
      by_contra hno
      rw [not_or, not_not] at hno
      obtain ⟨hno, hsh⟩ := hno
      obtain ⟨c, hcm, -, hs⟩ := shadowed_iff.mp hsh
      -- the append does nothing, so an entry is missing
      rw [henc.append_of_suffix hentry ((hes c).mpr hcm) hs] at hnodup hmem
      have hin : n.subject.entry ∈ entriesAt (deliver live n) op.key :=
        (entriesAt_deliver h _).mpr (Or.inr ⟨rfl, hnew⟩)
      rw [← hmem, henc.pieces_eq] at hin
      exact hno (hold.mp hin)
    · refine Or.inr ⟨hnew, ?_, ?_⟩
      · intro ho
        have hin := hold.mpr ho
        rw [henc.append_of_suffix hentry hin List.suffix_rfl] at hmem
        rw [← henc.pieces_eq, hmem, entriesAt_deliver h] at hin
        rcases hin with ⟨hne, -⟩ | ⟨-, hp⟩
        · exact hne rfl
        · exact hnew hp
      · by_contra hsh
        by_cases hin : n.subject.entry ∈ es
        · rw [henc.append_of_suffix hentry hin List.suffix_rfl] at hmem
          rw [← henc.pieces_eq, hmem, entriesAt_deliver h] at hin
          rcases hin with ⟨hne, -⟩ | ⟨-, hp⟩
          · exact hne rfl
          · exact hnew hp
        · -- the append adds an entry that does not belong there
          have hnot : ∀ c ∈ es, ¬n.subject.entry <:+ c := by
            intro c hcm hs
            refine hsh (shadowed_iff.mpr ⟨c, (hes c).mp hcm, ?_, hs⟩)
            rintro rfl
            exact hin hcm
          have henc' := henc.append hentry hnot
          have hin' : n.subject.entry ∈ es ++ [n.subject.entry] := by simp
          rw [← henc'.pieces_eq, hmem, entriesAt_deliver h] at hin'
          rcases hin' with ⟨hne, -⟩ | ⟨-, hp⟩
          · exact hne rfl
          · exact hnew hp
  · have hop' := hall op hop rfl
    rw [hop']
    intro hsh
    obtain ⟨c, hcm, hne, hs⟩ := shadowed_iff.mp hsh
    rw [heq, Service.ref] at hnodup hmem
    refine hne (henc.clear_of_remove hentry hnodup ?_ c ((hes c).mpr hcm) hs)
    intro e
    rw [hmem, entriesAt_deliver h, ← hes]
    constructor
    · rintro (⟨hne', he⟩ | ⟨-, hp⟩)
      · exact ⟨he, hne'⟩
      · exact absurd hp hnew
    · rintro ⟨he, hne'⟩
      exact Or.inl ⟨hne', he⟩

end

lemma sound_empty : Sound .empty (.empty : Live) := by
  intro k _
  refine ⟨[], encodes_nil, fun e => ⟨by simp, ?_⟩⟩
  rintro ⟨s, hs, -⟩
  cases hs

/-- From a sound cache on, the cache stays exact just as long as deliveries are clean. -/
theorem exact_iff_clean {m : SyncMap} {live : Live} {ns : List (Notification Service)}
    (hm : Sound m live) (h : History live ns) :
    (∀ pre, pre <+: ns → Exact (cacheAfter m pre) (replay live pre)) ↔ CleanHistory live ns := by
  induction ns generalizing m live with
  | nil =>
    simp only [List.prefix_nil, forall_eq, CleanHistory, iff_true]
    exact hm.exact
  | cons n ns ih =>
    constructor
    · intro hex
      have hc : Clean live n := clean_of_exact h.1 hm (hex [n] (by simp))
      refine ⟨hc, (ih (sound_handle h.1 hc hm) h.2).mp ?_⟩
      intro pre hpre
      exact hex (n :: pre) (by simpa using hpre)
    · rintro ⟨hc, hrest⟩ pre hpre
      cases pre with
      | nil => exact hm.exact
      | cons n' pre =>
        obtain ⟨rfl, hpre'⟩ := List.cons_prefix_cons.mp hpre
        exact (ih (sound_handle h.1 hc hm) h.2).mpr hrest pre hpre'

/-- The cache that the handlers build from nothing is exact after each delivery of a
history if and only if every delivery is clean. -/
theorem serviceCache_exact_iff (ns : List (Notification Service))
    (h : History (.empty : Live) ns) :
    (∀ pre, pre <+: ns → Exact (cacheAfter .empty pre) (replay .empty pre)) ↔
      CleanHistory .empty ns :=
  exact_iff_clean sound_empty h

def hostService (ns name : String) (type : ServiceType) (host : Str)
    (h : acceptsName ns.toList = true ∧ acceptsName name.toList = true) : Service where
  annotations := [(externalDNSAnn, host)]
  type := type
  ns := ns.toList
  name := name.toList
  named := h

lemma prodCamera_named :
    acceptsName "prod".toList = true ∧ acceptsName "camera".toList = true := by
  decide +kernel

def exampleUser : Str := "025f9a3db712".toList

def exampleLB : Service :=
  hostService "prod" "camera" .loadBalancer (hostOf exampleUser) prodCamera_named

def exampleClusterIP : Service :=
  hostService "prod" "camera" .clusterIP (hostOf exampleUser) prodCamera_named

/-- Deliveries of managed versions are clean where no live Service shadows another. -/
lemma clean_of_managed {live : Live} {n : Notification Service}
    (hnew : ∀ s, n.newest = some s → isManaged s = true)
    (hsh : ∀ k, ¬Shadowed live k n.subject) : Clean live n := by
  intro op hop _
  cases op with
  | remove k v => exact hsh k
  | append k v =>
    refine Or.inl ⟨?_, Or.inr (hsh k)⟩
    cases n with
    | add s | update o s =>
      have hm : isManaged s = true := hnew s rfl
      have hk : k = s.hostKey := by
        simp only [cacheOps, hm, if_true, List.mem_append, List.mem_ite_nil_right,
          List.mem_singleton, CacheOp.append.injEq, reduceCtorEq, and_false, false_or] at hop
        tauto
      exact ⟨s, rfl, publishes_iff.mpr ⟨hm, hk.symm⟩⟩
    | delete s => simp [cacheOps] at hop

/-- So is a history of managed versions in which no two Services have the same name. -/
lemma cleanHistory_of_managed {keys : List (Str × Str)}
    (hkeys : ∀ k ∈ keys, ∀ l ∈ keys, k.2 = l.2 → k.1 = l.1) {live : Live}
    {ns : List (Notification Service)} (h : History live ns)
    (hlive : ∀ s, live.get s.key = some s → s.key ∈ keys)
    (hns : ∀ n ∈ ns, n.subject.key ∈ keys ∧ ∀ s, n.newest = some s → isManaged s = true) :
    CleanHistory live ns := by
  induction ns generalizing live with
  | nil => trivial
  | cons n ns ih =>
    obtain ⟨hmem, hnew⟩ := hns n (by simp)
    refine ⟨clean_of_managed hnew ?_, ih h.2 ?_ (fun n' hn' => hns n' (by simp [hn']))⟩
    · rintro k ⟨t, ht, -, hname, hne, -⟩
      exact hne (hkeys _ hmem _ (hlive t ht) hname)
    · intro s hs
      rw [get_deliver h.1] at hs
      split_ifs at hs with hk
      · exact hk ▸ hmem
      · exact hlive s hs

lemma labDoor_named : acceptsName "lab".toList = true ∧ acceptsName "door".toList = true := by
  decide +kernel

/-- A second Service with the host name of the user. -/
def exampleDoor : Service :=
  hostService "lab" "door" .loadBalancer (hostOf exampleUser) labDoor_named

def labelledLB : Service :=
  { exampleLB with labels := [("app".toList, "camera".toList)] }

def movedLB : Service :=
  hostService "prod" "camera" .loadBalancer (hostOf "0242ac110002".toList) prodCamera_named

/-- Two publishers of one host name: the first is relabelled and moves to another host name,
then the second is deleted. -/
def exampleHistory : List (Notification Service) :=
  [.add exampleLB, .add exampleDoor, .update exampleLB labelledLB, .update labelledLB movedLB,
    .delete exampleDoor]

lemma example_history : History (.empty : Live) exampleHistory :=
  ⟨⟨rfl, by rintro o ⟨⟩; rfl⟩, ⟨by decide +kernel, by rintro o ⟨⟩; rfl⟩,
    ⟨by decide +kernel, by rintro o ⟨⟩; rfl⟩, ⟨by decide +kernel, by rintro o ⟨⟩; decide +kernel⟩,
    ⟨by decide +kernel, by rintro o ⟨⟩⟩, trivial⟩

lemma exampleHistory_managed : ∀ n ∈ exampleHistory,
    n.subject.key ∈ [exampleLB.key, exampleDoor.key] ∧
      ∀ s, n.newest = some s → isManaged s = true := by
  have hall : ∀ n ∈ exampleHistory, n.subject.key ∈ [exampleLB.key, exampleDoor.key] ∧
      n.newest.all isManaged = true := by decide +kernel
  intro n hn
  obtain ⟨hk, hm⟩ := hall n hn
  refine ⟨hk, fun s hs => ?_⟩
  rw [hs] at hm
  exact hm

lemma exampleHistory_clean : CleanHistory .empty exampleHistory :=
  cleanHistory_of_managed (by decide +kernel) example_history (fun s hs => by cases hs)
    exampleHistory_managed

theorem serviceCache_exact_iff_moved : CleanHistory .empty exampleHistory ∧
    ∀ pre, pre <+: exampleHistory → Exact (cacheAfter .empty pre) (replay .empty pre) :=
  ⟨exampleHistory_clean,
    (serviceCache_exact_iff exampleHistory example_history).mpr exampleHistory_clean⟩

/-- A Service that stops being a LoadBalancer stays in the cache. -/
theorem serviceCache_not_exact :
    History (.empty : Live) [.add exampleLB, .update exampleLB exampleClusterIP] ∧
      ¬Exact (cacheAfter .empty [.add exampleLB, .update exampleLB exampleClusterIP])
        (replay .empty [.add exampleLB, .update exampleLB exampleClusterIP]) := by
  have hget : (replay (.empty : Live) [.add exampleLB, .update exampleLB exampleClusterIP]).get
      exampleLB.key = some exampleClusterIP := by decide +kernel
  refine ⟨⟨⟨rfl, fun o ho => by cases ho; rfl⟩,
    ⟨by decide +kernel, fun o ho => by cases ho; rfl⟩, trivial⟩, ?_⟩
  intro hex
  have hmem := (hex (servicePrefix ++ exampleUser) (by decide +kernel)).2 exampleLB.entry
  obtain ⟨s, hs, hp, he⟩ := hmem.mp (by decide +kernel)
  rw [← Service.entry_eq_iff.mp he, hget] at hs
  cases hs
  exact absurd hp.1 (by decide +kernel)

end CMXSafe.Proofs
