import CMXSafe.Client.Deliveries
import CMXSafe.Proofs.PodRoutes

/-!
# Deletions

`DeleteFunc` panics on a tombstone, and ignores a Service that is not managed when it goes.
Apart from these, a deleted Service is listed nowhere: a version is listed under its own key
or under the empty key, which no update clears.
-/

namespace CMXSafe.Proofs
open Strings Stores Tokens Machines startServiceInformer

/-- A version that may stand under the key `k`: under its own key, or under the empty one. -/
def StandsUnder (k : Str) (s : Service) : Prop := k = [] ∨ s.hostKey = k

/-- A Service that is deleted stands under no key that `DeleteFunc` leaves alone, as far as
the empty key and its own key go. -/
def Removable (m : SyncMap) (s : Service) : Prop :=
  ∀ k, k = [] ∨ k = s.hostKey → s.entry ∈ pieces ';' (m.cached k) →
    isManaged s = true ∧ k = s.hostKey

/-- A removal of the entry `e` takes nothing off the end of another entry. -/
def ClearOp (m : SyncMap) (e : Str) : CacheOp → Prop
  | .remove k _ => ∀ x ∈ pieces ';' (m.cached k), e <:+ x → x = e
  | .append _ _ => True

def ClearOps (m : SyncMap) (n : Notification Service) : Prop :=
  ∀ op ∈ cacheOps n, ClearOp m n.subject.entry op

section
variable {seen : Live} {n : Notification Service} {k e : Str} {m : SyncMap}

theorem lists_handle (h : Admits seen n) (hclear : ClearOps m n)
    (hrem : ∀ s, n = .delete s → Removable m s)
    (hm : ∀ k, Lists (Held seen (StandsUnder k)) (m.cached k)) (k : Str) :
    Lists (Held (deliver seen n) (StandsUnder k)) ((handle m n).cached k) := by
  have hentry : IsEntry n.subject.entry := n.subject.isEntry
  have hother : ∀ e, Held seen (StandsUnder k) e → e ≠ n.subject.entry →
      Held (deliver seen n) (StandsUnder k) e :=
    fun e he hne => (held_deliver_iff h e).mpr (Or.inl ⟨hne, he⟩)
  have hnewest : ∀ {s}, n.newest = some s → StandsUnder k s →
      Held (deliver seen n) (StandsUnder k) n.subject.entry :=
    fun hs hk => (held_deliver_iff h _).mpr (Or.inr ⟨rfl, _, hs, hk⟩)
  -- what stands there may stay if the delivered object may stand there, or does not
  have hstay : Held (deliver seen n) (StandsUnder k) n.subject.entry ∨
      n.subject.entry ∉ pieces ';' (m.cached k) →
      Lists (Held (deliver seen n) (StandsUnder k)) (m.cached k) := by
    obtain ⟨es, henc, hes⟩ := hm k
    rw [henc.pieces_eq]
    refine fun hself => ⟨es, henc, fun e he => ?_⟩
    by_cases hne : e = n.subject.entry
    · subst hne
      exact hself.resolve_right (fun hnot => hnot he)
    · exact hother e (hes e he) hne
  have hremove : CacheOp.remove k n.subject.ref ∈ (cacheOps n).filter (fun op => op.key = k) →
      Lists (Held (deliver seen n) (StandsUnder k)) (removeVal (m.cached k) n.subject.ref) := by
    intro hop
    have hclear' := hclear _ (List.mem_of_mem_filter hop)
    exact ((hm k).remove hentry hclear').mono (fun e he => hother e he.1 he.2)
  have holdest : n.subject.entry ∈ pieces ';' (m.cached k) →
      ∃ s, n.oldest = some s ∧ (k = [] ∨ s.hostKey = k) :=
    fun hmem => (held_subject_iff h).mp ((hm k).of_mem_pieces hmem)
  rw [cached_handle_eq]
  cases n with
  | add s =>
    have hnot : s.entry ∉ pieces ';' (m.cached k) := by
      intro hmem
      obtain ⟨t, ht, -⟩ := holdest hmem
      cases ht
    rw [keyOps_add]
    split_ifs with hop
    · exact (hstay (Or.inr hnot)).append hentry (hnewest rfl (Or.inr hop.2))
    · exact hstay (Or.inr hnot)
  | delete s =>
    rw [keyOps_delete] at hremove ⊢
    split_ifs at hremove ⊢ with hop
    · exact hremove (by simp [Notification.subject])
    · refine hstay (Or.inr (fun hmem => ?_))
      obtain ⟨t, ht, hk⟩ := holdest hmem
      cases ht
      obtain ⟨hman, hk'⟩ := hrem s rfl k (hk.imp_right Eq.symm) hmem
      exact hop ⟨hman, hk'.symm⟩
  | update o s =>
    have href : o.ref = s.ref := by
      rw [Service.ref, Service.ref, Service.entry_eq_iff.mpr (h.newest s rfl)]
      rfl
    rw [keyOps_update] at hremove ⊢
    split_ifs at hremove ⊢ with hk hs ho
    · exact hstay (Or.inl (hnewest rfl (Or.inl hk)))
    · have hself := hnewest rfl (Or.inr hs)
      have hlisted := (hstay (Or.inl hself)).append hentry hself
      rw [← Service.ref] at hlisted
      exact href ▸ hlisted
    · exact hremove (by simp [Notification.subject])
    · refine hstay (Or.inr (fun hmem => ?_))
      obtain ⟨t, ht, hk'⟩ := holdest hmem
      cases ht
      exact hk'.elim hk ho

end

/-! ## Histories of deliveries -/

/-- A delivery that `DeleteFunc` absorbs, as far as the two keys in question go. -/
def Absorbs (c : Caches) : InformerEvent → Prop
  | .pod d => d.typed = true
  | .service d => d.typed = true ∧ ∀ s, d.notice = .delete s → Removable c.serviceCache s

def Clear (c : Caches) : InformerEvent → Prop
  | .pod _ => True
  | .service d => ClearOps c.serviceCache d.notice

/-- The caches hold nothing of an object that the event deletes. -/
def Gone (c : Caches) : InformerEvent → Prop
  | .pod (.delete o) => c.podIPCache.load (podKey o.obj.ns o.obj.name) = none
  | .service (.delete o) => ∀ k, o.obj.entry ∉ pieces ';' (c.serviceCache.cached k)
  | _ => True

/-- No handler panics, and each deletion leaves nothing of its object behind. -/
def AbsorbedFrom (c : Caches) (es : List InformerEvent) : Prop :=
  ∀ pre e post, es = pre ++ e :: post →
    ∃ c' d, run Caches.step c pre = some c' ∧ c'.step e = some d ∧ Gone d e

section
variable {pods : Store Pod.key} {seen : Live} {c : Caches}

lemma pod_absorbed (c : Caches) {d : Delivery Pod} (ha : d.typed = true) :
    ∃ c', c.step (.pod d) = some c' ∧ Gone c' (.pod d) ∧ c'.serviceCache = c.serviceCache := by
  refine ⟨⟨startPodInformer.handle c.podIPCache d.notice, c.serviceCache⟩, ?_, ?_, rfl⟩
  · rw [Caches.step, startPodInformer.receive_eq, if_pos ha]
    rfl
  · rcases d with o | ⟨o, n⟩ | o
    · trivial
    · trivial
    · exact (SyncMap.load_delete _ _ _).trans (if_pos rfl)

lemma service_absorbed {d : Delivery Service} (hd : d.Allowed seen)
    (hm : ∀ k, Lists (Held seen (StandsUnder k)) (c.serviceCache.cached k))
    (ha : Absorbs c (.service d)) (hclear : Clear c (.service d)) :
    ∃ c', c.step (.service d) = some c' ∧ Gone c' (.service d) ∧
      ∀ k, Lists (Held (deliver seen d.notice) (StandsUnder k)) (c'.serviceCache.cached k) := by
  have hadmits := hd.admits ha.1
  have hlists := lists_handle hadmits hclear ha.2 hm
  refine ⟨⟨c.podIPCache, handle c.serviceCache d.notice⟩, ?_, ?_, hlists⟩
  · rw [Caches.step, startServiceInformer.receive_eq, if_pos ha.1]
    rfl
  · rcases d with o | ⟨o, n⟩ | o
    · trivial
    · trivial
    · intro k hmem
      -- the deleted object is not live, so it is not held
      obtain ⟨s, hs, -, he⟩ := (hlists k).of_mem_pieces hmem
      have hkey : s.key = (Delivery.delete o).notice.subject.key :=
        (Service.entry_eq_iff.mp he).symm
      rw [get_deliver hadmits, if_pos hkey] at hs
      cases hs

lemma absorbedFrom_cons {c d : Caches} {e : InformerEvent} {es : List InformerEvent}
    (h : c.step e = some d) (hgone : Gone d e) (hes : AbsorbedFrom d es) :
    AbsorbedFrom c (e :: es) := by
  intro pre e' post he
  cases pre with
  | nil =>
    cases he
    exact ⟨c, d, rfl, h, hgone⟩
  | cons e'' pre =>
    cases he
    obtain ⟨c', d', hrun, hstep, hgone'⟩ := hes pre e' post rfl
    exact ⟨c', d', run_cons.mpr ⟨d, h, hrun⟩, hstep, hgone'⟩

theorem absorbedFrom_of_absorbs {es : List InformerEvent} (hl : Lawful pods seen es)
    (hm : ∀ k, Lists (Held seen (StandsUnder k)) (c.serviceCache.cached k))
    (hg : Guarded Caches.step (fun c e => Absorbs c e ∧ Clear c e) c es) :
    AbsorbedFrom c es := by
  induction es generalizing pods seen c with
  | nil =>
    intro pre e post he
    exact absurd he (by simp)
  | cons e es ih =>
    obtain ⟨⟨ha, hclear⟩, hrest⟩ := hg
    cases e with
    | pod d =>
      obtain ⟨c', hstep, hgone, hsame⟩ := pod_absorbed c ha
      exact absorbedFrom_cons hstep hgone (ih hl.2 (hsame ▸ hm) (hrest c' hstep))
    | service d =>
      obtain ⟨c', hstep, hgone, hm'⟩ := service_absorbed hl.1 hm ha hclear
      exact absorbedFrom_cons hstep hgone (ih hl.2 hm' (hrest c' hstep))

lemma absorbs_of_gone {c d : Caches} {e : InformerEvent} (h : c.step e = some d)
    (hgone : Gone d e) : Absorbs c e := by
  cases e with
  | pod n =>
    rw [Caches.step, startPodInformer.receive_eq] at h
    by_cases ht : n.typed = true
    · exact ht
    · rw [if_neg ht] at h
      cases h
  | service n =>
    rw [Caches.step, startServiceInformer.receive_eq] at h
    by_cases ht : n.typed = true
    · rw [if_pos ht, Option.map_some, Option.some.injEq] at h
      refine ⟨ht, fun s hs k hk hmem => ?_⟩
      by_contra hno
      -- the handler does not touch the key
      have hkept : d.serviceCache.cached k = c.serviceCache.cached k := by
        rw [← h, hs]
        refine (cached_handle_eq c.serviceCache (.delete s) k).trans ?_
        rw [keyOps_delete, if_neg (fun hop => hno ⟨hop.1, hop.2.symm⟩)]
        rfl
      rcases n with o | ⟨o, n⟩ | o
      · cases hs
      · cases hs
      · cases hs
        exact hgone k (hkept ▸ hmem)
    · rw [if_neg ht] at h
      cases h

theorem absorbs_of_absorbedFrom {es : List InformerEvent} (h : AbsorbedFrom c es) :
    Guarded Caches.step Absorbs c es := by
  induction es generalizing c with
  | nil => trivial
  | cons e es ih =>
    obtain ⟨c', d, hc', hstep, hgone⟩ := h [] e es rfl
    cases hc'
    refine ⟨absorbs_of_gone hstep hgone, fun d' hd' => ih ?_⟩
    intro pre e' post he
    obtain ⟨c'', d'', hrun, hrest⟩ := h (e :: pre) e' post (by rw [he]; rfl)
    obtain ⟨t, ht, hrun'⟩ := run_cons.mp hrun
    rw [hd'] at ht
    cases ht
    exact ⟨c'', d'', hrun', hrest⟩

end

lemma lists_init (k : Str) :
    Lists (Held .empty (StandsUnder k)) (Caches.init.serviceCache.cached k) :=
  ⟨[], encodes_nil, by simp⟩

/-- Deletions are absorbed in every history without tombstones in which a deleted Service
stands under no key that `DeleteFunc` leaves alone and no removal cuts another entry; and in
no history that breaks one of the first two conditions. -/
theorem deletions_absorbed (es : List InformerEvent) (hl : Lawful .empty .empty es) :
    (Guarded Caches.step (fun c e => Absorbs c e ∧ Clear c e) .init es → AbsorbedFrom .init es) ∧
      (AbsorbedFrom .init es → Guarded Caches.step Absorbs .init es) :=
  ⟨fun hg => absorbedFrom_of_absorbs hl lists_init hg, absorbs_of_absorbedFrom⟩

lemma removable_iff {m : SyncMap} {s : Service} :
    (∀ k ∈ [[], s.hostKey], (pieces ';' (m.cached k)).contains s.entry = true →
      isManaged s = true ∧ k = s.hostKey) ↔ Removable m s := by
  simp [Removable]

instance (m : SyncMap) (s : Service) : Decidable (Removable m s) :=
  decidable_of_iff _ removable_iff

instance (m : SyncMap) (e : Str) : ∀ op, Decidable (ClearOp m e op)
  | .remove k _ => inferInstanceAs (Decidable (∀ x ∈ pieces ';' (m.cached k), e <:+ x → x = e))
  | .append _ _ => .isTrue trivial

def decideDelete (m : SyncMap) :
    ∀ n : Notification Service, Decidable (∀ s, n = .delete s → Removable m s)
  | .add _ => .isTrue (fun _ h => by cases h)
  | .update _ _ => .isTrue (fun _ h => by cases h)
  | .delete s => decidable_of_iff (Removable m s) (by simp)

instance (c : Caches) : ∀ e, Decidable (Absorbs c e ∧ Clear c e)
  | .pod d => inferInstanceAs (Decidable (d.typed = true ∧ True))
  | .service d =>
    have := decideDelete c.serviceCache d.notice
    inferInstanceAs (Decidable ((d.typed = true ∧ ∀ s, d.notice = .delete s →
      Removable c.serviceCache s) ∧
        ∀ op ∈ cacheOps d.notice, ClearOp c.serviceCache d.notice.subject.entry op))

def lifeEvents : List InformerEvent :=
  [.pod (.add examplePod), .service (.add exampleLB), .service (.delete (.object exampleLB)),
    .pod (.delete (.object examplePod))]

lemma lifeEvents_lawful : Lawful .empty .empty lifeEvents :=
  ⟨⟨rfl, fun o ho => by cases ho; rfl⟩, ⟨rfl, fun o ho => by cases ho; rfl⟩,
    ⟨by decide +kernel, fun o ho => by cases ho⟩, ⟨by decide +kernel, fun o ho => by cases ho⟩,
    trivial⟩

theorem deletions_absorbed_life :
    AbsorbedFrom .init lifeEvents ∧ Guarded Caches.step Absorbs .init lifeEvents := by
  obtain ⟨habsorbs, hholds⟩ := deletions_absorbed lifeEvents lifeEvents_lawful
  have habsorbed : AbsorbedFrom .init lifeEvents := habsorbs (by decide +kernel)
  exact ⟨habsorbed, hholds habsorbed⟩

def tombstoneEvents : List InformerEvent :=
  [.pod (.add examplePod), .pod (.delete (.finalStateUnknown examplePod))]

def retypedEvents : List InformerEvent :=
  [.service (.add exampleLB), .service (.update exampleLB exampleClusterIP),
    .service (.delete (.object exampleClusterIP))]

lemma tombstoneEvents_lawful : Lawful .empty .empty tombstoneEvents := by
  refine ⟨⟨rfl, fun o ho => by cases ho; rfl⟩, ?_, trivial⟩
  change Option.isSome _ = true
  decide +kernel

lemma retypedEvents_lawful : Lawful .empty .empty retypedEvents :=
  ⟨⟨rfl, fun o ho => by cases ho; rfl⟩, ⟨by decide +kernel, fun o ho => by cases ho; rfl⟩,
    ⟨by decide +kernel, fun o ho => by cases ho⟩, trivial⟩

/-- A tombstone makes `DeleteFunc` panic, and a Service that stopped being a LoadBalancer
stays listed when it is deleted. -/
theorem deletions_not_absorbed :
    (Lawful .empty .empty tombstoneEvents ∧ ¬AbsorbedFrom .init tombstoneEvents) ∧
      Lawful .empty .empty retypedEvents ∧ ¬AbsorbedFrom .init retypedEvents := by
  refine ⟨⟨tombstoneEvents_lawful, fun h => ?_⟩, retypedEvents_lawful, fun h => ?_⟩
  · obtain ⟨c, d, -, hstep, -⟩ := h [.pod (.add examplePod)] _ [] rfl
    cases hstep
  · obtain ⟨c, d, hrun, hstep, hgone⟩ := h [.service (.add exampleLB),
      .service (.update exampleLB exampleClusterIP)] _ [] rfl
    cases hrun
    cases hstep
    exact hgone (servicePrefix ++ exampleUser) (by decide +kernel)

end CMXSafe.Proofs
