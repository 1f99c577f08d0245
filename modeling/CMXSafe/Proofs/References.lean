import CMXSafe.Proofs.CacheExact
import CMXSafe.Proofs.LastWriter
import CMXSafe.Proofs.Steps

/-!
# Where cached references come from

A reference under a key is the primary entry of that key, or is backed by the version of
its Service that was delivered last. Appends and removals keep it so as long as no removal
is forgotten and none cuts off the end of a longer entry.
-/

namespace CMXSafe.Proofs
open Strings Stores Tokens Machines startServiceInformer

/-- Every entry under the key is its primary entry or that of a delivered version of which
`J` holds. -/
def Backed (J : Service → Prop) (k : Str) (m : SyncMap) (seen : Live) : Prop :=
  ∃ es, Encodes (m.cached k) es ∧ ∀ e ∈ es, e = refBody defaultNS k ∨
    ∃ s, seen.get s.key = some s ∧ J s ∧ e = s.entry

/-- A delivery that leaves no reference behind under the key. -/
structure Tidy (J : Service → Prop) (k : Str) (m : SyncMap) (n : Notification Service) : Prop where
  /-- A version that is appended is one that `J` holds of. -/
  append : .append k n.subject.ref ∈ cacheOps n → ∃ s, n.newest = some s ∧ J s
  /-- A Service that is deleted while it is not managed is not listed. -/
  delete : ∀ s, n = .delete s → isManaged s = false → s.hostKey = k →
    s.entry ∉ pieces ';' (m.cached k)
  /-- A removal takes nothing off the end of another entry. -/
  remove : .remove k n.subject.ref ∈ cacheOps n →
    ∀ e ∈ pieces ';' (m.cached k), n.subject.entry <:+ e → e = n.subject.entry

section
variable {J : Service → Prop} {k : Str} {m : SyncMap} {seen : Live} {n : Notification Service}

lemma delete_of_no_op (hk : k ≠ []) (hop : ∀ op ∈ cacheOps n, op.key ≠ k) {o : Service}
    (ho : n.oldest = some o) (hkey : o.hostKey = k) : n = .delete o ∧ isManaged o = false := by
  cases n with
  | add s => cases ho
  | delete s =>
    cases ho
    refine ⟨rfl, ?_⟩
    by_contra hm
    have hm' : isManaged o = true := by simpa using hm
    exact hop (.remove o.hostKey o.ref) (by simp [cacheOps, hm']) hkey
  | update o' s =>
    cases ho
    exfalso
    by_cases hs : s.hostKey = k
    · exact hop (.append s.hostKey s.ref) (by simp [cacheOps, hs, hk]) hs
    · have hne : o.hostKey ≠ [] ∧ o.hostKey ≠ s.hostKey := by
        rw [hkey]
        exact ⟨hk, Ne.symm hs⟩
      exact hop (.remove o.hostKey o.ref) (by simp [cacheOps, hne]) hkey

theorem backed_handle (hJ : ∀ s, J s → s.hostKey = k) (hk : k ≠ []) (h : Admits seen n)
    (ht : Tidy J k m n) (hm : Backed J k m seen) : Backed J k (handle m n) (deliver seen n) := by
  have hentry : IsEntry n.subject.entry := n.subject.isEntry
  have hold : Lists (fun e => e = refBody defaultNS k ∨ Held seen J e) (m.cached k) := hm
  -- an entry that the delivery is not about stays backed
  have hother : ∀ e, (e = refBody defaultNS k ∨ Held seen J e) → e ≠ n.subject.entry →
      e = refBody defaultNS k ∨ Held (deliver seen n) J e :=
    fun e he hne => he.imp_right (fun he => (held_deliver_iff h e).mpr (Or.inl ⟨hne, he⟩))
  change Lists (fun e => e = refBody defaultNS k ∨ Held (deliver seen n) J e) _
  rcases cached_handle h m hk with ⟨hop, heq, -⟩ | ⟨hop, -, heq⟩ | ⟨hop, -, heq, -⟩
  · rw [heq]
    obtain ⟨es, henc, hes⟩ := hold
    refine ⟨es, henc, fun e he => ?_⟩
    by_cases hne : e = n.subject.entry
    · subst hne
      refine (hes _ he).imp_right (fun hheld => ?_)
      obtain ⟨s, hs, hj⟩ := (held_subject_iff h).mp hheld
      obtain ⟨hn, hun⟩ := delete_of_no_op hk hop hs (hJ s hj)
      have hnot := ht.delete s hn hun (hJ s hj)
      rw [henc.pieces_eq] at hnot
      rw [hn] at he
      exact absurd he hnot
    · exact hother e (hes e he) hne
  · have hself : Held (deliver seen n) J n.subject.entry :=
      (held_deliver_iff h _).mpr (Or.inr ⟨rfl, ht.append hop⟩)
    rw [heq]
    refine (hold.mono (fun e he => ?_)).append hentry (Or.inr hself)
    by_cases hne : e = n.subject.entry
    · exact Or.inr (hne ▸ hself)
    · exact hother e he hne
  · rw [heq]
    exact (hold.remove hentry (ht.remove hop)).mono (fun e he => hother e he.1 he.2)

lemma backed_append {user : Str} (hu : Plain user) (hm : Backed J (servicePrefix ++ user) m seen)
    {m' : SyncMap} (hm' : m'.cached (servicePrefix ++ user) =
      appendVal (m.cached (servicePrefix ++ user)) (primaryOf user ++ [';'])) :
    Backed J (servicePrefix ++ user) m' seen := by
  have hold : Lists (fun e => e = refBody defaultNS (servicePrefix ++ user) ∨ Held seen J e)
      (m.cached (servicePrefix ++ user)) := hm
  have hnew := hold.append (isEntry_primaryOf hu) (Or.inl rfl)
  rw [← hm'] at hnew
  exact hnew

end

lemma slash_not_mem_user (ev : ProcessExec) : '/' ∉ ev.user := by
  unfold ProcessExec.user extractUsername
  split
  · rename_i x home user rest hsplit
    split_ifs
    · exact not_mem_of_mem_split (s := ev.cwd) (by rw [hsplit]; simp)
    · simp
  · simp

/-- The Services as the handlers know them, and the references that rest on them. -/
structure View (J : Service → Prop) (k : Str) (seen : Live) (c : Sys) : Prop where
  linked : Linked seen c.api.pending c.api.cluster.services
  backed : Backed J k c.serviceCache seen

/-- A step that leaves no reference behind under the key. -/
def TidyStep (J : Service → Prop) (k : Str) (c : Sys) : Action → Prop
  | .deliverService => ∀ n rest, c.api.pending = n :: rest → Tidy J k c.serviceCache n
  | .exec ev _ => servicePrefix ++ ev.user = k → ';' ∉ ev.user
  | _ => True

theorem view_step {J : Service → Prop} {k : Str} (hJ : ∀ s, J s → s.hostKey = k) (hk : k ≠ [])
    {c d : Sys} {a : Action} (ha : TidyStep J k c a) (h : c.step a = some d)
    (hc : ∃ seen, View J k seen c) : ∃ seen, View J k seen d := by
  obtain ⟨seen, hlinked, hbacked⟩ := hc
  have hpush : Reports c.api d.api → Linked seen d.api.pending d.api.cluster.services := by
    rintro ⟨ns, hp, hh, hr⟩
    rw [hp, ← hr]
    exact hlinked.push hh
  cases serviceStep h with
  | outside _ hreports hcache => exact ⟨seen, hpush hreports, by rw [hcache]; exact hbacked⟩
  | deliver n hcluster hpending hcache =>
    rw [hpending] at hlinked
    obtain ⟨hn, hrest⟩ := hlinked.pop
    refine ⟨deliver seen n, by rw [hcluster]; exact hrest, ?_⟩
    rw [hcache]
    exact backed_handle hJ hk hn (ha n _ hpending) hbacked
  | exec ev verdicts hd =>
    subst hd
    refine ⟨seen, hpush (reports_exec c ev verdicts), ?_⟩
    by_cases hkey : k = servicePrefix ++ ev.user
    · subst hkey
      have hplain : Plain ev.user := ⟨slash_not_mem_user ev, ha rfl⟩
      rcases cached_handleProcessExec_self c.podIPCache ev (c.arm verdicts) c.serviceCache with
        hsame | happend
      · obtain ⟨es, henc, hes⟩ := hbacked
        exact ⟨es, by rw [← hsame] at henc; exact henc, hes⟩
      · exact backed_append hplain hbacked happend
    · obtain ⟨es, henc, hes⟩ := hbacked
      refine ⟨es, ?_, hes⟩
      have hsame : (c.exec ev verdicts).serviceCache.cached k = c.serviceCache.cached k :=
        cached_handleProcessExec _ _ _ _ hkey
      rw [hsame]
      exact henc

lemma view_init (J : Service → Prop) (k : Str) : View J k .empty Sys.init :=
  ⟨Linked.refl _, [], encodes_nil, by simp⟩

theorem view_run {J : Service → Prop} {k : Str} (hJ : ∀ s, J s → s.hostKey = k) (hk : k ≠ [])
    {as : List Action} {c : Sys} (hg : Guarded Sys.step (TidyStep J k) Sys.init as)
    (hr : run Sys.step Sys.init as = some c) : ∃ seen, View J k seen c :=
  run_invariant _ (fun _ _ _ hi ha h => view_step hJ hk ha h hi) ⟨_, view_init J k⟩ hg hr

end CMXSafe.Proofs
