import CMXSafe.Proofs.Events

/-!
# What one step of the system can do

A step touches the Pods and their watch, or the Services and theirs: it reports a change,
delivers the oldest report, or handles an event.
-/

namespace CMXSafe.Proofs
open Strings Stores Machines

inductive PodStep (c d : Sys) : Action → Prop
  | idle {a : Action} (ha : a ≠ .deliverPod) (hpods : d.pods = c.pods)
    (hpending : d.podPending = c.podPending) (hcache : d.podIPCache = c.podIPCache) : PodStep c d a
  | change {a : Action} (ha : a ≠ .deliverPod) (n : Notification Pod) (hn : Admits c.pods n)
    (hns : n.subject.ns = defaultNS ∨ c.pods.get n.subject.key = some n.subject)
    (hpods : d.pods = deliver c.pods n) (hpending : d.podPending = c.podPending ++ [n])
    (hcache : d.podIPCache = c.podIPCache) : PodStep c d a
  | deliver (n : Notification Pod) (hpods : d.pods = c.pods)
    (hpending : c.podPending = n :: d.podPending)
    (hcache : d.podIPCache = startPodInformer.handle c.podIPCache n) : PodStep c d .deliverPod

inductive ServiceStep (c d : Sys) : Action → Prop
  | outside {a : Action} (ha : a ≠ .deliverService) (hreports : Reports c.api d.api)
    (hcache : d.serviceCache = c.serviceCache) : ServiceStep c d a
  | deliver (n : Notification Service) (hcluster : d.api.cluster = c.api.cluster)
    (hpending : c.api.pending = n :: d.api.pending)
    (hcache : d.serviceCache = startServiceInformer.handle c.serviceCache n) :
    ServiceStep c d .deliverService
  | exec (ev : ProcessExec) (verdicts : Nat → Verdict) (hd : d = c.exec ev verdicts) :
    ServiceStep c d (.exec ev verdicts)

lemma reports_exec (c : Sys) (ev : ProcessExec) (verdicts : Nat → Verdict) :
    Reports c.api (c.exec ev verdicts).api :=
  reports_handleProcessExec c.podIPCache ev (c.arm verdicts) c.serviceCache

theorem podStep {c d : Sys} {a : Action} (h : c.step a = some d) : PodStep c d a := by
  cases a with
  | createService s | updateService s | deleteService k | deliverService =>
    simp only [Sys.step] at h
    split at h <;> cases h
    exact .idle (by simp) rfl rfl rfl
  | exec ev verdicts =>
    cases h
    exact .idle (by simp) rfl rfl rfl
  | createPod p =>
    simp only [Sys.step] at h
    split_ifs at h with hns
    split at h
    · rename_i hget
      cases h
      exact .change (by simp) (.add p) ⟨hget, fun o ho => by cases ho; rfl⟩ (Or.inl hns) rfl rfl rfl
    · cases h
  | updatePod p =>
    simp only [Sys.step] at h
    split at h
    · cases h
    · rename_i o hget
      cases h
      have hkey : o.key = p.key := c.pods.keyed _ _ hget
      have hself : c.pods.get o.key = some o := hkey ▸ hget
      exact .change (by simp) (.update o p) ⟨hself, fun q hq => by cases hq; exact hkey.symm⟩
        (Or.inr hself) rfl rfl rfl
  | deletePod k =>
    simp only [Sys.step] at h
    split at h
    · cases h
    · rename_i o hget
      cases h
      have hkey : o.key = k := c.pods.keyed _ _ hget
      subst hkey
      exact .change (by simp) (.delete o) ⟨hget, fun q hq => by cases hq⟩ (Or.inr hget) rfl rfl rfl
  | deliverPod =>
    simp only [Sys.step] at h
    split at h
    · cases h
    · rename_i n rest hpending
      cases h
      exact .deliver n rfl hpending rfl

theorem serviceStep {c d : Sys} {a : Action} (h : c.step a = some d) : ServiceStep c d a := by
  cases a with
  | createPod p =>
    simp only [Sys.step] at h
    split_ifs at h
    split at h <;> cases h
    exact .outside (by simp) (Reports.refl _) rfl
  | updatePod p | deletePod k | deliverPod =>
    simp only [Sys.step] at h
    split at h <;> cases h
    exact .outside (by simp) (Reports.refl _) rfl
  | exec ev verdicts =>
    cases h
    exact .exec ev verdicts rfl
  | createService s =>
    simp only [Sys.step] at h
    split at h
    · rename_i hget
      cases h
      exact .outside (by simp)
        ⟨[.add s], rfl, ⟨⟨hget, fun o ho => by cases ho; rfl⟩, trivial⟩, rfl⟩ rfl
    · cases h
  | updateService s =>
    simp only [Sys.step] at h
    split at h
    · cases h
    · rename_i o hget
      cases h
      have hkey : o.key = s.key := c.api.cluster.services.keyed _ _ hget
      refine .outside (by simp) ⟨_, rfl, ?_⟩ rfl
      by_cases hs : s = o
      · subst hs
        rw [if_pos rfl]
        exact ⟨trivial, (Store.put_eq_self hget).symm⟩
      · rw [if_neg hs]
        exact ⟨⟨⟨hkey ▸ hget, fun q hq => by cases hq; exact hkey.symm⟩, trivial⟩, rfl⟩
  | deleteService k =>
    simp only [Sys.step] at h
    split at h
    · cases h
    · rename_i o hget
      cases h
      have hkey : o.key = k := c.api.cluster.services.keyed _ _ hget
      subst hkey
      exact .outside (by simp)
        ⟨[.delete o], rfl, ⟨⟨hget, fun q hq => by cases hq⟩, trivial⟩, rfl⟩ rfl
  | deliverService =>
    simp only [Sys.step] at h
    split at h
    · cases h
    · rename_i n rest hpending
      cases h
      exact .deliver n rfl hpending rfl

end CMXSafe.Proofs
