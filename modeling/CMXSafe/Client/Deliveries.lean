import CMXSafe.Client.Informers
import CMXSafe.Kube.Watch

/-!
# What the handlers receive

A handler is given an `interface{}` and asserts its type. A deletion that the watch missed
arrives as a tombstone, which is no object of that type.
-/

namespace CMXSafe
open Stores

/-- What `DeleteFunc` is given. -/
inductive Deleted (ν : Type) where
  | object (o : ν)
  /-- `cache.DeletedFinalStateUnknown`, with the last known state or an older one. -/
  | finalStateUnknown (obj : ν)

namespace Deleted

variable {ν : Type}

def obj : Deleted ν → ν
  | object o => o
  | finalStateUnknown o => o

/-- The type assertion `o.(*T)`, which panics on a tombstone. -/
def assert : Deleted ν → Option ν
  | object o => some o
  | finalStateUnknown _ => none

end Deleted

inductive Delivery (ν : Type) where
  | add (o : ν)
  | update (old new : ν)
  | delete (o : Deleted ν)

namespace Delivery

variable {κ ν : Type} {key : ν → κ}

def notice : Delivery ν → Notification ν
  | add o => .add o
  | update old new => .update old new
  | delete o => .delete o.obj

/-- The handler's type assertion succeeds. -/
def typed : Delivery ν → Bool
  | delete o => o.assert.isSome
  | _ => true

/-- A delivery that may come next where `live` has been delivered. A tombstone need not
hold the version that was delivered last. -/
def Allowed (live : Store key) : Delivery ν → Prop
  | delete (.finalStateUnknown o) => (live.get (key o)).isSome = true
  | d => Admits live d.notice

end Delivery

def startPodInformer.receive (podIPCache : SyncMap) : Delivery Pod → Option SyncMap
  | .add o => some (addFunc o podIPCache)
  | .update o n => some (updateFunc o n podIPCache)
  | .delete o => o.assert.map (fun p => deleteFunc p podIPCache)

def startServiceInformer.receive (serviceCache : SyncMap) : Delivery Service → Option SyncMap
  | .add o => some (addFunc o serviceCache)
  | .update o n => some (updateFunc o n serviceCache)
  | .delete o => o.assert.map (fun s => deleteFunc s serviceCache)

structure Caches where
  podIPCache : SyncMap
  serviceCache : SyncMap

inductive InformerEvent where
  | pod (d : Delivery Pod)
  | service (d : Delivery Service)

namespace Caches

def init : Caches := ⟨.empty, .empty⟩

/-- The caches after a delivery, or `none` where the handler panics. -/
def step (c : Caches) : InformerEvent → Option Caches
  | .pod d => (startPodInformer.receive c.podIPCache d).map (fun m => { c with podIPCache := m })
  | .service d =>
    (startServiceInformer.receive c.serviceCache d).map (fun m => { c with serviceCache := m })

end Caches

/-- Deliveries that the two watches can make, in any interleaving. -/
def Lawful (pods : Store Pod.key) (services : Store Service.key) : List InformerEvent → Prop
  | [] => True
  | .pod d :: es => d.Allowed pods ∧ Lawful (deliver pods d.notice) services es
  | .service d :: es => d.Allowed services ∧ Lawful pods (deliver services d.notice) es

lemma Delivery.Allowed.admits {κ ν : Type} {key : ν → κ} {live : Store key} {d : Delivery ν}
    (h : d.Allowed live) (ht : d.typed = true) : Admits live d.notice := by
  rcases d with o | ⟨o, n⟩ | (o | o)
  · exact h
  · exact h
  · exact h
  · cases ht

lemma startPodInformer.receive_eq (m : SyncMap) (d : Delivery Pod) :
    receive m d = if d.typed = true then some (handle m d.notice) else none := by
  rcases d with o | ⟨o, n⟩ | (o | o) <;> rfl

lemma startServiceInformer.receive_eq (m : SyncMap) (d : Delivery Service) :
    receive m d = if d.typed = true then some (handle m d.notice) else none := by
  rcases d with o | ⟨o, n⟩ | (o | o) <;> rfl

end CMXSafe
