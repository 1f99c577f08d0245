import CMXSafe.Client.Services
import CMXSafe.Lib.Machines

/-!
# The event loop

The body of the loop of `main`, and the controller in its cluster as a step machine: the
two informers deliver in order and at any delay, anybody else edits Services and Pods, and
exec events are handled one after the other.
-/

namespace CMXSafe
open Strings Stores Machines

structure ProcessExec where
  podName : Str
  podNS : Str
  cwd : Str
  deriving DecidableEq, Repr

def ProcessExec.user (ev : ProcessExec) : Str := extractUsername ev.cwd

/-- What is left of an event behind the two early exits: the two routes of the user. -/
def writeRoutes (ns user label ip : Str) (a : Api) : Api :=
  let r := patchEndpointSlice defaultNS (sliceName user) label ip a
  let b := if isNotFound r.1 then (createEndpointSlice label user ip r.2).2 else r.2
  (handleEWService ns user ip b).2

/-- One turn of the loop. The flag tells whether the event got past both `continue`s. -/
def handleProcessExec (podIPCache : SyncMap) (ev : ProcessExec) (a : Api)
    (serviceCache : SyncMap) : Bool × Api × SyncMap :=
  let ip := lookupPodIP podIPCache ev.podNS ev.podName
  let user := ev.user
  if ip = [] ∨ user = [] then (false, a, serviceCache)
  else
    let r := handleNSService servicePrefix user serviceSuffix a serviceCache
    if r.1 = [] then (false, r.2)
    else (true, writeRoutes ev.podNS user r.1 ip r.2.1, r.2.2)

/-- The controller, the API server and the watch queues between them. The Pods are those
that the pod watch selects. -/
structure Sys where
  api : Api
  pods : Store Pod.key
  podPending : List (Notification Pod)
  podIPCache : SyncMap
  serviceCache : SyncMap

def Sys.init : Sys where
  api := ⟨⟨.empty, .empty⟩, [], fun _ => .serve, []⟩
  pods := .empty
  podPending := []
  podIPCache := .empty
  serviceCache := .empty

/-- The controller at its start: the first list of each informer is still to be delivered. -/
def Sys.boot (services : List Service) (slices : Store EndpointSlice.key) (pods : List Pod) :
    Sys where
  api := ⟨⟨services.foldl Store.put .empty, slices⟩, services.map .add, fun _ => .serve, []⟩
  pods := pods.foldl Store.put .empty
  podPending := pods.map .add
  podIPCache := .empty
  serviceCache := .empty

/-- The cluster after an outside write of a Service, and the report of it. -/
def Sys.writeService (c : Sys) (s : Service) (n : List (Notification Service)) : Sys :=
  { c with
    api := { c.api with
      cluster := { c.api.cluster with services := c.api.cluster.services.put s }
      pending := c.api.pending ++ n } }

inductive Action where
  | createService (s : Service)
  | updateService (s : Service)
  | deleteService (k : Str × Str)
  | createPod (p : Pod)
  | updatePod (p : Pod)
  | deletePod (k : Str × Str)
  | deliverService
  | deliverPod
  | exec (ev : ProcessExec) (verdicts : Nat → Verdict)

def Sys.arm (c : Sys) (verdicts : Nat → Verdict) : Api :=
  { c.api with verdicts := verdicts, sent := [] }

def Sys.exec (c : Sys) (ev : ProcessExec) (verdicts : Nat → Verdict) : Sys :=
  let r := handleProcessExec c.podIPCache ev (c.arm verdicts) c.serviceCache
  { c with api := r.2.1, serviceCache := r.2.2 }

/-- Whether an exec event is handled to its end. -/
def Sys.handles (c : Sys) (ev : ProcessExec) (verdicts : Nat → Verdict) : Bool :=
  (handleProcessExec c.podIPCache ev (c.arm verdicts) c.serviceCache).1

def Sys.step (c : Sys) : Action → Option Sys
  | .createService s =>
    match c.api.cluster.services.get s.key with
    | none => some (c.writeService s [.add s])
    | some _ => none
  | .updateService s =>
    match c.api.cluster.services.get s.key with
    | none => none
    | some o => some (c.writeService s (if s = o then [] else [.update o s]))
  | .deleteService k =>
    match c.api.cluster.services.get k with
    | none => none
    | some o => some { c with
        api := { c.api with
          cluster := { c.api.cluster with services := c.api.cluster.services.erase k }
          pending := c.api.pending ++ [.delete o] } }
  | .createPod p =>
    if p.ns = defaultNS then
      match c.pods.get p.key with
      | none => some { c with pods := c.pods.put p, podPending := c.podPending ++ [.add p] }
      | some _ => none
    else none
  | .updatePod p =>
    match c.pods.get p.key with
    | none => none
    | some o => some { c with pods := c.pods.put p, podPending := c.podPending ++ [.update o p] }
  | .deletePod k =>
    match c.pods.get k with
    | none => none
    | some o => some { c with pods := c.pods.erase k, podPending := c.podPending ++ [.delete o] }
  | .deliverService =>
    match c.api.pending with
    | [] => none
    | n :: rest => some { c with
        api := { c.api with pending := rest }
        serviceCache := startServiceInformer.handle c.serviceCache n }
  | .deliverPod =>
    match c.podPending with
    | [] => none
    | n :: rest => some { c with
        podPending := rest
        podIPCache := startPodInformer.handle c.podIPCache n }
  | .exec ev verdicts => some (c.exec ev verdicts)

/-- The system once all that is pending has been delivered. -/
def Sys.drain (c : Sys) : Sys :=
  { c with
    api := { c.api with pending := [] }
    podPending := []
    podIPCache := c.podPending.foldl startPodInformer.handle c.podIPCache
    serviceCache := c.api.pending.foldl startServiceInformer.handle c.serviceCache }

end CMXSafe
