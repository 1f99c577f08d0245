import CMXSafe.Kube.Objects
import CMXSafe.Lib.Tables

/-!
# The API server

A call is served, refused, or served with its reply lost; the controller only sees the
error. Writes that change a Service are reported to the watchers in the order in which
they are made. A strategic merge patch merges the ports of a Service by port number, a
JSON merge patch replaces arrays.
-/

namespace CMXSafe
open Strings Stores Tables

inductive ApiError where
  | notFound
  | alreadyExists
  | other
  deriving DecidableEq, Repr

def isNotFound (e : Option ApiError) : Bool := e = some .notFound

/-- What a watch delivers about one object. -/
inductive Notification (α : Type) where
  | add (o : α)
  | update (old new : α)
  | delete (o : α)

structure ServicePortPatch where
  name : Str
  port : Nat
  targetPort : Nat
  protocol : Protocol

/-- A strategic merge patch of a Service. In `annotations`, `none` is a JSON `null`. -/
structure ServicePatch where
  annotations : List (Str × Option Str) := []
  type : Option ServiceType := none
  clearSelector : Bool := false
  ports : List ServicePortPatch := []
  externalName : Option Str := none

structure SlicePatch where
  labels : List (Str × Option Str) := []
  endpoints : Option (List Endpoint) := none
  ports : Option (List EndpointPort) := none

def mergeEntry (m : Assoc Str Str) (e : Str × Option Str) : Assoc Str Str :=
  match e.2 with
  | some v => setKey e.1 v m
  | none => eraseKey e.1 m

def mergeMap (m : Assoc Str Str) (es : List (Str × Option Str)) : Assoc Str Str :=
  es.foldl mergeEntry m

def ServicePortPatch.toPort (p : ServicePortPatch) : ServicePort :=
  ⟨p.name, p.port, .int p.targetPort, p.protocol⟩

/-- The merge key of Service ports is the port number. -/
def ServicePatch.apply (p : ServicePatch) (s : Service) : Service :=
  { s with
    annotations := mergeMap s.annotations p.annotations
    type := p.type.getD s.type
    selector := if p.clearSelector then [] else s.selector
    ports := mergeRows ServicePort.port (p.ports.map ServicePortPatch.toPort) s.ports
    externalName := p.externalName.getD s.externalName }

def SlicePatch.apply (p : SlicePatch) (s : EndpointSlice) : EndpointSlice :=
  { s with
    labels := mergeMap s.labels p.labels
    endpoints := p.endpoints.getD s.endpoints
    ports := p.ports.getD s.ports }

structure Cluster where
  services : Store Service.key
  slices : Store EndpointSlice.key

inductive Request where
  | patchService (ns name : Str) (patch : ServicePatch)
  | createService (ns name : Str) (body : ServiceBody)
  | patchSlice (ns name : Str) (patch : SlicePatch)
  | createSlice (slice : EndpointSlice)

/-- The effect of a request, with the notifications it gives rise to. A patch that
changes nothing is not reported. -/
def Request.serve (c : Cluster) :
    Request → Except ApiError (Cluster × List (Notification Service))
  | .patchService ns name patch =>
    match c.services.get (ns, name) with
    | none => .error .notFound
    | some s =>
      .ok ({ c with services := c.services.put (patch.apply s) },
        if patch.apply s = s then [] else [.update s (patch.apply s)])
  | .createService ns name body =>
    if (c.services.get (ns, name)).isSome then .error .alreadyExists
    else if h : acceptsName ns = true ∧ acceptsName name = true then
      let s : Service := { body with ns := ns, name := name, named := h }
      .ok ({ c with services := c.services.put s }, [.add s])
    else .error .other
  | .patchSlice ns name patch =>
    match c.slices.get (ns, name) with
    | none => .error .notFound
    | some s => .ok ({ c with slices := c.slices.put (patch.apply s) }, [])
  | .createSlice s =>
    if (c.slices.get s.key).isSome then .error .alreadyExists
    else if acceptsName s.ns ∧ acceptsName s.name then
      .ok ({ c with slices := c.slices.put s }, [])
    else .error .other

/-- What becomes of one call. -/
inductive Verdict where
  | serve
  | refuse (e : ApiError)
  | loseReply (e : ApiError)

/-- A request that was sent, what became of it, and the cluster it found. -/
structure Sent where
  request : Request
  verdict : Verdict
  before : Cluster

/-- Whether the controller saw an error. -/
def Sent.failed (x : Sent) : Bool :=
  match x.verdict, x.request.serve x.before with
  | .serve, .ok _ => false
  | _, _ => true

/-- The API server as the controller meets it. -/
structure Api where
  cluster : Cluster
  /-- The changes of Services that no handler has seen yet. -/
  pending : List (Notification Service)
  /-- What becomes of the calls to come. -/
  verdicts : Nat → Verdict
  sent : List Sent

def Api.receive (r : Request) (a : Api) : Api :=
  { a with
    verdicts := fun n => a.verdicts (n + 1)
    sent := a.sent ++ [⟨r, a.verdicts 0, a.cluster⟩] }

def Api.commit (a : Api) (effect : Cluster × List (Notification Service)) : Api :=
  { a with cluster := effect.1, pending := a.pending ++ effect.2 }

/-- One call: the error the controller sees, and the server afterwards. -/
def Api.call (r : Request) (a : Api) : Option ApiError × Api :=
  match a.verdicts 0, r.serve a.cluster with
  | .refuse e, _ => (some e, a.receive r)
  | .serve, .error e => (some e, a.receive r)
  | .serve, .ok effect => (none, (a.receive r).commit effect)
  | .loseReply e, .error _ => (some e, a.receive r)
  | .loseReply e, .ok effect => (some e, (a.receive r).commit effect)

def Api.Healthy (a : Api) : Prop := ∀ n, a.verdicts n = .serve

lemma Api.Healthy.receive {a : Api} (h : a.Healthy) (r : Request) : (a.receive r).Healthy :=
  fun n => h (n + 1)

lemma Api.Healthy.commit {a : Api} (h : a.Healthy)
    (effect : Cluster × List (Notification Service)) : (a.commit effect).Healthy := h

end CMXSafe
