import CMXSafe.Client.Services
import CMXSafe.Lib.Machines

/-!
# The two goroutines

The callbacks of the informer and the calls of `handleNSService` in the main loop, with
every operation on `serviceCache` as one atomic step: an update is a `Load` and, unless
there is nothing to write, a `Store` or `Delete` some time later.
-/

namespace CMXSafe
open Strings Stores

/-- The write that an update makes after its `Load` has returned `read`. -/
def CacheOp.write : CacheOp → Option Str → Option (SyncMap → SyncMap)
  | .append key val, none => some (fun serviceCache => serviceCache.store key val)
  | .append key val, some cur =>
    if !contains cur val then some (fun serviceCache => serviceCache.store key (cur ++ val))
    else none
  | .remove _ _, none => none
  | .remove key val, some cur =>
    let newVal := replaceAll cur val []
    if trimSpace newVal = [] then some (fun serviceCache => serviceCache.delete key)
    else some (fun serviceCache => serviceCache.store key newVal)

/-- What a goroutine still has to do: an update, or a call of `handleNSService` that finds
the API server in the given state. -/
inductive Work where
  | op (o : CacheOp)
  | nsCall (user : Str) (api : Api)

structure Thread where
  todo : List Work
  /-- The update under way, with what it has loaded. -/
  loaded : Option (CacheOp × Option Str)

/-- The update at the end of `handleNSService`. -/
def nsAppend (user : Str) : CacheOp :=
  .append (servicePrefix ++ user) (refBody defaultNS (servicePrefix ++ user) ++ [';'])

/-- The entries that `handleNSService` keeps if it reads `raw`. -/
def keptEntries (user raw : Str) (api : Api) : List Str :=
  (removeDuplicates (refBody defaultNS (servicePrefix ++ user))
    (split (trimSuffix raw [';']) ';') api).1

def Thread.step (t : Thread) (serviceCache : SyncMap) : Option (Thread × SyncMap) :=
  match t.loaded with
  | some (o, read) =>
    some ({ t with loaded := none },
      match o.write read with
      | some w => w serviceCache
      | none => serviceCache)
  | none =>
    match t.todo with
    | [] => none
    | .op o :: rest =>
      match o.write (serviceCache.load o.key) with
      | none => some (⟨rest, none⟩, serviceCache)
      | some _ => some (⟨rest, some (o, serviceCache.load o.key)⟩, serviceCache)
    | .nsCall user api :: rest =>
      let raw := serviceCache.loadOrStore (servicePrefix ++ user) []
      if (keptEntries user raw.1 api).length = 0 then
        some (⟨.op (nsAppend user) :: rest, none⟩, raw.2)
      else some (⟨rest, none⟩, raw.2)

def Thread.idle (t : Thread) : Bool := t.todo.isEmpty && t.loaded.isNone

inductive Goroutine where
  | informer
  | main
  deriving DecidableEq, Repr

structure Conc where
  cache : SyncMap
  threads : Goroutine → Thread

/-- The goroutines at the start of a sequence of callbacks and one of calls. -/
def Conc.start (cache : SyncMap) (callbacks : List (Notification Service))
    (calls : List (Str × Api)) : Conc where
  cache := cache
  threads
    | .informer => ⟨(callbacks.flatMap startServiceInformer.cacheOps).map .op, none⟩
    | .main => ⟨calls.map (fun c => .nsCall c.1 c.2), none⟩

def Conc.step (c : Conc) (g : Goroutine) : Option Conc :=
  ((c.threads g).step c.cache).map (fun r => ⟨r.2, Function.update c.threads g r.1⟩)

/-- The update that the next step of `g` begins. -/
def Conc.begins (c : Conc) (g : Goroutine) : Option (Goroutine × CacheOp) :=
  match (c.threads g).loaded, (c.threads g).todo with
  | none, .op o :: _ => some (g, o)
  | _, _ => none

def Conc.Done (c : Conc) : Prop :=
  (c.threads .informer).idle = true ∧ (c.threads .main).idle = true

instance (c : Conc) : Decidable c.Done :=
  inferInstanceAs (Decidable (_ ∧ _))

/-- If `g` is about to write, the string under its key is still the one it has read. -/
def Fresh (c : Conc) (g : Goroutine) : Prop :=
  ∀ x ∈ (c.threads g).loaded, c.cache.cached x.1.key = x.2.getD []

instance (c : Conc) (g : Goroutine) : Decidable (Fresh c g) :=
  inferInstanceAs (Decidable (∀ x ∈ (c.threads g).loaded, _))

end CMXSafe
