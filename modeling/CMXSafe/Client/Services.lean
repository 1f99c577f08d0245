import CMXSafe.Client.Informers

/-!
# The objects the controller writes

The north-south LoadBalancer Service, the EndpointSlice behind it and the east-west
ExternalName Service of a user.
-/

namespace CMXSafe
open Strings Stores

def buildPort (name : Str) (p : Nat) : ServicePort := ⟨name, p, .int p, .tcp⟩

def buildPortPatch (name : Str) (p : Nat) : ServicePortPatch := ⟨name, p, p, .tcp⟩

def buildEndpointPort (name : Str) (p : Nat) : EndpointPort := ⟨some name, some p, some .tcp⟩

/-- As an array element of a JSON merge patch, which is taken over as it stands. -/
def buildEndpointPortPatch (name : Str) (p : Nat) : EndpointPort := ⟨some name, some p, some .tcp⟩

/-! ## East-west service -/

/-- The name of a gateway pod below the headless service of the gateways. -/
def ewHost (ns ip : Str) : Str :=
  replaceAll ip ".".toList "-".toList ++ ".cmxsafe-gw.".toList ++ ns ++ ".svc.cluster.local".toList

def ewServicePatch (ns ip : Str) : ServicePatch := { externalName := some (ewHost ns ip) }

def patchEWService (ns user ip : Str) : Api → Option ApiError × Api :=
  Api.call (.patchService ns user (ewServicePatch ns ip))

def ewServiceBody (ns ip : Str) : ServiceBody where
  type := .externalName
  externalName := ewHost ns ip

def createEWService (ns user ip : Str) : Api → Option ApiError × Api :=
  Api.call (.createService ns user (ewServiceBody ns ip))

def handleEWService (ns user ip : Str) (a : Api) : Option ApiError × Api :=
  let r := patchEWService ns user ip a
  if isNotFound r.1 then createEWService ns user ip r.2 else r

/-! ## EndpointSlice helpers -/

def labelServiceName : Str := "kubernetes.io/service-name".toList

def sshPrimary : Str := "ssh-primary".toList
def sshSecondary : Str := "ssh-secondary".toList

def sliceName (user : Str) : Str := user ++ "-slice".toList

def freshSlice (label user ip : Str) : EndpointSlice where
  ns := defaultNS
  name := sliceName user
  labels := [(labelServiceName, label)]
  addressType := .ipv4
  endpoints := [⟨[ip]⟩]
  ports := [buildEndpointPort sshPrimary 22, buildEndpointPort sshSecondary 2222]

def createEndpointSlice (label user ip : Str) : Api → Option ApiError × Api :=
  Api.call (.createSlice (freshSlice label user ip))

def slicePatch (label ip : Str) : SlicePatch where
  labels := [(labelServiceName, some label)]
  endpoints := some [⟨[ip]⟩]
  ports := some
    [buildEndpointPortPatch sshPrimary 22, buildEndpointPortPatch sshSecondary 2222]

def patchEndpointSlice (ns name label ip : Str) : Api → Option ApiError × Api :=
  Api.call (.patchSlice ns name (slicePatch label ip))

/-! ## North-south service -/

def externalDNSAnnotation : Str := "external-dns.alpha.kubernetes.io/hostname".toList

/-- The patch that removes the host name of a Service, whatever it is. -/
def removeAnnotationPatch : ServicePatch := { annotations := [Prod.mk externalDNSAnnotation none] }

def removeNSServiceAnnotation (ns name : Str) : Api → Option ApiError × Api :=
  Api.call (.patchService ns name removeAnnotationPatch)

def nsServiceBody (pfx user suf : Str) : ServiceBody where
  annotations := [Prod.mk externalDNSAnnotation (pfx ++ user ++ suf)]
  labels := [("cmxsafe.io/managed".toList, "true".toList)]
  type := .loadBalancer
  ports := [buildPort sshPrimary 22, buildPort sshSecondary 2222]

def createNSService (pfx user suf : Str) : Api → Option ApiError × Api :=
  Api.call (.createService defaultNS (pfx ++ user) (nsServiceBody pfx user suf))

def patchNSService (ns name pfx user suf : Str) : Api → Option ApiError × Api :=
  Api.call (.patchService ns name
    { annotations := [Prod.mk externalDNSAnnotation (some (pfx ++ user ++ suf))]
      type := some .loadBalancer
      clearSelector := true
      ports := [buildPortPatch sshPrimary 22, buildPortPatch sshSecondary 2222] })

/-- The loop of `handleNSService` over the cached entries: takes the host name off every
Service listed besides the primary and keeps the entries for which that failed. -/
def removeDuplicates (primary : Str) : List Str → Api → List Str × Api
  | [], a => ([], a)
  | e :: entries, a =>
    if e = [] ∨ e = primary then removeDuplicates primary entries a
    else
      match splitN e '/' 2 with
      | [ns, name] =>
        let r := removeNSServiceAnnotation ns name a
        let tmp := removeDuplicates primary entries r.2
        if r.1.isSome then (e :: tmp.1, tmp.2) else tmp
      | _ => removeDuplicates primary entries a

/-- The label of the north-south Service of a user, empty where the function gives up,
with the server and `serviceCache` afterwards. -/
def handleNSService (pfx user suf : Str) (a : Api) (serviceCache : SyncMap) :
    Str × Api × SyncMap :=
  let key := pfx ++ user
  let raw := serviceCache.loadOrStore key []
  let list := trimSuffix raw.1 [';']
  let primary := refBody defaultNS (pfx ++ user)
  let kept := removeDuplicates primary (split list ';') a
  if kept.1.length = 0 then
    let created := createNSService pfx user suf kept.2
    (pfx ++ user, created.2, appendToServiceCache raw.2 key (primary ++ [';']))
  else if kept.1 = [primary] then
    match splitN primary '/' 2 with
    | [ns, name] => (name, (patchNSService ns name pfx user suf kept.2).2, raw.2)
    | _ => ([], kept.2, raw.2)
  else ([], kept.2, raw.2)

end CMXSafe
