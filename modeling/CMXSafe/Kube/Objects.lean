import CMXSafe.Lib.Stores
import CMXSafe.Lib.Strings

/-!
# Kubernetes objects

The fields of Services, EndpointSlices and Pods that the controller reads or writes.
-/

namespace CMXSafe
open Strings Stores

/-- Letters, digits, `-` and `.`: what object names are made of. -/
def nameChar (c : Char) : Bool := c.isAlphanum || c = '-' || c = '.'

/-- The part of the API server's name check that holds for every kind of object. Its
further rules, on case, length and first character, only reject more names. -/
def acceptsName (n : Str) : Bool := n ≠ [] && n.all nameChar

inductive ServiceType where
  | clusterIP
  | nodePort
  | loadBalancer
  | externalName
  deriving DecidableEq, Repr

inductive Protocol where
  | tcp
  | udp
  | sctp
  deriving DecidableEq, Repr

inductive IntOrString where
  | int (n : Nat)
  | str (s : Str)
  deriving DecidableEq, Repr

structure ServicePort where
  name : Str
  port : Nat
  targetPort : IntOrString
  protocol : Protocol
  deriving DecidableEq, Repr

/-- What a writer says about a Service besides its name. -/
structure ServiceBody where
  annotations : Assoc Str Str := []
  labels : Assoc Str Str := []
  type : ServiceType
  externalName : Str := []
  selector : Assoc Str Str := []
  ports : List ServicePort := []
  deriving DecidableEq, Repr

/-- A Service as the API server stores it. -/
structure Service extends ServiceBody where
  ns : Str
  name : Str
  named : acceptsName ns = true ∧ acceptsName name = true
  deriving DecidableEq

def Service.key (s : Service) : Str × Str := (s.ns, s.name)

inductive AddressType where
  | ipv4
  | ipv6
  | fqdn
  deriving DecidableEq, Repr

structure Endpoint where
  addresses : List Str
  deriving DecidableEq, Repr

/-- The fields are pointers in the source. -/
structure EndpointPort where
  name : Option Str
  port : Option Nat
  protocol : Option Protocol
  deriving DecidableEq, Repr

structure EndpointSlice where
  ns : Str
  name : Str
  labels : Assoc Str Str := []
  addressType : AddressType
  endpoints : List Endpoint := []
  ports : List EndpointPort := []
  deriving DecidableEq, Repr

def EndpointSlice.key (s : EndpointSlice) : Str × Str := (s.ns, s.name)

structure Pod where
  ns : Str
  name : Str
  podIP : Str
  named : acceptsName ns = true ∧ acceptsName name = true
  deriving DecidableEq

def Pod.key (p : Pod) : Str × Str := (p.ns, p.name)

lemma not_mem_of_acceptsName {n : Str} (h : acceptsName n = true) {c : Char}
    (hc : nameChar c = false) : c ∉ n := by
  intro hm
  simp only [acceptsName, Bool.and_eq_true, List.all_eq_true] at h
  rw [h.2 c hm] at hc
  exact absurd hc (by decide)

lemma ne_nil_of_acceptsName {n : Str} (h : acceptsName n = true) : n ≠ [] := by
  rintro rfl
  exact absurd h (by decide)

lemma slash_not_mem {n : Str} (h : acceptsName n = true) : '/' ∉ n :=
  not_mem_of_acceptsName h (by decide)

lemma semicolon_not_mem {n : Str} (h : acceptsName n = true) : ';' ∉ n :=
  not_mem_of_acceptsName h (by decide)

end CMXSafe
