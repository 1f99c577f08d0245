import CMXSafe.Lib.Strings

/-!
# The names that Kubernetes demands

Labels and subdomains as the API server checks them.
-/

namespace CMXSafe
open Strings

def lowerAlnum (c : Char) : Bool := c.isLower || c.isDigit

def labelChar (c : Char) : Bool := lowerAlnum c || c = '-'

/-- The first and the last character are alphanumeric. -/
def dnsLabel (s : Str) : Bool :=
  s ≠ [] && s.all labelChar && s.head?.all lowerAlnum && s.getLast?.all lowerAlnum

def isRFC1123Label (s : Str) : Bool := s.length ≤ 63 && dnsLabel s

def isRFC1035Label (s : Str) : Bool := isRFC1123Label s && s.head?.all Char.isLower

def isRFC1123Subdomain (s : Str) : Bool := s.length ≤ 253 && (split s '.').all dnsLabel

lemma not_mem_of_dnsLabel {s : Str} (h : dnsLabel s = true) {c : Char}
    (hc : labelChar c = false) : c ∉ s := by
  intro hm
  simp only [dnsLabel, Bool.and_eq_true, List.all_eq_true] at h
  rw [h.1.1.2 c hm] at hc
  cases hc

lemma dnsLabel_append {s t : Str} (hs : s ≠ []) (ht : t ≠ []) (hs' : s.all labelChar = true)
    (ht' : t.all labelChar = true) (hhead : s.head?.all lowerAlnum = true)
    (hlast : t.getLast?.all lowerAlnum = true) : dnsLabel (s ++ t) = true := by
  simp [dnsLabel, List.head?_append_of_ne_nil s hs, List.getLast?_append_of_ne_nil s ht, hs, hs',
    ht', hhead, hlast]

end CMXSafe
