import CMXSafe.Client.Services
import CMXSafe.Lib.GoSlices

/-!
# The loop of `handleNSService` on its array

`tmp := entries[:0]` shares its array with the slice that the loop ranges over.
-/

namespace CMXSafe
open Strings GoSlices

/-- One turn of the loop: whether the entry is appended to `tmp`, and the server afterwards. -/
def visitEntry (primary e : Str) (a : Api) : Bool × Api :=
  if e = [] ∨ e = primary then (false, a)
  else
    match splitN e '/' 2 with
    | [ns, name] =>
      let r := removeNSServiceAnnotation ns name a
      (r.1.isSome, r.2)
    | _ => (false, a)

/-- The loop, with `entries = tmp` behind it. -/
def filterEntries (primary : Str) (entries : List Str) (a : Api) : List Str × Api :=
  let l := filterLoop (visitEntry primary) entries.length 0 ⟨entries, .shared 0, a⟩
  (l.tmp.elems l.mem, l.state)

end CMXSafe
