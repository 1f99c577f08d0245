import CMXSafe.Lib.Inet6

/-!
# The gateway's init loop

How the init container of a gateway makes an address of a Secret key whose name is a MAC, and
the address that `get_vip` of the endpoints computes.
-/

namespace CMXSafe.Gateway
open Strings Inet6

def macGW : Str := "2001:0242:6392:f935".toList

/-- `tr '[:upper:]' '[:lower:]'`. -/
def lower (s : Str) : Str := s.map Char.toLower

/-- `sed 's/[:.\-]//g'`; in a bracket expression the backslash stands for itself. -/
def dropSeparators (s : Str) : Str := s.filter (fun c => c ∉ [':', '.', '\\', '-'])

/-- The value of `mac` for an entry. -/
def normalise (u : Str) : Str := dropSeparators (lower u)

/-- The pattern of the `case`: twelve characters from `[0-9a-f]`. -/
def isMac (mac : Str) : Bool := mac.length = 12 && mac.all lowerHex

/-- `sed 's/.\{4\}/&:/g'`. -/
def colonEvery4 : Str → Str
  | a :: b :: c :: d :: s => a :: b :: c :: d :: ':' :: colonEvery4 s
  | s => s

/-- The interface identifier of a MAC: `fffe` is put into its middle, the result is grouped
by four, and the last colon is taken off. -/
def iid (mac : Str) : Str :=
  let left := mac.take 6
  let right := (mac.drop 6).take 6
  let eui64 := left ++ "fffe".toList ++ right
  trimSuffix (colonEvery4 eui64) [':']

/-- The address block of the loop for any value of `MAC_GW`: the text that `ip -6 addr replace`
is given, `none` where it reports that it skips the entry. -/
def addressBlock (macGW u : Str) : Option Str :=
  if isMac (normalise u) then some (macGW ++ ':' :: iid (normalise u)) else none

/-- `/authorized_keys/*` does not match names with a leading dot. -/
def glob (keys : List Str) : List Str := keys.filter (fun u => u.head? ≠ some '.')

/-- What the loop makes of an account with this name; an account is skipped by the `case`, or
because the glob does not match its file. -/
def initAddress (macGW u : Str) : Option Str := (glob [u]).head?.bind (addressBlock macGW)

/-- What bash's `echo` takes for options. -/
def isEchoOption : Str → Bool
  | '-' :: o => o ≠ [] && o.all (fun c => c ∈ ['n', 'e', 'E'])
  | _ => false

/-- `echo -n "$s"`. -/
def echoN (s : Str) : Str := if isEchoOption s then [] else s

/-- `get_vip` of the endpoints; `none` where it reports an invalid MAC. -/
def get_vip (pfx mac : Str) : Option Str :=
  let mac := dropSeparators (lower (echoN mac))
  if isMac mac then
    let pfx := if hasSuffix pfx [':'] then pfx else pfx ++ [':']
    some (pfx ++ iid mac)
  else none

end CMXSafe.Gateway
