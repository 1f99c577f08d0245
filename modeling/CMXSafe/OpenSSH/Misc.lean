import CMXSafe.Lib.Strings

/-!
# Words, ports and hosts of an sshd configuration

`misc.c`: a line is split into words with quotes and escapes, and a word of the form
`host:port` or `[host]:port` is taken apart.
-/

namespace CMXSafe.OpenSSH
open Strings

def isBlank (c : Char) : Bool := c = ' ' || c = '\t'

/-- What a backslash escapes; a blank only outside quotes. -/
def escapable (quote : Option Char) (c : Char) : Bool :=
  c = '\'' || c = '"' || c = '\\' || (quote = none && c = ' ')

/-- `argv_split` with `terminate_on_comment`. The first argument is the word being read with
the quote that is open in it, if any; the result is `none` where a quote is not closed. -/
def argvSplitFrom : Option (Option Char × Str) → Str → Option (List Str)
  | none, [] => some []
  | some (none, arg), [] => some [arg]
  | some (some _, _), [] => none
  | word, '\\' :: d :: s =>
    let (quote, arg) := word.getD (none, [])
    if escapable quote d then argvSplitFrom (some (quote, arg ++ [d])) s
    else argvSplitFrom (some (quote, arg ++ ['\\'])) (d :: s)
  | word, c :: s =>
    let (quote, arg) := word.getD (none, [])
    if word = none ∧ isBlank c then argvSplitFrom none s
    else if word = none ∧ c = '#' then some []
    else if quote = none ∧ isBlank c then (argvSplitFrom none s).map (arg :: ·)
    else if quote = none ∧ (c = '"' ∨ c = '\'') then argvSplitFrom (some (some c, arg)) s
    else if quote = some c then argvSplitFrom (some (none, arg)) s
    else argvSplitFrom (some (quote, arg ++ [c])) s

def argvSplit (s : Str) : Option (List Str) := argvSplitFrom none s

/-- The white space that `strtoll` skips. -/
def isCSpace (c : Char) : Bool := c = ' ' || (9 ≤ c.toNat && c.toNat ≤ 13)

/-- `strtonum`; what does not fit a `long long` is out of every range. -/
def strtonum (numstr : Str) (minval maxval : Int) : Option Int :=
  let s := numstr.dropWhile isCSpace
  let digits := if s.head? = some '-' ∨ s.head? = some '+' then s.tail else s
  if digits ≠ [] ∧ digits.all Char.isDigit then
    let n : Int := Nat.ofDigitChars 10 digits 0
    let ll := if s.head? = some '-' then -n else n
    if minval ≤ ll ∧ ll ≤ maxval then some ll else none
  else none

/-- `a2port`; `services` is `getservbyname` for TCP. -/
def a2port (services : Str → Option Int) (s : Str) : Option Int :=
  match strtonum s 0 65535 with
  | some port => some port
  | none => services s

def fwdPermitAnyPort : Int := 0

def permitopenPort (services : Str → Option Int) (p : Str) : Option Int :=
  if p = ['*'] then some fwdPermitAnyPort
  else
    match a2port services p with
    | some port => if 0 < port then some port else none
    | none => none

/-- `hpdelim2`: the field in front of the delimiter, what follows it, and the delimiter. -/
def hpdelim2 (s : Str) : Option (Str × Option Str × Option Char) :=
  if s.head? = some '[' ∧ ']' ∉ s then none
  else
    let n :=
      if s.head? = some '[' then (s.takeWhile (· ≠ ']')).length + 1
      else (s.takeWhile (fun c => c ≠ ':' && c ≠ '/')).length
    match s.drop n with
    | [] => some (s.take n, none, none)
    | d :: rest => if d = ':' ∨ d = '/' then some (s.take n, some rest, some d) else none

def hpdelim (s : Str) : Option (Str × Option Str) :=
  match hpdelim2 s with
  | some (host, rest, delim) => if delim = some '/' then none else some (host, rest)
  | none => none

def cleanhostname (host : Str) : Str :=
  if host.head? = some '[' ∧ host.getLast? = some ']' then host.tail.dropLast else host

end CMXSafe.OpenSSH
