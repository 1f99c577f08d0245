import CMXSafe.Lib.Globs
import CMXSafe.Lib.Strings

/-!
# Wildcard matching in sshd

`match.c`: patterns with `*` and `?`, comma-separated lists of them, and the patterns for
users. Strings are lists of characters without the final NUL.
-/

namespace CMXSafe.OpenSSH
open Strings Globs

/-- `match_pattern`. A run of asterisks is skipped one by one; behind it the text is tried at
every position that is left, or only where the next character of the pattern stands. -/
def matchPattern (s : Str) : Str → Bool
  | [] => s = []
  | ['*'] => true
  | '*' :: c :: pattern =>
    if c = '*' then matchPattern s (c :: pattern)
    else if c = '?' then s.tails.any (fun t => t ≠ [] && matchPattern t (c :: pattern))
    else s.tails.any (fun t => t.head? = some c && matchPattern t.tail pattern)
  | c :: pattern =>
    match s with
    | [] => false
    | x :: s => (c = '?' || c = x) && matchPattern s pattern

/-- The subpatterns of a list: what stands between the commas, without the empty one behind a
final comma. -/
def subpatterns (pattern : Str) : List Str :=
  let subs := split pattern ','
  if subs.getLast? = some [] then subs.dropLast else subs

def lowercase (s : Str) : Str := s.map Char.toLower

/-- A subpattern without the `!` that negates it. -/
def subBody (pattern : Str) : Str := if pattern.head? = some '!' then pattern.tail else pattern

/-- The buffer for a subpattern holds 1024 characters, one of them the NUL. -/
def subSize : Nat := 1024

def matchSubpatterns (string : Str) (dolower : Bool) : Bool → List Str → Int
  | gotPositive, [] => if gotPositive then 1 else 0
  | gotPositive, pattern :: subs =>
    let negated := pattern.head? = some '!'
    let sub := subBody pattern
    if subSize - 1 ≤ sub.length then 0
    else if matchPattern string (if dolower then lowercase sub else sub) then
      if negated then -1 else matchSubpatterns string dolower true subs
    else matchSubpatterns string dolower gotPositive subs

/-- `match_pattern_list`: -1 if a negated subpattern matches, 1 if another one does, else 0. -/
def matchPatternList (string pattern : Str) (dolower : Bool) : Int :=
  matchSubpatterns string dolower false (subpatterns pattern)

/-- `match_usergroup_pattern_list`. -/
def matchUsergroupPatternList (string pattern : Str) : Int :=
  matchPatternList string pattern false

/-- `match_hostname`. -/
def matchHostname (host pattern : Str) : Int := matchPatternList (lowercase host) pattern true

/-- `match_user`; the second argument answers `match_host_and_ip` for the connection. -/
def matchUser (user : Str) (matchHostAndIp : Str → Int) (pattern : Str) : Int :=
  if '@' ∈ pattern then
    if matchPattern user (pattern.takeWhile (· ≠ '@')) then
      matchHostAndIp (pattern.dropWhile (· ≠ '@')).tail
    else 0
  else if matchPattern user pattern then 1 else 0

/-- What a character of a pattern stands for. -/
def piece : Char → Piece Char
  | '*' => .many
  | '?' => .one
  | c => .lit c

example : matchPattern "a1883b".toList "*18?3*".toList = true := by decide

end CMXSafe.OpenSSH
