import CMXSafe.Gateway.Init
import CMXSafe.Lib.Awk
import CMXSafe.Lib.Machines
import CMXSafe.Lib.Stores

/-!
# The user loop of the init container

What the loop sets up for each entry: an address on `lo`, a line of `/nssroot/etc/passwd`, a
home directory with an owner, and a password that admits no login. The shell runs with
`-eu`, so that a failed command and an unset parameter end the whole container.
-/

namespace CMXSafe.Gateway
open Strings Stores Machines Inet6

/-- The fields of a line of passwd that the loop reads. -/
structure PasswdLine where
  name : Str
  uid : Nat
  gid : Nat
  deriving DecidableEq, Repr

/-- What the loop has set up so far. -/
structure Setup where
  addresses : List Str := []
  passwd : List PasswdLine
  homes : Assoc Str (Nat × Nat) := []
  locked : List Str := []
  deriving DecidableEq, Repr

/-- What `useradd` answers for each name: the ids of the line that it appends, or `none` where
it fails and appends nothing. A line is appended for a new name, with a new uid. -/
structure Useradd (base : List PasswdLine) where
  ids : Str → Option (Nat × Nat)
  unused : ∀ {u i}, ids u = some i → u ∉ base.map PasswdLine.name
  fresh_base : ∀ {u i}, ids u = some i → i.1 ∉ base.map PasswdLine.uid
  fresh : ∀ {u v i j}, ids u = some i → ids v = some j → i.1 = j.1 → u = v

variable {base : List PasswdLine} (U : Useradd base)

def Useradd.line (u : Str) : Option PasswdLine := (U.ids u).map (fun i => ⟨u, i.1, i.2⟩)

/-- `useradd … "$u" || true`. -/
def useradd (u : Str) (passwd : List PasswdLine) : List PasswdLine := passwd ++ (U.line u).toList

variable {ν : Type} [DecidableEq ν] (round : ℚ → ν)

/-- The words that `awk -F: -v u="$u" '$1==u{print $3, $4}'` prints. -/
def awkIds (u : Str) (passwd : List PasswdLine) : List Nat :=
  (passwd.filter (fun l => Awk.same round l.name u)).flatMap (fun l => [l.uid, l.gid])

/-- One turn of the loop, `none` where the shell exits. -/
def addUser (s : Setup) (u : Str) : Option Setup :=
  let addresses := s.addresses ++ (addressBlock macGW u).toList
  let passwd := useradd U u s.passwd
  match awkIds round u passwd with
  | uid :: gid :: _ =>
    let homes := setKey u (uid, gid) s.homes
    -- `usermod` fails for a name without a line of its own
    if u ∈ passwd.map PasswdLine.name then some ⟨addresses, passwd, homes, s.locked ++ [u]⟩
    else none
  -- `$1` is not set
  | _ => none

/-- The loop over the entries, from the seeded files. -/
def addUsers (keys : List Str) : Option Setup :=
  run (addUser U round) { passwd := base } (glob keys)

/-- The entries whose turn begins, up to the one in which the shell exits. -/
def turns (s : Setup) : List Str → List Str
  | [] => []
  | u :: us =>
    u :: match addUser U round s u with
      | some t => turns t us
      | none => []

/-- The entries that get an address on `lo`, with the address. It is the first thing that a turn
sets up, so that an entry gets it even if the shell exits in its turn. -/
def initAddresses (keys : List Str) : List (Str × List Nat) :=
  (turns U round { passwd := base } (glob keys)).filterMap (fun u =>
    ((addressBlock macGW u).bind parse).map (fun a => (u, a)))

end CMXSafe.Gateway
