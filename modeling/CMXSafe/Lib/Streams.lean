import Mathlib.Algebra.GroupWithZero.Nat
import Mathlib.Data.List.Basic
import Mathlib.Logic.Relation
import Mathlib.Tactic.Common

/-!
# Streams with credit

Two ends exchange symbols over a FIFO link in each direction. An end sends what it has taken
from its source as far as it has credit, gets credit back as the peer gives the symbols to its
sink, announces the end of its source, and closes once it is done with both directions.
-/

namespace Streams
open Relation

inductive Msg (α : Type) where
  | opened (window limit : Nat)
  | data (bs : List α)
  | credit (n : Nat)
  | eof
  | close

/-- The state of one direction at an end. -/
inductive Half where
  | opened
  | draining
  | closed
  deriving DecidableEq

/-- An end: what it has taken and still has to send is its input, what it has received and
still has to give is its output. -/
structure End (α : Type) where
  accepted : Bool
  inState : Half := .opened
  outState : Half := .opened
  eofSent : Bool := false
  eofRcvd : Bool := false
  closeSent : Bool := false
  closeRcvd : Bool := false
  freed : Bool := false
  input : List α := []
  output : List α := []
  taken : List α := []
  given : List α := []
  credit : Nat
  packet : Nat
  window : Nat
  consumed : Nat := 0
  capacity : Nat
  limit : Nat

variable {α : Type}

/-- What an end does on its own, with the messages that it sends; its sink may fail or not. -/
inductive Local (fails : Prop) (e : End α) : List (Msg α) → End α → Prop where
  | take (bs : List α) (h : e.inState = .opened) :
      Local fails e [] { e with input := e.input ++ bs, taken := e.taken ++ bs }
  | finish (h : e.inState = .opened) : Local fails e [] { e with inState := .draining }
  | give (n : Nat) (h : e.outState ≠ .closed) (hn : n ≤ e.output.length) :
      Local fails e [] { e with
        output := e.output.drop n
        given := e.given ++ e.output.take n
        consumed := e.consumed + n }
  | fail (hf : fails) (h : e.outState ≠ .closed) :
      Local fails e [] { e with output := [], outState := .closed }
  | drained (h : e.outState = .draining) (ho : e.output = []) :
      Local fails e [] { e with outState := .closed }
  | refill (hs : e.closeSent = false) :
      Local fails e [.credit e.consumed] { e with window := e.window + e.consumed, consumed := 0 }
  | send (bs rest : List α) (h : e.inState ≠ .closed) (hi : e.input = bs ++ rest)
      (hc : bs.length ≤ e.credit) (hp : bs.length ≤ e.packet) :
      Local fails e [.data bs] { e with input := rest, credit := e.credit - bs.length }
  | eof (h : e.inState = .draining) (hi : e.input = [] ∨ e.closeRcvd = true) :
      Local fails e [.eof] { e with inState := .closed, eofSent := true }
  | abandon (h : e.inState = .opened) (hr : e.closeRcvd = true) :
      Local fails e [] { e with inState := .closed }
  | close (hi : e.inState = .closed) (ho : e.outState = .closed) (hs : e.closeSent = false) :
      Local fails e [.close] { e with closeSent := true }
  | free (hs : e.closeSent = true) (hr : e.closeRcvd = true) :
      Local fails e [] { e with freed := true }

/-- The output of an end that hears no more. -/
def Half.hangUp : Half → Half
  | .opened => .draining
  | h => h

/-- What an end makes of a message; symbols that it can give to nobody are used up at once. -/
def End.receive (e : End α) : Msg α → End α
  | .opened w l => { e with accepted := true, credit := w, packet := l }
  | .data bs =>
    if e.outState = .opened then
      { e with window := e.window - bs.length, output := e.output ++ bs }
    else { e with window := e.window - bs.length, consumed := e.consumed + bs.length }
  | .credit n => { e with credit := e.credit + n }
  | .eof => { e with eofRcvd := true, outState := e.outState.hangUp }
  | .close => { e with closeRcvd := true, outState := e.outState.hangUp }

/-- The message is one that the end expects. -/
def Fits (e : End α) : Msg α → Prop
  | .opened _ _ => e.accepted = false
  | .data bs => e.accepted = true ∧ bs.length ≤ e.window ∧ bs.length ≤ e.limit
  | _ => e.accepted = true

structure Link (α : Type) where
  near : End α
  far : End α
  toNear : List (Msg α) := []
  toFar : List (Msg α) := []

def Link.swap (l : Link α) : Link α := ⟨l.far, l.near, l.toFar, l.toNear⟩

/-- What an end does in a row. -/
inductive Does (fails : Prop) : End α → List (Msg α) → End α → Prop where
  | refl (e : End α) : Does fails e [] e
  | tail {e e' e'' : End α} {ms ms' : List (Msg α)} (h : Does fails e ms e')
      (hl : Local fails e' ms' e'') : Does fails e (ms ++ ms') e''

/-- A step of the near end. -/
inductive NearStep (fails : Prop) (l : Link α) : Link α → Prop where
  | act {ms : List (Msg α)} {e : End α} (ha : l.near.accepted = true)
      (h : Local fails l.near ms e) :
      NearStep fails l { l with near := e, toFar := l.toFar ++ ms }
  | receive {m : Msg α} {rest : List (Msg α)} (h : l.toNear = m :: rest) :
      NearStep fails l { l with near := l.near.receive m, toNear := rest }

/-- A step of either end. -/
inductive Step (nearFails farFails : Prop) (l l' : Link α) : Prop where
  | near (h : NearStep nearFails l l')
  | far (h : NearStep farFails l.swap l'.swap)

/-- The far end in the place of the near one. -/
lemma Step.swap {p q : Prop} {l l' : Link α} (h : Step p q l l') : Step q p l.swap l'.swap := by
  cases h with
  | near h => exact .far h
  | far h => exact .near h

/-! ## What is on its way -/

def Msg.bytes : Msg α → List α
  | .data bs => bs
  | _ => []

def Msg.amount : Msg α → Nat
  | .opened w _ => w
  | .credit n => n
  | _ => 0

def dataOf (q : List (Msg α)) : List α := q.flatMap Msg.bytes

def creditOf (q : List (Msg α)) : Nat := (q.map Msg.amount).sum

@[simp] lemma dataOf_nil : dataOf ([] : List (Msg α)) = [] := rfl

@[simp] lemma dataOf_cons (m : Msg α) (q : List (Msg α)) :
    dataOf (m :: q) = m.bytes ++ dataOf q := rfl

@[simp] lemma dataOf_append (q r : List (Msg α)) : dataOf (q ++ r) = dataOf q ++ dataOf r :=
  List.flatMap_append

@[simp] lemma creditOf_nil : creditOf ([] : List (Msg α)) = 0 := rfl

@[simp] lemma creditOf_cons (m : Msg α) (q : List (Msg α)) :
    creditOf (m :: q) = m.amount + creditOf q := by
  simp [creditOf]

@[simp] lemma creditOf_append (q r : List (Msg α)) :
    creditOf (q ++ r) = creditOf q + creditOf r := by
  simp [creditOf]

/-- A queue that leads a receiver with the first flags to a sender with the last: the message
that opens comes first, no data follows the end, nothing follows the close. -/
inductive Stream : Bool → Bool → Bool → List (Msg α) → Bool → Bool → Prop where
  | nil {e c} : Stream true e c [] e c
  | opened {w l q e c} (h : Stream true false false q e c) :
      Stream false false false (.opened w l :: q) e c
  | data {bs q e c} (h : Stream true false false q e c) :
      Stream true false false (.data bs :: q) e c
  | credit {n q e e' c} (h : Stream true e false q e' c) : Stream true e false (.credit n :: q) e' c
  | eof {q e c} (h : Stream true true false q e c) : Stream true false false (.eof :: q) e c
  | close {q e e' c} (h : Stream true e true q e' c) : Stream true e false (.close :: q) e' c

section
variable {a e c e' c' : Bool} {q : List (Msg α)}

/-- What follows in the sender's state prolongs the queue. -/
lemma Stream.append (h : Stream a e c q e' c') {r : List (Msg α)} {e'' c'' : Bool}
    (hr : Stream true e' c' r e'' c'') : Stream a e c (q ++ r) e'' c'' := by
  induction h with
  | nil => exact hr
  | opened _ ih => exact .opened (ih hr)
  | data _ ih => exact .data (ih hr)
  | credit _ ih => exact .credit (ih hr)
  | eof _ ih => exact .eof (ih hr)
  | close _ ih => exact .close (ih hr)

/-- Behind the close nothing comes. -/
lemma Stream.closed (h : Stream a e true q e' c') : q = [] ∧ e' = e ∧ c' = true := by
  cases h with
  | nil => exact ⟨rfl, rfl, rfl⟩

/-- Behind the end no data comes. -/
lemma Stream.ended (h : Stream a e c q e' c') (he : e = true) : dataOf q = [] ∧ e' = true := by
  induction h with
  | nil => exact ⟨rfl, he⟩
  | opened _ _ => cases he
  | data _ _ => cases he
  | credit _ ih => exact ih he
  | eof _ _ => cases he
  | close h _ => rw [(Stream.closed h).1]; exact ⟨rfl, (Stream.closed h).2.1.trans he⟩

lemma Stream.empty (h : Stream a e c ([] : List (Msg α)) e' c') :
    a = true ∧ e' = e ∧ c' = c := by
  cases h with
  | nil => exact ⟨rfl, rfl, rfl⟩

end

/-! ## The invariant -/

/-- What holds at each end. -/
structure Tidy (e : End α) : Prop where
  eof : e.eofSent = true → e.inState = .closed
  close : e.closeSent = true → e.inState = .closed ∧ e.outState = .closed
  closed : e.inState = .closed → e.eofSent = true ∨ e.closeRcvd = true
  draining : e.outState = .draining → e.eofRcvd = true
  ended : e.eofRcvd = true → e.outState ≠ .opened
  freed : e.freed = true → e.closeSent = true ∧ e.closeRcvd = true
  fresh : e.accepted = false → e.credit = 0
  budget : e.window + e.consumed + e.output.length ≤ e.capacity
  exact : e.outState ≠ .closed → e.window + e.consumed + e.output.length = e.capacity

/-- What holds of the direction from one end to the other, with the messages that are on their
way forth and back. -/
structure Flow (src dst : End α) (forth back : List (Msg α)) : Prop where
  stream : Stream dst.accepted dst.eofRcvd dst.closeRcvd forth src.eofSent src.closeSent
  window : src.credit + (dataOf forth).length + creditOf back = dst.window
  packets : ∀ bs, .data bs ∈ forth → bs.length ≤ dst.limit
  limit : src.accepted = true → src.packet = dst.limit
  grant : ∀ w n, .opened w n ∈ back → n = dst.limit
  whole : dst.outState ≠ .closed → dst.given ++ dst.output ++ dataOf forth ++ src.input = src.taken
  before : dst.given <+: src.taken
  lastByte : src.eofSent = true → dst.outState ≠ .closed → src.input = []

structure Sane (l : Link α) : Prop where
  near : Tidy l.near
  far : Tidy l.far
  forth : Flow l.near l.far l.toFar l.toNear
  back : Flow l.far l.near l.toNear l.toFar

lemma Sane.swap {l : Link α} (h : Sane l) : Sane l.swap := ⟨h.far, h.near, h.back, h.forth⟩

section
variable {fails : Prop} {e e' dst src : End α} {ms forth back : List (Msg α)}

lemma Local.tidy (h : Local fails e ms e') (ha : e.accepted = true) (ht : Tidy e) : Tidy e' := by
  have hfresh : e.accepted = false → ∀ n : Nat, n = 0 := fun h => by simp [ha] at h
  cases h with
  | take bs h =>
    exact { ht with }
  | finish h =>
    exact { ht with
      eof := fun he => by simp [ht.eof he] at h
      close := fun hc => by simp [(ht.close hc).1] at h
      closed := fun hc => nomatch hc }
  | give n h hn =>
    have hexact := ht.exact h
    have hlen : (e.output.drop n).length = e.output.length - n := List.length_drop
    exact { ht with
      budget := by dsimp only; omega
      exact := fun _ => by dsimp only; omega }
  | fail _ h =>
    have hbudget := ht.budget
    exact { ht with
      close := fun hc => ⟨(ht.close hc).1, rfl⟩
      draining := fun hd => nomatch hd
      ended := fun _ => Half.noConfusion
      budget := by dsimp only [List.length_nil]; omega
      exact := fun hne => absurd rfl hne }
  | drained h ho =>
    exact { ht with
      close := fun hc => ⟨(ht.close hc).1, rfl⟩
      draining := fun hd => nomatch hd
      ended := fun _ => Half.noConfusion
      exact := fun hne => absurd rfl hne }
  | refill hs =>
    have hbudget := ht.budget
    have hexact := ht.exact
    exact { ht with
      budget := by dsimp only; omega
      exact := fun hne => by have := hexact hne; dsimp only; omega }
  | send bs rest h hi hc hp =>
    exact { ht with fresh := fun hf => hfresh hf _ }
  | eof h hi =>
    exact { ht with
      eof := fun _ => rfl
      close := fun hc => ⟨rfl, (ht.close hc).2⟩
      closed := fun _ => Or.inl rfl }
  | abandon h hr =>
    exact { ht with
      eof := fun _ => rfl
      close := fun hc => ⟨rfl, (ht.close hc).2⟩
      closed := fun _ => Or.inr hr }
  | close hi ho hs =>
    exact { ht with
      close := fun _ => ⟨hi, ho⟩
      freed := fun hf => ⟨rfl, (ht.freed hf).2⟩ }
  | free hs hr =>
    exact { ht with freed := fun _ => ⟨hs, hr⟩ }

/-- What an end does keeps the direction in which it sends. -/
lemma Local.sending (h : Local fails e ms e') (ha : e.accepted = true) (ht : Tidy e)
    (hf : Flow e dst forth back) (hb : Flow dst e back forth) (hd : Tidy dst) :
    Flow e' dst (forth ++ ms) back := by
  -- a peer that has closed gives nothing to its sink any more
  have hpeer : e.closeRcvd = true → dst.outState = .closed := fun hr =>
    (hd.close (hr ▸ hb.stream).closed.2.2).2
  cases h with
  | take bs h =>
    rw [List.append_nil]
    refine { hf with
      whole := fun hne => ?_
      before := ?_
      lastByte := fun he => ?_ }
    · rw [← List.append_assoc, hf.whole hne]
    · exact hf.before.trans (List.prefix_append _ _)
    · simp [ht.eof he] at h
  | finish h => rw [List.append_nil]; exact { hf with }
  | give n h hn => rw [List.append_nil]; exact { hf with }
  | fail _ h => rw [List.append_nil]; exact { hf with }
  | drained h ho => rw [List.append_nil]; exact { hf with }
  | refill hs =>
    have hstream := hf.stream
    rw [hs] at hstream
    refine { hf with
      stream := ?_
      window := ?_
      packets := ?_
      whole := fun hne => ?_ }
    · exact hs ▸ hstream.append (.credit .nil)
    · simpa [Msg.bytes] using hf.window
    · simpa using hf.packets
    · simpa [Msg.bytes] using hf.whole hne
  | send bs rest h hi hc hp =>
    have hes : e.eofSent = false := Bool.eq_false_iff.mpr (fun he => h (ht.eof he))
    have hcs : e.closeSent = false := Bool.eq_false_iff.mpr (fun hcs => h (ht.close hcs).1)
    have hstream := hf.stream
    rw [hes, hcs] at hstream
    refine { hf with
      stream := ?_
      window := ?_
      packets := ?_
      whole := fun hne => ?_
      lastByte := fun he => ?_ }
    · show Stream _ _ _ _ e.eofSent e.closeSent
      rw [hes, hcs]
      exact hstream.append (.data .nil)
    · have hwindow := hf.window
      simp only [dataOf_append, dataOf_cons, Msg.bytes, dataOf_nil, List.append_nil,
        List.length_append]
      omega
    · intro bs' hmem
      rcases List.mem_append.mp hmem with hmem | hmem
      · exact hf.packets bs' hmem
      · obtain rfl : bs' = bs := by simpa using hmem
        exact hf.limit ha ▸ hp
    · have hwhole := hf.whole hne
      rw [hi] at hwhole
      simpa [Msg.bytes] using hwhole
    · simp [hes] at he
  | eof h hi =>
    have hes : e.eofSent = false := Bool.eq_false_iff.mpr (fun he => by simp [ht.eof he] at h)
    have hcs : e.closeSent = false :=
      Bool.eq_false_iff.mpr (fun hc => by simp [(ht.close hc).1] at h)
    have hstream := hf.stream
    rw [hes, hcs] at hstream
    refine { hf with
      stream := ?_
      window := ?_
      packets := ?_
      whole := fun hne => ?_
      lastByte := fun _ hne => ?_ }
    · exact hcs ▸ hstream.append (.eof .nil)
    · simpa [Msg.bytes] using hf.window
    · simpa using hf.packets
    · simpa [Msg.bytes] using hf.whole hne
    · exact hi.resolve_right (fun hr => hne (hpeer hr))
  | abandon h hr => rw [List.append_nil]; exact { hf with }
  | close hi ho hs =>
    have hstream := hf.stream
    rw [hs] at hstream
    refine { hf with
      stream := ?_
      window := ?_
      packets := ?_
      whole := fun hne => ?_ }
    · exact hstream.append (.close .nil)
    · simpa [Msg.bytes] using hf.window
    · simpa using hf.packets
    · simpa [Msg.bytes] using hf.whole hne
  | free hs hr => rw [List.append_nil]; exact { hf with }

/-- What an end does keeps the direction in which it receives. -/
lemma Local.receiving (h : Local fails e ms e') (hf : Flow src e forth back) :
    Flow src e' forth (back ++ ms) := by
  cases h with
  | take bs h => rw [List.append_nil]; exact { hf with }
  | finish h => rw [List.append_nil]; exact { hf with }
  | give n h hn =>
    rw [List.append_nil]
    have hwhole := hf.whole h
    refine { hf with whole := fun _ => ?_, before := ?_ }
    · rw [List.append_assoc e.given, List.take_append_drop]
      exact hwhole
    · have hgive : e.given ++ e.output.take n <+: e.given ++ e.output :=
        (List.prefix_append_right_inj _).mpr (List.take_prefix _ _)
      exact hgive.trans ⟨dataOf forth ++ src.input, by rw [← List.append_assoc]; exact hwhole⟩
  | fail _ h =>
    rw [List.append_nil]
    exact { hf with
      whole := fun hne => absurd rfl hne
      lastByte := fun _ hne => absurd rfl hne }
  | drained h ho =>
    rw [List.append_nil]
    exact { hf with
      whole := fun hne => absurd rfl hne
      lastByte := fun _ hne => absurd rfl hne }
  | refill hs =>
    refine { hf with window := ?_, grant := ?_ }
    · have hwindow := hf.window
      simp only [creditOf_append, creditOf_cons, Msg.amount, creditOf_nil]
      omega
    · simpa using hf.grant
  | send bs rest h hi hc hp =>
    refine { hf with window := ?_, grant := ?_ }
    · simpa [Msg.amount] using hf.window
    · simpa using hf.grant
  | eof h hi =>
    refine { hf with window := ?_, grant := ?_ }
    · simpa [Msg.amount] using hf.window
    · simpa using hf.grant
  | abandon h hr => rw [List.append_nil]; exact { hf with }
  | close hi ho hs =>
    refine { hf with window := ?_, grant := ?_ }
    · simpa [Msg.amount] using hf.window
    · simpa using hf.grant
  | free hs hr => rw [List.append_nil]; exact { hf with }

lemma Does.one (h : Local fails e ms e') : Does fails e ms e' := .tail (.refl e) h

lemma Does.trans {e'' : End α} {ms' : List (Msg α)} (h : Does fails e ms e')
    (h' : Does fails e' ms' e'') : Does fails e (ms ++ ms') e'' := by
  induction h' with
  | refl => rwa [List.append_nil]
  | tail _ hl ih => exact List.append_assoc ms _ _ ▸ .tail ih hl

lemma Local.accepted (h : Local fails e ms e') : e'.accepted = e.accepted := by
  cases h <;> rfl

lemma Does.accepted (h : Does fails e ms e') : e'.accepted = e.accepted := by
  induction h with
  | refl => rfl
  | tail _ hl ih => exact hl.accepted.trans ih

lemma Does.tidy (h : Does fails e ms e') (ha : e.accepted = true) (ht : Tidy e) : Tidy e' := by
  induction h with
  | refl => exact ht
  | tail h hl ih => exact hl.tidy (h.accepted.trans ha) ih

/-- What an end has announced stays as it is. -/
def SameSize (e e' : End α) : Prop := e'.capacity = e.capacity ∧ e'.limit = e.limit

lemma Local.sameSize (h : Local fails e ms e') : SameSize e e' := by
  cases h <;> exact ⟨rfl, rfl⟩

lemma Does.sameSize (h : Does fails e ms e') : SameSize e e' := by
  induction h with
  | refl => exact ⟨rfl, rfl⟩
  | tail _ hl ih => exact ⟨hl.sameSize.1.trans ih.1, hl.sameSize.2.trans ih.2⟩

lemma receive_sameSize (e : End α) (m : Msg α) : SameSize e (e.receive m) := by
  cases m with
  | data bs => rw [End.receive]; split_ifs <;> exact ⟨rfl, rfl⟩
  | _ => exact ⟨rfl, rfl⟩

lemma hangUp_eq_closed {h : Half} : h.hangUp = .closed ↔ h = .closed := by
  cases h <;> simp [Half.hangUp]

lemma hangUp_ne_opened (h : Half) : h.hangUp ≠ .opened := by
  cases h <;> simp [Half.hangUp]

lemma eq_draining {h : Half} (ho : h ≠ .opened) (hc : h ≠ .closed) : h = .draining := by
  cases h with
  | opened => exact absurd rfl ho
  | draining => rfl
  | closed => exact absurd rfl hc

variable {m : Msg α} {rest : List (Msg α)}

/-- An end expects every message that is on its way to it. -/
lemma Flow.fits (hf : Flow src e (m :: rest) back) : Fits e m := by
  have hwindow := hf.window
  have hpacket := hf.packets
  have hstream := hf.stream
  generalize ha : e.accepted = a at hstream
  generalize he : e.eofRcvd = r at hstream
  generalize hc : e.closeRcvd = c at hstream
  cases hstream with
  | opened _ => exact ha
  | data _ =>
    refine ⟨ha, ?_, hpacket _ List.mem_cons_self⟩
    simp only [dataOf_cons, Msg.bytes, List.length_append] at hwindow
    omega
  | credit _ => exact ha
  | eof _ => exact ha
  | close _ => exact ha

lemma Fits.accepted (h : Fits e m) : (e.receive m).accepted = true := by
  cases m with
  | opened w n => rfl
  | data bs => rw [End.receive]; split_ifs <;> exact h.1
  | _ => exact h

/-- Receiving keeps the direction in which an end sends. -/
lemma receive_sending (ht : Tidy e) (hf : Flow e dst forth (m :: rest))
    (hb : Flow dst e (m :: rest) forth) : Flow (e.receive m) dst forth rest := by
  have hfits := hb.fits
  have hwindow := hf.window
  rw [creditOf_cons] at hwindow
  have hgrant : ∀ w n, .opened w n ∈ rest → n = dst.limit := fun w n h =>
    hf.grant w n (List.mem_cons_of_mem _ h)
  cases m with
  | opened w n =>
    exact { hf with
      window := by have := ht.fresh hfits; simp only [Msg.amount, End.receive] at *; omega
      limit := fun _ => hf.grant w n List.mem_cons_self
      grant := hgrant }
  | data bs =>
    rw [End.receive]
    split_ifs
    · exact { hf with window := by simpa [Msg.amount] using hwindow, grant := hgrant }
    · exact { hf with window := by simpa [Msg.amount] using hwindow, grant := hgrant }
  | credit n =>
    exact { hf with
      window := by simp only [Msg.amount, End.receive] at *; omega
      grant := hgrant }
  | eof =>
    exact { hf with
      window := by simpa [Msg.amount, End.receive] using hwindow
      grant := hgrant }
  | close =>
    exact { hf with
      window := by simpa [Msg.amount, End.receive] using hwindow
      grant := hgrant }

/-- Receiving keeps the direction in which an end receives. -/
lemma receive_receiving (ht : Tidy e) (hf : Flow src e (m :: rest) back) :
    Flow src (e.receive m) rest back := by
  have hfits := hf.fits
  have hwindow := hf.window
  have hwhole := hf.whole
  have hstream := hf.stream
  have hpackets : ∀ bs, .data bs ∈ rest → bs.length ≤ e.limit := fun bs h =>
    hf.packets bs (List.mem_cons_of_mem _ h)
  rw [dataOf_cons] at hwindow hwhole
  generalize ha : e.accepted = a at hstream
  generalize he : e.eofRcvd = r at hstream
  generalize hc : e.closeRcvd = c at hstream
  cases hstream with
  | opened h =>
    exact { hf with stream := he ▸ hc ▸ h, window := hwindow, packets := hpackets, whole := hwhole }
  | @data bs _ _ _ h =>
    have hlen : bs.length ≤ e.window := hfits.2.1
    have hspent : src.credit + (dataOf rest).length + creditOf back = e.window - bs.length := by
      simp only [Msg.bytes, List.length_append] at hwindow
      omega
    rw [End.receive]
    split_ifs with ho
    · exact { hf with
        stream := ha ▸ he ▸ hc ▸ h
        window := hspent
        packets := hpackets
        whole := fun hne => by simpa [Msg.bytes] using hwhole hne }
    · -- an end that drains has heard the last of its peer
      exact { hf with
        stream := ha ▸ he ▸ hc ▸ h
        window := hspent
        packets := hpackets
        whole := fun hne => by simp [ht.draining (eq_draining ho hne)] at he }
  | credit h =>
    exact { hf with
      stream := ha ▸ he ▸ hc ▸ h, window := hwindow, packets := hpackets, whole := hwhole }
  | eof h =>
    exact { hf with
      stream := ha ▸ hc ▸ h
      window := hwindow
      packets := hpackets
      whole := fun hne => hwhole (fun h => hne (hangUp_eq_closed.mpr h))
      lastByte := fun hs hne => hf.lastByte hs (fun h => hne (hangUp_eq_closed.mpr h)) }
  | close h =>
    exact { hf with
      stream := ha ▸ he ▸ h
      window := hwindow
      packets := hpackets
      whole := fun hne => hwhole (fun h => hne (hangUp_eq_closed.mpr h))
      lastByte := fun hs hne => hf.lastByte hs (fun h => hne (hangUp_eq_closed.mpr h)) }

/-- No message is on its way to an end that is gone. -/
lemma Flow.not_freed (ht : Tidy e) (hf : Flow src e (m :: rest) back) : e.freed = false := by
  refine Bool.eq_false_iff.mpr (fun hfreed => ?_)
  have hstream := hf.stream
  rw [(ht.freed hfreed).2] at hstream
  exact List.cons_ne_nil _ _ hstream.closed.1

lemma receive_tidy (ht : Tidy e) (hs : Tidy src) (hf : Flow src e (m :: rest) back)
    (hb : Flow e src back (m :: rest)) : Tidy (e.receive m) := by
  have hfits := hf.fits
  cases m with
  | opened w n => exact { ht with fresh := fun h => nomatch h }
  | data bs =>
    have hbudget := ht.budget
    have hexact := ht.exact
    have hlen : bs.length ≤ e.window := hfits.2.1
    rw [End.receive]
    split_ifs with ho
    · exact { ht with
        budget := by simp only [List.length_append]; omega
        exact := fun hne => by
          have := hexact hne
          simp only [List.length_append]
          omega }
    · exact { ht with
        budget := by dsimp only; omega
        exact := fun hne => by have := hexact hne; dsimp only; omega }
  | credit n =>
    have ha : e.accepted = true := hfits
    exact { ht with fresh := fun h => absurd (ha.symm.trans h) (by decide) }
  | eof =>
    exact { ht with
      close := fun hc => ⟨(ht.close hc).1, hangUp_eq_closed.mpr (ht.close hc).2⟩
      draining := fun _ => rfl
      ended := fun _ => hangUp_ne_opened _
      exact := fun hne => ht.exact (fun h => hne (hangUp_eq_closed.mpr h)) }
  | close =>
    -- the peer has closed: it has seen the end of the stream through, or this end has closed
    have hended : e.outState ≠ .opened := by
      have hstream := hf.stream
      generalize ha : e.accepted = a at hstream
      generalize he : e.eofRcvd = r at hstream
      generalize hc : e.closeRcvd = c at hstream
      cases hstream with
      | close h =>
        obtain ⟨_, heof, hclose⟩ := h.closed
        rcases hs.closed (hs.close hclose).1 with hsent | hrcvd
        · exact ht.ended (he.trans (heof.symm.trans hsent))
        · have hclosed := (ht.close (hrcvd ▸ hb.stream).closed.2.2).2
          simp [hclosed]
    exact { ht with
      close := fun hc => ⟨(ht.close hc).1, hangUp_eq_closed.mpr (ht.close hc).2⟩
      closed := fun _ => Or.inr rfl
      draining := fun hd => ht.draining (eq_draining hended (fun h => by
        rw [End.receive, hangUp_eq_closed.mpr h] at hd
        cases hd))
      ended := fun _ => hangUp_ne_opened _
      freed := fun hfr => ⟨(ht.freed hfr).1, rfl⟩
      exact := fun hne => ht.exact (fun h => hne (hangUp_eq_closed.mpr h)) }

end

section
variable {p q : Prop} {l l' : Link α}

lemma Sane.near_step (h : Sane l) (hs : NearStep p l l') : Sane l' := by
  cases hs with
  | act ha hlocal =>
    exact ⟨hlocal.tidy ha h.near, h.far, hlocal.sending ha h.near h.forth h.back h.far,
      hlocal.receiving h.back⟩
  | receive hm =>
    obtain ⟨hnear, hfar, hforth, hback⟩ := h
    rw [hm] at hforth hback
    exact ⟨receive_tidy hnear hfar hback hforth, hfar, receive_sending hnear hforth hback,
      receive_receiving hnear hback⟩

/-- A step of either end keeps the invariant. -/
theorem Sane.step (h : Sane l) (hs : Step p q l l') : Sane l' := by
  cases hs with
  | near hs => exact h.near_step hs
  | far hs => exact (h.swap.near_step hs).swap

end

/-- The link behind the message that opens: the far end has accepted with its window and its
packet size. -/
def Link.start (window limit window' limit' : Nat) : Link α where
  near := { accepted := false, credit := 0, packet := 0, window, capacity := window, limit }
  far :=
    { accepted := true, credit := window, packet := limit, window := window',
      capacity := window', limit := limit' }
  toNear := [.opened window' limit']

lemma sane_start (window limit window' limit' : Nat) :
    Sane (Link.start window limit window' limit' : Link α) := by
  refine ⟨?_, ?_, ?_, ?_⟩
  · exact ⟨nofun, nofun, nofun, nofun, nofun, nofun, fun _ => rfl, by simp [Link.start],
      fun _ => by simp [Link.start]⟩
  · exact ⟨nofun, nofun, nofun, nofun, nofun, nofun, nofun, by simp [Link.start],
      fun _ => by simp [Link.start]⟩
  · refine ⟨.nil, ?_, ?_, nofun, ?_, fun _ => ?_, ?_, nofun⟩ <;>
      simp [Link.start, Msg.amount]
  · refine ⟨.opened .nil, ?_, ?_, fun _ => rfl, ?_, fun _ => ?_, ?_, nofun⟩ <;>
      simp [Link.start, Msg.bytes]

/-! ## Completeness -/

/-- All that one end has taken, and takes, the other has given. -/
def Complete (src dst : End α) : Prop :=
  dst.outState = .closed → dst.given = src.taken ∧ src.inState = .closed

section
variable {fails : Prop} {e e' dst src : End α} {ms forth back : List (Msg α)}

lemma Local.complete_sending (h : Local fails e ms e') (hc : Complete e dst) : Complete e' dst := by
  intro hclosed
  obtain ⟨hgiven, hin⟩ := hc hclosed
  cases h with
  | take bs h => simp [hin] at h
  | finish h => simp [hin] at h
  | eof h hi => simp [hin] at h
  | abandon h hr => simp [hin] at h
  | _ => exact ⟨hgiven, hin⟩

/-- Only an end whose sink fails loses anything. -/
lemma Local.complete_receiving (h : Local False e ms e') (ht : Tidy e) (hs : Tidy src)
    (hf : Flow src e forth back) (hc : Complete src e) : Complete src e' := by
  cases h with
  | fail hfail h => exact hfail.elim
  | give n h hn => exact fun hclosed => absurd hclosed h
  | drained h ho =>
    intro _
    have hne : e.outState ≠ .closed := by simp [h]
    obtain ⟨hnone, hsent⟩ := hf.stream.ended (ht.draining h)
    have hwhole := hf.whole hne
    rw [ho, hnone, hf.lastByte hsent hne, List.append_nil, List.append_nil, List.append_nil]
      at hwhole
    exact ⟨hwhole, hs.eof hsent⟩
  | _ => exact hc

lemma receive_frame (e : End α) (m : Msg α) :
    (e.receive m).inState = e.inState ∧ (e.receive m).taken = e.taken ∧
      (e.receive m).given = e.given := by
  cases m with
  | data bs => rw [End.receive]; split_ifs <;> exact ⟨rfl, rfl, rfl⟩
  | _ => exact ⟨rfl, rfl, rfl⟩

lemma receive_closed (e : End α) (m : Msg α) :
    (e.receive m).outState = .closed ↔ e.outState = .closed := by
  cases m with
  | data bs => rw [End.receive]; split_ifs <;> rfl
  | eof => exact hangUp_eq_closed
  | close => exact hangUp_eq_closed
  | _ => rfl

end

section
variable {p : Prop} {l l' : Link α}

lemma NearStep.complete_forth (hs : NearStep p l l') (hc : Complete l.near l.far) :
    Complete l'.near l'.far := by
  cases hs with
  | act _ hlocal => exact hlocal.complete_sending hc
  | receive _ =>
    intro hclosed
    rw [(receive_frame _ _).1, (receive_frame _ _).2.1]
    exact hc hclosed

lemma Sane.complete_back (h : Sane l) (hs : NearStep False l l') (hc : Complete l.far l.near) :
    Complete l'.far l'.near := by
  cases hs with
  | act _ hlocal => exact hlocal.complete_receiving h.near h.far h.back hc
  | receive _ =>
    intro hclosed
    rw [(receive_frame _ _).2.2]
    exact hc ((receive_closed _ _).mp hclosed)

/-- Where the sink of the far end never fails, nothing that the near end takes is lost. -/
theorem Sane.complete (h : Sane l) (hs : Step p False l l') (hc : Complete l.near l.far) :
    Complete l'.near l'.far := by
  cases hs with
  | near hs => exact hs.complete_forth hc
  | far hs => exact h.swap.complete_back hs hc

/-- With nothing on its way and nothing left to give, an end has all the room that its peer has
not got as credit used up, and not given back yet. -/
lemma Sane.idle (h : Sane l) (hn : l.toNear = []) (hf : l.toFar = [])
    (ho : l.far.output = []) (hne : l.far.outState ≠ .closed) :
    l.near.credit = l.far.window ∧ l.near.credit + l.far.consumed = l.far.capacity := by
  have hwindow := h.forth.window
  have hexact := h.far.exact hne
  rw [hn, hf, dataOf_nil, creditOf_nil, List.length_nil] at hwindow
  rw [ho, List.length_nil] at hexact
  omega

/-- With nothing on its way, an end that has something to send to an open peer may send, and the
peer may answer. -/
lemma Sane.waiting (h : Sane l) (hn : l.toNear = []) (hf : l.toFar = []) (hi : l.near.input ≠ [])
    (hne : l.far.outState ≠ .closed) :
    (l.near.accepted = true ∧ l.near.inState ≠ .closed ∧ l.near.closeSent = false ∧
        l.near.closeRcvd = false ∧ l.near.packet = l.far.limit) ∧
      l.far.accepted = true ∧ l.far.outState = .opened ∧ l.far.closeSent = false ∧
        l.far.closeRcvd = false := by
  obtain ⟨hnear, hfar, hforth, hback⟩ := h
  rw [hn, hf] at hforth hback
  have hsent : l.near.eofSent = false :=
    Bool.eq_false_iff.mpr (fun he => hi (hforth.lastByte he hne))
  have hfarSent : l.far.closeSent = false :=
    Bool.eq_false_iff.mpr (fun hc => hne (hfar.close hc).2)
  obtain ⟨hfarAccepted, heof, hclose⟩ := hforth.stream.empty
  obtain ⟨hnearAccepted, _, hfarClose⟩ := hback.stream.empty
  have hrcvd : l.near.closeRcvd = false := hfarClose ▸ hfarSent
  have hin : l.near.inState ≠ .closed := fun hc => by
    rcases hnear.closed hc with he | hr
    · simp [hsent] at he
    · simp [hrcvd] at hr
  have hnearSent : l.near.closeSent = false :=
    Bool.eq_false_iff.mpr (fun hc => hin (hnear.close hc).1)
  have hout : l.far.outState = .opened := by
    cases ho : l.far.outState with
    | opened => rfl
    | draining => simp [hfar.draining ho, hsent] at heof
    | closed => exact absurd ho hne
  exact ⟨⟨hnearAccepted, hin, hnearSent, hrcvd, hforth.limit hnearAccepted⟩, hfarAccepted, hout,
    hfarSent, hclose ▸ hnearSent⟩

/-! ## Runs -/

variable {q : Prop}

theorem Sane.steps (h : Sane l) (hs : ReflTransGen (Step p q) l l') : Sane l' := by
  induction hs with
  | refl => exact h
  | tail _ hs ih => exact ih.step hs

theorem Sane.steps_complete (h : Sane l) (hs : ReflTransGen (Step p False) l l')
    (hc : Complete l.near l.far) : Complete l'.near l'.far := by
  induction hs with
  | refl => exact hc
  | tail hs' hs ih => exact (h.steps hs').complete hs ih

lemma NearStep.sameSize (hs : NearStep p l l') :
    SameSize l.near l'.near ∧ SameSize l.far l'.far := by
  cases hs with
  | act _ hlocal => exact ⟨hlocal.sameSize, rfl, rfl⟩
  | receive _ => exact ⟨receive_sameSize _ _, rfl, rfl⟩

lemma Step.sameSize (hs : Step p q l l') : SameSize l.near l'.near ∧ SameSize l.far l'.far := by
  cases hs with
  | near hs => exact hs.sameSize
  | far hs => exact hs.sameSize.symm

lemma steps_sameSize (hs : ReflTransGen (Step p q) l l') :
    SameSize l.near l'.near ∧ SameSize l.far l'.far := by
  induction hs with
  | refl => exact ⟨⟨rfl, rfl⟩, rfl, rfl⟩
  | tail _ hs ih =>
    obtain ⟨⟨hc, hl⟩, hc', hl'⟩ := hs.sameSize
    exact ⟨⟨hc.trans ih.1.1, hl.trans ih.1.2⟩, hc'.trans ih.2.1, hl'.trans ih.2.2⟩

lemma steps_swap (hs : ReflTransGen (Step p q) l l') : ReflTransGen (Step q p) l.swap l'.swap := by
  induction hs with
  | refl => exact .refl
  | tail _ hs ih => exact ih.tail hs.swap

/-- What an end does in a row is a run of the link. -/
lemma Does.steps {e : End α} {ms : List (Msg α)} (h : Does p l.near ms e)
    (ha : l.near.accepted = true) :
    ReflTransGen (Step p q) l { l with near := e, toFar := l.toFar ++ ms } := by
  induction h with
  | refl => rw [List.append_nil]
  | tail h hl ih =>
    rw [← List.append_assoc]
    exact ih.tail (.near (.act (h.accepted.trans ha) hl))

end

end Streams
