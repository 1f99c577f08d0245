import CMXSafe.Kube.Names
import CMXSafe.Proofs.ServiceCache
import Mathlib.Data.Finset.Basic

/-!
# The cache as a family of sets

What `appendToServiceCache` and `removeFromServiceCache` are for: inserting into and erasing
from the set under a key. The cached strings represent the sets exactly as long as no
operation meets another reference that ends in its own.
-/

namespace CMXSafe.Proofs
open Strings Tokens

lemma plain_of_dnsLabel {s : Str} (h : dnsLabel s = true) : Plain s :=
  ⟨not_mem_of_dnsLabel h (by decide), not_mem_of_dnsLabel h (by decide)⟩

/-- A reference with a legal namespace and a legal name. -/
structure Ref where
  ns : Str
  name : Str
  valid : isRFC1123Label ns = true ∧ isRFC1035Label name = true
  deriving DecidableEq

namespace Ref

def entry (r : Ref) : Str := refBody r.ns r.name

def text (r : Ref) : Str := r.entry ++ [';']

variable (r : Ref)

lemma plain_ns : Plain r.ns := by
  have h := r.valid.1
  simp only [isRFC1123Label, Bool.and_eq_true] at h
  exact plain_of_dnsLabel h.2

lemma plain_name : Plain r.name := by
  have h := r.valid.2
  simp only [isRFC1035Label, isRFC1123Label, Bool.and_eq_true] at h
  exact plain_of_dnsLabel h.1.2

lemma isEntry : IsEntry r.entry := ⟨r.ns, r.name, r.plain_ns, r.plain_name, rfl⟩

lemma text_ne_nil : r.text ≠ [] := r.isEntry.isToken.ne_nil

lemma entry_injective : Function.Injective entry := by
  intro r r' h
  obtain ⟨h1, h2⟩ := (refBody_inj r'.plain_ns.1 r'.plain_name.1).mp h
  cases r
  cases r'
  cases h1
  cases h2
  rfl

lemma entry_suffix_iff {r r' : Ref} : r.entry <:+ r'.entry ↔ r.name = r'.name ∧ r.ns <:+ r'.ns :=
  refBody_suffix_iff r'.plain_ns.1 r'.plain_name.1

end Ref

/-- A call of one of the two helpers. -/
inductive RefOp where
  | append (key : Str) (r : Ref)
  | remove (key : Str) (r : Ref)

abbrev RefSets := Str → Finset Ref

namespace RefOp

def key : RefOp → Str
  | append key _ => key
  | remove key _ => key

def ref : RefOp → Ref
  | append _ r => r
  | remove _ r => r

/-- The call on the cached strings. -/
def apply (m : SyncMap) : RefOp → SyncMap
  | append key r => appendToServiceCache m key r.text
  | remove key r => removeFromServiceCache m key r.text

def updSet : RefOp → Finset Ref → Finset Ref
  | append _ r, s => insert r s
  | remove _ r, s => s.erase r

/-- The same call on sets. -/
def act (sets : RefSets) (op : RefOp) : RefSets :=
  Function.update sets op.key (op.updSet (sets op.key))

end RefOp

/-- The value under a key is the set: the text of its references, each once, and no value
where there is none. -/
structure IsSet (v : Option Str) (s : Finset Ref) : Prop where
  concat : ∃ rs : List Ref, rs.Nodup ∧ v.getD [] = textOf (rs.map Ref.entry)
  present : v.isSome = true ↔ s.Nonempty
  pieces : ∀ e, e ∈ pieces ';' (v.getD []) ↔ ∃ r ∈ s, e = r.entry

def Represents (m : SyncMap) (sets : RefSets) : Prop := ∀ k, IsSet (m.load k) (sets k)

/-- No other reference in the set ends in this one: has its name, and a namespace that ends
in its namespace. -/
def Separate (s : Finset Ref) (r : Ref) : Prop :=
  ∀ x ∈ s, r.name = x.name → r.ns <:+ x.ns → x = r

def RefOp.Clear (sets : RefSets) : RefOp → Prop
  | .append key r => r ∈ sets key ∨ Separate (sets key) r
  | .remove key r => Separate (sets key) r

lemma encodes_refs {rs : List Ref} (h : rs.Nodup) :
    Encodes (textOf (rs.map Ref.entry)) (rs.map Ref.entry) where
  text := rfl
  entry := by
    intro e he
    obtain ⟨r, -, rfl⟩ := List.mem_map.mp he
    exact r.isEntry
  nodup := h.map Ref.entry_injective

lemma Separate.entry {s : Finset Ref} {r : Ref} (h : Separate s r) {rs : List Ref}
    (hrs : ∀ x, x ∈ rs ↔ x ∈ s) : ∀ c ∈ rs.map Ref.entry, r.entry <:+ c → c = r.entry := by
  intro c hc hs
  obtain ⟨x, hx, rfl⟩ := List.mem_map.mp hc
  obtain ⟨hname, hns⟩ := Ref.entry_suffix_iff.mp hs
  rw [h x ((hrs x).mp hx) hname hns]

lemma separate_of_entry {s : Finset Ref} {r : Ref} {rs : List Ref} (hrs : ∀ x, x ∈ rs ↔ x ∈ s)
    (h : ∀ c ∈ rs.map Ref.entry, r.entry <:+ c → c = r.entry) : Separate s r := by
  intro x hx hname hns
  exact Ref.entry_injective (h x.entry (List.mem_map_of_mem ((hrs x).mpr hx))
    (Ref.entry_suffix_iff.mpr ⟨hname, hns⟩))

lemma ne_nil_iff_nonempty {s : Finset Ref} {rs : List Ref} (hrs : ∀ x, x ∈ rs ↔ x ∈ s) :
    rs ≠ [] ↔ s.Nonempty := by
  constructor
  · intro h
    obtain ⟨r, hr⟩ := List.exists_mem_of_ne_nil rs h
    exact ⟨r, (hrs r).mp hr⟩
  · rintro ⟨r, hr⟩
    exact List.ne_nil_of_mem ((hrs r).mpr hr)

namespace IsSet

variable {v : Option Str} {s : Finset Ref}

lemma of_refs {rs : List Ref} (hnd : rs.Nodup) (hrs : ∀ r, r ∈ rs ↔ r ∈ s)
    (hv : v.getD [] = textOf (rs.map Ref.entry)) (hp : v.isSome = true ↔ rs ≠ []) : IsSet v s where
  concat := ⟨rs, hnd, hv⟩
  present := hp.trans (ne_nil_iff_nonempty hrs)
  pieces := by
    intro e
    rw [hv, (encodes_refs hnd).pieces_eq, List.mem_map]
    simp only [hrs, eq_comm]

/-- The references of the set in the order of the text. -/
lemma refs (h : IsSet v s) : ∃ rs : List Ref, rs.Nodup ∧ (∀ r, r ∈ rs ↔ r ∈ s) ∧
    v.getD [] = textOf (rs.map Ref.entry) ∧ (v.isSome = true ↔ rs ≠ []) := by
  obtain ⟨rs, hnd, hv⟩ := h.concat
  have hrs : ∀ r, r ∈ rs ↔ r ∈ s := by
    intro r
    have hpieces := h.pieces r.entry
    rw [hv, (encodes_refs hnd).pieces_eq, List.mem_map_of_injective Ref.entry_injective] at hpieces
    rw [hpieces]
    constructor
    · rintro ⟨x, hx, he⟩
      exact Ref.entry_injective he ▸ hx
    · intro hr
      exact ⟨r, hr, rfl⟩
  exact ⟨rs, hnd, hrs, hv, h.present.trans (ne_nil_iff_nonempty hrs).symm⟩

variable {m : SyncMap} {k : Str} {r : Ref}

theorem append (h : IsSet (m.load k) s) (hc : r ∈ s ∨ Separate s r) :
    IsSet ((appendToServiceCache m k r.text).load k) (insert r s) := by
  obtain ⟨rs, hnd, hrs, hv, hp⟩ := h.refs
  have henc := encodes_refs hnd
  rw [load_append_self m k r.text_ne_nil, SyncMap.cached, hv]
  by_cases hr : r ∈ s
  · have hmem : r.entry ∈ rs.map Ref.entry := List.mem_map_of_mem ((hrs r).mpr hr)
    have hin : contains (textOf (rs.map Ref.entry)) r.text = true :=
      (contains_textOf henc.entry r.isEntry).mpr ⟨r.entry, hmem, List.suffix_rfl⟩
    rw [if_pos hin, Finset.insert_eq_self.mpr hr]
    exact h
  · have hsep := (hc.resolve_left hr).entry hrs
    have hnot : ¬contains (textOf (rs.map Ref.entry)) r.text = true := by
      rw [Ref.text, contains_textOf henc.entry r.isEntry]
      rintro ⟨c, hc, hs⟩
      rw [hsep c hc hs, List.mem_map_of_injective Ref.entry_injective, hrs] at hc
      exact hr hc
    rw [if_neg hnot]
    have hnodup : (rs ++ [r]).Nodup := hnd.append (by simp) (by simpa [hrs] using hr)
    refine of_refs hnodup ?_ ?_ (by simp)
    · intro x
      rw [List.mem_append, List.mem_singleton, Finset.mem_insert, hrs, or_comm]
    · simp [textOf, Ref.text]

theorem remove (h : IsSet (m.load k) s) (hc : Separate s r) :
    IsSet ((removeFromServiceCache m k r.text).load k) (s.erase r) := by
  obtain ⟨rs, hnd, hrs, hv, hp⟩ := h.refs
  have hreplace : replaceAll (textOf (rs.map Ref.entry)) r.text [] =
      textOf ((rs.filter (· ≠ r)).map Ref.entry) := by
    rw [Ref.text, (encodes_refs hnd).replaceAll_eq r.isEntry (hc.entry hrs), List.filter_map]
    congr 2
    refine List.filter_congr (fun x _ => ?_)
    simp [Ref.entry_injective.eq_iff]
  have hmem : ∀ x, x ∈ rs.filter (· ≠ r) ↔ x ∈ s.erase r := by
    intro x
    rw [List.mem_filter, Finset.mem_erase, hrs, and_comm]
    simp
  rw [load_remove_self m k r.text_ne_nil, SyncMap.cached, hv, hreplace]
  by_cases hnil : (rs.filter (· ≠ r)) = []
  · rw [hnil, if_pos (by rfl)]
    refine of_refs List.nodup_nil ?_ rfl (by simp)
    rw [hnil] at hmem
    exact hmem
  · have htrim : ¬trimSpace (textOf ((rs.filter (· ≠ r)).map Ref.entry)) = [] := by
      rw [trimSpace_textOf, List.map_eq_nil_iff]
      exact hnil
    rw [if_neg htrim]
    exact of_refs (hnd.filter _) hmem rfl (by simpa using hnil)

/-- An append that the string takes as an insertion met no longer reference. -/
theorem clear_of_append (h : IsSet (m.load k) s)
    (h' : IsSet ((appendToServiceCache m k r.text).load k) (insert r s)) :
    r ∈ s ∨ Separate s r := by
  obtain ⟨rs, hnd, hrs, hv, hp⟩ := h.refs
  have henc := encodes_refs hnd
  by_contra hno
  rw [not_or] at hno
  refine hno.2 (separate_of_entry hrs ?_)
  intro c hc hs
  exfalso
  -- the append does nothing
  have hin : contains (textOf (rs.map Ref.entry)) r.text = true :=
    (contains_textOf henc.entry r.isEntry).mpr ⟨c, hc, hs⟩
  rw [load_append_self m k r.text_ne_nil, SyncMap.cached, hv, if_pos hin] at h'
  have hmem := (h'.pieces r.entry).mpr ⟨r, Finset.mem_insert_self r s, rfl⟩
  obtain ⟨x, hx, he⟩ := (h.pieces r.entry).mp hmem
  exact hno.1 (Ref.entry_injective he ▸ hx)

/-- A removal that the string takes as an erasure met no longer reference. -/
theorem clear_of_remove (h : IsSet (m.load k) s)
    (h' : IsSet ((removeFromServiceCache m k r.text).load k) (s.erase r)) : Separate s r := by
  obtain ⟨rs, hnd, hrs, hv, -⟩ := h.refs
  obtain ⟨rs', hnd', hrs', hv', -⟩ := h'.refs
  have hcached : removeVal (textOf (rs.map Ref.entry)) r.text = textOf (rs'.map Ref.entry) := by
    rw [← hv', ← hv]
    exact (cached_remove_self m k r.text_ne_nil).symm
  refine separate_of_entry hrs ?_
  refine (encodes_refs hnd).clear_of_remove r.isEntry ?_ ?_
  · rw [← Ref.text, hcached, (encodes_refs hnd').pieces_eq]
    exact (encodes_refs hnd').nodup
  · intro c
    rw [← Ref.text, hcached, (encodes_refs hnd').pieces_eq, List.mem_map, List.mem_map]
    constructor
    · rintro ⟨x, hx, rfl⟩
      rw [hrs', Finset.mem_erase] at hx
      exact ⟨⟨x, (hrs x).mpr hx.2, rfl⟩, fun he => hx.1 (Ref.entry_injective he)⟩
    · rintro ⟨⟨x, hx, rfl⟩, hne⟩
      refine ⟨x, ?_, rfl⟩
      rw [hrs', Finset.mem_erase]
      exact ⟨fun he => hne (congrArg Ref.entry he), (hrs x).mp hx⟩

end IsSet

/-- The call leaves every other reference as it is. -/
def RefOp.Undisturbing (m : SyncMap) (op : RefOp) : Prop :=
  ∀ k e, (k = op.key → e ≠ op.ref.entry) →
    (e ∈ pieces ';' ((op.apply m).cached k) ↔ e ∈ pieces ';' (m.cached k))

section
variable {m : SyncMap} {sets : RefSets} {op : RefOp}

lemma load_refOp_of_ne (m : SyncMap) {op : RefOp} {k : Str} (h : k ≠ op.key) :
    (op.apply m).load k = m.load k := by
  cases op with
  | append key r => exact load_append_of_ne m key h
  | remove key r => exact load_remove_of_ne m key h

lemma isSet_refOp (h : Represents m sets) (hc : op.Clear sets) :
    IsSet ((op.apply m).load op.key) (op.updSet (sets op.key)) := by
  cases op with
  | append key r => exact (h key).append hc
  | remove key r => exact (h key).remove hc

lemma clear_of_isSet (h : Represents m sets)
    (h' : IsSet ((op.apply m).load op.key) (op.updSet (sets op.key))) : op.Clear sets := by
  cases op with
  | append key r => exact (h key).clear_of_append h'
  | remove key r => exact (h key).clear_of_remove h'

theorem represents_step_iff (h : Represents m sets) :
    Represents (op.apply m) (op.act sets) ↔ op.Clear sets := by
  constructor
  · intro h'
    have hkey := h' op.key
    rw [RefOp.act, Function.update_self] at hkey
    exact clear_of_isSet h hkey
  · intro hc k
    by_cases hk : k = op.key
    · subst hk
      rw [RefOp.act, Function.update_self]
      exact isSet_refOp h hc
    · rw [load_refOp_of_ne m hk, RefOp.act, Function.update_of_ne hk]
      exact h k

lemma undisturbing_of_represents (h : Represents m sets)
    (h' : Represents (op.apply m) (op.act sets)) : op.Undisturbing m := by
  intro k e hne
  unfold SyncMap.cached
  rw [(h' k).pieces, (h k).pieces]
  by_cases hk : k = op.key
  · subst hk
    rw [RefOp.act, Function.update_self]
    refine exists_congr (fun r => ?_)
    rw [and_congr_left_iff]
    rintro rfl
    have hr : r ≠ op.ref := fun hr => hne rfl (congrArg Ref.entry hr)
    cases op with
    | append key r' => exact (Finset.mem_insert.trans (or_iff_right hr))
    | remove key r' => exact (Finset.mem_erase.trans (and_iff_right hr))
  · rw [RefOp.act, Function.update_of_ne hk]

end

lemma represents_empty : Represents .empty (fun _ => ∅) :=
  fun _ => IsSet.of_refs List.nodup_nil (by simp) rfl (by simp [SyncMap.empty, SyncMap.load])

def cacheOf (ops : List RefOp) : SyncMap := ops.foldl RefOp.apply .empty

def setsOf (ops : List RefOp) : RefSets := ops.foldl RefOp.act (fun _ => ∅)

lemma cacheOf_concat (ops : List RefOp) (op : RefOp) :
    cacheOf (ops ++ [op]) = op.apply (cacheOf ops) := by
  simp [cacheOf]

lemma setsOf_concat (ops : List RefOp) (op : RefOp) :
    setsOf (ops ++ [op]) = op.act (setsOf ops) := by
  simp [setsOf]

lemma represents_of_clear {ops : List RefOp}
    (h : ∀ pre op, pre ++ [op] <+: ops → op.Clear (setsOf pre)) {pre : List RefOp}
    (hpre : pre <+: ops) : Represents (cacheOf pre) (setsOf pre) := by
  induction pre using List.reverseRecOn with
  | nil => exact represents_empty
  | append_singleton pre op ih =>
    rw [cacheOf_concat, setsOf_concat]
    exact (represents_step_iff (ih ((List.prefix_append pre [op]).trans hpre))).mpr (h pre op hpre)

/-- From the empty cache on, the strings are the sets after each call, and no call disturbs
another reference, if and only if every call is clear of the references in its set. -/
theorem cache_is_set_iff (ops : List RefOp) :
    ((∀ pre, pre <+: ops → Represents (cacheOf pre) (setsOf pre)) ∧
        ∀ pre op, pre ++ [op] <+: ops → op.Undisturbing (cacheOf pre)) ↔
      ∀ pre op, pre ++ [op] <+: ops → op.Clear (setsOf pre) := by
  constructor
  · rintro ⟨h, -⟩ pre op hpre
    have hafter := h _ hpre
    rw [cacheOf_concat, setsOf_concat] at hafter
    exact (represents_step_iff (h pre ((List.prefix_append pre [op]).trans hpre))).mp hafter
  · intro h
    refine ⟨fun pre hpre => represents_of_clear h hpre, fun pre op hpre => ?_⟩
    have hafter := represents_of_clear h hpre
    rw [cacheOf_concat, setsOf_concat] at hafter
    exact undisturbing_of_represents
      (represents_of_clear h ((List.prefix_append pre [op]).trans hpre)) hafter

def myProdCam : Ref := ⟨"my-prod".toList, "cam".toList, by decide +kernel⟩

def prodCam : Ref := ⟨"prod".toList, "cam".toList, by decide +kernel⟩

/-- `prod/cam;` is taken to be in `my-prod/cam;`. -/
theorem cache_is_no_set :
    let ops : List RefOp := [.append "dynamic-service-025f9a3db712".toList myProdCam,
      .append "dynamic-service-025f9a3db712".toList prodCam]
    ¬Represents (cacheOf ops) (setsOf ops) := by
  intro ops h
  have hmem : prodCam ∈ setsOf ops "dynamic-service-025f9a3db712".toList := by decide +kernel
  have hpiece := ((h _).pieces prodCam.entry).mpr ⟨prodCam, hmem, rfl⟩
  exact absurd hpiece (by decide +kernel)

end CMXSafe.Proofs
