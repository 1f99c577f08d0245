import CMXSafe.Client.InPlace
import CMXSafe.Proofs.NorthSouth

/-!
# The references visited by `handleNSService`

The loop that overwrites the array it reads is a filter, and it sends one removal for every
entry with a target.
-/

namespace CMXSafe.Proofs
open Strings Stores Tokens GoSlices

lemma filterState_visitEntry (primary : Str) (es : List Str) (a : Api) :
    filterState (visitEntry primary) es a = removeDuplicates primary es a := by
  induction es generalizing a with
  | nil => rfl
  | cons e es ih =>
    rw [filterState, removeDuplicates_cons, ih]
    by_cases h : e = [] ∨ e = primary
    · simp [visitEntry, targetOf, h]
    · rcases splitN_two_eq e '/' with ⟨-, hs⟩ | ⟨ns, name, -, -, hs⟩
      · simp [visitEntry, targetOf, h, hs]
      · have hr : removeNSServiceAnnotation ns name a = removal (ns, name) a := rfl
        simp only [visitEntry, targetOf, if_neg h, hs, hr]
        split_ifs <;> rfl

/-- Writing into the array that is ranged over does no harm. -/
theorem filterEntries_eq (primary : Str) (es : List Str) (a : Api) :
    filterEntries primary es a = removeDuplicates primary es a := by
  rw [← filterState_visitEntry]
  exact filterLoop_eq (visitEntry primary) es a

/-- The calls of the loop: one removal for each target in order. What is kept are the
entries whose removal failed. -/
theorem removals_log (ts : List (Str × Str)) (a : Api) :
    ∃ log, (removals ts a).2.sent = a.sent ++ log ∧
      log.map Sent.request = ts.map stripRequest ∧
      (removals ts a).1 =
        (((ts.zip log).filter (fun x => x.2.failed)).map (fun x => refBody x.1.1 x.1.2)) := by
  induction ts generalizing a with
  | nil => exact ⟨[], by simp [removals], rfl, rfl⟩
  | cons t ts ih =>
    have hsent : (removal t a).2.sent =
        a.sent ++ [⟨stripRequest t, a.verdicts 0, a.cluster⟩] := call_sent _ a
    have hfailed : (removal t a).1.isSome =
        Sent.failed ⟨stripRequest t, a.verdicts 0, a.cluster⟩ := call_failed _ a
    rw [removals, keep_snd]
    generalize removal t a = r at hsent hfailed ⊢
    obtain ⟨log, hlog, hrequests, hkept⟩ := ih r.2
    refine ⟨⟨stripRequest t, a.verdicts 0, a.cluster⟩ :: log, ?_, ?_, ?_⟩
    · rw [hlog, hsent, List.append_assoc]
      rfl
    · rw [List.map_cons, List.map_cons, hrequests]
    · rw [List.zip_cons_cons]
      cases hr : r.1.isSome with
      | false =>
        rw [hr] at hfailed
        rw [if_neg (by simp), List.filter_cons_of_neg (by simp [← hfailed]), hkept]
      | true =>
        rw [hr] at hfailed
        rw [if_pos rfl, List.filter_cons_of_pos (by exact hfailed.symm), List.map_cons, ← hkept]

/-- The targets among plain references are all but the primary. -/
lemma targets_refs {ns name : Str} {refs : List (Str × Str)}
    (hrefs : ∀ r ∈ refs, Plain r.1 ∧ Plain r.2) :
    targets (refBody ns name) (refs.map (fun r => refBody r.1 r.2)) =
      refs.filter (· ≠ (ns, name)) := by
  induction refs with
  | nil => rfl
  | cons r refs ih =>
    have hrest := ih (fun x hx => hrefs x (by simp [hx]))
    obtain ⟨hns, hname⟩ := hrefs r (by simp)
    unfold targets at hrest ⊢
    by_cases hr : r = (ns, name)
    · subst hr
      rw [List.map_cons, List.filterMap_cons_none (by simp [targetOf]), hrest,
        List.filter_cons_of_neg (by simp)]
    · have hne : refBody r.1 r.2 ≠ refBody ns name := by
        intro he
        obtain ⟨h1, h2⟩ := (refBody_inj hns.1 hname.1).mp he.symm
        exact hr (Prod.ext h1.symm h2.symm)
      rw [List.map_cons, List.filterMap_cons_some (targetOf_refBody hns.1 hne), hrest,
        List.filter_cons_of_pos (by simpa using hr)]

/-- Over the text of distinct references the loop sends one removal for each that is not the
primary, in order and under its own name, and keeps the entries whose removal failed. -/
theorem filterEntries_visits_once {refs : List (Str × Str)}
    (hrefs : ∀ r ∈ refs, Plain r.1 ∧ Plain r.2) (hnodup : refs.Nodup) (pfx user : Str) (a : Api) :
    let raw := textOf (refs.map (fun r => refBody r.1 r.2))
    let r := filterEntries (refBody defaultNS (pfx ++ user)) (split (trimSuffix raw [';']) ';') a
    let others := refs.filter (· ≠ (defaultNS, pfx ++ user))
    ∃ log, r.2.sent = a.sent ++ log ∧
      log.map Sent.request = others.map stripRequest ∧ (log.map Sent.request).Nodup ∧
      r.1 = (((others.zip log).filter (fun x => x.2.failed)).map
        (fun x => refBody x.1.1 x.1.2)) := by
  intro raw r others
  have hpieces : pieces ';' raw = refs.map (fun r => refBody r.1 r.2) := by
    have hentry : ∀ e ∈ refs.map (fun r => refBody r.1 r.2), IsEntry e := by
      intro e he
      obtain ⟨x, hx, rfl⟩ := List.mem_map.mp he
      exact ⟨x.1, x.2, (hrefs x hx).1, (hrefs x hx).2, rfl⟩
    exact pieces_flatten (fun e he => (hentry e he).semicolon_not_mem)
      (fun e he => (hentry e he).ne_nil)
  have hothers : targets (refBody defaultNS (pfx ++ user)) (split (trimSuffix raw [';']) ';') =
      others := by
    rw [targets_split, hpieces, targets_refs hrefs]
  have hr : r = removals others a := by rw [← hothers, ← removeDuplicates_eq, ← filterEntries_eq]
  obtain ⟨log, hsent, hrequests, hkept⟩ := removals_log others a
  rw [← hr] at hsent hkept
  refine ⟨log, hsent, hrequests, ?_, hkept⟩
  rw [hrequests]
  refine (hnodup.filter _).map ?_
  intro t t' he
  simp only [stripRequest, Request.patchService.injEq] at he
  exact Prod.ext he.1 he.2.1

/-- Two listed Services and the primary between them, against a server that has none. -/
theorem filterEntries_visits_once_missing :
    let refs := [("prod".toList, "camera".toList), primaryKey "025f9a3db712".toList,
      ("prod".toList, "lock".toList)]
    let raw := textOf (refs.map (fun r => refBody r.1 r.2))
    let r := filterEntries (refBody defaultNS (servicePrefix ++ "025f9a3db712".toList))
      (split (trimSuffix raw [';']) ';') Sys.init.api
    let others := refs.filter (· ≠ (defaultNS, servicePrefix ++ "025f9a3db712".toList))
    ∃ log, r.2.sent = Sys.init.api.sent ++ log ∧
      log.map Sent.request = others.map stripRequest ∧ (log.map Sent.request).Nodup ∧
      r.1 = (((others.zip log).filter (fun x => x.2.failed)).map
        (fun x => refBody x.1.1 x.1.2)) :=
  filterEntries_visits_once (by decide +kernel) (by decide +kernel) servicePrefix _ _

end CMXSafe.Proofs
