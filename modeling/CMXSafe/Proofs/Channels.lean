import CMXSafe.Lib.Streams
import CMXSafe.OpenSSH.Nchan

/-!
# The bytes of a channel

The two ends of a channel are a stream with credit: every round of a loop and every packet is a
run of the protocol. So whatever the order of the rounds, the packets, the reads and the writes,
what comes out of a channel is what has gone into it.
-/

namespace CMXSafe.Proofs
open OpenSSH Machines Streams Relation

/-! ## The ends -/

def halfIn : InputState → Half
  | .opened => .opened
  | .waitDrain => .draining
  | _ => .closed

def halfOut : OutputState → Half
  | .opened => .opened
  | .waitDrain => .draining
  | _ => .closed

def msgOf : ChannelMsg → Msg UInt8
  | .openConfirmation window maxpacket => .opened window maxpacket
  | .data bytes => .data bytes
  | .windowAdjust adjust => .credit adjust
  | .eof => .eof
  | .close => .close

/-- A channel as an end of a stream. -/
def endOf (c : Channel) (taken given : Bytes) : End UInt8 where
  accepted := c.type = .opened
  inState := halfIn c.istate
  outState := halfOut c.ostate
  eofSent := c.eofSent
  eofRcvd := c.eofRcvd
  closeSent := c.closeSent
  closeRcvd := c.closeRcvd
  input := c.input
  output := c.output
  taken := taken
  given := given
  credit := c.remoteWindow
  packet := c.remoteMaxpacket
  window := c.localWindow
  consumed := c.localConsumed
  capacity := c.localWindowMax
  limit := c.localMaxpacket

/-- The states that nothing leads to are not used. -/
structure Usual (c : Channel) : Prop where
  istate : c.istate ≠ .waitOclose
  ostate : c.ostate ≠ .waitIeof

lemma halfIn_eq_opened {s : InputState} : halfIn s = .opened ↔ s = .opened := by
  cases s <;> simp [halfIn]

lemma halfIn_eq_draining {s : InputState} : halfIn s = .draining ↔ s = .waitDrain := by
  cases s <;> simp [halfIn]

lemma Usual.closed_in {c : Channel} (h : Usual c) :
    halfIn c.istate = .closed ↔ c.istate = .closed := by
  have hne := h.istate
  cases hs : c.istate <;> simp_all [halfIn]

lemma halfOut_eq_opened {s : OutputState} : halfOut s = .opened ↔ s = .opened := by
  cases s <;> simp [halfOut]

lemma halfOut_eq_draining {s : OutputState} : halfOut s = .draining ↔ s = .waitDrain := by
  cases s <;> simp [halfOut]

lemma Usual.closed_out {c : Channel} (h : Usual c) :
    halfOut c.ostate = .closed ↔ c.ostate = .closed := by
  have hne := h.ostate
  cases hs : c.ostate <;> simp_all [halfOut]

variable {fails : Prop} {c : Channel} {taken given : Bytes}

/-- What a function of the code makes of a channel is something that an end does. -/
structure Plays (fails : Prop) (c : Channel) (taken given : Bytes) (sent : List ChannelMsg)
    (c' : Channel) (taken' given' : Bytes) : Prop where
  usual : Usual c'
  type : c'.type = c.type
  does : Does fails (endOf c taken given) (sent.map msgOf) (endOf c' taken' given')

lemma Plays.refl (hu : Usual c) : Plays fails c taken given [] c taken given :=
  ⟨hu, rfl, .refl _⟩

lemma Plays.trans {c' c'' : Channel} {taken' given' taken'' given'' : Bytes}
    {sent sent' : List ChannelMsg} (h : Plays fails c taken given sent c' taken' given')
    (h' : Plays fails c' taken' given' sent' c'' taken'' given'') :
    Plays fails c taken given (sent ++ sent') c'' taken'' given'' :=
  ⟨h'.usual, h'.type.trans h.type, by rw [List.map_append]; exact h.does.trans h'.does⟩

lemma obufEmpty_plays (hu : Usual c) :
    Plays fails c taken given [] (chanObufEmpty c) taken given := by
  unfold chanObufEmpty
  split_ifs with ho
  · exact .refl hu
  · cases hs : c.ostate with
    | waitDrain =>
      rw [not_not] at ho
      have heq : endOf { chanShutdownWrite c with ostate := .closed } taken given =
          { endOf c taken given with outState := .closed } := by
        cases c
        subst ho
        rfl
      refine ⟨⟨hu.istate, OutputState.noConfusion⟩, rfl, ?_⟩
      rw [heq]
      exact .one (.drained (halfOut_eq_draining.mpr hs) ho)
    | _ => exact .refl hu

lemma preOpen_plays (hu : Usual c) :
    Plays fails c taken given [] (channelPreOpen c).2 taken given := by
  simp only [channelPreOpen]
  split_ifs
  · exact .refl hu
  · exact obufEmpty_plays hu
  · exact .refl hu
  · exact .refl hu

lemma readFailed_plays (hu : Usual c) :
    Plays fails c taken given [] (chanReadFailed c) taken given := by
  unfold chanReadFailed
  cases hs : c.istate with
  | opened =>
    exact ⟨⟨InputState.noConfusion, hu.ostate⟩, rfl, .one (.finish (halfIn_eq_opened.mpr hs))⟩
  | _ => exact .refl hu

lemma writeFailed_plays (hu : Usual c) (hf : fails) :
    Plays fails c taken given [] (chanWriteFailed c) taken given := by
  unfold chanWriteFailed
  cases hs : c.ostate with
  | opened | waitDrain =>
    refine ⟨⟨hu.istate, OutputState.noConfusion⟩, rfl, .one (.fail hf ?_)⟩
    rw [endOf, ne_eq, hu.closed_out, hs]
    exact OutputState.noConfusion
  | _ => exact .refl hu

/-- `chan_is_dead`: the close goes out with both halves closed, and the channel is dead once both
ends have closed. -/
lemma isDead_plays (fails : Prop) (taken given : Bytes) (hu : Usual c) :
    Plays fails c taken given (chanIsDead c).2.2 (chanIsDead c).2.1 taken given ∧
      ((chanIsDead c).1 = true →
        (chanIsDead c).2.1.closeSent = true ∧ (chanIsDead c).2.1.closeRcvd = true) := by
  simp only [chanIsDead]
  split_ifs with hs hc
  · exact ⟨.refl hu, fun h => nomatch h⟩
  · push Not at hs
    rw [Bool.not_eq_true'] at hc
    have hclose : chanSendClose2 c = ({ c with closeSent := true }, [.close]) := by
      simp [chanSendClose2, hs, hc]
    rw [hclose]
    exact ⟨⟨⟨hu.istate, hu.ostate⟩, rfl,
      .one (.close (hu.closed_in.mpr hs.1) (hu.closed_out.mpr hs.2) hc)⟩,
      fun h => Bool.and_eq_true_iff.mp h⟩
  · exact ⟨.refl hu, fun h => Bool.and_eq_true_iff.mp h⟩

lemma handleRfd_plays (hu : Usual c) (wanted : Bool) (hw : wanted = true → c.istate = .opened)
    (rd : ReadResult) :
    Plays fails c taken given [] (channelHandleRfd wanted rd c).1
      (taken ++ (channelHandleRfd wanted rd c).2) given := by
  simp only [channelHandleRfd]
  split_ifs with h
  · simpa using Plays.refl hu
  · have hopen : c.istate = .opened := hw (by simp_all)
    cases rd with
    | again => simpa using Plays.refl hu
    | failed => simpa using readFailed_plays hu
    | got bytes =>
      cases bytes with
      | nil => simpa using readFailed_plays hu
      | cons b bytes =>
        exact ⟨⟨hu.istate, hu.ostate⟩, rfl, .one (.take _ (halfIn_eq_opened.mpr hopen))⟩

lemma u32_of_lt {n : Nat} (h : n < 2 ^ 32) : u32 n = n := Nat.mod_eq_of_lt h

lemma subU32_of_le {a b : Nat} (hb : b ≤ a) (ha : a < 2 ^ 32) : subU32 a b = a - b := by
  unfold subU32 u32
  omega

lemma handleWfd_plays (hu : Usual c) (ht : Tidy (endOf c taken given))
    (hm : c.localWindowMax < 2 ^ 32) (wanted : Bool)
    (hw : wanted = true → c.ostate = .opened ∨ c.ostate = .waitDrain) (wr : WriteResult)
    (hf : wr.fails → fails) :
    Plays fails c taken given [] (channelHandleWfd wanted wr c).1 taken
      (given ++ (channelHandleWfd wanted wr c).2) := by
  have hbudget : c.localWindow + c.localConsumed + c.output.length ≤ c.localWindowMax := ht.budget
  simp only [channelHandleWfd]
  split_ifs with h
  · simpa using Plays.refl hu
  · have hopen := hw (by simp_all)
    cases wr with
    | again => simpa using Plays.refl hu
    | failed => simpa using writeFailed_plays hu (hf trivial)
    | wrote n =>
      cases n with
      | zero => simpa using writeFailed_plays hu (hf rfl)
      | succ n =>
        have hne : (endOf c taken given).outState ≠ .closed := by
          rw [endOf, ne_eq, hu.closed_out]
          rcases hopen with ho | ho <;> simp [ho]
        have hmin : min (n + 1) c.output.length =
            min (min (n + 1) c.output.length) c.output.length := by omega
        have hdrop := List.drop_eq_drop_iff.mpr hmin
        have htake := List.take_eq_take_iff.mpr hmin
        have hlen : c.output.length - (c.output.drop (n + 1)).length =
            min (n + 1) c.output.length := by
          rw [List.length_drop]
          omega
        simp only [hlen]
        rw [u32_of_lt (by omega), hdrop, htake]
        exact ⟨⟨hu.istate, hu.ostate⟩, rfl, .one (.give _ hne (Nat.min_le_right _ _))⟩

lemma checkWindow_plays (hu : Usual c) (ht : Tidy (endOf c taken given))
    (hm : c.localWindowMax < 2 ^ 32) :
    Plays fails c taken given (channelCheckWindow c).2 (channelCheckWindow c).1 taken given := by
  have hbudget : c.localWindow + c.localConsumed + c.output.length ≤ c.localWindowMax := ht.budget
  unfold channelCheckWindow
  split_ifs with h
  · have hs : c.closeSent = false := by simpa using h.1.1
    rw [u32_of_lt (by omega)]
    exact ⟨⟨hu.istate, hu.ostate⟩, rfl, .one (.refill hs)⟩
  · exact .refl hu

lemma ibufEmpty_plays (hu : Usual c) (hc : c.closeSent = false) (hi : c.input = [])
    (hs : c.istate = .waitDrain) :
    Plays fails c taken given (chanIbufEmpty c).2 (chanIbufEmpty c).1 taken given := by
  have heq : chanIbufEmpty c = ({ c with eofSent := true, istate := .closed }, [.eof]) := by
    simp [chanIbufEmpty, chanSendEof2, hi, hs, hc]
  rw [heq]
  exact ⟨⟨InputState.noConfusion, hu.ostate⟩, rfl,
    .one (.eof (halfIn_eq_draining.mpr hs) (Or.inl hi))⟩

lemma outputPoll_plays (hu : Usual c) :
    Plays fails c taken given (channelOutputPoll c).2 (channelOutputPoll c).1 taken given := by
  simp only [channelOutputPoll, channelOutputPollInputOpen]
  split_ifs with h1 h2 h3 h4 h5 h6
  · exact .refl hu
  · exact .refl hu
  · exact ibufEmpty_plays hu (by simp_all) h4 h5
  · exact .refl hu
  · exact .refl hu
  · have hne : (endOf c taken given).inState ≠ .closed := by
      rw [endOf, ne_eq, hu.closed_in]
      rcases h3 with hs | hs <;> simp [hs]
    have hle : min (min c.input.length c.remoteWindow) c.remoteMaxpacket ≤ c.input.length ∧
        min (min c.input.length c.remoteWindow) c.remoteMaxpacket ≤ c.remoteWindow ∧
        min (min c.input.length c.remoteWindow) c.remoteMaxpacket ≤ c.remoteMaxpacket := by
      omega
    generalize min (min c.input.length c.remoteWindow) c.remoteMaxpacket = len at hle ⊢
    have hlen : (c.input.take len).length = len := List.length_take_of_le hle.1
    have hsend : Local fails (endOf c taken given) [.data (c.input.take len)]
        { endOf c taken given with
          input := c.input.drop len, credit := c.remoteWindow - (c.input.take len).length } :=
      .send _ _ hne (List.take_append_drop _ _).symm (Nat.le_trans (Nat.le_of_eq hlen) hle.2.1)
        (Nat.le_trans (Nat.le_of_eq hlen) hle.2.2)
    rw [hlen] at hsend
    exact ⟨⟨hu.istate, hu.ostate⟩, rfl, .one hsend⟩
  · exact .refl hu

/-! ## Packets -/

/-- What a packet makes of a channel: the end receives it, and may do something about it. -/
structure Takes (fails : Prop) (c : Channel) (taken given : Bytes) (m : ChannelMsg)
    (sent : List ChannelMsg) (c' : Channel) : Prop where
  usual : Usual c'
  does : Does fails ((endOf c taken given).receive (msgOf m)) (sent.map msgOf)
    (endOf c' taken given)

lemma inputData_takes (hu : Usual c) (ht : Tidy (endOf c taken given))
    (hm : c.localWindowMax < 2 ^ 32) {bytes : Bytes}
    (hfits : Fits (endOf c taken given) (.data bytes)) :
    Takes fails c taken given (.data bytes) [] (channelInputData bytes c) := by
  have hbudget : c.localWindow + c.localConsumed + c.output.length ≤ c.localWindowMax := ht.budget
  obtain ⟨ha, hwindow, hlimit⟩ := hfits
  have htype : c.type = .opened := of_decide_eq_true ha
  replace hwindow : bytes.length ≤ c.localWindow := hwindow
  replace hlimit : bytes.length ≤ c.localMaxpacket := hlimit
  unfold channelInputData
  rw [if_neg (by simp [htype]), subU32_of_le hwindow (by omega)]
  by_cases ho : c.ostate = .opened
  · rw [if_neg (by simp [ho]), if_neg (by omega), if_neg (by omega)]
    refine ⟨⟨hu.istate, hu.ostate⟩, ?_⟩
    have hout : (endOf c taken given).outState = .opened := halfOut_eq_opened.mpr ho
    rw [msgOf, End.receive, if_pos hout]
    exact .refl _
  · rw [if_pos ho, u32_of_lt (by omega)]
    refine ⟨⟨hu.istate, hu.ostate⟩, ?_⟩
    have hout : (endOf c taken given).outState ≠ .opened := fun h => ho (halfOut_eq_opened.mp h)
    rw [msgOf, End.receive, if_neg hout]
    exact .refl _

/-- The output half of a channel that hears no more. -/
def hungUp : OutputState → OutputState
  | .opened => .waitDrain
  | s => s

lemma halfOut_hungUp (s : OutputState) : halfOut (hungUp s) = (halfOut s).hangUp := by
  cases s <;> rfl

lemma Usual.hungUp (hu : Usual c) : hungUp c.ostate ≠ .waitIeof := by
  have hne := hu.ostate
  cases hs : c.ostate <;> simp_all [Proofs.hungUp]

lemma rcvdIeof_takes (hu : Usual c) : Takes fails c taken given .eof [] (chanRcvdIeof c) := by
  have hend : (endOf c taken given).receive .eof =
      endOf { c with eofRcvd := true, ostate := hungUp c.ostate } taken given := by
    simp [End.receive, endOf, halfOut_hungUp]
  have hu' : Usual { c with eofRcvd := true, ostate := hungUp c.ostate } := ⟨hu.istate, hu.hungUp⟩
  have heq : chanRcvdIeof c =
      if hungUp c.ostate = .waitDrain ∧ c.output = [] then
        chanObufEmpty { c with eofRcvd := true, ostate := hungUp c.ostate }
      else { c with eofRcvd := true, ostate := hungUp c.ostate } := by
    cases hs : c.ostate <;> simp [chanRcvdIeof, hungUp, hs]
  rw [heq]
  split_ifs
  · have hplays : Plays fails _ taken given [] _ taken given := obufEmpty_plays hu'
    exact ⟨hplays.usual, hend ▸ hplays.does⟩
  · exact ⟨hu', hend ▸ .refl _⟩

lemma rcvdOclose_takes (hu : Usual c) :
    Takes fails c taken given .close (chanRcvdOclose c).2 (chanRcvdOclose c).1 := by
  have hend : (endOf c taken given).receive .close =
      endOf { c with closeRcvd := true, ostate := hungUp c.ostate } taken given := by
    simp [End.receive, endOf, halfOut_hungUp]
  have heq : chanRcvdOclose c =
      match c.istate with
      | .opened =>
        ({ c with closeRcvd := true, ostate := hungUp c.ostate, istate := .closed }, [])
      | .waitDrain =>
        ({ c with
            closeRcvd := true, ostate := hungUp c.ostate, eofSent := true, istate := .closed },
          [.eof])
      | _ => ({ c with closeRcvd := true, ostate := hungUp c.ostate }, []) := by
    cases hs : c.ostate <;> cases hi : c.istate <;>
      simp [chanRcvdOclose, chanSendEof2, hungUp, hs, hi]
  rw [heq]
  cases hi : c.istate with
  | opened =>
    refine ⟨⟨InputState.noConfusion, hu.hungUp⟩, ?_⟩
    rw [msgOf, hend]
    exact .one (.abandon (halfIn_eq_opened.mpr hi) rfl)
  | waitDrain =>
    refine ⟨⟨InputState.noConfusion, hu.hungUp⟩, ?_⟩
    rw [msgOf, hend]
    exact .one (.eof (halfIn_eq_draining.mpr hi) (Or.inr rfl))
  | waitOclose => exact absurd hi hu.istate
  | closed =>
    refine ⟨⟨by simp, hu.hungUp⟩, ?_⟩
    rw [msgOf, hend, hi]
    exact .refl _

/-- The handler of a packet that the end expects is not fatal. -/
lemma input_takes (hu : Usual c) (ht : Tidy (endOf c taken given))
    (hm : c.localWindowMax < 2 ^ 32) {m : ChannelMsg} (hfits : Fits (endOf c taken given) (msgOf m))
    (hadjust : ∀ n, m = .windowAdjust n → c.remoteWindow + n < 2 ^ 32) :
    ∃ c' sent, channelInput m c = some (c', sent) ∧ Takes fails c taken given m sent c' := by
  cases m with
  | openConfirmation window maxpacket =>
    have htype : c.type = .opening := by
      have ha : decide (c.type = .opened) = false := hfits
      cases hc : c.type with
      | opening => rfl
      | opened => simp [hc] at ha
    exact ⟨{ c with remoteWindow := window, remoteMaxpacket := maxpacket, type := .opened }, [],
      if_neg (by simp [htype]), ⟨hu.istate, hu.ostate⟩, .refl _⟩
  | data bytes => exact ⟨_, _, rfl, inputData_takes hu ht hm hfits⟩
  | windowAdjust n =>
    have hlt := hadjust n rfl
    refine ⟨{ c with remoteWindow := c.remoteWindow + n }, [], ?_, ⟨hu.istate, hu.ostate⟩, ?_⟩
    · simp only [channelInput, u32_of_lt hlt]
      rw [if_neg (by omega)]
    · exact .refl _
  | eof => exact ⟨_, _, rfl, rcvdIeof_takes hu⟩
  | close => exact ⟨_, _, rfl, rcvdOclose_takes hu⟩

/-! ## Runs -/

/-- The end of a stream that an end of a channel is; once the channel is freed, one that is
gone. -/
structure Models (x : ChannelEnd) (e : End UInt8) : Prop where
  taken : e.taken = x.taken
  given : e.given = x.given
  capacity : e.capacity < 2 ^ 32
  alive : ∀ c, x.chan = some c → Usual c ∧ e = endOf c x.taken x.given
  gone : x.chan = none → e.freed = true

lemma Models.windowMax {x : ChannelEnd} {e : End UInt8} (h : Models x e) (hc : x.chan = some c) :
    c.localWindowMax < 2 ^ 32 := by
  have hcapacity := h.capacity
  rwa [(h.alive c hc).2] at hcapacity

lemma models_some (hu : Usual c) (hm : c.localWindowMax < 2 ^ 32) :
    Models ⟨some c, taken, given⟩ (endOf c taken given) := by
  refine ⟨rfl, rfl, hm, fun c' hc => ?_, nofun⟩
  cases hc
  exact ⟨hu, rfl⟩

lemma Plays.windowMax {c' : Channel} {taken' given' : Bytes} {sent : List ChannelMsg}
    (h : Plays fails c taken given sent c' taken' given') : c'.localWindowMax = c.localWindowMax :=
  h.does.sameSize.1

lemma Plays.tidy {c' : Channel} {taken' given' : Bytes} {sent : List ChannelMsg}
    (h : Plays fails c taken given sent c' taken' given') (htype : c.type = .opened)
    (ht : Tidy (endOf c taken given)) : Tidy (endOf c' taken' given') :=
  h.does.tidy (decide_eq_true htype) ht

lemma preOpen_wants (c : Channel) :
    ((channelPreOpen c).1.1 = true → (channelPreOpen c).2.istate = .opened) ∧
      ((channelPreOpen c).1.2 = true →
        (channelPreOpen c).2.ostate = .opened ∨ (channelPreOpen c).2.ostate = .waitDrain) := by
  have hobuf : (chanObufEmpty c).istate = c.istate := by
    unfold chanObufEmpty
    split_ifs
    · rfl
    · cases hs : c.ostate <;> rfl
  simp only [channelPreOpen]
  split_ifs with h1 h2 h3
  · exact ⟨fun h => (of_decide_eq_true h).1, fun _ => h1⟩
  · exact ⟨fun h => hobuf.trans (of_decide_eq_true h).1, nofun⟩
  · exact ⟨fun h => (of_decide_eq_true h).1, nofun⟩
  · exact ⟨fun h => (of_decide_eq_true h).1, nofun⟩

lemma isDead_states (c : Channel) :
    (chanIsDead c).2.1.istate = c.istate ∧ (chanIsDead c).2.1.ostate = c.ostate := by
  simp only [chanIsDead, chanSendClose2]
  split_ifs <;> exact ⟨rfl, rfl⟩

lemma handleRfd_ostate (wanted : Bool) (rd : ReadResult) (c : Channel) :
    (channelHandleRfd wanted rd c).1.ostate = c.ostate := by
  have hfailed : (chanReadFailed c).ostate = c.ostate := by
    unfold chanReadFailed
    cases hs : c.istate <;> rfl
  simp only [channelHandleRfd]
  split_ifs
  · rfl
  · cases rd with
    | again => rfl
    | failed => exact hfailed
    | got bytes =>
      cases bytes with
      | nil => exact hfailed
      | cons b bytes => rfl

/-- What `channel_garbage_collect` leaves of a channel. -/
lemma Plays.collected {c' : Channel} {taken' given' : Bytes} {sent : List ChannelMsg}
    (h : Plays fails c taken given sent c' taken' given') (hm : c.localWindowMax < 2 ^ 32) :
    ∃ e', Does fails (endOf c taken given) ((sent ++ (chanIsDead c').2.2).map msgOf) e' ∧
      Models ⟨if (chanIsDead c').1 = true then none else some (chanIsDead c').2.1, taken', given'⟩
        e' := by
  obtain ⟨hgc, hdead⟩ := isDead_plays fails taken' given' h.usual
  have hboth := h.trans hgc
  have hmax : (chanIsDead c').2.1.localWindowMax < 2 ^ 32 := hboth.windowMax ▸ hm
  split_ifs with hd
  · obtain ⟨hsent, hrcvd⟩ := hdead hd
    have hfree := hboth.does.tail (.free hsent hrcvd)
    rw [List.append_nil] at hfree
    exact ⟨_, hfree, rfl, rfl, hmax, nofun, fun _ => rfl⟩
  · exact ⟨_, hboth.does, models_some hboth.usual hmax⟩

/-- A round of the loop is something that an end does. -/
lemma poll_does (hu : Usual c) (htype : c.type = .opened) (ht : Tidy (endOf c taken given))
    (hm : c.localWindowMax < 2 ^ 32) (rd : ReadResult) (wr : WriteResult) (hf : wr.fails → fails) :
    ∃ e', Does fails (endOf c taken given)
        ((ChannelEnd.poll rd wr ⟨some c, taken, given⟩).2.map msgOf) e' ∧
      Models (ChannelEnd.poll rd wr ⟨some c, taken, given⟩).1 e' := by
  simp only [ChannelEnd.poll, htype, ne_eq, not_true, if_false]
  obtain ⟨hread, hwrite⟩ := preOpen_wants c
  have hpre : Plays fails c taken given [] (channelPreOpen c).2 taken given := preOpen_plays hu
  generalize channelPreOpen c = pre at *
  obtain ⟨hi, ho⟩ := isDead_states pre.2
  rw [← hi] at hread
  rw [← ho] at hwrite
  by_cases hd : (chanIsDead pre.2).1 = true
  · rw [if_pos hd]
    have hcollected := hpre.collected hm
    rwa [if_pos hd] at hcollected
  · rw [if_neg hd]
    have hgc := hpre.trans (isDead_plays fails taken given hpre.usual).1
    have hrfd := hgc.trans (handleRfd_plays hgc.usual pre.1.1 hread rd)
    have hwfd := hrfd.trans (handleWfd_plays hrfd.usual (hrfd.tidy htype ht) (hrfd.windowMax ▸ hm)
      pre.1.2 (by rwa [handleRfd_ostate]) wr hf)
    have hwin := hwfd.trans (checkWindow_plays hwfd.usual (hwfd.tidy htype ht)
      (hwfd.windowMax ▸ hm))
    have hcollected := hwin.collected hm
    simpa using hcollected

/-- The link of a stream that a channel is. -/
structure Refines (l : ChannelLink) (m : Link UInt8) : Prop where
  near : Models l.near m.near
  far : Models l.far m.far
  toNear : m.toNear = l.toNear.map msgOf
  toFar : m.toFar = l.toFar.map msgOf
  sane : Sane m

lemma Refines.swap {l : ChannelLink} {m : Link UInt8} (h : Refines l m) : Refines l.swap m.swap :=
  ⟨h.far, h.near, h.toFar, h.toNear, h.sane.swap⟩

section
variable {p q : Prop} {l l' : ChannelLink} {m : Link UInt8}

/-- What the near end does, and sends, is a run of the link. -/
lemma Refines.does (h : Refines l m) (ha : m.near.accepted = true) {e : End UInt8}
    {sent : List ChannelMsg} (hd : Does p m.near (sent.map msgOf) e) {x : ChannelEnd}
    (hx : Models x e) :
    ∃ m', ReflTransGen (Step p q) m m' ∧
      Refines { l with near := x, toFar := l.toFar ++ sent } m' := by
  have hs : ReflTransGen (Step p q) m _ := hd.steps ha
  exact ⟨_, hs, hx, h.far, h.toNear, by simp [h.toFar], h.sane.steps hs⟩

lemma poll_refines (h : Refines l m) (rd : ReadResult) (wr : WriteResult) (hf : wr.fails → p) :
    ∃ m', ReflTransGen (Step p q) m m' ∧
      Refines { l with
        near := (l.near.poll rd wr).1, toFar := l.toFar ++ (l.near.poll rd wr).2 } m' := by
  obtain ⟨⟨chan, taken, given⟩, far, toNear, toFar⟩ := l
  cases chan with
  | none => exact ⟨m, .refl, by simpa [ChannelEnd.poll] using h⟩
  | some c =>
    by_cases htype : c.type = .opened
    · obtain ⟨hu, he⟩ := h.near.alive c rfl
      have ht := he ▸ h.sane.near
      obtain ⟨e', hdoes, hmodels⟩ := poll_does hu htype ht (h.near.windowMax rfl) rd wr hf
      exact h.does (by rw [he]; exact decide_eq_true htype) (he ▸ hdoes) hmodels
    · exact ⟨m, .refl, by simpa [ChannelEnd.poll, htype] using h⟩

lemma output_refines (h : Refines l m) {c : Channel} (hc : l.near.chan = some c) :
    ∃ m', ReflTransGen (Step p q) m m' ∧
      Refines { l with
        near := { l.near with chan := some (channelOutputPoll c).1 }
        toFar := l.toFar ++ (channelOutputPoll c).2 } m' := by
  obtain ⟨⟨chan, taken, given⟩, far, toNear, toFar⟩ := l
  cases hc
  by_cases htype : c.type = .opened
  · obtain ⟨hu, he⟩ := h.near.alive c rfl
    have hplays : Plays p c taken given _ _ taken given := outputPoll_plays hu
    have hm : (channelOutputPoll c).1.localWindowMax < 2 ^ 32 :=
      hplays.windowMax ▸ h.near.windowMax rfl
    exact h.does (by rw [he]; exact decide_eq_true htype) (he ▸ hplays.does)
      (models_some hplays.usual hm)
  · exact ⟨m, .refl, by simpa [channelOutputPoll, htype] using h⟩

lemma nearStep_packet {c : Channel} {taken given : Bytes} {far : ChannelEnd} {msg : ChannelMsg}
    {toNear toFar : List ChannelMsg} :
    (ChannelLink.mk ⟨some c, taken, given⟩ far (msg :: toNear) toFar).nearStep .packet =
      (channelInput msg c).map (fun r =>
        ⟨⟨some r.1, taken, given⟩, far, toNear, toFar ++ r.2⟩) := by
  cases msg <;> rfl

/-- A packet never ends the connection: its channel is there, and its handler takes it. -/
lemma packet_refines (h : Refines l m) {msg : ChannelMsg} {toNear : List ChannelMsg}
    (hn : l.toNear = msg :: toNear) :
    ∃ l', l.nearStep .packet = some l' ∧
      ∃ m', ReflTransGen (Step p q) m m' ∧ Refines l' m' := by
  obtain ⟨⟨chan, taken, given⟩, far, _, toFar⟩ := l
  cases hn
  have hqueue : m.toNear = msgOf msg :: toNear.map msgOf := h.toNear
  have hback := h.sane.back
  rw [hqueue] at hback
  cases chan with
  | none =>
    have hgone := h.near.gone rfl
    rw [hback.not_freed h.sane.near] at hgone
    cases hgone
  | some c =>
    obtain ⟨hu, he⟩ := h.near.alive c rfl
    have hfits := hback.fits
    have hreceive : Step p q m { m with
        near := m.near.receive (msgOf msg), toNear := toNear.map msgOf } :=
      .near (.receive hqueue)
    have hadjust : ∀ n, msg = .windowAdjust n → c.remoteWindow + n < 2 ^ 32 := by
      rintro n rfl
      have hwindow := h.sane.forth.window
      have hbudget := h.sane.far.budget
      have hcapacity := h.far.capacity
      rw [hqueue, creditOf_cons, he] at hwindow
      simp only [msgOf, Msg.amount, endOf] at hwindow
      omega
    have hinput : ∃ c' sent, channelInput msg c = some (c', sent) ∧
        Takes p c taken given msg sent c' :=
      input_takes hu (he ▸ h.sane.near) (h.near.windowMax rfl) (he ▸ hfits) hadjust
    obtain ⟨c', sent, hinput, husual, hdoes⟩ := hinput
    have hsame : c'.localWindowMax = c.localWindowMax :=
      hdoes.sameSize.1.trans (receive_sameSize _ _).1
    have hmax : c'.localWindowMax < 2 ^ 32 := hsame ▸ h.near.windowMax rfl
    rw [← he] at hdoes
    have hsteps : ReflTransGen (Step p q) m _ := .head hreceive (hdoes.steps hfits.accepted)
    rw [nearStep_packet, hinput, Option.map_some]
    exact ⟨_, rfl, _, hsteps, models_some husual hmax, h.far, rfl, by simp [h.toFar],
      h.sane.steps hsteps⟩

lemma nearStep_refines (h : Refines l m) {a : ChannelAction} (hf : a.fails → p)
    (hs : l.nearStep a = some l') : ∃ m', ReflTransGen (Step p q) m m' ∧ Refines l' m' := by
  cases a with
  | poll rd wr =>
    cases hs
    exact poll_refines h rd wr hf
  | output =>
    cases hc : l.near.chan with
    | none =>
      simp only [ChannelLink.nearStep, hc, Option.some.injEq] at hs
      exact ⟨m, .refl, hs ▸ h⟩
    | some c =>
      simp only [ChannelLink.nearStep, hc, Option.some.injEq] at hs
      exact hs ▸ output_refines h hc
  | packet =>
    cases hn : l.toNear with
    | nil => simp [ChannelLink.nearStep, hn] at hs
    | cons msg toNear =>
      have hpacket : ∃ l', l.nearStep .packet = some l' ∧
          ∃ m', ReflTransGen (Step p q) m m' ∧ Refines l' m' := packet_refines h hn
      obtain ⟨_, heq, hm⟩ := hpacket
      rw [heq, Option.some.injEq] at hs
      exact hs ▸ hm

/-- Every step of the code is a run of the protocol. -/
lemma step_refines (h : Refines l m) {a : Side × ChannelAction} (hp : a.1 = .near → a.2.fails → p)
    (hq : a.1 = .far → a.2.fails → q) (hs : l.step a = some l') :
    ∃ m', ReflTransGen (Step p q) m m' ∧ Refines l' m' := by
  obtain ⟨s, a⟩ := a
  cases s with
  | near => exact nearStep_refines h (hp rfl) hs
  | far =>
    obtain ⟨l₁, hl, rfl⟩ := Option.map_eq_some_iff.mp hs
    have hrefines : ∃ m', ReflTransGen (Step q p) m.swap m' ∧ Refines l₁ m' :=
      nearStep_refines h.swap (hq rfl) hl
    obtain ⟨m₁, hsteps, hm₁⟩ := hrefines
    exact ⟨m₁.swap, steps_swap hsteps, hm₁.swap⟩

lemma refines_start (size : Side → ChannelSize) :
    Refines (ChannelLink.start size) (Link.start (size .near).window (size .near).maxpacket
      (size .far).window (size .far).maxpacket) := by
  refine ⟨?_, ?_, rfl, rfl, sane_start _ _ _ _⟩
  · refine ⟨rfl, rfl, (size .near).window_lt, fun c hc => ?_, nofun⟩
    cases hc
    exact ⟨⟨InputState.noConfusion, OutputState.noConfusion⟩, rfl⟩
  · refine ⟨rfl, rfl, (size .far).window_lt, fun c hc => ?_, nofun⟩
    cases hc
    exact ⟨⟨InputState.noConfusion, OutputState.noConfusion⟩, rfl⟩

lemma run_refines {size : Side → ChannelSize} {as : List (Side × ChannelAction)}
    (hf : ∀ a ∈ as, (a.1 = .near → a.2.fails → p) ∧ (a.1 = .far → a.2.fails → q))
    (hr : run ChannelLink.step (ChannelLink.start size) as = some l) :
    ∃ m, ReflTransGen (Step p q) (Link.start (size .near).window (size .near).maxpacket
      (size .far).window (size .far).maxpacket) m ∧ Refines l m := by
  refine run_invariant (fun l => ∃ m, ReflTransGen (Step p q) _ m ∧ Refines l m) ?_
    ⟨_, .refl, refines_start size⟩ (guarded_of_forall hf) hr
  rintro l a l' ⟨m, hsteps, hm⟩ ⟨hp, hq⟩ hs
  obtain ⟨m', hsteps', hm'⟩ := step_refines hm hp hq hs
  exact ⟨m', hsteps.trans hsteps', hm'⟩

lemma Refines.given_prefix (h : Refines l m) : l.near.given <+: l.far.taken := by
  rw [← h.near.given, ← h.far.taken]
  exact h.sane.back.before

/-- The room that an end has announced holds all that is on its way to it, and all that it has
not given yet. -/
lemma Refines.room (h : Refines l m) {c : Channel} (hc : l.near.chan = some c) :
    (dataOf (l.toNear.map msgOf)).length + c.output.length ≤ m.near.capacity := by
  have hwindow := h.sane.back.window
  have hbudget := h.sane.near.budget
  rw [h.toNear] at hwindow
  have hout : m.near.output = c.output := by rw [(h.near.alive c hc).2, endOf]
  rw [hout] at hbudget
  omega

lemma Refines.packet (h : Refines l m) (hne : l.toNear ≠ []) : (l.nearStep .packet).isSome := by
  obtain ⟨msg, toNear, hn⟩ := List.exists_cons_of_ne_nil hne
  have hpacket : ∃ l', l.nearStep .packet = some l' ∧
      ∃ m', ReflTransGen (Step True True) m m' ∧ Refines l' m' := packet_refines h hn
  obtain ⟨l', heq, _⟩ := hpacket
  simp [heq]

lemma Refines.complete (h : Refines l m) (hc : Complete m.far m.near)
    (hclosed : ∀ c, l.near.chan = some c → c.ostate = .closed) :
    l.near.given = l.far.taken ∧ ∀ c, l.far.chan = some c → c.istate = .closed := by
  have hout : m.near.outState = .closed := by
    cases hn : l.near.chan with
    | none => exact (h.sane.near.close (h.sane.near.freed (h.near.gone hn)).1).2
    | some c =>
      obtain ⟨hu, he⟩ := h.near.alive c hn
      rw [he, endOf, hu.closed_out]
      exact hclosed c hn
  obtain ⟨hgiven, hin⟩ := hc hout
  refine ⟨by rw [← h.near.given, hgiven, h.far.taken], fun c hfar => ?_⟩
  obtain ⟨hu, he⟩ := h.far.alive c hfar
  rw [he, endOf, hu.closed_in] at hin
  exact hin

end

section
variable {size : Side → ChannelSize} {as : List (Side × ChannelAction)} {l : ChannelLink}

/-- However the rounds of the two loops, the packets, the reads and the writes are mixed: what a
socket is given is a prefix of what has been read from the other, no packet ends the connection,
and an end never has more to hold than the window that it has announced. -/
theorem channel_keeps_bytes (hr : run ChannelLink.step (ChannelLink.start size) as = some l)
    (s : Side) :
    (l.end s).given <+: (l.end s.peer).taken ∧
      (l.queue s ≠ [] → (l.step (s, .packet)).isSome) ∧
      ∀ c, (l.end s).chan = some c →
        (dataOf ((l.queue s).map msgOf)).length + c.output.length ≤ (size s).window := by
  obtain ⟨m, hsteps, hm⟩ := run_refines (p := True) (q := True)
    (fun _ _ => ⟨fun _ _ => trivial, fun _ _ => trivial⟩) hr
  obtain ⟨hnear, hfar⟩ := steps_sameSize hsteps
  cases s with
  | near =>
    exact ⟨hm.given_prefix, hm.packet, fun c hc =>
      Nat.le_trans (hm.room hc) (Nat.le_of_eq hnear.1)⟩
  | far =>
    refine ⟨hm.swap.given_prefix, fun hne => ?_, fun c hc =>
      Nat.le_trans (hm.swap.room hc) (Nat.le_of_eq hfar.1)⟩
    simpa [ChannelLink.step] using hm.swap.packet hne

def tcpSize : Side → ChannelSize := fun _ => chanTcpDefault

/-- The opener gets its confirmation and reads two bytes. -/
def openedRun : List (Side × ChannelAction) :=
  [(.near, .packet), (.near, .poll (.got [104, 105]) .again)]

/-- Both ends send what they have, close, and free the channel. -/
def closedRun : List (Side × ChannelAction) :=
  openedRun ++
    ([(.near, .output), (.far, .packet), (.near, .poll .failed .again), (.near, .output),
      (.far, .poll .again (.wrote 2)), (.far, .packet), (.far, .poll .failed .again),
      (.far, .output), (.far, .poll .again .again), (.near, .packet), (.near, .poll .again .again),
      (.near, .packet), (.near, .poll .again .again), (.far, .packet),
      (.far, .poll .again .again)] : List (Side × ChannelAction))

def closedLink : ChannelLink where
  near := { chan := none, taken := [104, 105] }
  far := { chan := none, given := [104, 105] }

lemma closedRun_run : run ChannelLink.step (ChannelLink.start tcpSize) closedRun =
    some closedLink := by
  decide +kernel

theorem channel_keeps_bytes_closed :
    run ChannelLink.step (ChannelLink.start tcpSize) closedRun = some closedLink ∧
      closedLink.far.given <+: closedLink.near.taken :=
  ⟨closedRun_run, (channel_keeps_bytes closedRun_run .far).1⟩

/-- Where no write to the socket of a side fails, nothing gets lost on the way to it: once its
output is closed, it has been given all that was read from the other socket, and no more will
be read. -/
theorem channel_loses_nothing (hr : run ChannelLink.step (ChannelLink.start size) as = some l)
    {s : Side} (hok : ∀ a ∈ as, a.1 = s → ¬a.2.fails)
    (hclosed : ∀ c, (l.end s).chan = some c → c.ostate = .closed) :
    (l.end s).given = (l.end s.peer).taken ∧
      ∀ c, (l.end s.peer).chan = some c → c.istate = .closed := by
  cases s with
  | near =>
    have hf : ∀ a ∈ as, (a.1 = .near → a.2.fails → False) ∧ (a.1 = .far → a.2.fails → True) :=
      fun a ha => ⟨hok a ha, fun _ _ => trivial⟩
    obtain ⟨m, hsteps, hm⟩ := run_refines hf hr
    have hc : Complete m.far m.near :=
      (sane_start _ _ _ _).swap.steps_complete (steps_swap hsteps) nofun
    exact hm.complete hc hclosed
  | far =>
    have hf : ∀ a ∈ as, (a.1 = .near → a.2.fails → True) ∧ (a.1 = .far → a.2.fails → False) :=
      fun a ha => ⟨fun _ _ => trivial, hok a ha⟩
    obtain ⟨m, hsteps, hm⟩ := run_refines hf hr
    have hc : Complete m.near m.far := (sane_start _ _ _ _).steps_complete hsteps nofun
    exact hm.swap.complete hc hclosed

theorem channel_loses_nothing_closed :
    run ChannelLink.step (ChannelLink.start tcpSize) closedRun = some closedLink ∧
      closedLink.far.given = closedLink.near.taken :=
  have hok : ∀ a ∈ closedRun, a.1 = .far → ¬a.2.fails := by
    simp [closedRun, openedRun, ChannelAction.fails, WriteResult.fails]
  ⟨closedRun_run, (channel_loses_nothing closedRun_run hok nofun).1⟩

end

/-! ## Progress -/

lemma isDead_opened (h : c.ostate = .opened) : chanIsDead c = (false, c, []) := by
  simp [chanIsDead, h]

lemma handleRfd_again (wanted : Bool) (c : Channel) :
    channelHandleRfd wanted .again c = (c, []) := by
  simp [channelHandleRfd]

lemma handleWfd_again (wanted : Bool) (c : Channel) :
    channelHandleWfd wanted .again c = (c, []) := by
  simp [channelHandleWfd]

/-- An end whose window is used up, and that has nothing left to give, opens it again. -/
lemma poll_adjusts (htype : c.type = .opened) (ho : c.ostate = .opened) (hout : c.output = [])
    (hs : c.closeSent = false) (hr : c.closeRcvd = false) (hw : c.localWindow = 0)
    (hc : 0 < c.localConsumed) (hm : 2 ≤ c.localWindowMax) :
    (ChannelEnd.poll .again .again ⟨some c, taken, given⟩).2 = [.windowAdjust c.localConsumed] := by
  have hpre : (channelPreOpen c).2 = c := by simp [channelPreOpen, ho, hout]
  have hwindow : channelCheckWindow c =
      ({ c with localWindow := u32 (c.localWindow + c.localConsumed), localConsumed := 0 },
        [.windowAdjust c.localConsumed]) := by
    have hhalf : c.localWindow < c.localWindowMax / 2 := by omega
    simp [channelCheckWindow, hs, hr, hhalf, hc]
  have hdead : chanIsDead { c with
      localWindow := u32 (c.localWindow + c.localConsumed), localConsumed := 0 } =
        (false, _, []) := isDead_opened ho
  simp only [ChannelEnd.poll]
  rw [if_neg (not_not.mpr htype)]
  simp [hpre, isDead_opened ho, handleRfd_again, handleWfd_again, hwindow, hdead]

/-- An end with credit and input sends. -/
lemma outputPoll_sends (htype : c.type = .opened) (hin : c.istate ≠ .closed) (hu : Usual c)
    (hs : c.closeSent = false) (hr : c.closeRcvd = false) (hi : c.input ≠ [])
    (hw : 0 < c.remoteWindow) (hp : 0 < c.remoteMaxpacket) :
    ∃ bytes, bytes ≠ [] ∧ (channelOutputPoll c).2 = [.data bytes] := by
  have hopen : c.istate = .opened ∨ c.istate = .waitDrain := by
    have := hu.istate
    cases hc : c.istate <;> simp_all
  have hlen : 0 < c.input.length := List.length_pos_iff.mpr hi
  have hne : min (min c.input.length c.remoteWindow) c.remoteMaxpacket ≠ 0 := by omega
  refine ⟨c.input.take (min (min c.input.length c.remoteWindow) c.remoteMaxpacket), ?_, ?_⟩
  · simp [hi]
    omega
  · simp only [channelOutputPoll, channelOutputPollInputOpen]
    rw [if_neg (by simp [htype]), if_neg (by simp [hs, hr]), if_pos hopen, if_neg hi, if_neg hne]

lemma Refines.moves {l : ChannelLink} {m : Link UInt8} (h : Refines l m)
    (hcap : 2 ≤ m.near.capacity) (hlimit : 0 < m.near.limit) {c d : Channel}
    (hc : l.far.chan = some c) (hd : l.near.chan = some d) (hi : c.input ≠ [])
    (ho : d.ostate ≠ .closed) (hnear : l.toNear = []) (hfar : l.toFar = []) (hout : d.output = []) :
    (∃ bytes, bytes ≠ [] ∧ (channelOutputPoll c).2 = [.data bytes]) ∨
      ∃ n, 0 < n ∧ (l.near.poll .again .again).2 = [.windowAdjust n] := by
  obtain ⟨huc, hec⟩ := h.far.alive c hc
  obtain ⟨hud, hed⟩ := h.near.alive d hd
  have hmNear : m.toNear = [] := by rw [h.toNear, hnear, List.map_nil]
  have hmFar : m.toFar = [] := by rw [h.toFar, hfar, List.map_nil]
  have hmIn : m.far.input ≠ [] := by rwa [hec, endOf]
  have hmOut : m.near.outState ≠ .closed := by rwa [hed, endOf, ne_eq, hud.closed_out]
  obtain ⟨⟨ha, hin, hs, hr, hpacket⟩, ha', ho', hs', hr'⟩ :=
    h.sane.swap.waiting hmFar hmNear hmIn hmOut
  obtain ⟨hwindow, hidle⟩ := h.sane.swap.idle hmFar hmNear (by rwa [Link.swap, hed, endOf]) hmOut
  simp only [Link.swap] at ha hin hs hr hpacket ha' ho' hs' hr' hwindow hidle
  rw [hec] at ha hin hs hr hpacket hwindow hidle
  rw [hed] at hpacket ha' ho' hs' hr' hwindow hidle hcap hlimit
  replace hwindow : c.remoteWindow = d.localWindow := hwindow
  replace hidle : c.remoteWindow + d.localConsumed = d.localWindowMax := hidle
  replace hpacket : c.remoteMaxpacket = d.localMaxpacket := hpacket
  replace hcap : 2 ≤ d.localWindowMax := hcap
  replace hlimit : 0 < d.localMaxpacket := hlimit
  rcases Nat.eq_zero_or_pos c.remoteWindow with h0 | hpos
  · have hl : l.near = ⟨some d, l.near.taken, l.near.given⟩ := by rw [← hd]
    refine Or.inr ⟨d.localConsumed, by omega, ?_⟩
    rw [hl]
    exact poll_adjusts (of_decide_eq_true ha') (halfOut_eq_opened.mp ho') hout hs' hr'
      (hwindow.symm.trans h0) (by omega) hcap
  · rw [endOf, ne_eq, huc.closed_in] at hin
    exact Or.inl (outputPoll_sends (of_decide_eq_true ha) hin huc hs hr hi hpos
      (hpacket.symm ▸ hlimit))

/-- Flow control never blocks a channel: while bytes wait at one side and the other is open to
them, a message is on its way, or the other side has bytes to write, or the first sends, or the
other opens its window. -/
theorem channel_never_stalls {size : Side → ChannelSize} {as : List (Side × ChannelAction)}
    {l : ChannelLink} (hr : run ChannelLink.step (ChannelLink.start size) as = some l) (s : Side)
    (hwindow : 2 ≤ (size s).window) (hmaxpacket : 0 < (size s).maxpacket) {c d : Channel}
    (hc : (l.end s.peer).chan = some c) (hd : (l.end s).chan = some d) (hi : c.input ≠ [])
    (ho : d.ostate ≠ .closed) :
    l.queue s ≠ [] ∨ l.queue s.peer ≠ [] ∨ d.output ≠ [] ∨
      (∃ bytes, bytes ≠ [] ∧ (channelOutputPoll c).2 = [.data bytes]) ∨
      ∃ n, 0 < n ∧ ((l.end s).poll .again .again).2 = [.windowAdjust n] := by
  obtain ⟨m, hsteps, hm⟩ := run_refines (p := True) (q := True)
    (fun _ _ => ⟨fun _ _ => trivial, fun _ _ => trivial⟩) hr
  obtain ⟨⟨hnearCap, hnearLimit⟩, hfarCap, hfarLimit⟩ := steps_sameSize hsteps
  by_cases hs : l.queue s = []
  · by_cases hp : l.queue s.peer = []
    · by_cases hout : d.output = []
      · refine Or.inr (Or.inr (Or.inr ?_))
        cases s with
        | near =>
          exact hm.moves (hnearCap ▸ hwindow) (hnearLimit ▸ hmaxpacket) hc hd hi ho hs hp hout
        | far =>
          exact hm.swap.moves (hfarCap ▸ hwindow) (hfarLimit ▸ hmaxpacket) hc hd hi ho hs hp hout
      · exact Or.inr (Or.inr (Or.inl hout))
    · exact Or.inr (Or.inl hp)
  · exact Or.inl hs

def tcpChannel (input : Bytes) : Channel where
  type := .opened
  input := input
  remoteWindow := 64 * (32 * 1024)
  remoteMaxpacket := 32 * 1024
  localWindow := 64 * (32 * 1024)
  localWindowMax := 64 * (32 * 1024)
  localMaxpacket := 32 * 1024

def openedLink : ChannelLink where
  near := { chan := some (tcpChannel [104, 105]), taken := [104, 105] }
  far := { chan := some (tcpChannel []) }

theorem channel_never_stalls_opened :
    run ChannelLink.step (ChannelLink.start tcpSize) openedRun = some openedLink ∧
      (openedLink.toFar ≠ [] ∨ openedLink.toNear ≠ [] ∨ (tcpChannel []).output ≠ [] ∨
        (∃ bytes, bytes ≠ [] ∧ (channelOutputPoll (tcpChannel [104, 105])).2 = [.data bytes]) ∨
        ∃ n, 0 < n ∧ (openedLink.far.poll .again .again).2 = [.windowAdjust n]) :=
  have hr : run ChannelLink.step (ChannelLink.start tcpSize) openedRun = some openedLink := by
    decide +kernel
  ⟨hr, channel_never_stalls hr .far (by decide) (by decide) rfl rfl (List.cons_ne_nil _ _)
    OutputState.noConfusion⟩

end CMXSafe.Proofs
