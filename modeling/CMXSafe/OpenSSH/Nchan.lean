import CMXSafe.Lib.Machines
import Mathlib.Algebra.Group.Nat.Defs

/-!
# Open channels

`nchan.c` and the part of `channels.c` that moves data: what the two ends of a channel for a
forwarded connection do, from the moment the open is confirmed until both have freed it. Such a
channel has one socket, no extended data, no filter, and no timeout.
-/

namespace CMXSafe.OpenSSH
open Machines

abbrev Bytes := List UInt8

/-- Arithmetic of `u_int`. -/
def u32 (n : Nat) : Nat := n % 2 ^ 32

def subU32 (a b : Nat) : Nat := u32 (a + (2 ^ 32 - u32 b))

/-- `SSH_CHANNEL_OPENING` and `SSH_CHANNEL_OPEN`. -/
inductive ChannelType where
  | opening
  | opened
  deriving DecidableEq, Repr

inductive InputState where
  | opened
  | waitDrain
  | waitOclose
  | closed
  deriving DecidableEq, Repr

inductive OutputState where
  | opened
  | waitDrain
  | waitIeof
  | closed
  deriving DecidableEq, Repr

structure Channel where
  type : ChannelType
  istate : InputState := .opened
  ostate : OutputState := .opened
  eofSent : Bool := false
  eofRcvd : Bool := false
  closeSent : Bool := false
  closeRcvd : Bool := false
  input : Bytes := []
  output : Bytes := []
  remoteWindow : Nat := 0
  remoteMaxpacket : Nat := 0
  localWindow : Nat
  localWindowMax : Nat
  localConsumed : Nat := 0
  localMaxpacket : Nat
  deriving DecidableEq, Repr

inductive ChannelMsg where
  | openConfirmation (window maxpacket : Nat)
  | data (bytes : Bytes)
  | windowAdjust (adjust : Nat)
  | eof
  | close
  deriving DecidableEq, Repr

/-! ## The state machines of `nchan.c` -/

def chanShutdownWrite (c : Channel) : Channel := { c with output := [] }

def chanReadFailed (c : Channel) : Channel :=
  match c.istate with
  | .opened => { c with istate := .waitDrain }
  | _ => c

def chanSendEof2 (c : Channel) : Channel × List ChannelMsg :=
  match c.istate with
  | .waitDrain => ({ c with eofSent := true }, [.eof])
  | _ => (c, [])

def chanIbufEmpty (c : Channel) : Channel × List ChannelMsg :=
  if c.input ≠ [] then (c, [])
  else
    match c.istate with
    | .waitDrain =>
      let r := if !c.closeSent then chanSendEof2 c else (c, [])
      ({ r.1 with istate := .closed }, r.2)
    | _ => (c, [])

def chanObufEmpty (c : Channel) : Channel :=
  if c.output ≠ [] then c
  else
    match c.ostate with
    | .waitDrain => { chanShutdownWrite c with ostate := .closed }
    | _ => c

def chanSendClose2 (c : Channel) : Channel × List ChannelMsg :=
  if c.ostate ≠ .closed ∨ c.istate ≠ .closed then (c, [])
  else if c.closeSent then (c, [])
  else ({ c with closeSent := true }, [.close])

def chanRcvdIeof (c : Channel) : Channel :=
  let c := { c with eofRcvd := true }
  let c := if c.ostate = .opened then { c with ostate := .waitDrain } else c
  if c.ostate = .waitDrain ∧ c.output = [] then chanObufEmpty c else c

def chanRcvdOclose (c : Channel) : Channel × List ChannelMsg :=
  let c := { c with closeRcvd := true }
  let c :=
    match c.ostate with
    | .opened => { c with ostate := .waitDrain }
    | _ => c
  match c.istate with
  | .opened => ({ c with istate := .closed }, [])
  | .waitDrain =>
    let r := chanSendEof2 c
    ({ r.1 with istate := .closed }, r.2)
  | _ => (c, [])

def chanWriteFailed (c : Channel) : Channel :=
  match c.ostate with
  | .opened | .waitDrain => { chanShutdownWrite c with ostate := .closed }
  | _ => c

/-- `chan_is_dead`, which sends the close where it is due. -/
def chanIsDead (c : Channel) : Bool × Channel × List ChannelMsg :=
  if c.istate ≠ .closed ∨ c.ostate ≠ .closed then (false, c, [])
  else
    let r := if !c.closeSent then chanSendClose2 c else (c, [])
    (r.1.closeSent && r.1.closeRcvd, r)

/-! ## The socket -/

def chanRbuf : Nat := 16 * 1024

def channelMaxRead : Nat := 32 * 1024

def chanInputMax : Nat := 16 * 1024 * 1024

/-- What a read from a socket gives; the end of the file counts as a failure. -/
inductive ReadResult where
  | again
  | got (bytes : Bytes)
  | failed
  deriving DecidableEq, Repr

/-- How much a write to a socket takes; nothing counts as a failure. -/
inductive WriteResult where
  | again
  | wrote (n : Nat)
  | failed
  deriving DecidableEq, Repr

/-- Whether the write is one that fails. -/
def WriteResult.fails : WriteResult → Prop
  | .again => False
  | .wrote n => n = 0
  | .failed => True

/-- `channel_pre_open`: whether to read and whether to write, and the channel behind it. -/
def channelPreOpen (c : Channel) : (Bool × Bool) × Channel :=
  let rfd := c.istate = .opened ∧ 0 < c.remoteWindow ∧ c.input.length < c.remoteWindow ∧
    c.input.length + chanRbuf ≤ chanInputMax
  if c.ostate = .opened ∨ c.ostate = .waitDrain then
    if c.output ≠ [] then ((rfd, true), c)
    else if c.ostate = .waitDrain then ((rfd, false), chanObufEmpty c)
    else ((rfd, false), c)
  else ((rfd, false), c)

/-- `channel_handle_rfd`, with the bytes that it reads. -/
def channelHandleRfd (wanted : Bool) (rd : ReadResult) (c : Channel) : Channel × Bytes :=
  let avail := chanInputMax - c.input.length
  if !wanted ∨ avail = 0 ∨ c.remoteWindow ≤ c.input.length then (c, [])
  else
    let maxlen := min (min channelMaxRead (c.remoteWindow - c.input.length)) avail
    match rd with
    | .again => (c, [])
    | .got [] => (chanReadFailed c, [])
    | .got bytes => ({ c with input := c.input ++ bytes.take maxlen }, bytes.take maxlen)
    | .failed => (chanReadFailed c, [])

/-- `channel_handle_wfd`, with the bytes that it writes. -/
def channelHandleWfd (wanted : Bool) (wr : WriteResult) (c : Channel) : Channel × Bytes :=
  if !wanted ∨ c.output = [] then (c, [])
  else
    match wr with
    | .again => (c, [])
    | .wrote 0 => (chanWriteFailed c, [])
    | .wrote n =>
      let output := c.output.drop n
      ({ c with
          output := output
          localConsumed := u32 (c.localConsumed + (c.output.length - output.length)) },
        c.output.take n)
    | .failed => (chanWriteFailed c, [])

def channelCheckWindow (c : Channel) : Channel × List ChannelMsg :=
  if (!c.closeSent ∧ !c.closeRcvd) ∧
      (u32 (c.localMaxpacket * 3) < subU32 c.localWindowMax c.localWindow ∨
        c.localWindow < c.localWindowMax / 2) ∧ 0 < c.localConsumed then
    ({ c with localWindow := u32 (c.localWindow + c.localConsumed), localConsumed := 0 },
      [.windowAdjust c.localConsumed])
  else (c, [])

/-! ## The connection -/

def channelOutputPollInputOpen (c : Channel) : Channel × List ChannelMsg :=
  if c.input = [] then
    if c.istate = .waitDrain then chanIbufEmpty c else (c, [])
  else
    let len := min (min c.input.length c.remoteWindow) c.remoteMaxpacket
    if len = 0 then (c, [])
    else
      ({ c with input := c.input.drop len, remoteWindow := c.remoteWindow - len },
        [.data (c.input.take len)])

def channelOutputPoll (c : Channel) : Channel × List ChannelMsg :=
  if c.type ≠ .opened then (c, [])
  else if c.closeSent ∨ c.closeRcvd then (c, [])
  else if c.istate = .opened ∨ c.istate = .waitDrain then channelOutputPollInputOpen c
  else (c, [])

/-- `channel_input_data`. -/
def channelInputData (bytes : Bytes) (c : Channel) : Channel :=
  if c.type ≠ .opened then c
  else if c.ostate ≠ .opened then
    { c with
      localWindow := subU32 c.localWindow bytes.length
      localConsumed := u32 (c.localConsumed + bytes.length) }
  else if c.localMaxpacket < bytes.length then c
  else if c.localWindow < bytes.length then c
  else
    { c with
      localWindow := subU32 c.localWindow bytes.length
      output := c.output ++ bytes }

/-- The handlers of the messages on a channel; the result is `none` where they are fatal. -/
def channelInput (m : ChannelMsg) (c : Channel) : Option (Channel × List ChannelMsg) :=
  match m with
  | .openConfirmation window maxpacket =>
    if c.type ≠ .opening then none
    else
      some ({ c with
        remoteWindow := window, remoteMaxpacket := maxpacket, type := .opened }, [])
  | .data bytes => some (channelInputData bytes c, [])
  | .windowAdjust adjust =>
    let window := u32 (c.remoteWindow + adjust)
    if window < c.remoteWindow then none else some ({ c with remoteWindow := window }, [])
  | .eof => some (chanRcvdIeof c, [])
  | .close => some (chanRcvdOclose c)

/-- An end: its channel, until it is freed, and what has passed through the socket so far. -/
structure ChannelEnd where
  chan : Option Channel
  taken : Bytes := []
  given : Bytes := []
  deriving DecidableEq, Repr

/-- One round of the loop for a channel, `channel_prepare_poll` and `channel_after_poll`. -/
def ChannelEnd.poll (rd : ReadResult) (wr : WriteResult) (x : ChannelEnd) :
    ChannelEnd × List ChannelMsg :=
  match x.chan with
  | none => (x, [])
  | some c =>
    if c.type ≠ .opened then (x, [])
    else
      let pre := channelPreOpen c
      let gc := chanIsDead pre.2
      if gc.1 then ({ x with chan := none }, gc.2.2)
      else
        let rfd := channelHandleRfd pre.1.1 rd gc.2.1
        let wfd := channelHandleWfd pre.1.2 wr rfd.1
        let win := channelCheckWindow wfd.1
        let gc' := chanIsDead win.1
        ({ chan := if gc'.1 then none else some gc'.2.1
           taken := x.taken ++ rfd.2
           given := x.given ++ wfd.2 }, gc.2.2 ++ win.2 ++ gc'.2.2)

/-- The channel of both ends, with the messages on their way. -/
structure ChannelLink where
  near : ChannelEnd
  far : ChannelEnd
  toNear : List ChannelMsg := []
  toFar : List ChannelMsg := []
  deriving DecidableEq, Repr

def ChannelLink.swap (l : ChannelLink) : ChannelLink := ⟨l.far, l.near, l.toFar, l.toNear⟩

/-- What an end does: a round of its loop, sending what it has read, or the next message. -/
inductive ChannelAction where
  | poll (rd : ReadResult) (wr : WriteResult)
  | output
  | packet
  deriving DecidableEq, Repr

/-- Whether the action has a write that fails. -/
def ChannelAction.fails : ChannelAction → Prop
  | .poll _ wr => wr.fails
  | _ => False

/-- A step of the near end. A message to a channel that is gone ends the connection, unless it
adjusts a window. -/
def ChannelLink.nearStep (l : ChannelLink) : ChannelAction → Option ChannelLink
  | .poll rd wr =>
    let r := l.near.poll rd wr
    some { l with near := r.1, toFar := l.toFar ++ r.2 }
  | .output =>
    match l.near.chan with
    | none => some l
    | some c =>
      let r := channelOutputPoll c
      some { l with near := { l.near with chan := some r.1 }, toFar := l.toFar ++ r.2 }
  | .packet =>
    match l.toNear with
    | [] => none
    | m :: toNear =>
      match l.near.chan, m with
      | none, .windowAdjust _ => some { l with toNear := toNear }
      | none, _ => none
      | some c, m =>
        (channelInput m c).map (fun r =>
          { l with
            near := { l.near with chan := some r.1 }, toNear := toNear, toFar := l.toFar ++ r.2 })

inductive Side where
  | near
  | far
  deriving DecidableEq, Repr

def Side.peer : Side → Side
  | .near => .far
  | .far => .near

def ChannelLink.end (l : ChannelLink) : Side → ChannelEnd
  | .near => l.near
  | .far => l.far

/-- What is on its way to a side. -/
def ChannelLink.queue (l : ChannelLink) : Side → List ChannelMsg
  | .near => l.toNear
  | .far => l.toFar

def ChannelLink.step (l : ChannelLink) : Side × ChannelAction → Option ChannelLink
  | (.near, a) => l.nearStep a
  | (.far, a) => (l.swap.nearStep a).map ChannelLink.swap

/-- What an end announces when a channel is opened: 32 bits each. -/
structure ChannelSize where
  window : Nat
  maxpacket : Nat
  window_lt : window < 2 ^ 32
  maxpacket_lt : maxpacket < 2 ^ 32

/-- `CHAN_TCP_WINDOW_DEFAULT` and `CHAN_TCP_PACKET_DEFAULT`. -/
def chanTcpDefault : ChannelSize := ⟨64 * (32 * 1024), 32 * 1024, by decide, by decide⟩

/-- The state behind `channel_post_connecting` at the far end, which has sent its confirmation
to the near end, the opener. -/
def ChannelLink.start (size : Side → ChannelSize) : ChannelLink where
  near :=
    { chan := some
        { type := .opening
          localWindow := (size .near).window
          localWindowMax := (size .near).window
          localMaxpacket := (size .near).maxpacket } }
  far :=
    { chan := some
        { type := .opened
          remoteWindow := (size .near).window
          remoteMaxpacket := (size .near).maxpacket
          localWindow := (size .far).window
          localWindowMax := (size .far).window
          localMaxpacket := (size .far).maxpacket } }
  toNear := [.openConfirmation (size .far).window (size .far).maxpacket]

end CMXSafe.OpenSSH
