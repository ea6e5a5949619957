import DcSim.CountedFlow
import Mathlib.Algebra.Order.Ring.Abs

/-!
STrack, which sets its window by the delay of the ACKs.

The arithmetic on `double`s is that of exact rationals, and a conversion to `uint32_t` cuts
the fraction off.
-/

namespace DcSim

open Word32

structure STrack where
  rtt : Time
  minRtt : Time
  mdev : Time
  strackCwnd : ℕ
  canDecrease : Bool
  lastDecrease : Time
  dupacks : ℕ
  inFastRecovery : Bool
  recoverq : ℕ
  inflate : ℕ
  sendTimes : ℕ → Option Time

namespace STrackFlow

open DcSim.Flow LossyNet

def alpha : ℚ := 1 / 4
def beta : ℚ := 4 / 5
def maxMdf : ℚ := 1 / 2
def baseDelay : Time := 1 / 50000
def minCwnd (σ : FlowSpec) : ℕ := mul32 2 σ.mss
def maxCwnd (σ : FlowSpec) : ℕ := mul32 σ.maxCwnd σ.mss

/-- The conversion of a number that is not negative. -/
def toUint32 (x : ℚ) : ℕ := x.floor.toNat % 4294967296

variable (σ : FlowSpec) (f : Flow STrack)

def new : Flow STrack :=
  .new σ (mul32 σ.initialCwnd σ.mss / σ.mss)
    { rtt := 0
      minRtt := σ.rtt
      mdev := 0
      strackCwnd := mul32 σ.initialCwnd σ.mss
      canDecrease := true
      lastDecrease := 0
      dupacks := 0
      inFastRecovery := false
      recoverq := 0
      inflate := 0
      sendTimes := fun _ => none }

/-- The times of the packets sent in a call are noted. -/
def noteSent (now : Time) (r : Flow STrack × List Packet) : Flow STrack × List Packet :=
  ({ r.1 with own := { r.1.own with
      sendTimes := fun s => if s ∈ r.2.map (·.seqNo) then some now else r.1.own.sendTimes s } },
    r.2)

def sendPendingData (now : Time) : Flow STrack × List Packet :=
  if f.finished then (f, [])
  else if f.receivedBytes < σ.size then
    let window := add32 (add32 f.own.strackCwnd f.scoreboardSackBytes) f.own.inflate
    noteSent now (sendLoop σ now window 1 (σ.size + 1) f.nextSeqNo f)
  else (f, [])

def startFlow (now : Time) : Flow STrack × List Packet :=
  let r := sendPendingData σ { f with startTime := now } now
  (r.1.setTimeout σ (now + σ.retxTimeout), r.2)

/-- The part of `adjust_cwnd` that tracks the round trip. -/
def trackRtt (o : STrack) (now delay : Time) : STrack :=
  let o :=
    if 0 < o.rtt then
      { o with
        mdev := 3 / 4 * o.mdev + 1 / 4 * |delay - o.rtt|
        rtt := 7 / 8 * o.rtt + 1 / 8 * delay }
    else { o with rtt := delay, mdev := delay / 2 }
  let o := if delay < o.minRtt then { o with minRtt := delay } else o
  { o with canDecrease := decide (o.rtt ≤ now - o.lastDecrease) }

def adjustCwnd (now delay : Time) : Flow STrack :=
  let o := trackRtt f.own now delay
  let target := baseDelay + o.minRtt
  let o :=
    if delay < target then
      { o with
        strackCwnd := add32 o.strackCwnd (toUint32 (alpha * (target - delay) / delay * σ.mss)) }
    else if o.canDecrease then
      { o with
        strackCwnd :=
          toUint32 (o.strackCwnd * (1 - min (beta * (delay - target) / delay) maxMdf))
        lastDecrease := now }
    else o
  let o := if o.strackCwnd < minCwnd σ then { o with strackCwnd := minCwnd σ } else o
  let o := if maxCwnd σ < o.strackCwnd then { o with strackCwnd := maxCwnd σ } else o
  { f with own := o, cwndMss := o.strackCwnd / σ.mss }

/-- What `handle_ack_strack` does with a new ACK. -/
def newAck (now : Time) (ack : ℕ) : Flow STrack × List Packet :=
  let o := { f.own with dupacks := 0 }
  let o :=
    if o.inFastRecovery ∧ o.recoverq ≤ ack then { o with inFastRecovery := false, inflate := 0 }
    else o
  let r := sendPendingData σ ({ f with own := o, lastUnackedSeq := ack }.prune ack) now
  (r.1.moveTimeout σ now, r.2)

/-- What `handle_ack_strack` does with a duplicate ACK. -/
def dupAck (now : Time) : Flow STrack × List Packet :=
  let f := { f with own := { f.own with dupacks := add32 f.own.dupacks 1 } }
  if f.own.dupacks = 3 ∧ f.own.inFastRecovery = false then
    let f := { f with own := { f.own with inFastRecovery := true, recoverq := f.nextSeqNo } }
    if f.lastUnackedSeq ∈ f.received then (f, [])
    else noteSent now (f, [send σ now 1 f.lastUnackedSeq])
  else if f.own.inFastRecovery then
    sendPendingData σ { f with own := { f.own with inflate := add32 f.own.inflate σ.mss } } now
  else (f, [])

def handleAckStrack (now : Time) (ack : ℕ) (delay : Time) : Flow STrack × List Packet :=
  let f := adjustCwnd σ f now delay
  let r := if f.lastUnackedSeq < ack then newAck σ f now ack else dupAck σ f now
  if ack = σ.size ∧ r.1.finished = false then ({ r.1 with received := ∅ }.finish now, r.2) else r

/-- The delay that `receive` takes from an ACK. -/
def measuredDelay (now : Time) (ack : ℕ) : Time :=
  match f.own.sendTimes (ack - σ.mss) with
  | some t => now - t
  | none => if 0 < f.own.rtt then f.own.rtt else σ.rtt

/-- The times of the packets below an ACK are forgotten. -/
def eraseSent (ack : ℕ) : Flow STrack :=
  { f with
    own := { f.own with sendTimes := fun s => if s < ack then none else f.own.sendTimes s }
    acksReceived := f.acksReceived ++ [ack] }

def receive (now : Time) (p : Packet) : Flow STrack × List Packet :=
  match p.type with
  | .ack =>
    handleAckStrack σ (eraseSent f p.seqNo) now p.seqNo (measuredDelay σ f now p.seqNo)
  | .normal => f.receiveCounted σ now p
  | _ => (f, [])

def handleTimeout (now : Time) : Flow STrack × List Packet :=
  { f with
    own := { f.own with
      strackCwnd := minCwnd σ
      inFastRecovery := false
      inflate := 0
      dupacks := 0 }
    cwndMss := minCwnd σ / σ.mss }.handleTimeoutWith σ (fun f => sendPendingData σ f now) now

/-- An STrack flow with the network between its two ends. -/
def party : Party (Flow STrack) Packet Time FlowInput where
  init := new σ.longTimeout
  input := Flow.input (fun now f => startFlow σ.longTimeout f now) fun now f =>
    handleTimeout σ.longTimeout f now
  receive now p f := receive σ.longTimeout f now p

/-! ### One call at a time -/

variable {σ f} (hsize : σ.size + σ.mss < 4294967296)

lemma counted_noteSent {r : Flow STrack × List Packet} (h : CountedCall σ f r) (now : Time) :
    CountedCall σ f (noteSent now r) :=
  h.sender ⟨subset_rfl, rfl, rfl, rfl⟩ rfl rfl

section Calls

include hsize

lemma counted_sendPendingData (h : Counted σ f) (now : Time) :
    CountedCall σ f (sendPendingData σ f now) := by
  unfold sendPendingData
  split_ifs
  · exact h.noCall
  · exact counted_noteSent (h.sendLoop hsize now _ 1 _) now
  · exact h.noCall

lemma counted_startFlow (h : Counted σ f) (now : Time) :
    CountedCall σ f (startFlow σ f now) := by
  have hstart : Counted σ { f with startTime := now } := { h with }
  exact ((counted_sendPendingData hsize hstart now).timer (setTimeout_frame _ _)).before le_rfl

lemma counted_newAck (h : Counted σ f) (now : Time) {ack : ℕ} (hack : ack ≤ f.receivedBytes) :
    CountedCall σ f (newAck σ f now ack) := by
  have hacked : ∀ o, Counted σ ({ f with own := o, lastUnackedSeq := ack }.prune ack) := fun _ =>
    h.sender ⟨Finset.filter_subset _ _, rfl, rfl, rfl⟩ h.nextSeqNo hack
  exact ((counted_sendPendingData hsize (hacked _) now).timer
    (moveTimeout_frame (σ := σ) _ now)).before le_rfl

lemma counted_dupAck (h : Counted σ f) (now : Time) : CountedCall σ f (dupAck σ f now) := by
  have hown : ∀ o : STrack, Counted σ { f with own := o } := fun o => { h with }
  unfold dupAck
  dsimp only
  split_ifs
  · exact (hown _).noCall.before le_rfl
  · refine counted_noteSent ?_ now
    refine ⟨hown _, le_rfl, fun p hp => ?_⟩
    obtain rfl := List.mem_singleton.mp hp
    exact countedPacket_send hsize now 1 (h.lastUnackedSeq.trans h.receivedBytes_le)
  · exact (counted_sendPendingData hsize (hown _) now).before le_rfl
  · exact (hown _).noCall.before le_rfl

lemma counted_handleAckStrack (h : Counted σ f) (now : Time) {ack : ℕ}
    (hack : ack ≤ f.receivedBytes) (delay : Time) :
    CountedCall σ f (handleAckStrack σ f now ack delay) := by
  have hadj : Counted σ (adjustCwnd σ f now delay) := { h with }
  have hcall : CountedCall σ f
      (if (adjustCwnd σ f now delay).lastUnackedSeq < ack then
        newAck σ (adjustCwnd σ f now delay) now ack
      else dupAck σ (adjustCwnd σ f now delay) now) := by
    split_ifs
    · exact (counted_newAck hsize hadj now hack).before le_rfl
    · exact (counted_dupAck hsize hadj now).before le_rfl
  unfold handleAckStrack
  dsimp only
  generalize (if (adjustCwnd σ f now delay).lastUnackedSeq < ack then
    newAck σ (adjustCwnd σ f now delay) now ack else dupAck σ (adjustCwnd σ f now delay) now) = r
    at hcall ⊢
  split_ifs with hend
  · exact hcall.finish now (hend.1 ▸ hack.trans hcall.le)
  · exact hcall

lemma counted_receive (h : Counted σ f) (now : Time) {p : Packet} (hp : CountedPacket σ f p)
    (honce : CountsOnce σ.mss f p) : CountedCall σ f (receive σ f now p) := by
  have hsent : Counted σ (eraseSent f p.seqNo) := { h with }
  unfold receive
  split
  case h_1 htype =>
    exact (counted_handleAckStrack hsize hsent now (hp.ack htype) _).before le_rfl
  case h_2 htype => exact h.receiveCounted now hp htype honce
  case h_3 => exact h.noCall

lemma counted_handleTimeout (h : Counted σ f) (now : Time) :
    CountedCall σ f (handleTimeout σ f now) := by
  have hback : ∀ (o : STrack) (w : ℕ),
      Counted σ { f with own := o, cwndMss := w, nextSeqNo := f.lastUnackedSeq } := fun _ _ =>
    { h with nextSeqNo := h.lastUnackedSeq.trans h.receivedBytes_le }
  exact ((counted_sendPendingData hsize (hback _ _) now).timer (setTimeout_frame _ _)).before le_rfl

end Calls

lemma counted_input {σ : FlowSpec} (hsize : σ.size + σ.mss < 4294967296) {f : Flow STrack}
    (h : Counted σ f) (now : Time) {i : FlowInput} {r : Flow STrack × List Packet}
    (hr : Flow.input (fun now f => startFlow σ f now) (fun now f => handleTimeout σ f now) now i f =
      some r) : CountedCall σ f r := by
  rcases input_cases hr with ⟨-, rfl⟩ | ⟨id, rfl⟩ | ⟨id, rfl⟩
  · have hstarted : Counted σ { f with started := true } := { h with }
    exact (counted_startFlow hsize hstarted now).before le_rfl
  · exact h.noCall.timer ⟨_, _, _, rfl⟩
  · exact (counted_handleTimeout hsize h now).timer ⟨_, _, _, rfl⟩

lemma counted_calls (hsize : σ.size + σ.mss < 4294967296) :
    Calls (party σ) (CountedStep σ.mss) (Counted σ.longTimeout)
      (fun f g => f.receivedBytes ≤ g.receivedBytes) (CountedPacket σ.longTimeout) where
  init := counted_new _ _ _
  mono := fun hfg hp => ⟨hp.payload, fun ha => (hp.ack ha).trans hfg⟩
  input := fun _ h hr => counted_input (σ := σ.longTimeout) hsize h _ hr
  receive := fun hC h hp => counted_receive (σ := σ.longTimeout) hsize h _ hp hC

end STrackFlow

end DcSim
