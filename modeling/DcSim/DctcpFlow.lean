import DcSim.Flow
import Mathlib.Algebra.Order.Floor.Ring
import Mathlib.Data.Rat.Floor

/-!
DCTCP, which sets its window by the share of ACKs that are marked.

The receiver is written anew, and so is what the sender does with an ACK; the loop that sends and
the timer are those of the base flow. The data packets are sent by the base flow and have no mark
of their own, so what mark an ACK echoes is left to whoever delivers the packet. The arithmetic on
`double`s is that of exact rationals. A call that fails an assertion has no result.
-/

namespace DcSim

open Segments Word32

structure DctcpPacket extends Packet where
  ecn : Bool
  deriving DecidableEq

structure Dctcp where
  -- `marks` is history: the marks of all new ACKs, the latest first.
  dctcpG : ℚ
  dctcpAlpha : ℚ
  ecnHistory : List Bool
  marks : List Bool

namespace DctcpFlow

open DcSim.Flow

variable (σ : FlowSpec) (f : Flow Dctcp)

/-- The constructor, but for the constant `dctcp_g`, which is `0.0625` there. -/
def new (dctcpG : ℚ) : Flow Dctcp :=
  .new σ σ.initialCwnd
    { dctcpG := dctcpG
      dctcpAlpha := 0
      ecnHistory := List.replicate σ.maxCwnd false
      marks := [] }

/-! ### The receiver -/

/-- The loop that finds the ACK to send, for at most so many turns. -/
def ackLoop (received : Finset ℕ) (maxSeqNoRecv : ℕ) :
    ℕ → ℕ → ℕ → Bool → List ℕ → ℕ × List ℕ
  | 0, _, recvTill, _, sackList => (recvTill, sackList)
  | turns + 1, s, recvTill, inSequence, sackList =>
    if s ≤ maxSeqNoRecv then
      if s ∈ received then
        if inSequence then
          ackLoop received maxSeqNoRecv turns (add32 s σ.mss) (add32 recvTill σ.mss) true sackList
        else
          ackLoop received maxSeqNoRecv turns (add32 s σ.mss) recvTill false (sackList ++ [s])
      else ackLoop received maxSeqNoRecv turns (add32 s σ.mss) recvTill false sackList
    else (recvTill, sackList)

def receiveDataPkt (p : DctcpPacket) : Flow Dctcp × List DctcpPacket :=
  let f := f.accept σ p.toPacket
  let f := { f with maxSeqNoRecv := max f.maxSeqNoRecv p.seqNo }
  let r := ackLoop σ f.received f.maxSeqNoRecv (f.maxSeqNoRecv + 1) f.recvTill f.recvTill true []
  ({ f with recvTill := r.1, acksSent := f.acksSent ++ [r.1] },
    [{ sendAck σ r.1 r.2 with ecn := p.ecn }])

/-! ### The sender -/

/-- `send_pending_data`, with the `get_priority` of the class. -/
def sendPendingData (now : Time) : Flow Dctcp × List Packet :=
  if f.receivedBytes < σ.size then
    let window := add32 (mul32 f.cwndMss σ.mss) f.scoreboardSackBytes
    sendLoop σ now window 1 (σ.size + 1) f.nextSeqNo f
  else (f, [])

/-- The mark of a new ACK comes first in the history, which has the length `max_cwnd` at most. -/
def noteEcn (ecn : Bool) : Flow Dctcp :=
  { f with own := { f.own with
      ecnHistory := (ecn :: f.own.ecnHistory).take σ.maxCwnd
      marks := ecn :: f.own.marks } }

/-- The marks in the first `cwnd_mss` places of the history. -/
def ecnSetCount : ℕ := (f.own.ecnHistory.take f.cwndMss).count true

/-- `frac_ecn`, the quotient of two `uint32_t`. -/
def fracEcn : ℚ := (ecnSetCount f / f.cwndMss : ℕ)

/-- The value that `dctcp_alpha` is set to. -/
def nextAlpha : ℚ := (1 - f.own.dctcpG) * f.own.dctcpAlpha + f.own.dctcpG * fracEcn f

/-- The assertions of `receive_ack`, and a divisor that is not zero. -/
def Asserts : Prop :=
  f.cwndMss ≠ 0 ∧ ecnSetCount f ≤ f.cwndMss ∧ f.cwndMss ≤ f.own.ecnHistory.length ∧
    (0 ≤ fracEcn f ∧ fracEcn f ≤ 1) ∧ 0 ≤ nextAlpha f ∧ nextAlpha f ≤ 1

instance : Decidable (Asserts f) := by unfold Asserts; infer_instance

def updateAlpha : Option (Flow Dctcp) :=
  if Asserts f then some { f with own := { f.own with dctcpAlpha := nextAlpha f } } else none

def increaseCwnd : Flow Dctcp :=
  { f with cwndMss :=
      ⌊(f.cwndMss : ℚ) * (1 - f.own.dctcpAlpha / 2) + 1 / 2⌋.toNat % 4294967296 }

/-- What `receive_ack` does with a new ACK. -/
def newAck (now : Time) (ack : ℕ) (ecn : Bool) : Option (Flow Dctcp × List Packet) :=
  (updateAlpha (noteEcn σ { f with lastUnackedSeq := ack } ecn)).map fun f =>
    let r := sendPendingData σ (increaseCwnd f) now
    (r.1.moveTimeout σ now, r.2)

def receiveAck (now : Time) (ack : ℕ) (sackList : List ℕ) (ecn : Bool) :
    Option (Flow Dctcp × List Packet) :=
  let f := f.noteAck σ ack sackList
  (if f.lastUnackedSeq < ack then newAck σ f now ack ecn else some (f, [])).map fun r =>
    if ack = σ.size ∧ r.1.finished = false then ({ r.1 with received := ∅ }.finish now, r.2) else r

/-- `handle_timeout` of the base class. -/
def handleTimeout (now : Time) : Flow Dctcp × List Packet :=
  f.handleTimeoutWith σ (fun f => sendPendingData σ f now) now

/-- `receive`, unless an assertion fails; `ecn` is the mark of the packet. -/
def receive (now : Time) (p : DctcpPacket) : Option (Flow Dctcp × List DctcpPacket × List Packet) :=
  if f.finished then some (f, [], [])
  else
    match p.type with
    | .ack => (receiveAck σ f now p.seqNo p.sackList p.ecn).map fun r => (r.1, [], r.2)
    | .normal => some ((receiveDataPkt σ f p).1, (receiveDataPkt σ f p).2, [])
    | _ => none

end DctcpFlow

end DcSim
