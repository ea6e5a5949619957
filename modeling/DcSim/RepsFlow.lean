import DcSim.CountedFlow

/-!
REPS, which spreads its packets over the paths.

The entropy of a packet, by which a path would be chosen, is left out: nothing outside of the
flow reads it, and what the flow sends does not depend on it.
-/

namespace DcSim.RepsFlow

open DcSim.Flow LossyNet Word32

variable (σ : FlowSpec) (f : Flow Unit)

def sendPendingData (now : Time) : Flow Unit × List Packet :=
  if f.finished then (f, [])
  else if f.receivedBytes < σ.size then
    let window := add32 (mul32 f.cwndMss σ.mss) f.scoreboardSackBytes
    sendLoop σ now window 1 (σ.size + 1) f.nextSeqNo f
  else (f, [])

def startFlow (now : Time) : Flow Unit × List Packet :=
  let r := sendPendingData σ { f with startTime := now } now
  (r.1.setTimeout σ (now + σ.retxTimeout), r.2)

/-- What `receive` does with a new ACK. -/
def newAck (now : Time) (ack : ℕ) : Flow Unit × List Packet :=
  let r := sendPendingData σ (({ f with lastUnackedSeq := ack }.prune ack).increaseCwndBase σ) now
  (r.1.moveTimeout σ now, r.2)

/-- What `receive` does with an ACK. -/
def receiveAck (now : Time) (ack : ℕ) (sackList : List ℕ) : Flow Unit × List Packet :=
  let f := f.noteAck σ ack sackList
  let r := if f.lastUnackedSeq < ack then newAck σ f now ack else (f, [])
  if ack = σ.size ∧ r.1.finished = false then ({ r.1 with received := ∅ }.finish now, r.2) else r

def receive (now : Time) (p : Packet) : Flow Unit × List Packet :=
  match p.type with
  | .ack => receiveAck σ f now p.seqNo p.sackList
  | .normal => f.receiveCounted σ now p
  | _ => (f, [])

def handleTimeout (now : Time) : Flow Unit × List Packet :=
  f.handleTimeoutWith σ (fun f => sendPendingData σ f now) now

/-- A REPS flow with the network between its two ends. -/
def party : Party (Flow Unit) Packet Time FlowInput where
  init := .new σ.longTimeout σ.initialCwnd ()
  input := Flow.input (fun now f => startFlow σ.longTimeout f now) fun now f =>
    handleTimeout σ.longTimeout f now
  receive now p f := receive σ.longTimeout f now p

/-! ### One call at a time -/

variable {σ f} (hsize : σ.size + σ.mss < 4294967296)

section Calls

include hsize

lemma counted_sendPendingData (h : Counted σ f) (now : Time) :
    CountedCall σ f (sendPendingData σ f now) := by
  unfold sendPendingData
  split_ifs
  · exact h.noCall
  · exact h.sendLoop hsize now _ 1 _
  · exact h.noCall

lemma counted_startFlow (h : Counted σ f) (now : Time) :
    CountedCall σ f (startFlow σ f now) := by
  have hstart : Counted σ { f with startTime := now } := { h with }
  exact ((counted_sendPendingData hsize hstart now).timer (setTimeout_frame _ _)).before le_rfl

lemma counted_newAck (h : Counted σ f) (now : Time) {ack : ℕ} (hack : ack ≤ f.receivedBytes) :
    CountedCall σ f (newAck σ f now ack) := by
  have hacked : Counted σ ({ f with lastUnackedSeq := ack }.prune ack) :=
    h.sender ⟨Finset.filter_subset _ _, rfl, rfl, rfl⟩ h.nextSeqNo hack
  obtain ⟨c, hcwnd⟩ := ({ f with lastUnackedSeq := ack }.prune ack).increaseCwndBase_frame (σ := σ)
  have hopen : Counted σ (({ f with lastUnackedSeq := ack }.prune ack).increaseCwndBase σ) :=
    hcwnd ▸ { hacked with }
  refine ((counted_sendPendingData hsize hopen now).timer
    (moveTimeout_frame (σ := σ) _ now)).before ?_
  rw [hcwnd]
  exact le_rfl

lemma counted_receiveAck (h : Counted σ f) (now : Time) {ack : ℕ} (hack : ack ≤ f.receivedBytes)
    (sackList : List ℕ) : CountedCall σ f (receiveAck σ f now ack sackList) := by
  have hnote : Counted σ (f.noteAck σ ack sackList) := by
    refine h.sender ⟨subset_rfl, rfl, rfl, rfl⟩ ?_ h.lastUnackedSeq
    have hn := h.nextSeqNo
    have ha := hack.trans h.receivedBytes_le
    unfold noteAck
    dsimp only
    split_ifs <;> assumption
  have hcall : CountedCall σ f
      (if (f.noteAck σ ack sackList).lastUnackedSeq < ack then
        newAck σ (f.noteAck σ ack sackList) now ack else (f.noteAck σ ack sackList, [])) := by
    split_ifs
    · exact (counted_newAck hsize hnote now hack).before le_rfl
    · exact hnote.noCall.before le_rfl
  unfold receiveAck
  dsimp only
  generalize (if (f.noteAck σ ack sackList).lastUnackedSeq < ack then
    newAck σ (f.noteAck σ ack sackList) now ack else (f.noteAck σ ack sackList, [])) = r
    at hcall ⊢
  split_ifs with hend
  · exact hcall.finish now (hend.1 ▸ hack.trans hcall.le)
  · exact hcall

lemma counted_receive (h : Counted σ f) (now : Time) {p : Packet} (hp : CountedPacket σ f p)
    (honce : CountsOnce σ.mss f p) : CountedCall σ f (receive σ f now p) := by
  unfold receive
  split
  case h_1 htype => exact counted_receiveAck hsize h now (hp.ack htype) _
  case h_2 htype => exact h.receiveCounted now hp htype honce
  case h_3 => exact h.noCall

lemma counted_handleTimeout (h : Counted σ f) (now : Time) :
    CountedCall σ f (handleTimeout σ f now) := by
  have hback : Counted σ { f with nextSeqNo := f.lastUnackedSeq, cwndMss := 1 } :=
    { h with nextSeqNo := h.lastUnackedSeq.trans h.receivedBytes_le }
  exact ((counted_sendPendingData hsize hback now).timer (setTimeout_frame _ _)).before le_rfl

lemma counted_input (h : Counted σ f) (now : Time) {i : FlowInput} {r : Flow Unit × List Packet}
    (hr : Flow.input (fun now f => startFlow σ f now) (fun now f => handleTimeout σ f now) now i f =
      some r) : CountedCall σ f r := by
  rcases input_cases hr with ⟨-, rfl⟩ | ⟨id, rfl⟩ | ⟨id, rfl⟩
  · have hstarted : Counted σ { f with started := true } := { h with }
    exact (counted_startFlow hsize hstarted now).before le_rfl
  · exact h.noCall.timer ⟨_, _, _, rfl⟩
  · exact (counted_handleTimeout hsize h now).timer ⟨_, _, _, rfl⟩

end Calls

lemma counted_calls (hsize : σ.size + σ.mss < 4294967296) :
    Calls (party σ) (CountedStep σ.mss) (Counted σ.longTimeout)
      (fun f g => f.receivedBytes ≤ g.receivedBytes) (CountedPacket σ.longTimeout) where
  init := counted_new _ _ _
  mono := fun hfg hp => ⟨hp.payload, fun ha => (hp.ack ha).trans hfg⟩
  input := fun _ h hr => counted_input (σ := σ.longTimeout) hsize h _ hr
  receive := fun hC h hp => counted_receive (σ := σ.longTimeout) hsize h _ hp hC

end DcSim.RepsFlow
