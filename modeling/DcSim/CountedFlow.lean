import DcSim.Flow

/-!
Receivers that count bytes.

The receivers of STrack and REPS answer a segment with the number of bytes they counted, and
finish the flow at its size. Their sender takes the number for a sequence number and forgets
the segments below it, so a segment that comes once more is counted once more. The
invariant here is that of a flow where this never happens.
-/

namespace DcSim.Flow

open LossyNet Segments Word32

variable {X : Type} {σ : FlowSpec} {f : Flow X}

def countAck (σ : FlowSpec) (f : Flow X) : Flow X × List Packet :=
  ({ f with acksSent := f.acksSent ++ [f.receivedBytes] }, [sendAck σ f.receivedBytes []])

/-- What `receive` does with a data packet. -/
def receiveCounted (σ : FlowSpec) (f : Flow X) (now : Time) (p : Packet) : Flow X × List Packet :=
  if f.finished then (f, [])
  else
    let r := (f.accept σ p).countAck σ
    if σ.size ≤ r.1.receivedBytes ∧ r.1.finished = false then
      ({ r.1 with received := ∅ }.finish now, r.2)
    else r

/-- The segments below an ACK are forgotten. -/
def prune (f : Flow X) (ack : ℕ) : Flow X := { f with received := f.received.filter (ack ≤ ·) }

/-- A data packet that is counted once: it has a segment of the flow, and if the segment came
before, then `received` still has it. -/
def CountsOnce (mss : ℕ) (f : Flow X) (p : Packet) : Prop :=
  p.type = .normal → f.finished = false →
    mss ∣ p.seqNo ∧ (p.seqNo ∈ f.delivered → p.seqNo ∈ f.received)

/-- The condition on a step: a data packet that arrives is counted once. -/
def CountedStep (mss : ℕ) (f : Flow X) : Act Packet Time FlowInput → Prop
  | .deliver _ p => CountsOnce mss f p
  | _ => True

instance (mss : ℕ) (f : Flow X) : ∀ a, Decidable (CountedStep mss f a)
  | .deliver _ p => inferInstanceAs (Decidable (p.type = .normal → f.finished = false →
      mss ∣ p.seqNo ∧ (p.seqNo ∈ f.delivered → p.seqNo ∈ f.received)))
  | .input _ _ | .lose _ | .duplicate _ => isTrue trivial

/-! ### The invariant -/

structure Counted (σ : FlowSpec) (f : Flow X) : Prop where
  nextSeqNo : f.nextSeqNo ≤ σ.size
  lastUnackedSeq : f.lastUnackedSeq ≤ f.receivedBytes
  received : f.received ⊆ f.delivered
  aligned : ∀ s ∈ f.delivered, σ.mss ∣ s
  bytes : f.receivedBytes = ∑ s ∈ f.delivered, payload σ.mss σ.size s
  finished : f.finished = true → segs σ.mss σ.size ⊆ f.delivered

structure CountedPacket (σ : FlowSpec) (f : Flow X) (p : Packet) : Prop where
  payload : p.type = .normal → sub32 p.size σ.hdrSize = payload σ.mss σ.size p.seqNo
  ack : p.type = .ack → p.seqNo ≤ f.receivedBytes

abbrev CountedCall (σ : FlowSpec) : Flow X → Flow X × List Packet → Prop :=
  Call (Counted σ) (fun f g => f.receivedBytes ≤ g.receivedBytes) (CountedPacket σ)

lemma Counted.receivedBytes_le (h : Counted σ f) : f.receivedBytes ≤ σ.size :=
  h.bytes.trans_le (sum_le_of_dvd σ.size σ.mss_pos h.aligned)

lemma Counted.noCall (h : Counted σ f) : CountedCall σ f (f, []) := ⟨h, le_rfl, by simp⟩

structure SameCount (f g : Flow X) : Prop where
  received : g.received ⊆ f.received
  delivered : g.delivered = f.delivered
  receivedBytes : g.receivedBytes = f.receivedBytes
  finished : g.finished = f.finished

lemma Counted.sender {g : Flow X} (h : Counted σ f) (hfg : SameCount f g)
    (hn : g.nextSeqNo ≤ σ.size) (hl : g.lastUnackedSeq ≤ f.receivedBytes) : Counted σ g where
  nextSeqNo := hn
  lastUnackedSeq := hfg.receivedBytes ▸ hl
  received := hfg.delivered ▸ hfg.received.trans h.received
  aligned := hfg.delivered ▸ h.aligned
  bytes := hfg.delivered ▸ hfg.receivedBytes ▸ h.bytes
  finished := hfg.delivered ▸ hfg.finished ▸ h.finished

lemma CountedCall.before {g : Flow X} {r : Flow X × List Packet} (h : CountedCall σ g r)
    (hfg : f.receivedBytes ≤ g.receivedBytes) : CountedCall σ f r :=
  ⟨h.inv, hfg.trans h.le, h.packets⟩

lemma CountedCall.sender {r : Flow X × List Packet} {g : Flow X} (h : CountedCall σ f r)
    (hg : SameCount r.1 g) (hn : g.nextSeqNo = r.1.nextSeqNo)
    (hl : g.lastUnackedSeq = r.1.lastUnackedSeq) : CountedCall σ f (g, r.2) :=
  ⟨h.inv.sender hg (hn ▸ h.inv.nextSeqNo) (hl ▸ h.inv.lastUnackedSeq),
    hg.receivedBytes ▸ h.le,
    fun p hp => ⟨(h.packets p hp).payload, fun ha => hg.receivedBytes ▸ (h.packets p hp).ack ha⟩⟩

lemma CountedCall.timer {r : Flow X × List Packet} {g : Flow X} (h : CountedCall σ f r)
    (hg : ∃ e es c, g = { r.1 with retxEvent := e, retxEvents := es, retxEventCount := c }) :
    CountedCall σ f (g, r.2) := by
  obtain ⟨e, es, c, rfl⟩ := hg
  exact h.sender ⟨subset_rfl, rfl, rfl, rfl⟩ rfl rfl

lemma CountedCall.finish {r : Flow X × List Packet} (h : CountedCall σ f r) (now : Time)
    (hbytes : σ.size ≤ r.1.receivedBytes) :
    CountedCall σ f ({ r.1 with received := ∅ }.finish now, r.2) := by
  have hall := segs_subset_of_size_le σ.mss_pos h.inv.aligned (hbytes.trans h.inv.bytes.le)
  exact ⟨{ h.inv with received := Finset.empty_subset _, finished := fun _ => hall }, h.le,
    fun p hp => ⟨(h.packets p hp).payload, (h.packets p hp).ack⟩⟩

lemma counted_new (σ : FlowSpec) (w : ℕ) (o : X) : Counted σ (new σ w o) where
  nextSeqNo := Nat.zero_le _
  lastUnackedSeq := le_rfl
  received := subset_rfl
  aligned := by simp [new]
  bytes := rfl
  finished := nofun

/-- **A segment that is counted once** keeps the count right. -/
lemma Counted.accept (h : Counted σ f) {p : Packet} (hp : CountedPacket σ f p)
    (hnormal : p.type = .normal) (hfin : f.finished = false) (hdvd : σ.mss ∣ p.seqNo)
    (honce : p.seqNo ∈ f.delivered → p.seqNo ∈ f.received) :
    Counted σ (f.accept σ p) ∧ f.receivedBytes ≤ (f.accept σ p).receivedBytes := by
  have haligned : ∀ s ∈ insert p.seqNo f.delivered, σ.mss ∣ s := fun s hs =>
    (Finset.mem_insert.mp hs).elim (fun h => h ▸ hdvd) (h.aligned s)
  unfold Flow.accept
  dsimp only
  split_ifs with hmem
  · have hsame := Finset.insert_eq_of_mem (h.received hmem)
    exact ⟨⟨h.nextSeqNo, h.lastUnackedSeq, hsame.symm ▸ h.received, haligned,
      hsame.symm ▸ h.bytes, by simp [hfin]⟩, le_rfl⟩
  · have hnew : p.seqNo ∉ f.delivered := fun hd => hmem (honce hd)
    have hsum := sum_le_of_dvd σ.size σ.mss_pos haligned
    rw [Finset.sum_insert hnew, ← h.bytes] at hsum
    have hlt := σ.size_lt
    have hadd : add32 f.receivedBytes (sub32 p.size σ.hdrSize) =
        payload σ.mss σ.size p.seqNo + f.receivedBytes := by
      rw [hp.payload hnormal, add32_eq (by omega), Nat.add_comm]
    rw [hadd]
    exact ⟨⟨h.nextSeqNo, h.lastUnackedSeq.trans (Nat.le_add_left _ _),
      Finset.insert_subset_insert _ h.received, haligned,
      by rw [Finset.sum_insert hnew, ← h.bytes], by simp [hfin]⟩, Nat.le_add_left _ _⟩

lemma Counted.receiveCounted (h : Counted σ f) (now : Time) {p : Packet}
    (hp : CountedPacket σ f p) (hnormal : p.type = .normal) (honce : CountsOnce σ.mss f p) :
    CountedCall σ f (f.receiveCounted σ now p) := by
  unfold Flow.receiveCounted
  by_cases hfin : f.finished = true
  · rw [if_pos hfin]
    exact h.noCall
  · rw [if_neg hfin]
    have hfin := Bool.eq_false_iff.mpr hfin
    obtain ⟨hdvd, honce⟩ := honce hnormal hfin
    obtain ⟨hacc, hle⟩ := h.accept hp hnormal hfin hdvd honce
    have hcall : CountedCall σ f ((f.accept σ p).countAck σ) := by
      refine ⟨{ hacc with }, hle, fun q hq => ?_⟩
      obtain rfl := List.mem_singleton.mp hq
      exact ⟨nofun, fun _ => le_rfl⟩
    dsimp only
    split_ifs with hend
    · exact hcall.finish now hend.1
    · exact hcall

section Calls

variable (hsize : σ.size + σ.mss < 4294967296)
include hsize

lemma countedPacket_send (now : Time) (priority : ℕ) {s : ℕ} (hs : s ≤ σ.size) :
    CountedPacket σ f (send σ now priority s) :=
  ⟨fun _ => send_payload hsize now priority hs, nofun⟩

lemma Counted.sendLoop (h : Counted σ f) (now : Time) (window priority turns : ℕ) :
    CountedCall σ f (Flow.sendLoop σ now window priority turns f.nextSeqNo f) := by
  obtain ⟨⟨n, r, es, c, hflow, hn⟩, hps⟩ :=
    sendLoop_spec hsize now window priority turns f.nextSeqNo f h.nextSeqNo
  have hn : n ≤ σ.size := by
    rcases hn with rfl | ⟨hn, -⟩
    · exact h.nextSeqNo
    · exact hn
  refine ⟨?_, hflow ▸ le_rfl, fun p hp => ?_⟩
  · rw [hflow]
    exact h.sender ⟨subset_rfl, rfl, rfl, rfl⟩ hn h.lastUnackedSeq
  · obtain ⟨s, hs, rfl, -⟩ := hps p hp
    exact countedPacket_send hsize now priority hs.le

end Calls

end DcSim.Flow
