import DcSim.Flow

/-!
NDP, whose receiver pulls the data.

Each data packet is acknowledged by itself and answered with a pull besides. The
cumulative ACK is one field for both ends of the flow. Nothing in the network cuts a packet
to its header, so the receiver never sends a NACK, but the sender would understand one.

Left out are the times and the set of the packets sent, which nothing reads.
-/

namespace DcSim

open Segments Word32

inductive NdpType | data | ack | nack | pull
  deriving DecidableEq

structure NdpPacket extends Packet where
  ndpType : NdpType
  pullSeq : ℕ := 0
  deriving DecidableEq

structure Ndp where
  cwnd : ℕ
  flightSize : ℕ
  ackedSeqs : Finset ℕ
  rtxQueue : List ℕ
  highestSent : ℕ
  pullWindow : ℤ
  receivedSeqs : Finset ℕ
  cumulativeAck : ℕ

namespace NdpFlow

open DcSim.Flow LossyNet

def rto : Time := 1 / 50

variable (σ : FlowSpec) (f : Flow Ndp)

def new : Flow Ndp :=
  .new σ σ.initialCwnd
    { cwnd := 15
      flightSize := 0
      ackedSeqs := ∅
      rtxQueue := []
      highestSent := 0
      pullWindow := 0
      receivedSeqs := ∅
      cumulativeAck := 0 }

/-! ### The sender -/

/-- The packet of `send_data_packet`. -/
def dataPacket (now : Time) (seq : ℕ) : NdpPacket :=
  { send σ now 1 seq with ndpType := .data }

def sendDataPacket (now : Time) (seq : ℕ) : Flow Ndp × List NdpPacket :=
  if σ.size ≤ seq then (f, [])
  else
    ({ f with own := { f.own with
        flightSize := add32 f.own.flightSize 1
        pullWindow := f.own.pullWindow + 1
        highestSent := max f.own.highestSent seq } },
      [dataPacket σ now seq])

/-- The loop of `send_pending_data` over the retransmissions. -/
def rtxLoop (now : Time) : List ℕ → Flow Ndp → Flow Ndp × List NdpPacket
  | [], f => ({ f with own := { f.own with rtxQueue := [] } }, [])
  | seq :: queue, f =>
    if f.own.flightSize < f.own.cwnd then
      let r := if seq ∈ f.own.ackedSeqs then (f, []) else sendDataPacket σ f now seq
      let r' := rtxLoop now queue r.1
      (r'.1, r.2 ++ r'.2)
    else ({ f with own := { f.own with rtxQueue := seq :: queue } }, [])

/-- The loop of `send_pending_data` over new data, for at most so many turns. -/
def newDataLoop (now : Time) : ℕ → Flow Ndp → Flow Ndp × List NdpPacket
  | 0, f => (f, [])
  | turns + 1, f =>
    if f.own.flightSize < f.own.cwnd ∧ f.nextSeqNo < σ.size then
      let r := sendDataPacket σ f now f.nextSeqNo
      let r' := newDataLoop now turns { r.1 with nextSeqNo := nextSeq σ f.nextSeqNo }
      (r'.1, r.2 ++ r'.2)
    else (f, [])

def sendPendingData (now : Time) : Flow Ndp × List NdpPacket :=
  if f.finished then (f, [])
  else
    let r := rtxLoop σ now f.own.rtxQueue f
    let r' := newDataLoop σ now (σ.size + 1) r.1
    (r'.1, r.2 ++ r'.2)

def startFlow (now : Time) : Flow Ndp × List NdpPacket :=
  let r := sendPendingData σ { f with startTime := now } now
  (r.1.setTimeout σ (now + rto), r.2)

/-- The loops that move the cumulative ACK, for at most so many turns. -/
def cumulativeLoop (more : ℕ → Prop) [DecidablePred more] : ℕ → ℕ → ℕ
  | 0, cum => cum
  | turns + 1, cum =>
    if more cum then
      if add32 cum σ.mss ≤ σ.size then cumulativeLoop more turns (add32 cum σ.mss) else σ.size
    else cum

def processAck (seq : ℕ) : Flow Ndp :=
  let acked := insert seq f.own.ackedSeqs
  let cum :=
    cumulativeLoop σ (fun cum => cum ∈ acked ∨ cum < seq) (σ.size + 1) f.own.cumulativeAck
  { f with
    acksReceived := f.acksReceived ++ [seq]
    lastUnackedSeq := cum
    own := { f.own with
      cumulativeAck := cum
      flightSize := if 0 < f.own.flightSize then f.own.flightSize - 1 else f.own.flightSize
      ackedSeqs := acked.filter (cum ≤ ·) } }

def processNack (seq : ℕ) : Flow Ndp :=
  { f with own := { f.own with
      rtxQueue := if seq ∈ f.own.ackedSeqs then f.own.rtxQueue else f.own.rtxQueue ++ [seq]
      flightSize := if 0 < f.own.flightSize then f.own.flightSize - 1 else f.own.flightSize } }

def processPull (now : Time) : Flow Ndp × List NdpPacket :=
  sendPendingData σ
    { f with own := { f.own with
        pullWindow := if 0 < f.own.pullWindow then f.own.pullWindow - 1 else f.own.pullWindow } }
    now

/-! ### The receiver -/

def sendPull (now : Time) (pullSeq : ℕ) : NdpPacket where
  type := .normal
  sendingTime := now
  flow := σ.id
  seqNo := f.own.cumulativeAck
  pfPriority := 1
  size := σ.hdrSize
  src := σ.dst
  dst := σ.src
  ndpType := .pull
  pullSeq := pullSeq

/-- The packet of `send_ack_or_nack`. -/
def ackPacket (now : Time) (seq : ℕ) (isNack : Bool) : NdpPacket where
  type := .normal
  sendingTime := now
  flow := σ.id
  seqNo := seq
  pfPriority := 1
  size := σ.hdrSize
  src := σ.dst
  dst := σ.src
  ndpType := if isNack then .nack else .ack

def sendAckOrNack (now : Time) (seq : ℕ) (isNack : Bool) : List NdpPacket :=
  [ackPacket σ now seq isNack, sendPull σ f now seq]

/-- A segment is handed to the receiver. -/
def accept (p : NdpPacket) : Flow Ndp :=
  let f := { f with delivered := insert p.seqNo f.delivered }
  if p.seqNo ∈ f.own.receivedSeqs then f
  else
    let received := insert p.seqNo f.own.receivedSeqs
    { f with
      receivedBytes := add32 f.receivedBytes (sub32 p.size σ.hdrSize)
      own := { f.own with
        receivedSeqs := received
        cumulativeAck :=
          cumulativeLoop σ (· ∈ received) (σ.size + 1) f.own.cumulativeAck } }

/-- What `receive` does with an `NDP_DATA_PACKET`. -/
def receiveData (now : Time) (p : NdpPacket) : Flow Ndp × List NdpPacket :=
  if f.finished then (f, [])
  else
    let f := accept σ f p
    let ps := sendAckOrNack σ f now p.seqNo false
    let f := { f with acksSent := f.acksSent ++ [p.seqNo] }
    if σ.size ≤ f.receivedBytes ∧ f.finished = false then
      ({ f with own := { f.own with receivedSeqs := ∅ } }.finish now, ps)
    else (f, ps)

/-- What `receive` does with an `NDP_ACK_PACKET`. -/
def receiveAck (now : Time) (seq : ℕ) : Flow Ndp × List NdpPacket :=
  let f := processAck σ f seq
  if σ.size ≤ f.own.cumulativeAck ∧ f.finished = false then (f.finish now, []) else (f, [])

def receive (now : Time) (p : NdpPacket) : Flow Ndp × List NdpPacket :=
  match p.ndpType with
  | .data => receiveData σ f now p
  | .ack => receiveAck σ f now p.seqNo
  | .nack => sendPendingData σ (processNack f p.seqNo) now
  | .pull => processPull σ f now

def handleTimeout (now : Time) : Flow Ndp × List NdpPacket :=
  { f with own := { f.own with
      cwnd := σ.initialCwnd
      flightSize := 0
      pullWindow := σ.initialCwnd
      rtxQueue := [] } }.handleTimeoutWith σ (fun f => sendPendingData σ f now) now

/-- An NDP flow with the network between its two ends. -/
def party : Party (Flow Ndp) NdpPacket Time FlowInput where
  init := new σ.longTimeout
  input := Flow.input (fun now f => startFlow σ.longTimeout f now) fun now f =>
    handleTimeout σ.longTimeout f now
  receive now p f := receive σ.longTimeout f now p

/-! ### The invariant of an unfinished flow -/

structure Pulled (σ : FlowSpec) (f : Flow Ndp) : Prop where
  nextSeqNo : f.nextSeqNo ≤ σ.size ∧ Boundary σ f.nextSeqNo
  lastUnackedSeq : f.lastUnackedSeq ≤ σ.size ∧ Boundary σ f.lastUnackedSeq
  receivedSeqs : f.own.receivedSeqs = f.delivered
  aligned : ∀ s ∈ f.delivered, σ.mss ∣ s
  bytes : f.receivedBytes = ∑ s ∈ f.delivered, payload σ.mss σ.size s
  cumulativeAck : Acked σ f.delivered f.own.cumulativeAck
  ackedSeqs : f.own.ackedSeqs ⊆ f.delivered
  rtxQueue : f.own.rtxQueue = []

structure PulledPacket (σ : FlowSpec) (f : Flow Ndp) (p : NdpPacket) : Prop where
  data : p.ndpType = .data →
    σ.mss ∣ p.seqNo ∧ sub32 p.size σ.hdrSize = payload σ.mss σ.size p.seqNo
  ack : p.ndpType = .ack → p.seqNo ∈ f.delivered
  nack : p.ndpType ≠ .nack

structure Delivers (σ : FlowSpec) (f : Flow Ndp) : Prop where
  unfinished : f.finished = false → Pulled σ f
  finished : f.finished = true → segs σ.mss σ.size ⊆ f.delivered

structure Later (f g : Flow Ndp) : Prop where
  finished : f.finished = true → g.finished = true
  delivered : f.delivered ⊆ g.delivered

abbrev NdpCall (σ : FlowSpec) : Flow Ndp → Flow Ndp × List NdpPacket → Prop :=
  Call (Delivers σ) Later fun f p => f.finished = false → PulledPacket σ f p

/-- The condition on a step: an ACK that arrives is not past the cumulative ACK. -/
def AckInPrefix (f : Flow Ndp) : Act NdpPacket Time FlowInput → Prop
  | .deliver _ p => p.ndpType = .ack → f.finished = false → p.seqNo ≤ f.own.cumulativeAck
  | _ => True

instance (f : Flow Ndp) : ∀ a, Decidable (AckInPrefix f a)
  | .deliver _ p => inferInstanceAs (Decidable
      (p.ndpType = .ack → f.finished = false → p.seqNo ≤ f.own.cumulativeAck))
  | .input _ _ | .lose _ | .duplicate _ => isTrue trivial

variable {σ f}

lemma Delivers.noCall (h : Delivers σ f) : NdpCall σ f (f, []) :=
  ⟨h, ⟨id, subset_rfl⟩, by simp⟩

lemma NdpCall.timer {r : Flow Ndp × List NdpPacket} {g : Flow Ndp} (h : NdpCall σ f r)
    (hg : ∃ e es c, g = { r.1 with retxEvent := e, retxEvents := es, retxEventCount := c }) :
    NdpCall σ f (g, r.2) := by
  obtain ⟨e, es, c, rfl⟩ := hg
  refine ⟨⟨fun hf => { h.inv.unfinished hf with }, h.inv.finished⟩,
    ⟨h.le.finished, h.le.delivered⟩, fun p hp hf => ?_⟩
  exact { h.packets p hp hf with }

lemma NdpCall.before {g : Flow Ndp} {r : Flow Ndp × List NdpPacket} (h : NdpCall σ g r)
    (hf : f.finished = g.finished) (hd : f.delivered = g.delivered) : NdpCall σ f r :=
  ⟨h.inv, ⟨fun hfin => h.le.finished (hf ▸ hfin), hd ▸ h.le.delivered⟩, h.packets⟩

lemma delivers_new (σ : FlowSpec) : Delivers σ (new σ) where
  unfinished := fun _ =>
    { nextSeqNo := ⟨Nat.zero_le _, .inl (dvd_zero _)⟩
      lastUnackedSeq := ⟨Nat.zero_le _, .inl (dvd_zero _)⟩
      receivedSeqs := rfl
      aligned := by simp [new, Flow.new]
      bytes := rfl
      cumulativeAck := ⟨Nat.zero_le _, .inl (dvd_zero _), covers_zero⟩
      ackedSeqs := subset_rfl
      rtxQueue := rfl }
  finished := nofun

section Calls

variable (hsize : σ.size + σ.mss < 4294967296)
include hsize

/-- **The loops of the cumulative ACK** move it over segments that were delivered. -/
theorem cumulativeLoop_spec {D : Finset ℕ} {more : ℕ → Prop} [DecidablePred more] (turns : ℕ)
    {cum : ℕ} (hmore : ∀ c, cum ≤ c → more c → c ∈ D) (h : Acked σ D cum) :
    Acked σ D (cumulativeLoop σ more turns cum) := by
  induction turns generalizing cum with
  | zero => exact h
  | succ turns ih =>
    have hm := σ.mss_pos
    have hadd := add32_mss hsize h.le
    rw [cumulativeLoop]
    split_ifs with hc hle
    · have hlt : cum < σ.size := by omega
      have hnext := h.next hsize hlt (hmore cum le_rfl hc)
      rw [nextRecvTill, if_neg (by omega)] at hnext
      exact ih (fun c hcum => hmore c (by omega)) hnext
    · rcases h.le.eq_or_lt with rfl | hlt
      · exact h
      · have hnext := h.next hsize hlt (hmore cum le_rfl hc)
        rwa [nextRecvTill, if_pos (by omega)] at hnext
    · exact h

theorem cumulativeLoop_turns {more : ℕ → Prop} [DecidablePred more] (turns : ℕ) {cum : ℕ}
    (hcum : cum ≤ σ.size) (hturns : σ.size < cum + turns) :
    cumulativeLoop σ more (turns + 1) cum = cumulativeLoop σ more turns cum := by
  induction turns generalizing cum with
  | zero => omega
  | succ turns ih =>
    have hm := σ.mss_pos
    have hadd := add32_mss hsize hcum
    rw [cumulativeLoop]
    conv_rhs => rw [cumulativeLoop]
    by_cases hc : more cum
    · rw [if_pos hc, if_pos hc]
      by_cases hle : add32 cum σ.mss ≤ σ.size
      · rw [if_pos hle, if_pos hle, ih hle (by omega)]
      · rw [if_neg hle, if_neg hle]
    · rw [if_neg hc, if_neg hc]

/-- **The loop over new data** sends segments of the flow. -/
theorem newDataLoop_spec (now : Time) (turns : ℕ) (f : Flow Ndp)
    (hseq : f.nextSeqNo ≤ σ.size ∧ Boundary σ f.nextSeqNo) :
    (∃ n a w m, (newDataLoop σ now turns f).1 =
        { f with
          nextSeqNo := n
          own := { f.own with flightSize := a, pullWindow := w, highestSent := m } } ∧
      n ≤ σ.size ∧ Boundary σ n) ∧
    ∀ p ∈ (newDataLoop σ now turns f).2, ∃ s < σ.size, σ.mss ∣ s ∧ p = dataPacket σ now s := by
  induction turns generalizing f with
  | zero => exact ⟨⟨_, _, _, _, rfl, hseq⟩, by simp [newDataLoop]⟩
  | succ turns ih =>
    rw [newDataLoop]
    split_ifs with hmay
    · have hsend : sendDataPacket σ f now f.nextSeqNo =
          ({ f with own := { f.own with
              flightSize := add32 f.own.flightSize 1
              pullWindow := f.own.pullWindow + 1
              highestSent := max f.own.highestSent f.nextSeqNo } },
            [dataPacket σ now f.nextSeqNo]) := if_neg (not_le.mpr hmay.2)
      obtain ⟨⟨n, a, w, m, hflow, hn⟩, hps⟩ :=
        ih { (sendDataPacket σ f now f.nextSeqNo).1 with nextSeqNo := nextSeq σ f.nextSeqNo }
          ⟨nextSeq_le _, hseq.2.nextSeq hsize hmay.2⟩
      refine ⟨⟨n, a, w, m, by rw [hflow, hsend], hn⟩, fun p hp => ?_⟩
      rcases List.mem_append.mp hp with hp | hp
      · rw [hsend] at hp
        exact ⟨_, hmay.2, hseq.2.dvd hmay.2, List.mem_singleton.mp hp⟩
      · exact hps p hp
    · exact ⟨⟨_, _, _, _, rfl, hseq⟩, by simp⟩

theorem newDataLoop_turns (now : Time) (turns : ℕ) (f : Flow Ndp) (hseq : f.nextSeqNo ≤ σ.size)
    (hturns : σ.size < f.nextSeqNo + turns) :
    newDataLoop σ now (turns + 1) f = newDataLoop σ now turns f := by
  induction turns generalizing f with
  | zero => omega
  | succ turns ih =>
    rw [newDataLoop]
    conv_rhs => rw [newDataLoop]
    by_cases hmay : f.own.flightSize < f.own.cwnd ∧ f.nextSeqNo < σ.size
    · have hnext : f.nextSeqNo < nextSeq σ f.nextSeqNo := by
        have hm := σ.mss_pos
        unfold nextSeq
        rw [add32_mss hsize hseq]
        split_ifs <;> omega
      have hrest := ih
        { (sendDataPacket σ f now f.nextSeqNo).1 with nextSeqNo := nextSeq σ f.nextSeqNo }
        (nextSeq_le _) (show σ.size < nextSeq σ f.nextSeqNo + turns by omega)
      rw [if_pos hmay, if_pos hmay]
      simp only [hrest]
    · rw [if_neg hmay, if_neg hmay]

lemma Delivers.sendPendingData (h : Delivers σ f) (now : Time) :
    NdpCall σ f (sendPendingData σ f now) := by
  unfold NdpFlow.sendPendingData
  split_ifs with hfin
  · exact h.noCall
  · have hf := h.unfinished (Bool.eq_false_iff.mpr hfin)
    rw [hf.rtxQueue, rtxLoop]
    obtain ⟨⟨n, a, w, m, hflow, hn⟩, hps⟩ := newDataLoop_spec hsize now (σ.size + 1)
      { f with own := { f.own with rtxQueue := [] } } hf.nextSeqNo
    dsimp only
    rw [hflow]
    refine ⟨⟨fun _ => { hf with nextSeqNo := hn, rtxQueue := rfl }, h.finished⟩,
      ⟨id, subset_rfl⟩, fun p hp _ => ?_⟩
    obtain ⟨s, hs, hdvd, rfl⟩ := hps p hp
    exact ⟨fun _ => ⟨hdvd, send_payload hsize now 1 hs.le⟩, nofun, nofun⟩

lemma Delivers.startFlow (h : Delivers σ f) (now : Time) : NdpCall σ f (startFlow σ f now) := by
  have hstart : Delivers σ { f with startTime := now } :=
    ⟨fun hf => { h.unfinished hf with }, h.finished⟩
  exact ((hstart.sendPendingData hsize now).timer (setTimeout_frame _ _)).before rfl rfl

lemma Delivers.processPull (h : Delivers σ f) (now : Time) :
    NdpCall σ f (processPull σ f now) := by
  have hpull : Delivers σ
      { f with own := { f.own with
          pullWindow :=
            if 0 < f.own.pullWindow then f.own.pullWindow - 1 else f.own.pullWindow } } :=
    ⟨fun hf => { h.unfinished hf with }, h.finished⟩
  exact (hpull.sendPendingData hsize now).before rfl rfl

lemma Delivers.handleTimeout (h : Delivers σ f) (now : Time) :
    NdpCall σ f (handleTimeout σ f now) := by
  have hback : Delivers σ
      { f with
        own := { f.own with
          cwnd := σ.initialCwnd
          flightSize := 0
          pullWindow := σ.initialCwnd
          rtxQueue := [] }
        nextSeqNo := f.lastUnackedSeq
        cwndMss := 1 } := by
    refine ⟨fun hf => ?_, h.finished⟩
    have h := h.unfinished hf
    exact { h with nextSeqNo := h.lastUnackedSeq, rtxQueue := rfl }
  exact ((hback.sendPendingData hsize now).timer (setTimeout_frame _ _)).before rfl rfl

/-- **An ACK in the prefix**, for a segment that was delivered, keeps the cumulative ACK the
end of a prefix. -/
lemma Delivers.receiveAck (h : Delivers σ f) (now : Time) {seq : ℕ}
    (hseq : f.finished = false → seq ∈ f.delivered ∧ seq ≤ f.own.cumulativeAck) :
    NdpCall σ f (receiveAck σ f now seq) := by
  have hack : Delivers σ (processAck σ f seq) := by
    refine ⟨fun hf => ?_, h.finished⟩
    obtain ⟨hdel, hle⟩ := hseq hf
    have h := h.unfinished hf
    have hacked : insert seq f.own.ackedSeqs ⊆ f.delivered :=
      Finset.insert_subset hdel h.ackedSeqs
    have hcum : Acked σ f.delivered (cumulativeLoop σ
        (fun cum => cum ∈ insert seq f.own.ackedSeqs ∨ cum < seq) (σ.size + 1)
        f.own.cumulativeAck) :=
      cumulativeLoop_spec hsize _ (fun c hc hmore => hacked (hmore.resolve_right (by omega)))
        h.cumulativeAck
    exact { h with
      lastUnackedSeq := ⟨hcum.le, hcum.boundary⟩
      cumulativeAck := hcum
      ackedSeqs := (Finset.filter_subset _ _).trans hacked }
  unfold NdpFlow.receiveAck
  dsimp only
  split_ifs with hend
  · have hp := hack.unfinished hend.2
    have hall := le_antisymm hp.cumulativeAck.le hend.1
    refine ⟨⟨nofun, fun _ => ?_⟩, ⟨fun _ => rfl, subset_rfl⟩, by simp⟩
    exact (hall ▸ hp.cumulativeAck.covers).segs_subset
  · exact hack.noCall.before rfl rfl

lemma Pulled.accept (h : Pulled σ f) {p : NdpPacket} (hp : PulledPacket σ f p)
    (hdata : p.ndpType = .data) : Pulled σ (accept σ f p) := by
  obtain ⟨hdvd, hbytes⟩ := hp.data hdata
  have haligned : ∀ s ∈ insert p.seqNo f.delivered, σ.mss ∣ s := fun s hs =>
    (Finset.mem_insert.mp hs).elim (fun h => h ▸ hdvd) (h.aligned s)
  have hsub : f.delivered ⊆ insert p.seqNo f.delivered := Finset.subset_insert _ _
  unfold NdpFlow.accept
  dsimp only
  rw [h.receivedSeqs]
  split_ifs with hmem
  · have hsame := Finset.insert_eq_of_mem hmem
    rw [hsame]
    exact { h with }
  · have hsum := sum_le_of_dvd σ.size σ.mss_pos haligned
    rw [Finset.sum_insert hmem, ← h.bytes] at hsum
    have hlt := σ.size_lt
    exact { h with
      receivedSeqs := rfl
      aligned := haligned
      bytes := by
        rw [Finset.sum_insert hmem, ← h.bytes, hbytes, add32_eq (by omega), Nat.add_comm]
      cumulativeAck :=
        cumulativeLoop_spec hsize _ (fun _ _ hc => hc) (h.cumulativeAck.mono hsub)
      ackedSeqs := h.ackedSeqs.trans hsub }

omit hsize in
lemma accept_delivered (f : Flow Ndp) (p : NdpPacket) :
    (accept σ f p).delivered = insert p.seqNo f.delivered := by
  unfold NdpFlow.accept
  dsimp only
  split_ifs <;> rfl

omit hsize in
lemma accept_finished (f : Flow Ndp) (p : NdpPacket) :
    (accept σ f p).finished = f.finished := by
  unfold NdpFlow.accept
  dsimp only
  split_ifs <;> rfl

lemma Delivers.receiveData (h : Delivers σ f) (now : Time) {p : NdpPacket}
    (hp : f.finished = false → PulledPacket σ f p) (hdata : p.ndpType = .data) :
    NdpCall σ f (receiveData σ f now p) := by
  unfold NdpFlow.receiveData
  by_cases hfin : f.finished = true
  · rw [if_pos hfin]
    exact h.noCall
  · rw [if_neg hfin]
    have hfin := Bool.eq_false_iff.mpr hfin
    have hacc := (h.unfinished hfin).accept hsize (hp hfin) hdata
    have hdel := accept_delivered (σ := σ) f p
    have hkeep := (accept_finished (σ := σ) f p).trans hfin
    have hlater : f.delivered ⊆ (accept σ f p).delivered := hdel ▸ Finset.subset_insert _ _
    have hanswer : ∀ q ∈ sendAckOrNack σ (accept σ f p) now p.seqNo false,
        PulledPacket σ (accept σ f p) q := by
      intro q hq
      simp only [sendAckOrNack, List.mem_cons, List.not_mem_nil, or_false] at hq
      rcases hq with rfl | rfl
      · exact ⟨nofun, fun _ => hdel ▸ Finset.mem_insert_self _ _, nofun⟩
      · exact ⟨nofun, nofun, nofun⟩
    dsimp only
    split_ifs with hend
    · -- all bytes are counted, so all segments are there
      have hall := segs_subset_of_size_le σ.mss_pos hacc.aligned (hend.1.trans hacc.bytes.le)
      exact ⟨⟨nofun, fun _ => hall⟩, ⟨fun _ => rfl, hlater⟩, fun _ _ hf => nomatch hf⟩
    · exact ⟨⟨fun _ => { hacc with }, fun hf => absurd (hkeep.symm.trans hf) nofun⟩,
        ⟨fun hf => absurd (hfin.symm.trans hf) nofun, hlater⟩,
        fun q hq _ => { hanswer q hq with }⟩

lemma Delivers.receive (h : Delivers σ f) (now : Time) {p : NdpPacket}
    (hp : f.finished = false → PulledPacket σ f p)
    (hpre : p.ndpType = .ack → f.finished = false → p.seqNo ≤ f.own.cumulativeAck) :
    NdpCall σ f (receive σ f now p) := by
  unfold NdpFlow.receive
  split
  case h_1 htype => exact h.receiveData hsize now hp htype
  case h_2 htype =>
    exact h.receiveAck hsize now fun hf => ⟨(hp hf).ack htype, hpre htype hf⟩
  case h_3 htype =>
    have hnack : Delivers σ (processNack f p.seqNo) :=
      ⟨fun hf => absurd htype (hp hf).nack, h.finished⟩
    exact (hnack.sendPendingData hsize now).before rfl rfl
  case h_4 => exact h.processPull hsize now

lemma Delivers.input (h : Delivers σ f) (now : Time) {i : FlowInput}
    {r : Flow Ndp × List NdpPacket}
    (hr : Flow.input (fun now f => NdpFlow.startFlow σ f now)
      (fun now f => NdpFlow.handleTimeout σ f now) now i f = some r) : NdpCall σ f r := by
  rcases input_cases hr with ⟨-, rfl⟩ | ⟨id, rfl⟩ | ⟨id, rfl⟩
  · have hstarted : Delivers σ { f with started := true } :=
      ⟨fun hf => { h.unfinished hf with }, h.finished⟩
    exact (hstarted.startFlow hsize now).before rfl rfl
  · exact h.noCall.timer ⟨_, _, _, rfl⟩
  · exact (h.handleTimeout hsize now).timer ⟨_, _, _, rfl⟩

end Calls

lemma ndp_calls (hsize : σ.size + σ.mss < 4294967296) :
    Calls (party σ) AckInPrefix (Delivers σ.longTimeout) Later
      (fun f p => f.finished = false → PulledPacket σ.longTimeout f p) where
  init := delivers_new _
  mono := fun {f g p} hfg hp hg => by
    have hf : f.finished = false := by
      by_contra hf
      exact absurd (hg.symm.trans (hfg.finished (Bool.eq_true_of_not_eq_false hf))) nofun
    exact { hp hf with ack := fun ha => hfg.delivered ((hp hf).ack ha) }
  input := fun _ h hr => h.input (σ := σ.longTimeout) hsize _ hr
  receive := fun hC h hp => h.receive (σ := σ.longTimeout) hsize _ hp hC

end NdpFlow

end DcSim
