import DcSim.FlowTimeout
import DcSim.NetworkDelay
import DcSim.NetworkFlow

/-!
How long a flow takes at least.

A flow is finished when its sender gets the last ACK, which the receiver sends when it has all
segments. So it takes at least the transmissions of all segments but one at the host, the way of
that one, and the way of the last ACK back, whatever the other flows do, whatever is lost and
whatever the classes of the queues are.
-/

namespace DcSim

open Runs Segments Word32

namespace LossyNet

variable {F P T I : Type*} {A : Party F P T I} {C : F → Act P T I → Prop} {J : F → Prop}
  {L : F → F → Prop} {G : F → P → Prop} {good : P → Prop}

end LossyNet

/-! ### What a flow sends, and when it is finished -/

namespace Flow

variable {σ : FlowSpec} {kind : FlowKind} {f g : Flow PFabric} {p : Packet}

inductive Made (σ : FlowSpec) : Packet → Prop
  | send (now : Time) (priority seq : ℕ) : Made σ (send σ now priority seq)
  | sendAck (seq : ℕ) (sackList : List ℕ) : Made σ (sendAck σ seq sackList)
  | rtsCts (rts : Bool) (now : Time) : Made σ (rtsCts σ rts now)

lemma Made.flow (h : Made σ p) : p.flow = σ.id := by
  cases h <;> rfl

lemma Made.normal (h : Made σ p) (htype : p.type = .normal) :
    ∃ now priority seq, p = Flow.send σ now priority seq := by
  cases h with
  | send => exact ⟨_, _, _, rfl⟩
  | sendAck => cases htype
  | rtsCts rts => cases rts <;> cases htype

lemma Made.ack (h : Made σ p) (htype : p.type = .ack) :
    ∃ seq sackList, p = Flow.sendAck σ seq sackList := by
  cases h with
  | send => cases htype
  | sendAck => exact ⟨_, _, rfl⟩
  | rtsCts rts => cases rts <;> cases htype

lemma sendLoop_made {X : Type} (now : Time) (window priority turns seq : ℕ) (f : Flow X) :
    ∀ p ∈ (sendLoop σ now window priority turns seq f).2, Made σ p ∧ p.type ≠ .ack := by
  induction turns generalizing seq f with
  | zero => simp [sendLoop]
  | succ turns ih =>
    intro p hp
    unfold sendLoop at hp
    by_cases hmay : f.MaySend σ window seq
    · rw [if_pos hmay] at hp
      rcases List.mem_append.1 hp with hp | hp
      · split_ifs at hp
        · exact absurd hp List.not_mem_nil
        · exact List.mem_singleton.1 hp ▸ ⟨.send now priority seq, by simp [send]⟩
      · exact ih _ _ p hp
    · rw [if_neg hmay] at hp
      exact absurd hp List.not_mem_nil

structure SameEnd (f g : Flow PFabric) : Prop where
  finished : g.finished = f.finished
  finishTime : g.finishTime = f.finishTime
  delivered : g.delivered = f.delivered

lemma SameEnd.refl (f : Flow PFabric) : SameEnd f f := ⟨rfl, rfl, rfl⟩

lemma SameEnd.trans {h : Flow PFabric} (hfg : SameEnd f g) (hgh : SameEnd g h) : SameEnd f h :=
  ⟨hgh.finished.trans hfg.finished, hgh.finishTime.trans hfg.finishTime,
    hgh.delivered.trans hfg.delivered⟩

lemma SameEnd.timer (hg : ∃ e es c, g =
      { f with retxEvent := e, retxEvents := es, retxEventCount := c }) : SameEnd f g := by
  obtain ⟨e, es, c, rfl⟩ := hg
  exact ⟨rfl, rfl, rfl⟩

structure Sending (σ : FlowSpec) (f : Flow PFabric) (r : Flow PFabric × List Packet) : Prop where
  same : SameEnd f r.1
  made : ∀ p ∈ r.2, Made σ p ∧ p.type ≠ .ack

lemma Sending.before {r : Flow PFabric × List Packet} (h : Sending σ g r) (hfg : SameEnd f g) :
    Sending σ f r := ⟨hfg.trans h.same, h.made⟩

lemma Sending.timer {r : Flow PFabric × List Packet} (h : Sending σ f r)
    (hg : ∃ e es c, g = { r.1 with retxEvent := e, retxEvents := es, retxEventCount := c }) :
    Sending σ f (g, r.2) := ⟨h.same.trans (.timer hg), h.made⟩

lemma sending_nothing (f : Flow PFabric) : Sending σ f (f, []) := ⟨.refl f, by simp⟩

lemma sending_rtsCts (f : Flow PFabric) (rts : Bool) (now : Time) :
    Sending σ f (f, [rtsCts σ rts now]) :=
  ⟨.refl f, fun _ hp => List.mem_singleton.1 hp ▸ ⟨.rtsCts rts now, by cases rts <;> nofun⟩⟩

lemma sending_pending (f : Flow PFabric) (now : Time) :
    Sending σ f (f.sendPendingData σ kind now) := by
  unfold Flow.sendPendingData
  split_ifs
  · refine ⟨?_, sendLoop_made now _ _ _ _ f⟩
    obtain ⟨n, r, es, c, hflow⟩ := sendLoop_frame (σ := σ) now
      (add32 (mul32 f.cwndMss σ.mss) f.scoreboardSackBytes) (f.getPriority σ kind) (σ.size + 1)
      f.nextSeqNo f
    rw [hflow]
    exact ⟨rfl, rfl, rfl⟩
  · exact sending_nothing f

lemma sending_startFlow (f : Flow PFabric) (now : Time) : Sending σ f (f.startFlow σ kind now) := by
  cases kind
  · exact sending_pending f now
  · exact sending_pending f now
  · exact sending_rtsCts f true now

lemma sending_handleTimeout (f : Flow PFabric) (now : Time) :
    Sending σ f (f.handleTimeout σ kind now) := by
  have hwith : ∀ o, Sending σ f
      ({ f with own := o }.handleTimeoutWith σ (fun f => f.sendPendingData σ kind now) now) :=
    fun o => ((sending_pending _ now).timer (setTimeout_frame _ _)).before ⟨rfl, rfl, rfl⟩
  cases kind
  · exact hwith f.own
  · exact hwith _
  · exact hwith f.own

/-- **What a flow does of its own** does not finish it. -/
lemma sending_input {now : Time} {i : FlowInput} {r : Flow PFabric × List Packet}
    (hr : Flow.input (fun now f => f.startFlow σ kind now)
      (fun now f => f.handleTimeout σ kind now) now i f = some r) : Sending σ f r := by
  rcases input_cases hr with ⟨-, rfl⟩ | ⟨id, rfl⟩ | ⟨id, rfl⟩
  · exact (sending_startFlow _ now).before ⟨rfl, rfl, rfl⟩
  · exact (sending_nothing f).timer ⟨_, _, _, rfl⟩
  · exact (sending_handleTimeout f now).timer ⟨_, _, _, rfl⟩

/-- **What a flow does with a packet**: nothing that finishes it, or it takes in a segment, or the
last ACK finishes it. -/
inductive Receiving (σ : FlowSpec) (now : Time) (p : Packet) (f : Flow PFabric)
    (r : Flow PFabric × List Packet) : Prop
  | sends : Sending σ f r → Receiving σ now p f r
  | segment : p.type = .normal → r.1.finished = f.finished → r.1.finishTime = f.finishTime →
      r.1.delivered = insert p.seqNo f.delivered → (∀ q ∈ r.2, Made σ q) → Receiving σ now p f r
  | finish : p.type = .ack → p.seqNo = σ.size → r.1.finishTime = now →
      r.1.delivered = f.delivered → (∀ q ∈ r.2, Made σ q ∧ q.type ≠ .ack) →
      Receiving σ now p f r

lemma receiving_ack (f : Flow PFabric) (now : Time) (htype : p.type = .ack) :
    Receiving σ now p f (f.receiveAck σ kind now p.seqNo p.sackList) := by
  have hsends : Sending σ f (if (f.noteAck σ p.seqNo p.sackList).lastUnackedSeq < p.seqNo then
      (f.noteAck σ p.seqNo p.sackList).newAck σ kind now p.seqNo
      else (f.noteAck σ p.seqNo p.sackList, [])) := by
    split_ifs
    · obtain ⟨w, o, hcwnd⟩ := increaseCwnd_frame (σ := σ) kind
        { f.noteAck σ p.seqNo p.sackList with lastUnackedSeq := p.seqNo }
      refine ((sending_pending _ now).timer (moveTimeout_frame _ now)).before ?_
      rw [hcwnd]
      exact ⟨rfl, rfl, rfl⟩
    · exact (sending_nothing _).before ⟨rfl, rfl, rfl⟩
  unfold Flow.receiveAck
  dsimp only
  generalize (if (f.noteAck σ p.seqNo p.sackList).lastUnackedSeq < p.seqNo then
      (f.noteAck σ p.seqNo p.sackList).newAck σ kind now p.seqNo
      else (f.noteAck σ p.seqNo p.sackList, [])) = r at hsends ⊢
  split_ifs with hend
  · exact .finish htype hend.1 rfl hsends.same.delivered hsends.made
  · exact .sends hsends

lemma receiving_segment (f : Flow PFabric) (now : Time) (htype : p.type = .normal) :
    Receiving σ now p f (f.receiveDataPkt σ p) := by
  obtain ⟨r, b, haccept, -⟩ := accept_frame f p (σ := σ)
  have hmade : ∀ g : Flow PFabric, ∀ q ∈ (g.acknowledge σ).2, Made σ q := fun g q hq =>
    List.mem_singleton.1 hq ▸ .sendAck _ _
  unfold Flow.receiveDataPkt
  rw [haccept]
  exact .segment htype rfl rfl rfl (hmade _)

theorem receiving (σ : FlowSpec) (kind : FlowKind) (f : Flow PFabric) (now : Time) (p : Packet) :
    Receiving σ now p f (f.receive σ kind now p) := by
  have hbase : Receiving σ now p f (f.receiveBase σ kind now p) := by
    unfold Flow.receiveBase
    split_ifs
    · exact .sends (sending_nothing f)
    · split
      case h_1 htype => exact receiving_ack f now htype
      case h_2 htype => exact receiving_segment f now htype
      case h_3 => exact .sends (sending_nothing f)
  unfold Flow.receive
  split
  · exact .sends (sending_rtsCts f false now)
  · exact .sends (sending_pending f now)
  · exact hbase

lemma Receiving.made {now : Time} {r : Flow PFabric × List Packet} (h : Receiving σ now p f r) :
    ∀ q ∈ r.2, Made σ q := by
  cases h with
  | sends h => exact fun q hq => (h.made q hq).1
  | segment _ _ _ _ h => exact h
  | finish _ _ _ _ h => exact fun q hq => (h q hq).1

lemma party_sends (σ : FlowSpec) (kind : FlowKind) : (party σ kind).Sends (Made σ) where
  input hr p hp := ((sending_input hr).made p hp).1
  receive := (receiving σ kind _ _ _).made

structure Good (σ : FlowSpec) (f : Flow PFabric) (p : Packet) : Prop where
  safe : SafePacket σ f p
  exact : ExactPacket σ p
  made : Made σ p
  pos : p.type = .ack → 0 < σ.size

structure Sound (σ : FlowSpec) (f : Flow PFabric) : Prop where
  safe : Safe σ f
  exact : Exact σ f
  pos : f.finished = true → 0 < σ.size

lemma good_calls (hsize : σ.size + σ.mss < 4294967296) (kind : FlowKind) :
    LossyNet.Calls (party σ kind) (fun _ _ => True) (Sound σ) Ahead (Good σ) where
  init := ⟨safe_new σ _ _, exact_new σ _ _, nofun⟩
  mono hfg hp := ⟨hp.safe.mono hfg.1, hp.exact, hp.made, hp.pos⟩
  input := by
    intro f t i r hC h hr
    have hcall := (exact_calls kind hsize).input hC ⟨h.safe, h.exact⟩ hr
    have hsend := sending_input hr
    refine ⟨⟨hcall.inv.1, hcall.inv.2, fun hfin => h.pos (hsend.same.finished ▸ hfin)⟩, hcall.le,
      fun p hp => ?_⟩
    obtain ⟨hmade, hne⟩ := hsend.made p hp
    exact ⟨(hcall.packets p hp).1, (hcall.packets p hp).2, hmade, fun hack => absurd hack hne⟩
  receive := by
    intro f t p hC h hp
    have hcall := (exact_calls kind hsize).receive (t := t) hC ⟨h.safe, h.exact⟩ ⟨hp.safe, hp.exact⟩
    have hrecv := receiving σ kind f t p
    have hpos : ((f.receive σ kind t p).1.finished = true → 0 < σ.size) ∧
        ∀ q ∈ (f.receive σ kind t p).2, q.type = .ack → 0 < σ.size := by
      cases hrecv with
      | sends hsend =>
        exact ⟨fun hfin => h.pos (hsend.same.finished ▸ hfin),
          fun q hq hack => absurd hack (hsend.made q hq).2⟩
      | segment htype =>
        have hlt := hp.safe.seqNo htype
        exact ⟨fun _ => by omega, fun _ _ _ => by omega⟩
      | finish htype => exact ⟨fun _ => hp.pos htype, fun _ _ _ => hp.pos htype⟩
    exact ⟨⟨hcall.inv.1, hcall.inv.2, hpos.1⟩, hcall.le, fun q hq =>
      ⟨(hcall.packets q hq).1, (hcall.packets q hq).2, hrecv.made q hq, hpos.2 q hq⟩⟩

end Flow

/-! ### The data and the last ACK -/

namespace FlowSpec

variable (φ : FlowSpec)

/-- A packet of the data of a flow. -/
def IsSegment (p : Packet) : Prop :=
  p.type = .normal ∧ p.flow = φ.id ∧ p.src = φ.src ∧ p.dst = φ.dst ∧
    p.seqNo ∈ segs φ.mss φ.size ∧ p.size = payload φ.mss φ.size p.seqNo + φ.hdrSize

def IsLastAck (p : Packet) : Prop :=
  p.type = .ack ∧ p.flow = φ.id ∧ p.src = φ.dst ∧ p.dst = φ.src ∧ p.seqNo = φ.size ∧
    p.size = φ.hdrSize

instance (p : Packet) : Decidable (φ.IsSegment p) := by unfold IsSegment; infer_instance
instance (p : Packet) : Decidable (φ.IsLastAck p) := by unfold IsLastAck; infer_instance

variable {φ} {p : Packet} {f : Flow PFabric}

lemma isSegment (hsize : φ.size + φ.mss < 4294967296) (hhdr : φ.mss + φ.hdrSize < 4294967296)
    (h : Flow.Good φ f p) (htype : p.type = .normal) : φ.IsSegment p := by
  obtain ⟨now, priority, seq, rfl⟩ := h.made.normal htype
  have hlt : seq < φ.size := h.safe.seqNo htype
  refine ⟨rfl, rfl, rfl, rfl, mem_segs.2 ⟨hlt, h.exact.seqNo htype⟩, ?_⟩
  unfold Flow.send payload
  dsimp only
  rw [Flow.add32_mss hsize hlt.le, sub32_eq φ.size_lt hlt.le]
  split_ifs
  · rw [add32_eq (by omega)]
    omega
  · rw [add32_eq hhdr]
    omega

lemma isLastAck (h : Flow.Good φ f p) (htype : p.type = .ack) (hseq : p.seqNo = φ.size) :
    φ.IsLastAck p := by
  obtain ⟨seq, sackList, rfl⟩ := h.made.ack htype
  exact ⟨rfl, rfl, rfl, rfl, hseq, rfl⟩

end FlowSpec

/-! ### Packets that are put in -/

namespace Network

variable {Q : Type} [DecidableEq Q] {σ : NetworkSpec Q} {s t : Network Q} {ps : List Packet}

lemma Injects.keeps {I : Network Q → Prop} {now : Time} (hs : Injects σ s ps t) (h : Sound σ s)
    (hnow : s.now = now) (hI : I s)
    (hstep : ∀ {s t : Network Q} {p : Packet}, p ∈ ps → t.now = now →
      Step σ s (.inject s.now p) t → Sound σ s → I s → I t) : I t := by
  induction hs with
  | nil => exact hI
  | @cons s t u p ps hone hrest ih =>
    have hlater : u.now = now := by
      cases hone with
      | inject => exact hnow
    exact ih (hone.sound h) hlater (hstep (List.mem_cons_self ..) hlater hone h hI)
      fun hp => hstep (List.mem_cons_of_mem _ hp)

lemma Step.delivered_subset {a : NetworkAct} (hstep : Step σ s a t) :
    ∀ p ∈ s.delivered, p ∈ t.delivered := by
  intro p hp
  cases hstep with
  | inject | rest | transmit => exact hp
  | @queuing id lost e events p' q => exact (begin_history (s := s.after e events) q).2 ▸ hp
  | arrival => exact List.mem_append_left _ hp

omit [DecidableEq Q] in
lemma Batch.Serial.later {ι : Type} [DecidableEq ι] {B : Batch σ ι} (h : B.Serial s) {time : Time}
    (htime : s.now ≤ time) : B.Serial { s with now := time } where
  sizes := ⟨h.sizes.pending, h.sizes.queued⟩
  begun := h.begun.later htime
  busy t₀ ht Y hY hne hpast := by
    refine h.busy t₀ ⟨htime.trans ht.1, ht.2⟩ Y hY hne fun x hx => ?_
    cases hpast x hx with
    | queued hq hp hx => exact .queued hq hp hx
    | pending he hp hx hne => exact .pending he hp hx hne
    | delivered hp hx => exact .delivered hp hx
  last hall := by
    obtain ⟨x, hx, hnow, hdue⟩ := h.last fun x hx => by
      cases hall x hx with
      | queued hq hp hx => exact .queued hq hp hx
      | pending he hp hx hne => exact .pending he hp hx hne
      | delivered hp hx => exact .delivered hp hx
    exact ⟨x, hx, hnow.trans htime, hdue.later htime⟩

end Network

/-! ### The flow in the network -/

namespace NetworkFlow

open Network (Due Takes Batch)

variable {Q : Type} [DecidableEq Q] {σ : NetworkSpec Q} {φ : FlowSpec} {kind : FlowKind}
  {left : ℕ → Q → Time} {ackLeft : Q → Time} {b m : Time}
  {s t : NetworkFlow Q (Flow PFabric)}

lemma party_sends_own (φ : FlowSpec) (kind : FlowKind) :
    (Flow.party φ kind).Sends (·.flow = φ.id) where
  input hr p hp := ((Flow.party_sends φ kind).input hr p hp).flow
  receive p hp := ((Flow.party_sends φ kind).receive p hp).flow

/-- **Delivery safety in the network**: with its packets in flight, a flow of the base class,
pFabric or TCP is where it can come in a network that loses, delays and reorders packets, whatever
the queues and the other flows do. If no sequence number wraps around, every ACK in flight is at
most the end of the prefix that the receiver was handed, and a finished flow was delivered as a
whole. -/
theorem flow_refines (hs : Reach (machine σ (Flow.party φ kind) φ.id φ.startTime) s) :
    (∃ time ≤ s.net.now,
      Reach (LossyNet.machine (Flow.party φ kind) 0) ⟨time, s.party, s.own σ φ.id⟩) ∧
    (φ.size + φ.mss < 4294967296 →
      (∀ p ∈ s.own σ φ.id, p.type = .ack →
        p.seqNo ≤ prefixEnd φ.mss_pos φ.size s.party.delivered) ∧
      (s.party.finished = true → segs φ.mss φ.size ⊆ s.party.delivered)) := by
  obtain ⟨time, htime, hlossy⟩ := refines (party_sends_own φ kind) hs
  refine ⟨⟨time, htime, hlossy⟩, fun hsize => ?_⟩
  obtain ⟨hsafe, hown⟩ := (Flow.safe_calls kind hsize).kept.reach hlossy
  refine ⟨fun p hp htype => ?_, fun hfin => ?_⟩
  · exact ((hown p hp).ack htype).trans
      ((le_prefixEnd_iff φ.mss_pos).2 ⟨hsafe.recvTill.le, hsafe.recvTill.covers⟩)
  · exact (hsafe.finished hfin ▸ hsafe.recvTill.covers).segs_subset

/-- The queue drops the second of two segments, and the ACK of the first comes back. -/
def secondDropped : List (NetworkFlowAct FlowInput) :=
  .input 1 .start :: [0, 1, 2, 3, 4, 5, 6, 7, 8].map (.process · false)

theorem flow_refines_secondDropped :
    ∃ s, (Reach (machine Network.oneLink (Flow.party twoSegments .flow) 0 1) s ∧
        s.party.lastUnackedSeq = 1460 ∧ s.net.injected.length = 3) ∧
      (∃ time ≤ s.net.now, Reach (LossyNet.machine (Flow.party twoSegments .flow) 0)
        ⟨time, s.party, s.own Network.oneLink 0⟩) ∧
      (∀ p ∈ s.own Network.oneLink 0, p.type = .ack →
        p.seqNo ≤ prefixEnd twoSegments.mss_pos 2920 s.party.delivered) ∧
      (s.party.finished = true → segs 1460 2920 ⊆ s.party.delivered) := by
  obtain ⟨s, hs, h⟩ : ∃ s, Reach (machine Network.oneLink (Flow.party twoSegments .flow) 0 1) s ∧
      (s.party.lastUnackedSeq = 1460 ∧ s.net.injected.length = 3) :=
    exists_reach_of_exec_any secondDropped (by decide +kernel)
  obtain ⟨hlossy, hsafe⟩ := flow_refines hs
  exact ⟨s, ⟨hs, h⟩, hlossy, hsafe (by decide)⟩

/-! ### The run -/

variable (σ φ left) in
/-- The segments of the flow, with the ways that are left for each. -/
def batch : Batch σ ℕ where
  segs := segs φ.mss φ.size
  seg p := if φ.IsSegment p then some p.seqNo else none
  size x := payload φ.mss φ.size x + φ.hdrSize
  first := σ.hostQueue φ.src
  start := φ.startTime
  left := left

omit [DecidableEq Q] in
lemma batch_seg {p : Packet} {x : ℕ} (h : (batch σ φ left).seg p = some x) :
    φ.IsSegment p ∧ p.seqNo = x := by
  obtain ⟨hseg, hx⟩ := Option.ite_none_right_eq_some.1 h
  exact ⟨hseg, Option.some.inj hx⟩

omit [DecidableEq Q] in
lemma batch_sends {now : Time} (hstart : φ.startTime ≤ now) (p : Packet) :
    (batch σ φ left).Sends now p := by
  intro x hx
  obtain ⟨⟨-, -, hsrc, -, hmem, hsize⟩, rfl⟩ := batch_seg hx
  exact ⟨hstart, congrArg σ.hostQueue hsrc, hmem, hsize⟩

variable (σ φ left ackLeft b) in
structure Late (s : NetworkFlow Q (Flow PFabric)) : Prop where
  begun : Due (fun p => p.flow = φ.id) (fun _ => 0) φ.startTime s.net
  serial : (batch σ φ left).Serial s.net
  handed : ∀ x ∈ s.party.delivered, ∃ p ∈ s.net.delivered, (batch σ φ left).seg p = some x
  acked : Due (fun p => φ.IsLastAck p) ackLeft b s.net
  finished : s.party.finished = true → b ≤ s.party.finishTime

structure Ways (σ : NetworkSpec Q) (φ : FlowSpec) (left : ℕ → Q → Time) (ackLeft : Q → Time)
    (m : Time) : Prop where
  right : (batch σ φ left).Right
  ackRight : Takes σ (fun p => φ.IsLastAck p) ackLeft
  le : ∀ x ∈ segs φ.mss φ.size,
    m ≤ (batch σ φ left).others x + left x (σ.hostQueue φ.src)

/-- The time of the last ACK. -/
abbrev ackTime (σ : NetworkSpec Q) (φ : FlowSpec) (ackLeft : Q → Time) (m : Time) : Time :=
  φ.startTime + m + ackLeft (σ.hostQueue φ.dst)

lemma Late.net (h : Late σ φ left ackLeft b s) (hways : Ways σ φ left ackLeft m)
    {a : NetworkAct} {n : Network Q} (hstep : Network.Step σ s.net a n)
    (hs : Network.Sound σ s.net) (hother : ∀ p ∈ a.packets, p.flow ≠ φ.id)
    (hdelivered : ∀ p ∈ s.net.delivered, p ∈ n.delivered) :
    Late σ φ left ackLeft b ⟨n, s.party⟩ where
  begun := hstep.due hs (Batch.takes_zero _) h.begun fun p hp hc =>
    absurd (of_decide_eq_true hc) (hother p hp)
  serial := h.serial.step hways.right hstep hs fun p hp x hx =>
    absurd (batch_seg hx).1.2.1 (hother p hp)
  handed x hx := by
    obtain ⟨p, hp, hseg⟩ := h.handed x hx
    exact ⟨p, hdelivered p hp, hseg⟩
  acked := hstep.due hs hways.ackRight h.acked fun p hp hc =>
    absurd (of_decide_eq_true hc).2.1 (hother p hp)
  finished := h.finished

lemma Late.injects {n n' : Network Q} {g : Flow PFabric} {ps : List Packet}
    (hways : Ways σ φ left ackLeft m) (hn : Network.Injects σ n ps n') (hs : Network.Sound σ n)
    (h : Late σ φ left ackLeft (ackTime σ φ ackLeft m) ⟨n, g⟩) (hg : Flow.Sound φ g)
    (hps : ∀ p ∈ ps, Flow.Good φ g p) (hstart : φ.startTime ≤ n.now) :
    Late σ φ left ackLeft (ackTime σ φ ackLeft m) ⟨n', g⟩ where
  begun := hn.keeps (I := Due _ _ _) hs rfl h.begun fun hp hnow hstep hs hdue =>
    hstep.due hs (Batch.takes_zero _) hdue fun p _ _ => by rw [hnow, add_zero]; exact hstart
  serial := hn.keeps (I := (batch σ φ left).Serial) hs rfl h.serial fun hp hnow hstep hs hserial =>
    hserial.step hways.right hstep hs fun p _ => batch_sends (hnow ▸ hstart) p
  handed x hx := hn.delivered ▸ h.handed x hx
  acked := by
    refine hn.keeps (I := Due _ _ _) hs rfl h.acked fun {s t p} hp hnow hstep hs hdue =>
      hstep.due hs hways.ackRight hdue fun p' hp' hc => ?_
    obtain rfl := List.mem_singleton.1 hp'
    obtain ⟨htype, -, hsrc, -, hseq, -⟩ := of_decide_eq_true hc
    have hall : segs φ.mss φ.size ⊆ g.delivered :=
      (hg.safe.recvTill.covers.le (hseq ▸ (hps p' hp).safe.ack htype)).segs_subset
    obtain ⟨x, hx, hlate⟩ := h.serial.late fun x hx => h.handed x (hall hx)
    have hle := hways.le x hx
    rw [hnow, hsrc]
    change φ.startTime + (batch σ φ left).others x + left x (σ.hostQueue φ.src) ≤ n.now at hlate
    exact add_le_add (by linarith) le_rfl
  finished := h.finished

/-- **What a step does to a flow that is late.** -/
theorem Late.step (hsize : φ.size + φ.mss < 4294967296) (hhdr : φ.mss + φ.hdrSize < 4294967296)
    (hways : Ways σ φ left ackLeft m) (hs : Network.Sound σ s.net)
    (hparty : Flow.Sound φ s.party) (hown : ∀ p ∈ s.own σ φ.id, Flow.Good φ s.party p)
    (h : Late σ φ left ackLeft (ackTime σ φ ackLeft m) s)
    (hstep : Step σ (Flow.party φ kind) φ.id φ.startTime s t) :
    Late σ φ left ackLeft (ackTime σ φ ackLeft m) t := by
  have hnone : ∀ {id : ℕ} {lost : Bool}, ∀ p ∈ (NetworkAct.process id lost).packets,
      p.flow ≠ φ.id := fun p hp => absurd hp List.not_mem_nil
  cases hstep with
  | other hflow hn =>
    refine h.net hways hn hs (fun p hp => ?_) fun p hp => ?_
    · exact List.mem_singleton.1 hp ▸ hflow
    · cases hn with
      | inject => exact hp
  | @pass id lost n hn =>
    exact h.net hways hn hs hnone hn.delivered_subset
  | @input time i r n hstart hnow hnone hr hn =>
    have hcall := (Flow.good_calls hsize kind).input trivial hparty hr
    have hsame := (Flow.sending_input hr).same
    refine .injects hways hn (hs.later hnone) ?_ hcall.inv hcall.packets hstart
    exact {
      begun := h.begun.later hnow
      serial := h.serial.later hnow
      handed := fun x hx => h.handed x (hsame.delivered ▸ hx)
      acked := h.acked.later hnow
      finished := fun hfin => hsame.finishTime ▸ h.finished (hsame.finished ▸ hfin) }
  | @receive id lost p n n' hn hflow hflight hdelivered hn' =>
    have hp : Flow.Good φ s.party p := by
      refine hown p (Multiset.mem_filter.2 ⟨?_, hflow⟩)
      rw [hflight]
      exact Multiset.mem_cons_self ..
    have hcall := (Flow.good_calls hsize kind).receive (t := n.now) trivial hparty hp
    have hnet := h.net hways hn hs hnone fun p hp => hdelivered ▸ List.mem_append_left _ hp
    have hmem : p ∈ n.delivered := hdelivered ▸ List.mem_append_right _ (List.mem_singleton_self p)
    have hstart : φ.startTime ≤ n.now := hnet.begun.delivered p hmem (decide_eq_true hflow)
    refine .injects hways hn' (hn.sound hs) ?_ hcall.inv hcall.packets hstart
    have hrecv : Flow.Receiving φ n.now p s.party ((Flow.party φ kind).receive n.now p s.party) :=
      Flow.receiving φ kind s.party n.now p
    refine ⟨hnet.begun, hnet.serial, ?_, hnet.acked, ?_⟩
    · intro x hx
      cases hrecv with
      | sends hsend => exact hnet.handed x (hsend.same.delivered ▸ hx)
      | finish _ _ _ hsame => exact hnet.handed x (hsame ▸ hx)
      | segment htype _ _ hinsert =>
        rw [hinsert] at hx
        rcases Finset.mem_insert.1 hx with rfl | hx
        · exact ⟨p, hmem, if_pos (FlowSpec.isSegment hsize hhdr hp htype)⟩
        · exact hnet.handed x hx
    · intro hfin
      cases hrecv with
      | sends hsend => exact hsend.same.finishTime ▸ h.finished (hsend.same.finished ▸ hfin)
      | segment _ hsame htime => exact htime ▸ h.finished (hsame ▸ hfin)
      | finish htype hseq htime =>
        rw [htime]
        exact hnet.acked.delivered p hmem (decide_eq_true (FlowSpec.isLastAck hp htype hseq))

/-- **A flow takes as long as the network makes it**: it is not finished before the transmissions
of all segments but one, the way of that one and the way of the last ACK have passed. -/
theorem le_finishTime (hsize : φ.size + φ.mss < 4294967296)
    (hhdr : φ.mss + φ.hdrSize < 4294967296) (hways : Ways σ φ left ackLeft m)
    (hs : Reach (machine σ (Flow.party φ kind) φ.id φ.startTime) s)
    (hfin : s.party.finished = true) : ackTime σ φ ackLeft m ≤ s.party.finishTime := by
  have hgood : ∀ {s}, Reach (machine σ (Flow.party φ kind) φ.id φ.startTime) s →
      Flow.Sound φ s.party ∧ ∀ p ∈ s.own σ φ.id, Flow.Good φ s.party p := fun hs => by
    obtain ⟨time, -, hlossy⟩ := refines (party_sends_own φ kind) hs
    exact (Flow.good_calls hsize kind).kept.reach hlossy
  have hpos : (segs φ.mss φ.size).Nonempty :=
    ⟨0, mem_segs.2 ⟨(hgood hs).1.pos hfin, dvd_zero _⟩⟩
  have hlate : Late σ φ left ackLeft (ackTime σ φ ackLeft m) s := by
    refine hs.inv (I := Late σ φ left ackLeft (ackTime σ φ ackLeft m)) ?_ fun hs h hn =>
      h.step hsize hhdr hways (sound_of_reach hs) (hgood hs).1 (hgood hs).2
        (step_of_next (sound_of_reach hs) hn)
    exact {
      begun := ⟨fun _ _ hp => absurd hp List.not_mem_nil, fun _ he => absurd he List.not_mem_nil,
        fun _ hp => absurd hp List.not_mem_nil⟩
      serial := Batch.serial_init hpos
      handed := fun x hx => absurd hx (Finset.notMem_empty x)
      acked := ⟨fun _ _ hp => absurd hp List.not_mem_nil, fun _ he => absurd he List.not_mem_nil,
        fun _ hp => absurd hp List.not_mem_nil⟩
      finished := nofun }
  exact hlate.finished hfin

end NetworkFlow

end DcSim
