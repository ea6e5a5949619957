import DcSim.Flow

/-!
Delivery safety of the base flow, pFabric and TCP.

The receiver's `recv_till` is the end of a prefix of segments that were all delivered. Every
ACK in flight is at most `recv_till`, so a stale or a doubled one is too, and so is all the
sender learns from it. A call is judged by what it makes of the flow and by the packets it
sends.
-/

namespace DcSim.Flow

open LossyNet Runs Segments Word32

variable {σ : FlowSpec} {kind : FlowKind} {f : Flow PFabric} {D E : Finset ℕ} {a : ℕ}

/-! ### The loop of the receiver -/

section AckLoop

variable (hsize : σ.size + σ.mss < 4294967296) {received : Finset ℕ} {maxSeqNoRecv : ℕ}
  (hmax : maxSeqNoRecv < σ.size)
include hsize hmax

/-- **The loop over the received segments** moves `recv_till` over segments that are there:
as long as the loop is in sequence it is at `recv_till`, or past the end. -/
theorem ackLoop_spec (hrec : received ⊆ D) (turns s recvTill : ℕ) (inSequence : Bool)
    (sackList : List ℕ) (hs : inSequence = true → s = recvTill ∨ maxSeqNoRecv < s)
    (h : Acked σ D recvTill) :
    recvTill ≤ (ackLoop σ received maxSeqNoRecv turns s recvTill inSequence sackList).1 ∧
      Acked σ D (ackLoop σ received maxSeqNoRecv turns s recvTill inSequence sackList).1 := by
  induction turns generalizing s recvTill inSequence sackList with
  | zero => exact ⟨le_rfl, h⟩
  | succ turns ih =>
    rw [ackLoop]
    split_ifs with hle hmem hseq
    · obtain rfl : s = recvTill := (hs hseq).resolve_right (by omega)
      have hlt : s < σ.size := hle.trans_lt hmax
      have hcases : s ≤ nextRecvTill σ s ∧
          (add32 s σ.mss = nextRecvTill σ s ∨ maxSeqNoRecv < add32 s σ.mss) := by
        rw [nextRecvTill, add32_mss hsize hlt.le]
        split_ifs <;> omega
      obtain ⟨hmono, hacked⟩ := ih (add32 s σ.mss) (nextRecvTill σ s) true sackList
        (fun _ => hcases.2) (h.next hsize hlt (hrec hmem))
      exact ⟨hcases.1.trans hmono, hacked⟩
    · exact ih _ _ false _ (by simp) h
    · exact ih _ _ false _ (by simp) h
    · exact ⟨le_rfl, h⟩

theorem ackLoop_turns (turns s recvTill : ℕ) (inSequence : Bool) (sackList : List ℕ)
    (hturns : maxSeqNoRecv < s + turns) :
    ackLoop σ received maxSeqNoRecv (turns + 1) s recvTill inSequence sackList =
      ackLoop σ received maxSeqNoRecv turns s recvTill inSequence sackList := by
  induction turns generalizing s recvTill inSequence sackList with
  | zero =>
    rw [ackLoop.eq_2, if_neg (by omega)]
    rfl
  | succ turns ih =>
    rw [ackLoop]
    conv_rhs => rw [ackLoop]
    by_cases hle : s ≤ maxSeqNoRecv
    · have hm := σ.mss_pos
      have hnext := add32_mss hsize (hle.trans_lt hmax).le
      rw [if_pos hle, if_pos hle, ih _ _ _ _ (by omega), ih _ _ _ _ (by omega),
        ih _ _ _ _ (by omega)]
    · rw [if_neg hle, if_neg hle]

end AckLoop

/-! ### The invariant -/

structure Safe (σ : FlowSpec) (f : Flow PFabric) : Prop where
  nextSeqNo : f.nextSeqNo ≤ σ.size
  received : f.received ⊆ f.delivered
  maxSeqNoRecv : f.maxSeqNoRecv < σ.size ∨ f.maxSeqNoRecv = 0
  recvTill : Acked σ f.delivered f.recvTill
  lastUnackedSeq : f.lastUnackedSeq ≤ f.recvTill
  acksSent : ∀ a ∈ f.acksSent, a ≤ f.recvTill
  acksReceived : ∀ a ∈ f.acksReceived, a ≤ f.recvTill
  finished : f.finished = true → f.recvTill = σ.size

structure SafePacket (σ : FlowSpec) (f : Flow PFabric) (p : Packet) : Prop where
  seqNo : p.type = .normal → p.seqNo < σ.size
  ack : p.type = .ack → p.seqNo ≤ f.recvTill

/-- Neither end of `g` is behind that of `f`. -/
def Ahead (f g : Flow PFabric) : Prop :=
  f.recvTill ≤ g.recvTill ∧ f.lastUnackedSeq ≤ g.lastUnackedSeq

/-- What a call may do: it keeps the invariant, moves neither end back and sends good
packets. -/
abbrev SafeCall (σ : FlowSpec) : Flow PFabric → Flow PFabric × List Packet → Prop :=
  Call (Safe σ) Ahead (SafePacket σ)

lemma Safe.frame (h : Safe σ f) {n : ℕ} (hn : n ≤ σ.size) {r : Option ℕ}
    {es : List RetxTimeoutEvent} {c w b : ℕ} {o : PFabric} : Safe σ
      { f with
        nextSeqNo := n
        retxEvent := r
        retxEvents := es
        retxEventCount := c
        cwndMss := w
        scoreboardSackBytes := b
        own := o } :=
  ⟨hn, h.received, h.maxSeqNoRecv, h.recvTill, h.lastUnackedSeq, h.acksSent, h.acksReceived,
    h.finished⟩

lemma SafePacket.mono {g : Flow PFabric} {p : Packet} (h : SafePacket σ f p)
    (hfg : f.recvTill ≤ g.recvTill) : SafePacket σ g p :=
  ⟨h.seqNo, fun hp => (h.ack hp).trans hfg⟩

lemma Safe.noCall (h : Safe σ f) : SafeCall σ f (f, []) := ⟨h, ⟨le_rfl, le_rfl⟩, by simp⟩

lemma SafeCall.timer {r : Flow PFabric × List Packet} {g : Flow PFabric} (h : SafeCall σ f r)
    (hg : ∃ e es c, g = { r.1 with retxEvent := e, retxEvents := es, retxEventCount := c }) :
    SafeCall σ f (g, r.2) := by
  obtain ⟨e, es, c, rfl⟩ := hg
  exact ⟨h.inv.frame h.inv.nextSeqNo, h.le, fun p hp => (h.packets p hp).mono le_rfl⟩

lemma SafeCall.before {r : Flow PFabric × List Packet} {g : Flow PFabric} (h : SafeCall σ g r)
    (hr : f.recvTill ≤ g.recvTill) (hl : f.lastUnackedSeq ≤ g.lastUnackedSeq) : SafeCall σ f r :=
  ⟨h.inv, ⟨hr.trans h.le.1, hl.trans h.le.2⟩, h.packets⟩

lemma Safe.rtsCts (h : Safe σ f) (b : Bool) (now : Time) :
    SafeCall σ f (f, [rtsCts σ b now]) := by
  refine ⟨h, ⟨le_rfl, le_rfl⟩, fun p hp => ?_⟩
  obtain rfl := List.mem_singleton.mp hp
  cases b <;> exact ⟨nofun, nofun⟩

lemma safe_new (σ : FlowSpec) (w : ℕ) (o : PFabric) : Safe σ (new σ w o) where
  nextSeqNo := Nat.zero_le _
  received := subset_rfl
  maxSeqNoRecv := .inr rfl
  recvTill := ⟨Nat.zero_le _, .inl (dvd_zero _), covers_zero⟩
  lastUnackedSeq := le_rfl
  acksSent := by simp [new]
  acksReceived := by simp [new]
  finished := nofun

lemma Safe.noteAck (h : Safe σ f) (hack : a ≤ f.recvTill) (sackList : List ℕ) :
    Safe σ (f.noteAck σ a sackList) := by
  refine { h with nextSeqNo := ?_, acksReceived := fun b hb => ?_ }
  · have hn := h.nextSeqNo
    have ha := hack.trans h.recvTill.le
    unfold Flow.noteAck
    dsimp only
    split_ifs <;> assumption
  · rcases List.mem_append.mp hb with hb | hb
    · exact h.acksReceived b hb
    · exact List.mem_singleton.mp hb ▸ hack

lemma SafeCall.finish {r : Flow PFabric × List Packet} (h : SafeCall σ f r) (now : Time)
    (hack : σ.size ≤ f.recvTill) : SafeCall σ f ({ r.1 with received := ∅ }.finish now, r.2) := by
  have hfin := le_antisymm h.inv.recvTill.le (hack.trans h.le.1)
  exact ⟨{ h.inv with received := Finset.empty_subset _, finished := fun _ => hfin }, h.le,
    fun p hp => (h.packets p hp).mono le_rfl⟩

section Calls

variable (hsize : σ.size + σ.mss < 4294967296)
include hsize

lemma Safe.sendPendingData (h : Safe σ f) (now : Time) :
    SafeCall σ f (f.sendPendingData σ kind now) := by
  unfold Flow.sendPendingData
  split_ifs
  · obtain ⟨⟨n, r, es, c, hflow, hn⟩, hps⟩ := sendLoop_spec hsize now
      (add32 (mul32 f.cwndMss σ.mss) f.scoreboardSackBytes) (f.getPriority σ kind)
      (σ.size + 1) f.nextSeqNo f h.nextSeqNo
    have hn : n ≤ σ.size := by
      rcases hn with rfl | ⟨hn, -⟩
      · exact h.nextSeqNo
      · exact hn
    refine ⟨hflow ▸ h.frame hn, hflow ▸ ⟨le_rfl, le_rfl⟩, fun p hp => ?_⟩
    obtain ⟨s, hs, rfl, -⟩ := hps p hp
    exact ⟨fun _ => hs, nofun⟩
  · exact h.noCall

lemma Safe.newAck (h : Safe σ f) (now : Time) (hack : a ≤ f.recvTill)
    (hnew : f.lastUnackedSeq < a) : SafeCall σ f (f.newAck σ kind now a) := by
  have hlast : Safe σ { f with lastUnackedSeq := a } := { h with lastUnackedSeq := hack }
  obtain ⟨w, o, hcwnd⟩ := increaseCwnd_frame (σ := σ) kind { f with lastUnackedSeq := a }
  have hsafe : Safe σ (increaseCwnd σ kind { f with lastUnackedSeq := a }) :=
    hcwnd ▸ hlast.frame h.nextSeqNo
  have hcall : SafeCall σ _ (f.newAck σ kind now a) :=
    (hsafe.sendPendingData hsize now).timer (moveTimeout_frame _ now)
  refine hcall.before ?_ ?_ <;> rw [hcwnd]
  exact hnew.le

lemma Safe.receiveAck (h : Safe σ f) (now : Time) (hack : a ≤ f.recvTill) (sackList : List ℕ) :
    SafeCall σ f (f.receiveAck σ kind now a sackList) := by
  have hnote := h.noteAck hack sackList
  have hcall : SafeCall σ f
      (if (f.noteAck σ a sackList).lastUnackedSeq < a then
        (f.noteAck σ a sackList).newAck σ kind now a else (f.noteAck σ a sackList, [])) := by
    split_ifs with hnew
    · exact (hnote.newAck hsize now hack hnew).before le_rfl le_rfl
    · exact hnote.noCall.before le_rfl le_rfl
  unfold Flow.receiveAck
  dsimp only
  generalize (if (f.noteAck σ a sackList).lastUnackedSeq < a then
    (f.noteAck σ a sackList).newAck σ kind now a else (f.noteAck σ a sackList, [])) = r at hcall ⊢
  split_ifs with hend
  · exact hcall.finish now (hend.1 ▸ hack)
  · exact hcall

lemma Safe.handleTimeout (h : Safe σ f) (now : Time) :
    SafeCall σ f (f.handleTimeout σ kind now) := by
  have hwith : ∀ o, SafeCall σ f
      ({ f with own := o }.handleTimeoutWith σ (fun f => f.sendPendingData σ kind now) now) := by
    intro o
    have hback : Safe σ { f with
        own := o
        nextSeqNo := f.lastUnackedSeq
        cwndMss := 1 } := h.frame (h.lastUnackedSeq.trans h.recvTill.le)
    exact ((hback.sendPendingData hsize now).timer (setTimeout_frame _ _)).before le_rfl le_rfl
  cases kind
  · exact hwith f.own
  · exact hwith _
  · exact hwith f.own

lemma Safe.acknowledge (h : Safe σ f) (hmax : f.maxSeqNoRecv < σ.size) :
    SafeCall σ f (f.acknowledge σ) := by
  obtain ⟨hmono, hacked⟩ := ackLoop_spec hsize hmax h.received (f.maxSeqNoRecv + 1) f.recvTill
    f.recvTill true [] (fun _ => .inl rfl) h.recvTill
  have hsafe : Safe σ (f.acknowledge σ).1 := by
    refine { h with
      recvTill := hacked
      lastUnackedSeq := h.lastUnackedSeq.trans hmono
      acksSent := fun a ha => ?_
      acksReceived := fun a ha => (h.acksReceived a ha).trans hmono
      finished := fun hfin => le_antisymm hacked.le (h.finished hfin ▸ hmono) }
    rcases List.mem_append.mp ha with ha | ha
    · exact (h.acksSent a ha).trans hmono
    · exact (List.mem_singleton.mp ha).le
  refine ⟨hsafe, ⟨hmono, le_rfl⟩, fun p hp => ?_⟩
  obtain rfl := List.mem_singleton.mp hp
  exact ⟨nofun, fun _ => le_rfl⟩

lemma Safe.receiveDataPkt (h : Safe σ f) {p : Packet} (hp : p.seqNo < σ.size) :
    SafeCall σ f (f.receiveDataPkt σ p) := by
  obtain ⟨r, b, haccept, hr⟩ := accept_frame f p (σ := σ)
  have hsub : f.delivered ⊆ insert p.seqNo f.delivered := Finset.subset_insert _ _
  have hmax : max f.maxSeqNoRecv p.seqNo < σ.size :=
    max_lt (h.maxSeqNoRecv.elim id fun h0 => by omega) hp
  have hsafe : Safe σ { f with
      received := r
      receivedBytes := b
      delivered := insert p.seqNo f.delivered
      maxSeqNoRecv := max f.maxSeqNoRecv p.seqNo } :=
    { h with
      received := hr.trans (Finset.insert_subset_insert _ h.received)
      maxSeqNoRecv := .inl hmax
      recvTill := h.recvTill.mono hsub }
  unfold Flow.receiveDataPkt
  rw [haccept]
  exact (hsafe.acknowledge hsize hmax).before le_rfl le_rfl

lemma Safe.receive (h : Safe σ f) (now : Time) {p : Packet} (hp : SafePacket σ f p) :
    SafeCall σ f (f.receive σ kind now p) := by
  have hbase : SafeCall σ f (f.receiveBase σ kind now p) := by
    unfold Flow.receiveBase
    split_ifs
    · exact h.noCall
    · split
      case h_1 htype => exact h.receiveAck hsize now (hp.ack htype) _
      case h_2 htype => exact h.receiveDataPkt hsize (hp.seqNo htype)
      case h_3 => exact h.noCall
  unfold Flow.receive
  split
  · exact h.rtsCts false now
  · exact h.sendPendingData hsize now
  · exact hbase

lemma Safe.startFlow (h : Safe σ f) (now : Time) : SafeCall σ f (f.startFlow σ kind now) := by
  cases kind
  · exact h.sendPendingData hsize now
  · exact h.sendPendingData hsize now
  · exact h.rtsCts true now

lemma Safe.input (h : Safe σ f) (now : Time) {i : FlowInput} {r : Flow PFabric × List Packet}
    (hr : Flow.input (fun now f => f.startFlow σ kind now)
      (fun now f => f.handleTimeout σ kind now) now i f = some r) : SafeCall σ f r := by
  rcases input_cases hr with ⟨-, rfl⟩ | ⟨id, rfl⟩ | ⟨id, rfl⟩
  · have hstarted : Safe σ { f with started := true } := { h with }
    exact (hstarted.startFlow hsize now).before le_rfl le_rfl
  · exact h.noCall.timer ⟨_, _, _, rfl⟩
  · exact (h.handleTimeout hsize now).timer ⟨_, _, _, rfl⟩

end Calls

/-! ### Runs -/

lemma safe_calls (kind : FlowKind) (hsize : σ.size + σ.mss < 4294967296) :
    Calls (party σ kind) (fun _ _ => True) (Safe σ) Ahead (SafePacket σ) where
  init := safe_new σ _ _
  mono := fun hfg hp => hp.mono hfg.1
  input := fun _ h hr => h.input hsize _ hr
  receive := fun _ h hp => h.receive hsize _ hp

/-- **Delivery safety**: every ACK is at most the end of the prefix the receiver was handed,
`last_unacked_seq` never moves back, and a finished flow was delivered as a whole. -/
theorem delivery_safe (hsize : σ.size + σ.mss < 4294967296) (kind : FlowKind) (t₀ : Time)
    {s : State (Flow PFabric) Packet Time} (hs : Reach (machine (party σ kind) t₀) s) :
    (∀ a ∈ s.party.acksSent ++ s.party.acksReceived,
      a ≤ prefixEnd σ.mss_pos σ.size s.party.delivered) ∧
    (∀ p ∈ s.inFlight, p.type = .ack → p.seqNo ≤ prefixEnd σ.mss_pos σ.size s.party.delivered) ∧
    (s.party.finished = true → segs σ.mss σ.size ⊆ s.party.delivered) ∧
    ∀ as t, exec (machine (party σ kind) t₀) s as = some t →
      s.party.lastUnackedSeq ≤ t.party.lastUnackedSeq := by
  obtain ⟨h, hS⟩ := (safe_calls kind hsize).kept.reach hs
  have hpre := (le_prefixEnd_iff σ.mss_pos).mpr ⟨h.recvTill.le, h.recvTill.covers⟩
  refine ⟨fun a ha => ?_, fun p hp htype => ((hS p hp).ack htype).trans hpre, fun hfin => ?_,
    fun as t he => ?_⟩
  · refine le_trans ?_ hpre
    rcases List.mem_append.mp ha with ha | ha
    · exact h.acksSent a ha
    · exact h.acksReceived a ha
  · exact (h.finished hfin ▸ h.recvTill.covers).segs_subset
  · exact (safe_calls kind hsize).exec_mono (fun hfg => hfg.2) hs he

/-- The two segments of a flow change places on the way. -/
def reordered : List (Act Packet Time FlowInput) :=
  [.input 1 .start, .deliver 2 (send twoSegments 1 2920 1460),
    .deliver 3 (send twoSegments 1 2920 0), .deliver 4 (sendAck twoSegments 2920 [])]

theorem delivery_safe_reordered :
    ∃ s, (Reach (machine (party twoSegments .flow) 0) s ∧
        s.party.finished = true ∧ s.party.acksSent = [0, 2920]) ∧
      segs 1460 2920 ⊆ s.party.delivered := by
  obtain ⟨s, hs, hfin⟩ : ∃ s, Reach (machine (party twoSegments .flow) 0) s ∧
      (s.party.finished = true ∧ s.party.acksSent = [0, 2920]) :=
    exists_reach_of_exec_any reordered (by decide +kernel)
  exact ⟨s, ⟨hs, hfin⟩, (delivery_safe (by decide) .flow 0 hs).2.2.1 hfin.1⟩

end DcSim.Flow
