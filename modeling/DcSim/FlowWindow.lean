import DcSim.FlowTimeout
import DcSim.FlowTimer

/-!
What the sender of the base flow and of pFabric may send, and that it leaves no segment out.

`next_seq_no` goes back at a timeout, and jumps over what an ACK acknowledges and over what the
receiver has. It only jumps over segments that were delivered, and these were sent before.
-/

namespace DcSim.Flow

open LossyNet Runs Segments Word32

variable {σ : FlowSpec} {kind : FlowKind} {f g : Flow PFabric} {S : Multiset Packet}
  {D : Finset ℕ}

/-! ### The calls of `send_pending_data` -/

/-- The flow as it is when an event that can come next calls `send_pending_data`: its arrival, a
new ACK, or a timeout, with whatever the class has set of its own. -/
inductive SendCall (σ : FlowSpec) (kind : FlowKind) (f : Flow PFabric) (S : Multiset Packet) :
    Flow PFabric → Prop
  | start : f.started = false → SendCall σ kind f S { f with started := true }
  | newAck {p : Packet} : p ∈ S → p.type = .ack → f.finished = false →
      f.lastUnackedSeq < p.seqNo → SendCall σ kind f S (increaseCwnd σ kind
        { f.noteAck σ p.seqNo p.sackList with lastUnackedSeq := p.seqNo })
  | timeout {e : RetxTimeoutEvent} (own : PFabric) : e ∈ f.retxEvents → e.cancelled = false →
      SendCall σ kind f S { f with
        own := own
        nextSeqNo := f.lastUnackedSeq
        cwndMss := 1 }

structure SameWindow (f g : Flow PFabric) : Prop where
  nextSeqNo : g.nextSeqNo = f.nextSeqNo
  lastUnackedSeq : g.lastUnackedSeq = f.lastUnackedSeq
  cwndMss : g.cwndMss = f.cwndMss
  scoreboardSackBytes : g.scoreboardSackBytes = f.scoreboardSackBytes
  delivered : g.delivered = f.delivered

lemma SameWindow.refl (f : Flow PFabric) : SameWindow f f := ⟨rfl, rfl, rfl, rfl, rfl⟩

lemma SameWindow.trans {h : Flow PFabric} (hfg : SameWindow f g) (hgh : SameWindow g h) :
    SameWindow f h :=
  ⟨hgh.nextSeqNo.trans hfg.nextSeqNo, hgh.lastUnackedSeq.trans hfg.lastUnackedSeq,
    hgh.cwndMss.trans hfg.cwndMss, hgh.scoreboardSackBytes.trans hfg.scoreboardSackBytes,
    hgh.delivered.trans hfg.delivered⟩

lemma SameWindow.timer (hg : ∃ e es c, g =
      { f with retxEvent := e, retxEvents := es, retxEventCount := c }) : SameWindow f g := by
  obtain ⟨e, es, c, rfl⟩ := hg
  exact ⟨rfl, rfl, rfl, rfl, rfl⟩

/-- What a step makes of the flow, and sends, is what a call of `send_pending_data` does. -/
def BySendCall (σ : FlowSpec) (kind : FlowKind) (f : Flow PFabric) (S : Multiset Packet)
    (r : Flow PFabric × List Packet) : Prop :=
  ∃ g now, SendCall σ kind f S g ∧ SameWindow (g.sendPendingData σ kind now).1 r.1 ∧
    r.2 = (g.sendPendingData σ kind now).2

lemma BySendCall.normal {r : Flow PFabric × List Packet} (h : BySendCall σ kind f S r) :
    ∀ p ∈ r.2, p.type = .normal := by
  obtain ⟨g, now, -, -, hps⟩ := h
  exact hps ▸ sendPendingData_normal now

/-- **What a flow does of its own**. -/
lemma input_sends (hkind : kind ≠ .tcp) {now : Time} {i : FlowInput}
    {r : Flow PFabric × List Packet}
    (hr : Flow.input (fun now f => f.startFlow σ kind now)
      (fun now f => f.handleTimeout σ kind now) now i f = some r) :
    SameWindow f r.1 ∧ r.2 = [] ∨ BySendCall σ kind f S r := by
  cases i with
  | start =>
    obtain ⟨hidle, hr⟩ := Option.ite_none_left_eq_some.mp hr
    have hr : startFlow σ kind { f with started := true } now = r := Option.some.inj hr
    rw [startFlow_eq hkind] at hr
    exact .inr ⟨_, now, .start (Bool.eq_false_iff.mpr hidle), hr ▸ .refl _, hr ▸ rfl⟩
  | retxTimeout id =>
    have hr : f.fireRetxEvent (fun f => f.handleTimeout σ kind now) now id = some r := hr
    obtain ⟨e, he, -, ⟨-, rfl⟩ | ⟨hc, rfl⟩⟩ := fireRetxEvent_cases hr
    · exact .inl ⟨⟨rfl, rfl, rfl, rfl, rfl⟩, rfl⟩
    · have hwith : ∀ o, BySendCall σ kind f S
          (({ f with own := o }.handleTimeoutWith σ
              (fun f => f.sendPendingData σ kind now) now).1.dropRetxEvent id,
            ({ f with own := o }.handleTimeoutWith σ
              (fun f => f.sendPendingData σ kind now) now).2) := by
        intro o
        have hset := SameWindow.timer (setTimeout_frame (σ := σ)
          (sendPendingData σ kind
            { f with own := o, nextSeqNo := f.lastUnackedSeq, cwndMss := 1 } now).1
          (now + σ.retxTimeout))
        exact ⟨_, now, .timeout o he hc, hset.trans ⟨rfl, rfl, rfl, rfl, rfl⟩, rfl⟩
      cases kind
      · exact .inr (hwith f.own)
      · exact .inr (hwith _)
      · exact absurd rfl hkind

/-- **What a flow does with an ACK**; an old one only tells which segments were received. -/
lemma receive_ack (hkind : kind ≠ .tcp) (now : Time) {p : Packet} (hfin : f.finished = false)
    (htype : p.type = .ack) :
    (p.seqNo ≤ f.lastUnackedSeq →
      SameWindow (f.noteAck σ p.seqNo p.sackList) (f.receive σ kind now p).1 ∧
        (f.receive σ kind now p).2 = []) ∧
    (p ∈ S → f.lastUnackedSeq < p.seqNo →
      BySendCall σ kind f S (f.receive σ kind now p)) := by
  -- what is done at the end of the flow is no matter here
  have hdone : ∀ r : Flow PFabric × List Packet,
      SameWindow r.1 (if p.seqNo = σ.size ∧ r.1.finished = false then
          ({ r.1 with received := ∅ }.finish now, r.2) else r).1 ∧
        (if p.seqNo = σ.size ∧ r.1.finished = false then
          ({ r.1 with received := ∅ }.finish now, r.2) else r).2 = r.2 := by
    intro r
    split_ifs
    · exact ⟨⟨rfl, rfl, rfl, rfl, rfl⟩, rfl⟩
    · exact ⟨.refl _, rfl⟩
  have hack : f.receive σ kind now p = f.receiveAck σ kind now p.seqNo p.sackList := by
    rw [receive_eq hkind, receiveBase, if_neg (by simp [hfin]), htype]
  rw [hack, receiveAck]
  dsimp only
  constructor
  · intro hold
    rw [if_neg (c := (f.noteAck σ p.seqNo p.sackList).lastUnackedSeq < p.seqNo)
      (Nat.not_lt.mpr hold)]
    exact hdone (f.noteAck σ p.seqNo p.sackList, [])
  · intro hp hnew
    rw [if_pos (c := (f.noteAck σ p.seqNo p.sackList).lastUnackedSeq < p.seqNo) hnew]
    obtain ⟨hsame, hps⟩ := hdone ((f.noteAck σ p.seqNo p.sackList).newAck σ kind now p.seqNo)
    have hmove := SameWindow.timer (moveTimeout_frame (σ := σ)
      ((increaseCwnd σ kind { f.noteAck σ p.seqNo p.sackList with
        lastUnackedSeq := p.seqNo }).sendPendingData σ kind now).1 now)
    exact ⟨_, now, .newAck hp htype hfin hnew, hmove.trans hsame, hps⟩

/-- **What a flow does with a packet**. -/
lemma receive_sends (hkind : kind ≠ .tcp) (now : Time) {p : Packet} (hp : p ∈ S) :
    f.receive σ kind now p = (f, []) ∨
    (f.finished = false ∧ p.type = .normal ∧ f.receive σ kind now p = f.receiveDataPkt σ p) ∨
    (f.finished = false ∧ p.type = .ack ∧ p.seqNo ≤ f.lastUnackedSeq ∧
      SameWindow (f.noteAck σ p.seqNo p.sackList) (f.receive σ kind now p).1 ∧
      (f.receive σ kind now p).2 = []) ∨
    BySendCall σ kind f S (f.receive σ kind now p) := by
  by_cases hfin : f.finished = true
  · exact .inl (by rw [receive_eq hkind, receiveBase, if_pos hfin])
  · have hfin := Bool.eq_false_iff.mpr hfin
    by_cases htype : p.type = .ack
    · rcases Nat.lt_or_ge f.lastUnackedSeq p.seqNo with hnew | hold
      · exact .inr (.inr (.inr ((receive_ack hkind now hfin htype).2 hp hnew)))
      · exact .inr (.inr (.inl ⟨hfin, htype, hold,
          (receive_ack (S := S) hkind now hfin htype).1 hold⟩))
    · rw [receive_eq hkind, receiveBase, if_neg (by simp [hfin])]
      split
      case h_1 hack => exact absurd hack htype
      case h_2 hdata => exact .inr (.inl ⟨hfin, hdata, rfl⟩)
      case h_3 => exact .inl rfl

/-! ### The flow at a call -/

lemma SendCall.safe (hcall : SendCall σ kind f S g) (h : Safe σ f)
    (hS : ∀ p ∈ S, SafePacket σ f p) : Safe σ g := by
  cases hcall with
  | start => exact { h with }
  | @newAck p hp htype _ hnew =>
    have hack := (hS p hp).ack htype
    have hnote := h.noteAck hack p.sackList
    have hlast : Safe σ { f.noteAck σ p.seqNo p.sackList with lastUnackedSeq := p.seqNo } :=
      { hnote with lastUnackedSeq := hack }
    obtain ⟨w, o, hcwnd⟩ := increaseCwnd_frame (σ := σ) kind
      { f.noteAck σ p.seqNo p.sackList with lastUnackedSeq := p.seqNo }
    exact hcwnd ▸ hlast.frame hnote.nextSeqNo
  | timeout own => exact h.frame (h.lastUnackedSeq.trans h.recvTill.le)

lemma SendCall.exact (hcall : SendCall σ kind f S g) (h : Exact σ f)
    (hS : ∀ p ∈ S, ExactPacket σ p) : Exact σ g := by
  cases hcall with
  | start => exact { h with }
  | @newAck p hp htype _ hnew =>
    have hack := (hS p hp).ack htype
    have hnote := h.noteAck hack p.sackList
    have hlast : Exact σ { f.noteAck σ p.seqNo p.sackList with lastUnackedSeq := p.seqNo } :=
      { hnote with lastUnackedSeq := hack }
    obtain ⟨w, o, hcwnd⟩ := increaseCwnd_frame (σ := σ) kind
      { f.noteAck σ p.seqNo p.sackList with lastUnackedSeq := p.seqNo }
    exact hcwnd ▸ hlast.frame hnote.nextSeqNo
  | timeout own => exact h.frame h.lastUnackedSeq

/-! ### The loop -/

section Loop

variable (hsize : σ.size + σ.mss < 4294967296)
include hsize

lemma sendLoop_window (now : Time) (window priority turns seq : ℕ) (f : Flow PFabric)
    (hseq : seq ≤ σ.size) :
    ∀ p ∈ (sendLoop σ now window priority turns seq f).2,
      p.seqNo + σ.mss ≤ f.lastUnackedSeq + window := by
  induction turns generalizing seq f with
  | zero => simp [sendLoop]
  | succ turns ih =>
    intro p hp
    unfold sendLoop at hp
    by_cases hmay : f.MaySend σ window seq
    · rw [if_pos hmay] at hp
      obtain ⟨r, es, c, hadv⟩ := f.advance_frame (σ := σ) now seq
      rcases List.mem_append.mp hp with hp | hp
      · have hwin := hmay.1
        rw [add32_mss hsize hseq] at hwin
        split_ifs at hp
        · exact absurd hp List.not_mem_nil
        · obtain rfl := List.mem_singleton.mp hp
          exact hwin.trans (Nat.mod_le _ _)
      · have := ih (nextSeq σ seq) (f.advance σ now seq) (nextSeq_le seq) p hp
        rwa [hadv] at this
    · rw [if_neg hmay] at hp
      exact absurd hp List.not_mem_nil

/-- **No segment is left out**: the loop moves `next_seq_no` over segments that the receiver has,
or that it sends. -/
lemma sendLoop_covers (now : Time) (window priority turns : ℕ) {f : Flow PFabric}
    (hn : f.nextSeqNo ≤ σ.size) (hb : Boundary σ f.nextSeqNo) (hrec : f.received ⊆ D)
    (hcov : Covers σ.mss D f.nextSeqNo)
    (hsent : ∀ p ∈ (sendLoop σ now window priority turns f.nextSeqNo f).2, p.seqNo ∈ D) :
    Covers σ.mss D (sendLoop σ now window priority turns f.nextSeqNo f).1.nextSeqNo := by
  induction turns generalizing f with
  | zero => exact hcov
  | succ turns ih =>
    unfold sendLoop at hsent ⊢
    by_cases hmay : f.MaySend σ window f.nextSeqNo
    · rw [if_pos hmay] at hsent ⊢
      have hlt := hmay.lt hsize hn
      have hmem : f.nextSeqNo ∈ D := by
        by_cases hin : f.nextSeqNo ∈ f.received
        · exact hrec hin
        · refine hsent (send σ now priority f.nextSeqNo) (List.mem_append_left _ ?_)
          rw [if_neg hin]
          exact List.mem_singleton_self _
      have hnext : Covers σ.mss D (nextSeq σ f.nextSeqNo) := by
        have := hcov.succ (hb.dvd hlt) hmem
        refine this.le ?_
        rw [nextSeq, add32_mss hsize hn]
        split_ifs <;> omega
      obtain ⟨r, es, c, hadv⟩ := f.advance_frame (σ := σ) now f.nextSeqNo
      have hseq : (f.advance σ now f.nextSeqNo).nextSeqNo = nextSeq σ f.nextSeqNo := by
        rw [hadv]
      have hrest := ih (f := f.advance σ now f.nextSeqNo) (by rw [hseq]; exact nextSeq_le _)
        (by rw [hseq]; exact hb.nextSeq hsize hlt) (by rw [hadv]; exact hrec)
        (by rw [hseq]; exact hnext)
        (fun p hp => hsent p (List.mem_append_right _ (by rwa [hseq] at hp)))
      rwa [hseq] at hrest
    · rw [if_neg hmay]
      exact hcov

/-- **The loop ends by itself**. -/
lemma exists_not_maySend (window : ℕ) {seq : ℕ} (hseq : seq ≤ σ.size) :
    ∃ n ≤ σ.size, (∀ i < n, f.MaySend σ window ((nextSeq σ)^[i] seq)) ∧
      ¬ f.MaySend σ window ((nextSeq σ)^[n] seq) := by
  have hend : ¬ f.MaySend σ window ((nextSeq σ)^[σ.size] seq) := by
    intro hmay
    have hm := σ.mss_pos
    have hiter := iterate_nextSeq hsize hseq σ.size
    have := Nat.le_mul_of_pos_right σ.size hm
    have hlt := hmay.lt hsize (hiter ▸ min_le_right _ _)
    omega
  classical
  have hex : ∃ n, ¬ f.MaySend σ window ((nextSeq σ)^[n] seq) := ⟨_, hend⟩
  exact ⟨Nat.find hex, Nat.find_min' hex hend, fun i hi => not_not.mp (Nat.find_min hex hi),
    Nat.find_spec hex⟩

/-- **What `send_pending_data` sends**: segments of the flow, whole but for the last, within the
window. -/
lemma sendPendingData_sends (h : Exact σ f) (hn : f.nextSeqNo ≤ σ.size) (now : Time) :
    ∀ p ∈ (f.sendPendingData σ kind now).2, σ.mss ∣ p.seqNo ∧ p.seqNo < σ.size ∧
      sub32 p.size σ.hdrSize = min σ.mss (σ.size - p.seqNo) ∧
      p.seqNo + σ.mss ≤ f.lastUnackedSeq + f.cwndMss * σ.mss + f.scoreboardSackBytes := by
  intro p hp
  unfold sendPendingData at hp
  split_ifs at hp
  · have hwin := sendLoop_window hsize now _ _ _ _ f hn p hp
    obtain ⟨s, hs, rfl, hdvd⟩ := (sendLoop_spec hsize now _ _ _ _ f hn).2 p hp
    refine ⟨hdvd h.nextSeqNo, hs, send_payload hsize now _ hs.le, hwin.trans ?_⟩
    -- in 32 bits the window is at most what it is without a bound
    have hmul : mul32 f.cwndMss σ.mss ≤ f.cwndMss * σ.mss := Nat.mod_le _ _
    have hadd : add32 (mul32 f.cwndMss σ.mss) f.scoreboardSackBytes ≤
        mul32 f.cwndMss σ.mss + f.scoreboardSackBytes := Nat.mod_le _ _
    omega
  · exact absurd hp List.not_mem_nil

end Loop

/-! ### Nothing is left out -/

structure Covered (σ : FlowSpec) (f : Flow PFabric) (D : Finset ℕ) : Prop where
  delivered : f.delivered ⊆ D
  nextSeqNo : Covers σ.mss D f.nextSeqNo

namespace Covered

lemma mono {E : Finset ℕ} (h : Covered σ f D) (hDE : D ⊆ E) : Covered σ f E :=
  ⟨h.delivered.trans hDE, h.nextSeqNo.mono hDE⟩

lemma same (h : Covered σ f D) (hs : SameWindow f g) : Covered σ g D :=
  ⟨hs.delivered ▸ h.delivered, hs.nextSeqNo ▸ h.nextSeqNo⟩

lemma noteAck (h : Covered σ f D) (hsafe : Safe σ f) {a : ℕ} (hack : a ≤ f.recvTill)
    (sackList : List ℕ) : Covered σ (f.noteAck σ a sackList) D := by
  refine ⟨h.delivered, ?_⟩
  unfold Flow.noteAck
  dsimp only
  split_ifs
  · exact (hsafe.recvTill.covers.mono h.delivered).le hack
  · exact h.nextSeqNo

lemma sendCall (h : Covered σ f D) (hcall : SendCall σ kind f S g) (hsafe : Safe σ f)
    (hS : ∀ p ∈ S, SafePacket σ f p) : Covered σ g D := by
  cases hcall with
  | start => exact ⟨h.delivered, h.nextSeqNo⟩
  | @newAck p hp htype =>
    have hnote := h.noteAck hsafe ((hS p hp).ack htype) p.sackList
    obtain ⟨w, o, hcwnd⟩ := increaseCwnd_frame (σ := σ) kind
      { f.noteAck σ p.seqNo p.sackList with lastUnackedSeq := p.seqNo }
    exact hcwnd ▸ ⟨hnote.delivered, hnote.nextSeqNo⟩
  | timeout own =>
    exact ⟨h.delivered, (hsafe.recvTill.covers.mono h.delivered).le hsafe.lastUnackedSeq⟩

variable (hsize : σ.size + σ.mss < 4294967296)
include hsize

lemma sendPendingData (h : Covered σ f D) (hsafe : Safe σ f) (hexact : Exact σ f) (now : Time)
    (hsent : ∀ p ∈ (f.sendPendingData σ kind now).2, p.seqNo ∈ D) :
    Covered σ (f.sendPendingData σ kind now).1 D := by
  unfold Flow.sendPendingData at hsent ⊢
  split_ifs at hsent ⊢
  · have hcov := sendLoop_covers hsize now _ _ _ hsafe.nextSeqNo hexact.nextSeqNo
      (hsafe.received.trans h.delivered) h.nextSeqNo hsent
    obtain ⟨⟨n, r, es, c, hflow, -⟩, -⟩ := sendLoop_spec hsize now
      (add32 (mul32 f.cwndMss σ.mss) f.scoreboardSackBytes) (f.getPriority σ kind)
      (σ.size + 1) f.nextSeqNo f hsafe.nextSeqNo
    exact ⟨hflow ▸ h.delivered, hcov⟩
  · exact h

lemma bySendCall (h : Covered σ f D) {r : Flow PFabric × List Packet}
    (hr : BySendCall σ kind f S r) (hsafe : Safe σ f) (hexact : Exact σ f)
    (hS : ∀ p ∈ S, SafePacket σ f p ∧ ExactPacket σ p) (hsent : ∀ p ∈ r.2, p.seqNo ∈ D) :
    Covered σ r.1 D := by
  obtain ⟨g, now, hcall, hsame, hps⟩ := hr
  have hg := h.sendCall hcall hsafe fun p hp => (hS p hp).1
  exact (hg.sendPendingData hsize (hcall.safe hsafe fun p hp => (hS p hp).1)
    (hcall.exact hexact fun p hp => (hS p hp).2) now (hps ▸ hsent)).same hsame

lemma input (hkind : kind ≠ .tcp) (h : Covered σ f D) (hsafe : Safe σ f) (hexact : Exact σ f)
    {now : Time} {i : FlowInput} {r : Flow PFabric × List Packet}
    (hr : Flow.input (fun now f => f.startFlow σ kind now)
      (fun now f => f.handleTimeout σ kind now) now i f = some r)
    (hsent : ∀ p ∈ r.2, p.type = .normal → p.seqNo ∈ D) : Covered σ r.1 D := by
  rcases input_sends (S := 0) hkind hr with ⟨hsame, -⟩ | hby
  · exact h.same hsame
  · exact h.bySendCall hsize hby hsafe hexact (by simp) fun p hp => hsent p hp (hby.normal p hp)

lemma receive (hkind : kind ≠ .tcp) (h : Covered σ f D) (hsafe : Safe σ f) (hexact : Exact σ f)
    (now : Time) {p : Packet} (hp : SafePacket σ f p ∧ ExactPacket σ p)
    (hin : p.type = .normal → p.seqNo ∈ D)
    (hsent : ∀ q ∈ (f.receive σ kind now p).2, q.type = .normal → q.seqNo ∈ D) :
    Covered σ (f.receive σ kind now p).1 D := by
  rcases receive_sends (f := f) hkind now (Multiset.mem_singleton_self p) with heq |
    ⟨-, htype, heq⟩ | ⟨-, htype, -, hsame, -⟩ | hby
  · exact heq ▸ h
  · obtain ⟨r, b, hacc, -⟩ := accept_frame f p (σ := σ)
    rw [heq]
    unfold receiveDataPkt
    rw [hacc]
    exact ⟨Finset.insert_subset (hin htype) h.delivered, h.nextSeqNo⟩
  · exact (h.noteAck hsafe (hp.1.ack htype) p.sackList).same hsame
  · exact h.bySendCall hsize hby hsafe hexact (fun q hq => Multiset.mem_singleton.mp hq ▸ hp)
      fun q hq => hsent q hq (hby.normal q hq)

end Covered

/-- The segments among the packets that were sent. -/
def sentSegs (ps : List Packet) : Finset ℕ :=
  ((ps.filter (·.type = .normal)).map (·.seqNo)).toFinset

@[simp] lemma mem_sentSegs {ps : List Packet} {s : ℕ} :
    s ∈ sentSegs ps ↔ ∃ p ∈ ps, p.type = .normal ∧ p.seqNo = s := by
  simp [sentSegs, and_assoc]

lemma sentSegs_append (ps qs : List Packet) : sentSegs (ps ++ qs) = sentSegs ps ∪ sentSegs qs := by
  simp [sentSegs]

structure Sent (σ : FlowSpec) (s : Flow PFabric × List Packet) : Prop where
  safe : Safe σ s.1
  exact : Exact σ s.1
  covered : Covered σ s.1 (sentSegs s.2)

structure SentPacket (σ : FlowSpec) (s : Flow PFabric × List Packet) (p : Packet) : Prop where
  safe : SafePacket σ s.1 p
  exact : ExactPacket σ p
  sent : p.type = .normal → p.seqNo ∈ sentSegs s.2

lemma sent_calls (hkind : kind ≠ .tcp) (hsize : σ.size + σ.mss < 4294967296) :
    Calls (party σ kind).logged (fun _ _ => True) (Sent σ)
      (fun s t => Ahead s.1 t.1 ∧ sentSegs s.2 ⊆ sentSegs t.2) (SentPacket σ) where
  init := ⟨safe_new σ _ _, exact_new σ _ _, ⟨Finset.empty_subset _, covers_zero⟩⟩
  mono := fun hst hp => ⟨hp.safe.mono hst.1.1, hp.exact, fun htype => hst.2 (hp.sent htype)⟩
  input := by
    intro s t i r _ h hlog
    obtain ⟨r, hr, rfl⟩ := Option.map_eq_some_iff.mp hlog
    have hcall := (exact_calls kind hsize).input trivial ⟨h.safe, h.exact⟩ hr
    have hnew : ∀ p ∈ r.2, p.type = .normal → p.seqNo ∈ sentSegs (s.2 ++ r.2) := fun p hp htype =>
      mem_sentSegs.mpr ⟨p, List.mem_append_right _ hp, htype, rfl⟩
    have hsub : sentSegs s.2 ⊆ sentSegs (s.2 ++ r.2) :=
      sentSegs_append s.2 r.2 ▸ Finset.subset_union_left
    have hcov : Covered σ r.1 (sentSegs (s.2 ++ r.2)) :=
      (h.covered.mono hsub).input hsize hkind h.safe h.exact hr hnew
    exact ⟨⟨hcall.inv.1, hcall.inv.2, hcov⟩, ⟨hcall.le, hsub⟩,
      fun p hp => ⟨(hcall.packets p hp).1, (hcall.packets p hp).2, hnew p hp⟩⟩
  receive := by
    intro s t p _ h hp
    have hcall := (exact_calls kind hsize).receive (t := t) (p := p) trivial ⟨h.safe, h.exact⟩
      ⟨hp.safe, hp.exact⟩
    let r := (party σ kind).receive t p s.1
    have hnew : ∀ q ∈ r.2, q.type = .normal → q.seqNo ∈ sentSegs (s.2 ++ r.2) := fun q hq htype =>
      mem_sentSegs.mpr ⟨q, List.mem_append_right _ hq, htype, rfl⟩
    have hsub : sentSegs s.2 ⊆ sentSegs (s.2 ++ r.2) :=
      sentSegs_append s.2 r.2 ▸ Finset.subset_union_left
    have hcov : Covered σ r.1 (sentSegs (s.2 ++ r.2)) :=
      (h.covered.mono hsub).receive hsize hkind h.safe h.exact t ⟨hp.safe, hp.exact⟩
        (fun htype => hsub (hp.sent htype)) hnew
    exact ⟨⟨hcall.inv.1, hcall.inv.2, hcov⟩, ⟨hcall.le, hsub⟩,
      fun q hq => ⟨(hcall.packets q hq).1, (hcall.packets q hq).2, hnew q hq⟩⟩

lemma data_by_sendCall (hkind : kind ≠ .tcp) {t₀ : Time}
    {s t : State (Flow PFabric × List Packet) Packet Time} {a : Act Packet Time FlowInput}
    (hn : (machine (party σ kind).logged t₀).next s a = some t) {p : Packet}
    (hp : p ∈ t.inFlight) (htype : p.type = .normal) :
    p ∈ s.inFlight ∨ ∃ g now, SendCall σ kind s.party.1 s.inFlight g ∧
      p ∈ (g.sendPendingData σ kind now).2 := by
  have hby : ∀ {r : Flow PFabric × List Packet} {q : Packet}, q ∈ r.2 →
      BySendCall σ kind s.party.1 s.inFlight r →
      ∃ g now, SendCall σ kind s.party.1 s.inFlight g ∧
        q ∈ (g.sendPendingData σ kind now).2 := by
    rintro r q hq ⟨g, now, hcall, -, hps⟩
    exact ⟨g, now, hcall, hps ▸ hq⟩
  rcases next_cases hn with ⟨time, i, r, -, hlog, rfl⟩ | ⟨time, q, T, -, hT, rfl⟩ |
    ⟨q, T, -, hT, rfl⟩ | ⟨q, -, hq, rfl⟩
  · obtain ⟨r, hr, rfl⟩ := Option.map_eq_some_iff.mp hlog
    rcases Multiset.mem_add.mp hp with hp | hp
    · exact .inl hp
    · rcases input_sends (S := s.inFlight) hkind hr with ⟨-, hnil⟩ | hsend
      · exact absurd (hnil ▸ hp) List.not_mem_nil
      · exact .inr (hby (Multiset.mem_coe.mp hp) hsend)
  · rcases Multiset.mem_add.mp hp with hp | hp
    · exact .inl (hT ▸ Multiset.mem_cons_of_mem hp)
    · have hq : q ∈ s.inFlight := hT ▸ Multiset.mem_cons_self q T
      have hp : p ∈ (s.party.1.receive σ kind time q).2 := Multiset.mem_coe.mp hp
      rcases receive_sends (f := s.party.1) hkind time hq with heq | ⟨-, -, heq⟩ |
        ⟨-, -, -, -, hnil⟩ | hsend
      · exact absurd (heq ▸ hp) List.not_mem_nil
      · rw [heq] at hp
        obtain rfl := List.mem_singleton.mp hp
        exact absurd htype nofun
      · exact absurd (hnil ▸ hp) List.not_mem_nil
      · exact .inr (hby hp hsend)
  · exact .inl (hT ▸ Multiset.mem_cons_of_mem hp)
  · rcases Multiset.mem_cons.mp hp with rfl | hp
    · exact .inl hq
    · exact .inl hp

/-- **What a sender sends**: in every state that is reached, `send_pending_data` ends wherever it
is called, sends segments of the flow within the window, and is all that data is sent by;
`next_seq_no` is the size of the flow or a boundary before it, and all segments below it were
sent. -/
theorem sender_covers (hkind : kind ≠ .tcp) (hsize : σ.size + σ.mss < 4294967296) (t₀ : Time)
    {s : State (Flow PFabric × List Packet) Packet Time}
    (hs : Reach (machine (party σ kind).logged t₀) s) :
    (∀ g, SendCall σ kind s.party.1 s.inFlight g →
      (∀ window, ∃ n ≤ σ.size, (∀ i < n, g.MaySend σ window ((nextSeq σ)^[i] g.nextSeqNo)) ∧
        ¬ g.MaySend σ window ((nextSeq σ)^[n] g.nextSeqNo)) ∧
      ∀ now, ∀ p ∈ (g.sendPendingData σ kind now).2, σ.mss ∣ p.seqNo ∧ p.seqNo < σ.size ∧
        sub32 p.size σ.hdrSize = min σ.mss (σ.size - p.seqNo) ∧
        p.seqNo + σ.mss ≤ g.lastUnackedSeq + g.cwndMss * σ.mss + g.scoreboardSackBytes) ∧
    (∀ a t, (machine (party σ kind).logged t₀).next s a = some t → ∀ p ∈ t.inFlight,
      p.type = .normal → p ∈ s.inFlight ∨ ∃ g now, SendCall σ kind s.party.1 s.inFlight g ∧
        p ∈ (g.sendPendingData σ kind now).2) ∧
    s.party.1.nextSeqNo ≤ σ.size ∧
    (s.party.1.nextSeqNo = σ.size ∨ σ.mss ∣ s.party.1.nextSeqNo) ∧
    ∀ x, σ.mss ∣ x → x < s.party.1.nextSeqNo →
      ∃ p ∈ s.party.2, p.type = .normal ∧ p.seqNo = x := by
  obtain ⟨h, hS⟩ := (sent_calls hkind hsize).kept.reach hs
  refine ⟨fun g hg => ?_, fun a t hn p hp htype => ?_, h.safe.nextSeqNo, h.exact.nextSeqNo.symm,
    fun x hdvd hlt => mem_sentSegs.mp (h.covered.nextSeqNo x hdvd hlt)⟩
  · have hsafe := hg.safe h.safe fun p hp => (hS p hp).safe
    have hexact := hg.exact h.exact fun p hp => (hS p hp).exact
    exact ⟨fun window => exists_not_maySend hsize window hsafe.nextSeqNo,
      sendPendingData_sends hsize hexact hsafe.nextSeqNo⟩
  · exact data_by_sendCall hkind hn hp htype

/-- A timeout comes before the segments do, and then an ACK past `next_seq_no`. -/
def earlyTimeout : List (Act Packet Time FlowInput) :=
  [.input 1 .start, .input (1 + twoSegments.retxTimeout) (.retxTimeout 0),
    .deliver 2 (send twoSegments 1 2920 0), .deliver 3 (send twoSegments 1 2920 1460),
    .deliver 4 (sendAck twoSegments 2920 [])]

theorem sender_covers_earlyTimeout :
    ∃ s, (Reach (machine (party twoSegments .flow).logged 0) s ∧
        s.party.1.nextSeqNo = 2920 ∧ s.party.1.retxEventCount = 2) ∧
      ∀ x, 1460 ∣ x → x < 2920 → ∃ p ∈ s.party.2, p.type = .normal ∧ p.seqNo = x := by
  obtain ⟨s, hs, hend⟩ : ∃ s, Reach (machine (party twoSegments .flow).logged 0) s ∧
      (s.party.1.nextSeqNo = 2920 ∧ s.party.1.retxEventCount = 2) :=
    exists_reach_of_exec_any earlyTimeout (by decide +kernel)
  exact ⟨s, ⟨hs, hend⟩, fun x hdvd hlt =>
    (sender_covers (by decide) (by decide) 0 hs).2.2.2.2 x hdvd (hend.1 ▸ hlt)⟩

end DcSim.Flow
