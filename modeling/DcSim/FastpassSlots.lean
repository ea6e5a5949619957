import DcSim.FastpassFlow

/-!
Which packets a Fastpass flow sends in its slots.

As long as the sender is not finished there is a packet that is not acknowledged, and
`next_pkt_to_send` finds one. The last ACK clears `sender_acked`. A slot that was scheduled before
is not cancelled, and `FastpassFlowProcessingEvent` does not ask whether the sender is finished, as
`fastpass_timeout` does: such a slot sends a packet that has been acknowledged, or one past the
end.
-/

namespace DcSim

open LossyNet Runs Word32 FastpassFlow

structure FastpassHistory where
  -- A flow with a history: the packets that ACKs came for, and the packets that were sent, each
  -- with those that had been acknowledged by then.
  flow : FastpassFlow
  acknowledged : Finset ℤ := ∅
  sent : List (ℤ × Finset ℤ) := []

namespace FastpassHistory

variable (σ : FastpassSpec)

def hear (acknowledged : Finset ℤ) : FastpassPacket → Finset ℤ
  | .ack seqNo => insert (toInt32 (seqNo / σ.mss)) acknowledged
  | _ => acknowledged

def note (h : FastpassHistory) : FastpassInput → List (ℤ × Finset ℤ)
  | .slot word => h.sent ++ [(h.flow.nextPktToSend σ word, h.acknowledged)]
  | _ => h.sent

def party : Party FastpassHistory FastpassPacket Time FastpassInput where
  init := { flow := (FastpassFlow.party σ).init }
  input now i h := (h.flow.input σ now i).map fun r =>
    ({ h with flow := r.1, sent := h.note σ i }, r.2)
  receive _ p h :=
    ({ h with flow := (h.flow.receive σ p).1, acknowledged := hear σ h.acknowledged p },
      (h.flow.receive σ p).2)

/-- A packet of the flow that has not been acknowledged. -/
def Open (pkt : ℤ) (acknowledged : Finset ℤ) : Prop :=
  0 ≤ pkt ∧ pkt < σ.sizeInPkt ∧ pkt ∉ acknowledged

instance (pkt : ℤ) (acknowledged : Finset ℤ) : Decidable (Open σ pkt acknowledged) :=
  inferInstanceAs (Decidable (_ ∧ _ ∧ _))

/-- **Each packet that was sent** was one of the flow and not acknowledged. -/
def SentOpen (h : FastpassHistory) : Prop := ∀ x ∈ h.sent, Open σ x.1 x.2

instance (h : FastpassHistory) : Decidable (SentOpen σ h) :=
  inferInstanceAs (Decidable (∀ x ∈ h.sent, _))

/-- A slot is used before the sender of a flow, which has any packets, is finished. -/
def BeforeFinish (h : FastpassHistory) : Act FastpassPacket Time FastpassInput → Prop
  | .input _ (.slot _) => 0 < σ.sizeInPkt ∧ h.flow.senderFinished = false
  | _ => True

structure Recorded (h : FastpassHistory) : Prop where
  safe : FastpassFlow.Safe σ h.flow
  sending : h.flow.senderFinished = false → h.acknowledged = h.flow.senderAcked
  finished : h.flow.senderFinished = true → ∀ i : ℤ, 0 ≤ i → i < σ.sizeInPkt → i ∈ h.acknowledged

variable {σ} {h : FastpassHistory}

lemma acknowledge_senderAcked (f : FastpassFlow) (i : ℤ) :
    (f.acknowledge i).senderAcked = insert i f.senderAcked := by
  unfold FastpassFlow.acknowledge
  split_ifs with hmem
  · exact (Finset.insert_eq_of_mem hmem).symm
  · rfl

lemma input_frame {f : FastpassFlow} {now : Time} {i : FastpassInput}
    {r : FastpassFlow × List FastpassPacket} (hr : f.input σ now i = some r) :
    r.1.senderFinished = f.senderFinished ∧ r.1.senderAcked = f.senderAcked := by
  cases i with
  | start =>
    obtain ⟨-, hr⟩ := Option.ite_none_left_eq_some.1 hr
    obtain rfl := Option.some.inj hr
    exact ⟨rfl, rfl⟩
  | slot word =>
    obtain ⟨-, hr⟩ := Option.ite_none_right_eq_some.1 hr
    obtain rfl := Option.some.inj hr
    exact ⟨rfl, rfl⟩
  | timeout =>
    obtain ⟨-, hr⟩ := Option.ite_none_right_eq_some.1 hr
    dsimp only at hr
    split_ifs at hr <;> obtain rfl := Option.some.inj hr <;> exact ⟨rfl, rfl⟩
  | finish =>
    obtain ⟨-, hr⟩ := Option.ite_none_left_eq_some.1 hr
    obtain rfl := Option.some.inj hr
    exact ⟨rfl, rfl⟩

lemma receiveAck_cases (f : FastpassFlow) (seqNo : ℕ) :
    let g := f.acknowledge (toInt32 (seqNo / σ.mss))
    f.senderFinished = false ∧ g.senderAckedCount = σ.sizeInPkt ∧
        (f.receiveAck σ seqNo).1.senderFinished = true ∨
      (f.receiveAck σ seqNo).1 = g ∧ g.senderFinished = f.senderFinished := by
  obtain ⟨acked, count, u, heq⟩ := f.acknowledge_frame (toInt32 (seqNo / σ.mss))
  unfold FastpassFlow.receiveAck
  rw [heq]
  dsimp only
  split_ifs with hfin
  · exact .inl ⟨hfin.1, hfin.2, rfl⟩
  · exact .inr ⟨rfl, rfl⟩

lemma Recorded.receiveAck (hrec : Recorded σ h) {seqNo : ℕ}
    (hp : SafePacket σ h.flow (.ack seqNo)) :
    Recorded σ
      { h with
        flow := (h.flow.receiveAck σ seqNo).1
        acknowledged := insert (toInt32 (seqNo / σ.mss)) h.acknowledged } := by
  have hsafe := (hrec.safe.receiveAck hp).inv
  have hacked := acknowledge_senderAcked h.flow (toInt32 (seqNo / σ.mss))
  rcases receiveAck_cases (σ := σ) h.flow seqNo with ⟨hopen, hcount, hfin⟩ | ⟨heq, hfin⟩
  · refine ⟨hsafe, fun hstill => ?_, fun _ i hi hlt => ?_⟩
    · exact absurd (hfin.symm.trans hstill) Bool.noConfusion
    · -- as many packets are acknowledged as the flow has
      obtain ⟨hdel, j, hj, rfl⟩ := hp hopen
      have hall := (hrec.safe.sending hopen).toAcked.acknowledge hj hdel
      rw [(seqNo_eq hj).2] at hacked hcount
      dsimp only
      rw [(seqNo_eq hj).2, hrec.sending hopen, ← hacked]
      exact mem_of_card (fun k hk => (hall.acked k hk).1) (by rw [← hall.count, hcount]) hi hlt
  · refine ⟨hsafe, fun hopen => ?_, fun hdone i hi hlt => ?_⟩
    · dsimp only at hopen ⊢
      rw [heq] at hopen ⊢
      rw [hacked, hrec.sending (hfin ▸ hopen)]
    · dsimp only at hdone
      rw [heq] at hdone
      exact Finset.mem_insert_of_mem (hrec.finished (hfin ▸ hdone) i hi hlt)

/-- **The calls of a flow are recorded.** -/
theorem recorded_calls (hsize : 0 < σ.sizeInPkt) :
    Calls (party σ) (fun _ _ => True) (Recorded σ) (fun g h => Later g.flow h.flow)
      (fun h => SafePacket σ h.flow) where
  init := ⟨(safe_calls hsize).init, fun _ => rfl, nofun⟩
  mono := (safe_calls hsize).mono
  input {h now i r} _ hrec hr := by
    obtain ⟨q, hq, rfl⟩ := Option.map_eq_some_iff.1 hr
    have hcall := hrec.safe.input hq
    obtain ⟨hfin, hacked⟩ := input_frame hq
    refine ⟨⟨hcall.inv, fun hopen => ?_, fun hdone => hrec.finished (hfin ▸ hdone)⟩, hcall.le,
      hcall.packets⟩
    exact (hrec.sending (hfin ▸ hopen)).trans hacked.symm
  receive {h now p} _ hrec hp := by
    have hcall := hrec.safe.receive hp
    refine ⟨?_, hcall.le, hcall.packets⟩
    cases p with
    | rts remaining => exact hrec
    | data seqNo => exact ⟨hcall.inv, hrec.sending, hrec.finished⟩
    | ack seqNo => exact hrec.receiveAck hp

lemma open_iff (hrec : 0 < σ.sizeInPkt → Recorded σ h) (word : ℤ) :
    Open σ (h.flow.nextPktToSend σ word) h.acknowledged ↔
      0 < σ.sizeInPkt ∧ h.flow.senderFinished = false := by
  constructor
  · rintro ⟨hlow, hlt, hopen⟩
    have hsize : 0 < σ.sizeInPkt := by omega
    refine ⟨hsize, ?_⟩
    by_contra hfin
    exact hopen ((hrec hsize).finished (Bool.eq_true_of_not_eq_false hfin) _ hlow hlt)
  · rintro ⟨hsize, hfin⟩
    have hnext := ((hrec hsize).safe.sending hfin).next word
    rwa [← (hrec hsize).sending hfin] at hnext

lemma sent_next {s t : State FastpassHistory FastpassPacket Time}
    {a : Act FastpassPacket Time FastpassInput} (hn : next (party σ) s a = some t) :
    t.party.sent = match a with
      | .input _ i => s.party.note σ i
      | _ => s.party.sent := by
  rcases next_cases hn with ⟨now, i, r, rfl, hr, rfl⟩ | ⟨now, p, S, rfl, -, rfl⟩ |
    ⟨p, S, rfl, -, rfl⟩ | ⟨p, rfl, -, rfl⟩
  · obtain ⟨q, -, rfl⟩ := Option.map_eq_some_iff.1 hr
    rfl
  · rfl
  · rfl
  · rfl

lemma sentOpen_next {s t : State FastpassHistory FastpassPacket Time}
    {a : Act FastpassPacket Time FastpassInput} (hrec : 0 < σ.sizeInPkt → Recorded σ s.party)
    (hsent : SentOpen σ s.party) (hn : next (party σ) s a = some t) :
    SentOpen σ t.party ↔ BeforeFinish σ s.party a := by
  have heq := sent_next hn
  unfold SentOpen
  rw [heq]
  cases a with
  | input now i =>
    cases i with
    | slot word =>
      simp only [note, BeforeFinish, List.forall_mem_append, List.forall_mem_singleton,
        open_iff hrec word]
      exact and_iff_right hsent
    | start => exact iff_of_true hsent trivial
    | timeout => exact iff_of_true hsent trivial
    | finish => exact iff_of_true hsent trivial
  | deliver now p => exact iff_of_true hsent trivial
  | lose p => exact iff_of_true hsent trivial
  | duplicate p => exact iff_of_true hsent trivial

/-- **A Fastpass flow sends only packets of its own that are not acknowledged** in those runs, and
no others, in which no slot is used after its sender is finished. -/
theorem sentOpen_iff_beforeFinish (σ : FastpassSpec) (t₀ : Time)
    (as : List (Act FastpassPacket Time FastpassInput)) :
    Always (machine (party σ) t₀) (fun s => SentOpen σ s.party) (machine (party σ) t₀).init as ↔
      Along (machine (party σ) t₀) (fun s a => BeforeFinish σ s.party a)
        (machine (party σ) t₀).init as := by
  let J : State FastpassHistory FastpassPacket Time → Prop := fun s =>
    (0 < σ.sizeInPkt → Recorded σ s.party ∧ ∀ p ∈ s.inFlight, SafePacket σ s.party.flow p) ∧
      SentOpen σ s.party
  have hJ : J (machine (party σ) t₀).init := ⟨fun hsize => (recorded_calls hsize).kept.init, nofun⟩
  refine always_iff_along (J := J) (fun hJ => hJ.2) (fun hJ hC hn => ?_)
    (fun hJ hC hn hP => ?_) as hJ
  · exact ⟨fun hsize => (recorded_calls hsize).kept.step (hJ.1 hsize) trivial hn,
      (sentOpen_next (fun hsize => (hJ.1 hsize).1) hJ.2 hn).2 hC⟩
  · exact hC ((sentOpen_next (fun hsize => (hJ.1 hsize).1) hJ.2 hn).1 hP)

/-- A flow of one packet is given a second slot because the ACK takes longer than an epoch; the
ACK comes before the slot, and the slot sends a packet past the end. -/
theorem not_sentOpen_onePacket :
    ¬ Always (machine (party onePacket) 0) (fun s => SentOpen onePacket s.party)
      (machine (party onePacket) 0).init
      [.input 0 .start, .input 1 (.slot 0), .input 2 .timeout, .deliver 2 (.data 0),
        .deliver 2 (.ack 0), .input 3 (.slot 0)] :=
  not_always_of_exec_any (by decide +kernel)

end FastpassHistory

end DcSim
