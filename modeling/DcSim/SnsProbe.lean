import DcSim.SnsNet

/-!
Probes authorise data.

In a network that does not duplicate packets each packet is used up when it is received. So
for each message id there are at most as many SIMs in flight or answered as were sent, at
most as many SIM_ACKs in flight or used as were sent, and at most
`num_data_packets_per_sim_ack` DATA packets in flight or received for each SIM_ACK used.
-/

namespace DcSim

open Runs

/-- How many packets of a kind are in flight for a message. -/
def inFlightOf (type : SnsType) (id : ℕ) (S : Multiset Packet) : ℕ :=
  S.countP fun p => p.snsType = type ∧ p.snsMsgId = id

section

variable (type : SnsType) (id : ℕ) (S T : Multiset Packet) (p : Packet)

@[simp] lemma inFlightOf_zero : inFlightOf type id 0 = 0 := rfl

@[simp] lemma inFlightOf_add :
    inFlightOf type id (S + T) = inFlightOf type id S + inFlightOf type id T :=
  Multiset.countP_add _ _ _

@[simp] lemma inFlightOf_cons : inFlightOf type id (p ::ₘ S) =
    inFlightOf type id S + if p.snsType = type ∧ p.snsMsgId = id then 1 else 0 :=
  Multiset.countP_cons _ _ _

@[simp] lemma inFlightOf_singleton : inFlightOf type id {p} =
    if p.snsType = type ∧ p.snsMsgId = id then 1 else 0 := by
  rw [← Multiset.cons_zero, inFlightOf_cons, inFlightOf_zero, Nat.zero_add]

lemma one_le_inFlightOf {p : Packet} (h : p ∈ S) : 1 ≤ inFlightOf p.snsType p.snsMsgId S :=
  Multiset.countP_pos_of_mem h ⟨rfl, rfl⟩

lemma inFlightOf_map {α : Type*} (l : List α) (g : α → Packet) {t : SnsType} {i : ℕ}
    (hg : ∀ a, (g a).snsType = t ∧ (g a).snsMsgId = i) :
    inFlightOf type id (l.map g : List Packet) = if t = type ∧ i = id then l.length else 0 := by
  induction l with
  | nil => simp
  | cons a l ih =>
    rw [List.map_cons, ← Multiset.cons_coe, inFlightOf_cons, ih, (hg a).1, (hg a).2]
    split_ifs <;> rfl

end

@[simp] lemma count_orderedInsert (a b : ℕ) (l : List ℕ) :
    (l.orderedInsert (· ≤ ·) a).count b = l.count b + if a = b then 1 else 0 := by
  rw [(List.perm_orderedInsert (· ≤ ·) a l).count_eq b, List.count_cons]
  simp

namespace SnsFlow

variable {σ : SnsSpec} {f : SnsFlow σ.sizeInPkt} {S : Multiset Packet}

/-- The count of each message id: the ids below `msgId` have been used once, and at each
stage no more of a message is in flight or done than the stage before has let go. -/
structure Counts (σ : SnsSpec) (f : SnsFlow σ.sizeInPkt) (S : Multiset Packet) : Prop where
  sims : ∀ id, f.simIdsSent.count id = if id < f.msgId then 1 else 0
  simAcks : ∀ id, inFlightOf .sim id S + f.simAckIdsSent.count id ≤ f.simIdsSent.count id
  datas : ∀ id, inFlightOf .simAck id S + f.dataIdsSent.count id ≤ f.simAckIdsSent.count id
  received : ∀ id, inFlightOf .data id S + f.dataIdsRecived.count id ≤
    σ.params.numDataPacketsPerSimAck * f.dataIdsSent.count id

namespace Counts

lemma check (h : Counts σ f S) (now : Time) : Counts σ (f.checkAndSetToFinished σ now).1 S := by
  rcases f.check_cases σ now with ⟨-, hr⟩ | ⟨-, -, hr⟩ | ⟨-, -, hr⟩ <;> rw [hr]
  · exact h
  · exact h
  · exact ⟨h.sims, h.simAcks, h.datas, h.received⟩

lemma send (h : Counts σ f S) (now : Time) :
    Counts σ (f.sendSimulation σ now).1 (S + emitted (f.sendSimulation σ now).2) := by
  obtain ⟨w, b, n, l, hg, -⟩ := f.getFreeSlotInWindow_frame now
  have hfree : Counts σ (f.getFreeSlotInWindow now).2 S := by
    rw [hg]
    exact ⟨h.sims, h.simAcks, h.datas, h.received⟩
  rcases f.sendSimulation_cases σ now with ⟨-, hs⟩ | ⟨i, -, -, -, hs⟩ | ⟨-, -, hs⟩
  · rw [hs]; simpa using hfree
  · rw [hs, hg]
    have hcall : emitted [.pushSim σ.src (f.simPacket σ now), .simHostProc σ.src now] =
        {f.simPacket σ now} := rfl
    have htype : (f.simPacket σ now).snsType = .sim := rfl
    have hid : (f.simPacket σ now).snsMsgId = f.msgId := rfl
    rw [hcall]
    refine ⟨fun id => ?_, fun id => ?_, fun id => ?_, fun id => ?_⟩
    · have := h.sims id
      simp only [count_orderedInsert]
      split_ifs at this ⊢ <;> omega
    · have := h.simAcks id
      simp only [modifySlot, count_orderedInsert, inFlightOf_add, inFlightOf_singleton, htype, hid,
        true_and]
      omega
    · simpa [modifySlot, htype] using h.datas id
    · simpa [modifySlot, htype] using h.received id
  · rw [hs]; simpa using hfree

variable {p : Packet}

lemma sim (h : Counts σ f (p ::ₘ S)) (hp : p.snsType = .sim) (now : Time) :
    Counts σ (f.receiveSim σ now p).1 (S + emitted (f.receiveSim σ now p).2) := by
  have htype : (simAckPacket σ now p).snsType = .simAck := rfl
  have hid : (simAckPacket σ now p).snsMsgId = p.snsMsgId := rfl
  rw [emitted_receiveSim]
  refine ⟨h.sims, fun id => ?_, fun id => ?_, fun id => ?_⟩
  · have := h.simAcks id
    simp only [inFlightOf_cons, hp, true_and] at this
    simp only [receiveSim, count_orderedInsert, inFlightOf_add, inFlightOf_singleton, htype,
      reduceCtorEq, false_and, if_false]
    omega
  · have := h.datas id
    simp only [inFlightOf_cons, hp, reduceCtorEq, false_and, if_false] at this
    simp only [receiveSim, count_orderedInsert, inFlightOf_add, inFlightOf_singleton, htype, hid,
      true_and]
    omega
  · simpa [receiveSim, hp, htype] using h.received id

lemma simAck (h : Counts σ f (p ::ₘ S)) (hp : p.snsType = .simAck) (now : Time) :
    Counts σ (f.receiveSimAck σ now p).1 (S + emitted (f.receiveSimAck σ now p).2) := by
  have hlists : ∃ w r l, (f.receiveSimAck σ now p).1 = { f with
      simWindow := w
      currentAvgRtt := r
      touched := l
      dataIdsSent := f.dataIdsSent.orderedInsert (· ≤ ·) p.snsMsgId } := by
    rcases f.receiveSimAck_cases σ now p with ⟨i, -, -, hr⟩ | ⟨-, -, hr⟩
    · exact ⟨_, _, _, hr⟩
    · exact ⟨_, _, _, hr⟩
  obtain ⟨w, r, l, hr⟩ := hlists
  have hflight (type : SnsType) (id : ℕ) :=
    inFlightOf_map type id (List.range σ.params.numDataPacketsPerSimAck)
      (dataPacket σ (f.timeToBeSent σ now (f.getSlotById p.snsMsgId)) p) (t := .data)
      (i := p.snsMsgId) fun _ => ⟨rfl, rfl⟩
  rw [hr, emitted_receiveSimAck]
  refine ⟨h.sims, fun id => ?_, fun id => ?_, fun id => ?_⟩
  · simpa [hp, hflight] using h.simAcks id
  · have := h.datas id
    simp only [inFlightOf_cons, hp, true_and] at this
    simp only [inFlightOf_add, hflight, reduceCtorEq, false_and, if_false, count_orderedInsert]
    omega
  · have := h.received id
    simp only [inFlightOf_cons, hp, reduceCtorEq, false_and, if_false] at this
    simp only [inFlightOf_add, hflight, true_and, count_orderedInsert, List.length_range,
      Nat.mul_add]
    split_ifs <;> omega

lemma data (h : Counts σ f (p ::ₘ S)) (hp : p.snsType = .data) (now : Time) :
    Counts σ (f.receiveData σ now p).1 (S + emitted (f.receiveData σ now p).2) := by
  have hrec : Counts σ { f with
      dataIdsRecived := f.dataIdsRecived.orderedInsert (· ≤ ·) p.snsMsgId } S := by
    refine ⟨h.sims, fun id => ?_, fun id => ?_, fun id => ?_⟩
    · simpa [hp] using h.simAcks id
    · simpa [hp] using h.datas id
    · have := h.received id
      simp only [inFlightOf_cons, hp, true_and] at this
      simp only [count_orderedInsert]
      omega
  have hflow : Counts σ (f.receiveData σ now p).1 S := by
    rcases f.receiveData_cases σ now p with ⟨-, hr⟩ | ⟨-, hr⟩
    · rwa [hr]
    · rw [hr]
      refine Counts.check ?_ now
      unfold acceptData
      split_ifs
      · exact hrec
      · exact ⟨hrec.sims, hrec.simAcks, hrec.datas, hrec.received⟩
  rcases emitted_receiveData f now p with hq | ⟨q, hq, -, -, he⟩
  · simpa [hq] using hflow
  · rw [he]
    exact ⟨hflow.sims, fun id => by simpa [hq] using hflow.simAcks id,
      fun id => by simpa [hq] using hflow.datas id, fun id => by simpa [hq] using hflow.received id⟩

lemma dataAck (h : Counts σ f S) (p : Packet) : Counts σ (f.receiveDataAck p) S := by
  obtain ⟨w, l, a, hr⟩ := f.receiveDataAck_frame p
  rw [hr]
  exact ⟨h.sims, h.simAcks, h.datas, h.received⟩

lemma lose (h : Counts σ f (p ::ₘ S)) : Counts σ f S := by
  have hle (type : SnsType) (id : ℕ) : inFlightOf type id S ≤ inFlightOf type id (p ::ₘ S) := by
    simp
  exact ⟨h.sims, fun id => (Nat.add_le_add_right (hle _ id) _).trans (h.simAcks id),
    fun id => (Nat.add_le_add_right (hle _ id) _).trans (h.datas id),
    fun id => (Nat.add_le_add_right (hle _ id) _).trans (h.received id)⟩

end Counts

end SnsFlow

namespace SnsNet

variable {σ : SnsSpec}

lemma kept_counts (hc : σ.collectiveId ≠ 99) :
    Kept σ false (fun _ _ => True) (SnsFlow.Counts σ) where
  new := ⟨fun _ => rfl, fun _ => le_rfl, fun _ => le_rfl, fun _ => le_rfl⟩
  check t _ h := h.check t
  collective _ _ _ h99 _ _ := absurd h99 hc
  send t _ _ h := h.send t
  sim t hp _ h := h.sim hp t
  simAck t hp _ h := h.simAck hp t
  dataAck _ _ h := h.lose.dataAck _
  data t hp _ h := h.data hp t
  lose h := h.lose
  duplicate hd := absurd hd Bool.false_ne_true

/-- **Probes authorise data**: in a network without duplicates a message id is sent in one SIM
at most, the ids of the SIM_ACKs are among those of the SIMs and the ids data was sent for
among those of the SIM_ACKs, and a message is received at most
`num_data_packets_per_sim_ack` times for each time data was sent for it. So no DATA packet
is ever on its way for a message whose SIM did not reach the receiver. -/
theorem probes_authorise_data (hc : σ.collectiveId ≠ 99) {s : SnsNet σ.sizeInPkt}
    (hs : Reach (machine σ false) s) :
    s.flow.simIdsSent.Nodup ∧
    (s.flow.dataIdsSent : Multiset ℕ) ≤ s.flow.simAckIdsSent ∧
    (s.flow.simAckIdsSent : Multiset ℕ) ≤ s.flow.simIdsSent ∧
    (∀ id, s.flow.dataIdsRecived.count id ≤
      σ.params.numDataPacketsPerSimAck * s.flow.dataIdsSent.count id) ∧
    ∀ p ∈ s.inFlight, p.snsType = .data → p.snsMsgId ∈ s.flow.simAckIdsSent := by
  have h := (kept_counts hc).reach hs
  refine ⟨List.nodup_iff_count_le_one.mpr fun id => ?_, Multiset.le_iff_count.mpr fun id => ?_,
    Multiset.le_iff_count.mpr fun id => ?_, fun id => ?_, fun p hp hd => ?_⟩
  · rw [h.sims id]
    split_ifs <;> omega
  · rw [Multiset.coe_count, Multiset.coe_count]
    exact (Nat.le_add_left _ _).trans (h.datas id)
  · rw [Multiset.coe_count, Multiset.coe_count]
    exact (Nat.le_add_left _ _).trans (h.simAcks id)
  · exact (Nat.le_add_left _ _).trans (h.received id)
  · have h1 := hd ▸ one_le_inFlightOf s.inFlight hp
    have h2 := h.received p.snsMsgId
    have h3 := h.datas p.snsMsgId
    have hsent : 0 < s.flow.dataIdsSent.count p.snsMsgId := by
      by_contra h0
      rw [Nat.eq_zero_of_not_pos h0] at h2
      omega
    exact List.count_pos_iff.mp (by omega)

/-- The message of a one-segment flow, from the SIM to the data. -/
theorem probes_authorise_data_oneMessage :
    ∃ s, (Reach (machine oneSegment false) s ∧ s.flow.dataIdsRecived = [0]) ∧
      s.flow.simIdsSent.Nodup ∧
      (s.flow.dataIdsSent : Multiset ℕ) ≤ s.flow.simAckIdsSent ∧
      (s.flow.simAckIdsSent : Multiset ℕ) ≤ s.flow.simIdsSent ∧
      (∀ id, s.flow.dataIdsRecived.count id ≤ 1 * s.flow.dataIdsSent.count id) ∧
      ∀ p ∈ s.inFlight, p.snsType = .data → p.snsMsgId ∈ s.flow.simAckIdsSent := by
  obtain ⟨s, hs, hr⟩ : ∃ s, Reach (machine oneSegment false) s ∧ s.flow.dataIdsRecived = [0] :=
    exists_reach_of_exec_any oneMessage (by decide +kernel)
  exact ⟨s, ⟨hs, hr⟩, probes_authorise_data (by decide) hs⟩

end SnsNet

end DcSim
