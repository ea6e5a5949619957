import DcSim.SnsNet
import Mathlib.Data.Finset.Card
import Mathlib.Tactic.Ring

/-!
When an SNS flow stops and when it is finished.

The receiver counts `mss` bytes for each message id it accepts. A slot of the window only
looks acknowledged if the message id that is its index was accepted, whatever message the
slot holds; so when the whole window looks acknowledged, `size_in_pkt` ids were accepted and
the flow has been finished by the byte count.
-/

namespace DcSim

open Runs Word32

namespace SnsFlow

variable {σ : SnsSpec} {f : SnsFlow σ.sizeInPkt} {S : Multiset Packet} {p : Packet}

/-- A flow that has accepted anything and is not finished is at least a byte short of the bytes
that finish it: the two are compared right after each DATA packet. -/
def Short (σ : SnsSpec) (f : SnsFlow σ.sizeInPkt) : Prop :=
  f.finished = false → f.accepted = ∅ ∨ f.receivedBytes < sub32 σ.size 1

structure Accounts (σ : SnsSpec) (f : SnsFlow σ.sizeInPkt) (S : Multiset Packet) : Prop where
  bytes : f.receivedBytes = f.accepted.card * σ.params.mss % 4294967296
  received : f.finished = false → f.received = f.accepted
  dataIds : f.finished = false → ∀ id ∈ f.dataIdsRecived, id ∈ f.accepted
  finished : f.finished = true → sub32 σ.size 1 ≤ f.receivedBytes
  data : ∀ p ∈ S, p.snsType = .data → p.size = add32 σ.params.mss σ.params.hdrSize
  dataAcks : ∀ p ∈ S, p.snsType = .dataAck → ∀ id ∈ p.snsAckDataIds, id ∈ f.accepted
  acked : ∀ id ∈ f.ackedMsgIds, id ∈ f.accepted
  slots : ∀ i, (f.simWindow i).status = .dataAckReceived → (i : ℕ) ∈ f.ackedMsgIds
  stopped : f.stopSendingSim = true →
    f.finished = true ∨ 4294967296 ≤ f.accepted.card * σ.params.mss

lemma size_pred (σ : SnsSpec) : sub32 σ.size 1 = σ.size - 1 := sub32_eq σ.size_lt σ.size_pos

namespace Accounts

lemma new (σ : SnsSpec) : Accounts σ (.new σ) 0 where
  bytes := by simp [SnsFlow.new]
  received _ := rfl
  dataIds _ := by simp [SnsFlow.new]
  finished := by simp [SnsFlow.new]
  data := by simp
  dataAcks := by simp
  acked := by simp [SnsFlow.new]
  slots := by simp [SnsFlow.new]
  stopped := by simp [SnsFlow.new]

theorem finished_of_window (h : Accounts σ f S) (hshort : Short σ f)
    (hall : ∀ i, (f.simWindow i).status = .dataAckReceived) :
    f.finished = true ∨ 4294967296 ≤ f.accepted.card * σ.params.mss := by
  by_contra hcon
  obtain ⟨hopen, hov⟩ := not_or.mp hcon
  have hsub : Finset.range σ.sizeInPkt ⊆ f.accepted := fun i hi =>
    h.acked i (h.slots ⟨i, Finset.mem_range.mp hi⟩ (hall _))
  have hcard : σ.sizeInPkt ≤ f.accepted.card := by
    simpa using Finset.card_le_card hsub
  have hbytes : σ.size ≤ f.accepted.card * σ.params.mss :=
    σ.size_le.trans (Nat.mul_le_mul_right _ hcard)
  have hmod : f.receivedBytes = f.accepted.card * σ.params.mss :=
    h.bytes.trans (Nat.mod_eq_of_lt (not_le.mp hov))
  rcases hshort (Bool.not_eq_true _ ▸ hopen) with h0 | hlt
  · have := σ.sizeInPkt_pos
    rw [h0, Finset.card_empty] at hcard
    omega
  · rw [size_pred] at hlt
    omega

lemma check (h : Accounts σ f S) (now : Time) :
    Accounts σ (f.checkAndSetToFinished σ now).1 S := by
  rcases f.check_cases σ now with ⟨-, hr⟩ | ⟨-, -, hr⟩ | ⟨-, hb, hr⟩ <;> rw [hr]
  · exact h
  · exact h
  · exact { h with
      received := by simp
      dataIds := by simp
      finished := fun _ => hb
      stopped := fun _ => .inl rfl }

lemma lose (h : Accounts σ f (p ::ₘ S)) : Accounts σ f S :=
  { h with
    data := fun q hq => h.data q (Multiset.mem_cons_of_mem hq)
    dataAcks := fun q hq => h.dataAcks q (Multiset.mem_cons_of_mem hq) }

lemma add (h : Accounts σ f S) {T : Multiset Packet}
    (hT : ∀ p ∈ T, p.snsType = .data ∧ p.size = add32 σ.params.mss σ.params.hdrSize ∨
      p.snsType = .sim ∨ p.snsType = .simAck) : Accounts σ f (S + T) :=
  { h with
    data := fun q hq hd => (Multiset.mem_add.mp hq).elim (fun hq => h.data q hq hd) fun hq => by
      rcases hT q hq with ⟨-, h⟩ | h | h
      · exact h
      · rw [hd] at h; cases h
      · rw [hd] at h; cases h
    dataAcks := fun q hq hd => (Multiset.mem_add.mp hq).elim (fun hq => h.dataAcks q hq hd)
      fun hq => by
        rcases hT q hq with ⟨h, -⟩ | h | h <;> rw [hd] at h <;> cases h }

lemma duplicate (h : Accounts σ f S) (hp : p ∈ S) : Accounts σ f (p ::ₘ S) :=
  { h with
    data := fun q hq => h.data q ((Multiset.mem_cons.mp hq).elim (· ▸ hp) id)
    dataAcks := fun q hq => h.dataAcks q ((Multiset.mem_cons.mp hq).elim (· ▸ hp) id) }

lemma window (h : Accounts σ f S) {w : Window σ.sizeInPkt}
    (hw : ∀ i, (w i).status = .dataAckReceived → (f.simWindow i).status = .dataAckReceived) :
    Accounts σ { f with simWindow := w } S :=
  { h with slots := fun i hi => h.slots i (hw i hi) }

lemma freeSlot (h : Accounts σ f S) (hshort : Short σ f) (now : Time) :
    Accounts σ (f.getFreeSlotInWindow now).2 S := by
  obtain ⟨w, b, n, l, hg, hw, hb, -⟩ := f.getFreeSlotInWindow_frame now
  rw [hg]
  have hw' : ∀ i, (w i).status = .dataAckReceived →
      (f.simWindow i).status = .dataAckReceived := by
    rcases hw with rfl | ⟨rfl, -⟩
    · exact fun i hi => hi
    · intro i hi
      unfold Window.dropExpired at hi
      split_ifs at hi
      · simp at hi
      · exact hi
  refine { h.window hw' with stopped := fun hs => ?_ }
  rcases hb with rfl | ⟨-, hall⟩
  · exact h.stopped hs
  · exact h.finished_of_window hshort hall

lemma send (h : Accounts σ f S) (hshort : Short σ f) (now : Time) :
    Accounts σ (f.sendSimulation σ now).1 (S + emitted (f.sendSimulation σ now).2) := by
  have hfree := h.freeSlot hshort now
  rcases f.sendSimulation_cases σ now with ⟨-, hs⟩ | ⟨i, -, -, -, hs⟩ | ⟨-, -, hs⟩
  · rw [hs]; simpa using hfree
  · rw [hs]
    refine Accounts.add ?_ fun q hq => .inr (.inl ?_)
    · refine { hfree with slots := fun j hj => hfree.slots j ?_ }
      by_cases hji : j = i
      · subst hji
        simp [modifySlot] at hj
      · simpa [modifySlot, Function.update_of_ne hji] using hj
    · obtain rfl : q = f.simPacket σ now := Multiset.mem_singleton.mp hq
      rfl
  · rw [hs]; simpa using hfree

lemma receiveSim (h : Accounts σ f (p ::ₘ S)) (now : Time) :
    Accounts σ (f.receiveSim σ now p).1 (S + emitted (f.receiveSim σ now p).2) := by
  rw [emitted_receiveSim]
  have hflow : Accounts σ (f.receiveSim σ now p).1 S := { h.lose with }
  refine hflow.add fun q hq => .inr (.inr ?_)
  rw [Multiset.mem_singleton.mp hq]
  rfl

lemma receiveSimAck (h : Accounts σ f (p ::ₘ S)) (now : Time) :
    Accounts σ (f.receiveSimAck σ now p).1 (S + emitted (f.receiveSimAck σ now p).2) := by
  rw [emitted_receiveSimAck]
  refine Accounts.add ?_ fun q hq => .inl ?_
  · rcases f.receiveSimAck_cases σ now p with ⟨i, -, -, hr⟩ | ⟨-, -, hr⟩ <;> rw [hr]
    · refine { h.lose with slots := fun j hj => h.slots j ?_ }
      by_cases hji : j = i
      · subst hji
        simp at hj
      · simpa [Function.update_of_ne hji] using hj
    · exact { h.lose with }
  · obtain ⟨i, -, rfl⟩ := List.mem_map.mp (Multiset.mem_coe.mp hq)
    exact ⟨rfl, rfl⟩

lemma markAcked (h : Accounts σ f S) {id : ℕ} (hid : id ∈ f.accepted) :
    Accounts σ (f.markAcked id) S := by
  rcases f.markAcked_cases id with ⟨-, hr⟩ | ⟨i, rfl, -, hr⟩ <;> rw [hr]
  · exact h
  · refine { h with acked := fun j hj => ?_, slots := fun j hj => ?_ }
    · rcases (List.mem_orderedInsert (· ≤ ·)).mp hj with rfl | hj
      · exact hid
      · exact h.acked j hj
    · refine (List.mem_orderedInsert (· ≤ ·)).mpr ?_
      by_cases hji : j = i
      · exact .inl (congrArg Fin.val hji)
      · simp only [Function.update_of_ne hji] at hj
        exact .inr (h.slots j hj)

lemma receiveDataAck (h : Accounts σ f (p ::ₘ S)) (hp : p.snsType = .dataAck) :
    Accounts σ (f.receiveDataAck p) S := by
  have hids := h.dataAcks p (Multiset.mem_cons_self _ _) hp
  replace h := h.lose
  unfold SnsFlow.receiveDataAck
  generalize p.snsAckDataIds = ids at hids
  induction ids generalizing f with
  | nil => exact h
  | cons id ids ih =>
    have haccepted : (f.markAcked id).accepted = f.accepted := by
      unfold SnsFlow.markAcked; split_ifs <;> rfl
    refine ih (h.markAcked (hids id List.mem_cons_self)) fun j hj => ?_
    rw [haccepted]
    exact hids j (List.mem_cons_of_mem _ hj)

lemma accept (h : Accounts σ f (p ::ₘ S)) (hp : p.snsType = .data) (hopen : f.finished = false) :
    Accounts σ (acceptData σ { f with
      dataIdsRecived := f.dataIdsRecived.orderedInsert (· ≤ ·) p.snsMsgId } p) S := by
  have hrec := h.received hopen
  have hids (A : Finset ℕ) (hA : f.accepted ⊆ A) (hpA : p.snsMsgId ∈ A) :
      ∀ id ∈ f.dataIdsRecived.orderedInsert (· ≤ ·) p.snsMsgId, id ∈ A := fun id hid => by
    rcases (List.mem_orderedInsert (· ≤ ·)).mp hid with rfl | hid
    · exact hpA
    · exact hA (h.dataIds hopen id hid)
  unfold acceptData
  split_ifs with hmem
  · exact { h.lose with dataIds := fun _ => hids _ subset_rfl (hrec ▸ hmem) }
  · have hnew : p.snsMsgId ∉ f.accepted := hrec ▸ hmem
    have hsub := Finset.subset_insert p.snsMsgId f.accepted
    have hsize : sub32 p.size σ.params.hdrSize = σ.params.mss := by
      rw [h.data p (Multiset.mem_cons_self _ _) hp]
      exact sub32_add32 σ.params.mss_lt σ.params.hdrSize_lt
    have hcard : (insert p.snsMsgId f.accepted).card * σ.params.mss =
        f.accepted.card * σ.params.mss + σ.params.mss := by
      rw [Finset.card_insert_of_notMem hnew]; ring
    exact { h.lose with
      bytes := by
        rw [hcard, hsize, h.bytes]
        exact add32_mod _ _
      received := fun _ => by rw [hrec]
      dataIds := fun _ => hids _ hsub (Finset.mem_insert_self _ _)
      finished := fun hf => absurd hf (by simp [hopen])
      dataAcks := fun q hq hd id hid => hsub (h.lose.dataAcks q hq hd id hid)
      acked := fun id hid => hsub (h.acked id hid)
      stopped := fun hs => (h.stopped hs).imp_right fun hov => by rw [hcard]; omega }

lemma receiveData (h : Accounts σ f (p ::ₘ S)) (hp : p.snsType = .data) (now : Time) :
    Accounts σ (f.receiveData σ now p).1 (S + emitted (f.receiveData σ now p).2) := by
  have hflow : Accounts σ (f.receiveData σ now p).1 S := by
    rcases f.receiveData_cases σ now p with ⟨hf, hr⟩ | ⟨hf, hr⟩ <;> rw [hr]
    · exact { h.lose with dataIds := fun hopen => absurd hf (by simpa using hopen) }
    · exact (h.accept hp hf).check now
  rcases emitted_receiveData f now p with he | ⟨q, hq, hids, hf, he⟩ <;> rw [he]
  · simpa using hflow
  · refine { hflow with
      data := fun r hr hd => (Multiset.mem_add.mp hr).elim (hflow.data r · hd) fun hr => ?_
      dataAcks := fun r hr hd =>
        (Multiset.mem_add.mp hr).elim (hflow.dataAcks r · hd) fun hr => ?_ }
    · rw [Multiset.mem_singleton.mp hr, hq] at hd
      cases hd
    · -- a DATA_ACK names what was received up to this packet, all of which was accepted
      rcases f.receiveData_cases σ now p with ⟨hf', -⟩ | ⟨-, hr'⟩
      · rw [hf] at hf'; cases hf'
      · rw [Multiset.mem_singleton.mp hr, hids, hr', check_accepted]
        simpa [hf] using (h.accept hp hf).dataIds

end Accounts

lemma short_check (h : Short σ f) (now : Time) : Short σ (f.checkAndSetToFinished σ now).1 := by
  rcases f.check_cases σ now with ⟨-, hr⟩ | ⟨-, -, hr⟩ | ⟨-, -, hr⟩ <;> rw [hr]
  · exact h
  · exact h
  · simp [Short]

lemma short_receiveData (h : Short σ f) (now : Time) (p : Packet) :
    Short σ (f.receiveData σ now p).1 := by
  rcases f.receiveData_cases σ now p with ⟨-, hr⟩ | ⟨-, hr⟩ <;> rw [hr]
  · exact h
  · generalize acceptData σ _ p = g
    rcases g.check_cases σ now with ⟨hf, hr⟩ | ⟨-, hb, hr⟩ | ⟨-, -, hr⟩ <;> rw [hr]
    · simp [Short, hf]
    · exact fun _ => .inr hb
    · simp [Short]

end SnsFlow

namespace SnsNet

variable {σ : SnsSpec} {dup : Bool}

open SnsFlow

lemma kept_short (σ : SnsSpec) (dup : Bool) :
    Kept σ dup (fun _ _ => True) fun f _ => Short σ f := by
  refine .receiver (fun {f g} hfg h => ?_) (fun _ => .inl rfl) (fun t h => short_check h t)
    fun t p h => short_receiveData h t p
  unfold Short
  rw [hfg.finished, hfg.accepted, hfg.receivedBytes]
  exact h

lemma kept_accounts (σ : SnsSpec) (dup : Bool) :
    Kept σ dup (fun f _ => Short σ f) (Accounts σ) where
  new := .new σ
  check t _ h := h.check t
  collective {f S} t seq cid _ _ h := by
    refine h.add fun q hq => .inl ?_
    rw [Multiset.mem_singleton.mp hq]
    exact ⟨rfl, rfl⟩
  send t _ hshort h := h.send hshort t
  sim t _ _ h := h.receiveSim t
  simAck t _ _ h := h.receiveSimAck t
  dataAck hp _ h := h.receiveDataAck hp
  data t hp _ h := h.receiveData hp t
  lose h := h.lose
  duplicate _ hp h := h.duplicate hp

theorem accounts {s : SnsNet σ.sizeInPkt} (hs : Reach (machine σ dup) s) :
    Short σ s.flow ∧ Accounts σ s.flow s.inFlight :=
  ((kept_short σ dup).and (kept_accounts σ dup)).reach hs

end SnsNet

/-! ### The event that says so -/

/-- A call makes a `FlowFinishedEvent` if it finishes the flow, and no other. -/
def Announces {N : ℕ} (f : SnsFlow N) (r : SnsFlow N × List HostCall) : Prop :=
  f.finished.toNat + r.2.countP HostCall.isFlowFinished = r.1.finished.toNat

namespace SnsFlow

variable {σ : SnsSpec}

lemma announces_trans {N : ℕ} {f : SnsFlow N} {r r' : SnsFlow N × List HostCall}
    (h : Announces f r) (h' : Announces r.1 r') : Announces f (r'.1, r.2 ++ r'.2) := by
  unfold Announces at *
  rw [List.countP_append, ← h', ← h]
  omega

lemma announces_check (σ : SnsSpec) (f : SnsFlow σ.sizeInPkt) (now : Time) :
    Announces f (f.checkAndSetToFinished σ now) := by
  rcases f.check_cases σ now with ⟨-, hr⟩ | ⟨-, -, hr⟩ | ⟨hf, -, hr⟩ <;> rw [hr]
  · simp [Announces]
  · simp [Announces]
  · simp [Announces, hf, HostCall.isFlowFinished]

lemma announces_send (σ : SnsSpec) (f : SnsFlow σ.sizeInPkt) (now : Time) :
    Announces f (f.sendSimulation σ now) := by
  obtain ⟨w, b, n, l, hg, -⟩ := f.getFreeSlotInWindow_frame now
  rcases f.sendSimulation_cases σ now with ⟨-, hs⟩ | ⟨i, -, -, -, hs⟩ | ⟨-, -, hs⟩ <;>
    rw [hs, hg] <;> simp [Announces, modifySlot, HostCall.isFlowFinished]

lemma announces_sendPendingData (σ : SnsSpec) (f : SnsFlow σ.sizeInPkt) (now : Time)
    (seq cid : ℕ) : Announces f (f.sendPendingData σ now seq cid) := by
  have hcheck := f.announces_check σ now
  have hsend := announces_send σ (f.checkAndSetToFinished σ now).1 now
  unfold sendPendingData
  unfold Announces at *
  split_ifs
  · simpa [HostCall.isFlowFinished] using hcheck
  · simp only [List.countP_append, List.countP_singleton, HostCall.isFlowFinished]
    rw [← hsend, ← hcheck]
    simp [Nat.add_assoc]

lemma announces_receiveData (σ : SnsSpec) (f : SnsFlow σ.sizeInPkt) (now : Time) (p : Packet) :
    Announces f (f.receiveData σ now p) := by
  have hfin : f.finished = { f with
    dataIdsRecived := f.dataIdsRecived.orderedInsert (· ≤ ·) p.snsMsgId }.finished := rfl
  unfold receiveData Announces
  rw [hfin]
  generalize { f with
    dataIdsRecived := f.dataIdsRecived.orderedInsert (· ≤ ·) p.snsMsgId } = g
  have h := announces_check σ (g.acceptData σ p) now
  unfold Announces at h
  rw [acceptData_finished] at h
  dsimp only
  split_ifs with hf hlen
  · simp
  · simpa [sendDataAck, HostCall.isFlowFinished, List.countP_append] using h
  · simpa using h

lemma announces_receiveSimAck (σ : SnsSpec) (f : SnsFlow σ.sizeInPkt) (now : Time) (p : Packet) :
    Announces f (f.receiveSimAck σ now p) := by
  have hcalls : (f.receiveSimAck σ now p).2.countP HostCall.isFlowFinished = 0 := by
    simp [receiveSimAck, HostCall.isFlowFinished, List.countP_eq_zero]
  unfold Announces
  rw [hcalls, (f.sameReceiver_simAck σ now p).finished, Nat.add_zero]

lemma announces_receive (σ : SnsSpec) (f : SnsFlow σ.sizeInPkt) (now : Time) (p : Packet) :
    Announces f (f.receive σ now p) := by
  have hcheck := f.announces_check σ now
  cases hp : p.snsType <;> simp only [receive, hp]
  case sim =>
    exact announces_trans hcheck (by simp [Announces, receiveSim, HostCall.isFlowFinished])
  case simAck => exact announces_trans hcheck (announces_receiveSimAck σ _ now p)
  case dataAck =>
    obtain ⟨w, l, a, hr⟩ := (f.checkAndSetToFinished σ now).1.receiveDataAck_frame p
    have hack : Announces (f.checkAndSetToFinished σ now).1
        ((f.checkAndSetToFinished σ now).1.receiveDataAck p, []) := by
      rw [hr]; simp [Announces]
    exact announces_trans hcheck hack
  case none => exact announces_trans hcheck (announces_receiveData σ _ now p)
  case data => exact announces_trans hcheck (announces_receiveData σ _ now p)

end SnsFlow

namespace SnsNet

variable {σ : SnsSpec} {dup : Bool}

theorem finishedEvents_eq {s : SnsNet σ.sizeInPkt} (hs : Reach (machine σ dup) s) :
    s.finishedEvents = s.flow.finished.toNat := by
  refine hs.inv (I := fun s => s.finishedEvents = s.flow.finished.toNat) rfl fun _ h hn => ?_
  rcases next_cases hn with ⟨t, seq, cid, -, -, -, rfl⟩ | ⟨t, p, rest, -, -, -, rfl⟩ |
    ⟨_, _, -, -, rfl⟩ | ⟨_, -, -, -, rfl⟩
  · simp only [after, h]
    exact SnsFlow.announces_sendPendingData σ _ t seq cid
  · simp only [after, h]
    exact SnsFlow.announces_receive σ _ t p
  · exact h
  · exact h

theorem size_pred_le {s : SnsNet σ.sizeInPkt} (hs : Reach (machine σ dup) s)
    (hf : s.flow.finished = true) : σ.size - 1 ≤ s.flow.accepted.card * σ.params.mss := by
  have h := (accounts hs).2
  have := h.finished hf
  rw [SnsFlow.size_pred, h.bytes] at this
  exact this.trans (Nat.mod_le _ _)

/-- **The sender never gives up early**: as long as the bytes accepted fit in 32 bits, a flow
that finds its window all acknowledged or is told to stop has `size - 1` bytes at the
receiver and is finished; and there is never a second `FlowFinishedEvent`. -/
theorem finished_of_stop {s : SnsNet σ.sizeInPkt} (hs : Reach (machine σ dup) s)
    (hfits : s.flow.accepted.card * σ.params.mss < 4294967296) :
    ((∃ now, (s.flow.getFreeSlotInWindow now).1 = -2) ∨ s.flow.stopSendingSim = true →
      σ.size - 1 ≤ s.flow.accepted.card * σ.params.mss ∧ s.flow.finished = true) ∧
    s.finishedEvents ≤ 1 := by
  obtain ⟨hshort, hacc⟩ := accounts hs
  constructor
  · intro hstop
    have hf : s.flow.finished = true ∨
        4294967296 ≤ s.flow.accepted.card * σ.params.mss := by
      rcases hstop with ⟨now, hfree⟩ | hstop
      · refine hacc.finished_of_window hshort ?_
        rcases s.flow.getFreeSlotInWindow_cases now with ⟨i, -, -, h⟩ | ⟨hall, -⟩ |
          ⟨-, -, ⟨i, -, h⟩ | h⟩
        · rw [h] at hfree; simp only at hfree; omega
        · exact hall
        · omega
        · omega
      · exact hacc.stopped hstop
    replace hf := hf.resolve_right (not_le.mpr hfits)
    exact ⟨size_pred_le hs hf, hf⟩
  · rw [finishedEvents_eq hs]
    exact Bool.toNat_le _

/-- The one message of a one-segment flow finishes it. -/
theorem finished_of_stop_oneMessage :
    ∃ s, (Reach (machine oneSegment false) s ∧
        (s.flow.stopSendingSim = true ∧ s.flow.accepted.card * 1460 < 4294967296)) ∧
      ((∃ now, (s.flow.getFreeSlotInWindow now).1 = -2) ∨ s.flow.stopSendingSim = true →
        100 - 1 ≤ s.flow.accepted.card * 1460 ∧ s.flow.finished = true) ∧
      s.finishedEvents ≤ 1 := by
  obtain ⟨s, hs, hr⟩ : ∃ s, Reach (machine oneSegment false) s ∧
      (s.flow.stopSendingSim = true ∧ s.flow.accepted.card * 1460 < 4294967296) :=
    exists_reach_of_exec_any oneMessage (by decide +kernel)
  exact ⟨s, ⟨hs, hr⟩, finished_of_stop hs hr.2⟩

end SnsNet

end DcSim
