import DcSim.SnsFinish

/-!
When the completion of an SNS flow means full delivery.

A flow is finished at `size - 1` bytes, where its base class asks for `size`. As bytes come
in whole segments, the difference only shows if the last segment has one byte: then the flow
is finished without it.
-/

namespace DcSim

open Runs Word32

namespace SnsSpec

variable (σ : SnsSpec)

lemma sizeInPkt_le {n : ℕ} (h : σ.size - 1 ≤ n * σ.params.mss)
    (hmod : σ.size % σ.params.mss ≠ 1 % σ.params.mss) : σ.sizeInPkt ≤ n := by
  by_contra hlt
  have hsize := σ.sizeInPkt_mul_lt
  have hn : (n + 1) * σ.params.mss ≤ σ.sizeInPkt * σ.params.mss :=
    Nat.mul_le_mul_right _ (by omega)
  rw [Nat.add_mul, Nat.one_mul] at hn
  have hpos := σ.size_pos
  have heq : σ.size = 1 + n * σ.params.mss := by omega
  exact hmod (by rw [heq, Nat.add_mul_mod_self_right])

lemma size_eq (hmod : σ.size % σ.params.mss = 1 % σ.params.mss) :
    σ.size - 1 = (σ.sizeInPkt - 1) * σ.params.mss := by
  obtain ⟨q, hq⟩ := Nat.dvd_of_mod_eq_zero (Nat.sub_mod_eq_zero_of_mod_eq hmod)
  have hpos := σ.size_pos
  have hN : σ.sizeInPkt = q + 1 := by
    have : σ.size + σ.params.mss - 1 = σ.params.mss * (q + 1) := by
      rw [Nat.mul_add, Nat.mul_one, ← hq]; omega
    rw [sizeInPkt, this, Nat.mul_div_cancel_left _ σ.params.mss_pos]
  rw [hN, Nat.add_sub_cancel, Nat.mul_comm, hq]

end SnsSpec

namespace SnsNet

variable {σ : SnsSpec} {dup : Bool}

open SnsFlow

/-! ### No data without DATA packets -/

def NoData (accepted : Finset ℕ) (S : Multiset Packet) : Prop :=
  accepted = ∅ ∧ ∀ p ∈ S, p.snsType ≠ .data

lemma NoData.lose {A : Finset ℕ} {p : Packet} {S : Multiset Packet} (h : NoData A (p ::ₘ S)) :
    NoData A S :=
  ⟨h.1, fun q hq => h.2 q (Multiset.mem_cons_of_mem hq)⟩

lemma NoData.add {A : Finset ℕ} {q : Packet} {S : Multiset Packet} (h : NoData A S)
    (hq : q.snsType ≠ .data) : NoData A (S + {q}) :=
  ⟨h.1, fun r hr => (Multiset.mem_add.mp hr).elim (h.2 r) fun hr =>
    Multiset.mem_singleton.mp hr ▸ hq⟩

lemma kept_noData (dup : Bool) (hc : σ.collectiveId ≠ 99)
    (hm : σ.params.numDataPacketsPerSimAck = 0) :
    Kept σ dup (fun _ _ => True) fun f S => NoData f.accepted S where
  new := ⟨rfl, by simp⟩
  check t _ h := ⟨by rw [check_accepted]; exact h.1, h.2⟩
  collective _ _ _ h99 := absurd h99 hc
  send {f S} t _ _ h := by
    obtain ⟨w, b, n, l, hg, -⟩ := f.getFreeSlotInWindow_frame t
    rcases f.sendSimulation_cases σ t with ⟨-, hs⟩ | ⟨i, -, -, -, hs⟩ | ⟨-, -, hs⟩ <;>
      rw [hs, hg]
    · simpa using h
    · exact NoData.add (q := f.simPacket σ t) h (by simp [simPacket, snsPacket])
    · simpa using h
  sim {f S p} t _ _ h := by
    rw [emitted_receiveSim]
    exact NoData.add h.lose (by simp [simAckPacket, snsPacket])
  simAck {f S p} t _ _ h := by
    rw [emitted_receiveSimAck, hm, List.range_zero, List.map_nil, Multiset.coe_nil, add_zero]
    rcases f.receiveSimAck_cases σ t p with ⟨i, -, -, hr⟩ | ⟨-, -, hr⟩ <;> rw [hr] <;>
      exact h.lose
  dataAck {f S p} _ _ h := by
    obtain ⟨w, l, a, hr⟩ := f.receiveDataAck_frame p
    rw [hr]
    exact h.lose
  data {f S p} t hp _ h := absurd hp (h.2 p (Multiset.mem_cons_self _ _))
  lose h := h.lose
  duplicate _ hp h := ⟨h.1, fun q hq => (Multiset.mem_cons.mp hq).elim
    (fun hq => hq ▸ h.2 _ hp) (h.2 q)⟩

/-! ### A run that delivers message by message -/

structure Fresh (σ : SnsSpec) (j k : ℕ) (f : SnsFlow σ.sizeInPkt) : Prop where
  finished : f.finished = false
  stop : f.stopSendingSim = false
  msgId : f.msgId = k
  accepted : f.accepted = Finset.range j
  free : ∀ i : Fin σ.sizeInPkt, k ≤ i → f.simWindow i = .free

section Build

variable {j k : ℕ} {s : SnsNet σ.sizeInPkt}

lemma Fresh.check_eq (_ : Fresh σ j k s.flow) (hs : Reach (machine σ dup) s)
    (hsize : 1 < σ.size) (now : Time) : s.flow.checkAndSetToFinished σ now = (s.flow, []) := by
  obtain ⟨hshort, hacc⟩ := accounts hs
  rcases s.flow.check_cases σ now with ⟨-, hr⟩ | ⟨-, -, hr⟩ | ⟨hf, hb, -⟩
  · exact hr
  · exact hr
  · rcases hshort hf with h0 | hlt
    · rw [hacc.bytes, h0, Finset.card_empty, Nat.zero_mul, Nat.zero_mod, size_pred] at hb
      omega
    · omega

lemma next_sendPendingData (hf : s.flow.finished = false) :
    (machine σ dup).next s (.sendPendingData s.now 0 0) =
      some (s.after s.now s.inFlight (s.flow.sendPendingData σ s.now 0 0)) :=
  if_pos ⟨le_rfl, hf⟩

lemma next_deliver {p : Packet} (hp : p ∈ s.inFlight) : (machine σ dup).next s (.deliver s.now p) =
    some (s.after s.now (s.inFlight.erase p) (s.flow.receive σ s.now p)) :=
  if_pos ⟨le_rfl, hp⟩

/-- A packet of a kind is in flight for a message. -/
def HasPacket (s : SnsNet σ.sizeInPkt) (type : SnsType) (id : ℕ) : Prop :=
  ∃ p ∈ s.inFlight, p.snsType = type ∧ p.snsMsgId = id

lemma hasPacket_data {p : Packet} {S : Multiset Packet} {time : Time}
    (hS : s.inFlight = S +
      ((List.range σ.params.numDataPacketsPerSimAck).map (dataPacket σ time p) :))
    (hm : 0 < σ.params.numDataPacketsPerSimAck) : HasPacket s .data p.snsMsgId := by
  refine ⟨dataPacket σ time p 0, ?_, rfl, rfl⟩
  rw [hS]
  exact Multiset.mem_add.mpr (.inr (Multiset.mem_coe.mpr (List.mem_map_of_mem
    (List.mem_range.mpr hm))))

lemma Fresh.send (h : Fresh σ j j s.flow) (hs : Reach (machine σ dup) s) (hsize : 1 < σ.size)
    (hc : σ.collectiveId ≠ 99) (hj : j < σ.sizeInPkt) :
    ∃ t, (machine σ dup).next s (.sendPendingData s.now 0 0) = some t ∧
      t.flow.snsSimPktDrop = s.flow.snsSimPktDrop ∧ Fresh σ j (j + 1) t.flow ∧
      HasPacket t .sim j := by
  refine ⟨_, next_sendPendingData h.finished, ?_⟩
  simp only [after, SnsFlow.sendPendingData, h.check_eq hs hsize, hc, if_false]
  have hjfree := h.free ⟨j, hj⟩ le_rfl
  obtain ⟨i, hij, hget⟩ : ∃ i : Fin σ.sizeInPkt, (i : ℕ) ≤ j ∧
      s.flow.getFreeSlotInWindow s.now = (((i : ℕ) : ℤ), s.flow.scan) := by
    rcases s.flow.getFreeSlotInWindow_cases s.now with ⟨i, -, hmin, hget⟩ | ⟨hall, -⟩ | ⟨hno, -⟩
    · refine ⟨i, ?_, hget⟩
      by_contra hlt
      exact hmin ⟨j, hj⟩ (by simpa [Fin.lt_def] using hlt) (by rw [hjfree]; rfl)
    · exact absurd (hall ⟨j, hj⟩) (by rw [hjfree]; simp)
    · exact absurd (by rw [hjfree]; rfl) (hno ⟨j, hj⟩)
  rcases s.flow.sendSimulation_cases σ s.now with ⟨hstop, -⟩ | ⟨i', -, hi, -, hsend⟩ | ⟨-, hi, -⟩
  · rw [hget] at hstop
    exact absurd hstop (by simp [SnsFlow.scan, h.stop])
  · rw [hget] at hi hsend
    obtain rfl : i = i' := by
      simp only at hi
      exact Fin.ext (by omega)
    rw [hsend]
    refine ⟨rfl, ⟨h.finished, h.stop, congrArg (· + 1) h.msgId, h.accepted, fun m hm => ?_⟩, ?_⟩
    · have hne : m ≠ i := fun hmi => by rw [hmi] at hm; omega
      simp only [modifySlot, Window.modify_val, Function.update_of_ne hne]
      exact h.free m (by omega)
    · refine ⟨s.flow.simPacket σ s.now, ?_, rfl, h.msgId⟩
      simp [emitted, HostCall.packet?]
  · rw [hget] at hi
    simp only at hi
    omega

lemma Fresh.deliverSim (h : Fresh σ j k s.flow) (hs : Reach (machine σ dup) s)
    (hsize : 1 < σ.size) (hsim : HasPacket s .sim j) :
    ∃ p t, p.snsType = .sim ∧ (machine σ dup).next s (.deliver s.now p) = some t ∧
      Fresh σ j k t.flow ∧ HasPacket t .simAck j := by
  obtain ⟨p, hp, htype, hid⟩ := hsim
  refine ⟨p, _, htype, next_deliver hp, ?_⟩
  simp only [after, SnsFlow.receive, htype, h.check_eq hs hsize]
  exact ⟨⟨h.finished, h.stop, h.msgId, h.accepted, h.free⟩, simAckPacket σ s.now p,
    Multiset.mem_add.mpr (.inr (Multiset.mem_singleton_self _)), rfl, hid⟩

lemma Fresh.deliverSimAck (h : Fresh σ j k s.flow) (hs : Reach (machine σ dup) s)
    (hsize : 1 < σ.size) (hack : HasPacket s .simAck j) :
    ∃ p t time, p.snsType = .simAck ∧ p.snsMsgId = j ∧
      (machine σ dup).next s (.deliver s.now p) = some t ∧ Fresh σ j k t.flow ∧
      t.inFlight = s.inFlight.erase p +
        ((List.range σ.params.numDataPacketsPerSimAck).map (dataPacket σ time p) :) := by
  obtain ⟨p, hp, htype, hid⟩ := hack
  refine ⟨p, _, s.flow.timeToBeSent σ s.now (s.flow.getSlotById p.snsMsgId), htype, hid,
    next_deliver hp, ?_⟩
  simp only [after, SnsFlow.receive, htype, h.check_eq hs hsize, List.nil_append]
  constructor
  · rcases s.flow.receiveSimAck_cases σ s.now p with ⟨i, -, hi, hr⟩ | ⟨-, -, hr⟩ <;> rw [hr]
    · refine ⟨h.finished, h.stop, h.msgId, h.accepted, fun m hm => ?_⟩
      have hne : m ≠ i := by
        rintro rfl
        rw [h.free m hm, WindowMsgElement.free_id] at hi
        omega
      simpa [Function.update_of_ne hne] using h.free m hm
    · exact ⟨h.finished, h.stop, h.msgId, h.accepted, h.free⟩
  · rw [emitted_receiveSimAck]

lemma Fresh.deliverData (h : Fresh σ j k s.flow) (hs : Reach (machine σ dup) s)
    (hsize : 1 < σ.size) (hdata : HasPacket s .data j) :
    ∃ p t, p ∈ s.inFlight ∧ p.snsType = .data ∧ p.snsMsgId = j ∧
      (machine σ dup).next s (.deliver s.now p) = some t ∧ s.inFlight.erase p ≤ t.inFlight ∧
      (Fresh σ (j + 1) k t.flow ∨
        (t.flow.finished = true ∧ t.flow.accepted = Finset.range (j + 1))) := by
  obtain ⟨p, hp, htype, hid⟩ := hdata
  refine ⟨p, _, hp, htype, hid, next_deliver hp, Multiset.le_add_right _ _, ?_⟩
  simp only [after, SnsFlow.receive, htype, h.check_eq hs hsize, List.nil_append]
  rcases s.flow.receiveData_cases σ s.now p with ⟨hf, -⟩ | ⟨-, hr⟩
  · rw [h.finished] at hf; cases hf
  have hnew : p.snsMsgId ∉ s.flow.received := by
    rw [(accounts hs).2.received h.finished, h.accepted, hid]
    exact Finset.notMem_range_self
  have hins : insert p.snsMsgId s.flow.accepted = Finset.range (j + 1) := by
    rw [h.accepted, hid, Finset.range_add_one]
  rw [hr, acceptData, if_neg hnew]
  generalize hg : ({ s.flow with
    dataIdsRecived := s.flow.dataIdsRecived.orderedInsert (· ≤ ·) p.snsMsgId
    received := insert p.snsMsgId s.flow.received
    receivedBytes := add32 s.flow.receivedBytes (sub32 p.size σ.params.hdrSize)
    accepted := insert p.snsMsgId s.flow.accepted } : SnsFlow σ.sizeInPkt) = g
  have hfresh : Fresh σ (j + 1) k g := by
    subst hg
    exact ⟨h.finished, h.stop, h.msgId, hins, h.free⟩
  rcases g.check_cases σ s.now with ⟨-, hr⟩ | ⟨-, -, hr⟩ | ⟨-, -, hr⟩ <;> rw [hr]
  · exact .inl hfresh
  · exact .inl hfresh
  · exact .inr ⟨rfl, hfresh.accepted⟩

theorem exists_fresh (dup : Bool) (hsize : 1 < σ.size) (hc : σ.collectiveId ≠ 99)
    (hm : 0 < σ.params.numDataPacketsPerSimAck) {n : ℕ} (hn : n < σ.sizeInPkt) :
    (∃ s, Reach (machine σ dup) s ∧ Fresh σ n n s.flow) ∨
      ∃ s, Reach (machine σ dup) s ∧ s.flow.finished = true ∧ s.flow.accepted.card ≤ n := by
  induction n with
  | zero => exact .inl ⟨_, .init, rfl, rfl, rfl, rfl, fun _ _ => rfl⟩
  | succ n ih =>
    rcases ih (by omega) with ⟨s, hs, h⟩ | ⟨s, hs, hf, hcard⟩
    · obtain ⟨s, hn, -, h, hsim⟩ := h.send hs hsize hc (by omega)
      replace hs := hs.step hn
      obtain ⟨_, s, -, hn, h, hack⟩ := h.deliverSim hs hsize hsim
      replace hs := hs.step hn
      obtain ⟨_, s, _, -, hid, hn, h, hS⟩ := h.deliverSimAck hs hsize hack
      replace hs := hs.step hn
      have hdata := hasPacket_data hS hm
      rw [hid] at hdata
      obtain ⟨_, s, -, -, -, hn, -, h⟩ := h.deliverData hs hsize hdata
      replace hs := hs.step hn
      rcases h with h | ⟨hf, hA⟩
      · exact .inl ⟨s, hs, h⟩
      · exact .inr ⟨s, hs, hf, by rw [hA, Finset.card_range]⟩
    · exact .inr ⟨s, hs, hf, by omega⟩

end Build

lemma exists_finished_byte (dup : Bool) (hc : σ.collectiveId ≠ 99) (hsize : σ.size = 1) :
    ∃ s, Reach (machine σ dup) s ∧ s.flow.finished = true ∧ s.flow.accepted.card = 0 := by
  have hinit : ∃ s : SnsNet σ.sizeInPkt, Reach (machine σ dup) s ∧ s.flow.finished = false ∧
      s.flow.accepted = ∅ := ⟨_, .init, rfl, rfl⟩
  obtain ⟨s, hs, hopen, hnone⟩ := hinit
  refine ⟨_, hs.step (next_sendPendingData hopen), ?_, ?_⟩ <;>
    simp only [after, SnsFlow.sendPendingData, hc, if_false]
  · rw [sendSimulation_finished]
    rcases s.flow.check_cases σ s.now with ⟨hf, -⟩ | ⟨-, hlt, -⟩ | ⟨-, -, hr⟩
    · rw [hopen] at hf; cases hf
    · rw [size_pred] at hlt; omega
    · rw [hr]
  · rw [sendSimulation_accepted, check_accepted, hnone, Finset.card_empty]

theorem exists_finished_short (dup : Bool) (hc : σ.collectiveId ≠ 99)
    (hmod : σ.size % σ.params.mss = 1 % σ.params.mss)
    (hm : 0 < σ.params.numDataPacketsPerSimAck ∨ σ.size = 1) :
    ∃ s, Reach (machine σ dup) s ∧ s.flow.finished = true ∧
      s.flow.accepted.card < σ.sizeInPkt := by
  have hpos := σ.sizeInPkt_pos
  have hlast := σ.size_eq hmod
  rcases Nat.lt_or_ge 1 σ.size with hsize | hsize
  · -- the messages before the last one have the bytes that finish the flow
    rcases exists_fresh dup hsize hc (hm.resolve_right (by omega))
      (Nat.sub_lt hpos Nat.one_pos) with ⟨s, hs, h⟩ | ⟨s, hs, hf, hcard⟩
    · obtain ⟨hshort, hacc⟩ := accounts hs
      have hbytes := hacc.bytes
      have hlt := σ.size_lt
      rw [h.accepted, Finset.card_range, ← hlast, Nat.mod_eq_of_lt (by omega)] at hbytes
      rcases hshort h.finished with h0 | hlt
      · rw [h.accepted, Finset.range_eq_empty_iff] at h0
        rw [h0] at hlast
        omega
      · rw [hbytes, size_pred] at hlt
        exact absurd hlt (lt_irrefl _)
    · exact ⟨s, hs, hf, by omega⟩
  · obtain ⟨s, hs, hf, hcard⟩ := exists_finished_byte dup hc
      (le_antisymm hsize (Nat.succ_le_of_lt σ.size_pos))
    exact ⟨s, hs, hf, by omega⟩

/-- **Completion means full delivery for all sizes but those with a last segment of one
byte.** (A flow whose SIM_ACKs let no data go is never finished, unless it is a single byte.) -/
theorem sizeInPkt_le_accepted_iff (σ : SnsSpec) (dup : Bool) (hc : σ.collectiveId ≠ 99) :
    (∀ s, Reach (machine σ dup) s → s.flow.finished = true →
        σ.sizeInPkt ≤ s.flow.accepted.card) ↔
      σ.size % σ.params.mss ≠ 1 % σ.params.mss ∨
        σ.params.numDataPacketsPerSimAck = 0 ∧ σ.size ≠ 1 := by
  constructor
  · intro h
    by_contra hcon
    obtain ⟨hmod, hm⟩ := not_or.mp hcon
    obtain ⟨s, hs, hf, hlt⟩ := exists_finished_short dup hc (not_not.mp hmod) (by omega)
    exact absurd (h s hs hf) (not_le.mpr hlt)
  · rintro (hmod | ⟨hm, hsize⟩) s hs hf
    · exact σ.sizeInPkt_le (size_pred_le hs hf) hmod
    · have h0 := ((kept_noData dup hc hm).reach hs).1
      have := size_pred_le hs hf
      rw [h0, Finset.card_empty, Nat.zero_mul] at this
      have := σ.size_pos
      omega

def segmentAndByte : SnsSpec := exampleSpec 1461 1 (by decide)

/-- The first of its two messages arrives. -/
def firstMessage : List SnsAct :=
  let sim := SnsFlow.simPacket segmentAndByte (.new segmentAndByte) 1
  let ack := SnsFlow.simAckPacket segmentAndByte (1 + 1 / 100000) sim
  [.sendPendingData 1 0 0, .deliver (1 + 1 / 100000) sim, .deliver (1 + 1 / 100000) ack,
    .deliver (1 + 1 / 10000)
      (SnsFlow.dataPacket segmentAndByte (1 + segmentAndByte.worstRtt) ack 0)]

/-- **The flow of a segment and a byte is finished with one of its two segments.** -/
theorem finished_segmentAndByte :
    ¬ ∀ s, Reach (machine segmentAndByte false) s → s.flow.finished = true →
      segmentAndByte.sizeInPkt ≤ s.flow.accepted.card := by
  intro h
  obtain ⟨s, hs, hf, hcard⟩ : ∃ s, Reach (machine segmentAndByte false) s ∧
      (s.flow.finished = true ∧ s.flow.accepted.card < segmentAndByte.sizeInPkt) :=
    exists_reach_of_exec_any firstMessage (by decide +kernel)
  exact absurd (h s hs hf) (not_le.mpr hcard)

/-- A flow of a hundred bytes is finished with its one segment. -/
theorem sizeInPkt_le_accepted_oneSegment :
    (100 % 1460 ≠ 1 % 1460 ∨ 1 = 0 ∧ 100 ≠ 1) ∧
    ∀ s, Reach (machine oneSegment true) s → s.flow.finished = true →
      oneSegment.sizeInPkt ≤ s.flow.accepted.card :=
  ⟨by decide, (sizeInPkt_le_accepted_iff oneSegment true (by decide)).mpr (by decide)⟩

end SnsNet

end DcSim
