import DcSim.SnsProbe

/-!
Which message a slot of the window holds.

The first `size_in_pkt` messages go to the slots in order, so that message `i` is sent from
slot `i`. A slot that has timed out is used again for a message whose id is past the window.
A DATA_ACK marks the slots whose index it names. That is right for a slot that still holds
its first message; for any other slot it is right only if the message it holds now is named
too.
-/

namespace DcSim

open Runs

namespace SnsFlow

variable {σ : SnsSpec} {f : SnsFlow σ.sizeInPkt} {S : Multiset Packet} {p : Packet}

/-! ### What a DATA_ACK marks -/

lemma markAcked_status {N : ℕ} (f : SnsFlow N) (id : ℕ) (i : Fin N) :
    ((f.markAcked id).simWindow i).status = .dataAckReceived ↔
      (f.simWindow i).status = .dataAckReceived ∨ ((i : ℕ) = id ∧ id ∉ f.ackedMsgIds) := by
  rcases f.markAcked_cases id with ⟨hid, hr⟩ | ⟨j, rfl, hid, hr⟩ <;> rw [hr]
  · refine (or_iff_left ?_).symm
    rintro ⟨rfl, hn⟩
    exact hid.elim (fun h => by omega) hn
  · by_cases hij : i = j
    · subst hij
      simp [hid]
    · have : (i : ℕ) ≠ j := fun h => hij (Fin.ext h)
      simp [Function.update_of_ne hij, this]

lemma mem_markAcked {N : ℕ} (f : SnsFlow N) (id : ℕ) (i : Fin N) :
    (i : ℕ) ∈ (f.markAcked id).ackedMsgIds ↔ (i : ℕ) = id ∨ (i : ℕ) ∈ f.ackedMsgIds := by
  rcases f.markAcked_cases id with ⟨hid, hr⟩ | ⟨j, rfl, hid, hr⟩ <;> rw [hr]
  · refine (or_iff_right_of_imp ?_).symm
    rintro rfl
    exact hid.resolve_left (by omega)
  · exact List.mem_orderedInsert (· ≤ ·)

/-- **A DATA_ACK marks the slots whose index it names for the first time**, whatever message
they hold. -/
theorem receiveDataAck_status {N : ℕ} (f : SnsFlow N) (p : Packet) (i : Fin N) :
    ((f.receiveDataAck p).simWindow i).status = .dataAckReceived ↔
      (f.simWindow i).status = .dataAckReceived ∨
        ((i : ℕ) ∈ p.snsAckDataIds ∧ (i : ℕ) ∉ f.ackedMsgIds) := by
  unfold receiveDataAck
  generalize p.snsAckDataIds = ids
  induction ids generalizing f with
  | nil => simp
  | cons id ids ih =>
    rw [List.foldl_cons, ih, markAcked_status, mem_markAcked, List.mem_cons]
    by_cases hid : (i : ℕ) = id
    · subst hid
      tauto
    · tauto

lemma receiveDataAck_slot {N : ℕ} (f : SnsFlow N) (p : Packet) (i : Fin N) :
    ((f.receiveDataAck p).simWindow i).id = (f.simWindow i).id ∧
      ((f.receiveDataAck p).simWindow i).time = (f.simWindow i).time := by
  unfold receiveDataAck
  generalize p.snsAckDataIds = ids
  induction ids generalizing f with
  | nil => exact ⟨rfl, rfl⟩
  | cons id ids ih =>
    rw [List.foldl_cons, (ih _).1, (ih _).2]
    rcases f.markAcked_cases id with ⟨-, hr⟩ | ⟨j, -, -, hr⟩ <;> rw [hr]
    · exact ⟨rfl, rfl⟩
    · by_cases hij : i = j
      · subst hij
        simp
      · simp [Function.update_of_ne hij]

/-! ### The message of a slot -/

structure Slots (σ : SnsSpec) (f : SnsFlow σ.sizeInPkt) (S : Multiset Packet) : Prop where
  ids : ∀ i, (f.simWindow i).id = -1 ∨ (f.simWindow i).id = (i : ℕ) ∨
    (σ.sizeInPkt : ℤ) ≤ (f.simWindow i).id
  used : f.msgId < σ.sizeInPkt → ∀ i : Fin σ.sizeInPkt, (i : ℕ) < f.msgId →
    (f.simWindow i).status ≠ .init
  unused : ∀ i : Fin σ.sizeInPkt, f.msgId ≤ i → f.simWindow i = .free
  acked : ∀ id ∈ f.ackedMsgIds, id ∈ f.dataIdsSent
  dataAcks : ∀ p ∈ S, p.snsType = .dataAck → ∀ id ∈ p.snsAckDataIds, id ∈ f.dataIdsSent
  first : ∀ i : Fin σ.sizeInPkt, (f.simWindow i).id = (i : ℕ) → (i : ℕ) ∈ f.ackedMsgIds →
    (f.simWindow i).status = .dataAckReceived

lemma Counts.lt_msgId (h : Counts σ f S) {id : ℕ} (hid : id ∈ f.dataIdsSent) : id < f.msgId := by
  have h1 := List.count_pos_iff.mpr hid
  have h2 := h.datas id
  have h3 := h.simAcks id
  have h4 := h.sims id
  split_ifs at h4 with hlt
  · exact hlt
  · omega

lemma Counts.notMem_dataIdsSent (h : Counts σ f (p ::ₘ S)) (hp : p.snsType = .simAck) :
    p.snsMsgId ∉ f.dataIdsSent := by
  intro hid
  have h1 := List.count_pos_iff.mpr hid
  have h2 := h.datas p.snsMsgId
  have h3 := h.simAcks p.snsMsgId
  have h4 := h.sims p.snsMsgId
  have h5 := one_le_inFlightOf (p ::ₘ S) (Multiset.mem_cons_self p S)
  rw [hp] at h5
  split_ifs at h4 <;> omega

lemma Counts.mem_dataIdsSent (h : Counts σ f (p ::ₘ S)) (hp : p.snsType = .data) {id : ℕ}
    (hid : id = p.snsMsgId ∨ id ∈ f.dataIdsRecived) : id ∈ f.dataIdsSent := by
  have h1 := h.received id
  have h2 : 0 < inFlightOf .data id (p ::ₘ S) + f.dataIdsRecived.count id := by
    rcases hid with rfl | hid
    · have := one_le_inFlightOf (p ::ₘ S) (Multiset.mem_cons_self p S)
      rw [hp] at this
      omega
    · have := List.count_pos_iff.mpr hid
      omega
  by_contra hn
  rw [List.count_eq_zero_of_not_mem hn, Nat.mul_zero] at h1
  omega

namespace Slots

lemma new (σ : SnsSpec) : Slots σ (.new σ) 0 where
  ids _ := .inl rfl
  used _ _ hi := absurd hi (Nat.not_lt_zero _)
  unused _ _ := rfl
  acked := by simp [SnsFlow.new]
  dataAcks := by simp
  first i hi := by simp [SnsFlow.new] at hi

lemma check (h : Slots σ f S) (now : Time) : Slots σ (f.checkAndSetToFinished σ now).1 S := by
  rcases f.check_cases σ now with ⟨-, hr⟩ | ⟨-, -, hr⟩ | ⟨-, -, hr⟩ <;> rw [hr]
  · exact h
  · exact h
  · exact { h with }

lemma lose (h : Slots σ f (p ::ₘ S)) : Slots σ f S :=
  { h with dataAcks := fun q hq => h.dataAcks q (Multiset.mem_cons_of_mem hq) }

lemma add (h : Slots σ f S) {T : Multiset Packet} (hT : ∀ p ∈ T, p.snsType ≠ .dataAck) :
    Slots σ f (S + T) :=
  { h with dataAcks := fun q hq hd =>
      (Multiset.mem_add.mp hq).elim (h.dataAcks q · hd) fun hq => absurd hd (hT q hq) }

lemma freeSlot (h : Slots σ f S) (now : Time) : Slots σ (f.getFreeSlotInWindow now).2 S := by
  obtain ⟨w, b, n, l, hg, hw, -, -⟩ := f.getFreeSlotInWindow_frame now
  rw [hg]
  rcases hw with rfl | ⟨rfl, hnone⟩
  · exact { h with }
  · have hN : ¬ f.msgId < σ.sizeInPkt := fun hlt =>
      hnone ⟨f.msgId, hlt⟩ (by rw [h.unused ⟨f.msgId, hlt⟩ le_rfl]; rfl)
    have hw (i : Fin σ.sizeInPkt) :
        f.simWindow.dropExpired now f.timeToWait i = .free ∨
          f.simWindow.dropExpired now f.timeToWait i = f.simWindow i := by
      unfold Window.dropExpired
      split_ifs
      · exact .inl rfl
      · exact .inr rfl
    refine { h with ids := fun i => ?_, used := ?_, unused := ?_, first := fun i hi ha => ?_ }
    · rcases hw i with hi | hi <;> simp only [hi]
      · exact .inl rfl
      · exact h.ids i
    · exact fun hlt => absurd hlt hN
    · exact fun i hi => absurd (hi.trans_lt i.isLt) hN
    · rcases hw i with hwi | hwi <;> simp only [hwi] at hi ⊢
      · simp at hi
      · exact h.first i hi ha

lemma slot_eq_msgId (h : Slots σ f S) {now : Time} {i : Fin σ.sizeInPkt}
    (hi : (f.getFreeSlotInWindow now).1 = (i : ℕ)) (hlt : f.msgId < σ.sizeInPkt) :
    (i : ℕ) = f.msgId := by
  have hfree : (f.simWindow ⟨f.msgId, hlt⟩).status = .init := by
    rw [h.unused ⟨f.msgId, hlt⟩ le_rfl]; rfl
  rcases f.getFreeSlotInWindow_cases now with ⟨j, hj, hmin, hr⟩ | ⟨hall, -⟩ | ⟨hnone, -⟩
  · rw [hr] at hi
    simp only at hi
    obtain rfl : j = i := Fin.ext (by omega)
    refine le_antisymm ?_ ?_
    · by_contra hgt
      exact hmin ⟨f.msgId, hlt⟩ (by simpa [Fin.lt_def] using hgt) hfree
    · by_contra hgt
      exact h.used hlt j (by omega) hj
  · rw [hall] at hfree; cases hfree
  · exact absurd hfree (hnone _)

lemma place (h : Slots σ f S) (hc : Counts σ f S) (now : Time) {i : Fin σ.sizeInPkt}
    (hi : f.msgId < σ.sizeInPkt → (i : ℕ) = f.msgId) :
    Slots σ { f with
      simWindow := Function.update f.simWindow i ⟨now, f.msgId, .simSent⟩
      msgId := f.msgId + 1 } S where
  ids j := by
    by_cases hji : j = i
    · subst hji
      simp only [Function.update_self]
      omega
    · simp only [Function.update_of_ne hji]
      exact h.ids j
  used hlt j hj := by
    simp only at hlt hj
    by_cases hji : j = i
    · subst hji
      simp
    · simp only [Function.update_of_ne hji]
      have : (j : ℕ) ≠ i := fun h => hji (Fin.ext h)
      exact h.used (by omega) j (by omega)
  unused j hj := by
    simp only at hj
    have hji : j ≠ i := by rintro rfl; omega
    simp only [Function.update_of_ne hji]
    exact h.unused j (by omega)
  acked := h.acked
  dataAcks := h.dataAcks
  first j hj ha := by
    by_cases hji : j = i
    · -- an id that data was sent for is not the next one
      subst hji
      simp only [Function.update_self] at hj
      have := hc.lt_msgId (h.acked _ ha)
      omega
    · simp only [Function.update_of_ne hji] at hj ⊢
      exact h.first j hj ha

lemma send (h : Slots σ f S) (hc : Counts σ f S) (now : Time) :
    Slots σ (f.sendSimulation σ now).1 (S + emitted (f.sendSimulation σ now).2) := by
  have hfree := h.freeSlot now
  obtain ⟨w, b, n, l, hg, -⟩ := f.getFreeSlotInWindow_frame now
  rcases f.sendSimulation_cases σ now with ⟨-, hs⟩ | ⟨i, -, hi, -, hs⟩ | ⟨-, -, hs⟩
  · rw [hs]; simpa using hfree
  · rw [hs]
    refine Slots.add ?_ fun q hq => ?_
    · rw [hg] at hfree ⊢
      have hplace := hfree.place ⟨hc.sims, hc.simAcks, hc.datas, hc.received⟩ now
        (h.slot_eq_msgId hi)
      simp only [modifySlot, Window.modify_val]
      exact { hplace with }
    · rw [Multiset.mem_singleton.mp hq]
      simp [simPacket, snsPacket]
  · rw [hs]; simpa using hfree

lemma receiveSim (h : Slots σ f (p ::ₘ S)) (now : Time) :
    Slots σ (f.receiveSim σ now p).1 (S + emitted (f.receiveSim σ now p).2) := by
  rw [emitted_receiveSim]
  have hflow : Slots σ (f.receiveSim σ now p).1 S := { h.lose with }
  refine hflow.add fun q hq => ?_
  rw [Multiset.mem_singleton.mp hq]
  simp [simAckPacket, snsPacket]

lemma receiveSimAck (h : Slots σ f (p ::ₘ S)) (hc : Counts σ f (p ::ₘ S))
    (hp : p.snsType = .simAck) (now : Time) :
    Slots σ (f.receiveSimAck σ now p).1 (S + emitted (f.receiveSimAck σ now p).2) := by
  have hsub : ∀ id ∈ f.dataIdsSent,
      id ∈ f.dataIdsSent.orderedInsert (· ≤ ·) p.snsMsgId := fun id hid =>
    (List.mem_orderedInsert (· ≤ ·)).mpr (.inr hid)
  have hused := hc.notMem_dataIdsSent hp
  replace h := h.lose
  rw [emitted_receiveSimAck]
  refine Slots.add ?_ fun q hq => ?_
  · rcases f.receiveSimAck_cases σ now p with ⟨i, -, hi, hr⟩ | ⟨-, -, hr⟩ <;> rw [hr]
    · refine
        { ids := fun j => ?_
          used := fun hlt j hj => ?_
          unused := fun j hj => ?_
          acked := fun id hid => hsub id (h.acked id hid)
          dataAcks := fun q hq hd id hid => hsub id (h.dataAcks q hq hd id hid)
          first := fun j hj ha => ?_ }
      · by_cases hji : j = i
        · subst hji
          simpa using h.ids j
        · simpa [Function.update_of_ne hji] using h.ids j
      · by_cases hji : j = i
        · subst hji
          simp
        · simpa [Function.update_of_ne hji] using h.used hlt j hj
      · have hji : j ≠ i := by
          rintro rfl
          rw [h.unused j hj, WindowMsgElement.free_id] at hi
          omega
        simpa [Function.update_of_ne hji] using h.unused j hj
      · by_cases hji : j = i
        · -- the message of this slot is not acknowledged before its SIM_ACK is used
          subst hji
          simp only [Function.update_self] at hj
          have hid : p.snsMsgId = (j : ℕ) := by omega
          exact absurd (h.acked _ ha) (hid ▸ hused)
        · simp only [Function.update_of_ne hji] at hj ⊢
          exact h.first j hj ha
    · exact
        { ids := h.ids
          used := h.used
          unused := h.unused
          acked := fun id hid => hsub id (h.acked id hid)
          dataAcks := fun q hq hd id hid => hsub id (h.dataAcks q hq hd id hid)
          first := h.first }
  · obtain ⟨i, -, rfl⟩ := List.mem_map.mp (Multiset.mem_coe.mp hq)
    simp [dataPacket, snsPacket]

lemma markAcked (h : Slots σ f S) {id : ℕ} (hid : id ∈ f.dataIdsSent) (hlt : id < f.msgId) :
    Slots σ (f.markAcked id) S := by
  have hstatus := f.markAcked_status id
  have hmem := f.mem_markAcked id
  rcases f.markAcked_cases id with ⟨-, hr⟩ | ⟨i, rfl, -, hr⟩
  · rwa [hr]
  · rw [hr] at hstatus hmem ⊢
    refine
      { ids := fun j => ?_
        used := fun hlt j hj => ?_
        unused := fun j hj => ?_
        acked := fun id hid' => ?_
        dataAcks := h.dataAcks
        first := fun j hj ha => ?_ }
    · by_cases hji : j = i
      · subst hji
        simpa using h.ids j
      · simpa [Function.update_of_ne hji] using h.ids j
    · by_cases hji : j = i
      · subst hji
        simp
      · simpa [Function.update_of_ne hji] using h.used hlt j hj
    · have hji : j ≠ i := by rintro rfl; simp only at hj; omega
      simpa [Function.update_of_ne hji] using h.unused j hj
    · rcases (List.mem_orderedInsert (· ≤ ·)).mp hid' with rfl | hid'
      · exact hid
      · exact h.acked _ hid'
    · by_cases hji : j = i
      · subst hji
        simp
      · simp only [Function.update_of_ne hji] at hj ⊢
        refine h.first j hj (((hmem j).mp ha).resolve_left fun h => hji (Fin.ext h))

lemma receiveDataAck (h : Slots σ f (p ::ₘ S)) (hc : Counts σ f (p ::ₘ S))
    (hp : p.snsType = .dataAck) : Slots σ (f.receiveDataAck p) S := by
  have hids : ∀ id ∈ p.snsAckDataIds, id ∈ f.dataIdsSent ∧ id < f.msgId := fun id hid =>
    have hsent := h.dataAcks p (Multiset.mem_cons_self _ _) hp id hid
    ⟨hsent, hc.lt_msgId hsent⟩
  replace h := h.lose
  unfold SnsFlow.receiveDataAck
  generalize p.snsAckDataIds = ids at hids
  clear hc
  induction ids generalizing f with
  | nil => exact h
  | cons id ids ih =>
    have hsame : (f.markAcked id).dataIdsSent = f.dataIdsSent ∧
        (f.markAcked id).msgId = f.msgId := by
      rcases f.markAcked_cases id with ⟨-, hr⟩ | ⟨i, rfl, -, hr⟩ <;> rw [hr] <;> exact ⟨rfl, rfl⟩
    have hid := hids id List.mem_cons_self
    refine ih (h.markAcked hid.1 hid.2) fun j hj => ?_
    rw [hsame.1, hsame.2]
    exact hids j (List.mem_cons_of_mem _ hj)

lemma receiveData (h : Slots σ f (p ::ₘ S)) (hc : Counts σ f (p ::ₘ S))
    (hp : p.snsType = .data) (now : Time) :
    Slots σ (f.receiveData σ now p).1 (S + emitted (f.receiveData σ now p).2) := by
  obtain ⟨d, r, b, a, fin, stop, ft, fct, hr⟩ := f.receiveData_frame σ now p
  have hflow : Slots σ (f.receiveData σ now p).1 S := by
    rw [hr]
    exact { h.lose with }
  rcases emitted_receiveData f now p with he | ⟨q, hq, hids, -, he⟩ <;> rw [he]
  · simpa using hflow
  · refine { hflow with dataAcks := fun q' hq' hd id hid => ?_ }
    rcases Multiset.mem_add.mp hq' with hq' | hq'
    · exact hflow.dataAcks q' hq' hd id hid
    · rw [Multiset.mem_singleton.mp hq', hids] at hid
      rw [hr]
      exact hc.mem_dataIdsSent hp ((List.mem_orderedInsert (· ≤ ·)).mp hid)

end Slots

end SnsFlow

namespace SnsNet

variable {σ : SnsSpec}

open SnsFlow

lemma kept_slots (hc : σ.collectiveId ≠ 99) : Kept σ false (Counts σ) (Slots σ) where
  new := .new σ
  check t _ h := h.check t
  collective _ _ _ h99 := absurd h99 hc
  send t _ hcounts h := h.send hcounts t
  sim t _ _ h := h.receiveSim t
  simAck t hp hcounts h := h.receiveSimAck hcounts hp t
  dataAck hp hcounts h := h.receiveDataAck hcounts hp
  data t hp hcounts h := h.receiveData hcounts hp t
  lose h := h.lose
  duplicate hd := absurd hd Bool.false_ne_true

lemma kept_collective (dup : Bool) (hc : σ.collectiveId = 99) :
    Kept σ dup (fun _ _ => True) fun f _ =>
      (∀ i, (f.simWindow i).id = -1) ∧ f.simTimes = [] where
  new := ⟨fun _ => rfl, rfl⟩
  check t _ h := by
    rcases check_cases σ _ t with ⟨-, hr⟩ | ⟨-, -, hr⟩ | ⟨-, -, hr⟩ <;> rw [hr] <;> exact h
  collective _ _ _ _ _ h := h
  send _ h99 := absurd hc h99
  sim _ _ _ h := h
  simAck {f S p} t _ _ h := by
    rcases f.receiveSimAck_cases σ t p with ⟨i, -, -, hr⟩ | ⟨-, -, hr⟩ <;> rw [hr]
    · refine ⟨fun j => ?_, h.2⟩
      by_cases hji : j = i
      · subst hji
        simpa using h.1 j
      · simpa [Function.update_of_ne hji] using h.1 j
    · exact h
  dataAck {f S p} _ _ h := ⟨fun i => (f.receiveDataAck_slot p i).1.trans (h.1 i),
    (by obtain ⟨w, l, a, hr⟩ := f.receiveDataAck_frame p; rw [hr]; exact h.2)⟩
  data {f S p} t _ _ h := by
    obtain ⟨d, r, b, a, fin, stop, ft, fct, hr⟩ := f.receiveData_frame σ t p
    rw [hr]
    exact h
  lose h := h
  duplicate _ _ h := h

theorem first_acked {s : SnsNet σ.sizeInPkt} (hs : Reach (machine σ false) s)
    {i : Fin σ.sizeInPkt} (hid : (s.flow.simWindow i).id = (i : ℕ))
    (ha : (i : ℕ) ∈ s.flow.ackedMsgIds) : (s.flow.simWindow i).status = .dataAckReceived := by
  by_cases hc : σ.collectiveId = 99
  · have := ((kept_collective false hc).reach hs).1 i
    omega
  · exact (((kept_counts hc).and (kept_slots hc)).reach hs).2.first i hid ha

/-- A DATA_ACK marks those slots, of the ones not marked yet, whose message it names. -/
def MarksItsSlots (σ : SnsSpec) (s : SnsNet σ.sizeInPkt) (a : SnsAct) : Prop :=
  ∀ t p, a = .deliver t p → p.snsType = .dataAck → ∀ s', next σ false s a = some s' →
    ∀ i, (s.flow.simWindow i).status ≠ .dataAckReceived →
      ((s'.flow.simWindow i).status = .dataAckReceived ↔
        ∃ id ∈ p.snsAckDataIds, (s.flow.simWindow i).id = (id : ℤ))

/-- Of each unmarked slot that does not hold the message of its own index, a DATA_ACK names the
index for the first time exactly when it names the message. -/
def NamesReusedSlots (σ : SnsSpec) (s : SnsNet σ.sizeInPkt) (a : SnsAct) : Prop :=
  ∀ t p, a = .deliver t p → p.snsType = .dataAck → ∀ i : Fin σ.sizeInPkt,
    (s.flow.simWindow i).status ≠ .dataAckReceived → (s.flow.simWindow i).id ≠ (i : ℕ) →
      ((i : ℕ) ∈ p.snsAckDataIds ∧ (i : ℕ) ∉ s.flow.ackedMsgIds ↔
        ∃ id ∈ p.snsAckDataIds, (s.flow.simWindow i).id = (id : ℤ))

lemma marksItsSlots_iff {s s' : SnsNet σ.sizeInPkt} {a : SnsAct}
    (hs : Reach (machine σ false) s) (hn : next σ false s a = some s') :
    MarksItsSlots σ s a ↔ NamesReusedSlots σ s a := by
  refine forall₄_congr fun t p ha hp => ?_
  subst ha
  have hflow : s'.flow = (s.flow.checkAndSetToFinished σ t).1.receiveDataAck p := by
    rcases next_cases hn with ⟨_, _, _, h, -⟩ | ⟨t', q, rest, h, -, -, rfl⟩ | ⟨_, _, h, -⟩ |
      ⟨_, h, -⟩
    · cases h
    · obtain ⟨rfl, rfl⟩ : t = t' ∧ p = q := by simpa using h
      simp only [after, SnsFlow.receive, hp]
    · cases h
    · cases h
  have hstatus (i) : (s'.flow.simWindow i).status = .dataAckReceived ↔
      (s.flow.simWindow i).status = .dataAckReceived ∨
        ((i : ℕ) ∈ p.snsAckDataIds ∧ (i : ℕ) ∉ s.flow.ackedMsgIds) := by
    rw [hflow, receiveDataAck_status, check_simWindow, check_ackedMsgIds]
  constructor
  · intro h i hunmarked hid
    rw [← h s' hn i hunmarked, hstatus, or_iff_right hunmarked]
  · intro h u hu i hunmarked
    obtain rfl : s' = u := Option.some.inj (hn.symm.trans hu)
    rw [hstatus, or_iff_right hunmarked]
    by_cases hid : (s.flow.simWindow i).id = (i : ℕ)
    · have hnew : (i : ℕ) ∉ s.flow.ackedMsgIds := fun ha => hunmarked (first_acked hs hid ha)
      rw [and_iff_left hnew, hid]
      refine ⟨fun h => ⟨i, h, rfl⟩, ?_⟩
      rintro ⟨id, h, he⟩
      rwa [Nat.cast_inj.mp he]
    · exact h i hunmarked hid

/-- **When a DATA_ACK marks the right slots**: all along a run, the slots a DATA_ACK marks are
those whose message it names, if and only if that is so for the slots that were used again
or freed. -/
theorem marksItsSlots_iff_namesReusedSlots (σ : SnsSpec) (as : List SnsAct) :
    Along (machine σ false) (MarksItsSlots σ) (init σ) as ↔
      Along (machine σ false) (NamesReusedSlots σ) (init σ) as :=
  along_congr (fun hs hn => marksItsSlots_iff hs hn) as .init

/-- A flow of two segments, with sixteen DATA packets for each SIM_ACK. -/
def twoSegments : SnsSpec := exampleSpec 2000 16 (by decide)

/-- The DATA_ACK for the sixteen packets of message 0. -/
def lateDataAck : Packet :=
  { snsPacket twoSegments.params .dataAck (1 + 3 / 100000) 0 0 0 40 1 0 (-1) 0 with
    snsAckDataIds := List.replicate 16 0 }

/-- Message 0 is sent from slot 0 and all its data arrives. Before the DATA_ACK does, the slot
times out and is given to message 2. -/
def reusedSlot : List SnsAct :=
  let sim := SnsFlow.simPacket twoSegments (.new twoSegments) 1
  let ack := SnsFlow.simAckPacket twoSegments (1 + 1 / 100000) sim
  [.sendPendingData 1 0 0, .sendPendingData 1 0 0, .deliver (1 + 1 / 100000) sim,
      .deliver (1 + 1 / 100000) ack] ++
    (List.range 16).map (fun i => .deliver (1 + 3 / 100000)
      (SnsFlow.dataPacket twoSegments (1 + twoSegments.worstRtt) ack i)) ++
    [.sendPendingData (1 + 4 / 100000) 0 0]

/-- **The DATA_ACK of message 0 marks the slot of message 2.** -/
theorem not_marksItsSlots_reusedSlot :
    ¬ Along (machine twoSegments false) (MarksItsSlots twoSegments) (init twoSegments)
      (reusedSlot ++ [.deliver (1 + 41 / 1000000) lateDataAck]) := by
  let i : Fin twoSegments.sizeInPkt := ⟨0, by decide⟩
  refine not_along_of_exec_any
    (P := fun t u => (t.flow.simWindow i).status ≠ .dataAckReceived ∧
      (u.flow.simWindow i).status = .dataAckReceived ∧ (t.flow.simWindow i).id = 2)
    (fun t u hu ⟨hn, hm, hid⟩ h => ?_) (by decide +kernel)
  obtain ⟨id, hmem, he⟩ := (h _ _ rfl rfl u hu i hn).mp hm
  rw [List.eq_of_mem_replicate hmem, hid] at he
  cases he

end SnsNet

end DcSim
