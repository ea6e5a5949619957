import DcSim.SnsNet

/-!
The indices an SNS flow uses its window with.

`get_slot_by_id` returns `-1` for a message whose slot has timed out. `receive` of a SIM_ACK
tests for that where it writes the status, and not where it reads and writes the time. So
the indices of a run are all in the window exactly when each SIM_ACK it delivers still has
its slot.
-/

namespace DcSim

open Runs

namespace SnsFlow

variable {σ : SnsSpec} (f : SnsFlow σ.sizeInPkt) (now : Time) (p : Packet)

/-- Every index the window has been used with is one of a slot. -/
def InRange {N : ℕ} (f : SnsFlow N) : Prop := ∀ x ∈ f.touched, 0 ≤ x ∧ x < N

instance {N : ℕ} (f : SnsFlow N) : Decidable f.InRange := by
  unfold InRange; infer_instance

/-- Some slot holds the message. -/
def HasSlot {N : ℕ} (f : SnsFlow N) (id : ℤ) : Prop := ∃ i, (f.simWindow i).id = id

instance {N : ℕ} (f : SnsFlow N) (id : ℤ) : Decidable (f.HasSlot id) := by
  unfold HasSlot; infer_instance

variable {f}

lemma inRange_new (σ : SnsSpec) : (new σ).InRange := fun _ hx => absurd hx List.not_mem_nil

lemma InRange.check (h : f.InRange) : (f.checkAndSetToFinished σ now).1.InRange := by
  unfold InRange
  rwa [check_touched]

lemma InRange.scan {N : ℕ} {f : SnsFlow N} (h : f.InRange) : f.scan.InRange := by
  intro x hx
  rcases List.mem_append.mp hx with hx | hx
  · exact h x hx
  · obtain ⟨i, -, rfl⟩ := List.mem_map.mp hx
    have := i.isLt
    omega

lemma InRange.modifySlot {N : ℕ} {f : SnsFlow N} (h : f.InRange) (i : Fin N)
    (g : WindowMsgElement → WindowMsgElement) : (f.modifySlot (i : ℕ) g).InRange := by
  intro x hx
  rcases List.mem_append.mp hx with hx | hx
  · exact h x hx
  · rw [List.mem_singleton.mp hx]
    have := i.isLt
    omega

lemma InRange.sendSimulation (h : f.InRange) : (f.sendSimulation σ now).1.InRange := by
  have hfree : (f.getFreeSlotInWindow now).2.InRange := by
    obtain ⟨w, b, n, l, hg, -, -, hl⟩ := f.getFreeSlotInWindow_frame now
    rw [hg]
    exact fun x hx => (hl x hx).elim (h x) id
  rcases f.sendSimulation_cases σ now with ⟨-, hs⟩ | ⟨i, -, -, -, hs⟩ | ⟨-, -, hs⟩
  · rw [hs]; exact hfree
  · rw [hs]; exact hfree.modifySlot i fun _ => ⟨now, f.msgId, .simSent⟩
  · rw [hs]; exact hfree

lemma InRange.receiveData (h : f.InRange) : (f.receiveData σ now p).1.InRange := by
  obtain ⟨d, r, b, a, fin, stop, ft, fct, hr⟩ := f.receiveData_frame σ now p
  rw [hr]
  exact h

lemma InRange.receiveDataAck {N : ℕ} {f : SnsFlow N} (h : f.InRange) :
    (f.receiveDataAck p).InRange := by
  unfold SnsFlow.receiveDataAck
  generalize p.snsAckDataIds = ids
  induction ids generalizing f with
  | nil => exact h
  | cons id ids ih =>
    refine ih ?_
    unfold markAcked
    split_ifs with hid hacked
    · exact h
    · exact h
    · exact h.modifySlot ⟨id, by omega⟩ fun e => { e with status := .dataAckReceived }

lemma InRange.receiveSimAck (h : f.InRange) (hslot : f.HasSlot p.snsMsgId) :
    (f.receiveSimAck σ now p).1.InRange := by
  rcases f.receiveSimAck_cases σ now p with ⟨i, -, -, hr⟩ | ⟨-, hnone, -⟩
  · rw [hr]
    intro x hx
    rcases List.mem_append.mp hx with hx | hx
    · exact h.scan x hx
    · rw [List.eq_of_mem_replicate hx]
      have := i.isLt
      omega
  · exact absurd hslot fun ⟨i, hi⟩ => hnone i hi

lemma not_inRange_receiveSimAck (hslot : ¬ f.HasSlot p.snsMsgId) :
    ¬ (f.receiveSimAck σ now p).1.InRange := by
  rcases f.receiveSimAck_cases σ now p with ⟨i, -, hi, -⟩ | ⟨-, -, hr⟩
  · exact absurd ⟨i, hi⟩ hslot
  · rw [hr]
    intro h
    have := h (-1) (List.mem_append_right _ (by simp))
    omega

lemma receiveSimAck_simWindow (hslot : ¬ f.HasSlot p.snsMsgId) :
    (f.receiveSimAck σ now p).1.simWindow = f.simWindow := by
  rcases f.receiveSimAck_cases σ now p with ⟨i, -, hi, -⟩ | ⟨-, -, hr⟩
  · exact absurd ⟨i, hi⟩ hslot
  · rw [hr]; rfl

end SnsFlow

namespace SnsNet

variable (σ : SnsSpec) (dup : Bool)

def SimAckHasSlot (s : SnsNet σ.sizeInPkt) (a : SnsAct) : Prop :=
  ∀ t p, a = .deliver t p → p.snsType = .simAck → s.flow.HasSlot p.snsMsgId

/-- A SIM_ACK that belongs to no slot does not change the window. -/
def UnmatchedKeepsWindow (s : SnsNet σ.sizeInPkt) (a : SnsAct) : Prop :=
  ∀ t p, a = .deliver t p → p.snsType = .simAck → ¬ s.flow.HasSlot p.snsMsgId →
    ∀ s', next σ dup s a = some s' → s'.flow.simWindow = s.flow.simWindow

variable {σ dup}

lemma unmatchedKeepsWindow (s : SnsNet σ.sizeInPkt) (a : SnsAct) :
    UnmatchedKeepsWindow σ dup s a := by
  rintro t p rfl hp hslot s' hn
  rcases next_cases hn with ⟨_, _, _, h, -⟩ | ⟨t', q, rest, h, -, -, rfl⟩ | ⟨_, _, h, -⟩ |
    ⟨_, h, -⟩
  · cases h
  · obtain ⟨rfl, rfl⟩ : t = t' ∧ p = q := by simpa using h
    simp only [after, SnsFlow.receive, hp]
    rw [SnsFlow.receiveSimAck_simWindow t p, SnsFlow.check_simWindow]
    simpa [SnsFlow.HasSlot] using hslot
  · cases h
  · cases h

lemma inRange_next {s s' : SnsNet σ.sizeInPkt} {a : SnsAct} (h : s.flow.InRange)
    (hC : SimAckHasSlot σ s a) (hn : next σ dup s a = some s') : s'.flow.InRange := by
  rcases next_cases hn with ⟨t, seq, cid, rfl, -, -, rfl⟩ | ⟨t, p, rest, rfl, -, -, rfl⟩ |
    ⟨_, _, -, -, rfl⟩ | ⟨_, -, -, -, rfl⟩
  · have hc := h.check t
    simp only [after, SnsFlow.sendPendingData]
    split_ifs
    · exact hc
    · exact hc.sendSimulation t
  · have hc := h.check t
    simp only [after, SnsFlow.receive]
    cases hp : p.snsType with
    | sim => exact hc
    | simAck =>
      refine hc.receiveSimAck t p ?_
      simpa [SnsFlow.HasSlot] using hC t p rfl hp
    | dataAck => exact hc.receiveDataAck p
    | none => exact hc.receiveData t p
    | data => exact hc.receiveData t p
  · exact h
  · exact h

lemma not_inRange_next {s s' : SnsNet σ.sizeInPkt} {a : SnsAct} (hC : ¬ SimAckHasSlot σ s a)
    (hn : next σ dup s a = some s') : ¬ s'.flow.InRange := by
  simp only [SimAckHasSlot, not_forall] at hC
  obtain ⟨t, p, rfl, hp, hslot⟩ := hC
  rcases next_cases hn with ⟨_, _, _, h, -⟩ | ⟨t', q, rest, h, -, -, rfl⟩ | ⟨_, _, h, -⟩ |
    ⟨_, h, -⟩
  · cases h
  · obtain ⟨rfl, rfl⟩ : t = t' ∧ p = q := by simpa using h
    simp only [after, SnsFlow.receive, hp]
    refine SnsFlow.not_inRange_receiveSimAck t p ?_
    simpa [SnsFlow.HasSlot] using hslot
  · cases h
  · cases h

/-- **The window is used within its bounds exactly when no SIM_ACK comes too late**: along a
run every index is one of a slot, and a SIM_ACK without a slot leaves the window alone, if
and only if every SIM_ACK of the run is delivered while its slot still holds its message. -/
theorem inRange_iff_simAckHasSlot (σ : SnsSpec) (dup : Bool) (as : List SnsAct) :
    (Always (machine σ dup) (fun s => s.flow.InRange) (init σ) as ∧
      Along (machine σ dup) (UnmatchedKeepsWindow σ dup) (init σ) as) ↔
    Along (machine σ dup) (SimAckHasSlot σ) (init σ) as := by
  rw [and_iff_left (along_of_forall (fun _ _ => unmatchedKeepsWindow _ _) _ _)]
  exact always_iff_along id (fun h hC => inRange_next h hC) (fun _ hC => not_inRange_next hC) as
    (SnsFlow.inRange_new σ)

/-- The SIM of a one-segment flow times out at the next `sendPendingData`, which gives its
slot to another message; then its SIM_ACK arrives. -/
def lateSimAck : List SnsAct :=
  let sim := SnsFlow.simPacket oneSegment (.new oneSegment) 1
  [.sendPendingData 1 0 0, .deliver (1 + 1 / 100000) sim, .sendPendingData (1 + 2 / 100000) 0 0,
    .deliver (1 + 3 / 100000) (SnsFlow.simAckPacket oneSegment (1 + 1 / 100000) sim)]

/-- **A late SIM_ACK leaves the window's bounds**, also in a network without duplicates. -/
theorem not_inRange_lateSimAck :
    ¬ Always (machine oneSegment false) (fun s => s.flow.InRange) (init oneSegment) lateSimAck :=
  not_always_of_exec_any (by decide +kernel)

end SnsNet

end DcSim
