import DcSim.SnsIndex
import DcSim.SnsSlots

/-!
When the data of a SIM_ACK is let go.

In synchronised mode data goes `get_worst_rtt` after its SIM was made. The time of the SIM is
read back from the slot of the message; a SIM_ACK that has lost its slot lets its data go at
once, ahead of the time the probed path is reserved for.
-/

namespace DcSim

open Runs

/-- When a call lets a packet into `packets_to_be_sent`, and for which message. -/
def HostCall.release? : HostCall → Option (Time × ℕ)
  | .addToPktToBeSent _ time p => some (time, p.snsMsgId)
  | _ => none

namespace SnsFlow

variable {σ : SnsSpec} {f : SnsFlow σ.sizeInPkt} {now : Time} {p : Packet}

structure SimTimed {N : ℕ} (f : SnsFlow N) : Prop where
  length : f.simTimes.length = f.msgId
  slot : ∀ (i : Fin N) (id : ℕ), (f.simWindow i).id = (id : ℤ) → id ∉ f.dataIdsSent →
    f.simTimes[id]? = some (f.simWindow i).time

namespace SimTimed

lemma freeSlot {N : ℕ} {f : SnsFlow N} (h : f.SimTimed) (now : Time) :
    (f.getFreeSlotInWindow now).2.SimTimed := by
  obtain ⟨w, b, n, l, hg, hw, -⟩ := f.getFreeSlotInWindow_frame now
  rw [hg]
  rcases hw with rfl | ⟨rfl, -⟩
  · exact { h with }
  · refine { h with slot := fun i id hid hsent => ?_ }
    simp only [Window.dropExpired] at hid ⊢
    split_ifs at hid ⊢
    · simp at hid
    · exact h.slot i id hid hsent

lemma send (h : f.SimTimed) (now : Time) : (f.sendSimulation σ now).1.SimTimed := by
  have hfree := h.freeSlot now
  obtain ⟨w, b, n, l, hg, -⟩ := f.getFreeSlotInWindow_frame now
  rcases f.sendSimulation_cases σ now with ⟨-, hs⟩ | ⟨i, -, -, -, hs⟩ | ⟨-, -, hs⟩ <;> rw [hs]
  · exact hfree
  · rw [hg] at hfree ⊢
    refine ⟨by simp [h.length], fun j id hid hsent => ?_⟩
    simp only [modifySlot, Window.modify_val] at hid ⊢
    by_cases hji : j = i
    · subst hji
      simp only [Function.update_self] at hid ⊢
      obtain rfl : f.msgId = id := by omega
      simp [← h.length]
    · simp only [Function.update_of_ne hji] at hid ⊢
      have hold := hfree.slot j id hid hsent
      have hlt := (List.getElem?_eq_some_iff.mp hold).1
      rw [List.getElem?_append_left hlt]
      exact hold
  · exact hfree

lemma receiveSimAck (h : f.SimTimed) (now : Time) (p : Packet) :
    (f.receiveSimAck σ now p).1.SimTimed := by
  have hsub {id : ℕ} (hid : id ∉ f.dataIdsSent.orderedInsert (· ≤ ·) p.snsMsgId) :
      id ≠ p.snsMsgId ∧ id ∉ f.dataIdsSent :=
    not_or.mp fun h => hid ((List.mem_orderedInsert (· ≤ ·)).mpr h)
  rcases f.receiveSimAck_cases σ now p with ⟨i, -, hi, hr⟩ | ⟨-, -, hr⟩ <;> rw [hr]
  · refine ⟨h.length, fun j id hid hsent => ?_⟩
    by_cases hji : j = i
    · subst hji
      simp only [Function.update_self] at hid
      exact absurd (by omega) (hsub hsent).1
    · simp only [Function.update_of_ne hji] at hid ⊢
      exact h.slot j id hid (hsub hsent).2
  · exact ⟨h.length, fun j id hid hsent => h.slot j id hid (hsub hsent).2⟩

end SimTimed

lemma release_receiveSimAck (f : SnsFlow σ.sizeInPkt) (now : Time) (p : Packet) :
    (f.receiveSimAck σ now p).2.filterMap HostCall.release? =
      (List.range σ.params.numDataPacketsPerSimAck).map fun i : ℕ =>
        (f.timeToBeSent σ now (f.getSlotById p.snsMsgId) + i * (1 / 1000000000), p.snsMsgId) := by
  have hcalls : ∀ l : List ℕ, ∀ g : ℕ → Packet, ∀ h : ℕ → Time,
      (l.map fun i => HostCall.addToPktToBeSent σ.src (h i) (g i)).filterMap HostCall.release? =
        l.map fun i => (h i, (g i).snsMsgId) := by
    intro l g h
    rw [List.filterMap_map]
    exact List.filterMap_eq_map ▸ rfl
  simp only [receiveSimAck, List.filterMap_append, hcalls]
  simp [HostCall.release?, dataPacket, snsPacket]

lemma SimTimed.timeToBeSent_eq (h : f.SimTimed) (hsync : σ.params.syncedMode = true) {id : ℕ}
    {t₀ : Time} (hsent : id ∉ f.dataIdsSent) (ht₀ : f.simTimes[id]? = some t₀)
    (hnow : now ≤ t₀ + σ.worstRtt) (hslot : f.HasSlot id) :
    f.timeToBeSent σ now (f.getSlotById id) = t₀ + σ.worstRtt := by
  rcases f.getSlotById_cases id with ⟨i, hi, hid⟩ | ⟨-, hnone⟩
  · have htime : (f.simWindow i).time = t₀ :=
      Option.some.inj ((h.slot i id hid hsent).symm.trans ht₀)
    have hne : ((i : ℕ) : ℤ) ≠ -1 := by omega
    simp only [timeToBeSent, hi, hne, ne_eq, not_false_eq_true, if_true, Window.get_val, htime,
      hsync]
    exact if_neg (not_lt.mpr hnow)
  · obtain ⟨i, hi⟩ := hslot
    exact absurd hi (hnone i)

lemma timeToBeSent_eq_now {id : ℕ} (hslot : ¬ f.HasSlot id) :
    f.timeToBeSent σ now (f.getSlotById id) = now := by
  rcases f.getSlotById_cases id with ⟨i, -, hid⟩ | ⟨hi, -⟩
  · exact absurd ⟨i, hid⟩ hslot
  · simp [timeToBeSent, hi]

end SnsFlow

namespace SnsNet

variable {σ : SnsSpec}

open SnsFlow

lemma kept_simTimed (σ : SnsSpec) (dup : Bool) :
    Kept σ dup (fun _ _ => True) fun f _ => f.SimTimed where
  new := ⟨rfl, fun i id hid => by simp [SnsFlow.new] at hid⟩
  check t _ h := by
    rcases check_cases σ _ t with ⟨-, hr⟩ | ⟨-, -, hr⟩ | ⟨-, -, hr⟩ <;> rw [hr]
    · exact h
    · exact h
    · exact { h with }
  collective _ _ _ _ _ h := h
  send t _ _ h := h.send t
  sim _ _ _ h := { h with }
  simAck t _ _ h := h.receiveSimAck t _
  dataAck {f S p} _ _ h := by
    have hslot := f.receiveDataAck_slot p
    obtain ⟨w, l, a, hr⟩ := f.receiveDataAck_frame p
    rw [hr] at hslot ⊢
    refine { h with slot := fun i id hid hsent => ?_ }
    rw [(hslot i).2]
    exact h.slot i id ((hslot i).1.symm.trans hid) hsent
  data {f S p} t _ _ h := by
    obtain ⟨d, r, b, a, fin, stop, ft, fct, hr⟩ := f.receiveData_frame σ t p
    rw [hr]
    exact { h with }
  lose h := h
  duplicate _ _ h := h

/-- A SIM_ACK that is there `get_worst_rtt` after its SIM was made lets its data go at that
time, a nanosecond apart. -/
def ReleasesSynced (σ : SnsSpec) (s : SnsNet σ.sizeInPkt) (a : SnsAct) : Prop :=
  ∀ t p t₀, a = .deliver t p → p.snsType = .simAck →
    s.flow.simTimes[p.snsMsgId]? = some t₀ → t ≤ t₀ + σ.worstRtt →
      (s.flow.receive σ t p).2.filterMap HostCall.release? =
        (List.range σ.params.numDataPacketsPerSimAck).map fun i : ℕ =>
          (t₀ + σ.worstRtt + i * (1 / 1000000000), p.snsMsgId)

/-- Such a SIM_ACK still has its slot, or comes at that very time (or lets nothing go). -/
def ReleaseHasSlot (σ : SnsSpec) (s : SnsNet σ.sizeInPkt) (a : SnsAct) : Prop :=
  ∀ t p t₀, a = .deliver t p → p.snsType = .simAck →
    s.flow.simTimes[p.snsMsgId]? = some t₀ → t ≤ t₀ + σ.worstRtt →
      s.flow.HasSlot p.snsMsgId ∨ t = t₀ + σ.worstRtt ∨ σ.params.numDataPacketsPerSimAck = 0

lemma release_receive (f : SnsFlow σ.sizeInPkt) (t : Time) {p : Packet}
    (hp : p.snsType = .simAck) :
    (f.receive σ t p).2.filterMap HostCall.release? =
      (List.range σ.params.numDataPacketsPerSimAck).map fun i : ℕ =>
        (f.timeToBeSent σ t (f.getSlotById p.snsMsgId) + i * (1 / 1000000000), p.snsMsgId) := by
  have hcheck : (f.checkAndSetToFinished σ t).2.filterMap HostCall.release? = [] ∧
      (f.checkAndSetToFinished σ t).1.timeToBeSent σ t
          ((f.checkAndSetToFinished σ t).1.getSlotById p.snsMsgId) =
        f.timeToBeSent σ t (f.getSlotById p.snsMsgId) := by
    rcases f.check_cases σ t with ⟨-, hr⟩ | ⟨-, -, hr⟩ | ⟨-, -, hr⟩ <;> rw [hr] <;>
      exact ⟨rfl, rfl⟩
  simp only [receive, hp, List.filterMap_append, hcheck.1, List.nil_append,
    release_receiveSimAck, hcheck.2]

lemma releasesSynced_iff_of_reach (hsync : σ.params.syncedMode = true)
    {s s' : SnsNet σ.sizeInPkt} {a : SnsAct} (hs : Reach (machine σ false) s)
    (hn : next σ false s a = some s') : ReleasesSynced σ s a ↔ ReleaseHasSlot σ s a := by
  refine forall₃_congr fun t p t₀ => forall₃_congr fun ha hp ht₀ => forall_congr' fun ht => ?_
  subst ha
  rw [release_receive _ _ hp]
  have htimed := (kept_simTimed σ false).reach hs
  by_cases hslot : s.flow.HasSlot p.snsMsgId
  · -- the SIM_ACK is used for the first time, so the slot still has the time of the SIM
    have hsent : p.snsMsgId ∉ s.flow.dataIdsSent := by
      by_cases hc : σ.collectiveId = 99
      · rw [((kept_collective false hc).reach hs).2] at ht₀
        simp at ht₀
      · rcases next_cases hn with ⟨_, _, _, h, -⟩ | ⟨t', q, rest, h, -, hS, -⟩ | ⟨_, _, h, -⟩ |
          ⟨_, h, -⟩
        · cases h
        · obtain ⟨rfl, rfl⟩ : t = t' ∧ p = q := by simpa using h
          have hcounts := (kept_counts hc).reach hs
          rw [hS] at hcounts
          exact hcounts.notMem_dataIdsSent hp
        · cases h
        · cases h
    rw [htimed.timeToBeSent_eq hsync hsent ht₀ ht hslot]
    exact ⟨fun _ => .inl hslot, fun _ => rfl⟩
  · rw [timeToBeSent_eq_now hslot]
    constructor
    · intro h
      rcases Nat.eq_zero_or_pos σ.params.numDataPacketsPerSimAck with hm | hm
      · exact .inr (.inr hm)
      · -- the first of the packets tells the two times apart
        have h0 := congrArg (fun l => l[0]?) h
        simp only [List.getElem?_map, List.getElem?_range hm, Option.map_some, Option.some.injEq,
          Prod.mk.injEq, and_true, add_left_inj] at h0
        exact .inr (.inl h0)
    · rintro (h | rfl | hm)
      · exact absurd h hslot
      · rfl
      · rw [hm]; rfl

/-- **When data is let go in step with its SIM**: in synchronised mode each SIM_ACK of a run that
is in time lets its data go `get_worst_rtt` after the SIM was made, if and only if it finds
the slot of its message (or is just in time, or lets nothing go). -/
theorem releasesSynced_iff_releaseHasSlot (σ : SnsSpec) (hsync : σ.params.syncedMode = true)
    (as : List SnsAct) :
    Along (machine σ false) (ReleasesSynced σ) (init σ) as ↔
      Along (machine σ false) (ReleaseHasSlot σ) (init σ) as :=
  along_congr (fun hs hn => releasesSynced_iff_of_reach hsync hs hn) as .init

/-- The one message of a one-segment flow. -/
theorem releasesSynced_iff_releaseHasSlot_oneMessage :
    Along (machine oneSegment false) (ReleasesSynced oneSegment) (init oneSegment) oneMessage ↔
      Along (machine oneSegment false) (ReleaseHasSlot oneSegment) (init oneSegment) oneMessage :=
  releasesSynced_iff_releaseHasSlot oneSegment rfl oneMessage

/-- **Data goes ahead of its time**: the slot of message 0 times out and is used again before
the SIM_ACK, which comes in time and lets the data go at once. -/
theorem not_releasesSynced_earlyRelease :
    let sim := SnsFlow.simPacket oneSegment (.new oneSegment) 1
    let ack := SnsFlow.simAckPacket oneSegment (1 + 1 / 100000) sim
    ¬ Along (machine oneSegment false) (ReleasesSynced oneSegment) (init oneSegment)
      ([.sendPendingData 1 0 0, .deliver (1 + 1 / 100000) sim,
        .sendPendingData (1 + 16 / 1000000) 0 0] ++ [.deliver (1 + 2 / 100000) ack]) := by
  intro sim ack
  refine not_along_of_exec_any
    (P := fun t _ => t.flow.simTimes[0]? = some 1 ∧
      (t.flow.receive oneSegment (1 + 2 / 100000) ack).2.filterMap HostCall.release? =
        [(1 + 2 / 100000, 0)])
    (fun t u _ ⟨ht₀, hcalls⟩ h => ?_) (by decide +kernel)
  have hcalls' := h _ _ _ rfl rfl ht₀ (by decide +kernel)
  rw [hcalls] at hcalls'
  revert hcalls'
  decide +kernel

end SnsNet

end DcSim
