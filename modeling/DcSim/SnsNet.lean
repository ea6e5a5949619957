import DcSim.SnsFlow
import DcSim.Runs
import Mathlib.Algebra.Order.Group.Multiset
import Mathlib.Data.Multiset.Filter

/-!
One SNS flow and its packets, under any behaviour of the rest of the simulator.

A packet is in flight from the call that makes it to the call that receives it, wherever it
waits in between: at a host, in an `SnsAddToPktToBeSentEvt`, in a queue or on a link. At any
later time the flow may be picked by its host, and any packet in flight may arrive or be
lost; in a network that duplicates packets, one may also be doubled.
-/

namespace DcSim

open Runs

def HostCall.packet? : HostCall → Option Packet
  | .pushSim _ p => some p
  | .pushPacket _ p => some p
  | .addToPktToBeSent _ _ p => some p
  | _ => none

/-- Whether a call makes a `FlowFinishedEvent`. -/
def HostCall.isFlowFinished : HostCall → Bool
  | .flowFinished _ => true
  | _ => false

/-- The packets a list of calls puts on their way. -/
def emitted (calls : List HostCall) : Multiset Packet := calls.filterMap HostCall.packet?

@[simp] lemma emitted_nil : emitted [] = 0 := rfl

@[simp] lemma emitted_hostProc (h : HostId) (t : Time) : emitted [.hostProc h t] = 0 := rfl
@[simp] lemma emitted_simHostProc (h : HostId) (t : Time) : emitted [.simHostProc h t] = 0 := rfl

@[simp] lemma emitted_append (cs ds : List HostCall) :
    emitted (cs ++ ds) = emitted cs + emitted ds := by
  simp [emitted]

/-! ### The packets a call puts on its way -/

namespace SnsFlow

variable {σ : SnsSpec} (f : SnsFlow σ.sizeInPkt) (now : Time) (p : Packet)

@[simp] lemma emitted_check : emitted (f.checkAndSetToFinished σ now).2 = 0 := by
  unfold checkAndSetToFinished
  split_ifs <;> rfl

@[simp] lemma emitted_receiveSim :
    emitted (f.receiveSim σ now p).2 = {simAckPacket σ now p} := rfl

@[simp] lemma emitted_receiveSimAck :
    emitted (f.receiveSimAck σ now p).2 =
      ((List.range σ.params.numDataPacketsPerSimAck).map
        (dataPacket σ (f.timeToBeSent σ now (f.getSlotById p.snsMsgId)) p) :) := by
  have hcalls : ∀ l : List ℕ, ∀ g : ℕ → Packet, ∀ h : ℕ → Time,
      (l.map fun i => HostCall.addToPktToBeSent σ.src (h i) (g i)).filterMap
        HostCall.packet? = l.map g := by
    intro l g h
    rw [List.filterMap_map]
    exact List.filterMap_eq_map ▸ rfl
  simp only [receiveSimAck, emitted_append]
  rw [emitted, hcalls]
  exact add_zero _

lemma emitted_receiveData :
    emitted (f.receiveData σ now p).2 = 0 ∨
      ∃ q, q.snsType = .dataAck ∧
        q.snsAckDataIds = f.dataIdsRecived.orderedInsert (· ≤ ·) p.snsMsgId ∧
        f.finished = false ∧ emitted (f.receiveData σ now p).2 = {q} := by
  unfold receiveData
  cases hf : f.finished with
  | true => exact .inl rfl
  | false =>
    simp only [Bool.false_eq_true, if_false, emitted_append,
      SnsFlow.emitted_check]
    split_ifs
    · exact .inr ⟨_, rfl, rfl, trivial, rfl⟩
    · exact .inl rfl

end SnsFlow

structure SnsNet (N : ℕ) where
  now : Time
  flow : SnsFlow N
  inFlight : Multiset Packet
  finishedEvents : ℕ

/-- What can happen next. The numbers in `sendPendingData` are those a collective flow uses. -/
inductive SnsAct
  | sendPendingData (time : Time) (seqNo collectiveMsgId : ℕ)
  | deliver (time : Time) (p : Packet)
  | lose (p : Packet)
  | duplicate (p : Packet)

namespace SnsNet

variable (σ : SnsSpec) (dup : Bool)

def init : SnsNet σ.sizeInPkt := ⟨σ.startTime, .new σ, 0, 0⟩

/-- The state after a call of the flow at a time, the other packets in flight being `rest`. -/
def after {N : ℕ} (s : SnsNet N) (time : Time) (rest : Multiset Packet)
    (r : SnsFlow N × List HostCall) : SnsNet N :=
  ⟨time, r.1, rest + emitted r.2, s.finishedEvents + r.2.countP HostCall.isFlowFinished⟩

/-- A host only picks a flow that is not finished. -/
def next (s : SnsNet σ.sizeInPkt) : SnsAct → Option (SnsNet σ.sizeInPkt)
  | .sendPendingData time seq cid =>
    if s.now ≤ time ∧ s.flow.finished = false then
      some (s.after time s.inFlight (s.flow.sendPendingData σ time seq cid))
    else none
  | .deliver time p =>
    if s.now ≤ time ∧ p ∈ s.inFlight then
      some (s.after time (s.inFlight.erase p) (s.flow.receive σ time p))
    else none
  | .lose p => if p ∈ s.inFlight then some { s with inFlight := s.inFlight.erase p } else none
  | .duplicate p =>
    if dup = true ∧ p ∈ s.inFlight then some { s with inFlight := p ::ₘ s.inFlight } else none

def machine : Machine (SnsNet σ.sizeInPkt) SnsAct := ⟨init σ, next σ dup⟩

/-- A SIM, its SIM_ACK and the DATA packet it lets go all arrive. -/
def oneMessage : List SnsAct :=
  let sim := SnsFlow.simPacket oneSegment (.new oneSegment) 1
  let ack := SnsFlow.simAckPacket oneSegment (1 + 1 / 100000) sim
  [.sendPendingData 1 0 0, .deliver (1 + 1 / 100000) sim, .deliver (1 + 1 / 100000) ack,
    .deliver (1 + 1 / 10000) (SnsFlow.dataPacket oneSegment (1 + oneSegment.worstRtt) ack 0)]

variable {σ dup}

/-- **What a step can do.** -/
theorem next_cases {s t : SnsNet σ.sizeInPkt} {a : SnsAct} (h : next σ dup s a = some t) :
    (∃ time seq cid, a = .sendPendingData time seq cid ∧ s.now ≤ time ∧
      s.flow.finished = false ∧
      t = s.after time s.inFlight (s.flow.sendPendingData σ time seq cid)) ∨
    (∃ time p rest, a = .deliver time p ∧ s.now ≤ time ∧ s.inFlight = p ::ₘ rest ∧
      t = s.after time rest (s.flow.receive σ time p)) ∨
    (∃ p rest, a = .lose p ∧ s.inFlight = p ::ₘ rest ∧ t = { s with inFlight := rest }) ∨
    (∃ p, a = .duplicate p ∧ dup = true ∧ p ∈ s.inFlight ∧
      t = { s with inFlight := p ::ₘ s.inFlight }) := by
  cases a with
  | sendPendingData time seq cid =>
    obtain ⟨⟨ht, hf⟩, h⟩ := Option.ite_none_right_eq_some.mp h
    obtain rfl := Option.some.inj h
    exact .inl ⟨time, seq, cid, rfl, ht, hf, rfl⟩
  | deliver time p =>
    obtain ⟨⟨ht, hp⟩, h⟩ := Option.ite_none_right_eq_some.mp h
    obtain rfl := Option.some.inj h
    exact .inr (.inl ⟨time, p, _, rfl, ht, (Multiset.cons_erase hp).symm, rfl⟩)
  | lose p =>
    obtain ⟨hp, h⟩ := Option.ite_none_right_eq_some.mp h
    obtain rfl := Option.some.inj h
    exact .inr (.inr (.inl ⟨p, _, rfl, (Multiset.cons_erase hp).symm, rfl⟩))
  | duplicate p =>
    obtain ⟨⟨hd, hp⟩, h⟩ := Option.ite_none_right_eq_some.mp h
    obtain rfl := Option.some.inj h
    exact .inr (.inr (.inr ⟨p, rfl, hd, hp, rfl⟩))

/-! ### The invariant rule of a flow and its packets -/

structure Kept (σ : SnsSpec) (dup : Bool)
    (J I : SnsFlow σ.sizeInPkt → Multiset Packet → Prop) : Prop where
  new : I (.new σ) 0
  check {f S} (t : Time) : J f S → I f S → I (f.checkAndSetToFinished σ t).1 S
  collective {f S} (t : Time) (seq cid : ℕ) : σ.collectiveId = 99 → J f S → I f S →
    I f (S + {SnsFlow.collectivePacket σ t seq cid})
  send {f S} (t : Time) : σ.collectiveId ≠ 99 → J f S → I f S →
    I (f.sendSimulation σ t).1 (S + emitted (f.sendSimulation σ t).2)
  sim {f S p} (t : Time) : p.snsType = .sim → J f (p ::ₘ S) → I f (p ::ₘ S) →
    I (f.receiveSim σ t p).1 (S + emitted (f.receiveSim σ t p).2)
  simAck {f S p} (t : Time) : p.snsType = .simAck → J f (p ::ₘ S) → I f (p ::ₘ S) →
    I (f.receiveSimAck σ t p).1 (S + emitted (f.receiveSimAck σ t p).2)
  dataAck {f S p} : p.snsType = .dataAck → J f (p ::ₘ S) → I f (p ::ₘ S) →
    I (f.receiveDataAck p) S
  data {f S p} (t : Time) : p.snsType = .data → J f (p ::ₘ S) → I f (p ::ₘ S) →
    I (f.receiveData σ t p).1 (S + emitted (f.receiveData σ t p).2)
  lose {f S p} : I f (p ::ₘ S) → I f S
  duplicate {f S p} : dup = true → p ∈ S → I f S → I f (p ::ₘ S)

namespace Kept

variable {J I : SnsFlow σ.sizeInPkt → Multiset Packet → Prop}

theorem and (hJ : Kept σ dup (fun _ _ => True) J) (hI : Kept σ dup J I) :
    Kept σ dup (fun _ _ => True) fun f S => J f S ∧ I f S where
  new := ⟨hJ.new, hI.new⟩
  check t _ h := ⟨hJ.check t trivial h.1, hI.check t h.1 h.2⟩
  collective t seq cid hc _ h :=
    ⟨hJ.collective t seq cid hc trivial h.1, hI.collective t seq cid hc h.1 h.2⟩
  send t hc _ h := ⟨hJ.send t hc trivial h.1, hI.send t hc h.1 h.2⟩
  sim t hp _ h := ⟨hJ.sim t hp trivial h.1, hI.sim t hp h.1 h.2⟩
  simAck t hp _ h := ⟨hJ.simAck t hp trivial h.1, hI.simAck t hp h.1 h.2⟩
  dataAck hp _ h := ⟨hJ.dataAck hp trivial h.1, hI.dataAck hp h.1 h.2⟩
  data t hp _ h := ⟨hJ.data t hp trivial h.1, hI.data t hp h.1 h.2⟩
  lose h := ⟨hJ.lose h.1, hI.lose h.2⟩
  duplicate hd hp h := ⟨hJ.duplicate hd hp h.1, hI.duplicate hd hp h.2⟩

end Kept

/-- **The rule for the receiver's end**: what depends on nothing else only has to be kept by
`check_and_set_to_finished` and by `receive` of a DATA packet. -/
lemma Kept.receiver {I : SnsFlow σ.sizeInPkt → Prop}
    (hsame : ∀ {f g}, SnsFlow.SameReceiver f g → I f → I g) (hnew : I (.new σ))
    (hcheck : ∀ {f} t, I f → I (f.checkAndSetToFinished σ t).1)
    (hdata : ∀ {f} t p, I f → I (f.receiveData σ t p).1) :
    Kept σ dup (fun _ _ => True) fun f _ => I f where
  new := hnew
  check t _ h := hcheck t h
  collective _ _ _ _ _ h := h
  send t _ _ h := hsame (SnsFlow.sameReceiver_send σ _ t) h
  sim t _ _ h := hsame (SnsFlow.sameReceiver_sim σ _ t _) h
  simAck t _ _ h := hsame (SnsFlow.sameReceiver_simAck σ _ t _) h
  dataAck _ _ h := hsame (SnsFlow.sameReceiver_dataAck _ _) h
  data t _ _ h := hdata t _ h
  lose h := h
  duplicate _ _ h := h

lemma forall_add {P : Packet → Prop} {S T : Multiset Packet} (hS : ∀ p ∈ S, P p)
    (hT : ∀ p ∈ T, P p) : ∀ p ∈ S + T, P p := fun p hp =>
  (Multiset.mem_add.mp hp).elim (hS p) (hT p)

lemma forall_singleton {P : Packet → Prop} {q : Packet} (hq : P q) :
    ∀ p ∈ ({q} : Multiset Packet), P p := fun _ hp => Multiset.mem_singleton.mp hp ▸ hq

lemma kept_typed (σ : SnsSpec) (dup : Bool) :
    Kept σ dup (fun _ _ => True) fun _ S => ∀ p ∈ S, p.snsType ≠ .none where
  new := by simp
  check _ _ h := h
  collective t seq cid _ _ h :=
    forall_add h (forall_singleton (by simp [SnsFlow.collectivePacket, snsPacket]))
  send {f S} t _ _ h := by
    refine forall_add h ?_
    rcases f.sendSimulation_cases σ t with ⟨-, hs⟩ | ⟨i, -, -, -, hs⟩ | ⟨-, -, hs⟩ <;> rw [hs]
    · simp
    · exact forall_singleton (by simp [SnsFlow.simPacket, snsPacket])
    · simp
  sim t _ _ h :=
    forall_add (Multiset.forall_mem_cons.mp h).2
      (forall_singleton (by simp [SnsFlow.simAckPacket, snsPacket]))
  simAck t _ _ h := by
    refine forall_add (Multiset.forall_mem_cons.mp h).2 fun p hp => ?_
    rw [SnsFlow.emitted_receiveSimAck, Multiset.mem_coe] at hp
    obtain ⟨i, -, rfl⟩ := List.mem_map.mp hp
    simp [SnsFlow.dataPacket, snsPacket]
  dataAck _ _ h := (Multiset.forall_mem_cons.mp h).2
  data {f S p} t _ _ h := by
    refine forall_add (Multiset.forall_mem_cons.mp h).2 ?_
    rcases SnsFlow.emitted_receiveData f t p with h0 | ⟨q, hq, -, -, h0⟩ <;> rw [h0]
    · simp
    · exact forall_singleton (by simp [hq])
  lose h := (Multiset.forall_mem_cons.mp h).2
  duplicate _ hp h := by
    intro q hq
    rcases Multiset.mem_cons.mp hq with rfl | hq
    · exact h _ hp
    · exact h q hq

namespace Kept

variable {I : SnsFlow σ.sizeInPkt → Multiset Packet → Prop}

theorem step (h : Kept σ dup (fun _ _ => True) I) {s t : SnsNet σ.sizeInPkt} {a : SnsAct}
    (hT : ∀ p ∈ s.inFlight, p.snsType ≠ .none) (hI : I s.flow s.inFlight)
    (hn : next σ dup s a = some t) : I t.flow t.inFlight := by
  rcases next_cases hn with ⟨t, seq, cid, rfl, -, -, rfl⟩ | ⟨t, p, S, rfl, -, hS, rfl⟩ |
    ⟨p, S, rfl, hS, rfl⟩ | ⟨p, rfl, hd, hp, rfl⟩
  · have hc := h.check t trivial hI
    simp only [after, SnsFlow.sendPendingData, emitted_append,
      SnsFlow.emitted_check, zero_add]
    by_cases h99 : σ.collectiveId = 99
    · simp only [h99, if_true]
      exact h.collective t seq cid h99 trivial hc
    · simp only [h99, if_false]
      simpa using h.send t h99 trivial hc
  · rw [hS] at hI hT
    have hc := h.check t trivial hI
    simp only [after, SnsFlow.receive, emitted_append,
      SnsFlow.emitted_check, zero_add]
    cases hp : p.snsType with
    | none => exact absurd hp (hT p (Multiset.mem_cons_self _ _))
    | sim => exact h.sim t hp trivial hc
    | simAck => exact h.simAck t hp trivial hc
    | data => exact h.data t hp trivial hc
    | dataAck => simpa using h.dataAck hp trivial hc
  · rw [hS] at hI
    exact h.lose hI
  · exact h.duplicate hd hp hI

/-- **The rule**: in every reachable state the flow and the packets in flight are related. -/
theorem reach (h : Kept σ dup (fun _ _ => True) I) {s : SnsNet σ.sizeInPkt}
    (hs : Reach (machine σ dup) s) : I s.flow s.inFlight := by
  refine (hs.inv (I := fun s => (∀ p ∈ s.inFlight, p.snsType ≠ .none) ∧ I s.flow s.inFlight)
    ⟨(kept_typed σ dup).new, h.new⟩ fun _ ⟨hT, hI⟩ hn => ?_).2
  exact ⟨(kept_typed σ dup).step hT hT hn, h.step hT hI hn⟩

end Kept

end SnsNet

end DcSim
