import DcSim.Packet
import DcSim.Word32
import Mathlib.Data.List.Perm.Basic

/-!
The queue disciplines: `Queue`, `PFabricQueue`, `ProbDropQueue`, `DctcpQueue` and `SnsQueue`.

A discipline decides which packets are kept and which leaves next. Each counts the packets and
bytes that arrive and leave, and the packets it drops, in numbers of 64 bits. A `ProbDropQueue`
also loses packets without counting them. What was dropped or lost is kept as history.

`SnsQueue` puts a SIM apart, until its `SnsQueueProcessingEvent` hands it to `Queue::enque`.
`ProbDropQueue::enque` is called when `busy` is set, so that it begins no service itself.
-/

namespace DcSim

open Word32

inductive QueueType | dropTail | pfabric | probDrop | dctcp | sns
  deriving DecidableEq

structure QueueSpec where
  type : QueueType
  limitBytes : ℕ
  /-- `host_type` is `NORMAL_HOST` -/
  normalHost : Bool
  /-- `sim_queue_size`, compared as a `size_t` -/
  simQueueSize : ℕ

/-- The classes that take the packets in the order they came. -/
def QueueSpec.Fifo (K : QueueSpec) : Prop :=
  K.type = .dropTail ∨ K.type = .probDrop ∨ K.type = .dctcp

structure PacketQueue where
  packets : List Packet
  simPackets : List Packet
  bytesInQueue : ℕ
  freeTokens : ℕ
  pArrivals : UInt64
  bArrivals : UInt64
  pDepartures : UInt64
  bDepartures : UInt64
  pktDrop : UInt64
  dropped : List Packet

/-- The packet at an index, and the packets without it. -/
def takeAt (i : ℕ) (ps : List Packet) : Option (Packet × List Packet) :=
  ps[i]?.map fun p => (p, ps.eraseIdx i)

/-- `worst_index`, of the last packet of the worst priority. -/
def worstIndex (ps : List Packet) : ℕ :=
  (ps.zipIdx.foldl (fun w (p, i) => if w.1 ≤ p.pfPriority then (p.pfPriority, i) else w) (0, 0)).2

/-- `best_packet` and `best_index`, of the first packet of the best priority; there is none if each
priority is `UINT_MAX`. -/
def bestPacket (ps : List Packet) : Option (Packet × ℕ) :=
  (ps.zipIdx.foldl (fun b (p, i) => if p.pfPriority < b.1 then (p.pfPriority, some (p, i)) else b)
    (4294967295, none)).2

/-- The index `PFabricQueue::deque` takes: at normal hosts that of the first packet of the flow of
the best packet, which it reads. -/
def pfabricIndex (normalHost : Bool) (ps : List Packet) : Option ℕ :=
  match bestPacket ps with
  | none => if normalHost then none else some 0
  | some (p, i) => some (if normalHost then (ps.findIdx? (·.flow = p.flow)).getD i else i)

namespace PacketQueue

def init : PacketQueue := ⟨[], [], 0, 0, 0, 0, 0, 0, 0, []⟩

variable (K : QueueSpec) (Q : PacketQueue) (p : Packet)

/-- A packet is counted as it arrives. -/
def arrive : PacketQueue :=
  { Q with pArrivals := Q.pArrivals + 1, bArrivals := Q.bArrivals + UInt64.ofNat p.size }

def push : PacketQueue :=
  { Q with packets := Q.packets ++ [p], bytesInQueue := add32 Q.bytesInQueue p.size }

def lose : PacketQueue := { Q with dropped := Q.dropped ++ [p] }

/-- A packet is dropped, and counted. -/
def drop : PacketQueue := { Q.lose p with pktDrop := Q.pktDrop + 1 }

/-- `Queue::enque` -/
def queueEnque : PacketQueue :=
  if add32 Q.bytesInQueue p.size ≤ K.limitBytes ∧ p.size ≠ 4294967295 then (Q.arrive p).push p
  else (Q.arrive p).drop p

/-- `DctcpQueue::enque` -/
def dctcpEnque : PacketQueue :=
  if add32 Q.bytesInQueue p.size ≤ K.limitBytes then (Q.arrive p).push p
  else (Q.arrive p).drop p

/-- A packet of a list is dropped. -/
def dropFrom (r : Packet × List Packet) : PacketQueue :=
  { Q with packets := r.2, bytesInQueue := sub32 Q.bytesInQueue r.1.size }.drop r.1

/-- `PFabricQueue::enque` -/
def pfabricEnque : PacketQueue :=
  let Q := (Q.arrive p).push p
  if K.limitBytes < Q.bytesInQueue ∧ K.limitBytes ≠ 4294967295 then
    (takeAt (worstIndex Q.packets) Q.packets).elim Q Q.dropFrom
  else Q

/-- `ProbDropQueue::enque`; the packet may be `lost` by chance. -/
def probDropEnque (lost : Bool) : PacketQueue :=
  if add32 Q.bytesInQueue p.size ≤ K.limitBytes ∧ lost = false then (Q.arrive p).push p
  else (Q.arrive p).lose p

/-- `SnsQueue::enque` -/
def snsEnque : PacketQueue :=
  if p.snsType ≠ .sim then Q.queueEnque K p
  else if Q.simPackets.length < K.simQueueSize ∧ p.size ≠ 4294967295 then
    { Q.arrive p with simPackets := Q.simPackets ++ [p] }
  else (Q.arrive p).drop p

/-- `enque` of the class. -/
def enque (lost : Bool) : PacketQueue :=
  match K.type with
  | .dropTail => Q.queueEnque K p
  | .pfabric => Q.pfabricEnque K p
  | .probDrop => Q.probDropEnque K p lost
  | .dctcp => Q.dctcpEnque K p
  | .sns => Q.snsEnque K p

/-- The packet the class takes of those that wait, and the others. -/
def take (ps : List Packet) : Option (Packet × List Packet) :=
  match K.type with
  | .dropTail | .probDrop | .dctcp => takeAt 0 ps
  | .pfabric => (pfabricIndex K.normalHost ps).bind fun i => takeAt i ps
  | .sns => takeByPriority [.simAck, .sim, .dataAck, .data] ps

/-- A packet leaves, and is counted. -/
def depart (r : Packet × List Packet) : PacketQueue :=
  { Q with
    packets := r.2
    bytesInQueue := sub32 Q.bytesInQueue r.1.size
    pDepartures := Q.pDepartures + 1
    bDepartures := Q.bDepartures + UInt64.ofNat r.1.size }

/-- `deque` of the class, and the packet it returns if there is one. It fails where it reads a
packet that is not there. -/
def deque : Option (Option Packet × PacketQueue) :=
  if 0 < Q.bytesInQueue then (take K Q.packets).map fun r => (some r.1, Q.depart r)
  else some (none, Q)

/-- `SnsQueueProcessingEvent::process_event` -/
def snsQueueProcessing : PacketQueue :=
  match Q.simPackets with
  | [] => Q
  | p :: sims =>
    if Q.freeTokens < 1 then Q
    else { Q with freeTokens := Q.freeTokens - 1, simPackets := sims }.queueEnque K p

/-- A token of a `FillTokenBucketEvent`. -/
def addToken : PacketQueue :=
  if Q.freeTokens < 2 then { Q with freeTokens := Q.freeTokens + 1 } else Q

/-- The packets the queue holds. -/
def held : List Packet := Q.packets ++ Q.simPackets

def stored : List Packet := Q.held ++ Q.dropped

variable {K Q p}

/-! ### Where the packets are -/

lemma takeAt_perm {i : ℕ} {ps rest : List Packet} (h : takeAt i ps = some (p, rest)) :
    ps.Perm (p :: rest) := by
  obtain ⟨q, hq, h⟩ := Option.map_eq_some_iff.1 h
  obtain ⟨rfl, rfl⟩ := Prod.mk.inj h
  obtain ⟨hi, rfl⟩ := List.getElem?_eq_some_iff.1 hq
  exact (List.getElem_cons_eraseIdx_perm hi).symm

lemma take_perm {ps rest : List Packet} (h : take K ps = some (p, rest)) :
    ps.Perm (p :: rest) := by
  unfold take at h
  split at h
  case h_4 =>
    obtain ⟨i, -, h⟩ := Option.bind_eq_some_iff.1 h
    exact takeAt_perm h
  case h_5 => exact takeByPriority_perm h
  all_goals exact takeAt_perm h

lemma sum_append (ps : List Packet) (p : Packet) :
    ((ps ++ [p]).map (·.size)).sum = (ps.map (·.size)).sum + p.size := by
  simp

lemma sum_perm {ps rest : List Packet} (h : ps.Perm (p :: rest)) :
    (ps.map (·.size)).sum = p.size + (rest.map (·.size)).sum := by
  rw [(h.map (·.size)).sum_nat, List.map_cons, List.sum_cons]

structure Takes (Q : PacketQueue) (p : Packet) (R : PacketQueue) : Prop where
  pArrivals : R.pArrivals = Q.pArrivals + 1
  bArrivals : R.bArrivals = Q.bArrivals + UInt64.ofNat p.size
  pDepartures : R.pDepartures = Q.pDepartures
  bDepartures : R.bDepartures = Q.bDepartures
  stored : R.stored.Perm (p :: Q.stored)

lemma takes_push : Takes Q p ((Q.arrive p).push p) where
  pArrivals := rfl
  bArrivals := rfl
  pDepartures := rfl
  bDepartures := rfl
  stored := by
    simp only [PacketQueue.stored, held, arrive, push, List.append_assoc]
    exact List.perm_middle

lemma takes_lose : Takes Q p ((Q.arrive p).lose p) where
  pArrivals := rfl
  bArrivals := rfl
  pDepartures := rfl
  bDepartures := rfl
  stored := by
    have hlast : (Q.held ++ (Q.dropped ++ [p])).Perm (p :: (Q.held ++ Q.dropped)) := by
      rw [← List.append_assoc]
      exact List.perm_append_singleton p _
    exact hlast

lemma takes_drop : Takes Q p ((Q.arrive p).drop p) :=
  ⟨rfl, rfl, rfl, rfl, takes_lose.stored⟩

lemma stored_dropFrom {i : ℕ} {r : Packet × List Packet} (h : takeAt i Q.packets = some r) :
    (Q.dropFrom r).stored.Perm Q.stored := by
  have hperm : Q.packets.Perm (r.1 :: r.2) := takeAt_perm h
  simp only [stored, held, dropFrom, drop, lose]
  refine List.Perm.trans ?_ ((hperm.append_right Q.simPackets).append_right Q.dropped).symm
  rw [← List.append_assoc]
  exact List.perm_append_singleton r.1 _

lemma takes_queueEnque : Takes Q p (Q.queueEnque K p) := by
  unfold queueEnque
  split_ifs
  · exact takes_push
  · exact takes_drop

/-- **What arrives** is counted and accounted for, in each class. -/
lemma takes_enque (lost : Bool) : Takes Q p (Q.enque K p lost) := by
  unfold enque
  split
  · exact takes_queueEnque
  · unfold pfabricEnque
    dsimp only
    split_ifs
    · cases hr : takeAt (worstIndex ((Q.arrive p).push p).packets)
          ((Q.arrive p).push p).packets with
      | none => exact takes_push
      | some r => exact ⟨rfl, rfl, rfl, rfl, (stored_dropFrom hr).trans takes_push.stored⟩
    · exact takes_push
  · unfold probDropEnque
    split_ifs
    · exact takes_push
    · exact takes_lose
  · unfold dctcpEnque
    split_ifs
    · exact takes_push
    · exact takes_drop
  · unfold snsEnque
    split_ifs
    · exact takes_queueEnque
    · refine ⟨rfl, rfl, rfl, rfl, ?_⟩
      have hlast : (Q.packets ++ (Q.simPackets ++ [p]) ++ Q.dropped).Perm
          (p :: (Q.packets ++ Q.simPackets ++ Q.dropped)) := by
        rw [← List.append_assoc, List.append_assoc _ [p]]
        exact List.perm_middle
      exact hlast
    · exact takes_drop

lemma enque_sublist (hsns : K.type ≠ .sns) (lost : Bool) :
    (Q.enque K p lost).packets.Sublist (Q.packets ++ [p]) ∧
      (Q.enque K p lost).simPackets = Q.simPackets := by
  have hpush : ((Q.arrive p).push p).packets.Sublist (Q.packets ++ [p]) := .refl _
  have hkeep : Q.packets.Sublist (Q.packets ++ [p]) := List.sublist_append_left _ _
  unfold enque
  split
  case h_1 =>
    unfold queueEnque
    split_ifs
    · exact ⟨hpush, rfl⟩
    · exact ⟨hkeep, rfl⟩
  case h_2 =>
    unfold pfabricEnque
    dsimp only
    split_ifs
    · cases hr : takeAt (worstIndex ((Q.arrive p).push p).packets)
          ((Q.arrive p).push p).packets with
      | none => exact ⟨hpush, rfl⟩
      | some r =>
        obtain ⟨q, -, rfl⟩ := Option.map_eq_some_iff.1 hr
        exact ⟨(List.eraseIdx_sublist _ _).trans hpush, rfl⟩
    · exact ⟨hpush, rfl⟩
  case h_3 =>
    unfold probDropEnque
    split_ifs
    · exact ⟨hpush, rfl⟩
    · exact ⟨hkeep, rfl⟩
  case h_4 =>
    unfold dctcpEnque
    split_ifs
    · exact ⟨hpush, rfl⟩
    · exact ⟨hkeep, rfl⟩
  case h_5 hK => exact absurd hK hsns

lemma enque_dropped (lost : Bool) : (Q.enque K p lost).dropped = Q.dropped ∨
    ∃ x, (Q.enque K p lost).dropped = Q.dropped ++ [x] := by
  unfold enque
  split
  · unfold queueEnque
    split_ifs
    · exact .inl rfl
    · exact .inr ⟨p, rfl⟩
  · unfold pfabricEnque
    dsimp only
    split_ifs
    · cases takeAt (worstIndex ((Q.arrive p).push p).packets) ((Q.arrive p).push p).packets with
      | none => exact .inl rfl
      | some r => exact .inr ⟨r.1, rfl⟩
    · exact .inl rfl
  · unfold probDropEnque
    split_ifs
    · exact .inl rfl
    · exact .inr ⟨p, rfl⟩
  · unfold dctcpEnque
    split_ifs
    · exact .inl rfl
    · exact .inr ⟨p, rfl⟩
  · unfold snsEnque queueEnque
    split_ifs
    · exact .inl rfl
    · exact .inr ⟨p, rfl⟩
    · exact .inl rfl
    · exact .inr ⟨p, rfl⟩

/-- **A packet that arrives** is held, or one packet is dropped of it and those that were held. -/
lemma enque_cases (lost : Bool) :
    (Q.enque K p lost).dropped = Q.dropped ∧ (Q.enque K p lost).held.Perm (p :: Q.held) ∨
      ∃ x, (Q.enque K p lost).dropped = Q.dropped ++ [x] ∧
        (p :: Q.held).Perm (x :: (Q.enque K p lost).held) := by
  have hstored : ((Q.enque K p lost).held ++ (Q.enque K p lost).dropped).Perm
      ((p :: Q.held) ++ Q.dropped) := (takes_enque lost).stored
  rcases enque_dropped (K := K) (Q := Q) (p := p) lost with hdrop | ⟨x, hdrop⟩
  · rw [hdrop] at hstored
    exact .inl ⟨hdrop, (List.perm_append_right_iff _).1 hstored⟩
  · refine .inr ⟨x, hdrop, ?_⟩
    rw [hdrop] at hstored
    have hmiddle : ((Q.enque K p lost).held ++ (Q.dropped ++ [x])).Perm
        ((x :: (Q.enque K p lost).held) ++ Q.dropped) := by
      rw [← List.append_assoc]
      exact List.perm_append_singleton x _
    exact (List.perm_append_right_iff _).1 (hstored.symm.trans hmiddle)

/-- **What leaves** was held. -/
lemma deque_cases {o : Option Packet} {R : PacketQueue} (h : Q.deque K = some (o, R)) :
    o = none ∧ Q.bytesInQueue = 0 ∧ R = Q ∨
      ∃ p ps, o = some p ∧ Q.packets.Perm (p :: ps) ∧ R = Q.depart (p, ps) := by
  unfold deque at h
  split_ifs at h with hbytes
  · obtain ⟨⟨p, ps⟩, htake, h⟩ := Option.map_eq_some_iff.1 h
    obtain ⟨rfl, rfl⟩ := Prod.mk.inj h
    exact .inr ⟨p, ps, rfl, take_perm htake, rfl⟩
  · obtain ⟨rfl, rfl⟩ := Prod.mk.inj (Option.some.inj h)
    exact .inl ⟨rfl, Nat.eq_zero_of_not_pos hbytes, rfl⟩

lemma stored_depart {ps : List Packet} (h : Q.packets.Perm (p :: ps)) :
    Q.stored.Perm (p :: (Q.depart (p, ps)).stored) :=
  (h.append_right _).append_right _

/-! ### In the order they came -/

lemma takeAt_zero (p : Packet) (ps : List Packet) : takeAt 0 (p :: ps) = some (p, ps) := rfl

lemma fifo_take (hK : K.Fifo) {ps rest : List Packet} :
    take K ps = some (p, rest) ↔ ps = p :: rest := by
  have htake : take K ps = takeAt 0 ps := by
    unfold take
    rcases hK with h | h | h <;> rw [h]
  rw [htake]
  cases ps with
  | nil => simp [takeAt]
  | cons q ps => simp [takeAt_zero]

lemma fifo_enque (hK : K.Fifo) (lost : Bool) :
    (Q.enque K p lost).packets = Q.packets ++ [p] ∧
        (Q.enque K p lost).bytesInQueue = add32 Q.bytesInQueue p.size ∧
        add32 Q.bytesInQueue p.size ≤ K.limitBytes ∨
      (Q.enque K p lost).packets = Q.packets ∧
        (Q.enque K p lost).bytesInQueue = Q.bytesInQueue := by
  unfold enque
  rcases hK with h | h | h <;> rw [h]
  · show _ ∧ (Q.queueEnque K p).bytesInQueue = _ ∧ _ ∨ _
    unfold queueEnque
    split_ifs with hfit
    · exact .inl ⟨rfl, rfl, hfit.1⟩
    · exact .inr ⟨rfl, rfl⟩
  · show _ ∧ (Q.probDropEnque K p lost).bytesInQueue = _ ∧ _ ∨ _
    unfold probDropEnque
    split_ifs with hfit
    · exact .inl ⟨rfl, rfl, hfit.1⟩
    · exact .inr ⟨rfl, rfl⟩
  · show _ ∧ (Q.dctcpEnque K p).bytesInQueue = _ ∧ _ ∨ _
    unfold dctcpEnque
    split_ifs with hfit
    · exact .inl ⟨rfl, rfl, hfit⟩
    · exact .inr ⟨rfl, rfl⟩

end PacketQueue

end DcSim
