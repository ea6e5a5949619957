import DcSim.QueueCounters
import Mathlib.Algebra.BigOperators.Group.List.Basic

/-!
The counters of a `SnsQueue` and what they count.

`current_data` and `current_sim` are kept beside `bytes_in_queue` and the two lists, and change
with them in the two `enque`s, in `deque` and in `SnsQueueProcessingEvent`. The test that a packet
fits in is made with the `uint32_t` sum of `bytes_in_queue` and its size.
-/

namespace DcSim

open Runs Word32 PacketQueue

structure SnsBufferSpec where
  -- `limit_bytes` is compared as a `uint32_t`, and `param_b` is read as an `int`.
  limitBytes : ℕ
  paramB : ℤ
  limitBytes_lt : limitBytes < 4294967296
  paramB_lt : paramB < 2147483648

/-- `sim_queue_size` is compared as a `size_t`. -/
def SnsBufferSpec.queueSpec (K : SnsBufferSpec) : QueueSpec :=
  ⟨.sns, K.limitBytes, false, (K.paramB % 18446744073709551616).toNat⟩

structure SnsBuffer where
  queue : PacketQueue
  currentData : ℕ
  currentSim : ℕ

namespace SnsBuffer

variable (K : SnsBufferSpec) (B : SnsBuffer) (p : Packet)

def init : SnsBuffer := ⟨.init, 0, 0⟩

/-- A packet is accepted by `Queue::enque`. -/
def Fits : Prop := add32 B.queue.bytesInQueue p.size ≤ K.limitBytes ∧ p.size ≠ 4294967295

instance : Decidable (B.Fits K p) := inferInstanceAs (Decidable (_ ∧ _))

/-- `Queue::enque` -/
def queueEnque : SnsBuffer :=
  { B with
    queue := B.queue.queueEnque K.queueSpec p
    currentData :=
      if B.Fits K p ∧ p.snsType = .data then add32 B.currentData 1 else B.currentData }

def enque : SnsBuffer :=
  if p.snsType ≠ .sim then B.queueEnque K p
  else if B.queue.simPackets.length < K.queueSpec.simQueueSize ∧ p.size ≠ 4294967295 then
    { B with queue := B.queue.snsEnque K.queueSpec p, currentSim := add32 B.currentSim 1 }
  else { B with queue := B.queue.snsEnque K.queueSpec p }

/-- `SnsQueue::deque`, with the packet it returns. -/
def deque : Option (Option Packet × SnsBuffer) :=
  (B.queue.deque K.queueSpec).map fun r => (r.1, { B with
    queue := r.2
    currentData := r.1.elim B.currentData fun p =>
      if p.snsType = .data then sub32 B.currentData 1 else B.currentData })

/-- A SIM is taken out for a token. -/
def takeSim (sims : List Packet) : SnsBuffer :=
  { B with
    queue := { B.queue with freeTokens := B.queue.freeTokens - 1, simPackets := sims }
    currentSim := sub32 B.currentSim 1 }

/-- `SnsQueueProcessingEvent::process_event` -/
def snsQueueProcessing : SnsBuffer :=
  match B.queue.simPackets with
  | [] => B
  | p :: sims => if B.queue.freeTokens < 1 then B else (B.takeSim sims).queueEnque K p

/-- A packet comes that the queue does not hold. -/
def next : QueueAct → Option SnsBuffer
  | .enque p _ =>
    if 0 < p.size ∧ p.size < 4294967296 ∧ p ∉ B.queue.held then some (B.enque K p) else none
  | .deque => (B.deque K).map (·.2)
  | .snsQueueProcessing => some (B.snsQueueProcessing K)
  | .fillTokenBucket => some { B with queue := B.queue.addToken }

def machine : Machine SnsBuffer QueueAct := ⟨init, next K⟩

def dataPackets (ps : List Packet) : ℕ := ps.countP (·.snsType = .data)

structure Represents (K : SnsBufferSpec) (B : SnsBuffer) : Prop where
  bytes : B.queue.bytesInQueue = (B.queue.packets.map (·.size)).sum
  bytes_le : B.queue.bytesInQueue ≤ K.limitBytes
  data : B.currentData = dataPackets B.queue.packets
  sim : B.currentSim = B.queue.simPackets.length
  sim_le : (B.currentSim : ℤ) ≤ K.paramB
  tokens_le : B.queue.freeTokens ≤ 2
  nodup : B.queue.held.Nodup

/-- A packet that is accepted does not make the sum wrap. -/
def AcceptsTruly (p : Packet) : Prop :=
  B.Fits K p → B.queue.bytesInQueue + p.size < 4294967296

instance : Decidable (B.AcceptsTruly K p) := inferInstanceAs (Decidable (_ → _))

/-- No packet is accepted with a sum that wraps: neither one that comes nor a SIM that is let go. -/
def AcceptsInWord (B : SnsBuffer) : QueueAct → Prop
  | .enque p _ => p.snsType ≠ .sim → B.AcceptsTruly K p
  | .snsQueueProcessing =>
    1 ≤ B.queue.freeTokens → ∀ p ∈ B.queue.simPackets.head?, B.AcceptsTruly K p
  | .deque | .fillTokenBucket => True

instance (B : SnsBuffer) : ∀ a, Decidable (AcceptsInWord K B a)
  | .enque _ _ => inferInstanceAs (Decidable (_ → _))
  | .snsQueueProcessing => inferInstanceAs (Decidable (_ → _))
  | .deque | .fillTokenBucket => .isTrue trivial

structure Sound (K : SnsBufferSpec) (B : SnsBuffer) : Prop extends Represents K B where
  size_pos : ∀ p ∈ B.queue.held, 0 < p.size

variable {K B p} {R : SnsBuffer} {a : QueueAct}

/-! ### The steps -/

lemma dataPackets_append (ps : List Packet) (p : Packet) :
    dataPackets (ps ++ [p]) = dataPackets ps + if p.snsType = .data then 1 else 0 := by
  simp [dataPackets, List.countP_append, List.countP_singleton]

lemma dataPackets_perm {ps qs : List Packet} (h : ps.Perm (p :: qs)) :
    dataPackets ps = dataPackets qs + if p.snsType = .data then 1 else 0 := by
  unfold dataPackets
  rw [h.countP_eq, List.countP_cons]
  simp

lemma length_le_sum {ps : List Packet} (h : ∀ p ∈ ps, 0 < p.size) :
    ps.length ≤ (ps.map (·.size)).sum := by
  rw [← List.length_map (·.size)]
  refine List.length_le_sum_of_one_le _ fun n hn => ?_
  obtain ⟨p, hp, rfl⟩ := List.mem_map.1 hn
  exact h p hp

lemma Sound.packets_pos (h : Sound K B) : ∀ p ∈ B.queue.packets, 0 < p.size := fun p hp =>
  h.size_pos p (List.mem_append_left _ hp)

lemma queueEnque_fits (hfits : B.Fits K p) : B.queueEnque K p = { B with
    queue := (B.queue.arrive p).push p
    currentData := if p.snsType = .data then add32 B.currentData 1 else B.currentData } := by
  have hqueue : B.queue.queueEnque K.queueSpec p = (B.queue.arrive p).push p := if_pos hfits
  simp only [queueEnque, hqueue, hfits, true_and]

lemma queueEnque_drops (hfits : ¬ B.Fits K p) : B.queueEnque K p = { B with
    queue := (B.queue.arrive p).drop p } := by
  have hqueue : B.queue.queueEnque K.queueSpec p = (B.queue.arrive p).drop p := if_neg hfits
  simp only [queueEnque, hqueue, hfits, false_and, if_false]

lemma Sound.queueEnque (h : Sound K B) (hp : 0 < p.size) (hnew : p ∉ B.queue.held)
    (htruly : B.AcceptsTruly K p) : Sound K (B.queueEnque K p) := by
  by_cases hfits : B.Fits K p
  · have hlt := htruly hfits
    have hbytes : add32 B.queue.bytesInQueue p.size =
        ((B.queue.packets ++ [p]).map (·.size)).sum := by
      rw [add32_eq hlt, sum_append, h.bytes]
    have hpos : ∀ q ∈ B.queue.packets ++ [p], 0 < q.size :=
      List.forall_mem_append.2 ⟨h.packets_pos, List.forall_mem_singleton.2 hp⟩
    have hheld : (B.queue.packets ++ [p] ++ B.queue.simPackets).Perm (p :: B.queue.held) := by
      rw [List.append_assoc]
      exact List.perm_middle
    have hdata : (if p.snsType = .data then add32 B.currentData 1 else B.currentData) =
        dataPackets (B.queue.packets ++ [p]) := by
      have hlength := length_le_sum hpos
      have hle : dataPackets B.queue.packets ≤ B.queue.packets.length := List.countP_le_length
      rw [← hbytes, add32_eq hlt, List.length_append, List.length_singleton] at hlength
      rw [dataPackets_append, h.data]
      split_ifs
      · exact add32_eq (by omega)
      · rfl
    rw [queueEnque_fits hfits]
    exact ⟨⟨hbytes, hfits.1, hdata, h.sim, h.sim_le, h.tokens_le,
      hheld.nodup_iff.2 (List.nodup_cons.2 ⟨hnew, h.nodup⟩)⟩,
      fun q hq => (List.mem_cons.1 (hheld.mem_iff.1 hq)).elim (· ▸ hp) (h.size_pos q)⟩
  · rw [queueEnque_drops hfits]
    exact ⟨⟨h.bytes, h.bytes_le, h.data, h.sim, h.sim_le, h.tokens_le, h.nodup⟩, h.size_pos⟩

lemma not_represents_queueEnque (h : B.queue.bytesInQueue = (B.queue.packets.map (·.size)).sum)
    (htruly : ¬ B.AcceptsTruly K p) : ¬ Represents K (B.queueEnque K p) := by
  obtain ⟨hfits, hwrap⟩ := Classical.not_imp.1 htruly
  intro hR
  have hbytes := hR.bytes
  rw [queueEnque_fits hfits] at hbytes
  have hbytes : add32 B.queue.bytesInQueue p.size =
    ((B.queue.packets ++ [p]).map (·.size)).sum := hbytes
  have hlt : add32 B.queue.bytesInQueue p.size < 4294967296 := Nat.mod_lt _ (by decide)
  rw [hbytes, sum_append, ← h] at hlt
  exact hwrap hlt

lemma Sound.enque_sim (h : Sound K B) (hp : 0 < p.size) (hnew : p ∉ B.queue.held)
    (hsim : p.snsType = .sim) : Sound K (B.enque K p) := by
  have hparam : 0 ≤ K.paramB := (Int.natCast_nonneg _).trans h.sim_le
  unfold SnsBuffer.enque
  rw [if_neg (not_not.2 hsim)]
  split_ifs with hroom
  · have hqueue : B.queue.snsEnque K.queueSpec p =
        { B.queue.arrive p with simPackets := B.queue.simPackets ++ [p] } := by
      rw [snsEnque, if_neg (not_not.2 hsim), if_pos hroom]
    have hroom : (B.queue.simPackets.length : ℤ) < K.paramB := by
      have hlt := hroom.1
      have := K.paramB_lt
      unfold SnsBufferSpec.queueSpec at hlt
      dsimp only at hlt
      omega
    have hsims : add32 B.currentSim 1 = (B.queue.simPackets ++ [p]).length := by
      rw [List.length_append, List.length_singleton, ← h.sim]
      refine add32_eq ?_
      have := K.paramB_lt
      have := h.sim
      omega
    have hheld : (B.queue.packets ++ (B.queue.simPackets ++ [p])).Perm (p :: B.queue.held) := by
      rw [← List.append_assoc]
      exact List.perm_append_singleton _ _
    rw [hqueue]
    refine ⟨⟨h.bytes, h.bytes_le, h.data, hsims, ?_, h.tokens_le,
      hheld.nodup_iff.2 (List.nodup_cons.2 ⟨hnew, h.nodup⟩)⟩,
      fun q hq => (List.mem_cons.1 (hheld.mem_iff.1 hq)).elim (· ▸ hp) (h.size_pos q)⟩
    dsimp only
    rw [hsims, List.length_append, List.length_singleton]
    exact_mod_cast hroom
  · have hqueue : B.queue.snsEnque K.queueSpec p = (B.queue.arrive p).drop p := by
      rw [snsEnque, if_neg (not_not.2 hsim), if_neg hroom]
    rw [hqueue]
    exact ⟨⟨h.bytes, h.bytes_le, h.data, h.sim, h.sim_le, h.tokens_le, h.nodup⟩, h.size_pos⟩

lemma Sound.takeSim (h : Sound K B) {sims : List Packet} (hsims : B.queue.simPackets = p :: sims) :
    Sound K (B.takeSim sims) ∧ p ∉ (B.takeSim sims).queue.held ∧ 0 < p.size := by
  have hheld : B.queue.held.Perm (p :: (B.queue.packets ++ sims)) := by
    unfold held
    rw [hsims]
    exact List.perm_middle
  obtain ⟨hnew, hnodup⟩ := List.nodup_cons.1 (hheld.nodup_iff.1 h.nodup)
  have hlength : B.currentSim = sims.length + 1 := by rw [h.sim, hsims, List.length_cons]
  have hcurrent : sub32 B.currentSim 1 = sims.length := by
    have hle := h.sim_le
    have := K.paramB_lt
    rw [sub32_eq (by omega) (by omega)]
    omega
  have hle := h.sim_le
  refine ⟨⟨⟨h.bytes, h.bytes_le, h.data, hcurrent, ?_, ?_, hnodup⟩, fun q hq => ?_⟩, hnew,
    h.size_pos p (hheld.mem_iff.2 List.mem_cons_self)⟩
  · show ((sub32 B.currentSim 1 : ℕ) : ℤ) ≤ K.paramB
    omega
  · exact (Nat.sub_le _ _).trans h.tokens_le
  · exact h.size_pos q (hheld.mem_iff.2 (List.mem_cons_of_mem _ hq))

lemma Sound.deque (h : Sound K B) {o : Option Packet} (hdeque : B.deque K = some (o, R)) :
    Sound K R := by
  obtain ⟨⟨o', Q⟩, hqueue, heq⟩ := Option.map_eq_some_iff.1 hdeque
  obtain ⟨rfl, rfl⟩ := Prod.mk.inj heq
  rcases deque_cases hqueue with ⟨rfl, -, rfl⟩ | ⟨p, ps, rfl, hps, rfl⟩
  · exact h
  · have hheld : B.queue.held.Perm (p :: (ps ++ B.queue.simPackets)) := hps.append_right _
    have hsum := sum_perm hps
    have hlt := K.limitBytes_lt
    have hle := h.bytes_le
    have hbytes : sub32 B.queue.bytesInQueue p.size = (ps.map (·.size)).sum := by
      rw [h.bytes] at hle ⊢
      rw [sub32_eq (by omega) (by omega)]
      omega
    have hdata : (if p.snsType = .data then sub32 B.currentData 1 else B.currentData) =
        dataPackets ps := by
      have hperm := dataPackets_perm hps
      have hcount : dataPackets B.queue.packets ≤ B.queue.packets.length := List.countP_le_length
      have hlength := length_le_sum h.packets_pos
      rw [h.bytes] at hle
      rw [h.data]
      split_ifs with htype
      · rw [if_pos htype] at hperm
        rw [sub32_eq (by omega) (by omega)]
        omega
      · rw [if_neg htype] at hperm
        exact hperm
    have hbytes_le : sub32 B.queue.bytesInQueue p.size ≤ K.limitBytes := by
      rw [hbytes]
      rw [h.bytes] at hle
      omega
    exact ⟨⟨hbytes, hbytes_le, hdata, h.sim, h.sim_le, h.tokens_le,
      (List.nodup_cons.1 (hheld.nodup_iff.1 h.nodup)).2⟩,
      fun q hq => h.size_pos q (hheld.mem_iff.2 (List.mem_cons_of_mem _ hq))⟩

lemma Sound.addToken (h : Sound K B) : Sound K { B with queue := B.queue.addToken } := by
  unfold PacketQueue.addToken
  split_ifs with hlt
  · exact ⟨⟨h.bytes, h.bytes_le, h.data, h.sim, h.sim_le, hlt, h.nodup⟩, h.size_pos⟩
  · exact h

lemma snsQueueProcessing_cases (K : SnsBufferSpec) (B : SnsBuffer) :
    ((1 ≤ B.queue.freeTokens → B.queue.simPackets.head? = none) ∧ B.snsQueueProcessing K = B) ∨
    ∃ p sims, 1 ≤ B.queue.freeTokens ∧ B.queue.simPackets = p :: sims ∧
      B.snsQueueProcessing K = (B.takeSim sims).queueEnque K p := by
  unfold snsQueueProcessing
  split
  case h_1 hsims => exact .inl ⟨fun _ => by rw [hsims]; rfl, rfl⟩
  case h_2 p sims hsims =>
    split_ifs with htokens
    · exact .inl ⟨fun h => absurd htokens (not_lt.2 h), rfl⟩
    · exact .inr ⟨p, sims, not_lt.1 htokens, hsims, rfl⟩

lemma Sound.next (h : Sound K B) (hC : AcceptsInWord K B a) (hn : next K B a = some R) :
    Sound K R := by
  cases a with
  | enque p lost =>
    obtain ⟨⟨hp, -, hnew⟩, hn⟩ := Option.ite_none_right_eq_some.1 hn
    obtain rfl := Option.some.inj hn
    by_cases hsim : p.snsType = .sim
    · exact h.enque_sim hp hnew hsim
    · rw [SnsBuffer.enque, if_pos hsim]
      exact h.queueEnque hp hnew (hC hsim)
  | deque =>
    obtain ⟨⟨o, R'⟩, hdeque, rfl⟩ := Option.map_eq_some_iff.1 hn
    exact h.deque hdeque
  | snsQueueProcessing =>
    obtain rfl := Option.some.inj hn
    rcases snsQueueProcessing_cases K B with ⟨-, hr⟩ | ⟨p, sims, htoken, hsims, hr⟩
    · rwa [hr]
    · obtain ⟨hB, hnew, hp⟩ := h.takeSim hsims
      rw [hr]
      exact hB.queueEnque hp hnew (hC htoken p (by simp [hsims]))
  | fillTokenBucket => exact Option.some.inj hn ▸ h.addToken

lemma Sound.not_represents_next (h : Sound K B) (hC : ¬ AcceptsInWord K B a)
    (hn : SnsBuffer.next K B a = some R) : ¬ Represents K R := by
  cases a with
  | enque p lost =>
    obtain ⟨-, hn⟩ := Option.ite_none_right_eq_some.1 hn
    obtain rfl := Option.some.inj hn
    obtain ⟨hsim, htruly⟩ := Classical.not_imp.1 hC
    rw [SnsBuffer.enque, if_pos hsim]
    exact not_represents_queueEnque h.bytes htruly
  | snsQueueProcessing =>
    obtain rfl := Option.some.inj hn
    obtain ⟨htoken, hnot⟩ := Classical.not_imp.1 hC
    rcases snsQueueProcessing_cases K B with ⟨hnone, -⟩ | ⟨p, sims, -, hsims, hr⟩
    · exact absurd (by simp [hnone htoken]) hnot
    · have htruly : ¬ (B.takeSim sims).AcceptsTruly K p := fun htruly =>
        hnot fun q hq => by
          obtain rfl : p = q := by simpa [hsims] using hq
          exact htruly
      rw [hr]
      exact not_represents_queueEnque h.bytes htruly
  | deque | fillTokenBucket => exact absurd trivial hC

/-- **The counters of a `SnsQueue` say what it holds** all along a run exactly if `param_b` is not
negative and no packet is accepted with a sum of bytes that wraps. -/
theorem represents_iff (K : SnsBufferSpec) (as : List QueueAct) :
    Always (machine K) (Represents K) init as ↔
      0 ≤ K.paramB ∧ Along (machine K) (AcceptsInWord K) init as := by
  by_cases hparam : 0 ≤ K.paramB
  · have hinit : Sound K init :=
      ⟨⟨rfl, Nat.zero_le _, rfl, rfl, hparam, Nat.zero_le _, List.nodup_nil⟩, nofun⟩
    rw [and_iff_right hparam]
    exact always_iff_along (M := machine K) Sound.toRepresents (fun h hC hn => h.next hC hn)
      (fun h hC hn => h.not_represents_next hC hn) as hinit
  · exact iff_of_false (fun h => hparam h.head.sim_le) fun h => hparam h.1

/-- The default limits, of 24 packets and of twelve SIMs. -/
def exampleSpec : SnsBufferSpec := ⟨36864, 12, by decide, by decide⟩

/-- A DATA packet waits when one comes whose size is just below `2 ^ 32`. -/
theorem not_represents_wideSum : ¬ Always (machine exampleSpec) (Represents exampleSpec) init
    [.enque (examplePacket .data 1500) false, .enque (examplePacket .data 4294966296) false] := by
  have hrun : (exec (machine exampleSpec) init
      [.enque (examplePacket .data 1500) false,
        .enque (examplePacket .data 4294966296) false]).any (fun B =>
      ¬ B.queue.bytesInQueue = (B.queue.packets.map (·.size)).sum) = true := by
    decide +kernel
  obtain ⟨B, hB, hbytes⟩ := exists_exec_of_any hrun
  exact fun halways => hbytes (halways.last hB).bytes

end SnsBuffer

end DcSim
