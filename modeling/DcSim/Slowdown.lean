import DcSim.LeafSpineNetwork

/-!
The slowdown of a flow in a leaf-spine network.

`get_oracle_fct` is the time that a flow would take alone, and `FlowFinishedEvent` asserts that no
flow is faster. It counts the transmissions of all packets on the first link, the way of the last
one and the way of its ACK, in unsigned 32-bit arithmetic where the sizes are added up. It takes
half of the bandwidth of the core with `core_div_2`, although the switches do not.
-/

namespace DcSim.LeafSpineNetwork

open Runs Segments Word32

variable (N : LeafSpineNetwork) (φ : FlowSpec)

/-! ### The oracle -/

def coreBw : ℚ := if N.coreDiv2 then N.c2 / 2 else N.c2

def numHops : ℕ := if N.toLeafSpine.IsSameRack φ.src φ.dst then 2 else 4

/-- The propagation delays of `get_oracle_fct`, in microseconds. -/
def oraclePropagationDelay : ℚ :=
  if N.ddc then if N.numHops φ = 2 then 440 / 1000 else 2040 / 1000
  else 2 * 1000000 * N.numHops φ * N.propagationDelay

/-- The transmission delays of `get_oracle_fct`, in microseconds. -/
def oracleTransmissionDelay : ℚ :=
  let bandwidth := N.bandwidth / 1000000
  let coreBandwidth := N.coreBw / 1000000
  if N.cutThrough then
    let np := φ.size / φ.mss
    ((add32 (mul32 np (add32 φ.mss N.hdrSize)) N.hdrSize : ℕ) + 2 * N.hdrSize) * 8 / bandwidth +
      if N.numHops φ = 4 then (mul32 2 (mul32 2 N.hdrSize) : ℕ) * 8 / coreBandwidth else 0
  else
    (φ.inclOverheadBytes + φ.hdrSize) * 8 / bandwidth +
      (if N.numHops φ = 4 then (mul32 2 (N.lastBytes φ) : ℕ) * 8 / coreBandwidth else 0) +
        N.lastBytes φ * 8 / bandwidth

/-- `get_oracle_fct`, in microseconds. -/
def getOracleFct : ℚ := N.oraclePropagationDelay φ + N.oracleTransmissionDelay φ

/-- `slowdown` of `FlowFinishedEvent` -/
def slowdown (f : Flow PFabric) : ℚ :=
  1000000 * (f.finishTime - φ.startTime) / N.getOracleFct φ

/-! ### The ways -/

/-- The time from one queue on, for a packet of a size between two hosts. -/
def timeLeft (a b : HostId) (size : ℕ) : PlainLeafQueue → Time :=
  let down := N.legTime size N.bandwidth 3
  let core := N.legTime (N.handed size) N.c2 2 + down
  let up := N.legTime (N.handed size) N.c2 1 + core
  fun
  | .leaf (.host _) => N.legTime (N.handed size) N.bandwidth 0 +
      if N.toLeafSpine.IsSameRack a b then down else up
  | .leaf (.agg _ j) => if j < N.hostsPerAggSwitch then down else up
  | .leaf (.core _ _) => core
  | .toArbiter => 0

variable {N φ} {a b : HostId} {size : ℕ} {sc : PlainLeafQueue → ℕ}

lemma handingDelay_some (q : PlainLeafQueue) (p : Packet) (r : PlainLeafQueue) :
    (N.spec sc).handingDelay q p (some r) =
      N.legTime (N.handed p.size) (N.rate q) (N.location q) := by
  unfold NetworkSpec.handingDelay NetworkSpec.getTransmissionDelay LinkParams.legTime
    LinkParams.handed
  simp [spec]

lemma handingDelay_none (q : PlainLeafQueue) (p : Packet) :
    (N.spec sc).handingDelay q p none = N.legTime p.size (N.rate q) (N.location q) := by
  unfold NetworkSpec.handingDelay NetworkSpec.getTransmissionDelay LinkParams.legTime
  simp [spec]

lemma takes_timeLeft (ha : a < N.numHosts) (hb : b < N.numHosts) {c : Packet → Bool}
    (hc : ∀ p, c p = true → p.src = a ∧ p.dst = b ∧ p.size = size) :
    Network.Takes (N.spec sc) c (N.timeLeft a b size) := by
  intro p hp q n n' hop hnext
  obtain ⟨rfl, rfl, rfl⟩ := hc p hp
  obtain ⟨l, r, s, rfl, rfl, hroute⟩ := route_of_next ha hb hnext
  have hport : hashPort N.mode N.numCoreSwitches s 0 p < N.numCoreSwitches :=
    hashPort_lt p N.sized.core_pos fun h => absurd h N.mode_ne
  cases leg_of_route ha hb hport hroute with
  | rack hrack hj =>
    rw [Option.map_some, handingDelay_some]
    simp [timeLeft, rate, location, hrack, hj]
  | up hrack hj =>
    rw [Option.map_some, handingDelay_some]
    simp [timeLeft, rate, location, hrack, not_lt.2 hj]
  | spine hj =>
    rw [Option.map_some, handingDelay_some]
    simp [timeLeft, rate, location, not_lt.2 hj]
  | across hj =>
    rw [Option.map_some, handingDelay_some]
    simp [timeLeft, rate, location, hj]
  | down hj =>
    rw [Option.map_none, handingDelay_none]
    simp [timeLeft, rate, location, hj]

variable (N) in
/-- The time from a host on, but for the transmission of the whole packet on the last link. -/
def restTime (a b : HostId) (size : ℕ) : Time :=
  N.handed size * (8 / N.bandwidth) + N.delayAt 0 + N.delayAt 3 +
    if N.toLeafSpine.IsSameRack a b then 0
    else 2 * (N.handed size * (8 / N.c2)) + N.delayAt 1 + N.delayAt 2

lemma timeLeft_host (id : HostId) : N.timeLeft a b size (.leaf (.host id)) =
    size * (8 / N.bandwidth) + N.restTime a b size := by
  unfold timeLeft restTime LinkParams.legTime
  dsimp only
  split_ifs <;> ring

lemma restTime_mono : Monotone (N.restTime a b) := fun size size' h => by
  have hhanded : (N.handed size : ℚ) ≤ N.handed size' := Nat.cast_le.2 (N.handed_mono h)
  have hb : 0 ≤ 8 / N.bandwidth := div_nonneg (by norm_num) N.bandwidth_pos.le
  have hc : 0 ≤ 8 / N.c2 := div_nonneg (by norm_num) N.c2_pos.le
  unfold restTime
  split_ifs <;> gcongr

variable (N φ) in
/-- The time to the arrival of the last segment, at least. -/
def dataTime : Time :=
  φ.allBytes * (8 / N.bandwidth) + N.restTime φ.src φ.dst φ.lastSize

lemma ways (ha : φ.src < N.numHosts) (hb : φ.dst < N.numHosts) :
    NetworkFlow.Ways (N.spec sc) φ
      (fun x => N.timeLeft φ.src φ.dst (payload φ.mss φ.size x + φ.hdrSize))
      (N.timeLeft φ.dst φ.src φ.hdrSize) (N.dataTime φ) :=
  NetworkFlow.ways_of_rest rfl restTime_mono (fun _ => timeLeft_host φ.src)
    (fun _ _ hc => takes_timeLeft ha hb hc) fun _ hc => takes_timeLeft hb ha hc

/-! ### The oracle is no more than that -/

lemma isSameRack_comm : N.toLeafSpine.IsSameRack a b ↔ N.toLeafSpine.IsSameRack b a := eq_comm

lemma oraclePropagationDelay_eq : N.oraclePropagationDelay φ =
    1000000 * (2 * (N.delayAt 0 + N.delayAt 3) +
      if N.toLeafSpine.IsSameRack φ.src φ.dst then 0
      else 2 * (N.delayAt 1 + N.delayAt 2)) := by
  unfold oraclePropagationDelay numHops LinkParams.delayAt
  by_cases hrack : N.toLeafSpine.IsSameRack φ.src φ.dst <;> cases N.ddc <;>
    norm_num [hrack]
  · ring
  · ring

lemma oracleTransmissionDelay_le (hhdr : φ.hdrSize = N.hdrSize) (hcore : N.coreDiv2 = false) :
    N.oracleTransmissionDelay φ ≤
      1000000 * ((φ.allBytes + N.handed φ.lastSize + φ.hdrSize + N.handed φ.hdrSize) *
          (8 / N.bandwidth) +
        if N.toLeafSpine.IsSameRack φ.src φ.dst then 0
        else (2 * N.handed φ.lastSize + 2 * N.handed φ.hdrSize) * (8 / N.c2)) := by
  have hb : 0 ≤ 8 / N.bandwidth := div_nonneg (by norm_num) N.bandwidth_pos.le
  have hc : 0 ≤ 8 / N.c2 := div_nonneg (by norm_num) N.c2_pos.le
  have hmicro : ∀ x r : ℚ, x * 8 / (r / 1000000) = 1000000 * (x * (8 / r)) := fun x r => by
    rw [div_div_eq_mul_div]
    ring
  unfold oracleTransmissionDelay coreBw
  simp only [hcore, Bool.false_eq_true, if_false, hmicro]
  have hhops : N.numHops φ = 4 ↔ ¬ N.toLeafSpine.IsSameRack φ.src φ.dst := by
    unfold numHops
    split_ifs <;> simp_all
  simp only [hhops, ite_not]
  cases hcut : N.cutThrough with
  | true =>
    have hhanded : ∀ z, N.handed z = N.hdrSize := fun z => by simp [LinkParams.handed, hcut]
    have hbytes : ((add32 (mul32 (φ.size / φ.mss) (add32 φ.mss N.hdrSize)) N.hdrSize : ℕ) : ℚ) ≤
        φ.allBytes + N.hdrSize := by
      have h₁ := add32_le (mul32 (φ.size / φ.mss) (add32 φ.mss N.hdrSize)) N.hdrSize
      have h₂ := mul32_le (φ.size / φ.mss) (add32 φ.mss N.hdrSize)
      have h₃ := Nat.mul_le_mul_left (φ.size / φ.mss) (add32_le φ.mss N.hdrSize)
      have hall := FlowSpec.allBytes_eq (φ := φ)
      rw [Nat.mul_comm, hhdr] at hall
      exact_mod_cast (by omega : _ ≤ φ.allBytes + N.hdrSize)
    have hacks : ((mul32 2 (mul32 2 N.hdrSize) : ℕ) : ℚ) ≤ 4 * N.hdrSize := by
      have h₁ := mul32_le 2 (mul32 2 N.hdrSize)
      have h₂ := mul32_le 2 N.hdrSize
      exact_mod_cast (by omega : _ ≤ 4 * N.hdrSize)
    simp only [if_true, hhanded, hhdr]
    have h₁ := mul_le_mul_of_nonneg_right hbytes hb
    have h₂ := mul_le_mul_of_nonneg_right hacks hc
    split_ifs <;> linarith
  | false =>
    have hhanded : ∀ z, N.handed z = z := fun z => by simp [LinkParams.handed, hcut]
    have hbytes : (φ.inclOverheadBytes : ℚ) ≤ φ.allBytes :=
      Nat.cast_le.2 FlowSpec.inclOverheadBytes_le
    have hlast : (N.lastBytes φ : ℚ) ≤ φ.lastSize + φ.hdrSize := by
      exact_mod_cast FlowSpec.lastBytes_le hhdr
    have htwice : ((mul32 2 (N.lastBytes φ) : ℕ) : ℚ) ≤ 2 * (φ.lastSize + φ.hdrSize) := by
      exact_mod_cast (mul32_le 2 _).trans (Nat.mul_le_mul_left 2 (FlowSpec.lastBytes_le hhdr))
    simp only [Bool.false_eq_true, if_false, hhanded]
    have h₁ := mul_le_mul_of_nonneg_right hbytes hb
    have h₂ := mul_le_mul_of_nonneg_right hlast hb
    have h₃ := mul_le_mul_of_nonneg_right htwice hc
    split_ifs <;> linarith

lemma coreBw_pos : 0 < N.coreBw := by
  have hc := N.c2_pos
  unfold coreBw
  split_ifs
  · exact half_pos hc
  · exact hc

lemma getOracleFct_pos (hhdr : φ.hdrSize = N.hdrSize) (hpos : 0 < φ.hdrSize) :
    0 < N.getOracleFct φ := by
  have hb : 0 < N.bandwidth / 1000000 := div_pos N.bandwidth_pos (by norm_num)
  have hc : 0 < N.coreBw / 1000000 := div_pos N.coreBw_pos (by norm_num)
  have hprop : 0 ≤ N.oraclePropagationDelay φ := by
    have := N.propagationDelay_nonneg
    unfold oraclePropagationDelay
    split_ifs <;> positivity
  have hpos' : 0 < N.hdrSize := hhdr ▸ hpos
  refine add_pos_of_nonneg_of_pos hprop ?_
  unfold oracleTransmissionDelay
  dsimp only
  generalize N.bandwidth / 1000000 = bandwidth at hb ⊢
  generalize N.coreBw / 1000000 = coreBandwidth at hc ⊢
  split_ifs <;> positivity

/-- **The oracle is no more than the network takes**, if the core has the bandwidth it counts. -/
lemma getOracleFct_le (hhdr : φ.hdrSize = N.hdrSize) (hcore : N.coreDiv2 = false) :
    N.getOracleFct φ ≤
      1000000 * (N.dataTime φ + N.timeLeft φ.dst φ.src φ.hdrSize (.leaf (.host φ.dst))) := by
  have htransmission := oracleTransmissionDelay_le hhdr hcore
  have hprop := oraclePropagationDelay_eq (N := N) (φ := φ)
  unfold getOracleFct dataTime
  rw [timeLeft_host, restTime, restTime, hprop]
  by_cases hrack : N.toLeafSpine.IsSameRack φ.src φ.dst
  · rw [if_pos hrack] at htransmission ⊢
    rw [if_pos hrack, if_pos (isSameRack_comm.1 hrack)]
    linarith
  · rw [if_neg hrack] at htransmission ⊢
    rw [if_neg hrack, if_neg fun h => hrack (isSameRack_comm.1 h)]
    linarith

/-- **No flow is faster than the oracle**: the slowdown of a flow of the base class, pFabric or TCP
that is finished is at least 1, whatever the other flows do, if the core has the bandwidth that the
oracle counts. -/
theorem one_le_slowdown {kind : FlowKind} (hsize : φ.size + φ.mss < 4294967296)
    (hpacket : φ.mss + φ.hdrSize < 4294967296) (hhdr : φ.hdrSize = N.hdrSize)
    (hpos : 0 < φ.hdrSize) (hcore : N.coreDiv2 = false) (ha : φ.src < N.numHosts)
    (hb : φ.dst < N.numHosts) {s : NetworkFlow PlainLeafQueue (Flow PFabric)}
    (hs : Reach (NetworkFlow.machine (N.spec sc) (Flow.party φ kind) φ.id φ.startTime) s)
    (hfin : s.party.finished = true) : 1 ≤ N.slowdown φ s.party := by
  have hlate := NetworkFlow.le_finishTime hsize hpacket (ways ha hb) hs hfin
  have horacle := getOracleFct_le hhdr hcore
  change φ.startTime + N.dataTime φ + N.timeLeft φ.dst φ.src φ.hdrSize (.leaf (.host φ.dst)) ≤ _
    at hlate
  rw [slowdown, le_div_iff₀ (getOracleFct_pos hhdr hpos), one_mul]
  linarith

/-- A flow of two segments starts, and all events are processed. -/
def undisturbed : List (NetworkFlowAct FlowInput) :=
  .input 1 .start :: [0, 1, 2, 3, 4, 7, 5, 6, 8, 9, 12, 10, 11, 13, 14, 17, 15, 16, 18, 19, 22, 23,
    24, 25, 26, 27, 28, 29, 30, 31, 32, 33, 34, 20, 21, 35, 36, 37, 38, 39, 40, 41, 42, 43, 44, 45,
    46, 47].map (.process · false)

/-- A flow that has the network for itself is as fast as the oracle. -/
theorem one_le_slowdown_undisturbed :
    ∃ s, (Reach (NetworkFlow.machine (twoRacks.spec fun _ => 0) (Flow.party twoSegments .flow) 0 1)
        s ∧ s.party.finished = true ∧ twoRacks.slowdown twoSegments s.party = 1) ∧
      1 ≤ twoRacks.slowdown twoSegments s.party := by
  obtain ⟨s, hs, hfin, hexact⟩ : ∃ s, Reach (NetworkFlow.machine (twoRacks.spec fun _ => 0)
      (Flow.party twoSegments .flow) 0 1) s ∧
        (s.party.finished = true ∧ twoRacks.slowdown twoSegments s.party = 1) :=
    exists_reach_of_exec_any undisturbed (by decide +kernel)
  exact ⟨s, ⟨hs, hfin, hexact⟩, one_le_slowdown (by decide) (by decide) rfl (by decide) rfl
    (by decide) (by decide) hs hfin⟩

end DcSim.LeafSpineNetwork
