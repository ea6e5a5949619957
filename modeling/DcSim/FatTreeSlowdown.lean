import DcSim.FatTreeNetwork

/-!
The slowdown of a flow in a fat tree.

`get_oracle_fct` of a fat tree gives every link the bandwidth of a host. It asserts that there is no
cut-through, and with `ddc` it gives a way of six hops no propagation delay, so that it has no value
there. The queues are never faster than it counts, also with `core_div_2`.
-/

namespace DcSim.FatTreeNetwork

open Runs Segments Word32

variable (N : FatTreeNetwork) (φ : FlowSpec)

/-! ### The oracle -/

/-- The propagation delays of `get_oracle_fct`, in microseconds. -/
def oraclePropagationDelay : Option ℚ :=
  if N.ddc then
    match N.hops φ.src φ.dst with
    | 2 => some (440 / 1000)
    | 4 => some (2040 / 1000)
    | _ => none
  else some (2 * 1000000 * N.hops φ.src φ.dst * N.propagationDelay)

/-- The transmission delays of `get_oracle_fct`, in microseconds. -/
def oracleTransmissionDelay : ℚ :=
  let bandwidth := N.bandwidth / 1000000
  (φ.inclOverheadBytes + φ.hdrSize) * 8 / bandwidth +
    (mul32 (N.hops φ.src φ.dst - 1) (N.lastBytes φ) : ℕ) * 8 / bandwidth

/-- `get_oracle_fct`, in microseconds. -/
def getOracleFct : Option ℚ :=
  if N.cutThrough then none
  else (N.oraclePropagationDelay φ).map (· + N.oracleTransmissionDelay φ)

/-- `slowdown` of `FlowFinishedEvent` -/
def slowdown (f : Flow PFabric) : Option ℚ :=
  (N.getOracleFct φ).map fun oracle => 1000000 * (f.finishTime - φ.startTime) / oracle

/-! ### The ways -/

/-- The time from one queue on, for a packet of a size between two hosts, if all links have the
bandwidth of a host. -/
def timeLeft (a b : HostId) (size : ℕ) : FatQueue → Time :=
  let leg := N.legTime (N.handed size) N.bandwidth 2
  let last := N.legTime size N.bandwidth 2
  fun
  | .host _ =>
    N.legTime (N.handed size) N.bandwidth 0 + ((N.hops a b - 2 : ℕ) * leg + last)
  | .edge _ j => if j < N.half then last else (N.hops a b - 2 : ℕ) * leg + last
  | .agg _ j => if j < N.half then leg + last else 3 * leg + last
  | .core _ _ => 2 * leg + last
  | .toArbiter => 0

variable {N φ} {a b : HostId} {size : ℕ} {sc : FatQueue → ℕ} {q : FatQueue}

lemma legTime_le (size location : ℕ) (q : FatQueue) :
    N.legTime size N.bandwidth location ≤ N.legTime size (N.rate q) location :=
  add_le_add_left (div_le_div_of_nonneg_left (by positivity) (rate_pos q) (rate_le q)) _

lemma le_handingDelay_some (q : FatQueue) (p : Packet) (r : FatQueue) :
    N.legTime (N.handed p.size) N.bandwidth (location q) ≤
      (N.spec sc).handingDelay q p (some r) := by
  refine (legTime_le _ _ q).trans_eq ?_
  unfold NetworkSpec.handingDelay NetworkSpec.getTransmissionDelay LinkParams.legTime
    LinkParams.handed
  simp [spec]

lemma le_handingDelay_none (q : FatQueue) (p : Packet) :
    N.legTime p.size N.bandwidth (location q) ≤ (N.spec sc).handingDelay q p none := by
  refine (legTime_le _ _ q).trans_eq ?_
  unfold NetworkSpec.handingDelay NetworkSpec.getTransmissionDelay LinkParams.legTime
  simp [spec]

lemma hops_of_isSameRack (h : N.IsSameRack a b) : N.hops a b = 2 := if_pos h

lemma hops_le_of_isSamePod (h : N.IsSamePod a b) : N.hops a b ≤ 4 := by
  unfold FatTree.hops
  split_ifs <;> omega

lemma hops_cases (a b : HostId) : N.hops a b = 2 ∨ N.hops a b = 4 ∨ N.hops a b = 6 := by
  unfold FatTree.hops
  split_ifs <;> simp

lemma hops_comm (ha : a < N.numHosts) (hb : b < N.numHosts) : N.hops b a = N.hops a b := by
  have hrack : N.IsSameRack b a ↔ N.IsSameRack a b := by
    rw [N.shape.isSameRack_iff hb ha, N.shape.isSameRack_iff ha hb, eq_comm]
  have hpod : N.IsSamePod b a ↔ N.IsSamePod a b := by
    rw [N.shape.isSamePod_iff hb ha, N.shape.isSamePod_iff ha hb, eq_comm]
  unfold FatTree.hops
  simp only [hrack, hpod]

lemma takes_timeLeft (hb : b < N.numHosts) {c : Packet → Bool}
    (hc : ∀ p, c p = true → p.src = a ∧ p.dst = b ∧ p.size = size) :
    Network.Takes (N.spec sc) c (N.timeLeft a b size) := by
  intro p hp q n n' hop hnext
  obtain ⟨rfl, rfl, rfl⟩ := hc p hp
  have hnonneg := N.legTime_nonneg (N.handed p.size) 2
  have hsome : ∀ r, N.legTime (N.handed p.size) N.bandwidth (location q) ≤
      (N.spec sc).handingDelay q p (some r) := fun r => le_handingDelay_some q p r
  have hnone : N.legTime p.size N.bandwidth (location q) ≤ (N.spec sc).handingDelay q p none :=
    le_handingDelay_none q p
  cases leg_of_spec hb hnext with
  | @rack i j hrack hj =>
    have hleg := hsome (.edge i j)
    simp only [timeLeft, location, Option.elim_some, if_pos hj, hops_of_isSameRack hrack] at hleg ⊢
    norm_num
    exact hleg
  | @up i j hrack hj =>
    have hleg := hsome (.edge i j)
    simp only [timeLeft, location, Option.elim_some, if_neg (not_lt.2 hj)] at hleg ⊢
    linarith
  | @pod i j i' j' hpod hj hj' =>
    have hleg := hsome (.agg i' j')
    have hhops : ((N.hops p.src p.dst - 2 : ℕ) : ℚ) ≤ 2 := by
      have := hops_le_of_isSamePod hpod
      exact_mod_cast (by omega : N.hops p.src p.dst - 2 ≤ 2)
    have hmul := mul_le_mul_of_nonneg_right hhops hnonneg
    simp only [timeLeft, location, Option.elim_some, if_neg (not_lt.2 hj), if_pos hj'] at hleg ⊢
    linarith
  | @climb i j i' j' hpod hj hj' =>
    have hleg := hsome (.agg i' j')
    have hhops : ((N.hops p.src p.dst - 2 : ℕ) : ℚ) ≤ 4 := by
      have := hops_cases (N := N) p.src p.dst
      exact_mod_cast (by omega : N.hops p.src p.dst - 2 ≤ 4)
    have hmul := mul_le_mul_of_nonneg_right hhops hnonneg
    simp only [timeLeft, location, Option.elim_some, if_neg (not_lt.2 hj),
      if_neg (not_lt.2 hj')] at hleg ⊢
    linarith
  | @spine i j i' j' hj =>
    have hleg := hsome (.core i' j')
    simp only [timeLeft, location, Option.elim_some, if_neg (not_lt.2 hj)] at hleg ⊢
    linarith
  | @across i j i' j' hj =>
    have hleg := hsome (.agg i' j')
    simp only [timeLeft, location, Option.elim_some, if_pos hj] at hleg ⊢
    linarith
  | @descend i j i' j' hj hj' =>
    have hleg := hsome (.edge i' j')
    simp only [timeLeft, location, Option.elim_some, if_pos hj, if_pos hj'] at hleg ⊢
    linarith
  | down hj =>
    simp only [timeLeft, location, Option.elim_none, if_pos hj] at hnone ⊢
    linarith

variable (N) in
/-- The time from a host on, but for the transmission of the whole packet on the last link. -/
def restTime (a b : HostId) (size : ℕ) : Time :=
  N.handed size * (8 / N.bandwidth) + N.delayAt 0 + N.delayAt 2 +
    (N.hops a b - 2 : ℕ) * (N.handed size * (8 / N.bandwidth) + N.delayAt 2)

lemma timeLeft_host (id : HostId) : N.timeLeft a b size (.host id) =
    size * (8 / N.bandwidth) + N.restTime a b size := by
  unfold timeLeft restTime LinkParams.legTime
  ring

lemma restTime_mono : Monotone (N.restTime a b) := fun size size' h => by
  have hhanded : (N.handed size : ℚ) ≤ N.handed size' := Nat.cast_le.2 (N.handed_mono h)
  have hb : 0 ≤ 8 / N.bandwidth := div_nonneg (by norm_num) N.bandwidth_pos.le
  unfold restTime
  gcongr

variable (N φ) in
/-- The time to the arrival of the last segment, at least. -/
def dataTime : Time :=
  φ.allBytes * (8 / N.bandwidth) + N.restTime φ.src φ.dst φ.lastSize

lemma ways (ha : φ.src < N.numHosts) (hb : φ.dst < N.numHosts) :
    NetworkFlow.Ways (N.spec sc) φ
      (fun x => N.timeLeft φ.src φ.dst (payload φ.mss φ.size x + φ.hdrSize))
      (N.timeLeft φ.dst φ.src φ.hdrSize) (N.dataTime φ) :=
  NetworkFlow.ways_of_rest rfl restTime_mono (fun _ => timeLeft_host φ.src)
    (fun _ _ hc => takes_timeLeft hb hc) fun _ hc => takes_timeLeft ha hc

/-! ### The oracle is no more than that -/

lemma oraclePropagationDelay_le {x : ℚ} (hx : x ∈ N.oraclePropagationDelay φ) :
    0 ≤ x ∧ x ≤ 1000000 * (2 * (N.delayAt 0 + N.delayAt 2) +
      2 * ((N.hops φ.src φ.dst - 2 : ℕ) * N.delayAt 2)) := by
  have hnonneg := N.propagationDelay_nonneg
  unfold oraclePropagationDelay at hx
  unfold LinkParams.delayAt
  cases hddc : N.ddc with
  | true =>
    simp only [hddc, if_true] at hx ⊢
    obtain hhops | hhops | hhops := hops_cases (N := N) φ.src φ.dst <;>
      simp only [hhops] at hx ⊢
    · obtain rfl := Option.some.inj hx
      norm_num
    · obtain rfl := Option.some.inj hx
      norm_num
    · cases hx
  | false =>
    simp only [hddc, Bool.false_eq_true, if_false] at hx ⊢
    obtain rfl := Option.some.inj hx
    obtain hhops | hhops | hhops := hops_cases (N := N) φ.src φ.dst <;> rw [hhops] <;>
      constructor <;> push_cast <;> linarith

lemma oracleTransmissionDelay_le (hhdr : φ.hdrSize = N.hdrSize) :
    N.oracleTransmissionDelay φ ≤
      1000000 * ((φ.allBytes + φ.hdrSize +
        (N.hops φ.src φ.dst - 1 : ℕ) * (φ.lastSize + φ.hdrSize)) * (8 / N.bandwidth)) := by
  have hb : 0 ≤ 8 / N.bandwidth := div_nonneg (by norm_num) N.bandwidth_pos.le
  have hmicro : ∀ x : ℚ, x * 8 / (N.bandwidth / 1000000) = 1000000 * (x * (8 / N.bandwidth)) :=
    fun x => by
      rw [div_div_eq_mul_div]
      ring
  have hbytes : (φ.inclOverheadBytes : ℚ) ≤ φ.allBytes :=
    Nat.cast_le.2 FlowSpec.inclOverheadBytes_le
  have hlast : ((mul32 (N.hops φ.src φ.dst - 1) (N.lastBytes φ) : ℕ) : ℚ) ≤
      (N.hops φ.src φ.dst - 1 : ℕ) * (φ.lastSize + φ.hdrSize) := by
    exact_mod_cast (mul32_le _ _).trans (Nat.mul_le_mul_left _ (FlowSpec.lastBytes_le hhdr))
  have h₁ := mul_le_mul_of_nonneg_right hbytes hb
  have h₂ := mul_le_mul_of_nonneg_right hlast hb
  unfold oracleTransmissionDelay
  simp only [hmicro]
  linarith

lemma oracleTransmissionDelay_pos (hpos : 0 < φ.hdrSize) : 0 < N.oracleTransmissionDelay φ := by
  have hb : 0 < N.bandwidth / 1000000 := div_pos N.bandwidth_pos (by norm_num)
  unfold oracleTransmissionDelay
  positivity

/-- **The oracle is no more than the network takes.** -/
lemma getOracleFct_le (hhdr : φ.hdrSize = N.hdrSize) (hpos : 0 < φ.hdrSize)
    (ha : φ.src < N.numHosts) (hb : φ.dst < N.numHosts) {x : ℚ} (hx : x ∈ N.getOracleFct φ) :
    0 < x ∧
      x ≤ 1000000 * (N.dataTime φ + N.timeLeft φ.dst φ.src φ.hdrSize (.host φ.dst)) := by
  unfold getOracleFct at hx
  obtain ⟨hcut, hx⟩ := Option.ite_none_left_eq_some.1 hx
  obtain ⟨y, hy, rfl⟩ := Option.map_eq_some_iff.1 hx
  obtain ⟨hnonneg, hprop⟩ := oraclePropagationDelay_le hy
  have htransmission := oracleTransmissionDelay_le hhdr
  have htransmission_pos := oracleTransmissionDelay_pos (N := N) hpos
  have hhanded : ∀ z, N.handed z = z := fun z => if_neg hcut
  refine ⟨by linarith, ?_⟩
  rw [dataTime, timeLeft_host, restTime, restTime, hops_comm ha hb, hhanded, hhanded]
  obtain hhops | hhops | hhops := hops_cases (N := N) φ.src φ.dst <;>
    rw [hhops] at hprop htransmission ⊢ <;> norm_num at hprop htransmission ⊢ <;> linarith

/-- **No flow is faster than the oracle of its fat tree**: where the oracle has a value, the
slowdown of a flow of the base class, pFabric or TCP that is finished is at least 1, whatever the
other flows do and whatever ports are chosen. -/
theorem no_faster_than_oracle {kind : FlowKind} (hsize : φ.size + φ.mss < 4294967296)
    (hpacket : φ.mss + φ.hdrSize < 4294967296) (hhdr : φ.hdrSize = N.hdrSize)
    (hpos : 0 < φ.hdrSize) (ha : φ.src < N.numHosts) (hb : φ.dst < N.numHosts)
    {s : NetworkFlow FatQueue (Flow PFabric)}
    (hs : Reach (NetworkFlow.machine (N.spec sc) (Flow.party φ kind) φ.id φ.startTime) s)
    (hfin : s.party.finished = true) {x : ℚ} (hx : x ∈ N.slowdown φ s.party) : 1 ≤ x := by
  have hlate := NetworkFlow.le_finishTime hsize hpacket (ways ha hb) hs hfin
  obtain ⟨oracle, horacle, rfl⟩ := Option.map_eq_some_iff.1 hx
  obtain ⟨hpos', hle⟩ := getOracleFct_le hhdr hpos ha hb horacle
  change φ.startTime + N.dataTime φ + N.timeLeft φ.dst φ.src φ.hdrSize (.host φ.dst) ≤ _ at hlate
  rw [le_div_iff₀ hpos', one_mul]
  linarith

/-- Two segments for a host of the last pod. -/
def toLastPod : FlowSpec := { twoSegments with dst := 15 }

/-- The flow starts, and all events are processed. -/
def alone : List (NetworkFlowAct FlowInput) :=
  .input 1 .start :: [0, 1, 2, 3, 4, 7, 5, 6, 8, 9, 12, 10, 11, 13, 14, 17, 15, 16, 18, 19, 22, 20,
    21, 23, 24, 27, 25, 26, 28, 29, 32, 33, 34, 35, 36, 37, 38, 39, 40, 41, 42, 43, 44, 45, 46, 30,
    47, 48, 49, 31, 51, 52, 53, 50, 54, 55, 56, 57, 58, 59, 60, 61, 62, 63, 64, 65, 66, 67, 68,
    69].map (.process · false)

/-- A flow that has the fat tree for itself is as fast as the oracle. -/
theorem no_faster_than_oracle_alone :
    ∃ s, ∃ x ∈ fourPorts.slowdown toLastPod s.party,
      (Reach (NetworkFlow.machine (fourPorts.spec fun _ => 0) (Flow.party toLastPod .flow) 0 1) s ∧
        s.party.finished = true ∧ x = 1) ∧ 1 ≤ x := by
  obtain ⟨s, hs, hfin, hexact⟩ : ∃ s, Reach (NetworkFlow.machine (fourPorts.spec fun _ => 0)
      (Flow.party toLastPod .flow) 0 1) s ∧
        (s.party.finished = true ∧ fourPorts.slowdown toLastPod s.party = some 1) :=
    exists_reach_of_exec_any alone (by decide +kernel)
  exact ⟨s, 1, hexact, ⟨hs, hfin, rfl⟩, no_faster_than_oracle (by decide) (by decide) rfl
    (by decide) (by decide) (by decide) hs hfin hexact⟩

end DcSim.FatTreeNetwork
