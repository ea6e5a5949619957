import DcSim.ExperimentParams
import DcSim.FastpassSchedule
import Mathlib.Tactic.Ring

/-!
How long the slots of Fastpass are.

A slot should last as long as the host takes to send a full packet. The segment size was zero when
the length of the epoch was computed, so it is the header alone that has to make up for it.
-/

namespace DcSim.ExperimentParams

open Word32

variable (P : ExperimentParams)

/-- The slots that `receive_schedule_pkt` uses. -/
def epochSpec : FastpassEpochSpec := ⟨P.fastpassEpochTime, P.fastpassEpochPkts⟩

/-- How long a full packet is on the link of a host. -/
def fullPktTime : Time := add32 P.mss P.hdrSize * 8 / P.bandwidth

/-- **No slot begins before the packet of the one before it has been sent.** -/
def NoOverlap : Prop :=
  ∀ startTime, ∀ i < P.fastpassEpochPkts,
    FastpassHost.slotTime P.epochSpec startTime i + P.fullPktTime ≤
      FastpassHost.slotTime P.epochSpec startTime (i + 1)

/-- The bits of the headers of an epoch and of half a packet are as many as those of its packets;
with a negative bandwidth it is the other way round. -/
def LongEnough (hdrSize mss pkts : ℕ) (bandwidth : ℚ) : Prop :=
  pkts = 0 ∨ bandwidth = 0 ∨
    (0 < bandwidth ∧ 16 * pkts * add32 mss hdrSize ≤ mul32 hdrSize 8 * (2 * pkts + 1)) ∨
    (bandwidth < 0 ∧ mul32 hdrSize 8 * (2 * pkts + 1) ≤ 16 * pkts * add32 mss hdrSize)

variable {P} {ls : List Line}

lemma longEnough_iff {hdrSize mss pkts : ℕ} {bandwidth : ℚ} (hhdr : hdrSize < 536870912)
    (hmss : mss + hdrSize < 4294967296) (hpkts : 0 < pkts) (hbandwidth : 0 < bandwidth) :
    LongEnough hdrSize mss pkts bandwidth ↔ 2 * (pkts * mss) ≤ hdrSize := by
  have hmul : mul32 hdrSize 8 = hdrSize * 8 := Nat.mod_eq_of_lt (by omega)
  have hfull : 16 * pkts * (mss + hdrSize) = 8 * (2 * (pkts * mss)) + 16 * (pkts * hdrSize) := by
    ring
  have hepoch : hdrSize * 8 * (2 * pkts + 1) = 8 * hdrSize + 16 * (pkts * hdrSize) := by ring
  unfold LongEnough
  rw [hmul, add32_eq hmss, hfull, hepoch]
  constructor
  · rintro (hzero | hzero | ⟨-, hle⟩ | ⟨hneg, -⟩)
    · omega
    · exact absurd hzero hbandwidth.ne'
    · omega
    · exact absurd hneg (not_lt.2 hbandwidth.le)
  · intro hle
    exact .inr (.inr (.inl ⟨hbandwidth, by omega⟩))

lemma slotTime_succ (startTime : Time) (i : ℕ) :
    FastpassHost.slotTime P.epochSpec startTime (i + 1) =
      FastpassHost.slotTime P.epochSpec startTime i +
        P.fastpassEpochTime / P.fastpassEpochPkts := by
  unfold FastpassHost.slotTime epochSpec
  push_cast
  ring

lemma noOverlap_iff : P.NoOverlap ↔ P.fastpassEpochPkts = 0 ∨
    P.fullPktTime ≤ P.fastpassEpochTime / P.fastpassEpochPkts := by
  unfold NoOverlap
  simp only [slotTime_succ, add_le_add_iff_left]
  constructor
  · intro h
    rcases Nat.eq_zero_or_pos P.fastpassEpochPkts with hzero | hpos
    · exact .inl hzero
    · exact .inr (h 0 0 hpos)
  · rintro (hzero | hle) startTime i hi
    · omega
    · exact hle

lemma le_slot_iff (full hdr : ℕ) {pkts : ℕ} (hpkts : 0 < pkts) :
    ((full * 8 : ℚ) ≤ hdr * (pkts + 1 / 2) / pkts ↔ 16 * pkts * full ≤ hdr * (2 * pkts + 1)) ∧
      ((hdr * (pkts + 1 / 2) / pkts : ℚ) ≤ full * 8 ↔
        hdr * (2 * pkts + 1) ≤ 16 * pkts * full) := by
  have hpos : (0 : ℚ) < pkts := by exact_mod_cast hpkts
  rw [le_div_iff₀ hpos, div_le_iff₀ hpos]
  constructor
  · rw [← Nat.cast_le (α := ℚ)]
    push_cast
    constructor <;> intro h <;> linarith
  · rw [← Nat.cast_le (α := ℚ)]
    push_cast
    constructor <;> intro h <;> linarith

lemma spacing_iff_longEnough {hdrSize mss pkts : ℕ} {bandwidth : ℚ} :
    (pkts = 0 ∨ (add32 mss hdrSize * 8 / bandwidth : ℚ) ≤
        mul32 hdrSize 8 * (pkts + 1 / 2) / bandwidth / pkts) ↔
      LongEnough hdrSize mss pkts bandwidth := by
  unfold LongEnough
  refine or_congr_right' fun hne => ?_
  obtain ⟨hup, hdown⟩ := le_slot_iff (add32 mss hdrSize) (mul32 hdrSize 8) (Nat.pos_of_ne_zero hne)
  rw [div_right_comm]
  rcases lt_trichotomy bandwidth 0 with hneg | rfl | hpos
  · rw [div_le_div_right_of_neg hneg, hdown]
    simp [hneg, hneg.ne, hneg.not_gt]
  · simp
  · rw [div_le_div_iff_of_pos_right hpos, hup]
    simp [hpos, hpos.ne', hpos.not_gt]

/-- **The slots that are read from a configuration are long enough** if and only if the headers of
an epoch make up for its segments. -/
theorem noOverlap_iff_longEnough (h : readExperimentParameters ls = some P) :
    P.NoOverlap ↔ ∃ mss, mssOf (bigMtuOf ls) (hdrSizeOf ls) = some mss ∧
      LongEnough (hdrSizeOf ls) mss (fastpassEpochPktsOf ls) (bandwidthOf ls) := by
  obtain ⟨hhdr, hbandwidth, hpkts, hmss, htime⟩ := readExperimentParameters_spec h
  have hmul : mul32 (add32 0 (hdrSizeOf ls)) 8 = mul32 (hdrSizeOf ls) 8 := by
    unfold mul32 add32
    omega
  rw [noOverlap_iff, fullPktTime, htime, hhdr, hbandwidth, hpkts, hmul, spacing_iff_longEnough]
  constructor
  · exact fun hlong => ⟨P.mss, hmss, hlong⟩
  · rintro ⟨mss, hmss', hlong⟩
    obtain rfl := Option.some.inj (hmss.symm.trans hmss')
    exact hlong

/-- A configuration of Fastpass at 40 Gb/s. -/
def fastpassConf (hdrSize : ℕ) : List Line :=
  [.comment, .bandwidth 40000000000, .fastpassEpochPkts 8, .hdrSize hdrSize, .other]

/-- Headers as long as two times the eight segments of an epoch. -/
theorem noOverlap_fastpassConf :
    ∃ P, readExperimentParameters (fastpassConf 23360) = some P ∧ P.NoOverlap := by
  obtain ⟨P, hP⟩ := Option.isSome_iff_exists.1
    (show (readExperimentParameters (fastpassConf 23360)).isSome = true by decide +kernel)
  have hbandwidth : 0 < bandwidthOf (fastpassConf 23360) := by decide +kernel
  refine ⟨P, hP, (noOverlap_iff_longEnough hP).2 ⟨1460, by decide, ?_⟩⟩
  exact (longEnough_iff (by decide) (by decide) (by decide) hbandwidth).2 (by decide)

/-- With headers of 40 bytes a slot lasts for 42.5 bytes, and a full packet has 1500. -/
theorem not_noOverlap_fastpassConf :
    ∃ P, readExperimentParameters (fastpassConf 40) = some P ∧ ¬ P.NoOverlap := by
  obtain ⟨P, hP, hlt⟩ := (Option.any_eq_true _ _).1
    (show (readExperimentParameters (fastpassConf 40)).any (fun P =>
      0 < P.fastpassEpochPkts ∧
        P.fastpassEpochTime / (P.fastpassEpochPkts : ℚ) < P.fullPktTime) = true by decide +kernel)
  obtain ⟨hpkts, hlt⟩ := of_decide_eq_true hlt
  refine ⟨P, hP, fun h => ?_⟩
  rcases noOverlap_iff.1 h with hzero | hle
  · omega
  · exact absurd hle (not_le.2 hlt)

end DcSim.ExperimentParams
