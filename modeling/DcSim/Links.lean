import DcSim.FlowCompletion
import Mathlib.Algebra.BigOperators.Ring.Finset
import Mathlib.Algebra.Order.Field.Basic

/-!
The links of a topology, and the bytes of a flow on them.

`Queue` gives a link its propagation delay, with `ddc` by the place of the queue. A packet is on a
link for its transmission and for this delay; with cut-through only its header has to be through
before the packet is handed on. `get_oracle_fct` adds up the bytes of the packets of a flow in
unsigned 32-bit arithmetic.
-/

namespace DcSim

open Segments Word32

structure LinkParams where
  bandwidth : ℚ
  propagationDelay : Time
  /-- `ddc` is not 0 -/
  ddc : Bool
  /-- `core_div_2` -/
  coreDiv2 : Bool
  /-- `cut_through` is 1 -/
  cutThrough : Bool
  hdrSize : ℕ
  queue : QueueSpec
  bandwidth_pos : 0 < bandwidth
  propagationDelay_nonneg : 0 ≤ propagationDelay
  not_sns : queue.type ≠ .sns

/-! The links of the examples. -/

lemma exampleBandwidth_pos : (0 : ℚ) < 10000000000 := by norm_num

lemma exampleDelay_nonneg : (0 : Time) ≤ 1 / 5000000 := by norm_num

lemma exampleQueue_not_sns : (⟨.dropTail, 36864, true, 0⟩ : QueueSpec).type ≠ .sns := by decide

namespace LinkParams

variable (L : LinkParams) (φ : FlowSpec)

/-- The propagation delay of a place, in the constructor of `Queue`. -/
def delayAt (location : ℕ) : Time :=
  if L.ddc then
    match location with
    | 0 => 10 / 1000000000
    | 1 | 2 => 400 / 1000000000
    | _ => 210 / 1000000000
  else L.propagationDelay

lemma delayAt_nonneg (location : ℕ) : 0 ≤ L.delayAt location := by
  unfold delayAt
  split_ifs
  · split <;> norm_num
  · exact L.propagationDelay_nonneg

/-- The bytes that go through a link before a packet is handed on, but for the last link. -/
def handed (size : ℕ) : ℕ := if L.cutThrough then L.hdrSize else size

lemma handed_mono : Monotone L.handed := fun size size' h => by
  unfold handed
  split_ifs
  · exact le_rfl
  · exact h

def legTime (size : ℕ) (rate : ℚ) (location : ℕ) : Time := size * 8 / rate + L.delayAt location

lemma legTime_nonneg (size location : ℕ) : 0 ≤ L.legTime size L.bandwidth location :=
  add_nonneg (div_nonneg (by positivity) L.bandwidth_pos.le) (L.delayAt_nonneg location)

/-- The last packet and its ACK, as `get_oracle_fct` counts them. -/
def lastBytes : ℕ :=
  let leftover := φ.size % φ.mss
  if leftover ≠ φ.mss ∧ leftover ≠ 0 then add32 leftover (mul32 2 L.hdrSize)
  else add32 φ.mss (mul32 2 L.hdrSize)

end LinkParams

namespace FlowSpec

variable (φ : FlowSpec)

/-- The bytes of all packets, with their headers, as `get_oracle_fct` counts them. -/
def inclOverheadBytes : ℕ :=
  let np := φ.size / φ.mss
  let leftover := φ.size % φ.mss
  add32 (mul32 (add32 φ.mss φ.hdrSize) np) leftover + if leftover ≠ 0 then φ.hdrSize else 0

def allBytes : ℕ := φ.size + (segs φ.mss φ.size).card * φ.hdrSize

/-- The bytes of the last packet of a flow. -/
def lastSize : ℕ := (if φ.size % φ.mss = 0 then φ.mss else φ.size % φ.mss) + φ.hdrSize

variable {φ}

lemma allBytes_eq : φ.allBytes = (φ.mss + φ.hdrSize) * (φ.size / φ.mss) + φ.size % φ.mss +
    if φ.size % φ.mss = 0 then 0 else φ.hdrSize := by
  have hdm := Nat.div_add_mod φ.size φ.mss
  rw [allBytes, card_segs φ.mss_pos]
  split_ifs <;> nlinarith

lemma inclOverheadBytes_le : φ.inclOverheadBytes ≤ φ.allBytes := by
  have h₁ := add32_le (mul32 (add32 φ.mss φ.hdrSize) (φ.size / φ.mss)) (φ.size % φ.mss)
  have h₂ := mul32_le (add32 φ.mss φ.hdrSize) (φ.size / φ.mss)
  have h₃ := Nat.mul_le_mul_right (φ.size / φ.mss) (add32_le φ.mss φ.hdrSize)
  rw [allBytes_eq, inclOverheadBytes]
  split_ifs <;> omega

lemma lastBytes_le {L : LinkParams} (hhdr : φ.hdrSize = L.hdrSize) :
    L.lastBytes φ ≤ φ.lastSize + φ.hdrSize := by
  have hml := Nat.mod_lt φ.size φ.mss_pos
  have h₁ := mul32_le 2 L.hdrSize
  have h₂ := add32_le (φ.size % φ.mss) (mul32 2 L.hdrSize)
  have h₃ := add32_le φ.mss (mul32 2 L.hdrSize)
  rw [LinkParams.lastBytes, lastSize]
  split_ifs <;> omega

end FlowSpec

/-! ### The packets of a flow on their way -/

namespace NetworkFlow

variable {Q : Type} {σ : NetworkSpec Q} {φ : FlowSpec} {bandwidth : ℚ}
  {left : ℕ → Q → Time}

lemma others_add (hrate : σ.rate (σ.hostQueue φ.src) = bandwidth) {x : ℕ}
    (hx : x ∈ segs φ.mss φ.size) :
    (batch σ φ left).others x +
        ((payload φ.mss φ.size x + φ.hdrSize : ℕ) : ℚ) * (8 / bandwidth) =
      φ.allBytes * (8 / bandwidth) := by
  have hdelay : ∀ z : ℕ, σ.getTransmissionDelay (σ.hostQueue φ.src) z = z * (8 / bandwidth) :=
    fun z => by rw [NetworkSpec.getTransmissionDelay, hrate, mul_div_assoc]
  have hsum : ∑ y ∈ segs φ.mss φ.size, ((payload φ.mss φ.size y + φ.hdrSize : ℕ) : ℚ) =
      φ.allBytes := by
    rw [← Nat.cast_sum, Finset.sum_add_distrib, sum_segs φ.mss_pos,
      Finset.sum_const_nat fun _ _ => rfl, FlowSpec.allBytes]
  have hothers : (batch σ φ left).others x =
      ∑ y ∈ (segs φ.mss φ.size).erase x,
        ((payload φ.mss φ.size y + φ.hdrSize : ℕ) : ℚ) * (8 / bandwidth) :=
    Finset.sum_congr rfl fun y _ => hdelay _
  rw [hothers, Finset.sum_erase_add _ (fun y =>
    ((payload φ.mss φ.size y + φ.hdrSize : ℕ) : ℚ) * (8 / bandwidth)) hx, ← Finset.sum_mul, hsum]

/-- **The way of the packets of a flow**, where the time from the host on is that of the first
transmission and a rest that a larger packet does not make shorter: all packets go through the
first link, and the last one on from there. -/
lemma ways_of_rest (hrate : σ.rate (σ.hostQueue φ.src) = bandwidth) {time : ℕ → Q → Time}
    {ackLeft : Q → Time} {rest : ℕ → Time} (hmono : Monotone rest)
    (hhost : ∀ size : ℕ, time size (σ.hostQueue φ.src) = size * (8 / bandwidth) + rest size)
    (htime : ∀ size (c : Packet → Bool),
      (∀ p, c p = true → p.src = φ.src ∧ p.dst = φ.dst ∧ p.size = size) →
        Network.Takes σ c (time size))
    (hack : ∀ c : Packet → Bool,
      (∀ p, c p = true → p.src = φ.dst ∧ p.dst = φ.src ∧ p.size = φ.hdrSize) →
        Network.Takes σ c ackLeft) :
    Ways σ φ (fun x => time (payload φ.mss φ.size x + φ.hdrSize)) ackLeft
      (φ.allBytes * (8 / bandwidth) + rest φ.lastSize) where
  right x := htime _ _ fun p hp => by
    obtain ⟨⟨-, -, hsrc, hdst, -, hsize⟩, rfl⟩ := batch_seg (of_decide_eq_true hp)
    exact ⟨hsrc, hdst, hsize⟩
  ackRight := hack _ fun p hp => by
    obtain ⟨-, -, hsrc, hdst, -, hsize⟩ := of_decide_eq_true hp
    exact ⟨hsrc, hdst, hsize⟩
  le x hx := by
    have hlast : φ.lastSize ≤ payload φ.mss φ.size x + φ.hdrSize :=
      Nat.add_le_add_right (le_payload φ.mss_pos hx) _
    have hall : (batch σ φ fun x => time (payload φ.mss φ.size x + φ.hdrSize)).others x + _ = _ :=
      others_add hrate hx
    have hrest := hmono hlast
    rw [hhost]
    linarith

end NetworkFlow

end DcSim
