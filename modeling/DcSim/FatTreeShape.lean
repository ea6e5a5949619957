import DcSim.FatTree
import Mathlib.Data.Nat.Prime.Basic
import Mathlib.Tactic.Linarith
import Mathlib.Tactic.Ring

/-!
The wiring of a fat tree with an even number of ports.

The formulas of the constructor are those of the textbook as long as they do not wrap. A fat
tree with hosts whose formulas wrap cannot be constructed, and one whose number of hosts does
not wrap can.
-/

namespace DcSim.FatTree

open Word32

/-! ### The numbers do not wrap -/

lemma lt_of_square_wraps {k c : ℕ} (hc : 0 < c) (hck : c * k < 4294967296)
    (h : k * k % 4294967296 = c * k) : k < 65536 := by
  by_contra hk
  have hlt : c < k := by nlinarith
  have hdvd : 2 ^ 32 ∣ k * (k - c) := by
    rw [Nat.mul_sub, Nat.mul_comm k c, ← h]
    exact Nat.dvd_sub_mod _
  obtain ⟨u, v, hu, hv, huv⟩ := Nat.dvd_mul.mp hdvd
  have hpow : ∀ {d}, d ∣ 2 ^ 32 → ∃ e ≤ 32, d = 2 ^ e := (Nat.dvd_prime_pow Nat.prime_two).mp
  obtain ⟨i, -, rfl⟩ := hpow (Dvd.intro _ huv)
  obtain ⟨j, -, rfl⟩ := hpow (Dvd.intro_left _ huv)
  have hk' : k = c + (k - c) := by omega
  have hle : 2 ^ i * 2 ^ j ≤ c * k := by
    rcases le_total i j with hij | hij
    · -- the first factor divides `c`, and the second is less than `k`
      have hic : 2 ^ i ∣ c := by
        have := (pow_dvd_pow 2 hij).trans hv
        rw [hk'] at hu
        exact (Nat.dvd_add_left this).mp hu
      exact Nat.mul_le_mul (Nat.le_of_dvd hc hic)
        ((Nat.le_of_dvd (by omega) hv).trans (Nat.sub_le _ _))
    · have hjc : 2 ^ j ∣ c := by
        have := (pow_dvd_pow 2 hij).trans hu
        rw [hk'] at this
        exact (Nat.dvd_add_left hv).mp this
      rw [Nat.mul_comm]
      exact Nat.mul_le_mul (Nat.le_of_dvd hc hjc) (Nat.le_of_dvd (by omega) hu)
  rw [huv] at hle
  omega

structure Shape (T : FatTree) (h : ℕ) : Prop where
  k : T.k = 2 * h
  pos : 0 < h
  lt : h < 32768

variable {T : FatTree} {h : ℕ}

lemma podIdx_eq (hk : T.k = 2 * h) {i j : ℕ} (hi : i < 2147483648) (hj : j < 2147483648) :
    T.podIdx i j = i / h * h + j := by
  have hhalf : T.half = h := by unfold half; omega
  have hle := Nat.div_mul_le_self i h
  have hmul : i / h * (2 * h) = 2 * (i / h * h) := by ring
  unfold podIdx mul32
  rw [hhalf, hk, hmul, Nat.mod_eq_of_lt (by omega), Nat.mul_div_cancel_left _ two_pos,
    add32_eq (by omega)]

/-- **A fat tree with hosts does not wrap**: the queues of the last edge switch that lead up
need a whole pod of aggregation switches. -/
theorem shape_of_constructed (hk : T.k = 2 * h) (hpos : 0 < h) (hlt : T.k < 4294967296)
    (hT : T.Constructed) (hhosts : 0 < T.numHosts) : Shape T h := by
  have hsq : mul32 T.k T.k = 2 * (2 * (h * h) % 2147483648) := by
    have : T.k * T.k = 2 * (2 * (h * h)) := by rw [hk]; ring
    unfold mul32
    omega
  generalize hE : 2 * (h * h) % 2147483648 = E at hsq
  have hedges : T.numEdgeSwitches = E := by unfold numEdgeSwitches; omega
  have haggs : T.numAggSwitches = E := by unfold numAggSwitches; omega
  have hE0 : 0 < E := by
    by_contra h0
    obtain rfl : E = 0 := by omega
    unfold numHosts at hhosts
    rw [hsq] at hhosts
    simp [mul32] at hhosts
  have hnode := hT (.edge (E - 1) (h + (h - 1)))
    ⟨by rw [hedges]; omega, by rw [hk]; omega⟩
  have hhalf : T.half = h := by unfold half; omega
  simp only [dst, hhalf, show ¬ h + (h - 1) < h by omega, if_false, Nat.add_sub_cancel_left,
    HasNode, haggs, podIdx_eq hk (show E - 1 < 2147483648 by omega)
      (show h - 1 < 2147483648 by omega)] at hnode
  have hdm := Nat.div_add_mod' (E - 1) h
  have hml := Nat.mod_lt (E - 1) hpos
  have hEc : E = ((E - 1) / h + 1) * h := by
    rw [Nat.add_mul, Nat.one_mul]
    omega
  have hck : ((E - 1) / h + 1) * T.k = 2 * E := by
    rw [hk]
    calc ((E - 1) / h + 1) * (2 * h) = 2 * (((E - 1) / h + 1) * h) := by ring
      _ = 2 * E := by rw [← hEc]
  have hck_lt : ((E - 1) / h + 1) * T.k < 4294967296 := by omega
  have hk' := lt_of_square_wraps (Nat.succ_pos _) hck_lt (hsq.trans hck.symm)
  exact ⟨hk, hpos, by omega⟩

lemma shape_of_cube_lt (hk : T.k = 2 * h) (hpos : 0 < h) (hcube : 8 * (h * h * h) < 4294967296) :
    Shape T h := by
  refine ⟨hk, hpos, ?_⟩
  by_contra hle
  have hh : 32768 ≤ h := by omega
  have hsq : 32768 * 32768 ≤ h * h := Nat.mul_le_mul hh hh
  have := Nat.mul_le_mul hsq hh
  omega

namespace Shape

variable (S : Shape T h)
include S

lemma half : T.half = h := by
  have := S.k
  unfold FatTree.half
  omega

lemma mul_lt : h * h < 1073741824 := by
  have := Nat.mul_lt_mul'' S.lt S.lt
  omega

lemma mul32_k : mul32 T.k T.k = 4 * (h * h) := by
  have := S.mul_lt
  have hsq : T.k * T.k = 4 * (h * h) := by rw [S.k]; ring
  unfold mul32
  omega

lemma podSize : T.podSize = h * h := by
  unfold FatTree.podSize
  rw [S.mul32_k]
  omega

lemma numEdgeSwitches : T.numEdgeSwitches = 2 * (h * h) := by
  unfold FatTree.numEdgeSwitches
  rw [S.mul32_k]
  omega

lemma numAggSwitches : T.numAggSwitches = 2 * (h * h) := S.numEdgeSwitches

lemma numCoreSwitches : T.numCoreSwitches = h * h := S.podSize

lemma numHosts_le : T.numHosts ≤ 2 * (h * h) * h := by
  have hle := Nat.mod_le (4 * (h * h) * T.k) 4294967296
  have hmul : 4 * (h * h) * T.k = 4 * (2 * (h * h) * h) := by rw [S.k]; ring
  unfold FatTree.numHosts
  rw [S.mul32_k, mul32]
  omega

/-! ### The rack and the pod of a host -/

variable {a b : ℕ}

omit S in
lemma not_isArbiter (ha : a < T.numHosts) : ¬ T.IsArbiter a := fun harb => ha.ne harb.2

lemma rack_lt (ha : a < T.numHosts) : a / h < 2 * (h * h) :=
  Nat.div_lt_of_lt_mul (by rw [Nat.mul_comm]; exact ha.trans_le S.numHosts_le)

lemma pod_lt (ha : a < T.numHosts) : a / h / h < 2 * h := by
  have := S.rack_lt ha
  exact Nat.div_lt_of_lt_mul (this.trans_eq (by ring))

lemma isSameRack_iff (ha : a < T.numHosts) (hb : b < T.numHosts) :
    T.IsSameRack a b ↔ a / h = b / h := by
  unfold IsSameRack
  rw [if_neg (by simp [not_isArbiter ha, not_isArbiter hb]), S.half]

lemma isSamePod_iff (ha : a < T.numHosts) (hb : b < T.numHosts) :
    T.IsSamePod a b ↔ a / h / h = b / h / h := by
  unfold IsSamePod
  rw [if_neg (by simp [not_isArbiter ha, not_isArbiter hb]), S.podSize,
    Nat.div_div_eq_div_mul, Nat.div_div_eq_div_mul]

lemma getRackNum (hb : b < T.numHosts) : T.getRackNum b = b / h := by
  unfold FatTree.getRackNum
  rw [if_neg (not_isArbiter hb), S.half]

lemma getPodNum (hb : b < T.numHosts) : T.getPodNum b = b / h / h := by
  unfold FatTree.getPodNum
  rw [if_neg (not_isArbiter hb), S.podSize, Nat.div_div_eq_div_mul]

/-! ### Where the queues lead -/

variable {i j : ℕ}

omit S in
lemma host_lt (ha : a < T.numHosts) : a < 1073741824 := by
  have : mul32 (mul32 T.k T.k) T.k < 4294967296 := Nat.mod_lt _ (by decide)
  unfold FatTree.numHosts at ha
  omega

lemma dst_host (ha : a < T.numHosts) : T.dst (.host a) = .edge (a / h) := by
  have hlt := host_lt ha
  simp only [dst, if_neg (not_isArbiter ha)]
  rw [mul32, Nat.mod_eq_of_lt (by omega), S.k, Nat.mul_comm 2 h, Nat.mul_div_mul_right _ _ two_pos]

lemma dst_edge_down (hb : b < T.numHosts) : T.dst (.edge (b / h) (b % h)) = .host b := by
  have hlt := host_lt hb
  have hml := Nat.mod_lt b S.pos
  have hdm := Nat.div_add_mod' b h
  have hmul : b / h * T.k = 2 * (b / h * h) := by rw [S.k]; ring
  simp only [dst, S.half, if_pos hml]
  rw [mul32, hmul, Nat.mod_eq_of_lt (by omega), Nat.mul_div_cancel_left _ two_pos,
    add32_eq (by omega), hdm]

lemma podIdx (hi : i < 2 * (h * h)) (hj : j < h) : T.podIdx i j = i / h * h + j := by
  have := S.mul_lt
  have := S.lt
  exact podIdx_eq S.k (by omega) (by omega)

omit S in
lemma podIdx_lt (hi : i < 2 * (h * h)) (hj : j < h) : i / h * h + j < 2 * (h * h) := by
  have hpod : i / h < 2 * h := Nat.div_lt_of_lt_mul (hi.trans_eq (by ring))
  calc i / h * h + j < i / h * h + h := by omega
    _ = (i / h + 1) * h := by ring
    _ ≤ 2 * h * h := Nat.mul_le_mul_right _ hpod
    _ = 2 * (h * h) := by ring

lemma dst_edge_up (hi : i < 2 * (h * h)) (hj : j < h) :
    T.dst (.edge i (h + j)) = .agg (i / h * h + j) := by
  simp only [dst, S.half, show ¬ h + j < h by omega, if_false, Nat.add_sub_cancel_left,
    S.podIdx hi hj]

lemma dst_agg_down (hi : i < 2 * (h * h)) (hj : j < h) :
    T.dst (.agg i j) = .edge (i / h * h + j) := by
  simp only [dst, S.half, if_pos hj, S.podIdx hi hj]

/-- The core switch that two uplink ports lead to. -/
def coreOf (T : FatTree) (h l₁ l₂ : ℕ) : ℕ :=
  match T.kind with
  | .sns => l₂ * h + l₁
  | .plain => l₁ * h + l₂

variable {l₁ l₂ : ℕ}

omit S in
lemma square_lt (h₁ : l₁ < h) (h₂ : l₂ < h) : l₁ * h + l₂ < h * h := by
  calc l₁ * h + l₂ < (l₁ + 1) * h := by rw [Nat.add_mul, Nat.one_mul]; omega
    _ ≤ h * h := Nat.mul_le_mul_right _ h₁

omit S in
lemma coreOf_lt (h₁ : l₁ < h) (h₂ : l₂ < h) : coreOf T h l₁ l₂ < h * h := by
  unfold coreOf
  split
  · exact square_lt h₂ h₁
  · exact square_lt h₁ h₂

omit S in
lemma coreOf_inj {m₁ m₂ : ℕ} (h₁ : l₁ < h) (h₂ : l₂ < h) (h₁' : m₁ < h) (h₂' : m₂ < h)
    (heq : coreOf T h l₁ l₂ = coreOf T h m₁ m₂) : l₁ = m₁ ∧ l₂ = m₂ := by
  have hdigits : ∀ {x y x' y' : ℕ}, y < h → y' < h → x * h + y = x' * h + y' →
      x = x' ∧ y = y' := by
    intro x y x' y' hy hy' he
    have hpos : 0 < h := by omega
    have hdiv := congrArg (· / h) he
    have hmod := congrArg (· % h) he
    simp only [Nat.mul_comm _ h, Nat.mul_add_div hpos, Nat.mul_add_mod, Nat.div_eq_of_lt hy,
      Nat.div_eq_of_lt hy', Nat.mod_eq_of_lt hy, Nat.mod_eq_of_lt hy', Nat.add_zero] at hdiv hmod
    exact ⟨hdiv, hmod⟩
  unfold coreOf at heq
  split at heq
  · exact (hdigits h₁ h₁' heq).symm
  · exact hdigits h₂ h₂' heq

lemma dst_agg_up {p : ℕ} (h₁ : l₁ < h) (h₂ : l₂ < h) :
    T.dst (.agg (p * h + l₁) (h + l₂)) = .core (coreOf T h l₁ l₂) := by
  have hsq := S.mul_lt
  have hmod : (p * h + l₁) % h = l₁ := by
    rw [Nat.mul_comm, Nat.mul_add_mod, Nat.mod_eq_of_lt h₁]
  have hlt := coreOf_lt (T := T) h₁ h₂
  simp only [dst, S.half, show ¬ h + l₂ < h by omega, if_false, Nat.add_sub_cancel_left, coreIdx,
    S.numCoreSwitches, hmod]
  unfold coreOf at hlt ⊢
  cases hkind : T.kind with
  | sns =>
    have hmul : l₂ * T.k = 2 * (l₂ * h) := by rw [S.k]; ring
    rw [hkind] at hlt
    dsimp only at hlt ⊢
    rw [mul32, hmul, Nat.mod_eq_of_lt (show 2 * (l₂ * h) < 4294967296 by omega),
      Nat.mul_div_cancel_left _ two_pos, add32_eq (by omega), Nat.mod_eq_of_lt hlt]
  | plain =>
    rw [hkind] at hlt
    dsimp only at hlt ⊢
    rw [mul32, Nat.mod_eq_of_lt (show l₁ * h < 4294967296 by omega), add32_eq (by omega),
      Nat.add_comm, Nat.mod_eq_of_lt hlt]

lemma dst_core {p : ℕ} (h₁ : l₁ < h) (h₂ : l₂ < h) (hp : p < 2 * h) :
    T.dst (.core (coreOf T h l₁ l₂) p) = .agg (p * h + l₁) := by
  have hsq := S.mul_lt
  have hlt : h * p + l₁ < 2 * (h * h) := by
    calc h * p + l₁ < h * (p + 1) := by rw [Nat.mul_add, Nat.mul_one]; omega
      _ ≤ h * (2 * h) := Nat.mul_le_mul_left _ hp
      _ = 2 * (h * h) := by ring
  have hup : (match T.kind with
      | .sns => coreOf T h l₁ l₂ % h
      | .plain => coreOf T h l₁ l₂ / h) = l₁ := by
    unfold coreOf
    cases T.kind with
    | sns => dsimp only; rw [Nat.mul_comm, Nat.mul_add_mod, Nat.mod_eq_of_lt h₁]
    | plain =>
      dsimp only
      rw [Nat.mul_comm, Nat.mul_add_div S.pos, Nat.div_eq_of_lt h₂, Nat.add_zero]
  have hidx : T.aggIdx (coreOf T h l₁ l₂) p = h * p + l₁ := by
    unfold aggIdx
    rw [S.half, S.numAggSwitches]
    cases hkind : T.kind with
    | sns =>
      rw [hkind] at hup
      dsimp only at hup ⊢
      rw [hup, mul32, Nat.mod_eq_of_lt (show h * p < 4294967296 by omega), add32_eq (by omega),
        Nat.mod_eq_of_lt hlt]
    | plain =>
      rw [hkind] at hup
      dsimp only at hup ⊢
      rw [hup, mul32, Nat.mod_eq_of_lt (show h * p < 4294967296 by omega), add32_eq (by omega),
        Nat.mod_eq_of_lt hlt]
  simp only [dst, hidx, Nat.mul_comm h p]

/-- **A fat tree whose number of hosts does not wrap can be constructed.** -/
theorem constructed (hcube : 8 * (h * h * h) < 4294967296) : T.Constructed := by
  have hsq := S.mul_lt
  have hpos := S.pos
  have hsqpos : 0 < h * h := Nat.mul_pos hpos hpos
  have hnum : T.numHosts = 2 * (h * h) * h := by
    have hmul : 4 * (h * h) * (2 * h) = 8 * (h * h * h) := by ring
    have hmul' : 2 * (h * h) * h = 2 * (h * h * h) := by ring
    unfold FatTree.numHosts
    rw [S.mul32_k, S.k, mul32, hmul, hmul', Nat.mod_eq_of_lt hcube]
    omega
  have hmodAgg : ∀ x, x % T.numAggSwitches < T.numAggSwitches := fun x =>
    Nat.mod_lt x (by rw [S.numAggSwitches]; omega)
  have hmodCore : ∀ x, x % T.numCoreSwitches < T.numCoreSwitches := fun x =>
    Nat.mod_lt x (by rw [S.numCoreSwitches]; omega)
  rintro (id | ⟨i, j⟩ | ⟨i, j⟩ | ⟨i, j⟩ | -) hq
  · by_cases harb : T.IsArbiter id
    · simp only [dst, if_pos harb, HasNode, S.numEdgeSwitches]
      omega
    · have hid : id < T.numHosts := hq.resolve_right harb
      rw [S.dst_host hid, HasNode, S.numEdgeSwitches]
      exact S.rack_lt hid
  · obtain ⟨hi, hj⟩ := hq
    rw [S.numEdgeSwitches] at hi
    rw [S.k] at hj
    rcases lt_or_ge j h with hjh | hjh
    · have hlt : i * h + j < 2 * (h * h) * h := by
        calc i * h + j < (i + 1) * h := by rw [Nat.add_mul, Nat.one_mul]; omega
          _ ≤ 2 * (h * h) * h := Nat.mul_le_mul_right _ hi
      have hdst := S.dst_edge_down (b := i * h + j) (hlt.trans_eq hnum.symm)
      rw [Nat.mul_comm i h, Nat.mul_add_div hpos, Nat.div_eq_of_lt hjh, Nat.add_zero,
        Nat.mul_add_mod, Nat.mod_eq_of_lt hjh, Nat.mul_comm h i] at hdst
      rw [hdst, HasNode, hnum]
      exact .inl hlt
    · obtain ⟨x, rfl⟩ := Nat.exists_eq_add_of_le hjh
      rw [S.dst_edge_up hi (by omega), HasNode, S.numAggSwitches]
      exact podIdx_lt hi (by omega)
  · obtain ⟨hi, hj⟩ := hq
    rw [S.numAggSwitches] at hi
    rcases lt_or_ge j h with hjh | hjh
    · rw [S.dst_agg_down hi hjh, HasNode, S.numEdgeSwitches]
      exact podIdx_lt hi hjh
    · simp only [dst, S.half, if_neg (show ¬ j < h by omega), HasNode, coreIdx]
      split <;> exact hmodCore _
  · simp only [dst, HasNode, aggIdx]
    split <;> exact hmodAgg _
  · exact .inr ⟨hq, rfl⟩

end Shape

end DcSim.FatTree
