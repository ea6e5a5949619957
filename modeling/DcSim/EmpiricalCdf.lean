import DcSim.Bisect
import DcSim.Packet
import Mathlib.Algebra.Order.Field.Basic
import Mathlib.Data.List.GetD
import Mathlib.Order.Interval.Set.UnorderedInterval
import Mathlib.Tactic.Linarith

/-!
Random variables with an empirical distribution.

A table has values and, for each, the probability of no more than it. A probability is looked up by
a binary search and the value taken between two entries, or it is searched for from the front and
the value of the entry taken as it is. The numbers are exact rationals.
-/

namespace DcSim

open Bisect

structure CDFentry where
  cdf : ℚ
  val : ℚ
  deriving DecidableEq, Inhabited

namespace EmpiricalCdf

structure Line where
  -- The second of the three numbers is not used.
  val : ℚ
  unused : ℚ
  cdf : ℚ

/-- The conversion of a number to an `int`. -/
def truncate (x : ℚ) : ℤ := x.num.tdiv x.den

/-- The loop of `loadCDF`: the table, and `w_sum`. -/
def loadLoop (smooth : Bool) : List Line → ℚ → ℤ → ℚ → Option (List CDFentry × ℚ)
  | [], _, _, wSum => some ([], wSum)
  | l :: ls, prevCd, prevSz, wSum =>
    let freq := l.cdf - prevCd
    let flowSz := if smooth then (l.val + prevSz) / 2 else l.val
    if 0 ≤ freq then
      (loadLoop smooth ls l.cdf (truncate l.val) (wSum + freq * flowSz)).map fun r =>
        (⟨l.cdf, l.val⟩ :: r.1, r.2)
    else none

/-- `loadCDF`: the table and `mean_flow_size`. -/
def loadCDF (smooth : Bool) (mss : ℕ) (ls : List Line) : Option (List CDFentry × ℚ) :=
  (loadLoop smooth ls 0 1 0).map fun r => (r.1, r.2 * mss)

variable (t : List CDFentry) (u : ℚ)

def cdf (i : ℕ) : ℚ := (t.getD i default).cdf
def val (i : ℕ) : ℚ := (t.getD i default).val

def lookup : ℕ :=
  if u ≤ cdf t 0 then 0 else bisect (fun i => cdf t i < u) t.length 1 (t.length - 1)

def interpolate (x x₁ y₁ x₂ y₂ : ℚ) : ℚ := y₁ + (x - x₁) * (y₂ - y₁) / (x₂ - x₁)

/-- The value is taken between two entries. -/
def Between : Prop := lookup t u ≠ 0 ∧ u < cdf t (lookup t u)

instance : Decidable (Between t u) := inferInstanceAs (Decidable (_ ∧ _))

/-- `EmpiricalRandomVariable::value`, by the number that was drawn. -/
def value : ℚ :=
  if t.length = 0 then 0
  else
    let mid := lookup t u
    if Between t u then
      interpolate u (cdf t (mid - 1)) (val t (mid - 1)) (cdf t mid) (val t mid)
    else val t mid

/-- The entry at which the loop of `CDFRandomVariable::value` ends, or the last one. -/
def scan : ℕ := ((List.range t.length).find? fun i => u ≤ cdf t i).getD (t.length - 1)

/-- **A distribution**: the probabilities do not go down, and end at one. -/
structure IsCdf : Prop where
  pos : 0 < t.length
  mono : ∀ i j, i ≤ j → j < t.length → cdf t i ≤ cdf t j
  last : cdf t (t.length - 1) = 1

variable {t u}

/-- **The search finds the first entry** that is not below. -/
lemma IsCdf.lookup_spec (ht : IsCdf t) (hu : u ≤ 1) :
    lookup t u < t.length ∧ u ≤ cdf t (lookup t u) ∧ ∀ i < lookup t u, cdf t i < u := by
  have hpos := ht.pos
  unfold lookup
  split_ifs with hzero
  · exact ⟨hpos, hzero, fun i hi => absurd hi (Nat.not_lt_zero i)⟩
  · have hlast : ¬ cdf t (t.length - 1) < u := by
      rw [ht.last]
      exact not_lt.2 hu
    have hmany : 1 ≤ t.length - 1 := by
      by_contra hone
      have hzero' : t.length - 1 = 0 := by omega
      rw [hzero'] at hlast
      exact hzero (not_lt.1 hlast)
    have hturns : t.length - 1 - 1 ≤ t.length := by omega
    obtain ⟨-, hhigh, hfound, hbefore⟩ := bisect_spec hmany hturns
      (fun i j hij hj hlt => (ht.mono i j hij (by omega)).trans_lt hlt) hlast
    refine ⟨by omega, not_lt.1 hfound, fun i hi => ?_⟩
    rcases Nat.eq_zero_or_pos i with rfl | hi'
    · exact not_le.1 hzero
    · exact hbefore i hi' hi

lemma IsCdf.scan_eq (ht : IsCdf t) (hu : u ≤ 1) : scan t u = lookup t u := by
  obtain ⟨hlt, hfound, hbefore⟩ := ht.lookup_spec hu
  have hfind : (List.range t.length).find? (fun i => u ≤ cdf t i) = some (lookup t u) := by
    refine List.find?_range_eq_some.2 ⟨decide_eq_true hfound, List.mem_range.2 hlt, fun j hj => ?_⟩
    have := hbefore j hj
    simpa using this
  rw [scan, hfind]
  rfl

lemma IsCdf.lt_of_between (ht : IsCdf t) (hu : u ≤ 1) (hb : Between t u) :
    cdf t (lookup t u - 1) < u ∧ u < cdf t (lookup t u) :=
  ⟨(ht.lookup_spec hu).2.2 _ (Nat.pred_lt hb.1), hb.2⟩

lemma loadLoop_pairwise {smooth : Bool} {ls : List Line} {prevCd : ℚ} {prevSz : ℤ} {wSum : ℚ}
    {r : List CDFentry × ℚ} (h : loadLoop smooth ls prevCd prevSz wSum = some r) :
    (∀ e ∈ r.1, prevCd ≤ e.cdf) ∧ r.1.Pairwise (fun e f => e.cdf ≤ f.cdf) := by
  induction ls generalizing prevCd prevSz wSum r with
  | nil =>
    obtain rfl := Option.some.inj h
    exact ⟨fun e he => absurd he List.not_mem_nil, List.Pairwise.nil⟩
  | cons l ls ih =>
    obtain ⟨hfreq, h⟩ := Option.ite_none_right_eq_some.1 h
    obtain ⟨r, hr, rfl⟩ := Option.map_eq_some_iff.1 h
    obtain ⟨hle, hsorted⟩ := ih hr
    have hcd : prevCd ≤ l.cdf := sub_nonneg.1 hfreq
    refine ⟨fun e he => ?_, List.pairwise_cons.2 ⟨hle, hsorted⟩⟩
    rcases List.mem_cons.1 he with rfl | he
    · exact hcd
    · exact hcd.trans (hle e he)

theorem isCdf_of_loadCDF {smooth : Bool} {mss : ℕ} {ls : List Line} {mean : ℚ}
    (h : loadCDF smooth mss ls = some (t, mean)) (hpos : 0 < t.length)
    (hlast : cdf t (t.length - 1) = 1) : IsCdf t := by
  obtain ⟨r, hr, heq⟩ := Option.map_eq_some_iff.1 h
  obtain ⟨rfl, -⟩ := Prod.mk.inj heq
  refine ⟨hpos, fun i j hij hj => ?_, hlast⟩
  have hi := hij.trans_lt hj
  unfold cdf
  rw [List.getD_eq_getElem _ _ hi, List.getD_eq_getElem _ _ hj]
  rcases eq_or_lt_of_le hij with rfl | hlt
  · exact le_rfl
  · exact List.pairwise_iff_getElem.1 (loadLoop_pairwise hr).2 i j hi hj hlt

/-! ### Values between two entries -/

section Interpolate

variable {x x' x₁ y₁ x₂ y₂ : ℚ}

lemma interpolate_eq : interpolate x x₁ y₁ x₂ y₂ = y₁ + (x - x₁) / (x₂ - x₁) * (y₂ - y₁) := by
  rw [interpolate, div_mul_eq_mul_div]

lemma interpolate_mono (hlt : x₁ < x₂) (hy : y₁ ≤ y₂) (hx : x ≤ x') :
    interpolate x x₁ y₁ x₂ y₂ ≤ interpolate x' x₁ y₁ x₂ y₂ := by
  rw [interpolate_eq, interpolate_eq]
  have hpart : (x - x₁) / (x₂ - x₁) ≤ (x' - x₁) / (x₂ - x₁) :=
    div_le_div_of_nonneg_right (by linarith) (by linarith)
  have := mul_le_mul_of_nonneg_right hpart (sub_nonneg.2 hy)
  linarith

lemma interpolate_mem (h₁ : x₁ < x) (h₂ : x < x₂) :
    interpolate x x₁ y₁ x₂ y₂ ∈ Set.uIcc y₁ y₂ := by
  have hpos : 0 < x₂ - x₁ := by linarith
  have h0 : 0 ≤ (x - x₁) / (x₂ - x₁) := div_nonneg (by linarith) hpos.le
  have h1 : (x - x₁) / (x₂ - x₁) ≤ 1 := (div_le_one hpos).2 (by linarith)
  rw [interpolate_eq, Set.mem_uIcc]
  rcases le_total y₁ y₂ with hy | hy
  · have hlow := mul_nonneg h0 (sub_nonneg.2 hy)
    have hhigh := mul_le_of_le_one_left (sub_nonneg.2 hy) h1
    exact .inl ⟨by linarith, by linarith⟩
  · have hlow := mul_nonneg h0 (sub_nonneg.2 hy)
    have hhigh := mul_le_of_le_one_left (sub_nonneg.2 hy) h1
    exact .inr ⟨by linarith, by linarith⟩

end Interpolate

lemma IsCdf.value_eq (ht : IsCdf t) (u : ℚ) :
    value t u = if Between t u then
      interpolate u (cdf t (lookup t u - 1)) (val t (lookup t u - 1)) (cdf t (lookup t u))
        (val t (lookup t u))
    else val t (lookup t u) :=
  if_neg ht.pos.ne'

lemma IsCdf.value_mem (ht : IsCdf t) (hu : u ≤ 1) :
    value t u ∈ Set.uIcc (val t (lookup t u - 1)) (val t (lookup t u)) := by
  rw [ht.value_eq]
  split_ifs with hb
  · obtain ⟨hlow, hhigh⟩ := ht.lt_of_between hu hb
    exact interpolate_mem hlow hhigh
  · exact Set.right_mem_uIcc

variable (t) in
/-- The values do not go down. -/
def Nondecreasing : Prop := ∀ i j, i ≤ j → j < t.length → val t i ≤ val t j

lemma IsCdf.lookup_mono (ht : IsCdf t) {u' : ℚ} (hle : u ≤ u') (hu : u' ≤ 1) :
    lookup t u ≤ lookup t u' := by
  by_contra hlt
  have hbefore := (ht.lookup_spec (hle.trans hu)).2.2 _ (not_le.1 hlt)
  have hfound := (ht.lookup_spec hu).2.1
  linarith

/-- **A greater number gives no smaller value**, if the values of the table do not go down. -/
lemma IsCdf.value_mono (ht : IsCdf t) (hv : Nondecreasing t) {u' : ℚ} (hle : u ≤ u')
    (hu : u' ≤ 1) : value t u ≤ value t u' := by
  have hu₁ := hle.trans hu
  have hmem := ht.value_mem hu₁
  have hmem' := ht.value_mem hu
  have hlt := (ht.lookup_spec hu₁).1
  have hlt' := (ht.lookup_spec hu).1
  rw [Set.uIcc_of_le (hv _ _ (Nat.sub_le _ 1) hlt), Set.mem_Icc] at hmem
  rw [Set.uIcc_of_le (hv _ _ (Nat.sub_le _ 1) hlt'), Set.mem_Icc] at hmem'
  rcases eq_or_lt_of_le (ht.lookup_mono hle hu) with heq | hbefore
  · -- both are taken at the same entry
    by_cases hb' : Between t u'
    · obtain ⟨hlow, hhigh⟩ := ht.lt_of_between hu hb'
      have hb : Between t u := ⟨heq ▸ hb'.1, heq ▸ hle.trans_lt hb'.2⟩
      rw [ht.value_eq, ht.value_eq, if_pos hb, if_pos hb', heq]
      exact interpolate_mono (hlow.trans hhigh) (hv _ _ (Nat.sub_le _ 1) hlt') hle
    · rw [ht.value_eq u', if_neg hb', ← heq]
      exact hmem.2
  · exact hmem.2.trans ((hv _ _ (by omega) (by omega)).trans hmem'.1)

/-- **Sampling from a distribution**: the binary search finds the entry that the search from the
front finds, no number is divided by zero, the value that is taken stands between its neighbours,
and it does not go down where the values of the table do not. -/
theorem lookup_eq_scan (ht : IsCdf t) (hu : u ≤ 1) :
    lookup t u = scan t u ∧ lookup t u < t.length ∧
      (Between t u → cdf t (lookup t u) - cdf t (lookup t u - 1) ≠ 0) ∧
      value t u ∈ Set.uIcc (val t (lookup t u - 1)) (val t (lookup t u)) ∧
      (Nondecreasing t → ∀ u' ≤ 1, u ≤ u' → value t u ≤ value t u') := by
  refine ⟨(ht.scan_eq hu).symm, (ht.lookup_spec hu).1, fun hb => ?_, ht.value_mem hu,
    fun hv u' hu' hle => ht.value_mono hv hle hu'⟩
  obtain ⟨hlow, hhigh⟩ := ht.lt_of_between hu hb
  exact (sub_pos.2 (hlow.trans hhigh)).ne'

def plateau : List CDFentry := [⟨1 / 4, 1⟩, ⟨1 / 2, 3⟩, ⟨1 / 2, 5⟩, ⟨1, 9⟩]

theorem lookup_plateau :
    lookup plateau (3 / 4) = scan plateau (3 / 4) ∧ lookup plateau (3 / 4) < plateau.length ∧
      (Between plateau (3 / 4) → cdf plateau (lookup plateau (3 / 4)) -
        cdf plateau (lookup plateau (3 / 4) - 1) ≠ 0) ∧
      value plateau (3 / 4) ∈ Set.uIcc (val plateau (lookup plateau (3 / 4) - 1))
        (val plateau (lookup plateau (3 / 4))) ∧
      (Nondecreasing plateau → ∀ u' ≤ 1, 3 / 4 ≤ u' →
        value plateau (3 / 4) ≤ value plateau u') := by
  have ht : IsCdf plateau := by
    refine ⟨by decide, fun i j hij hj => ?_, by decide +kernel⟩
    have hall : ∀ j < 4, ∀ i ≤ j, cdf plateau i ≤ cdf plateau j := by decide +kernel
    exact hall j hj i hij
  exact lookup_eq_scan ht (by norm_num)

end EmpiricalCdf

end DcSim
