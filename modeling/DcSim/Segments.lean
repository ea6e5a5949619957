import Mathlib.Algebra.BigOperators.Group.Finset.Basic
import Mathlib.Algebra.Order.BigOperators.Group.Finset
import Mathlib.Data.Finset.Sort
import Mathlib.Order.Interval.Finset.Nat
import Mathlib.Tactic.Ring

/-!
The segments of a byte range.

A range of `size` bytes is cut into segments of `mss` bytes; a segment is named by its first
byte, a multiple of `mss`, and only the last one may be shorter. A set of segments has a
contiguous prefix, and the bytes of a set of segments add up to `size` exactly when no
segment is missing.
-/

namespace DcSim.Segments

variable {mss size : ℕ} {D E : Finset ℕ} {a b s : ℕ}

/-- The bytes of the segment at `s`. -/
def payload (mss size s : ℕ) : ℕ := min mss (size - s)

def segs (mss size : ℕ) : Finset ℕ := (Finset.range size).filter (mss ∣ ·)

@[simp] lemma mem_segs : s ∈ segs mss size ↔ s < size ∧ mss ∣ s := by
  simp [segs]

/-- All segments that start below `a` are in the set. -/
def Covers (mss : ℕ) (D : Finset ℕ) (a : ℕ) : Prop := ∀ s, mss ∣ s → s < a → s ∈ D

lemma covers_zero : Covers mss D 0 := fun _ _ h => absurd h (Nat.not_lt_zero _)

lemma Covers.mono (h : Covers mss D a) (hDE : D ⊆ E) : Covers mss E a :=
  fun s hs ha => hDE (h s hs ha)

lemma Covers.le (h : Covers mss D a) (hb : b ≤ a) : Covers mss D b :=
  fun s hs hsb => h s hs (hsb.trans_le hb)

lemma Covers.succ (h : Covers mss D a) (ha : mss ∣ a) (hD : a ∈ D) : Covers mss D (a + mss) := by
  intro s hs hlt
  rcases Nat.lt_or_ge s a with hsa | hsa
  · exact h s hs hsa
  · obtain ⟨i, rfl⟩ := ha
    obtain ⟨j, rfl⟩ := hs
    have hij : i ≤ j := by
      by_contra hji
      have := Nat.mul_le_mul_left mss (show j + 1 ≤ i by omega)
      rw [Nat.mul_add, Nat.mul_one] at this
      have : mss = 0 := by omega
      subst this; simp at hlt
    have hji : j < i + 1 := by
      by_contra hji
      have := Nat.mul_le_mul_left mss (show i + 1 ≤ j by omega)
      rw [Nat.mul_add, Nat.mul_one] at this
      omega
    obtain rfl : j = i := by omega
    exact hD

lemma Covers.segs_subset (h : Covers mss D size) : segs mss size ⊆ D := fun s hs =>
  h s (mem_segs.mp hs).2 (mem_segs.mp hs).1

/-! ### The contiguous prefix -/

lemma exists_missing (hm : 0 < mss) (D : Finset ℕ) : ∃ j, mss * j ∉ D := by
  by_contra h
  push Not at h
  refine absurd (Finset.card_le_card (s := (Finset.range (D.card + 1)).image (mss * ·)) (t := D)
    fun x hx => ?_) ?_
  · obtain ⟨j, -, rfl⟩ := Finset.mem_image.mp hx
    exact h j
  · rw [Finset.card_image_of_injective _ fun x y hxy => Nat.eq_of_mul_eq_mul_left hm hxy]
    simp

/-- The end of the longest prefix of the range whose segments are all in the set. -/
def prefixEnd (hm : 0 < mss) (size : ℕ) (D : Finset ℕ) : ℕ :=
  min size (mss * Nat.find (exists_missing hm D))

theorem le_prefixEnd_iff (hm : 0 < mss) :
    a ≤ prefixEnd hm size D ↔ a ≤ size ∧ Covers mss D a := by
  rw [prefixEnd, le_min_iff]
  refine and_congr_right fun _ => ⟨fun h s ⟨j, hj⟩ hs => ?_, fun h => ?_⟩
  · by_contra hD
    have := Nat.find_min' (exists_missing hm D) (m := j) (hj ▸ hD)
    have := Nat.mul_le_mul_left mss this
    omega
  · by_contra hlt
    exact Nat.find_spec (exists_missing hm D) (h _ (Dvd.intro _ rfl) (not_le.mp hlt))

lemma isLeast_missing (hm : 0 < mss) (D : Finset ℕ) :
    IsLeast {b | mss ∣ b ∧ b ∉ D} (mss * Nat.find (exists_missing hm D)) := by
  refine ⟨⟨Nat.dvd_mul_right .., Nat.find_spec (exists_missing hm D)⟩, ?_⟩
  rintro b ⟨⟨j, rfl⟩, hD⟩
  exact Nat.mul_le_mul_left mss (Nat.find_min' _ hD)

lemma prefixEnd_eq (hm : 0 < mss) (ha : a ≤ size) (hcov : Covers mss D a)
    (hgap : a < size → mss ∣ a ∧ a ∉ D) : prefixEnd hm size D = a := by
  refine le_antisymm ?_ ((le_prefixEnd_iff hm).mpr ⟨ha, hcov⟩)
  obtain ⟨hle, hend⟩ := (le_prefixEnd_iff hm).mp (le_refl (prefixEnd hm size D))
  by_contra hlt
  have hlt : a < prefixEnd hm size D := not_le.mp hlt
  obtain ⟨hdvd, hmiss⟩ := hgap (hlt.trans_le hle)
  exact hmiss (hend a hdvd hlt)

/-! ### Segments in order -/

lemma add_le_of_dvd (ha : mss ∣ a) (hb : mss ∣ b) (hab : a < b) : a + mss ≤ b := by
  have := Nat.le_of_dvd (by omega) (Nat.dvd_sub hb ha)
  omega

lemma filter_of_notMem (hD : ∀ x ∈ D, mss ∣ x) (ha : mss ∣ a) (hmem : a ∉ D) :
    D.filter (a + mss ≤ ·) = D.filter (a ≤ ·) := by
  refine Finset.filter_congr fun x hx => ⟨fun h => by omega, fun h => ?_⟩
  exact add_le_of_dvd ha (hD x hx) (lt_of_le_of_ne h fun heq => hmem (heq ▸ hx))

lemma sort_filter_of_mem (hm : 0 < mss) (hD : ∀ x ∈ D, mss ∣ x) (ha : mss ∣ a) (hmem : a ∈ D) :
    (D.filter (a ≤ ·)).sort = a :: (D.filter (a + mss ≤ ·)).sort := by
  have hinsert : D.filter (a ≤ ·) = insert a (D.filter (a + mss ≤ ·)) := by
    ext x
    rw [Finset.mem_filter, Finset.mem_insert, Finset.mem_filter]
    constructor
    · rintro ⟨hx, hle⟩
      rcases hle.eq_or_lt with rfl | hlt
      · exact .inl rfl
      · exact .inr ⟨hx, add_le_of_dvd ha (hD x hx) hlt⟩
    · rintro (rfl | ⟨hx, hle⟩)
      · exact ⟨hmem, le_rfl⟩
      · exact ⟨hx, by omega⟩
  rw [hinsert, Finset.sort_insert]
  · intro x hx
    have := (Finset.mem_filter.mp hx).2
    omega
  · intro hself
    have := (Finset.mem_filter.mp hself).2
    omega

lemma card_filter_mul_le (hm : 0 < mss) (hD : ∀ x ∈ D, mss ∣ x ∧ x < size) (ha : mss ∣ a)
    (hle : a ≤ size) : a + (D.filter (a < ·)).card * mss ≤ size := by
  have hcard : (D.filter (a < ·)).card ≤ (size - 1 - a) / mss := by
    rw [← Nat.card_Ioc 0 ((size - 1 - a) / mss) |>.trans (Nat.sub_zero _)]
    refine Finset.card_le_card_of_injOn (fun x => (x - a) / mss) (fun x hx => ?_) ?_
    · obtain ⟨hx, hax⟩ := Finset.mem_filter.mp hx
      obtain ⟨hdvd, hlt⟩ := hD x hx
      have := add_le_of_dvd ha hdvd hax
      rw [Finset.coe_Ioc, Set.mem_Ioc]
      exact ⟨Nat.div_pos (by omega) hm, Nat.div_le_div_right (by omega)⟩
    · intro x hx y hy hxy
      obtain ⟨hx, hax⟩ := Finset.mem_filter.mp hx
      obtain ⟨hy, hay⟩ := Finset.mem_filter.mp hy
      have := Nat.div_left_inj (Nat.dvd_sub (hD x hx).1 ha) (Nat.dvd_sub (hD y hy).1 ha) |>.mp hxy
      omega
  have hmul := (Nat.mul_le_mul_right mss hcard).trans (Nat.div_mul_le_self _ _)
  omega

/-! ### Counting bytes -/

lemma sum_segs (hm : 0 < mss) (size : ℕ) : ∑ s ∈ segs mss size, payload mss size s = size := by
  have hfib : ∀ s ∈ segs mss size,
      ((Finset.range size).filter fun x => x / mss * mss = s).card = payload mss size s := by
    intro s hs
    obtain ⟨hlt, j, rfl⟩ := mem_segs.mp hs
    have : ((Finset.range size).filter fun x => x / mss * mss = mss * j) =
        Finset.Ico (mss * j) (min (mss * j + mss) size) := by
      ext x
      simp only [Finset.mem_filter, Finset.mem_range, Finset.mem_Ico, lt_min_iff]
      constructor
      · rintro ⟨hx, hxj⟩
        have hdm := Nat.div_add_mod' x mss
        have hml := Nat.mod_lt x hm
        omega
      · rintro ⟨hge, hx, hxs⟩
        refine ⟨hxs, ?_⟩
        have : x / mss = j := Nat.div_eq_of_lt_le (by rw [Nat.mul_comm]; exact hge)
          (by rw [Nat.add_mul, Nat.one_mul, Nat.mul_comm]; exact hx)
        rw [this, Nat.mul_comm]
    rw [this, Nat.card_Ico, payload]
    omega
  have hmap : ∀ x ∈ Finset.range size, x / mss * mss ∈ segs mss size := fun x hx => by
    have := Nat.div_mul_le_self x mss
    exact mem_segs.mpr ⟨this.trans_lt (Finset.mem_range.mp hx), Dvd.intro_left _ rfl⟩
  have := Finset.card_eq_sum_card_fiberwise hmap
  rw [Finset.card_range, Finset.sum_congr rfl hfib] at this
  exact this.symm

lemma card_segs (hm : 0 < mss) (size : ℕ) :
    (segs mss size).card = size / mss + if size % mss = 0 then 0 else 1 := by
  have heq : segs mss size =
      (Finset.range (size / mss + if size % mss = 0 then 0 else 1)).image (mss * ·) := by
    have hdm := Nat.div_add_mod size mss
    have hml := Nat.mod_lt size hm
    ext s
    rw [mem_segs, Finset.mem_image]
    constructor
    · rintro ⟨hlt, j, rfl⟩
      refine ⟨j, Finset.mem_range.2 ?_, rfl⟩
      by_contra hge
      have := Nat.mul_le_mul_left mss (not_lt.1 hge)
      rw [Nat.mul_add] at this
      split_ifs at this <;> omega
    · rintro ⟨j, hj, rfl⟩
      refine ⟨?_, j, rfl⟩
      have hj := Finset.mem_range.1 hj
      have := Nat.mul_le_mul_left mss (show j ≤ size / mss by split_ifs at hj <;> omega)
      split_ifs at hj with hrest
      · have hlt := Nat.mul_lt_mul_of_pos_left (show j < size / mss by omega) hm
        omega
      · omega
  rw [heq, Finset.card_image_of_injective _ fun x y hxy => Nat.eq_of_mul_eq_mul_left hm hxy,
    Finset.card_range]

lemma le_payload (hm : 0 < mss) (hs : s ∈ segs mss size) :
    (if size % mss = 0 then mss else size % mss) ≤ payload mss size s := by
  obtain ⟨hlt, j, rfl⟩ := mem_segs.1 hs
  have hmod : (size - mss * j) % mss = size % mss := Nat.sub_mul_mod hlt.le
  have hle := Nat.mod_le (size - mss * j) mss
  have hml := Nat.mod_lt size hm
  unfold payload
  split_ifs with hrest
  · have := Nat.le_of_dvd (by omega) (Nat.dvd_of_mod_eq_zero (hmod.trans hrest))
    omega
  · omega

lemma sum_le_size (hm : 0 < mss) (hD : D ⊆ segs mss size) :
    ∑ s ∈ D, payload mss size s ≤ size :=
  (Finset.sum_le_sum_of_subset hD).trans (sum_segs hm size).le

lemma payload_pos (hm : 0 < mss) (hs : s < size) : 0 < payload mss size s := by
  unfold payload; omega

/-- **No byte short**: segments with `size` bytes between them are all the segments. -/
theorem eq_segs_of_size_le (hm : 0 < mss) (hD : D ⊆ segs mss size)
    (h : size ≤ ∑ s ∈ D, payload mss size s) : D = segs mss size := by
  by_contra hne
  obtain ⟨s, hs, hsD⟩ := Finset.exists_of_ssubset (hD.ssubset_of_ne hne)
  have h1 := Finset.sum_le_sum_of_subset (f := payload mss size)
    (Finset.insert_subset hs hD)
  rw [Finset.sum_insert hsD, sum_segs hm] at h1
  have := payload_pos hm (mem_segs.mp hs).1
  omega

lemma sum_inter_segs (hD : ∀ s ∈ D, mss ∣ s) :
    ∑ s ∈ D ∩ segs mss size, payload mss size s = ∑ s ∈ D, payload mss size s := by
  refine Finset.sum_subset Finset.inter_subset_left fun s hs hn => ?_
  have : size ≤ s := by
    by_contra hlt
    exact hn (Finset.mem_inter.mpr ⟨hs, mem_segs.mpr ⟨not_le.mp hlt, hD s hs⟩⟩)
  simp [payload, Nat.sub_eq_zero_of_le this]

lemma sum_le_of_dvd (size : ℕ) (hm : 0 < mss) (hD : ∀ s ∈ D, mss ∣ s) :
    ∑ s ∈ D, payload mss size s ≤ size :=
  (sum_inter_segs hD).symm.trans_le (sum_le_size hm Finset.inter_subset_right)

theorem segs_subset_of_size_le (hm : 0 < mss) (hD : ∀ s ∈ D, mss ∣ s)
    (h : size ≤ ∑ s ∈ D, payload mss size s) : segs mss size ⊆ D := by
  rw [← sum_inter_segs hD] at h
  exact (eq_segs_of_size_le hm Finset.inter_subset_right h).ge.trans Finset.inter_subset_left

end DcSim.Segments
