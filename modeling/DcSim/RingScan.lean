import Mathlib.Data.Finset.Card

/-!
A cursor that goes around a ring and stops at the next member of a set.

The set may only lose members on the way. A member that stays is stopped at before any other is
stopped at for the second time, so within as many stops as there were members at first.
-/

namespace DcSim.RingScan

variable {n d i j k : ℕ} {S T : Finset ℕ}

/-- The way from the place `d` to the place `i`, on a ring of `n` places. -/
def way (n d i : ℕ) : ℕ := if d ≤ i then i - d else i + n - d

/-- From the place `d` on, `i` is the first member of the set. -/
def Next (n : ℕ) (S : Finset ℕ) (d i : ℕ) : Prop := i ∈ S ∧ ∀ j ∈ S, way n d i ≤ way n d j

lemma next_of_le (hi : i ∈ S) (hdi : d ≤ i) (hin : i < n)
    (hfirst : ∀ j ∈ S, d ≤ j → i ≤ j) : Next n S d i := by
  refine ⟨hi, fun j hj => ?_⟩
  have hle := hfirst j hj
  unfold way
  split_ifs <;> omega

lemma next_of_lt (hi : i ∈ S) (hnone : ∀ j ∈ S, j < d) (hfirst : ∀ j ∈ S, i ≤ j) :
    Next n S d i := by
  refine ⟨hi, fun j hj => ?_⟩
  have hi' := hnone i hi
  have hj' := hnone j hj
  have hle := hfirst j hj
  unfold way
  split_ifs <;> omega

/-- The members on the way from `d` to `j`. -/
def upTo (n : ℕ) (S : Finset ℕ) (d j : ℕ) : Finset ℕ := {i ∈ S | way n d i ≤ way n d j}

lemma mem_upTo : i ∈ upTo n S d j ↔ i ∈ S ∧ way n d i ≤ way n d j := Finset.mem_filter

lemma card_upTo_le : (upTo n S d j).card ≤ S.card := Finset.card_filter_le _ _

lemma card_upTo_pos (hj : j ∈ S) : 0 < (upTo n S d j).card :=
  Finset.card_pos.mpr ⟨j, mem_upTo.mpr ⟨hj, le_rfl⟩⟩

lemma card_upTo_mono (h : T ⊆ S) : (upTo n T d j).card ≤ (upTo n S d j).card :=
  Finset.card_le_card (Finset.filter_subset_filter _ h)

/-- **One stop**: the member that is stopped at is behind the cursor then. -/
theorem card_upTo_next (hS : ∀ k ∈ S, k < n) (hd : d < n) (hi : Next n S d i) (hj : j ∈ S)
    (hne : i ≠ j) : (upTo n S ((i + 1) % n) j).card < (upTo n S d j).card := by
  have hin := hS i hi.1
  have hjn := hS j hj
  have hij := hi.2 j hj
  have hmod : i + 1 < n ∧ (i + 1) % n = i + 1 ∨ i + 1 = n ∧ (i + 1) % n = 0 := by
    rcases Nat.lt_or_ge (i + 1) n with h | h
    · exact .inl ⟨h, Nat.mod_eq_of_lt h⟩
    · exact .inr ⟨by omega, by rw [show i + 1 = n by omega, Nat.mod_self]⟩
  refine Finset.card_lt_card ⟨fun k hk => ?_, fun hsub => ?_⟩
  · obtain ⟨hkS, hk⟩ := mem_upTo.mp hk
    have hik := hi.2 k hkS
    have hkn := hS k hkS
    refine mem_upTo.mpr ⟨hkS, ?_⟩
    unfold way at *
    split_ifs at * <;> omega
  · have hback := (mem_upTo.mp (hsub (mem_upTo.mpr ⟨hi.1, hij⟩))).2
    unfold way at *
    split_ifs at * <;> omega

/-- The stops of a cursor from the place `d` on, as the set loses members other than `j`. -/
inductive Stops (n j : ℕ) : Finset ℕ → ℕ → List ℕ → Prop
  | nil {S : Finset ℕ} {d : ℕ} : Stops n j S d []
  | stop {S : Finset ℕ} {d i : ℕ} {is : List ℕ} :
    Next n S d i → Stops n j S ((i + 1) % n) is → Stops n j S d (i :: is)
  | leave {S T : Finset ℕ} {d : ℕ} {is : List ℕ} :
    T ⊆ S → j ∈ T → Stops n j T d is → Stops n j S d is

namespace Stops

variable {is : List ℕ}

lemma lt_card_upTo (h : Stops n j S d is) (hS : ∀ i ∈ S, i < n) (hd : d < n) (hj : j ∈ S)
    (hk : k ≤ is.length) (hnot : j ∉ is.take k) : k < (upTo n S d j).card := by
  induction h generalizing k with
  | nil =>
    obtain rfl := Nat.le_zero.mp hk
    exact card_upTo_pos hj
  | @stop S d i is hi _ ih =>
    cases k with
    | zero => exact card_upTo_pos hj
    | succ k =>
      rw [List.take_succ_cons, List.mem_cons, not_or] at hnot
      have hlt := ih hS (Nat.mod_lt _ (by omega)) hj (Nat.le_of_succ_le_succ hk) hnot.2
      have hnext := card_upTo_next hS hd hi hj (Ne.symm hnot.1)
      omega
  | leave hsub hjT _ ih =>
    exact (ih (fun i hi => hS i (hsub hi)) hd hjT hk hnot).trans_le (card_upTo_mono hsub)

/-- **A member that stays is stopped at in time.** -/
theorem mem_take (h : Stops n j S d is) (hS : ∀ i ∈ S, i < n) (hd : d < n) (hj : j ∈ S)
    (hlen : S.card ≤ is.length) : j ∈ is.take S.card := by
  by_contra hnot
  exact absurd (h.lt_card_upTo hS hd hj hlen hnot) (Nat.not_lt.mpr card_upTo_le)

end Stops

end DcSim.RingScan
