import Mathlib.Data.Set.Basic
import Mathlib.Logic.Equiv.Basic
import Mathlib.Tactic.Tauto

/-!
A priority queue that is a binary heap in an array.

`push` and `pop` are those of `std::priority_queue` over a vector: the root is an element that is
below no other, a new element moves up from the end, and when the root is popped the last element
takes its place, moves down to a leaf along the upper children and up again. Where the comparison
is a strict weak ordering, what is popped is below none of the elements that stay.

The moves are swaps. What they do to the order is stated of the positions alone: `R i j` says that
the element at `i` is not below the one at `j`.
-/

namespace DcSim.HeapQueue

/-! ### Strict weak orderings -/

structure StrictWeakOn {α : Type*} (comp : α → α → Bool) (S : Set α) : Prop where
  irrefl : ∀ a ∈ S, comp a a = false
  asymm : ∀ a ∈ S, ∀ b ∈ S, comp a b = true → comp b a = false
  trans : ∀ a ∈ S, ∀ b ∈ S, ∀ c ∈ S, comp a b = true → comp b c = true → comp a c = true
  incomp : ∀ a ∈ S, ∀ b ∈ S, ∀ c ∈ S, comp a b = false → comp b a = false →
    comp b c = false → comp c b = false → comp a c = false ∧ comp c a = false

variable {α : Type*} {comp : α → α → Bool} {S : Set α}

lemma StrictWeakOn.not_trans (h : StrictWeakOn comp S) {a b c : α} (ha : a ∈ S) (hb : b ∈ S)
    (hc : c ∈ S) (hab : comp a b = false) (hbc : comp b c = false) : comp a c = false := by
  by_contra hac
  have hac : comp a c = true := by simpa using hac
  by_cases hba : comp b a = true
  · exact Bool.false_ne_true (hbc.symm.trans (h.trans b hb a ha c hc hba hac))
  · by_cases hcb : comp c b = true
    · exact Bool.false_ne_true (hab.symm.trans (h.trans a ha c hc b hb hac hcb))
    · have := (h.incomp a ha b hb c hc hab (by simpa using hba) hbc (by simpa using hcb)).1
      exact Bool.false_ne_true (this.symm.trans hac)

/-! ### The order of the positions -/

section Positions

variable (R : ℕ → ℕ → Prop) (n hole : ℕ)

/-- No position is below its parent's. -/
def Ordered : Prop := ∀ i, 0 < i → i < n → R ((i - 1) / 2) i

structure OrderedBut : Prop where
  other : ∀ i, 0 < i → i < n → i ≠ hole → (i - 1) / 2 ≠ hole → R ((i - 1) / 2) i
  grand : 0 < hole → ∀ i, 0 < i → i < n → (i - 1) / 2 = hole → R ((hole - 1) / 2) i

structure Ranks : Prop where
  total : ∀ i j, R i j ∨ R j i
  trans : ∀ i j k, j < n → R i j → R j k → R i k

variable {R n hole}

lemma Ordered.root (h : Ordered R n) (hR : Ranks R n) : ∀ i < n, R 0 i := by
  intro i
  induction i using Nat.strong_induction_on with
  | _ i ih =>
    intro hi
    rcases Nat.eq_zero_or_pos i with rfl | hpos
    · exact (hR.total 0 0).elim id id
    · have hlt : (i - 1) / 2 < i := by omega
      exact hR.trans _ _ _ (hlt.trans hi) (ih _ hlt (hlt.trans hi)) (h i hpos hi)

lemma OrderedBut.ordered (h : OrderedBut R n hole)
    (hchild : ∀ i, 0 < i → i < n → (i - 1) / 2 = hole → R hole i)
    (hparent : 0 < hole → R ((hole - 1) / 2) hole) : Ordered R n := by
  intro i hpos hi
  by_cases hhole : i = hole
  · subst hhole
    exact hparent hpos
  · by_cases hpar : (i - 1) / 2 = hole
    · rw [hpar]
      exact hchild i hpos hi hpar
    · exact h.other i hpos hi hhole hpar

lemma OrderedBut.up (h : OrderedBut R n hole) (hR : Ranks R n) {p : ℕ} (hp : (hole - 1) / 2 = p)
    (hpos : 0 < hole) (hhole : hole < n) (habove : R hole p) :
    OrderedBut (fun i j => R (Equiv.swap hole p i) (Equiv.swap hole p j)) n p ∧
      ∀ i, 0 < i → i < n → (i - 1) / 2 = p → R (Equiv.swap hole p p) (Equiv.swap hole p i) := by
  have hlt : p < hole := by omega
  -- the positions other than the two keep their elements
  have hne : ∀ i, i ≠ hole → i ≠ p → Equiv.swap hole p i = i := fun i h₁ h₂ =>
    Equiv.swap_apply_of_ne_of_ne h₁ h₂
  refine ⟨⟨fun i hi hin hip hparp => ?_, fun hp0 i hi hin hpar => ?_⟩, fun i hi hin hpar => ?_⟩
  · by_cases hih : i = hole
    · exact absurd (hih ▸ hp) hparp
    · rw [hne i hih hip]
      by_cases hparh : (i - 1) / 2 = hole
      · rw [hparh, Equiv.swap_apply_left, ← hp]
        exact h.grand hpos i hi hin hparh
      · rw [hne _ hparh hparp]
        exact h.other i hi hin hih hparh
  · have hg : Equiv.swap hole p ((p - 1) / 2) = (p - 1) / 2 := hne _ (by omega) (by omega)
    have hgp : R ((p - 1) / 2) p := h.other p hp0 (hlt.trans hhole) (by omega) (by omega)
    rw [hg]
    by_cases hih : i = hole
    · rw [hih, Equiv.swap_apply_left]
      exact hgp
    · rw [hne i hih (by omega)]
      have hpi : R p i := hpar ▸ h.other i hi hin hih (by omega)
      exact hR.trans _ _ _ (hlt.trans hhole) hgp hpi
  · rw [Equiv.swap_apply_right]
    by_cases hih : i = hole
    · rw [hih, Equiv.swap_apply_left]
      exact habove
    · rw [hne i hih (by omega)]
      have hpi : R p i := hpar ▸ h.other i hi hin hih (by omega)
      exact hR.trans _ _ _ (hlt.trans hhole) habove hpi

lemma OrderedBut.down (h : OrderedBut R n hole) {j : ℕ} (hj : j < n) (hpos : 0 < j)
    (hpar : (j - 1) / 2 = hole)
    (hmax : ∀ i, 0 < i → i < n → (i - 1) / 2 = hole → R j i) :
    OrderedBut (fun p q => R (Equiv.swap hole j p) (Equiv.swap hole j q)) n j := by
  have hlt : hole < j := by omega
  have hne : ∀ i, i ≠ hole → i ≠ j → Equiv.swap hole j i = i := fun i h₁ h₂ =>
    Equiv.swap_apply_of_ne_of_ne h₁ h₂
  refine ⟨fun i hi hin hij hparj => ?_, fun _ i hi hin hparj => ?_⟩
  · by_cases hih : i = hole
    · subst hih
      rw [Equiv.swap_apply_left, hne _ (by omega) hparj]
      exact h.grand hi j hpos hj hpar
    · rw [hne i hih hij]
      by_cases hparh : (i - 1) / 2 = hole
      · rw [hparh, Equiv.swap_apply_left]
        exact hmax i hi hin hparh
      · rw [hne _ hparh hparj]
        exact h.other i hi hin hih hparh
  · rw [hpar, Equiv.swap_apply_left, hne i (by omega) (by omega), ← hparj]
    exact h.other i hi hin (by omega) (by omega)

end Positions

/-! ### The heap -/

section Heap

variable (comp)

/-- Whether the element at one position is below the one at another. -/
def below (a : Array α) (i j : ℕ) : Bool :=
  match a[i]?, a[j]? with
  | some x, some y => comp x y
  | _, _ => false

/-- `__push_heap`, for at most so many turns: an element moves up while its parent is below it.
Each turn moves it to a lower position. -/
def siftUp : ℕ → Array α → ℕ → Array α
  | 0, a, _ => a
  | turns + 1, a, i =>
    if 0 < i ∧ below comp a ((i - 1) / 2) i then
      siftUp turns (a.swapIfInBounds i ((i - 1) / 2)) ((i - 1) / 2)
    else a

def upperChild (a : Array α) (i : ℕ) : ℕ :=
  if below comp a (2 * i + 2) (2 * i + 1) then 2 * i + 1 else 2 * i + 2

/-- The loop of `__adjust_heap`, for at most so many turns: an element moves down along the upper
children. Each turn moves it to a higher position. -/
def siftDown : ℕ → Array α → ℕ → Array α × ℕ
  | 0, a, i => (a, i)
  | turns + 1, a, i =>
    if 2 * i + 2 < a.size then
      siftDown turns (a.swapIfInBounds i (upperChild comp a i)) (upperChild comp a i)
    else if 2 * i + 1 < a.size then (a.swapIfInBounds i (2 * i + 1), 2 * i + 1)
    else (a, i)

def push (a : Array α) (x : α) : Array α := siftUp comp a.size (a.push x) a.size

/-- The root leaves, and the last element takes its place. -/
def dropRoot (a : Array α) : Array α := (a.swapIfInBounds 0 (a.size - 1)).pop

/-- `top` and `pop`. -/
def pop (a : Array α) : Option (α × Array α) :=
  a[0]?.map fun x =>
    let r := siftDown comp a.size (dropRoot a) 0
    (x, siftUp comp r.2 r.1 r.2)

end Heap

/-- No element is below its parent. -/
def IsHeap (comp : α → α → Bool) (a : Array α) : Prop :=
  Ordered (fun i j => below comp a i j = false) a.size

lemma getElem?_swapIfInBounds {a : Array α} {i j k : ℕ} (hi : i < a.size) (hj : j < a.size) :
    (a.swapIfInBounds i j)[k]? = a[Equiv.swap i j k]? := by
  rw [Array.swapIfInBounds, dif_pos hi, dif_pos hj, Array.getElem?_swap]
  rcases eq_or_ne k i with rfl | hki
  · rw [Equiv.swap_apply_left]
    by_cases hjk : j = k <;> simp [hjk, hj, hi]
  · rcases eq_or_ne k j with rfl | hkj
    · rw [Equiv.swap_apply_right]
      simp [hi]
    · rw [Equiv.swap_apply_of_ne_of_ne hki hkj, if_neg hkj.symm, if_neg hki.symm]

lemma below_swapIfInBounds {a : Array α} {i j p q : ℕ} (hi : i < a.size) (hj : j < a.size) :
    below comp (a.swapIfInBounds i j) p q =
      below comp a (Equiv.swap i j p) (Equiv.swap i j q) := by
  unfold below
  rw [getElem?_swapIfInBounds hi hj, getElem?_swapIfInBounds hi hj]

lemma swapIfInBounds_perm {a : Array α} {i j : ℕ} (hi : i < a.size) (hj : j < a.size) :
    (a.swapIfInBounds i j).Perm a := by
  rw [Array.swapIfInBounds, dif_pos hi, dif_pos hj]
  exact Array.swap_perm hi hj

lemma ranks_below (h : StrictWeakOn comp S) {a : Array α} (ha : ∀ x ∈ a, x ∈ S) :
    Ranks (fun i j => below comp a i j = false) a.size := by
  have hmem : ∀ {i x}, a[i]? = some x → x ∈ S := fun hx => ha _ (Array.mem_of_getElem? hx)
  refine ⟨fun i j => ?_, fun i j k hj hij hjk => ?_⟩
  · unfold below
    cases hi : a[i]? with
    | none => exact .inl rfl
    | some x =>
      cases hj : a[j]? with
      | none => exact .inl rfl
      | some y =>
        by_cases hxy : comp x y = true
        · exact .inr (h.asymm x (hmem hi) y (hmem hj) hxy)
        · exact .inl (by simpa using hxy)
  · have hy : a[j]? = some a[j] := Array.getElem?_eq_getElem hj
    unfold below at hij hjk ⊢
    rw [hy] at hij hjk
    cases hi : a[i]? with
    | none => rfl
    | some x =>
      cases hk : a[k]? with
      | none => rfl
      | some z =>
        rw [hi] at hij
        rw [hk] at hjk
        exact h.not_trans (hmem hi) (hmem hy) (hmem hk) hij hjk

lemma siftUp_perm {a : Array α} {turns i : ℕ} (hi : i < a.size) :
    (siftUp comp turns a i).Perm a := by
  induction turns generalizing a i with
  | zero => exact .refl a
  | succ turns ih =>
    unfold siftUp
    split_ifs
    · have hp : (i - 1) / 2 < a.size := by omega
      exact (ih (by simpa using hp)).trans (swapIfInBounds_perm hi hp)
    · exact .refl a

lemma isHeap_siftUp (h : StrictWeakOn comp S) {a : Array α} (ha : ∀ x ∈ a, x ∈ S) {turns i : ℕ}
    (hturns : i ≤ turns) (hi : i < a.size)
    (hbut : OrderedBut (fun p q => below comp a p q = false) a.size i)
    (hchild : ∀ j, 0 < j → j < a.size → (j - 1) / 2 = i → below comp a i j = false) :
    IsHeap comp (siftUp comp turns a i) := by
  induction turns generalizing a i with
  | zero => exact hbut.ordered hchild fun hpos => absurd hpos (by omega)
  | succ turns ih =>
    unfold siftUp
    split_ifs with hcond
    · obtain ⟨hpos, hbelow⟩ := hcond
      have hp : (i - 1) / 2 < a.size := by omega
      have hR := ranks_below h ha
      have habove : below comp a i ((i - 1) / 2) = false :=
        (hR.total i ((i - 1) / 2)).resolve_right (by rw [hbelow]; nofun)
      obtain ⟨hbut', hchild'⟩ := hbut.up hR rfl hpos hi habove
      refine ih (fun x hx => ha x ((swapIfInBounds_perm hi hp).mem_iff.1 hx)) (by omega)
        (by simpa using hp) ?_ ?_
      · simpa only [below_swapIfInBounds hi hp, Array.size_swapIfInBounds] using hbut'
      · simpa only [below_swapIfInBounds hi hp, Array.size_swapIfInBounds] using hchild'
    · exact hbut.ordered hchild fun hpos => by simpa [hpos] using hcond

lemma upperChild_spec (hR : Ranks (fun i j => below comp a i j = false) a.size)
    (hi : 2 * i + 2 < a.size) : upperChild comp a i < a.size ∧ 0 < upperChild comp a i ∧
      (upperChild comp a i - 1) / 2 = i ∧
      ∀ k, 0 < k → k < a.size → (k - 1) / 2 = i → below comp a (upperChild comp a i) k = false := by
  have hself : ∀ k, below comp a k k = false := fun k => (hR.total k k).elim id id
  unfold upperChild
  split_ifs with hbelow
  · refine ⟨by omega, by omega, by omega, fun k hpos _ hpar => ?_⟩
    rcases (by omega : k = 2 * i + 1 ∨ k = 2 * i + 2) with rfl | rfl
    · exact hself _
    · exact (hR.total (2 * i + 1) (2 * i + 2)).resolve_right (by rw [hbelow]; nofun)
  · refine ⟨by omega, by omega, by omega, fun k hpos _ hpar => ?_⟩
    rcases (by omega : k = 2 * i + 1 ∨ k = 2 * i + 2) with rfl | rfl
    · simpa using hbelow
    · exact hself _

lemma siftDown_spec (h : StrictWeakOn comp S) {a : Array α} (ha : ∀ x ∈ a, x ∈ S) {turns i : ℕ}
    (hturns : a.size ≤ i + turns) (hi : i < a.size)
    (hbut : OrderedBut (fun p q => below comp a p q = false) a.size i) :
    (siftDown comp turns a i).1.Perm a ∧ (siftDown comp turns a i).2 < a.size ∧
      a.size ≤ 2 * (siftDown comp turns a i).2 + 1 ∧
      OrderedBut (fun p q => below comp (siftDown comp turns a i).1 p q = false) a.size
        (siftDown comp turns a i).2 := by
  induction turns generalizing a i with
  | zero => omega
  | succ turns ih =>
    have hR := ranks_below h ha
    unfold siftDown
    split_ifs with htwo hone
    · obtain ⟨hj, hpos, hpar, hmax⟩ := upperChild_spec hR htwo
      generalize upperChild comp a i = j at hj hpos hpar hmax
      have hperm := swapIfInBounds_perm hi hj
      have hbut' : OrderedBut (fun p q => below comp (a.swapIfInBounds i j) p q = false)
          (a.swapIfInBounds i j).size j := by
        simpa only [below_swapIfInBounds hi hj, Array.size_swapIfInBounds] using
          hbut.down hj hpos hpar hmax
      have hspec := ih (fun x hx => ha x (hperm.mem_iff.1 hx))
        (by rw [Array.size_swapIfInBounds]; omega) (by rwa [Array.size_swapIfInBounds]) hbut'
      rw [Array.size_swapIfInBounds] at hspec
      exact ⟨hspec.1.trans hperm, hspec.2⟩
    · have hbut' : OrderedBut (fun p q => below comp (a.swapIfInBounds i (2 * i + 1)) p q = false)
          a.size (2 * i + 1) := by
        simp only [below_swapIfInBounds hi hone]
        refine hbut.down hone (by omega) (by omega) fun k _ _ hpar => ?_
        rw [show k = 2 * i + 1 by omega]
        exact (hR.total _ _).elim id id
      exact ⟨swapIfInBounds_perm hi hone, hone, by dsimp only; omega, hbut'⟩
    · exact ⟨.refl a, hi, by dsimp only; omega, hbut⟩

/-! ### What is pushed and popped -/

lemma isHeap_empty : IsHeap comp (#[] : Array α) := fun _ _ hi => absurd hi (Nat.not_lt_zero _)

lemma push_perm (a : Array α) (x : α) : (push comp a x).Perm (a.push x) :=
  siftUp_perm (by simp)

lemma below_congr {a b : Array α} {n i j : ℕ} (hab : ∀ k < n, a[k]? = b[k]?) (hi : i < n)
    (hj : j < n) : below comp a i j = below comp b i j := by
  unfold below
  rw [hab i hi, hab j hj]

theorem isHeap_push (h : StrictWeakOn comp S) {a : Array α} {x : α} (ha : ∀ y ∈ a, y ∈ S)
    (hx : x ∈ S) (hheap : IsHeap comp a) : IsHeap comp (push comp a x) := by
  have hsize : (a.push x).size = a.size + 1 := Array.size_push ..
  refine isHeap_siftUp h (fun y hy => ?_) le_rfl (by omega) ⟨fun i hpos hi hne hpar => ?_, ?_⟩ ?_
  · rcases Array.mem_push.1 hy with hy | rfl
    · exact ha y hy
    · exact hx
  · have hlt : i < a.size := by omega
    rw [below_congr (n := a.size) (b := a) (fun k hk => ?_) (by omega) hlt]
    · exact hheap i hpos hlt
    · rw [Array.getElem?_push, if_neg (by omega)]
  · intro _ i hpos hi hpar
    omega
  · intro i hpos hi hpar
    omega

lemma dropRoot_size (a : Array α) : (dropRoot a).size = a.size - 1 := by
  rw [dropRoot, Array.size_pop, Array.size_swapIfInBounds]

lemma getElem?_dropRoot {a : Array α} {k : ℕ} (hpos : 0 < k) (hk : k < a.size - 1) :
    (dropRoot a)[k]? = a[k]? := by
  rw [dropRoot, Array.getElem?_pop, Array.size_swapIfInBounds, if_pos hk,
    getElem?_swapIfInBounds (by omega) (by omega),
    Equiv.swap_apply_of_ne_of_ne (by omega) (by omega)]

lemma dropRoot_perm {a : Array α} {x : α} (hx : a[0]? = some x) :
    a.toList.Perm (x :: (dropRoot a).toList) := by
  have hpos : 0 < a.size := by
    by_contra hnot
    rw [Array.getElem?_eq_none (by omega)] at hx
    cases hx
  have hpush : a.swapIfInBounds 0 (a.size - 1) = (dropRoot a).push x := by
    refine Array.ext_getElem? fun k => ?_
    rw [Array.getElem?_push, dropRoot_size]
    split_ifs with hk
    · rw [hk, getElem?_swapIfInBounds hpos (by omega), Equiv.swap_apply_right, hx]
    · rw [dropRoot, Array.getElem?_pop, Array.size_swapIfInBounds]
      split_ifs with hlt
      · rfl
      · exact Array.getElem?_eq_none (by rw [Array.size_swapIfInBounds]; omega)
  have hperm : (a.swapIfInBounds 0 (a.size - 1)).toList.Perm a.toList :=
    (swapIfInBounds_perm hpos (by omega)).toList
  rw [hpush, Array.toList_push] at hperm
  exact hperm.symm.trans List.perm_append_comm

variable (comp) in
lemma siftDown_perm (turns : ℕ) {a : Array α} {i : ℕ} (hi : i < a.size) :
    (siftDown comp turns a i).1.Perm a ∧ (siftDown comp turns a i).2 < a.size := by
  induction turns generalizing a i with
  | zero => exact ⟨.refl a, hi⟩
  | succ turns ih =>
    unfold siftDown
    split_ifs with htwo hone
    · have hj : upperChild comp a i < a.size := by
        unfold upperChild
        split_ifs <;> omega
      have hj' : upperChild comp a i < (a.swapIfInBounds i (upperChild comp a i)).size := by
        rwa [Array.size_swapIfInBounds]
      obtain ⟨hperm, hlt⟩ := ih hj'
      rw [Array.size_swapIfInBounds] at hlt
      exact ⟨hperm.trans (swapIfInBounds_perm hi hj), hlt⟩
    · exact ⟨swapIfInBounds_perm hi hone, hone⟩
    · exact ⟨.refl a, hi⟩

/-- **What is popped** is one of the elements, and the others stay, whatever the order. -/
theorem pop_perm {a rest : Array α} {x : α} (hpop : pop comp a = some (x, rest)) :
    a.toList.Perm (x :: rest.toList) := by
  obtain ⟨x', hx, hpop⟩ := Option.map_eq_some_iff.1 hpop
  obtain ⟨rfl, rfl⟩ := Prod.mk.inj hpop
  refine (dropRoot_perm hx).trans (List.Perm.cons x' ?_)
  rcases Nat.eq_zero_or_pos (dropRoot a).size with hzero | hpos
  · rw [Array.eq_empty_of_size_eq_zero hzero]
    cases a.size <;> exact .refl _
  · obtain ⟨hperm, hlt⟩ := siftDown_perm comp a.size hpos
    exact ((siftUp_perm (hperm.size_eq ▸ hlt)).trans hperm).toList.symm

lemma pop_eq_none {a : Array α} (hpop : pop comp a = none) : a = #[] := by
  have hnone := Array.getElem?_eq_none_iff.mp (Option.map_eq_none_iff.mp hpop)
  exact Array.eq_empty_of_size_eq_zero (by omega)

variable (comp) in
lemma push_toList_perm (a : Array α) (x : α) : (push comp a x).toList.Perm (a.toList ++ [x]) := by
  have hperm : (push comp a x).Perm (a.push x) := push_perm a x
  rw [← Array.toList_push]
  exact hperm.toList

variable (comp) in
lemma foldl_push_perm (a : Array α) (xs : List α) :
    (xs.foldl (push comp) a).toList.Perm (a.toList ++ xs) := by
  induction xs generalizing a with
  | nil => simp
  | cons x xs ih =>
    rw [List.append_cons]
    exact (ih (push comp a x)).trans ((push_toList_perm comp a x).append_right xs)

lemma isHeap_foldl_push (h : StrictWeakOn comp S) {a : Array α} {xs : List α}
    (ha : ∀ y ∈ a, y ∈ S) (hxs : ∀ x ∈ xs, x ∈ S) (hheap : IsHeap comp a) :
    IsHeap comp (xs.foldl (push comp) a) := by
  induction xs generalizing a with
  | nil => exact hheap
  | cons x xs ih =>
    have hx := hxs x List.mem_cons_self
    refine ih (fun y hy => ?_) (fun y hy => hxs y (List.mem_cons_of_mem x hy))
      (isHeap_push h ha hx hheap)
    rcases Array.mem_push.1 ((push_perm a x).mem_iff.1 hy) with hy | rfl
    · exact ha y hy
    · exact hx

lemma siftRoot (h : StrictWeakOn comp S) {b : Array α} (hb : ∀ x ∈ b, x ∈ S) {turns : ℕ}
    (hturns : b.size ≤ turns)
    (hbut : OrderedBut (fun p q => below comp b p q = false) b.size 0) :
    let r := siftDown comp turns b 0
    (siftUp comp r.2 r.1 r.2).Perm b ∧ IsHeap comp (siftUp comp r.2 r.1 r.2) := by
  rcases Nat.eq_zero_or_pos b.size with hzero | hpos
  · obtain rfl := Array.eq_empty_of_size_eq_zero hzero
    cases turns <;> exact ⟨.refl _, isHeap_empty⟩
  · obtain ⟨hperm, hlt, hleaf, hbut'⟩ :=
      siftDown_spec h hb (by omega : b.size ≤ 0 + turns) hpos hbut
    have hsize : (siftDown comp turns b 0).1.size = b.size := hperm.size_eq
    refine ⟨(siftUp_perm (hsize ▸ hlt)).trans hperm, ?_⟩
    refine isHeap_siftUp h (fun x hx => hb x (hperm.mem_iff.1 hx)) le_rfl (by omega)
      (by rwa [hsize]) fun j hj hjn hpar => ?_
    omega

/-- **What is popped** is below none of the elements that stay, which are the others. -/
theorem pop_spec (h : StrictWeakOn comp S) {a rest : Array α} {x : α} (ha : ∀ y ∈ a, y ∈ S)
    (hheap : IsHeap comp a) (hpop : pop comp a = some (x, rest)) :
    a.toList.Perm (x :: rest.toList) ∧ IsHeap comp rest ∧ ∀ y ∈ rest, comp x y = false := by
  obtain ⟨x', hx, hpop⟩ := Option.map_eq_some_iff.1 hpop
  obtain ⟨rfl, rfl⟩ := Prod.mk.inj hpop
  have hperm := dropRoot_perm hx
  have hmem : ∀ y ∈ dropRoot a, y ∈ a := fun y hy =>
    Array.mem_toList_iff.1 (hperm.mem_iff.2 (List.mem_cons_of_mem _ (Array.mem_toList_iff.2 hy)))
  have hbut : OrderedBut (fun p q => below comp (dropRoot a) p q = false) (dropRoot a).size 0 := by
    refine ⟨fun i hi hin _ hpar => ?_, fun hlt => absurd hlt (lt_irrefl 0)⟩
    rw [dropRoot_size] at hin
    -- the positions other than the root have the elements they had
    unfold below
    rw [getElem?_dropRoot (by omega) (by omega), getElem?_dropRoot hi hin]
    exact hheap i hi (by omega)
  have hturns : (dropRoot a).size ≤ a.size := by
    rw [dropRoot_size]
    omega
  have hsift := siftRoot h (fun y hy => ha y (hmem y hy)) hturns hbut
  refine ⟨hperm.trans (hsift.1.toList.symm.cons x'), hsift.2, fun y hy => ?_⟩
  obtain ⟨k, hk, hky⟩ := Array.getElem_of_mem (hmem y (hsift.1.mem_iff.1 hy))
  have hroot := hheap.root (ranks_below h ha) k hk
  unfold below at hroot
  rw [hx, Array.getElem?_eq_getElem hk, hky] at hroot
  exact hroot

end DcSim.HeapQueue
