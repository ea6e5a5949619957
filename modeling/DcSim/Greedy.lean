import Mathlib.Data.List.Basic
import Mathlib.Data.List.Pairwise
import Mathlib.Order.Nat

/-!
Choosing the elements of a list greedily.

Each element in turn is chosen if it may join those that are chosen before it. Where what may join
many may join few, the choice is maximal; where two elements conflict or not, it is the only one in
which an element is left out exactly because of an earlier one that is chosen.
-/

namespace DcSim.Greedy

variable {α : Type*}

section Select

variable (ok : List α → α → Prop) [∀ c x, Decidable (ok c x)]

/-- The elements chosen, behind those chosen before. -/
def select : List α → List α → List α
  | c, [] => c
  | c, x :: xs => select (if ok c x then c ++ [x] else c) xs

variable {ok} {c xs : List α} {x y : α}

lemma select_append (c xs ys : List α) :
    select ok c (xs ++ ys) = select ok (select ok c xs) ys := by
  induction xs generalizing c with
  | nil => rfl
  | cons x xs ih => exact ih _

variable (ok) in
lemma exists_select (c xs : List α) : ∃ t, t.Sublist xs ∧ select ok c xs = c ++ t := by
  induction xs generalizing c with
  | nil => exact ⟨[], List.Sublist.refl [], (List.append_nil c).symm⟩
  | cons x xs ih =>
    rw [select]
    split_ifs
    · obtain ⟨t, hsub, ht⟩ := ih (c ++ [x])
      exact ⟨x :: t, hsub.cons_cons x, by rw [ht, List.append_assoc, List.singleton_append]⟩
    · obtain ⟨t, hsub, ht⟩ := ih c
      exact ⟨t, hsub.cons x, ht⟩

lemma prefix_select (c xs : List α) : c <+: select ok c xs := by
  obtain ⟨t, -, ht⟩ := exists_select ok c xs
  exact ⟨t, ht.symm⟩

lemma mem_of_mem_select (h : x ∈ select ok c xs) : x ∈ c ∨ x ∈ xs := by
  obtain ⟨t, hsub, ht⟩ := exists_select ok c xs
  rw [ht] at h
  exact (List.mem_append.mp h).imp_right fun hx => hsub.subset hx

/-- **The rule for the choice**: what each element that may join keeps. -/
theorem select_inv {V : List α → Prop} (hV : ∀ c x, V c → x ∈ xs → ok c x → V (c ++ [x]))
    (hc : V c) : V (select ok c xs) := by
  induction xs generalizing c with
  | nil => exact hc
  | cons x xs ih =>
    have hrest : ∀ c y, V c → y ∈ xs → ok c y → V (c ++ [y]) := fun c y hc hy =>
      hV c y hc (List.mem_cons_of_mem x hy)
    rw [select]
    split_ifs with hok
    · exact ih hrest (hV c x hc List.mem_cons_self hok)
    · exact ih hrest hc

/-- **The choice is maximal**, where what may join many may join the first of them. -/
theorem select_maximal (hok : ∀ c d x, c <+: d → ok d x → ok c x) (hx : x ∈ xs)
    (hnot : x ∉ select ok c xs) : ¬ ok (select ok c xs) x := by
  obtain ⟨pre, post, rfl⟩ := List.append_of_mem hx
  rw [select_append, select] at hnot ⊢
  split_ifs at hnot ⊢ with hjoin
  · have hmem : x ∈ select ok c pre ++ [x] := List.mem_append_right _ (List.mem_singleton_self x)
    exact absurd ((prefix_select _ post).subset hmem) hnot
  · exact fun hlast => hjoin (hok _ _ x (prefix_select _ post) hlast)

end Select

/-! ### Conflicts -/

section Conflict

variable {conflict : α → α → Prop} [∀ g x, Decidable (conflict g x)]

/-- An element may join those that it has no conflict with. -/
def Free (conflict : α → α → Prop) (c : List α) (x : α) : Prop := ∀ g ∈ c, ¬ conflict g x

instance (c : List α) (x : α) : Decidable (Free conflict c x) :=
  inferInstanceAs (Decidable (∀ g ∈ c, ¬ conflict g x))

variable {xs : List α} {y : α} {r : α → ℕ}

/-- **What is left out** is left out for an earlier element that is chosen. -/
theorem mem_select_iff (hxs : xs.Pairwise fun g x => r g < r x) :
    y ∈ select (Free conflict) [] xs ↔
      y ∈ xs ∧ ∀ g ∈ select (Free conflict) [] xs, r g < r y → ¬ conflict g y := by
  by_cases hy : y ∈ xs
  · obtain ⟨pre, post, rfl⟩ := List.append_of_mem hy
    obtain ⟨-, hpost, hpre⟩ := List.pairwise_append.mp hxs
    obtain ⟨hpost, -⟩ := List.pairwise_cons.mp hpost
    have hbefore : ∀ g ∈ select (Free conflict) [] pre, r g < r y := fun g hg =>
      hpre g ((mem_of_mem_select hg).resolve_left List.not_mem_nil) y List.mem_cons_self
    rw [select_append, select]
    split_ifs with hfree
    · have hmem : y ∈ select (Free conflict) [] pre ++ [y] :=
        List.mem_append_right _ (List.mem_singleton_self y)
      refine iff_of_true ((prefix_select _ post).subset hmem) ⟨hy, fun g hg hlt => ?_⟩
      rcases mem_of_mem_select hg with hg | hg
      · rcases List.mem_append.mp hg with hg | hg
        · exact hfree g hg
        · exact absurd (List.mem_singleton.mp hg ▸ hlt) (Nat.lt_irrefl _)
      · exact absurd hlt (Nat.lt_asymm (hpost g hg))
    · refine iff_of_false (fun hmem => ?_) fun h => hfree fun g hg => ?_
      · rcases mem_of_mem_select hmem with hmem | hmem
        · exact Nat.lt_irrefl _ (hbefore y hmem)
        · exact Nat.lt_irrefl _ (hpost y hmem)
      · exact h.2 g ((prefix_select _ post).subset hg) (hbefore g hg)
  · refine iff_of_false (fun hmem => hy ?_) fun h => hy h.1
    exact (mem_of_mem_select hmem).resolve_left List.not_mem_nil

/-- **There is no other such choice.** -/
theorem iff_mem_select {p : α → Prop} (hxs : xs.Pairwise fun g x => r g < r x)
    (hp : ∀ y ∈ xs, p y ↔ ∀ g ∈ xs, p g → r g < r y → ¬ conflict g y) :
    ∀ y ∈ xs, p y ↔ y ∈ select (Free conflict) [] xs := by
  intro y hy
  induction hn : r y using Nat.strongRecOn generalizing y with
  | _ n ih =>
    subst hn
    rw [hp y hy, mem_select_iff hxs]
    refine ⟨fun h => ⟨hy, fun g hg hlt => ?_⟩, fun h g hg hpg hlt => ?_⟩
    · have hgxs := (mem_of_mem_select hg).resolve_left List.not_mem_nil
      exact h g hgxs ((ih (r g) hlt g hgxs rfl).mpr hg) hlt
    · exact h.2 g ((ih (r g) hlt g hg rfl).mp hpg) hlt

end Conflict

end DcSim.Greedy
