import Mathlib.Data.List.Perm.Basic

/-!
The priority queue that is a list searched from front to back.

`CustomPriorityQueue` keeps its elements in the order they were pushed. The comparison can depend
on what changes while they are kept, so the best element is looked for anew each time.
-/

namespace DcSim.CustomPriorityQueue

variable {α : Type*} (comp : α → α → Bool)

/-- The search of `top` from an element on: the best element so far, with the elements before and
after it, gives way to each element that it is not better than. -/
def search (before : List α) (best : α) (after : List α) : List α → α × List α
  | [] => (best, before ++ after)
  | x :: xs =>
    if comp x best then search before best (after ++ [x]) xs
    else search (before ++ best :: after) x [] xs

/-- `top` and `pop`: the best element, and the elements without it. -/
def pop : List α → Option (α × List α)
  | [] => none
  | x :: xs => some (search comp [] x [] xs)

def top (xs : List α) : Option α := (pop comp xs).map (·.1)

/-- The elements in the order they are popped, for at most so many turns. -/
def drain : ℕ → List α → List α
  | 0, _ => []
  | turns + 1, xs =>
    match pop comp xs with
    | none => []
    | some (x, rest) => x :: drain turns rest

lemma search_perm (before : List α) (best : α) (after xs : List α) :
    (before ++ best :: after ++ xs).Perm
      ((search comp before best after xs).1 :: (search comp before best after xs).2) := by
  induction xs generalizing before best after with
  | nil =>
    rw [List.append_nil]
    exact List.perm_middle
  | cons x xs ih =>
    unfold search
    split_ifs
    · have := ih before best (after ++ [x])
      rwa [← List.cons_append, ← List.append_assoc, List.append_assoc _ [x]] at this
    · have := ih (before ++ best :: after) x []
      rwa [List.append_assoc _ [x]] at this

variable {comp}

lemma search_append {before after xs : List α} {best : α} (h : ∀ x ∈ xs, comp x best = true)
    (ys : List α) :
    search comp before best after (xs ++ ys) = search comp before best (after ++ xs) ys := by
  induction xs generalizing after with
  | nil => rw [List.append_nil, List.nil_append]
  | cons x xs ih =>
    rw [List.cons_append, search, if_pos (h x List.mem_cons_self),
      ih fun y hy => h y (List.mem_cons_of_mem x hy), List.append_assoc, List.singleton_append]

lemma search_kept {K : α → Prop} {xs : List α}
    (hkeep : ∀ b x, x ∈ xs → K b → comp x b = false → K x) {before after : List α} {best : α}
    (hbest : K best) : K (search comp before best after xs).1 := by
  induction xs generalizing before best after with
  | nil => exact hbest
  | cons x xs ih =>
    have hrest : ∀ b y, y ∈ xs → K b → comp y b = false → K y := fun b y hy =>
      hkeep b y (List.mem_cons_of_mem x hy)
    unfold search
    split_ifs with hcomp
    · exact ih hrest hbest
    · exact ih hrest (hkeep best x List.mem_cons_self hbest (Bool.eq_false_iff.mpr hcomp))

lemma search_found {K : α → Prop} {xs before after : List α} {best : α}
    (hkeep : ∀ b x, x ∈ xs → K b → comp x b = false → K x)
    (hbeat : ∀ b ∈ best :: xs, ¬ K b → ∀ x ∈ xs, K x → comp x b = false)
    (hfound : ∃ x ∈ best :: xs, K x) : K (search comp before best after xs).1 := by
  induction xs generalizing before best after with
  | nil =>
    obtain ⟨x, hx, hK⟩ := hfound
    exact List.mem_singleton.mp hx ▸ hK
  | cons x xs ih =>
    have hrest : ∀ b y, y ∈ xs → K b → comp y b = false → K y := fun b y hy =>
      hkeep b y (List.mem_cons_of_mem x hy)
    unfold search
    split_ifs with hcomp
    · refine ih hrest (fun b hb hnot y hy => hbeat b ?_ hnot y (List.mem_cons_of_mem x hy)) ?_
      · rcases List.mem_cons.mp hb with rfl | hb
        · exact List.mem_cons_self
        · exact List.mem_cons_of_mem _ (List.mem_cons_of_mem x hb)
      · by_cases hK : K best
        · exact ⟨best, List.mem_cons_self, hK⟩
        · obtain ⟨y, hy, hKy⟩ := hfound
          rcases List.mem_cons.mp hy with rfl | hy
          · exact absurd hKy hK
          · rcases List.mem_cons.mp hy with rfl | hy
            · have hbetter := hbeat best List.mem_cons_self hK y List.mem_cons_self hKy
              exact absurd (hbetter.symm.trans hcomp) Bool.false_ne_true
            · exact ⟨y, List.mem_cons_of_mem best hy, hKy⟩
    · refine ih hrest (fun b hb hnot y hy =>
        hbeat b (List.mem_cons_of_mem best hb) hnot y (List.mem_cons_of_mem x hy)) ?_
      obtain ⟨y, hy, hKy⟩ := hfound
      rcases List.mem_cons.mp hy with rfl | hy
      · have hK := hkeep y x List.mem_cons_self hKy (Bool.eq_false_iff.mpr hcomp)
        exact ⟨x, List.mem_cons_self, hK⟩
      · exact ⟨y, hy, hKy⟩

lemma pop_perm {xs rest : List α} {x : α} (h : pop comp xs = some (x, rest)) :
    xs.Perm (x :: rest) := by
  cases xs with
  | nil => cases h
  | cons y ys =>
    have := search_perm comp [] y [] ys
    rw [Option.some.inj h] at this
    exact this

lemma pop_eq_none {xs : List α} (h : pop comp xs = none) : xs = [] := by
  cases xs with
  | nil => rfl
  | cons y ys => cases h

lemma drain_perm (xs : List α) : (drain comp xs.length xs).Perm xs := by
  generalize hn : xs.length = n
  induction n generalizing xs with
  | zero =>
    rw [List.length_eq_zero_iff.1 hn]
    exact .refl _
  | succ n ih =>
    unfold drain
    split
    case h_1 hpop =>
      rw [pop_eq_none hpop] at hn
      cases hn
    case h_2 x rest hpop =>
      have hperm := pop_perm hpop
      have hlen := hperm.length_eq
      rw [List.length_cons] at hlen
      exact ((ih rest (by omega)).cons x).trans hperm.symm

end DcSim.CustomPriorityQueue
