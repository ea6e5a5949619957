import Mathlib.Data.List.Induction
import Mathlib.Data.List.Perm.Basic
import Mathlib.Order.Lattice
import Mathlib.Order.Nat

/-!
An element taken out of a list, and which one a loop over the list finds.

A loop that keeps the index of the best element so far finds the first of the best ones if an
element has to be better than it, and the last of them if it has to be as good.
-/

namespace DcSim.Selection

variable {α β : Type*}

/-- An element is taken out of the list; those before it and those after it have a property, and
stay in their order. -/
def Taken (before after : α → Prop) (xs : List α) (x : α) (rest : List α) : Prop :=
  ∃ l r, xs = l ++ x :: r ∧ rest = l ++ r ∧ (∀ y ∈ l, before y) ∧ ∀ y ∈ r, after y

variable {before after : α → Prop} {xs rest : List α} {x : α}

lemma Taken.perm (h : Taken before after xs x rest) : xs.Perm (x :: rest) := by
  obtain ⟨l, r, rfl, rfl, -, -⟩ := h
  exact List.perm_middle

lemma Taken.mem (h : Taken before after xs x rest) : x ∈ xs :=
  h.perm.mem_iff.2 List.mem_cons_self

lemma Taken.sublist (h : Taken before after xs x rest) : rest.Sublist xs := by
  obtain ⟨l, r, rfl, rfl, -, -⟩ := h
  exact (List.sublist_cons_self x r).append_left l

lemma Taken.mono {before' after' : α → Prop} (h : Taken before after xs x rest)
    (hbefore : ∀ y ∈ xs, before y → before' y) (hafter : ∀ y ∈ xs, after y → after' y) :
    Taken before' after' xs x rest := by
  obtain ⟨l, r, rfl, rfl, hl, hr⟩ := h
  refine ⟨l, r, rfl, rfl, fun y hy => hbefore y (List.mem_append_left _ hy) (hl y hy),
    fun y hy => hafter y ?_ (hr y hy)⟩
  exact List.mem_append_right _ (List.mem_cons_of_mem _ hy)

lemma Taken.forall {P : α → Prop} (h : Taken before after xs x rest) (hx : P x)
    (hbefore : ∀ y, before y → P y) (hafter : ∀ y, after y → P y) : ∀ y ∈ xs, P y := by
  obtain ⟨l, r, rfl, -, hl, hr⟩ := h
  intro y hy
  rcases List.mem_append.1 hy with hy | hy
  · exact hbefore y (hl y hy)
  · rcases List.mem_cons.1 hy with rfl | hy
    · exact hx
    · exact hafter y (hr y hy)

lemma taken_eraseIdx {l r : List α} (hl : ∀ y ∈ l, before y) (hr : ∀ y ∈ r, after y) :
    Taken before after (l ++ x :: r) x ((l ++ x :: r).eraseIdx l.length) := by
  refine ⟨l, r, rfl, ?_, hl, hr⟩
  rw [List.eraseIdx_append_of_length_le le_rfl, Nat.sub_self, List.eraseIdx_cons_zero]

lemma taken_find? {p : α → Bool} (h : xs.find? p = some x) :
    p x = true ∧ Taken (p · = false) (fun _ => True) xs x (xs.eraseP p) := by
  obtain ⟨hx, l, r, rfl, hl⟩ := List.find?_eq_some_iff_append.1 h
  have hl : ∀ y ∈ l, p y = false := fun y hy => by simpa using hl y hy
  refine ⟨hx, l, r, rfl, ?_, hl, fun _ _ => trivial⟩
  rw [List.eraseP_append_right _ fun y hy => by simp [hl y hy], List.eraseP_cons_of_pos hx]

lemma exists_findIdx? {p : α → Bool} (hx : x ∈ xs) (hp : p x = true) :
    ∃ i y, xs.findIdx? p = some i ∧ xs[i]? = some y ∧ p y = true ∧
      Taken (p · = false) (fun _ => True) xs y (xs.eraseIdx i) := by
  have hsome : (xs.findIdx? p).isSome := by
    rw [List.findIdx?_isSome, List.any_eq_true]
    exact ⟨x, hx, hp⟩
  obtain ⟨i, hi⟩ := Option.isSome_iff_exists.1 hsome
  obtain ⟨hlt, hy, hbefore⟩ := List.findIdx?_eq_some_iff_getElem.1 hi
  refine ⟨i, xs[i], hi, List.getElem?_eq_getElem hlt, hy, xs.take i, xs.drop (i + 1), ?_, ?_, ?_,
    fun _ _ => trivial⟩
  · rw [List.getElem_cons_drop, List.take_append_drop]
  · exact List.eraseIdx_eq_take_drop_succ _ _
  · intro y hy
    obtain ⟨j, hj, rfl⟩ := List.mem_take_iff_getElem.1 hy
    exact Bool.not_eq_true _ ▸ hbefore j (Nat.lt_min.1 hj).1

lemma Taken.unique [LinearOrder β] (rank : α → β) {y : α} {rest' : List α}
    (h : Taken (rank x < rank ·) (rank x ≤ rank ·) xs x rest)
    (h' : Taken (rank y < rank ·) (rank y ≤ rank ·) xs y rest') : x = y ∧ rest = rest' := by
  have huniq : ∀ {l r m r' : List α} {x y : α}, x :: r = m ++ y :: r' →
      (∀ z ∈ r, rank x ≤ rank z) → (∀ z ∈ l ++ m, rank y < rank z) →
      m = [] ∧ x = y ∧ r = r' := by
    intro l r m r' x y heq hr hl
    cases m with
    | nil => exact ⟨rfl, List.cons_eq_cons.1 heq⟩
    | cons z m =>
      obtain ⟨rfl, rfl⟩ := List.cons_eq_cons.1 heq
      have hlt := hl x (by simp)
      exact absurd (hr y (by simp)) (not_le.2 hlt)
  obtain ⟨l, r, rfl, rfl, hl, hr⟩ := h
  obtain ⟨l', r', heq, rfl, hl', hr'⟩ := h'
  rcases List.append_eq_append_iff.1 heq with ⟨m, rfl, hm⟩ | ⟨m, rfl, hm⟩
  · obtain ⟨rfl, rfl, rfl⟩ := huniq hm hr hl'
    simp
  · obtain ⟨rfl, rfl, rfl⟩ := huniq hm hr' hl
    simp

/-! ### The loops -/

section Loops

variable [LinearOrder β] (rank : α → β) (b : β)

/-- The loop that moves on to an element as good as the best so far. -/
def lastMax (xs : List α) : β × ℕ :=
  xs.zipIdx.foldl (fun w y => if w.1 ≤ rank y.1 then (rank y.1, y.2) else w) (b, 0)

/-- The loop that moves on to an element better than the best so far. -/
def firstMin (xs : List α) : β × Option (α × ℕ) :=
  xs.zipIdx.foldl (fun w y => if rank y.1 < w.1 then (rank y.1, some y) else w) (b, none)

variable {rank b}

lemma lastMax_append (xs : List α) (x : α) : lastMax rank b (xs ++ [x]) =
    if (lastMax rank b xs).1 ≤ rank x then (rank x, xs.length) else lastMax rank b xs := by
  rw [lastMax, List.zipIdx_append, List.foldl_append, Nat.zero_add]
  rfl

lemma firstMin_append (xs : List α) (x : α) : firstMin rank b (xs ++ [x]) =
    if rank x < (firstMin rank b xs).1 then (rank x, some (x, xs.length))
    else firstMin rank b xs := by
  rw [firstMin, List.zipIdx_append, List.foldl_append, Nat.zero_add]
  rfl

lemma lastMax_spec (rank : α → β) (hb : ∀ x, b ≤ rank x) (hne : xs ≠ []) :
    ∃ l x r, xs = l ++ x :: r ∧ lastMax rank b xs = (rank x, l.length) ∧
      (∀ y ∈ l, rank y ≤ rank x) ∧ ∀ y ∈ r, rank y < rank x := by
  induction xs using List.reverseRecOn with
  | nil => exact absurd rfl hne
  | append_singleton xs z ih =>
    rw [lastMax_append]
    rcases eq_or_ne xs [] with rfl | hxs
    · exact ⟨[], z, [], rfl, if_pos (hb z), nofun, nofun⟩
    · obtain ⟨l, x, r, rfl, hloop, hl, hr⟩ := ih hxs
      rw [hloop]
      split_ifs with hz
      · refine ⟨l ++ x :: r, z, [], rfl, rfl, fun y hy => ?_, nofun⟩
        rcases List.mem_append.1 hy with hy | hy
        · exact (hl y hy).trans hz
        · rcases List.mem_cons.1 hy with rfl | hy
          · exact hz
          · exact (hr y hy).le.trans hz
      · refine ⟨l, x, r ++ [z], by simp, rfl, hl, fun y hy => ?_⟩
        rcases List.mem_append.1 hy with hy | hy
        · exact hr y hy
        · rw [List.mem_singleton.1 hy]
          exact not_le.1 hz

lemma firstMin_spec (rank : α → β) (b : β) (xs : List α) :
    firstMin rank b xs = (b, none) ∧ (∀ y ∈ xs, b ≤ rank y) ∨
      ∃ l x r, xs = l ++ x :: r ∧ firstMin rank b xs = (rank x, some (x, l.length)) ∧
        rank x < b ∧ (∀ y ∈ l, rank x < rank y) ∧ ∀ y ∈ r, rank x ≤ rank y := by
  induction xs using List.reverseRecOn with
  | nil => exact .inl ⟨rfl, nofun⟩
  | append_singleton xs z ih =>
    rw [firstMin_append]
    rcases ih with ⟨hloop, hall⟩ | ⟨l, x, r, rfl, hloop, hx, hl, hr⟩
    · rw [hloop]
      split_ifs with hz
      · exact .inr ⟨xs, z, [], rfl, rfl, hz, fun y hy => hz.trans_le (hall y hy), nofun⟩
      · exact .inl ⟨rfl, List.forall_mem_append.2 ⟨hall, by simpa using hz⟩⟩
    · rw [hloop]
      right
      split_ifs with hz
      · refine ⟨l ++ x :: r, z, [], rfl, rfl, hz.trans hx, fun y hy => ?_, nofun⟩
        rcases List.mem_append.1 hy with hy | hy
        · exact hz.trans (hl y hy)
        · rcases List.mem_cons.1 hy with rfl | hy
          · exact hz
          · exact hz.trans_le (hr y hy)
      · exact ⟨l, x, r ++ [z], by simp, rfl, hx, hl,
          List.forall_mem_append.2 ⟨hr, by simpa using hz⟩⟩

end Loops

end DcSim.Selection
