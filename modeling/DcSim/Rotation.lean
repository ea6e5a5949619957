import Mathlib.Data.List.Nodup
import Mathlib.Data.List.Perm.Basic
import Mathlib.Logic.Function.Iterate
import Mathlib.Order.Nat

/-!
A list served by an index that moves on, where what is served goes to the end.

Each of the two is a round robin by itself; together they are not. The index moves past the
element that has just taken the place of the served one, and where it gets to the end of the list
it meets the element it has served last.
-/

namespace DcSim.Rotation

variable {α : Type*}

structure State (α : Type*) where
  xs : List α
  index : ℕ

namespace State

variable (s : State α)

def place : ℕ := s.index % s.xs.length

def pick : Option α := s.xs[s.place]?

def next : State α := ⟨s.xs.eraseIdx s.place ++ s.pick.toList, (s.place + 1) % s.xs.length⟩

end State

/-- What is served in so many turns. -/
def picks : ℕ → State α → List α
  | 0, _ => []
  | n + 1, s => s.pick.toList ++ picks n s.next

variable {s : State α}

lemma picks_add (m n : ℕ) (s : State α) :
    picks (m + n) s = picks m s ++ picks n (State.next^[m] s) := by
  induction m generalizing s with
  | zero => simp [picks]
  | succ m ih =>
    rw [Nat.succ_add, picks, picks, ih, Function.iterate_succ_apply, List.append_assoc]

lemma place_lt (h : s.xs ≠ []) : s.place < s.xs.length :=
  Nat.mod_lt _ (List.length_pos_iff.2 h)

lemma next_perm (h : s.xs ≠ []) : s.next.xs.Perm s.xs := by
  have hlt := place_lt h
  have hpick : s.pick = some s.xs[s.place] := List.getElem?_eq_getElem hlt
  unfold State.next
  rw [hpick, Option.toList_some]
  exact (List.perm_append_singleton _ _).trans (List.getElem_cons_eraseIdx_perm hlt)

lemma iterate_perm (h : s.xs ≠ []) (k : ℕ) : (State.next^[k] s).xs.Perm s.xs := by
  induction k with
  | zero => exact .refl _
  | succ k ih =>
    rw [Function.iterate_succ_apply']
    refine (next_perm fun hnil => h ?_).trans ih
    rw [hnil] at ih
    exact ih.nil_eq.symm

lemma place_iterate (h : s.xs ≠ []) (k : ℕ) :
    (State.next^[k] s).place = (s.index + k) % s.xs.length := by
  induction k with
  | zero => rfl
  | succ k ih =>
    have hlen := (iterate_perm h k).length_eq
    have hlen' := (iterate_perm h (k + 1)).length_eq
    unfold State.place
    rw [hlen']
    rw [Function.iterate_succ_apply', State.next, ih, hlen]
    simp [Nat.add_assoc]

lemma turn_at {pre post : List α} {x : α} {i : ℕ}
    (hi : i % (pre.length + (post.length + 1)) = pre.length) (n : ℕ) :
    picks (n + 1) ⟨pre ++ x :: post, i⟩ =
      x :: picks n ⟨pre ++ (post ++ [x]), (pre.length + 1) % (pre.length + (post.length + 1))⟩ := by
  have hplace : (⟨pre ++ x :: post, i⟩ : State α).place = pre.length := by
    simpa [State.place] using hi
  have hpick : (⟨pre ++ x :: post, i⟩ : State α).pick = some x := by
    simp [State.pick, hplace]
  rw [picks, State.next, hplace, hpick]
  simp [List.eraseIdx_append_of_length_le]

lemma picks_two {pre : List α} {a b : α} {i : ℕ} (hi : i % (pre.length + 2) = pre.length) :
    picks 2 ⟨pre ++ [a, b], i⟩ = [a, a] := by
  rw [turn_at hi]
  have hlast : pre ++ ([b] ++ [a]) = (pre ++ [b]) ++ a :: [] := by simp
  rw [hlast, turn_at (by simp [Nat.add_assoc])]
  rfl

lemma picks_three {pre : List α} {a b c d : α} {i : ℕ} (hi : i % (pre.length + 4) = pre.length) :
    picks 3 ⟨pre ++ [a, b, c, d], i⟩ = [a, c, a] := by
  rw [turn_at hi]
  have hsecond : pre ++ ([b, c, d] ++ [a]) = (pre ++ [b]) ++ c :: [d, a] := by simp
  rw [hsecond, turn_at (by simp [Nat.add_assoc])]
  have hthird : pre ++ [b] ++ ([d, a] ++ [c]) = (pre ++ [b, d]) ++ a :: [c] := by simp
  rw [hthird, turn_at (by simp [Nat.add_assoc])]
  rfl

lemma not_nodup_of_iterate {k n : ℕ} (hk : k + n ≤ s.xs.length)
    (hn : ¬ (picks n (State.next^[k] s)).Nodup) : ¬ (picks s.xs.length s).Nodup := by
  obtain ⟨r, hr⟩ := Nat.exists_eq_add_of_le hk
  rw [hr, picks_add, picks_add]
  intro hnodup
  exact hn (List.Nodup.of_append_right (List.Nodup.of_append_left hnodup))

lemma exists_eq_append_two {xs : List α} (h : 2 ≤ xs.length) :
    ∃ pre a b, xs = pre ++ [a, b] ∧ pre.length + 2 = xs.length := by
  have hdrop : (xs.drop (xs.length - 2)).length = 2 := by
    rw [List.length_drop]
    omega
  obtain ⟨a, b, hab⟩ := List.length_eq_two.1 hdrop
  refine ⟨xs.take (xs.length - 2), a, b, ?_, ?_⟩
  · rw [← hab, List.take_append_drop]
  · rw [List.length_take]
    omega

lemma exists_eq_append_four {xs : List α} (h : 4 ≤ xs.length) :
    ∃ pre a b c d, xs = pre ++ [a, b, c, d] ∧ pre.length + 4 = xs.length := by
  obtain ⟨front, c, d, hxs, hfront⟩ := exists_eq_append_two (show 2 ≤ xs.length by omega)
  obtain ⟨pre, a, b, hfront', hpre⟩ := exists_eq_append_two (show 2 ≤ front.length by omega)
  exact ⟨pre, a, b, c, d, by simp [hxs, hfront'], by omega⟩

lemma not_nodup_two (h : s.place + 2 = s.xs.length) : ¬ (picks 2 s).Nodup := by
  obtain ⟨xs, i⟩ := s
  have hlength : 2 ≤ xs.length := Nat.le_of_add_left_le (le_of_eq h)
  obtain ⟨pre, a, b, rfl, hpre⟩ := exists_eq_append_two hlength
  have hi : i % (pre.length + 2) = pre.length := by
    simpa [State.place] using h
  rw [picks_two hi]
  simp

lemma not_nodup_three (h : s.place + 4 = s.xs.length) : ¬ (picks 3 s).Nodup := by
  obtain ⟨xs, i⟩ := s
  have hlength : 4 ≤ xs.length := Nat.le_of_add_left_le (le_of_eq h)
  obtain ⟨pre, a, b, c, d, rfl, hpre⟩ := exists_eq_append_four hlength
  have hi : i % (pre.length + 4) = pre.length := by
    simpa [State.place] using h
  rw [picks_three hi]
  simp

lemma place_at {q : ℕ} (hle : s.place ≤ q) (hq : q < s.xs.length) :
    (State.next^[q - s.place] s).place = q ∧
      (State.next^[q - s.place] s).xs.length = s.xs.length := by
  have hne : s.xs ≠ [] := List.length_pos_iff.1 (by omega)
  have hindex : (s.index + (q - s.place)) % s.xs.length = q := by
    rw [← Nat.mod_add_mod, ← State.place, Nat.add_sub_cancel' hle, Nat.mod_eq_of_lt hq]
  exact ⟨(place_iterate hne _).trans hindex, (iterate_perm hne _).length_eq⟩

lemma not_nodup_of_place_lt (h : s.place + 2 ≤ s.xs.length) :
    ¬ (picks s.xs.length s).Nodup := by
  obtain ⟨hplace, hlength⟩ := place_at (s := s) (q := s.xs.length - 2) (by omega) (by omega)
  have htwo : ¬ (picks 2 (State.next^[s.xs.length - 2 - s.place] s)).Nodup :=
    not_nodup_two (by omega)
  exact not_nodup_of_iterate (by omega) htwo

lemma not_nodup_of_last (h : s.place + 1 = s.xs.length) (hlen : 4 ≤ s.xs.length) :
    ¬ (picks s.xs.length s).Nodup := by
  have hne : s.xs ≠ [] := List.length_pos_iff.1 (by omega)
  have hlength := (iterate_perm hne (s.xs.length - 3)).length_eq
  have hplace : (State.next^[s.xs.length - 3] s).place = s.xs.length - 4 := by
    rw [place_iterate hne, ← Nat.mod_add_mod, ← State.place,
      show s.place + (s.xs.length - 3) = s.xs.length - 4 + s.xs.length by omega,
      Nat.add_mod_right, Nat.mod_eq_of_lt (by omega)]
  have hthree : ¬ (picks 3 (State.next^[s.xs.length - 3] s)).Nodup := not_nodup_three (by omega)
  exact not_nodup_of_iterate (by omega) hthree

/-- **The two rotations together serve each element once** only of a single element, or of two if
the second one is the next. -/
theorem picks_perm_iff (hs : s.xs.Nodup) (hne : s.xs ≠ []) :
    (picks s.xs.length s).Perm s.xs ↔ s.xs.length = 1 ∨ s.xs.length = 2 ∧ s.index % 2 = 1 := by
  have hplace := place_lt hne
  obtain ⟨xs, i⟩ := s
  constructor
  · intro hperm
    have hnodup := hperm.nodup_iff.2 hs
    have hlast : (⟨xs, i⟩ : State α).place + 1 = xs.length := by
      by_contra hlast
      exact not_nodup_of_place_lt (Nat.succ_le_of_lt (lt_of_le_of_ne hplace hlast)) hnodup
    have hshort : xs.length < 4 := by
      by_contra hlong
      exact not_nodup_of_last hlast (not_lt.1 hlong) hnodup
    match xs, hne with
    | [a], _ => exact .inl rfl
    | [a, b], _ => exact .inr ⟨rfl, by simpa [State.place] using hlast⟩
    | [a, b, c], _ =>
      -- the first flow is served between two turns of the last one
      have hi : i % 3 = 2 := by simpa [State.place] using hlast
      have hpicks : picks 3 ⟨[a, b, c], i⟩ = [c, a, c] := by
        rw [show [a, b, c] = [a, b] ++ c :: [] from rfl, turn_at hi,
          show [a, b] ++ ([] ++ [c]) = [] ++ a :: [b, c] from rfl, turn_at (by simp),
          show ([] : List α) ++ ([b, c] ++ [a]) = [b] ++ c :: [a] from rfl, turn_at (by simp)]
        rfl
      rw [List.length_cons, List.length_cons, List.length_cons, List.length_nil, hpicks] at hnodup
      simp at hnodup
    | a :: b :: c :: d :: xs, _ =>
      simp only [List.length_cons] at hshort
      omega
  · rintro (hone | ⟨htwo, hi⟩)
    · obtain ⟨a, rfl⟩ := List.length_eq_one_iff.1 hone
      simp [picks, State.pick, State.place, Nat.mod_one]
    · obtain ⟨a, b, rfl⟩ := List.length_eq_two.1 htwo
      have hpicks : picks 2 ⟨[a, b], i⟩ = [b, a] := by
        rw [show [a, b] = [a] ++ b :: [] from rfl, turn_at hi,
          show [a] ++ ([] ++ [b]) = [] ++ a :: [b] from rfl, turn_at (by simp)]
        rfl
      rw [List.length_cons, List.length_cons, List.length_nil, hpicks]
      exact .swap _ _ _

end DcSim.Rotation
