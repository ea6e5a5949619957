import Mathlib.Data.Nat.Basic

/-!
Binary search for the first number that is not below.

`below` holds of an initial segment of an interval. The search halves the interval until one number
is left; so many turns as there are numbers are enough.
-/

namespace DcSim.Bisect

variable (below : ℕ → Prop) [DecidablePred below]

/-- The search from `lo` to `hi`, for at most so many turns. -/
def bisect : ℕ → ℕ → ℕ → ℕ
  | 0, lo, _ => lo
  | turns + 1, lo, hi =>
    if lo < hi then
      let mid := (lo + hi) / 2
      if below mid then bisect turns (mid + 1) hi else bisect turns lo mid
    else lo

variable {below}

/-- **The number that is found** is not below, if the last one is not, and all before it are. -/
theorem bisect_spec {turns lo hi : ℕ} (hle : lo ≤ hi) (hturns : hi - lo ≤ turns)
    (hdown : ∀ i j, i ≤ j → j ≤ hi → below j → below i) (hlast : ¬ below hi) :
    lo ≤ bisect below turns lo hi ∧ bisect below turns lo hi ≤ hi ∧
      ¬ below (bisect below turns lo hi) ∧
        ∀ i, lo ≤ i → i < bisect below turns lo hi → below i := by
  induction turns generalizing lo hi with
  | zero =>
    obtain rfl : lo = hi := by omega
    exact ⟨le_rfl, le_rfl, hlast, fun i hi hlt => absurd hlt (Nat.not_lt.2 hi)⟩
  | succ turns ih =>
    unfold bisect
    dsimp only
    split_ifs with hlt hmid
    · have hmid' : (lo + hi) / 2 + 1 ≤ hi := by omega
      obtain ⟨hlow, hhigh, hfound, hbefore⟩ := ih hmid' (by omega) hdown hlast
      refine ⟨by omega, hhigh, hfound, fun i hi' hi'' => ?_⟩
      rcases Nat.lt_or_ge ((lo + hi) / 2) i with hafter | hbefore'
      · exact hbefore i hafter hi''
      · exact hdown i _ hbefore' (by omega) hmid
    · have hmid' : lo ≤ (lo + hi) / 2 := by omega
      obtain ⟨hlow, hhigh, hrest⟩ := ih hmid' (by omega)
        (fun i j hij hj => hdown i j hij (by omega)) hmid
      exact ⟨hlow, by omega, hrest⟩
    · obtain rfl : lo = hi := by omega
      exact ⟨le_rfl, le_rfl, hlast, fun i hi hlt => absurd hlt (Nat.not_lt.2 hi)⟩

end DcSim.Bisect
