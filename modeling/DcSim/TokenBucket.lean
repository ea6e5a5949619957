import Mathlib.Algebra.Order.Field.Basic
import Mathlib.Data.List.Count
import Mathlib.Logic.Relation
import Mathlib.Tactic.Linarith

/-!
A token bucket, and how much it lets go in a window of time.

Each thing that is let go takes a token; a fill adds one, up to the capacity. What is let go between
two moments is therefore at most the capacity and what was filled in between. If the fills are
spaced in time, a window has room for as many of them as for the spaces, and one more.
-/

namespace DcSim.TokenBucket

structure Bucket (T : Type*) where
  now : T
  tokens : ℕ
  released : List T
  filled : List T

variable {T : Type*} [LinearOrder T]

inductive Step (cap : ℕ) : Bucket T → Bucket T → Prop
  | wait {b : Bucket T} {time : T} (hnow : b.now ≤ time) : Step cap b { b with now := time }
  | release {b : Bucket T} {time : T} (hnow : b.now ≤ time) (htoken : 1 ≤ b.tokens) :
      Step cap b ⟨time, b.tokens - 1, b.released ++ [time], b.filled⟩
  | fill {b : Bucket T} {time : T} {n : ℕ} (hnow : b.now ≤ time) (hn : n ≤ b.tokens + 1)
      (hcap : n ≤ cap) : Step cap b ⟨time, n, b.released, b.filled ++ [time]⟩

/-- How many of the times are in a window. -/
def within (x y : T) (ts : List T) : ℕ := ts.countP fun t => x ≤ t ∧ t ≤ y

lemma within_append (x y : T) (ts : List T) (t : T) :
    within x y (ts ++ [t]) = within x y ts + if x ≤ t ∧ t ≤ y then 1 else 0 := by
  simp [within, List.countP_append, List.countP_singleton]

lemma within_eq_zero {x y : T} {ts : List T} (h : ∀ t ∈ ts, t < x) : within x y ts = 0 := by
  refine List.countP_eq_zero.2 fun t ht hw => ?_
  exact absurd (h t ht) (not_lt.2 (of_decide_eq_true hw).1)

/-! ### Two moments -/

/-- **What is let go between two moments** is at most the tokens there were and what was filled in
between. -/
theorem released_le {cap : ℕ} {b c : Bucket T} (h : Relation.ReflTransGen (Step cap) b c) :
    ∃ rel fil, c.released = b.released ++ rel ∧ c.filled = b.filled ++ fil ∧
      rel.length + c.tokens ≤ b.tokens + fil.length := by
  induction h with
  | refl => exact ⟨[], [], by simp, by simp, by simp⟩
  | tail _ hstep ih =>
    obtain ⟨rel, fil, hrel, hfil, hle⟩ := ih
    cases hstep with
    | wait hnow => exact ⟨rel, fil, hrel, hfil, hle⟩
    | release hnow htoken =>
      refine ⟨rel ++ [_], fil, by rw [hrel, List.append_assoc], hfil, ?_⟩
      simp only [List.length_append, List.length_singleton]
      omega
    | fill hnow hn hcap =>
      refine ⟨rel, fil ++ [_], hrel, by rw [hfil, List.append_assoc], ?_⟩
      simp only [List.length_append, List.length_singleton]
      omega

/-! ### A window -/

structure Conforms (cap : ℕ) (b : Bucket T) : Prop where
  tokens_le : b.tokens ≤ cap
  past : ∀ t ∈ b.released, t ≤ b.now
  window : ∀ x y, within x y b.released + (if b.now ≤ y then b.tokens else 0) ≤
    cap + within x y b.filled

lemma Conforms.within_eq_zero {cap : ℕ} {b : Bucket T} (h : Conforms cap b) {x y time : T}
    (hnow : b.now ≤ time) (hx : time < x) : within x y b.released = 0 :=
  TokenBucket.within_eq_zero fun t ht => ((h.past t ht).trans hnow).trans_lt hx

lemma Conforms.step {cap : ℕ} {b c : Bucket T} (h : Conforms cap b) (hstep : Step cap b c) :
    Conforms cap c := by
  cases hstep with
  | wait hnow =>
    refine ⟨h.tokens_le, fun t ht => (h.past t ht).trans hnow, fun x y => ?_⟩
    have hwindow := h.window x y
    dsimp only
    split_ifs with hy
    · rwa [if_pos (hnow.trans hy)] at hwindow
    · omega
  | @release time hnow htoken =>
    refine ⟨(Nat.sub_le _ _).trans h.tokens_le, fun t ht => ?_, fun x y => ?_⟩
    · rcases List.mem_append.1 ht with ht | ht
      · exact (h.past t ht).trans hnow
      · exact (List.mem_singleton.1 ht).le
    · have hwindow := h.window x y
      have htokens := h.tokens_le
      rw [within_append]
      dsimp only
      rcases lt_or_ge y time with hy | hy
      · rw [if_neg fun hw => absurd hw.2 (not_le.2 hy), if_neg (not_le.2 hy)]
        omega
      · rw [if_pos (hnow.trans hy)] at hwindow
        rw [if_pos hy]
        split_ifs with hx
        · omega
        · rw [h.within_eq_zero hnow (not_le.1 fun hx' => hx ⟨hx', hy⟩)]
          omega
  | @fill time n hnow hn hcap =>
    refine ⟨hcap, fun t ht => (h.past t ht).trans hnow, fun x y => ?_⟩
    have hwindow := h.window x y
    rw [within_append]
    dsimp only
    rcases lt_or_ge y time with hy | hy
    · rw [if_neg (not_le.2 hy)]
      omega
    · rw [if_pos (hnow.trans hy)] at hwindow
      rw [if_pos hy]
      split_ifs with hx
      · omega
      · rw [h.within_eq_zero hnow (not_le.1 fun hx' => hx ⟨hx', hy⟩)]
        omega

/-! ### Spaced fills -/

section Spaced

variable {F : Type*} [Field F] [LinearOrder F]

/-- Each of the times is a space after those before it. -/
def Spaced (d : F) (ts : List F) : Prop := ts.Pairwise fun s t => s + d ≤ t

lemma Spaced.append {d : F} {ts : List F} (h : Spaced d ts) {t : F}
    (ht : ∀ s ∈ ts, s + d ≤ t) : Spaced d (ts ++ [t]) := by
  refine List.pairwise_append.2 ⟨h, List.pairwise_singleton _ _, fun s hs u hu => ?_⟩
  rw [List.mem_singleton.1 hu]
  exact ht s hs

variable [IsStrictOrderedRing F]

lemma Spaced.length_mul_le {d t y : F} {ts : List F} (h : Spaced d (t :: ts))
    (hy : ∀ s ∈ t :: ts, s ≤ y) : ts.length * d ≤ y - t := by
  induction ts generalizing t with
  | nil => simpa using hy
  | cons u ts ih =>
    obtain ⟨ht, h⟩ := List.pairwise_cons.1 h
    have hrest := ih h (List.forall_mem_cons.1 hy).2
    have hu := ht u List.mem_cons_self
    rw [List.length_cons, Nat.cast_succ, add_mul, one_mul]
    linarith

lemma Spaced.within_le {d : F} {ts : List F} (h : Spaced d ts) (hd : 0 < d) (x : F) {L : F}
    (hL : 0 ≤ L) : (within x (x + L) ts : F) ≤ 1 + L / d := by
  have hwindow : Spaced d (ts.filter fun t => x ≤ t ∧ t ≤ x + L) := h.sublist List.filter_sublist
  have hmem : ∀ t ∈ ts.filter fun t => x ≤ t ∧ t ≤ x + L, x ≤ t ∧ t ≤ x + L := fun t ht =>
    of_decide_eq_true (List.mem_filter.1 ht).2
  rw [within, List.countP_eq_length_filter]
  cases hts : ts.filter fun t => x ≤ t ∧ t ≤ x + L with
  | nil =>
    have := div_nonneg hL hd.le
    simp only [List.length_nil, Nat.cast_zero]
    linarith
  | cons t us =>
    rw [hts] at hwindow hmem
    have hle := hwindow.length_mul_le fun s hs => (hmem s hs).2
    have ht := (hmem t List.mem_cons_self).1
    have hspaces : (us.length : F) ≤ L / d := (le_div_iff₀ hd).2 (by linarith)
    rw [List.length_cons, Nat.cast_succ]
    linarith

/-- **What a bucket with spaced fills lets go in a window** of a length. -/
theorem Conforms.within_le {cap : ℕ} {b : Bucket F} (h : Conforms cap b) {d : F}
    (hspaced : Spaced d b.filled) (hd : 0 < d) (x : F) {L : F} (hL : 0 ≤ L) :
    (within x (x + L) b.released : F) ≤ cap + 1 + L / d := by
  have hwindow : within x (x + L) b.released ≤ cap + within x (x + L) b.filled :=
    (Nat.le_add_right _ _).trans (h.window x (x + L))
  have hfills := hspaced.within_le hd x hL
  have hcast : (within x (x + L) b.released : F) ≤ cap + (within x (x + L) b.filled : F) := by
    exact_mod_cast hwindow
  linarith

end Spaced

end DcSim.TokenBucket
