import DcSim.Routing
import Mathlib.Data.Int.CardIntervalMod
import Mathlib.Data.Nat.Count
import Mathlib.Data.Nat.Prime.Basic

/-!
Queues that take turns by a counter.

A counter that goes up by `step` for each packet, read modulo the number of choices, takes
all of them equally often exactly if the step is coprime to that number: otherwise the
choices it never comes to are left out.
-/

namespace DcSim.Routing

/-! ### Turns -/

/-- How many of the first `m` turns come to the choice `c` of `C`. -/
def turns (C step a m c : ℕ) : ℕ := m.count fun k => (a + step * k) % C = c

variable {C step a n c m : ℕ}

lemma exists_turn_iff (hC : 0 < C) (h : step.Coprime C) (hc : c < C) :
    ∃ v, ∀ k, (a + step * k) % C = c ↔ k ≡ v [MOD C] := by
  obtain ⟨e, he⟩ : ∃ e, step * e ≡ 1 [MOD C] := by
    rcases Nat.lt_or_ge 1 C with hlt | hle
    · obtain ⟨e, -, he⟩ := Nat.exists_mul_mod_eq_one_of_coprime h hlt
      exact ⟨e, he.trans (Nat.mod_eq_of_lt hlt).symm⟩
    · obtain rfl : C = 1 := le_antisymm hle hC
      exact ⟨0, Nat.modEq_one⟩
  -- subtracting `a` is adding `(C - 1) * a`
  refine ⟨e * (c + (C - 1) * a), fun k => ?_⟩
  have hall : a + (C - 1) * a = C * a := by
    rw [Nat.add_comm, ← Nat.succ_mul, Nat.succ_eq_add_one, Nat.sub_add_cancel hC]
  have hstep : step * (e * (c + (C - 1) * a)) ≡ c + (C - 1) * a [MOD C] := by
    simpa [Nat.mul_assoc] using he.mul_right (c + (C - 1) * a)
  calc (a + step * k) % C = c
      ↔ a + step * k ≡ c [MOD C] := by rw [Nat.ModEq, Nat.mod_eq_of_lt hc]
    _ ↔ a + step * k + (C - 1) * a ≡ c + (C - 1) * a [MOD C] :=
        ⟨fun hk => hk.add_right _, Nat.ModEq.add_right_cancel' _⟩
    _ ↔ step * k ≡ c + (C - 1) * a [MOD C] := by
        rw [Nat.add_right_comm, hall]
        have hk : C * a + step * k ≡ step * k [MOD C] := by simp
        exact ⟨hk.symm.trans, hk.trans⟩
    _ ↔ step * k ≡ step * (e * (c + (C - 1) * a)) [MOD C] :=
        ⟨fun hk => hk.trans hstep.symm, fun hk => hk.trans hstep⟩
    _ ↔ k ≡ e * (c + (C - 1) * a) [MOD C] :=
        ⟨fun hk => hk.cancel_left_of_coprime h.symm, fun hk => hk.mul_left step⟩

/-- **Turns are fair** over whole rounds exactly if the step is coprime to the number of
choices. -/
theorem turns_eq_iff (hC : 0 < C) :
    (∀ c < C, turns C step a (n * C) c = n) ↔ n = 0 ∨ step.Coprime C := by
  constructor
  · intro h
    refine or_iff_not_imp_left.2 fun hn => ?_
    -- the choice after the first one comes up
    have hturn := h ((a + 1) % C) (Nat.mod_lt _ hC)
    obtain ⟨k, -, hk⟩ := Nat.count_ne_iff_exists.1 (hturn.trans_ne hn)
    have hone : step * k ≡ 1 [MOD C] := Nat.ModEq.add_left_cancel' a hk
    have hgcd : (step * k).Coprime C := by
      rw [Nat.Coprime, hone.gcd_eq, Nat.gcd_one_left]
    exact hgcd.coprime_mul_right
  · rintro (rfl | h) c hc
    · simp [turns]
    · obtain ⟨v, hv⟩ := exists_turn_iff (a := a) hC h hc
      have hmod : ¬ v % C < n * C % C := by simp
      simp only [turns, hv]
      rw [Nat.count_modEq_card _ hC, if_neg hmod, Nat.mul_div_cancel _ hC, Nat.add_zero]

lemma turns_succ : turns C step a (m + 1) c =
    turns C step (a + step) m c + if a % C = c then 1 else 0 := by
  have hshift : ∀ k, a + step * (k + 1) = a + step + step * k := fun k => by
    rw [Nat.mul_add, Nat.mul_one]
    omega
  simp only [turns, Nat.count_succ', hshift, Nat.mul_zero, Nat.add_zero]

/-! ### Packets one after another -/

section

variable {P Q : Type*} (R : Router P Q) (q : Q)

/-- The next queues of packets that come to a queue one after another, and its counter after
them. -/
def nextHops : ℕ → List P → Option (List (Option Q) × ℕ)
  | s, [] => some ([], s)
  | s, p :: ps =>
    (R s p q).bind fun r => (nextHops r.2.1 ps).map fun rs => (r.2.2 :: rs.1, rs.2)

variable {R q}

lemma mem_nextHops {s : ℕ} {ps : List P} {rs : List (Option Q) × ℕ} {r : Option Q}
    (h : nextHops R q s ps = some rs) (hr : r ∈ rs.1) :
    ∃ c p p' c', R c p q = some (p', c', r) := by
  induction ps generalizing s rs with
  | nil =>
    obtain rfl := Option.some.inj h
    cases hr
  | cons p ps ih =>
    obtain ⟨⟨p', c', r'⟩, hp, h⟩ := Option.bind_eq_some_iff.1 h
    obtain ⟨rest, hrest, rfl⟩ := Option.map_eq_some_iff.1 h
    rcases List.mem_cons.1 hr with rfl | hr
    · exact ⟨s, p, p', c', hp⟩
    · exact ih hrest hr

/-- At a queue some of the packets are sprayed: one goes to the choice the counter comes to, and
the counter goes up by `step`, as long as it stays below the limit. The others leave the
counter alone and take none of the choices. A packet that is asked for stays what it is. -/
structure Sprays (R : Router P Q) (q : Q) (C step first limit : ℕ) (choice : ℕ → Q)
    (Comes Sprayed : P → Prop) : Prop where
  choices_pos : 0 < C
  choice_inj : ∀ c < C, ∀ c' < C, choice c = choice c' → c = c'
  spray {s p} : Comes p → Sprayed p → s + step < limit →
    ∃ p', Comes p' ∧ Sprayed p' ∧
      R s p q = some (p', s + step, some (choice ((s + first) % C)))
  aside {s p} : Comes p → ¬ Sprayed p →
    ∃ p' r, Comes p' ∧ ¬ Sprayed p' ∧ R s p q = some (p', s, some r) ∧ ∀ c < C, r ≠ choice c

variable {C step first limit : ℕ} {choice : ℕ → Q} {Comes Sprayed : P → Prop}
  [DecidablePred Sprayed] [DecidableEq Q]

/-- **The packets at such a queue** take the choices in turns. -/
theorem Sprays.count_nextHops (h : Sprays R q C step first limit choice Comes Sprayed) (s : ℕ)
    (ps : List P) (hps : ∀ p ∈ ps, Comes p)
    (hlimit : s + step * ps.countP (Sprayed ·) < limit) :
    ∃ rs, nextHops R q s ps = some (rs, s + step * ps.countP (Sprayed ·)) ∧
      ∀ c < C, rs.count (some (choice c)) =
        turns C step (s + first) (ps.countP (Sprayed ·)) c := by
  induction ps generalizing s with
  | nil => exact ⟨[], rfl, fun c _ => by simp [turns]⟩
  | cons p ps ih =>
    obtain ⟨hp, hps⟩ := List.forall_mem_cons.1 hps
    by_cases hsp : Sprayed p
    · have hcount : (p :: ps).countP (Sprayed ·) = ps.countP (Sprayed ·) + 1 :=
        List.countP_cons_of_pos (by simpa using hsp)
      have hnext : s + step + step * ps.countP (Sprayed ·) =
          s + step * (p :: ps).countP (Sprayed ·) := by rw [hcount, Nat.mul_add]; omega
      obtain ⟨p', -, -, hp'⟩ := h.spray (s := s) hp hsp (by omega)
      obtain ⟨rs, hrs, hcounts⟩ := ih (s + step) hps (by omega)
      refine ⟨some (choice ((s + first) % C)) :: rs, ?_, fun c hc => ?_⟩
      · simp only [nextHops, hp', Option.bind_some, hrs, Option.map_some, hnext]
      · have hchoice : (some (choice ((s + first) % C)) == some (choice c)) =
            decide ((s + first) % C = c) := by
          rw [Bool.eq_iff_iff, beq_iff_eq, decide_eq_true_iff, Option.some_inj]
          exact ⟨h.choice_inj _ (Nat.mod_lt _ h.choices_pos) c hc, fun hcc => by rw [hcc]⟩
        rw [List.count_cons, hcounts c hc, hchoice, hcount, turns_succ, Nat.add_right_comm s]
        simp
    · have hcount : (p :: ps).countP (Sprayed ·) = ps.countP (Sprayed ·) :=
        List.countP_cons_of_neg (by simpa using hsp)
      obtain ⟨p', r, -, -, hp', hr⟩ := h.aside (s := s) hp hsp
      obtain ⟨rs, hrs, hcounts⟩ := ih s hps (by rwa [← hcount])
      refine ⟨some r :: rs, ?_, fun c hc => ?_⟩
      · simp only [nextHops, hp', Option.bind_some, hrs, Option.map_some, hcount]
      · rw [List.count_cons_of_ne (by simpa using hr c hc), hcounts c hc, hcount]

/-- **Spraying is balanced** over whole rounds exactly if the step is coprime to the number of
choices. -/
theorem Sprays.balanced_iff (h : Sprays R q C step first limit choice Comes Sprayed) {s n : ℕ}
    {ps : List P} (hps : ∀ p ∈ ps, Comes p) (hn : ps.countP (Sprayed ·) = n * C)
    (hlimit : s + step * (n * C) < limit) :
    (∃ rs ∈ nextHops R q s ps, ∀ c < C, rs.1.count (some (choice c)) = n) ↔
      n = 0 ∨ step.Coprime C := by
  obtain ⟨rs, hrs, hcounts⟩ := h.count_nextHops s ps hps (by rwa [hn])
  rw [← turns_eq_iff (a := s + first) h.choices_pos]
  constructor
  · rintro ⟨rs', hrs', hbalanced⟩ c hc
    obtain rfl := Option.some.inj (hrs.symm.trans hrs')
    rw [← hn, ← hcounts c hc]
    exact hbalanced c hc
  · exact fun hturns => ⟨_, hrs, fun c hc => by rw [hcounts c hc, hn, hturns c hc]⟩

omit [DecidablePred Sprayed] in
lemma eq_zero_of_never {s n c : ℕ} {ps : List P} (hc : c < C)
    (hnever : ∀ s p p' s', R s p q ≠ some (p', s', some (choice c)))
    (h : ∃ rs ∈ nextHops R q s ps, ∀ c < C, rs.1.count (some (choice c)) = n) : n = 0 := by
  obtain ⟨rs, hrs, hcounts⟩ := h
  by_contra hn
  have hmem : some (choice c) ∈ rs.1 :=
    List.count_pos_iff.1 (by rw [hcounts c hc]; exact Nat.pos_of_ne_zero hn)
  obtain ⟨s, p, p', s', hp⟩ := mem_nextHops hrs hmem
  exact hnever s p p' s' hp

/-! ### A router that is asked twice -/

/-- The answer to a second call, if the first one finds a next queue. -/
def twice (R : Router P Q) : Router P Q := fun s p q =>
  match R s p q with
  | some (p, s, some _) => R s p q
  | r => r

omit [DecidablePred Sprayed] [DecidableEq Q] in
/-- **Asking twice doubles the step**: every other turn is lost. -/
theorem Sprays.twice (h : Sprays R q C step first limit choice Comes Sprayed) :
    Sprays (twice R) q C (2 * step) (first + step) limit choice Comes Sprayed where
  choices_pos := h.choices_pos
  choice_inj := h.choice_inj
  spray {s p} hp hsp hlimit := by
    obtain ⟨p₁, hp₁, hsp₁, h₁⟩ := h.spray (s := s) hp hsp (by omega)
    obtain ⟨p₂, hp₂, hsp₂, h₂⟩ := h.spray (s := s + step) hp₁ hsp₁ (by omega)
    refine ⟨p₂, hp₂, hsp₂, ?_⟩
    rw [Nat.two_mul, ← Nat.add_assoc, Nat.add_comm first, ← Nat.add_assoc, ← h₂]
    simp only [Routing.twice, h₁]
  aside {s p} hp hsp := by
    obtain ⟨p₁, r₁, hp₁, hsp₁, h₁, -⟩ := h.aside (s := s) hp hsp
    obtain ⟨p₂, r₂, hp₂, hsp₂, h₂, hr₂⟩ := h.aside (s := s) hp₁ hsp₁
    refine ⟨p₂, r₂, hp₂, hsp₂, ?_, hr₂⟩
    rw [← h₂]
    simp only [Routing.twice, h₁]

omit [DecidablePred Sprayed] [DecidableEq Q] in
lemma exists_of_twice {s s' : ℕ} {p p' : P} {r : Option Q}
    (h : twice R s p q = some (p', s', r)) : ∃ s₁ p₁, R s₁ p₁ q = some (p', s', r) := by
  unfold twice at h
  split at h
  · exact ⟨_, _, h⟩
  · exact ⟨_, _, h⟩

/-- **A router that is asked twice** sprays whole rounds evenly exactly if the number of choices
is odd, and there is no choice that is never taken. -/
theorem twice_balanced_iff {Fits : Prop} {s n : ℕ} {ps : List P}
    (hC : 0 < C) (hinj : ∀ c < C, ∀ c' < C, choice c = choice c' → c = c')
    (haside : ∀ {s p}, Comes p → ¬ Sprayed p →
      ∃ r, R s p q = some (p, s, some r) ∧ ∀ c < C, r ≠ choice c)
    (hfits : Fits → Sprays R q C 1 0 limit choice Comes Sprayed)
    (hnever : ¬ Fits → ∃ c < C, ∀ s p p' s', R s p q ≠ some (p', s', some (choice c)))
    (hps : ∀ p ∈ ps, Comes p) (hn : ps.countP (Sprayed ·) = n * C)
    (hlimit : s + 2 * (n * C) < limit) :
    (∃ rs ∈ nextHops (twice R) q s ps, ∀ c < C, rs.1.count (some (choice c)) = n) ↔
      n = 0 ∨ Odd C ∧ Fits := by
  by_cases hF : Fits
  · rw [(hfits hF).twice.balanced_iff hps hn hlimit, and_iff_left hF, ← Nat.coprime_two_left]
  · rw [iff_false_intro (fun h : Odd C ∧ Fits => hF h.2), or_false]
    constructor
    · obtain ⟨c, hc, hno⟩ := hnever hF
      refine eq_zero_of_never hc fun s p p' s' h => ?_
      obtain ⟨s₁, p₁, h₁⟩ := exists_of_twice h
      exact hno s₁ p₁ p' s' h₁
    · rintro rfl
      rw [Nat.zero_mul, List.countP_eq_zero] at hn
      have hpass : ∀ p ∈ ps, Comes p ∧ ¬ Sprayed p := fun p hp =>
        ⟨hps p hp, by simpa using hn p hp⟩
      have hrest : Sprays R q C 1 0 limit choice (fun p => Comes p ∧ ¬ Sprayed p)
          fun _ => False :=
        { choices_pos := hC
          choice_inj := hinj
          spray := fun _ hno => hno.elim
          aside := fun {s p} hp _ => by
            obtain ⟨r, hr, hne⟩ := haside (s := s) hp.1 hp.2
            exact ⟨p, r, hp, not_false, hr, hne⟩ }
      exact (hrest.twice.balanced_iff hpass (by simp) hlimit).2 (.inl rfl)

end

end DcSim.Routing
