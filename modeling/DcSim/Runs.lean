import Mathlib.Data.List.Basic
import Mathlib.Order.Basic

/-!
Runs of a partial, labelled step function.

A machine has one initial state and, for each choice of its environment, at most one next
state. A property of every reachable state is proved by an invariant; a property of every
state of one run, which holds as long as the choices of that run meet a condition, by an
invariant that a step keeps exactly when it meets the condition.
-/

namespace DcSim.Runs

/-- An initial state and a step for each choice that is enabled. -/
structure Machine (S A : Type*) where
  init : S
  next : S → A → Option S

variable {S A : Type*} (M : Machine S A)

/-- The state after a list of choices, if each of them was enabled. -/
def exec : S → List A → Option S
  | s, [] => some s
  | s, a :: as => (M.next s a).bind fun t => exec t as

@[simp] lemma exec_nil (s : S) : exec M s [] = some s := rfl
@[simp] lemma exec_cons (s : S) (a : A) (as : List A) :
    exec M s (a :: as) = (M.next s a).bind fun t => exec M t as := rfl

/-- The states some list of choices leads to. -/
inductive Reach : S → Prop
  | init : Reach M.init
  | step {s t : S} {a : A} : Reach s → M.next s a = some t → Reach t

variable {M}

lemma Reach.of_exec {s t : S} {as : List A} (hs : Reach M s) (h : exec M s as = some t) :
    Reach M t := by
  induction as generalizing s with
  | nil => obtain rfl : s = t := by simpa using h
           exact hs
  | cons a as ih =>
    obtain ⟨u, hu, h⟩ := Option.bind_eq_some_iff.mp h
    exact ih (hs.step hu) h

lemma exists_exec_of_any {P : S → Prop} [DecidablePred P] {s : S} {as : List A}
    (h : (exec M s as).any (fun t => P t) = true) : ∃ t, exec M s as = some t ∧ P t := by
  obtain ⟨t, ht, hP⟩ := (Option.any_eq_true _ _).mp h
  exact ⟨t, ht, of_decide_eq_true hP⟩

lemma exists_reach_of_exec_any {P : S → Prop} [DecidablePred P] (as : List A)
    (h : (exec M M.init as).any (fun s => P s) = true) : ∃ s, Reach M s ∧ P s := by
  obtain ⟨s, hs, hP⟩ := exists_exec_of_any h
  exact ⟨s, Reach.init.of_exec hs, hP⟩

/-- **The invariant rule**: what holds at first and is kept by each step of a reachable state
holds of every reachable state. -/
theorem Reach.inv {I : S → Prop} (h0 : I M.init)
    (hs : ∀ {s t a}, Reach M s → I s → M.next s a = some t → I t) {s : S} (h : Reach M s) :
    I s := by
  induction h with
  | init => exact h0
  | step hr hn ih => exact hs hr ih hn

theorem Reach.exec_mono {α : Type*} [Preorder α] {f : S → α}
    (hf : ∀ {s t a}, Reach M s → M.next s a = some t → f s ≤ f t) {s t : S} {as : List A}
    (hs : Reach M s) (h : exec M s as = some t) : f s ≤ f t := by
  induction as generalizing s with
  | nil => obtain rfl : s = t := by simpa using h
           exact le_rfl
  | cons a as ih =>
    obtain ⟨u, hu, h⟩ := Option.bind_eq_some_iff.mp h
    exact (hf hs hu).trans (ih (hs.step hu) h)

/-! ### Properties along one run -/

variable (M)

/-- Every state of the run has the property. -/
def Always (P : S → Prop) : S → List A → Prop
  | s, [] => P s
  | s, a :: as => P s ∧ ∀ t, M.next s a = some t → Always P t as

/-- Whether a property holds all along a run can be tried out. -/
def decidableAlways (P : S → Prop) [DecidablePred P] : ∀ s as, Decidable (Always M P s as)
  | s, [] => inferInstanceAs (Decidable (P s))
  | s, a :: as =>
    match h : M.next s a with
    | none => decidable_of_iff (P s) ⟨fun hP => ⟨hP, fun _ ht => nomatch h.symm.trans ht⟩, And.left⟩
    | some t =>
      have := decidableAlways P t as
      decidable_of_iff (P s ∧ Always M P t as)
        ⟨fun hP => ⟨hP.1, fun _ ht => Option.some.inj (h.symm.trans ht) ▸ hP.2⟩,
          fun hP => ⟨hP.1, hP.2 t h⟩⟩

instance (P : S → Prop) [DecidablePred P] (s : S) (as : List A) : Decidable (Always M P s as) :=
  decidableAlways M P s as

/-- Every choice taken in the run meets the condition, in the state it is taken in. -/
def Along (C : S → A → Prop) : S → List A → Prop
  | _, [] => True
  | s, a :: as => ∀ t, M.next s a = some t → C s a ∧ Along C t as

/-- Whether a run meets a condition can be tried out. -/
def decidableAlong (C : S → A → Prop) [∀ s a, Decidable (C s a)] :
    ∀ s as, Decidable (Along M C s as)
  | _, [] => isTrue trivial
  | s, a :: as =>
    match h : M.next s a with
    | none => isTrue fun _ ht => nomatch h.symm.trans ht
    | some t =>
      have := decidableAlong C t as
      decidable_of_iff (C s a ∧ Along M C t as)
        ⟨fun hC _ ht => Option.some.inj (h.symm.trans ht) ▸ hC, fun hC => hC t h⟩

instance (C : S → A → Prop) [∀ s a, Decidable (C s a)] (s : S) (as : List A) :
    Decidable (Along M C s as) := decidableAlong M C s as

variable {M}

lemma Always.head {P : S → Prop} {s : S} {as : List A} (h : Always M P s as) : P s := by
  cases as with
  | nil => exact h
  | cons a as => exact h.1

lemma Always.last {P : S → Prop} {s t : S} {as : List A} (h : Always M P s as)
    (he : exec M s as = some t) : P t := by
  induction as generalizing s with
  | nil => obtain rfl : s = t := by simpa using he
           exact h
  | cons a as ih =>
    obtain ⟨u, hu, he⟩ := Option.bind_eq_some_iff.mp he
    exact ih (h.2 u hu) he

lemma not_always_of_exec_any {P : S → Prop} [DecidablePred P] {s : S} {as : List A}
    (h : (exec M s as).any (fun t => ¬ P t) = true) : ¬ Always M P s as := by
  obtain ⟨t, ht, hP⟩ := exists_exec_of_any h
  exact fun ha => hP (ha.last ht)

lemma Always.mono {P Q : S → Prop} (hPQ : ∀ s, P s → Q s) {s : S} {as : List A}
    (h : Always M P s as) : Always M Q s as := by
  induction as generalizing s with
  | nil => exact hPQ s h
  | cons a as ih => exact ⟨hPQ s h.1, fun t ht => ih (h.2 t ht)⟩

lemma always_iff_prefix {P : S → Prop} {s : S} {as : List A} :
    Always M P s as ↔ ∀ bs, bs <+: as → ∀ t, exec M s bs = some t → P t := by
  induction as generalizing s with
  | nil => simp [Always]
  | cons a as ih =>
    constructor
    · rintro ⟨hP, hrest⟩ (_ | ⟨b, bs⟩) hbs t ht
      · obtain rfl : s = t := by simpa using ht
        exact hP
      · obtain ⟨rfl, hrest'⟩ := List.cons_prefix_cons.1 hbs
        obtain ⟨u, hu, ht⟩ := Option.bind_eq_some_iff.mp ht
        exact ih.1 (hrest u hu) bs hrest' t ht
    · refine fun h => ⟨h [] (List.nil_prefix) s rfl, fun u hu => ih.2 fun bs hbs t ht => ?_⟩
      exact h (a :: bs) (List.cons_prefix_cons.2 ⟨rfl, hbs⟩) t (by simpa [hu] using ht)

theorem Along.always {J : S → Prop} {C : S → A → Prop}
    (hs : ∀ {s t a}, J s → C s a → M.next s a = some t → J t) {s : S} {as : List A} (hJ : J s)
    (h : Along M C s as) : Always M J s as := by
  induction as generalizing s with
  | nil => exact hJ
  | cons a as ih =>
    refine ⟨hJ, fun t ht => ?_⟩
    obtain ⟨hC, h⟩ := h t ht
    exact ih (hs hJ hC ht) h

/-- **The exact condition of a run**: if the steps that meet `C` keep an invariant that gives
`P`, and the others break `P` at once, then `P` holds all along a run exactly when its
steps all meet `C`. -/
theorem always_iff_along {J P : S → Prop} {C : S → A → Prop} (hJP : ∀ {s}, J s → P s)
    (hs : ∀ {s t a}, J s → C s a → M.next s a = some t → J t)
    (hn : ∀ {s t a}, J s → ¬ C s a → M.next s a = some t → ¬ P t) {s : S} (as : List A)
    (hJ : J s) : Always M P s as ↔ Along M C s as := by
  refine ⟨fun h => ?_, fun h => (h.always hs hJ).mono fun _ => hJP⟩
  induction as generalizing s with
  | nil => trivial
  | cons a as ih =>
    intro t ht
    have hC : C s a := by
      by_contra hC
      exact hn hJ hC ht (h.2 t ht).head
    exact ⟨hC, ih (hs hJ hC ht) (h.2 t ht)⟩

lemma Along.last {C : S → A → Prop} {s t u : S} {as : List A} {a : A}
    (h : Along M C s (as ++ [a])) (he : exec M s as = some t) (hn : M.next t a = some u) :
    C t a := by
  induction as generalizing s with
  | nil =>
    obtain rfl : s = t := by simpa using he
    exact (h u hn).1
  | cons b as ih =>
    obtain ⟨v, hv, he⟩ := Option.bind_eq_some_iff.mp he
    exact ih (h v hv).2 he

lemma not_along_of_exec_any {C : S → A → Prop} {P : S → S → Prop} [∀ t u, Decidable (P t u)]
    {s : S} {as : List A} {a : A} (hP : ∀ t u, M.next t a = some u → P t u → ¬ C t a)
    (h : (exec M s as).any (fun t => (M.next t a).any fun u => P t u) = true) :
    ¬ Along M C s (as ++ [a]) := by
  obtain ⟨t, ht, h⟩ := (Option.any_eq_true _ _).mp h
  obtain ⟨u, hu, h⟩ := (Option.any_eq_true _ _).mp h
  exact fun hC => hP t u hu (of_decide_eq_true h) (hC.last ht hu)

/-! ### Steps that end a run -/

/-- A step that fails a check has no next state. -/
def Machine.restrict (M : Machine S A) (ok : S → A → Prop) [∀ s a, Decidable (ok s a)] :
    Machine S A :=
  ⟨M.init, fun s a => if ok s a then M.next s a else none⟩

section Restrict

variable {ok : S → A → Prop} [∀ s a, Decidable (ok s a)]

lemma restrict_next {s t : S} {a : A} (h : (M.restrict ok).next s a = some t) :
    ok s a ∧ M.next s a = some t :=
  Option.ite_none_right_eq_some.mp h

lemma restrict_step {s t : S} {a : A} (hok : ok s a) (h : M.next s a = some t) :
    (M.restrict ok).next s a = some t := (if_pos hok).trans h

lemma Reach.of_restrict {s : S} (h : Reach (M.restrict ok) s) : Reach M s := by
  induction h with
  | init => exact .init
  | step hr hn ih => exact ih.step (restrict_next hn).2

end Restrict

/-! ### Observers -/

/-- The machine with one who sees the state before and after each step. -/
def Machine.observed {O : Type*} (M : Machine S A) (o : O) (see : S → S → O → O) :
    Machine (S × O) A where
  init := (M.init, o)
  next s a := (M.next s.1 a).map fun t => (t, see s.1 t s.2)

lemma observed_next {O : Type*} {o₀ o o' : O} {see : S → S → O → O} {s t : S} {a : A}
    (h : (M.observed o₀ see).next (s, o) a = some (t, o')) :
    M.next s a = some t ∧ o' = see s t o := by
  obtain ⟨t, ht, heq⟩ := Option.map_eq_some_iff.mp h
  obtain ⟨rfl, rfl⟩ := Prod.mk.inj heq
  exact ⟨ht, rfl⟩

/-! ### Outputs -/

/-- What the steps of a run put out, one after the other. -/
def outputs {O : Type*} (M : Machine S A) (out : S → A → List O) : S → List A → List O
  | _, [] => []
  | s, a :: as => (M.next s a).elim [] fun t => out s a ++ outputs M out t as

lemma outputs_cons {O : Type*} {out : S → A → List O} {s t : S} {a : A} (as : List A)
    (h : M.next s a = some t) : outputs M out s (a :: as) = out s a ++ outputs M out t as := by
  rw [outputs, h]
  rfl

lemma outputs_stuck {O : Type*} {out : S → A → List O} {s : S} {a : A} (as : List A)
    (h : M.next s a = none) : outputs M out s (a :: as) = [] := by
  rw [outputs, h]
  rfl

/-! ### Conditions of a run -/

lemma along_of_forall {C : S → A → Prop} (h : ∀ s a, C s a) (s : S) (as : List A) :
    Along M C s as := by
  induction as generalizing s with
  | nil => trivial
  | cons a as ih => exact fun t _ => ⟨h s a, ih t⟩

theorem always_of_inv {J : S → Prop} (hs : ∀ {s t a}, J s → M.next s a = some t → J t) {s : S}
    (as : List A) (hJ : J s) : Always M J s as := by
  have htrue : Along M (fun _ _ => True) s as := along_of_forall (fun _ _ => trivial) s as
  exact htrue.always (fun h _ hn => hs h hn) hJ

theorem along_congr {C D : S → A → Prop}
    (hCD : ∀ {s t a}, Reach M s → M.next s a = some t → (C s a ↔ D s a)) {s : S} (as : List A)
    (hs : Reach M s) : Along M C s as ↔ Along M D s as := by
  induction as generalizing s with
  | nil => exact Iff.rfl
  | cons a as ih =>
    exact forall₂_congr fun t ht => and_congr (hCD hs ht) (ih (hs.step ht))

end DcSim.Runs
