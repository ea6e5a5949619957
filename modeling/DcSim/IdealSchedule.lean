import DcSim.Greedy
import DcSim.IdealArbiter
import Mathlib.Data.List.Nodup

/-!
What `compute_schedule` of the ideal arbiter comes to.

It goes over the list greedily, but behind a finished flow, which it erases, it takes the erased
flow for the next one, and does not look at the one that is; and it leaves a host whose flow has to
wait the flow it had. The schedule is the greedy matching of the unfinished flows exactly when
neither makes a difference.
-/

namespace DcSim.Ideal

open Greedy LossyNet Runs

variable {σ : IdealSpec} {now : Time} {A : Ideal} {f g h x y : ℕ}

/-- Two flows of one source or of one destination. -/
def Conflict (σ : IdealSpec) (f g : ℕ) : Prop := σ.src f = σ.src g ∨ σ.dst f = σ.dst g

instance (σ : IdealSpec) (f g : ℕ) : Decidable (Conflict σ f g) :=
  inferInstanceAs (Decidable (_ ∨ _))

/-- The flow stands before the other one in the list. -/
def Before (A : Ideal) (g f : ℕ) : Prop := A.activeFlows.idxOf g < A.activeFlows.idxOf f

def Assigned (A : Ideal) (f : ℕ) : Prop := ∃ h, (A.hosts h).activeFlow = some f

/-- **A right schedule**: no flow in the list or with a host is finished, no source and no
destination is used twice, and a flow that has to wait has a conflict with an earlier one that does
not. -/
structure Scheduled (σ : IdealSpec) (A : Ideal) : Prop where
  kept : ∀ f ∈ A.activeFlows, (A.flows f).finished = false
  assigned : ∀ f, A.Assigned f → (A.flows f).finished = false
  matching : ∀ h h' f f', h ≠ h' → (A.hosts h).activeFlow = some f →
    (A.hosts h').activeFlow = some f' → σ.src f ≠ σ.src f' ∧ σ.dst f ≠ σ.dst f'
  greedy : ∀ f ∈ A.activeFlows, (A.flows f).finished = false → ¬ A.Assigned f →
    ∃ g ∈ A.activeFlows, A.Assigned g ∧ A.Before g f ∧ Conflict σ g f

/-- The flows of the list that are not finished. -/
def unfinished (A : Ideal) : List ℕ := A.activeFlows.filter fun f => !(A.flows f).finished

def greedyMatching (σ : IdealSpec) (A : Ideal) : List ℕ :=
  select (Free (Conflict σ)) [] A.unfinished

/-- The flows that stand next to each other in a list. -/
def neighbours (L : List ℕ) : List (ℕ × ℕ) := L.zip L.tail

/-- The flow stands right behind a finished one. -/
def Behind (A : Ideal) (x : ℕ) : Prop :=
  ∃ f, (f, x) ∈ neighbours A.activeFlows ∧ (A.flows f).finished = true

/-- **When the schedule comes out right**: no two finished flows stand next to each other; a
finished flow that is not the last has a conflict with an earlier one of the greedy matching, and
the one right behind it is not in the matching, or has its host and is not in the way of a later
one; and a host without a flow in the matching has none, or a finished one of the list. A flow of
the matching right behind a finished one does not count as an earlier one. -/
structure Schedulable (σ : IdealSpec) (A : Ideal) : Prop where
  apart : ∀ p ∈ neighbours A.activeFlows,
    (A.flows p.1).finished = true → (A.flows p.2).finished = false
  blocked : ∀ p ∈ neighbours A.activeFlows, (A.flows p.1).finished = true →
    ∃ g ∈ greedyMatching σ A, ¬ A.Behind g ∧ A.Before g p.1 ∧ Conflict σ g p.1
  passed : ∀ x ∈ greedyMatching σ A, A.Behind x → A.Assigned x ∧
    ∀ y ∈ A.unfinished, ¬ A.Behind y → A.Before x y → Conflict σ x y →
      ∃ g ∈ greedyMatching σ A, ¬ A.Behind g ∧ A.Before g y ∧ Conflict σ g y
  idle : ∀ h f, (A.hosts h).activeFlow = some f → (∀ g ∈ greedyMatching σ A, σ.src g ≠ h) →
    (A.flows f).finished = true ∧ f ∈ A.activeFlows

structure Sound (σ : IdealSpec) (A : Ideal) : Prop where
  nodup : A.activeFlows.Nodup
  host : ∀ h f, (A.hosts h).activeFlow = some f →
    σ.src f = h ∧ (f ∈ A.activeFlows ∨ (A.flows f).finished = true)

lemma Sound.src (hA : Sound σ A) (hf : A.Assigned f) : (A.hosts (σ.src f)).activeFlow = some f := by
  obtain ⟨h, hf⟩ := hf
  exact (hA.host h f hf).1 ▸ hf

lemma mem_unfinished : f ∈ A.unfinished ↔ f ∈ A.activeFlows ∧ (A.flows f).finished = false := by
  simp [unfinished]

lemma mem_unfinished_of_greedy (hg : g ∈ greedyMatching σ A) : g ∈ A.unfinished :=
  (mem_of_mem_select hg).resolve_left List.not_mem_nil

/-! ### Places in a list -/

lemma pairwise_idxOf {L : List ℕ} (hL : L.Nodup) :
    L.Pairwise fun g f => L.idxOf g < L.idxOf f := by
  rw [List.pairwise_iff_getElem]
  intro i j hi hj hij
  rwa [hL.idxOf_getElem, hL.idxOf_getElem]

lemma idxOf_lt_idxOf_iff {L U : List ℕ} (hL : L.Nodup) (hU : U.Sublist L) (hg : g ∈ U)
    (hf : f ∈ U) : U.idxOf g < U.idxOf f ↔ L.idxOf g < L.idxOf f := by
  have hmono : ∀ {g f}, g ∈ U → f ∈ U → U.idxOf g < U.idxOf f → L.idxOf g < L.idxOf f := by
    intro g f hg hf hlt
    have hpair := List.pairwise_iff_getElem.mp ((pairwise_idxOf hL).sublist hU) _ _
      (List.idxOf_lt_length_iff.mpr hg) (List.idxOf_lt_length_iff.mpr hf) hlt
    rwa [List.getElem_idxOf, List.getElem_idxOf] at hpair
  refine ⟨hmono hg hf, fun hlt => ?_⟩
  rcases Nat.lt_trichotomy (U.idxOf g) (U.idxOf f) with h | h | h
  · exact h
  · rw [List.idxOf_inj hg] at h
    exact absurd (h ▸ hlt) (lt_irrefl _)
  · exact absurd (hmono hf hg h) hlt.asymm

lemma mem_neighbours_cons {L : List ℕ} {p : ℕ × ℕ} :
    p ∈ neighbours (f :: x :: L) ↔ p = (f, x) ∨ p ∈ neighbours (x :: L) := List.mem_cons

/-! ### The loop, seen from outside -/

section Lists

variable (fin : ℕ → Bool)

/-- The flows that the loop looks at, which may be given to their hosts. -/
def considered : List ℕ → List ℕ
  | [] => []
  | [f] => if fin f then [] else [f]
  | f :: x :: L => if fin f then f :: considered L else f :: considered (x :: L)

/-- The flows that stay in the list. -/
def keptOf : List ℕ → List ℕ
  | [] => []
  | [f] => if fin f then [] else [f]
  | f :: x :: L => if fin f then x :: keptOf L else f :: keptOf (x :: L)

/-- No two finished flows stand next to each other. -/
def Apart (L : List ℕ) : Prop := ∀ p ∈ neighbours L, fin p.1 = true → fin p.2 = false

variable {fin} {L : List ℕ}

lemma Apart.tail (h : Apart fin (f :: x :: L)) : Apart fin (x :: L) := fun p hp =>
  h p (mem_neighbours_cons.mpr (.inr hp))

lemma Apart.head (h : Apart fin (f :: x :: L)) (hf : fin f = true) : fin x = false :=
  h (f, x) (mem_neighbours_cons.mpr (.inl rfl)) hf

lemma mem_neighbours_tail (hx : fin x = false) {p : ℕ × ℕ} (hp : fin p.1 = true) :
    p ∈ neighbours (x :: L) ↔ p ∈ neighbours L := by
  cases L with
  | nil => rfl
  | cons y L =>
    rw [mem_neighbours_cons]
    refine or_iff_right fun h => ?_
    rw [h, hx] at hp
    exact absurd hp Bool.false_ne_true

lemma Apart.drop (h : Apart fin (x :: L)) (hx : fin x = false) : Apart fin L := fun p hp hfin =>
  h p ((mem_neighbours_tail hx hfin).mpr hp) hfin

lemma keptOf_sublist (fin : ℕ → Bool) (L : List ℕ) : (keptOf fin L).Sublist L := by
  fun_induction keptOf fin L with
  | case1 => exact List.Sublist.refl _
  | case2 f hf => exact List.nil_sublist _
  | case3 f hf => exact List.Sublist.refl _
  | case4 f x L hf ih => exact (ih.cons_cons x).cons f
  | case5 f x L hf ih => exact ih.cons_cons f

lemma considered_sublist (fin : ℕ → Bool) (L : List ℕ) : (considered fin L).Sublist L := by
  fun_induction considered fin L with
  | case1 => exact List.Sublist.refl _
  | case2 f hf => exact List.nil_sublist _
  | case3 f hf => exact List.Sublist.refl _
  | case4 f x L hf ih => exact (ih.cons x).cons_cons f
  | case5 f x L hf ih => exact ih.cons_cons f

lemma keptOf_eq_filter (h : Apart fin L) : keptOf fin L = L.filter fun f => !fin f := by
  fun_induction keptOf fin L with
  | case1 => rfl
  | case2 f hf => simp [hf]
  | case3 f hf => simp [hf]
  | case4 f x L hf ih =>
    have hx := h.head hf
    rw [ih (h.tail.drop hx), List.filter_cons_of_neg (by simp [hf]),
      List.filter_cons_of_pos (by simp [hx])]
  | case5 f x L hf ih =>
    have hpos : (!fin f) = true := by simp [hf]
    rw [ih h.tail, List.filter_cons_of_pos (a := f) hpos]

lemma apart_of_keptOf (h : ∀ f ∈ keptOf fin L, fin f = false) : Apart fin L := by
  fun_induction keptOf fin L with
  | case1 => exact fun p hp => absurd hp List.not_mem_nil
  | case2 f hf => exact fun p hp => absurd hp List.not_mem_nil
  | case3 f hf => exact fun p hp => absurd hp List.not_mem_nil
  | case4 f x L hf ih =>
    have hx := h x List.mem_cons_self
    have hL := ih fun g hg => h g (List.mem_cons_of_mem x hg)
    intro p hp hfin
    rcases mem_neighbours_cons.mp hp with rfl | hp
    · exact hx
    · exact hL p ((mem_neighbours_tail hx hfin).mp hp) hfin
  | case5 f x L hf ih =>
    have hL := ih fun g hg => h g (List.mem_cons_of_mem f hg)
    intro p hp hfin
    rcases mem_neighbours_cons.mp hp with rfl | hp
    · exact absurd hfin hf
    · exact hL p hp hfin

lemma mem_considered_of_finished (h : Apart fin L) (hL : L.Nodup) (hy : fin y = true) :
    y ∈ considered fin L ↔ ∃ x, (y, x) ∈ neighbours L := by
  fun_induction considered fin L with
  | case1 => simp [neighbours]
  | case2 f hf => simp [neighbours]
  | case3 f hf =>
    refine iff_of_false (fun hmem => hf ?_) (by simp [neighbours])
    exact List.mem_singleton.mp hmem ▸ hy
  | case4 f x L hf ih =>
    have hx := h.head hf
    rw [List.mem_cons, ih (h.tail.drop hx) hL.of_cons.of_cons]
    constructor
    · rintro (rfl | ⟨z, hz⟩)
      · exact ⟨x, mem_neighbours_cons.mpr (.inl rfl)⟩
      · exact ⟨z, mem_neighbours_cons.mpr (.inr ((mem_neighbours_tail hx hy).mpr hz))⟩
    · rintro ⟨z, hz⟩
      rcases mem_neighbours_cons.mp hz with heq | hz
      · exact .inl (Prod.mk.inj heq).1
      · exact .inr ⟨z, (mem_neighbours_tail hx hy).mp hz⟩
  | case5 f x L hf ih =>
    have hne : y ≠ f := fun heq => hf (heq ▸ hy)
    rw [List.mem_cons, ih h.tail hL.of_cons]
    constructor
    · rintro (heq | ⟨z, hz⟩)
      · exact absurd heq hne
      · exact ⟨z, mem_neighbours_cons.mpr (.inr hz)⟩
    · rintro ⟨z, hz⟩
      rcases mem_neighbours_cons.mp hz with heq | hz
      · exact absurd (Prod.mk.inj heq).1 hne
      · exact .inr ⟨z, hz⟩

lemma mem_of_mem_neighbours {p : ℕ × ℕ} (hp : p ∈ neighbours L) : p.1 ∈ L ∧ p.2 ∈ L.tail :=
  List.of_mem_zip hp

lemma exists_neighbour_cons : (∃ g, (g, y) ∈ neighbours (f :: x :: L) ∧ fin g = true) ↔
    fin f = true ∧ y = x ∨ ∃ g, (g, y) ∈ neighbours (x :: L) ∧ fin g = true := by
  constructor
  · rintro ⟨g, hg, hfin⟩
    rcases mem_neighbours_cons.mp hg with heq | hg
    · obtain ⟨rfl, rfl⟩ := Prod.mk.inj heq
      exact .inl ⟨hfin, rfl⟩
    · exact .inr ⟨g, hg, hfin⟩
  · rintro (⟨hfin, rfl⟩ | ⟨g, hg, hfin⟩)
    · exact ⟨f, mem_neighbours_cons.mpr (.inl rfl), hfin⟩
    · exact ⟨g, mem_neighbours_cons.mpr (.inr hg), hfin⟩

lemma exists_neighbour_tail (hx : fin x = false) :
    (∃ g, (g, y) ∈ neighbours (x :: L) ∧ fin g = true) ↔
      ∃ g, (g, y) ∈ neighbours L ∧ fin g = true :=
  exists_congr fun _ => and_congr_left fun hg => mem_neighbours_tail hx hg

lemma mem_considered_of_unfinished (h : Apart fin L) (hL : L.Nodup) (hy : fin y = false) :
    y ∈ considered fin L ↔ y ∈ L ∧ ¬ ∃ f, (f, y) ∈ neighbours L ∧ fin f = true := by
  fun_induction considered fin L with
  | case1 => simp
  | case2 f hf =>
    refine iff_of_false List.not_mem_nil fun hmem => ?_
    rw [List.mem_singleton.mp hmem.1, hf] at hy
    exact absurd hy.symm Bool.false_ne_true
  | case3 f hf => simp [neighbours]
  | case4 f x L hf ih =>
    have hx := h.head hf
    have hyf : y ≠ f := fun heq => Bool.false_ne_true (hy.symm.trans (heq ▸ hf))
    obtain ⟨-, hxL, hnodup⟩ := List.nodup_cons.mp hL |>.imp_right List.nodup_cons.mp
    rw [List.mem_cons, or_iff_right hyf, ih (h.tail.drop hx) hnodup, exists_neighbour_cons,
      exists_neighbour_tail hx, not_or, List.mem_cons, or_iff_right hyf, List.mem_cons]
    constructor
    · rintro ⟨hmem, hnot⟩
      exact ⟨.inr hmem, fun heq => hxL (heq.2 ▸ hmem), hnot⟩
    · rintro ⟨hmem, hne, hnot⟩
      exact ⟨hmem.resolve_left fun heq => hne ⟨hf, heq⟩, hnot⟩
  | case5 f x L hf ih =>
    have hfx : f ∉ x :: L := (List.nodup_cons.mp hL).1
    rw [List.mem_cons, ih h.tail hL.of_cons, exists_neighbour_cons,
      or_iff_right (a := fin f = true ∧ y = x) fun hhead => hf hhead.1,
      List.mem_cons (a := y) (b := f)]
    constructor
    · rintro (rfl | ⟨hmem, hnot⟩)
      · refine ⟨.inl rfl, ?_⟩
        rintro ⟨g, hg, -⟩
        exact hfx (List.mem_of_mem_tail (mem_of_mem_neighbours hg).2)
      · exact ⟨.inr hmem, hnot⟩
    · rintro ⟨rfl | hmem, hnot⟩
      · exact .inl rfl
      · exact .inr ⟨hmem, hnot⟩

end Lists

/-! ### One turn of the loop -/

/-- Whether a flow of the arbiter is finished. -/
def fin (A : Ideal) (f : ℕ) : Bool := (A.flows f).finished

@[simp] lemma clear_kept (w : Pass) : (w.clear σ f).kept = w.kept := by
  unfold Pass.clear
  split_ifs <;> rfl

@[simp] lemma clear_srcs (w : Pass) : (w.clear σ f).srcs = w.srcs := by
  unfold Pass.clear
  split_ifs <;> rfl

@[simp] lemma clear_dsts (w : Pass) : (w.clear σ f).dsts = w.dsts := by
  unfold Pass.clear
  split_ifs <;> rfl

@[simp] lemma assign_kept (w : Pass) : (w.assign σ now f).kept = w.kept := by
  unfold Pass.assign
  split_ifs <;> rfl

@[simp] lemma keep_kept (w : Pass) : (w.keep f).kept = w.kept ++ [f] := rfl

@[simp] lemma giveFlow_activeFlow (H : IdealHost) : (giveFlow now f H).activeFlow = some f := rfl

lemma clear_activeFlow (w : Pass) (h : ℕ) : ((w.clear σ f).hosts h).activeFlow =
    if h = σ.src f ∧ (w.hosts h).activeFlow = some f then none else (w.hosts h).activeFlow := by
  unfold Pass.clear
  by_cases hh : h = σ.src f
  · subst hh
    by_cases hf : (w.hosts (σ.src f)).activeFlow = some f
    · simp [hf]
    · simp [hf]
  · split_ifs <;> simp_all

structure Passed (σ : IdealSpec) (A : Ideal) (c V : List ℕ) (w : Pass) : Prop where
  srcs : ∀ h, h ∈ w.srcs ↔ ∃ k ∈ c, σ.src k = h
  dsts : ∀ h, h ∈ w.dsts ↔ ∃ k ∈ c, σ.dst k = h
  given : ∀ k ∈ c, (w.hosts (σ.src k)).activeFlow = some k
  left : ∀ h, h ∉ w.srcs → ∀ f,
    (w.hosts h).activeFlow = some f ↔ (A.hosts h).activeFlow = some f ∧ f ∉ V

namespace Passed

variable {c V : List ℕ} {w : Pass}

lemma keep (hw : Passed σ A c V w) (f : ℕ) : Passed σ A c V (w.keep f) :=
  ⟨hw.srcs, hw.dsts, hw.given, hw.left⟩

lemma free_iff (hw : Passed σ A c V w) :
    σ.src f ∉ w.srcs ∧ σ.dst f ∉ w.dsts ↔ Free (Conflict σ) c f := by
  rw [hw.srcs, hw.dsts]
  constructor
  · rintro ⟨hsrc, hdst⟩ g hg (heq | heq)
    · exact hsrc ⟨g, hg, heq⟩
    · exact hdst ⟨g, hg, heq⟩
  · intro hfree
    constructor
    · rintro ⟨g, hg, heq⟩
      exact hfree g hg (.inl heq)
    · rintro ⟨g, hg, heq⟩
      exact hfree g hg (.inr heq)

lemma assign (hw : Passed σ A c V w) (f : ℕ) :
    Passed σ A (if Free (Conflict σ) c f then c ++ [f] else c) V (w.assign σ now f) := by
  unfold Pass.assign
  by_cases hfree : Free (Conflict σ) c f
  · rw [if_pos hfree, if_pos (hw.free_iff.mpr hfree)]
    have hiff : ∀ (place : ℕ → ℕ) (S : Finset ℕ) (h : ℕ), (h ∈ S ↔ ∃ k ∈ c, place k = h) →
        (h ∈ insert (place f) S ↔ ∃ k ∈ c ++ [f], place k = h) := by
      intro place S h hS
      rw [Finset.mem_insert, hS]
      constructor
      · rintro (rfl | ⟨k, hk, heq⟩)
        · exact ⟨f, by simp, rfl⟩
        · exact ⟨k, List.mem_append_left _ hk, heq⟩
      · rintro ⟨k, hk, rfl⟩
        rcases List.mem_append.mp hk with hk | hk
        · exact .inr ⟨k, hk, rfl⟩
        · exact .inl (congrArg place (List.mem_singleton.mp hk))
    refine ⟨fun h => hiff σ.src _ h (hw.srcs h), fun h => hiff σ.dst _ h (hw.dsts h),
      fun k hk => ?_, fun h hnot g => ?_⟩
    · rcases List.mem_append.mp hk with hk | hk
      · have hne : σ.src k ≠ σ.src f := fun heq => hfree k hk (.inl heq)
        dsimp only
        rw [Function.update_of_ne hne]
        exact hw.given k hk
      · rw [List.mem_singleton.mp hk]
        dsimp only
        rw [Function.update_self]
        rfl
    · obtain ⟨hne, hnot⟩ := not_or.mp (mt Finset.mem_insert.mpr hnot)
      dsimp only
      rw [Function.update_of_ne hne]
      exact hw.left h hnot g
  · rw [if_neg hfree, if_neg (mt hw.free_iff.mp hfree)]
    exact hw

lemma clear (hw : Passed σ A c V w) (hA : Sound σ A) (hf : f ∉ c) :
    Passed σ A c (V ++ [f]) (w.clear σ f) := by
  refine ⟨fun h => ?_, fun h => ?_, fun k hk => ?_, fun h hnot g => ?_⟩
  · rw [clear_srcs]
    exact hw.srcs h
  · rw [clear_dsts]
    exact hw.dsts h
  · have hgiven := hw.given k hk
    have hne : k ≠ f := fun heq => hf (heq ▸ hk)
    rw [clear_activeFlow, if_neg fun hc => hne (Option.some.inj (hgiven.symm.trans hc.2))]
    exact hgiven
  · rw [clear_srcs] at hnot
    have hleft := hw.left h hnot
    rw [clear_activeFlow]
    by_cases hg : g = f
    · subst hg
      refine iff_of_false (fun heq => ?_) (by simp)
      split_ifs at heq with hc
      exact hc ⟨((hA.host h g ((hleft g).mp heq).1).1).symm, heq⟩
    · have hV : g ∉ V ++ [f] ↔ g ∉ V := by simp [hg]
      rw [hV, ← hleft g]
      split_ifs with hc
      · rw [hc.2]
        exact iff_of_false nofun fun heq => hg (Option.some.inj heq).symm
      · exact Iff.rfl

end Passed

variable (now) in
/-- **The loop is the greedy choice** of the flows that it looks at. -/
lemma passed_scheduleLoop (hA : Sound σ A) {L c V : List ℕ} {w : Pass} (hL : L.Nodup)
    (hc : ∀ f ∈ L, f ∉ c) (hapart : Apart A.fin L) (hw : Passed σ A c V w) :
    Passed σ A (select (Free (Conflict σ)) c (considered A.fin L)) (V ++ L.filter A.fin)
      (scheduleLoop σ now A L w) := by
  fun_induction scheduleLoop σ now A L w generalizing c V with
  | case1 w => simpa [considered, select] using hw
  | case2 f w hf =>
    have hf' : A.fin f = true := hf
    rw [considered, if_pos hf', List.filter_cons_of_pos hf']
    exact hw.clear hA (hc f List.mem_cons_self)
  | case3 f w hf =>
    have hf' : ¬ A.fin f = true := hf
    rw [considered, if_neg hf', List.filter_cons_of_neg hf', List.filter_nil, List.append_nil]
    exact (hw.assign f).keep f
  | case4 f x L w hf ih =>
    have hf' : A.fin f = true := hf
    have hx := hapart.head hf'
    obtain ⟨hfL, hnodup⟩ := List.nodup_cons.mp hL
    have hcf := hc f List.mem_cons_self
    rw [considered, if_pos hf', List.filter_cons_of_pos hf',
      List.filter_cons_of_neg (by simp [hx]), select, List.append_cons V f]
    refine ih hnodup.of_cons (fun g hg => ?_) (hapart.tail.drop hx)
      (((hw.clear hA hcf).assign f).keep x)
    have hgc := hc g (List.mem_cons_of_mem f (List.mem_cons_of_mem x hg))
    have hgf : g ≠ f := fun heq => hfL (heq ▸ List.mem_cons_of_mem x hg)
    split_ifs
    · simp [hgc, hgf]
    · exact hgc
  | case5 f x L w hf ih =>
    have hf' : ¬ A.fin f = true := hf
    obtain ⟨hfL, hnodup⟩ := List.nodup_cons.mp hL
    rw [considered, if_neg hf', List.filter_cons_of_neg hf', select]
    refine ih hnodup (fun g hg => ?_) hapart.tail ((hw.assign f).keep f)
    have hgc := hc g (List.mem_cons_of_mem f hg)
    have hgf : g ≠ f := fun heq => hfL (heq ▸ hg)
    split_ifs
    · simp [hgc, hgf]
    · exact hgc

lemma scheduleLoop_kept (L : List ℕ) (w : Pass) :
    (scheduleLoop σ now A L w).kept = w.kept ++ keptOf A.fin L := by
  fun_induction scheduleLoop σ now A L w with
  | case1 w => simp [keptOf]
  | case2 f w hf => simp [keptOf, fin, hf]
  | case3 f w hf => simp [keptOf, fin, hf]
  | case4 f x L w hf ih => simp [ih, keptOf, fin, hf]
  | case5 f x L w hf ih => simp [ih, keptOf, fin, hf]

lemma mem_keptOf {fin : ℕ → Bool} {L : List ℕ} (hf : f ∈ L) (hfin : fin f = false) :
    f ∈ keptOf fin L := by
  fun_induction keptOf fin L with
  | case1 => exact hf
  | case2 g hg =>
    rw [List.mem_singleton.mp hf, hg] at hfin
    exact absurd hfin.symm Bool.false_ne_true
  | case3 g hg => exact hf
  | case4 g x L hg ih =>
    rcases List.mem_cons.mp hf with rfl | hf
    · exact absurd (hfin.symm.trans hg) Bool.false_ne_true
    · exact List.mem_cons.mpr ((List.mem_cons.mp hf).imp_right ih)
  | case5 g x L hg ih => exact List.mem_cons.mpr ((List.mem_cons.mp hf).imp_right ih)

lemma scheduleLoop_activeFlow (L : List ℕ) (w : Pass)
    (hf : ((scheduleLoop σ now A L w).hosts h).activeFlow = some f) :
    (w.hosts h).activeFlow = some f ∨ σ.src f = h ∧ f ∈ L := by
  have hclear : ∀ {w : Pass} {g : ℕ}, ((w.clear σ g).hosts h).activeFlow = some f →
      (w.hosts h).activeFlow = some f := by
    intro w g heq
    rw [clear_activeFlow] at heq
    split_ifs at heq
    exact heq
  have hassign : ∀ {w : Pass} {g : ℕ}, ((w.assign σ now g).hosts h).activeFlow = some f →
      (w.hosts h).activeFlow = some f ∨ σ.src f = h ∧ f = g := by
    intro w g heq
    unfold Pass.assign at heq
    split_ifs at heq
    · by_cases hh : h = σ.src g
      · subst hh
        dsimp only at heq
        rw [Function.update_self] at heq
        have hgf : g = f := Option.some.inj heq
        exact .inr ⟨hgf ▸ rfl, hgf.symm⟩
      · dsimp only at heq
        rw [Function.update_of_ne hh] at heq
        exact .inl heq
    · exact .inl heq
  fun_induction scheduleLoop σ now A L w with
  | case1 w => exact .inl hf
  | case2 g w hg => exact .inl (hclear hf)
  | case3 g w hg => exact (hassign hf).imp_right fun h => ⟨h.1, by simp [h.2]⟩
  | case4 g x L w hg ih =>
    rcases ih hf with hold | ⟨hsrc, hmem⟩
    · exact (hassign hold).imp hclear fun h => ⟨h.1, by simp [h.2]⟩
    · exact .inr ⟨hsrc, List.mem_cons_of_mem g (List.mem_cons_of_mem x hmem)⟩
  | case5 g x L w hg ih =>
    rcases ih hf with hold | ⟨hsrc, hmem⟩
    · exact (hassign hold).imp_right fun h => ⟨h.1, by simp [h.2]⟩
    · exact .inr ⟨hsrc, List.mem_cons_of_mem g hmem⟩

variable (σ now) in
lemma computeSchedule_activeFlows :
    (A.computeSchedule σ now).activeFlows = keptOf A.fin A.activeFlows := by
  rw [computeSchedule, scheduleLoop_kept]
  rfl

lemma Sound.computeSchedule (hA : Sound σ A) (now : Time) :
    Sound σ (A.computeSchedule σ now) := by
  refine ⟨?_, fun h f hf => ?_⟩
  · rw [computeSchedule_activeFlows]
    exact hA.nodup.sublist (keptOf_sublist _ _)
  · have hkept : f ∈ A.activeFlows ∨ A.fin f = true →
        f ∈ keptOf A.fin A.activeFlows ∨ A.fin f = true := by
      intro hor
      cases hfin : A.fin f with
      | true => exact .inr rfl
      | false =>
        rw [hfin, or_iff_left Bool.false_ne_true] at hor
        exact .inl (mem_keptOf hor hfin)
    rw [computeSchedule_activeFlows]
    rcases scheduleLoop_activeFlow A.activeFlows _ hf with hold | ⟨hsrc, hmem⟩
    · exact ⟨(hA.host h f hold).1, hkept (hA.host h f hold).2⟩
    · exact ⟨hsrc, hkept (.inl hmem)⟩

/-! ### The greedy matching -/

lemma pairwise_unfinished (hA : Sound σ A) :
    A.unfinished.Pairwise fun g f => A.activeFlows.idxOf g < A.activeFlows.idxOf f :=
  (pairwise_idxOf hA.nodup).sublist List.filter_sublist

lemma mem_greedyMatching (hA : Sound σ A) : f ∈ greedyMatching σ A ↔
    f ∈ A.unfinished ∧ ∀ g ∈ greedyMatching σ A, A.Before g f → ¬ Conflict σ g f :=
  mem_select_iff (pairwise_unfinished hA)

lemma not_conflict_of_greedy (hA : Sound σ A) (hf : f ∈ greedyMatching σ A)
    (hg : g ∈ greedyMatching σ A) (hne : f ≠ g) : ¬ Conflict σ f g := by
  have hsymm : Conflict σ f g → Conflict σ g f := Or.imp Eq.symm Eq.symm
  rcases Nat.lt_trichotomy (A.activeFlows.idxOf f) (A.activeFlows.idxOf g) with h | h | h
  · exact ((mem_greedyMatching hA).mp hg).2 f hf h
  · exact absurd ((List.idxOf_inj (mem_unfinished.mp (mem_unfinished_of_greedy hf)).1).mp h) hne
  · exact fun hc => ((mem_greedyMatching hA).mp hf).2 g hg h (hsymm hc)

/-- The hosts have the flows of the greedy matching, and no others. -/
def HasGreedy (σ : IdealSpec) (A B : Ideal) : Prop :=
  ∀ h f, (B.hosts h).activeFlow = some f ↔ f ∈ greedyMatching σ A ∧ σ.src f = h

variable (σ now) in
lemma computeSchedule_unfinished (hapart : Apart A.fin A.activeFlows) :
    (A.computeSchedule σ now).activeFlows = A.unfinished :=
  (computeSchedule_activeFlows σ now).trans (keptOf_eq_filter hapart)

lemma computeSchedule_before (hA : Sound σ A) (hapart : Apart A.fin A.activeFlows)
    (hg : g ∈ A.unfinished) (hf : f ∈ A.unfinished) :
    (A.computeSchedule σ now).Before g f ↔ A.Before g f := by
  rw [Before, computeSchedule_unfinished σ now hapart]
  exact idxOf_lt_idxOf_iff hA.nodup List.filter_sublist hg hf

lemma Scheduled.hasGreedy (hA : Sound σ A) (hS : Scheduled σ (A.computeSchedule σ now)) :
    Apart A.fin A.activeFlows ∧ HasGreedy σ A (A.computeSchedule σ now) := by
  have hB := hA.computeSchedule now
  have hapart : Apart A.fin A.activeFlows := apart_of_keptOf fun f hf =>
    hS.kept f (computeSchedule_activeFlows σ now ▸ hf)
  have hU := computeSchedule_unfinished σ now hapart
  have hiff : ∀ f ∈ A.unfinished,
      (A.computeSchedule σ now).Assigned f ↔ f ∈ greedyMatching σ A := by
    refine iff_mem_select (pairwise_unfinished hA) fun f hf => ⟨fun hass g hg hgass hlt hc => ?_,
      fun hnone => ?_⟩
    · have hne : g ≠ f := fun heq => lt_irrefl _ (heq ▸ hlt)
      have hhosts : σ.src g ≠ σ.src f := fun heq =>
        hne (Option.some.inj ((hB.src hgass).symm.trans (heq ▸ hB.src hass)))
      have hmatch := hS.matching _ _ _ _ hhosts (hB.src hgass) (hB.src hass)
      exact hc.elim hmatch.1 hmatch.2
    · by_contra hnot
      obtain ⟨g, hg, hgass, hlt, hc⟩ :=
        hS.greedy f (hU ▸ hf) (mem_unfinished.mp hf).2 hnot
      have hgU : g ∈ A.unfinished := hU ▸ hg
      exact hnone g hgU hgass ((computeSchedule_before hA hapart hgU hf).mp hlt) hc
  refine ⟨hapart, fun h f => ⟨fun hf => ?_, fun hf => ?_⟩⟩
  · have hfin := hS.assigned f ⟨h, hf⟩
    obtain ⟨hsrc, hmem⟩ := hB.host h f hf
    have hmem := hmem.resolve_right (ne_of_eq_of_ne hfin Bool.false_ne_true)
    exact ⟨(hiff f (hU ▸ hmem)).mp ⟨h, hf⟩, hsrc⟩
  · obtain ⟨hf, rfl⟩ := hf
    exact hB.src ((hiff f (mem_unfinished_of_greedy hf)).mpr hf)

lemma HasGreedy.scheduled (hA : Sound σ A) (hapart : Apart A.fin A.activeFlows)
    (hG : HasGreedy σ A (A.computeSchedule σ now)) : Scheduled σ (A.computeSchedule σ now) := by
  have hU := computeSchedule_unfinished σ now hapart
  refine ⟨fun f hf => ?_, fun f hf => ?_, fun h h' f f' hne hf hf' => ?_, fun f hf _ hnot => ?_⟩
  · have hfU : f ∈ A.unfinished := hU ▸ hf
    exact (mem_unfinished.mp hfU).2
  · obtain ⟨h, hf⟩ := hf
    exact (mem_unfinished.mp (mem_unfinished_of_greedy ((hG h f).mp hf).1)).2
  · obtain ⟨hfG, rfl⟩ := (hG h f).mp hf
    obtain ⟨hfG', rfl⟩ := (hG h' f').mp hf'
    have hff' : f ≠ f' := fun heq => hne (congrArg σ.src heq)
    exact not_or.mp (not_conflict_of_greedy hA hfG hfG' hff')
  · have hfU : f ∈ A.unfinished := hU ▸ hf
    have hfG : f ∉ greedyMatching σ A := fun hmem => hnot ⟨_, (hG _ f).mpr ⟨hmem, rfl⟩⟩
    rw [mem_greedyMatching hA, not_and] at hfG
    push Not at hfG
    obtain ⟨g, hg, hlt, hc⟩ := hfG hfU
    have hgU := mem_unfinished_of_greedy hg
    exact ⟨g, hU ▸ hgU, ⟨_, (hG _ g).mpr ⟨hg, rfl⟩⟩,
      (computeSchedule_before hA hapart hgU hfU).mpr hlt, hc⟩

/-! ### When the loop finds it -/

/-- The flows that the loop gives to their hosts. -/
def chosen (σ : IdealSpec) (A : Ideal) : List ℕ :=
  select (Free (Conflict σ)) [] (considered A.fin A.activeFlows)

lemma mem_chosen (hA : Sound σ A) : f ∈ chosen σ A ↔ f ∈ considered A.fin A.activeFlows ∧
    ∀ g ∈ chosen σ A, A.Before g f → ¬ Conflict σ g f :=
  mem_select_iff ((pairwise_idxOf hA.nodup).sublist (considered_sublist _ _))

lemma mem_considered (hA : Sound σ A) (hapart : Apart A.fin A.activeFlows)
    (hfin : A.fin f = false) : f ∈ considered A.fin A.activeFlows ↔
      f ∈ A.unfinished ∧ ¬ A.Behind f := by
  have hiff : f ∈ A.unfinished ↔ f ∈ A.activeFlows :=
    mem_unfinished.trans (and_iff_left hfin)
  rw [hiff]
  exact mem_considered_of_unfinished hapart hA.nodup hfin

variable (now) in
lemma computeSchedule_hosts (hA : Sound σ A) (hapart : Apart A.fin A.activeFlows) :
    (∀ k ∈ chosen σ A, ((A.computeSchedule σ now).hosts (σ.src k)).activeFlow = some k) ∧
    ∀ h, (∀ k ∈ chosen σ A, σ.src k ≠ h) → ∀ f,
      ((A.computeSchedule σ now).hosts h).activeFlow = some f ↔
        (A.hosts h).activeFlow = some f ∧ ¬ (f ∈ A.activeFlows ∧ A.fin f = true) := by
  have hinit : Passed σ A [] [] ⟨∅, ∅, [], A.hosts⟩ :=
    ⟨fun h => by simp, fun h => by simp, fun k hk => absurd hk List.not_mem_nil,
      fun h _ f => by simp⟩
  have hpassed := passed_scheduleLoop now hA hA.nodup (fun f _ => List.not_mem_nil)
    hapart hinit
  refine ⟨hpassed.given, fun h hnone f => ?_⟩
  have hleft := hpassed.left h (fun hmem => ?_) f
  · rwa [List.nil_append, List.mem_filter] at hleft
  · obtain ⟨k, hk, heq⟩ := (hpassed.srcs h).mp hmem
    exact hnone k hk heq

lemma considered_finished_iff (hA : Sound σ A) (hapart : Apart A.fin A.activeFlows)
    (hfin : A.fin f = true) : f ∈ considered A.fin A.activeFlows ↔
      ∃ x, (f, x) ∈ neighbours A.activeFlows :=
  mem_considered_of_finished hapart hA.nodup hfin

lemma fin_of_greedy (hg : g ∈ greedyMatching σ A) : A.fin g = false :=
  (mem_unfinished.mp (mem_unfinished_of_greedy hg)).2

lemma eq_of_src_eq (hA : Sound σ A) (hf : f ∈ greedyMatching σ A) (hg : g ∈ greedyMatching σ A)
    (hsrc : σ.src f = σ.src g) : f = g := by
  by_contra hne
  exact not_conflict_of_greedy hA hf hg hne (.inl hsrc)

section Exact

variable (hA : Sound σ A) (hapart : Apart A.fin A.activeFlows)

include hA hapart

lemma HasGreedy.schedulable (hG : HasGreedy σ A (A.computeSchedule σ now)) :
    Schedulable σ A := by
  obtain ⟨hgiven, hleft⟩ := computeSchedule_hosts now hA hapart
  have hKG : ∀ k ∈ chosen σ A, k ∈ greedyMatching σ A ∧ ¬ A.Behind k := by
    intro k hk
    have hkG := ((hG _ k).mp (hgiven k hk)).1
    exact ⟨hkG, ((mem_considered hA hapart (fin_of_greedy hkG)).mp ((mem_chosen hA).mp hk).1).2⟩
  -- what the loop looks at and does not choose has a conflict with what it chose
  have hrefused : ∀ f ∈ considered A.fin A.activeFlows, f ∉ chosen σ A →
      ∃ g ∈ greedyMatching σ A, ¬ A.Behind g ∧ A.Before g f ∧ Conflict σ g f := by
    intro f hf hnot
    rw [mem_chosen hA, not_and] at hnot
    push Not at hnot
    obtain ⟨g, hg, hlt, hc⟩ := hnot hf
    exact ⟨g, (hKG g hg).1, (hKG g hg).2, hlt, hc⟩
  refine ⟨hapart, fun p hp hfin => ?_, fun x hx hbehind => ⟨?_, fun y hy hnot hlt hc => ?_⟩,
    fun h f hf hnone => ?_⟩
  · refine hrefused p.1 ((considered_finished_iff hA hapart hfin).mpr ⟨p.2, hp⟩) fun hmem => ?_
    exact Bool.false_ne_true ((fin_of_greedy (hKG _ hmem).1).symm.trans hfin)
  · have hnone : ∀ k ∈ chosen σ A, σ.src k ≠ σ.src x := fun k hk heq =>
      (hKG k hk).2 (eq_of_src_eq hA (hKG k hk).1 hx heq ▸ hbehind)
    exact ⟨_, ((hleft _ hnone x).mp ((hG _ x).mpr ⟨hx, rfl⟩)).1⟩
  · have hyG : y ∉ greedyMatching σ A := fun hmem =>
      ((mem_greedyMatching hA).mp hmem).2 x hx hlt hc
    refine hrefused y ?_ fun hmem => hyG (hKG y hmem).1
    exact (mem_considered hA hapart (mem_unfinished.mp hy).2).mpr ⟨hy, hnot⟩
  · by_contra hnot
    have hout := (hleft h (fun k hk => hnone k (hKG k hk).1) f).mpr
      ⟨hf, fun hmem => hnot ⟨hmem.2, hmem.1⟩⟩
    obtain ⟨hfG, hsrc⟩ := (hG h f).mp hout
    exact hnone f hfG hsrc

lemma Schedulable.mem_chosen_iff (hS : Schedulable σ A) :
    f ∈ chosen σ A ↔ f ∈ greedyMatching σ A ∧ ¬ A.Behind f := by
  have hlook : ∀ g, g ∈ greedyMatching σ A → ¬ A.Behind g →
      g ∈ considered A.fin A.activeFlows := fun g hg hnot =>
    (mem_considered hA hapart (fin_of_greedy hg)).mpr ⟨mem_unfinished_of_greedy hg, hnot⟩
  have hiff : ∀ y ∈ considered A.fin A.activeFlows,
      (y ∈ greedyMatching σ A ∧ ¬ A.Behind y) ↔ y ∈ chosen σ A := by
    refine iff_mem_select ((pairwise_idxOf hA.nodup).sublist (considered_sublist _ _))
      fun y hy => ?_
    cases hfin : A.fin y with
    | true =>
      obtain ⟨x, hx⟩ := (considered_finished_iff hA hapart hfin).mp hy
      obtain ⟨g, hg, hnot, hlt, hc⟩ := hS.blocked (y, x) hx hfin
      refine iff_of_false (fun hmem => ?_) fun hnone => hnone g (hlook g hg hnot) ⟨hg, hnot⟩ hlt hc
      exact Bool.false_ne_true ((fin_of_greedy hmem.1).symm.trans hfin)
    | false =>
      obtain ⟨hyU, hynot⟩ := (mem_considered hA hapart hfin).mp hy
      refine ⟨fun hmem g _ hg hlt => ((mem_greedyMatching hA).mp hmem.1).2 g hg.1 hlt,
        fun hnone => ⟨(mem_greedyMatching hA).mpr ⟨hyU, fun g hg hlt hc => ?_⟩, hynot⟩⟩
      by_cases hbehind : A.Behind g
      · obtain ⟨g', hg', hnot, hlt', hc'⟩ := (hS.passed g hg hbehind).2 y hyU hynot hlt hc
        exact hnone g' (hlook g' hg' hnot) ⟨hg', hnot⟩ hlt' hc'
      · exact hnone g (hlook g hg hbehind) ⟨hg, hbehind⟩ hlt hc
  exact ⟨fun hmem => (hiff f ((mem_chosen hA).mp hmem).1).mpr hmem,
    fun hmem => (hiff f (hlook f hmem.1 hmem.2)).mp hmem⟩

lemma Schedulable.hasGreedy (hS : Schedulable σ A) :
    HasGreedy σ A (A.computeSchedule σ now) := by
  obtain ⟨hgiven, hleft⟩ := computeSchedule_hosts now hA hapart
  intro h f
  by_cases hchosen : ∃ k ∈ chosen σ A, σ.src k = h
  · obtain ⟨k, hk, rfl⟩ := hchosen
    have hkG := ((hS.mem_chosen_iff hA hapart).mp hk).1
    rw [hgiven k hk]
    constructor
    · intro heq
      obtain rfl := Option.some.inj heq
      exact ⟨hkG, rfl⟩
    · rintro ⟨hf, hsrc⟩
      rw [eq_of_src_eq hA hf hkG hsrc]
  · have hnone : ∀ k ∈ chosen σ A, σ.src k ≠ h := fun k hk heq => hchosen ⟨k, hk, heq⟩
    have hpassed : ∀ g ∈ greedyMatching σ A, σ.src g = h → (A.hosts h).activeFlow = some g := by
      intro g hg hsrc
      have hbehind : A.Behind g := by
        by_contra hnot
        exact hnone g ((hS.mem_chosen_iff hA hapart).mpr ⟨hg, hnot⟩) hsrc
      exact hsrc ▸ hA.src (hS.passed g hg hbehind).1
    rw [hleft h hnone f]
    constructor
    · rintro ⟨hf, hnot⟩
      obtain ⟨g, hg, hsrc⟩ : ∃ g ∈ greedyMatching σ A, σ.src g = h := by
        by_contra hidle
        push Not at hidle
        obtain ⟨hfin, hmem⟩ := hS.idle h f hf hidle
        exact hnot ⟨hmem, hfin⟩
      have heq : f = g := Option.some.inj (hf.symm.trans (hpassed g hg hsrc))
      exact heq ▸ ⟨hg, hsrc⟩
    · rintro ⟨hf, hsrc⟩
      exact ⟨hpassed f hf hsrc,
        fun hmem => Bool.false_ne_true ((fin_of_greedy hf).symm.trans hmem.2)⟩

end Exact

/-- **When `compute_schedule` is right.** -/
lemma scheduled_iff_schedulable (hA : Sound σ A) :
    Scheduled σ (A.computeSchedule σ now) ↔ Schedulable σ A := by
  constructor
  · intro hS
    obtain ⟨hapart, hG⟩ := hS.hasGreedy hA
    exact hG.schedulable hA hapart
  · intro hS
    exact (hS.hasGreedy hA hS.apart).scheduled hA hS.apart

end DcSim.Ideal
