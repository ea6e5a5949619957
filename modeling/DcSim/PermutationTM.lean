import DcSim.Runs
import Mathlib.Data.Fintype.EquivFin
import Mathlib.Data.Finset.Card
import Mathlib.Logic.Equiv.Fin.Basic

/-!
Permutation traffic.

Each host in turn draws a destination until it gets one that is not itself and that no host before
it has. The last host has one destination left. It is itself if no host before it has drawn it, and
then the loop of the draws does not end.
-/

namespace DcSim.PermutationTM

open Runs

variable (n : ℕ)

/-- A destination for the next host, after hosts that have theirs. -/
def Admissible (dests : List ℕ) (j : ℕ) : Prop := j ≠ dests.length ∧ j ∉ dests

instance (dests : List ℕ) (j : ℕ) : Decidable (Admissible dests j) :=
  inferInstanceAs (Decidable (_ ∧ _))

/-- A draw of `make_flows`, by what `rand` returns. The state has the destinations of the hosts
that have one, in the order of the hosts. -/
def draw (dests : List ℕ) (rand : ℕ) : Option (List ℕ) :=
  let j := rand % n
  if dests.length < n then some (if Admissible dests j then dests ++ [j] else dests) else none

def machine : Machine (List ℕ) ℕ := ⟨[], draw n⟩

/-- The host whose turn it is can be given a destination. -/
def Progress (dests : List ℕ) : Prop :=
  dests.length < n → ∃ j < n, Admissible dests j

/-- Once all hosts have a destination, they are a permutation without fixed points. -/
def Deranged (dests : List ℕ) : Prop :=
  dests.length = n → ∃ π : Equiv.Perm (Fin n), ∀ k, dests[k.val]? = some (π k).val ∧ π k ≠ k

/-- The last host has been drawn once the last but one is given a destination. -/
def LastDrawn (dests : List ℕ) (rand : ℕ) : Prop :=
  dests.length + 2 = n → Admissible dests (rand % n) → n - 1 ∈ dests ++ [rand % n]

instance (dests : List ℕ) (rand : ℕ) : Decidable (LastDrawn n dests rand) :=
  inferInstanceAs (Decidable (_ → _))

structure Assigned (dests : List ℕ) : Prop where
  nodup : dests.Nodup
  lt : ∀ j ∈ dests, j < n
  ne : ∀ k : ℕ, dests[k]? ≠ some k
  length : dests.length ≤ n

variable {n} {dests dests' : List ℕ} {rand : ℕ}

lemma draw_cases (h : draw n dests rand = some dests') :
    dests.length < n ∧ (¬ Admissible dests (rand % n) ∧ dests' = dests ∨
      Admissible dests (rand % n) ∧ dests' = dests ++ [rand % n]) := by
  obtain ⟨hlt, h⟩ := Option.ite_none_right_eq_some.1 h
  obtain rfl := Option.some.inj h
  refine ⟨hlt, ?_⟩
  split_ifs with hadm
  · exact .inr ⟨hadm, rfl⟩
  · exact .inl ⟨hadm, rfl⟩

lemma Assigned.draw (h : Assigned n dests) (hn : draw n dests rand = some dests') :
    Assigned n dests' := by
  obtain ⟨hlt, ⟨-, rfl⟩ | ⟨⟨hne, hmem⟩, rfl⟩⟩ := draw_cases hn
  · exact h
  · refine ⟨List.concat_eq_append ▸ h.nodup.concat hmem, fun j hj => ?_, fun k => ?_, ?_⟩
    · rcases List.mem_append.1 hj with hj | hj
      · exact h.lt j hj
      · obtain rfl := List.mem_singleton.1 hj
        exact Nat.mod_lt _ (by omega)
    · rw [List.getElem?_append]
      split_ifs with hk
      · exact h.ne k
      · rw [List.getElem?_singleton]
        split_ifs with hz
        · obtain rfl : k = dests.length := by omega
          simpa using hne
        · nofun
    · rw [List.length_append, List.length_singleton]
      omega

lemma assigned_nil (n : ℕ) : Assigned n [] :=
  ⟨List.nodup_nil, fun j hj => absurd hj List.not_mem_nil, fun k => by simp, Nat.zero_le n⟩

lemma Assigned.reach (hs : Reach (machine n) dests) : Assigned n dests :=
  hs.inv (assigned_nil n) fun _ h hn => h.draw hn

lemma Assigned.deranged (h : Assigned n dests) : Deranged n dests := by
  intro hlen
  have hget : ∀ k : Fin n, ∃ j : Fin n, dests[k.val]? = some j.val := fun k => by
    have hk : k.val < dests.length := hlen ▸ k.isLt
    exact ⟨⟨dests[k.val], h.lt _ (List.getElem_mem hk)⟩, List.getElem?_eq_getElem hk⟩
  choose f hf using hget
  have hinj : Function.Injective f := fun k m hkm => by
    have hk : k.val < dests.length := hlen ▸ k.isLt
    exact Fin.ext ((List.getElem?_inj hk h.nodup).1 ((hf k).trans (hkm ▸ (hf m).symm)))
  refine ⟨Equiv.ofBijective f (Finite.injective_iff_bijective.1 hinj), fun k => ?_⟩
  rw [Equiv.ofBijective_apply]
  refine ⟨hf k, fun hk => h.ne k.val ?_⟩
  rw [hf k, hk]

/-- The hosts that are no destination yet. -/
def unused (n : ℕ) (dests : List ℕ) : Finset ℕ := Finset.range n \ dests.toFinset

lemma mem_unused {j : ℕ} : j ∈ unused n dests ↔ j < n ∧ j ∉ dests := by
  rw [unused, Finset.mem_sdiff, Finset.mem_range, List.mem_toFinset]

lemma Assigned.card_unused (h : Assigned n dests) : (unused n dests).card = n - dests.length := by
  have hsub : dests.toFinset ⊆ Finset.range n := fun j hj =>
    Finset.mem_range.2 (h.lt j (List.mem_toFinset.1 hj))
  rw [unused, Finset.card_sdiff_of_subset hsub, Finset.card_range,
    List.toFinset_card_of_nodup h.nodup]

/-- **Only the last host can be stuck**, and it is unless it is a destination. -/
lemma Assigned.progress_iff (h : Assigned n dests) :
    Progress n dests ↔ (dests.length + 1 = n → n - 1 ∈ dests) := by
  have hcard := h.card_unused
  constructor
  · intro hprog hlast
    by_contra hself
    obtain ⟨j, hj, hne, hmem⟩ := hprog (by omega)
    have hlt : 1 < (unused n dests).card := Finset.one_lt_card.2
      ⟨j, mem_unused.2 ⟨hj, hmem⟩, n - 1, mem_unused.2 ⟨by omega, hself⟩, by omega⟩
    omega
  · intro hself hlt
    rcases Nat.lt_or_ge (dests.length + 1) n with hmany | hlast
    · obtain ⟨j, hj, hne⟩ :=
        Finset.exists_mem_ne (by omega : 1 < (unused n dests).card) dests.length
      exact ⟨j, (mem_unused.1 hj).1, hne, (mem_unused.1 hj).2⟩
    · obtain ⟨j, hj⟩ := Finset.card_pos.1 (by omega : 0 < (unused n dests).card)
      obtain ⟨hjn, hmem⟩ := mem_unused.1 hj
      refine ⟨j, hjn, fun he => hmem ?_, hmem⟩
      have hmem' := hself (by omega)
      rwa [show n - 1 = j by omega] at hmem'

lemma Assigned.progress_draw (h : Assigned n dests) (hprog : Progress n dests)
    (hn : PermutationTM.draw n dests rand = some dests') :
    Progress n dests' ↔ LastDrawn n dests rand := by
  rw [(h.draw hn).progress_iff]
  obtain ⟨-, ⟨hnot, rfl⟩ | ⟨hadm, rfl⟩⟩ := draw_cases hn
  · exact iff_of_true (h.progress_iff.1 hprog) fun _ hadm => absurd hadm hnot
  · rw [List.length_append, List.length_singleton]
    exact ⟨fun hself hlast _ => hself hlast, fun hlast hself => hlast hself hadm⟩

/-- The hosts before the last but one draw the next one, and that one draws the first. -/
def next (n k : ℕ) : ℕ := if k + 2 = n then 0 else k + 1

lemma reach_next {m : ℕ} (hn : 3 ≤ n) (hm : m < n) :
    Reach (machine n) ((List.range m).map (next n)) := by
  induction m with
  | zero => exact .init
  | succ m ih =>
    have hmod : next n m % n = next n m := Nat.mod_eq_of_lt (by unfold next; split_ifs <;> omega)
    have hadm : Admissible ((List.range m).map (next n)) (next n m) := by
      refine ⟨?_, fun hmem => ?_⟩
      · rw [List.length_map, List.length_range]
        unfold next
        split_ifs <;> omega
      · obtain ⟨k, hk, heq⟩ := List.mem_map.1 hmem
        have hk := List.mem_range.1 hk
        unfold next at heq
        split_ifs at heq <;> omega
    refine (ih (by omega)).step (a := next n m) ?_
    show draw n _ _ = _
    unfold draw
    rw [hmod, if_pos (by rw [List.length_map, List.length_range]; omega), if_pos hadm,
      List.range_succ, List.map_append]
    rfl

lemma exists_stuck (hn : 3 ≤ n) : ∃ dests, Reach (machine n) dests ∧ ¬ Progress n dests := by
  have hreach := reach_next (m := n - 1) hn (by omega)
  refine ⟨_, hreach, fun hprog => ?_⟩
  have hself := (Assigned.reach hreach).progress_iff.1 hprog
    (by rw [List.length_map, List.length_range]; omega)
  obtain ⟨k, hk, heq⟩ := List.mem_map.1 hself
  have hk := List.mem_range.1 hk
  unfold next at heq
  split_ifs at heq <;> omega

lemma progress_two (hs : Reach (machine 2) dests) : Progress 2 dests := by
  have h := Assigned.reach hs
  refine h.progress_iff.2 fun hlen => ?_
  obtain ⟨j, rfl⟩ := List.length_eq_one_iff.1 (by omega : dests.length = 1)
  have hlt := h.lt j List.mem_cons_self
  have hne : j ≠ 0 := fun he => h.ne 0 (by rw [he]; rfl)
  exact List.mem_singleton.2 (by omega)

variable (n) in
/-- The loop of the draws can end, and what the hosts have in the end is a permutation without
fixed points. -/
def Fine (dests : List ℕ) : Prop := Progress n dests ∧ Deranged n dests

/-- **The draws make progress** in those runs in which the last host is a destination once the last
but one has its own; with three hosts or more there are others. -/
theorem fine_iff_lastDrawn (hn : 2 ≤ n) :
    (∀ as, Always (machine n) (Fine n) (machine n).init as ↔
        Along (machine n) (LastDrawn n) (machine n).init as) ∧
      ((∀ dests, Reach (machine n) dests → Fine n dests) ↔ n = 2) := by
  constructor
  · intro as
    have hinit : Assigned n [] := assigned_nil n
    have hfine : Fine n [] :=
      ⟨hinit.progress_iff.2 fun hlast => absurd hlast (by simp; omega), hinit.deranged⟩
    refine always_iff_along (J := fun dests => Assigned n dests ∧ Fine n dests) (fun h => h.2)
      (fun h hC hd => ?_) (fun h hC hd hP => ?_) as ⟨hinit, hfine⟩
    · have hnext := h.1.draw hd
      exact ⟨hnext, (h.1.progress_draw h.2.1 hd).2 hC, hnext.deranged⟩
    · exact hC ((h.1.progress_draw h.2.1 hd).1 hP.1)
  · constructor
    · intro hall
      by_contra hne
      obtain ⟨dests, hs, hstuck⟩ := exists_stuck (by omega : 3 ≤ n)
      exact hstuck (hall dests hs).1
    · rintro rfl dests hs
      exact ⟨progress_two hs, (Assigned.reach hs).deranged⟩

/-- Three hosts in a ring; but not each run makes progress. -/
theorem fine_iff_lastDrawn_three :
    Always (machine 3) (Fine 3) (machine 3).init [1, 2, 0] ∧
      ¬ ∀ dests, Reach (machine 3) dests → Fine 3 dests := by
  obtain ⟨hrun, hall⟩ := fine_iff_lastDrawn (n := 3) (by decide)
  exact ⟨(hrun _).2 (by decide +kernel), fun h => absurd (hall.1 h) (by decide)⟩

/-- The first two of three hosts draw each other, and the last one has only itself left. -/
theorem not_fine_three : ¬ Always (machine 3) (Fine 3) (machine 3).init [1, 0] := by
  intro h
  have hstuck := (h.last (t := [1, 0]) rfl).1 (by decide)
  exact absurd hstuck (by decide)

end DcSim.PermutationTM
