import Mathlib.Algebra.BigOperators.Group.List.Basic
import Mathlib.Data.List.Nodup

/-!
Tables kept as lists of entries, and what they add up to.

An entry is found by its key. Most tables have one entry for a key, but the operations are those
of a program that does not rely on it: an update changes every entry with the key, and makes a new
one when there is none; a change of the first entry with the key leaves the others alone.
-/

namespace DcSim.Upsert

variable {E K M : Type*} [DecidableEq K] (key : E → K)

/-- Changes the entries with a key, or adds one. -/
def upsert (k : K) (f : E → E) (new : E) (l : List E) : List E :=
  if l.any (key · = k) then l.map fun x => if key x = k then f x else x else l ++ [new]

/-- Changes the first entry with a key. -/
def modifyFirst (k : K) (f : E → E) : List E → List E
  | [] => []
  | x :: l => if key x = k then f x :: l else x :: modifyFirst k f l

/-- What the entries with a key add up to. -/
def tally [AddCommMonoid M] (m : E → M) (k : K) (l : List E) : M :=
  (l.map fun x => if key x = k then m x else 0).sum

variable {key} {k k' : K} {f : E → E} {new : E} {l l' : List E}

/-! ### Keys -/

lemma any_key : l.any (key · = k) = true ↔ k ∈ l.map key := by
  simp

lemma keys_upsert (hf : ∀ x, key (f x) = key x) (hnew : key new = k) :
    (upsert key k f new l).map key = if k ∈ l.map key then l.map key else l.map key ++ [k] := by
  unfold upsert
  by_cases h : k ∈ l.map key
  · rw [if_pos (any_key.2 h), if_pos h, List.map_map]
    refine List.map_congr_left fun x _ => ?_
    simp only [Function.comp_apply]
    split_ifs
    · exact hf x
    · rfl
  · rw [if_neg (fun ha => h (any_key.1 ha)), if_neg h, List.map_append, List.map_singleton, hnew]

lemma nodup_upsert (hf : ∀ x, key (f x) = key x) (hnew : key new = k) (hl : (l.map key).Nodup) :
    ((upsert key k f new l).map key).Nodup := by
  rw [keys_upsert hf hnew]
  split_ifs with h
  · exact hl
  · exact hl.append (List.nodup_singleton k) (by simpa using h)

lemma mem_upsert {x : E} (hx : x ∈ upsert key k f new l) :
    x ∈ l ∨ (∃ y ∈ l, key y = k ∧ x = f y) ∨ x = new := by
  unfold upsert at hx
  split_ifs at hx with h
  · obtain ⟨y, hy, rfl⟩ := List.mem_map.1 hx
    split_ifs with hk
    · exact .inr (.inl ⟨y, hy, hk, rfl⟩)
    · exact .inl hy
  · rcases List.mem_append.1 hx with hx | hx
    · exact .inl hx
    · exact .inr (.inr (List.mem_singleton.1 hx))

lemma keys_modifyFirst (hf : ∀ x, key (f x) = key x) :
    (modifyFirst key k f l).map key = l.map key := by
  induction l with
  | nil => rfl
  | cons x l ih =>
    unfold modifyFirst
    split_ifs
    · rw [List.map_cons, List.map_cons, hf]
    · rw [List.map_cons, List.map_cons, ih]

/-! ### Sums -/

section Sums

variable [AddCommMonoid M] {m : E → M} {d : M}

lemma tally_cons (x : E) :
    tally key m k (x :: l) = (if key x = k then m x else 0) + tally key m k l := by
  simp [tally]

lemma tally_append : tally key m k (l ++ l') = tally key m k l + tally key m k l' := by
  simp [tally]

lemma tally_perm (h : l.Perm l') : tally key m k l = tally key m k l' :=
  (h.map _).sum_eq

lemma tally_eq_zero (h : k ∉ l.map key) : tally key m k l = 0 := by
  induction l with
  | nil => rfl
  | cons x l ih =>
    rw [List.map_cons, List.mem_cons, not_or] at h
    rw [tally_cons, if_neg (Ne.symm h.1), ih h.2, add_zero]

lemma tally_of_mem {x : E} (hl : (l.map key).Nodup) (hx : x ∈ l) :
    tally key m (key x) l = m x := by
  induction l with
  | nil => exact absurd hx List.not_mem_nil
  | cons y l ih =>
    rw [List.map_cons, List.nodup_cons] at hl
    rw [tally_cons]
    rcases List.mem_cons.1 hx with rfl | hx
    · rw [if_pos rfl, tally_eq_zero hl.1, add_zero]
    · have hne : key y ≠ key x := fun he => hl.1 (he ▸ List.mem_map_of_mem hx)
      rw [if_neg hne, zero_add, ih hl.2 hx]

lemma tally_map_ne (hf : ∀ x, key (f x) = key x) (hne : k' ≠ k) :
    tally key m k' (l.map fun x => if key x = k then f x else x) = tally key m k' l := by
  unfold tally
  rw [List.map_map]
  refine congrArg List.sum (List.map_congr_left fun x _ => ?_)
  simp only [Function.comp_apply]
  by_cases hx : key x = k
  · rw [if_pos hx, hf, hx, if_neg (Ne.symm hne), if_neg (Ne.symm hne)]
  · rw [if_neg hx]

lemma tally_upsert_ne (hf : ∀ x, key (f x) = key x) (hnew : key new = k) (hne : k' ≠ k) :
    tally key m k' (upsert key k f new l) = tally key m k' l := by
  unfold upsert
  split_ifs
  · exact tally_map_ne hf hne
  · rw [tally_append, tally_cons, if_neg (by rw [hnew]; exact Ne.symm hne)]
    simp [tally]

lemma sum_map_update (hl : (l.map key).Nodup) (hk : k ∈ l.map key) (hd : ∀ x, m (f x) = m x + d) :
    ((l.map fun x => if key x = k then f x else x).map m).sum = (l.map m).sum + d := by
  induction l with
  | nil => exact absurd hk List.not_mem_nil
  | cons x l ih =>
    rw [List.map_cons, List.nodup_cons] at hl
    simp only [List.map_cons, List.sum_cons]
    by_cases hx : key x = k
    · have hrest : l.map (fun x => if key x = k then f x else x) = l := by
        refine (List.map_congr_left fun y hy => ?_).trans (List.map_id l)
        exact if_neg fun he : key y = k => hl.1 (hx.trans he.symm ▸ List.mem_map_of_mem hy)
      rw [if_pos hx, hd, hrest, add_right_comm]
    · have hk' : k ∈ l.map key := (List.mem_cons.1 hk).resolve_left (Ne.symm hx)
      rw [if_neg hx, ih hl.2 hk', add_assoc]

/-- **An update adds what it brings.** -/
lemma sum_upsert (hl : (l.map key).Nodup) (hd : ∀ x, m (f x) = m x + d) (hnew : m new = d) :
    ((upsert key k f new l).map m).sum = (l.map m).sum + d := by
  unfold upsert
  split_ifs with h
  · exact sum_map_update hl (any_key.1 h) hd
  · simp [hnew]

lemma tally_upsert_self (hl : (l.map key).Nodup) (hf : ∀ x, key (f x) = key x)
    (hd : ∀ x, m (f x) = m x + d) (hkey : key new = k) (hnew : m new = d) :
    tally key m k (upsert key k f new l) = tally key m k l + d := by
  unfold upsert
  split_ifs with h
  · have hk := any_key.1 h
    obtain ⟨x, hx, rfl⟩ := List.mem_map.1 hk
    have hkeys : (upsert key (key x) f (f x) l).map key = _ := keys_upsert hf (hf x)
    have hmem : f x ∈ l.map fun y => if key y = key x then f y else y :=
      List.mem_map.2 ⟨x, hx, if_pos rfl⟩
    unfold upsert at hkeys
    rw [if_pos h, if_pos hk] at hkeys
    have htally := tally_of_mem (m := m) (hkeys ▸ hl) hmem
    rw [hf] at htally
    rw [htally, hd, tally_of_mem hl hx]
  · rw [tally_append, tally_cons, if_pos hkey, hnew]
    simp [tally]

lemma tally_modifyFirst_ne (hf : ∀ x, key (f x) = key x) (hne : k' ≠ k) :
    tally key m k' (modifyFirst key k f l) = tally key m k' l := by
  induction l with
  | nil => rfl
  | cons x l ih =>
    unfold modifyFirst
    split_ifs with hx
    · rw [tally_cons, tally_cons, hf, hx, if_neg (Ne.symm hne), if_neg (Ne.symm hne)]
    · rw [tally_cons, tally_cons, ih]

lemma modifyFirst_mem {x : E} (hl : (l.map key).Nodup) (hx : x ∈ l) :
    f x ∈ modifyFirst key (key x) f l := by
  induction l with
  | nil => exact absurd hx List.not_mem_nil
  | cons y l ih =>
    rw [List.map_cons, List.nodup_cons] at hl
    unfold modifyFirst
    rcases List.mem_cons.1 hx with rfl | hx
    · rw [if_pos rfl]
      exact List.mem_cons_self ..
    · have hne : key y ≠ key x := fun he => hl.1 (he ▸ List.mem_map_of_mem hx)
      rw [if_neg hne]
      exact List.mem_cons_of_mem _ (ih hl.2 hx)

lemma tally_modifyFirst_self {x : E} (hf : ∀ x, key (f x) = key x) (hl : (l.map key).Nodup)
    (hx : x ∈ l) : tally key m (key x) (modifyFirst key (key x) f l) = m (f x) := by
  have hkeys := keys_modifyFirst (k := key x) (l := l) hf
  have htally := tally_of_mem (m := m) (hkeys ▸ hl) (modifyFirst_mem hl hx)
  rwa [hf] at htally

end Sums

end DcSim.Upsert
