import Mathlib.Data.List.Count
import Mathlib.Data.List.Perm.Basic

/-!
A collection whose elements are served one at a time.

To find the next element to serve, elements are taken out of the collection until one can be
served: those that are done are dropped, and the others that were taken out are put back at the
end. The element served last may be remembered, to be the first one that is taken out next time.
-/

namespace DcSim.Collection

variable {α S : Type*}

/-- The element at an index is taken out, and the last one takes its place. -/
def swapRemove (i : ℕ) (xs : List α) : Option (α × List α) :=
  xs[i]?.map fun x => (x, (xs.set i (xs.getLast?.getD x)).dropLast)

/-- An element that is remembered is taken out first, and one at random otherwise. -/
def chooseRandom [DecidableEq α] (draw : ℕ) (last : Option α) (xs : List α) : Option (α × List α) :=
  match last with
  | some x => some (x, xs.erase x)
  | none => swapRemove (draw % xs.length) xs

/-- How a collection is searched: which element is taken out, whether it is done, and what is done
with it otherwise, which says if it can be served. -/
structure Rules (α S : Type*) where
  choose : S → ℕ → Option α → List α → Option (α × List α)
  done : S → α → Bool
  visit : S → α → Option (S × Bool)

structure Search (α S : Type*) where
  state : S
  queue : List α
  last : Option α
  tried : List α := []
  found : Option α := none

/-- A search, for at most so many turns. It fails where the visit of an element does. -/
def search (R : Rules α S) : ℕ → Search α S → Option (Search α S)
  | 0, s => some s
  | turns + 1, s =>
    match R.choose s.state turns s.last s.queue with
    | none => some s
    | some (x, rest) =>
      let s := { s with queue := rest, last := none }
      if R.done s.state x then search R turns s
      else (R.visit s.state x).bind fun r =>
        let s := { s with state := r.1, tried := s.tried ++ [x] }
        if r.2 then some { s with last := some x, found := some x } else search R turns s

structure Rules.Lawful (R : Rules α S) : Prop where
  takes : ∀ {st n last xs x rest}, R.choose st n last xs = some (x, rest) →
    xs.Perm (x :: rest) ∨ last = some x ∧ x ∉ xs ∧ rest = xs
  empty : ∀ {st n last xs}, R.choose st n last xs = none → xs = []
  visit : ∀ {st x r}, R.visit st x = some r → R.done r.1 = R.done st

structure Collects [DecidableEq α] (mine : α → Prop) (done : α → Bool) (xs : List α)
    (last : Option α) : Prop where
  once : ∀ x, mine x → done x = false → xs.count x = 1
  mine : ∀ x ∈ xs, mine x
  last : ∀ x, last = some x → x ∈ xs ∨ done x = true

variable {R : Rules α S} {s r : Search α S} {mine : α → Prop} {done : α → Bool}
  {xs rest : List α} {last : Option α} {x : α}

lemma swapRemove_perm {i : ℕ} (h : swapRemove i xs = some (x, rest)) : xs.Perm (x :: rest) := by
  obtain ⟨y, hy, h⟩ := Option.map_eq_some_iff.1 h
  obtain ⟨rfl, rfl⟩ := Prod.mk.inj h
  obtain ⟨hi, rfl⟩ := List.getElem?_eq_some_iff.1 hy
  rcases List.eq_nil_or_concat' xs with rfl | ⟨ys, z, rfl⟩
  · exact absurd hi (Nat.not_lt_zero i)
  rw [List.getLast?_concat, Option.getD_some]
  rcases Nat.lt_or_ge i ys.length with hlt | hge
  · rw [List.set_append_left _ _ hlt, List.dropLast_concat, List.getElem_append_left hlt]
    have hset : (ys[i] :: ys.set i z).Perm (z :: ys) :=
      ((List.set_perm_cons_eraseIdx hlt z).cons ys[i]).trans
        ((List.Perm.swap _ _ _).trans ((List.getElem_cons_eraseIdx_perm hlt).cons z))
    exact (List.perm_append_singleton z ys).trans hset.symm
  · have hlen : i = ys.length := by
      rw [List.length_append, List.length_singleton] at hi
      omega
    subst hlen
    rw [List.set_append_right _ _ (Nat.le_refl _), Nat.sub_self, List.set_cons_zero,
      List.dropLast_concat, List.getElem_concat_length rfl]
    exact List.perm_append_singleton z ys

lemma chooseRandom_eq_some [DecidableEq α] {draw : ℕ}
    (h : chooseRandom draw last xs = some (x, rest)) :
    xs.Perm (x :: rest) ∨ last = some x ∧ x ∉ xs ∧ rest = xs := by
  cases last with
  | none => exact .inl (swapRemove_perm h)
  | some y =>
    obtain ⟨rfl, rfl⟩ := Prod.mk.inj (Option.some.inj h)
    by_cases hmem : y ∈ xs
    · exact .inl (List.perm_cons_erase hmem)
    · exact .inr ⟨rfl, hmem, List.erase_of_not_mem hmem⟩

lemma chooseRandom_eq_none [DecidableEq α] {draw : ℕ} (h : chooseRandom draw last xs = none) :
    xs = [] := by
  cases last with
  | none =>
    have hge : xs.length ≤ draw % xs.length := by
      simpa [chooseRandom, swapRemove] using h
    by_contra hne
    have hlt := Nat.mod_lt draw (List.length_pos_iff.2 hne)
    omega
  | some y => cases h

/-! ### What a search does -/

/-- A remembered element is in the collection unless it is done. -/
def Remembers (R : Rules α S) (s : Search α S) : Prop :=
  ∀ x, s.last = some x → x ∈ s.queue ∨ R.done s.state x = true

lemma Remembers.perm (hs : Remembers R s) (hR : R.Lawful) {n : ℕ}
    (hchoose : R.choose s.state n s.last s.queue = some (x, rest))
    (hdone : R.done s.state x = false) : s.queue.Perm (x :: rest) := by
  refine (hR.takes hchoose).elim id fun ⟨hlast, hmem, _⟩ => ?_
  rcases hs x hlast with h | h
  · exact absurd h hmem
  · exact absurd (hdone.symm.trans h) Bool.false_ne_true

lemma Rules.Lawful.subset (hR : R.Lawful) {n : ℕ}
    (hchoose : R.choose s.state n s.last s.queue = some (x, rest)) : rest ⊆ s.queue := by
  intro y hy
  rcases hR.takes hchoose with hperm | ⟨-, -, rfl⟩
  · exact hperm.mem_iff.2 (List.mem_cons_of_mem _ hy)
  · exact hy

/-- **The rule of a search**: what each visit of an element keeps of the state and the elements
that were put aside holds at the end, and what the visit of an element that can be served gives
holds of that. -/
theorem search_rule (hR : R.Lawful) {P : S → List α → Prop} {Q : S → α → Prop}
    (hP : ∀ {st tried x st'}, P st tried → x ∈ xs → R.visit st x = some (st', false) →
      P st' (tried ++ [x]))
    (hQ : ∀ {st tried x st'}, P st tried → x ∈ xs → R.visit st x = some (st', true) → Q st' x)
    {turns : ℕ} (hs : Remembers R s) (hxs : s.queue ⊆ xs) (hfound : s.found = none)
    (h0 : P s.state s.tried) (h : search R turns s = some r) :
    (r.found = none → P r.state r.tried) ∧ ∀ x, r.found = some x → Q r.state x := by
  induction turns generalizing s with
  | zero =>
    obtain rfl := Option.some.inj h
    exact ⟨fun _ => h0, fun x hx => nomatch hfound.symm.trans hx⟩
  | succ turns ih =>
    unfold search at h
    split at h
    case h_1 =>
      obtain rfl := Option.some.inj h
      exact ⟨fun _ => h0, fun x hx => nomatch hfound.symm.trans hx⟩
    case h_2 x rest hchoose =>
      have hrest : rest ⊆ xs := fun y hy => hxs (hR.subset hchoose hy)
      dsimp only at h
      split_ifs at h with hdone
      · exact ih (s := { s with queue := rest, last := none }) nofun hrest hfound h0 h
      · have hmem : x ∈ xs := hxs ((hs.perm hR hchoose (Bool.eq_false_iff.2 hdone)).mem_iff.2
          List.mem_cons_self)
        obtain ⟨⟨st, b⟩, hvisit, h⟩ := Option.bind_eq_some_iff.1 h
        cases b with
        | true =>
          obtain rfl := Option.some.inj h
          refine ⟨nofun, fun y hy => ?_⟩
          obtain rfl := Option.some.inj hy
          exact hQ h0 hmem hvisit
        | false =>
          exact ih (s := ⟨st, rest, none, s.tried ++ [x], s.found⟩) nofun hrest hfound
            (hP h0 hmem hvisit) h

lemma found_of_search (hR : R.Lawful) {turns : ℕ} (hs : Remembers R s) (hfound : s.found = none)
    (h : search R turns s = some r) (hx : r.found = some x) :
    x ∈ s.queue ∧ R.done s.state x = false := by
  induction turns generalizing s with
  | zero =>
    obtain rfl := Option.some.inj h
    exact nomatch hfound.symm.trans hx
  | succ turns ih =>
    unfold search at h
    split at h
    case h_1 =>
      obtain rfl := Option.some.inj h
      exact nomatch hfound.symm.trans hx
    case h_2 y rest hchoose =>
      dsimp only at h
      split_ifs at h with hdone
      · obtain ⟨hmem, hnot⟩ := ih (s := { s with queue := rest, last := none }) nofun hfound h
        exact ⟨hR.subset hchoose hmem, hnot⟩
      · have hdone : R.done s.state y = false := by simpa using hdone
        obtain ⟨⟨st, b⟩, hvisit, h⟩ := Option.bind_eq_some_iff.1 h
        cases b with
        | true =>
          obtain rfl := Option.some.inj h
          obtain rfl := Option.some.inj hx
          exact ⟨(hs.perm hR hchoose hdone).mem_iff.2 List.mem_cons_self, hdone⟩
        | false =>
          obtain ⟨hmem, hnot⟩ := ih (s := ⟨st, rest, none, s.tried ++ [y], s.found⟩) nofun hfound h
          rw [hR.visit hvisit] at hnot
          exact ⟨hR.subset hchoose hmem, hnot⟩

lemma exists_search (hR : R.Lawful) {P : S → Prop}
    (hvisit : ∀ {st x}, P st → x ∈ xs → R.done st x = false →
      ∃ r, R.visit st x = some r ∧ P r.1)
    {turns : ℕ} (hs : Remembers R s) (hxs : s.queue ⊆ xs) (h0 : P s.state) :
    ∃ r, search R turns s = some r := by
  induction turns generalizing s with
  | zero => exact ⟨s, rfl⟩
  | succ turns ih =>
    unfold search
    split
    case h_1 => exact ⟨s, rfl⟩
    case h_2 x rest hchoose =>
      have hrest : rest ⊆ xs := fun y hy => hxs (hR.subset hchoose hy)
      dsimp only
      split_ifs with hdone
      · exact ih (s := { s with queue := rest, last := none }) nofun hrest h0
      · have hdone : R.done s.state x = false := by simpa using hdone
        have hmem : x ∈ xs := hxs ((hs.perm hR hchoose hdone).mem_iff.2 List.mem_cons_self)
        obtain ⟨⟨st, b⟩, hv, hP⟩ := hvisit h0 hmem hdone
        rw [hv, Option.bind_some]
        cases b with
        | true => exact ⟨_, rfl⟩
        | false => exact ih (s := ⟨st, rest, none, s.tried ++ [x], s.found⟩) nofun hrest hP

lemma queue_of_turns (hR : R.Lawful) {turns : ℕ} (h : search R turns s = some r)
    (hturns : s.queue.length + s.last.toList.length ≤ turns) (hfound : r.found = none) :
    r.queue = [] := by
  induction turns generalizing s with
  | zero =>
    obtain rfl := Option.some.inj h
    exact List.length_eq_zero_iff.1 (by omega)
  | succ turns ih =>
    unfold search at h
    split at h
    case h_1 hchoose => exact Option.some.inj h ▸ hR.empty hchoose
    case h_2 x rest hchoose =>
      have hless : rest.length + 0 ≤ turns := by
        rcases hR.takes hchoose with hperm | ⟨hlast, -, rfl⟩
        · have hlen := hperm.length_eq
          rw [List.length_cons] at hlen
          omega
        · rw [hlast, Option.toList_some, List.length_singleton] at hturns
          omega
      dsimp only at h
      split_ifs at h
      · exact ih (s := { s with queue := rest, last := none }) h hless
      · obtain ⟨⟨st, b⟩, -, h⟩ := Option.bind_eq_some_iff.1 h
        cases b with
        | true =>
          obtain rfl := Option.some.inj h
          exact nomatch hfound
        | false => exact ih (s := ⟨st, rest, none, s.tried ++ [x], s.found⟩) h hless

lemma queue_of_notFound (hR : R.Lawful) (h : search R (s.queue.length + 1) s = some r)
    (hfound : r.found = none) : r.queue = [] := by
  refine queue_of_turns hR h ?_ hfound
  cases s.last with
  | none => exact Nat.le_succ _
  | some x => exact Nat.le_refl _

variable [DecidableEq α]

structure Keeps (R : Rules α S) (s r : Search α S) : Prop where
  done : R.done r.state = R.done s.state
  count : ∀ x, R.done s.state x = false →
    (r.queue ++ r.tried).count x = (s.queue ++ s.tried).count x
  mem : ∀ x ∈ r.queue ++ r.tried, x ∈ s.queue ++ s.tried
  last : ∀ x, r.last = some x → x ∈ r.queue ++ r.tried ∨ R.done s.state x = true

lemma Keeps.drop (hR : R.Lawful) {n : ℕ}
    (hchoose : R.choose s.state n s.last s.queue = some (x, rest)) (hdone : R.done s.state x = true)
    (h : Keeps R { s with queue := rest, last := none } r) : Keeps R s r := by
  refine ⟨h.done, fun y hy => ?_, fun y hy => ?_, h.last⟩
  · rw [h.count y hy]
    rcases hR.takes hchoose with hperm | ⟨-, -, rfl⟩
    · have hne : x ≠ y := by
        rintro rfl
        exact Bool.false_ne_true (hy.symm.trans hdone)
      rw [List.count_append, List.count_append, hperm.count_eq, List.count_cons_of_ne hne]
    · rfl
  · exact (List.mem_append.1 (h.mem y hy)).elim
      (fun hy => List.mem_append_left _ (hR.subset hchoose hy)) (List.mem_append_right _)

lemma Keeps.putAside (hR : R.Lawful) (hs : Remembers R s) {n : ℕ} {st : S}
    (hchoose : R.choose s.state n s.last s.queue = some (x, rest))
    (hdone : R.done s.state x = false) (hst : R.done st = R.done s.state) {l o : Option α}
    (h : Keeps R ⟨st, rest, l, s.tried ++ [x], o⟩ r) : Keeps R s r := by
  have hperm := hs.perm hR hchoose hdone
  have hall : (s.queue ++ s.tried).Perm (rest ++ (s.tried ++ [x])) := by
    rw [← List.append_assoc]
    exact (hperm.append_right _).trans (List.perm_append_singleton x _).symm
  refine ⟨h.done.trans hst, fun y hy => ?_, fun y hy => hall.mem_iff.2 (h.mem y hy), fun y hy => ?_⟩
  · rw [hall.count_eq]
    exact h.count y (by rwa [hst])
  · exact hst ▸ h.last y hy

theorem keeps_search (hR : R.Lawful) {turns : ℕ} (hs : Remembers R s)
    (h : search R turns s = some r) : Keeps R s r := by
  have hrefl : ∀ s, Remembers R s → Keeps R s s := fun s hs =>
    ⟨rfl, fun _ _ => rfl, fun _ h => h, fun x hx => (hs x hx).imp_left (List.mem_append_left _)⟩
  induction turns generalizing s with
  | zero => exact Option.some.inj h ▸ hrefl s hs
  | succ turns ih =>
    unfold search at h
    split at h
    case h_1 => exact Option.some.inj h ▸ hrefl s hs
    case h_2 x rest hchoose =>
      dsimp only at h
      split_ifs at h with hdone
      · exact .drop hR hchoose hdone (ih (s := { s with queue := rest, last := none }) nofun h)
      · have hdone : R.done s.state x = false := by simpa using hdone
        obtain ⟨⟨st, b⟩, hvisit, h⟩ := Option.bind_eq_some_iff.1 h
        have hst : R.done st = R.done s.state := hR.visit hvisit
        cases b with
        | true =>
          obtain rfl := Option.some.inj h
          refine .putAside hR hs hchoose hdone hst (l := some x) (o := some x)
            ⟨rfl, fun _ _ => rfl, fun _ h => h, fun y hy => .inl ?_⟩
          obtain rfl := Option.some.inj hy
          simp
        | false =>
          exact .putAside hR hs hchoose hdone hst
            (ih (s := ⟨st, rest, none, s.tried ++ [x], s.found⟩) nofun h)

/-! ### What a collection holds -/

lemma Collects.push (h : Collects mine done xs last) (hx : ¬ mine x) :
    Collects (fun y => mine y ∨ y = x) done (xs ++ [x]) last where
  once := by
    intro y hy hdone
    rw [List.count_append]
    rcases hy with hy | rfl
    · have hne : x ≠ y := fun heq => hx (heq ▸ hy)
      rw [h.once y hy hdone, List.count_cons_of_ne hne, List.count_nil]
    · rw [List.count_eq_zero.2 fun hmem => hx (h.mine y hmem), List.count_singleton_self]
  mine := by
    intro y hy
    rcases List.mem_append.1 hy with hy | hy
    · exact .inl (h.mine y hy)
    · exact .inr (List.mem_singleton.1 hy)
  last := fun y hy => (h.last y hy).imp_left (List.mem_append_left _)

lemma Collects.mono {mine' : α → Prop} {done' : α → Bool} (h : Collects mine done xs last)
    (hmine : ∀ x, mine' x ↔ mine x) (hdone : ∀ x, done x = true → done' x = true) :
    Collects mine' done' xs last where
  once := by
    intro x hx hnot
    refine h.once x ((hmine x).1 hx) (Bool.eq_false_iff.2 fun hd => ?_)
    exact Bool.false_ne_true (hnot.symm.trans (hdone x hd))
  mine := fun x hx => (hmine x).2 (h.mine x hx)
  last := fun x hx => (h.last x hx).imp_right (hdone x)

/-- **A search keeps the collection.** -/
theorem Collects.search (hR : R.Lawful) {turns : ℕ}
    (hc : Collects mine (R.done s.state) s.queue s.last) (htried : s.tried = [])
    (h : search R turns s = some r) :
    Collects mine (R.done s.state) (r.queue ++ r.tried) r.last := by
  have hkeeps := keeps_search hR hc.last h
  have hall : s.queue ++ s.tried = s.queue := by rw [htried, List.append_nil]
  refine ⟨fun x hx hdone => ?_, fun x hx => ?_, hkeeps.last⟩
  · rw [hkeeps.count x hdone, hall]
    exact hc.once x hx hdone
  · exact hc.mine x (hall ▸ hkeeps.mem x hx)

end DcSim.Collection
