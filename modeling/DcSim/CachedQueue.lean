import DcSim.CustomPriorityQueue
import DcSim.HeapQueue
import DcSim.Runs

/-!
The index that a `CustomPriorityQueue` keeps between two calls.

`top` notes where it found the best element and `pop` erases what is there, so that it is the
element `top` returned that is popped, although the comparison may have changed since. A push
forgets the index, and so does a pop. The elements are numbered in the order they are pushed, to
tell which of those that are equally good was pushed last; the queue does not look at the numbers.
-/

namespace DcSim

open HeapQueue Runs

structure CachedQueue (α : Type*) where
  -- `best_index` is -1 in the code where there is none.
  v : List α
  bestIndex : Option ℕ
  deriving DecidableEq

namespace CachedQueue

variable {α β : Type*} {S : Set α} (comp : α → α → Bool)

def push (q : CachedQueue α) (x : α) : CachedQueue α := ⟨q.v ++ [x], none⟩

/-- The loop of `top` from index `i` on, with the best element so far and its index. -/
def topLoop : List α → ℕ → α → ℕ → α × ℕ
  | [], _, best, bestIndex => (best, bestIndex)
  | x :: xs, i, best, bestIndex =>
    if comp x best = false then topLoop xs (i + 1) x i else topLoop xs (i + 1) best bestIndex

def top (q : CachedQueue α) : Option (α × CachedQueue α) :=
  q.v.head?.map fun x =>
    let r := topLoop comp q.v 0 x 0
    (r.1, { q with bestIndex := some r.2 })

/-- The best index that `pop` erases, which it looks for if there is none. -/
def popIndex (q : CachedQueue α) : Option ℕ :=
  match q.bestIndex with
  | some i => some i
  | none => (top comp q).bind fun r => r.2.bestIndex

def pop (q : CachedQueue α) : Option (CachedQueue α) :=
  if q.v = [] then none
  else
    match popIndex comp q with
    | some i => some ⟨q.v.eraseIdx i, none⟩
    | none => some q

variable {comp}

structure Best (comp : α → α → Bool) (before : List α) (best : α) (after : List α) : Prop where
  undominated : ∀ y ∈ before ++ best :: after, comp best y = false
  later : ∀ y ∈ after, comp y best = true

lemma Best.behind (h : StrictWeakOn comp S) {before after : List α} {best x : α}
    (hbest : best ∈ S) (hx : x ∈ S) (hb : Best comp before best after)
    (hcomp : comp x best = true) : Best comp before best (after ++ [x]) := by
  constructor
  · intro y hy
    rw [← List.cons_append, ← List.append_assoc] at hy
    rcases List.mem_append.1 hy with hy | hy
    · exact hb.undominated y hy
    · obtain rfl := List.mem_singleton.1 hy
      exact h.asymm _ hx _ hbest hcomp
  · intro y hy
    rcases List.mem_append.1 hy with hy | hy
    · exact hb.later y hy
    · obtain rfl := List.mem_singleton.1 hy
      exact hcomp

lemma Best.instead (h : StrictWeakOn comp S) {before after : List α} {best x : α}
    (hall : ∀ y ∈ before ++ best :: after, y ∈ S) (hx : x ∈ S) (hb : Best comp before best after)
    (hcomp : comp x best = false) : Best comp (before ++ best :: after) x [] := by
  have hbest := hall best (List.mem_append_right _ List.mem_cons_self)
  refine ⟨fun y hy => ?_, fun y hy => absurd hy List.not_mem_nil⟩
  rcases List.mem_append.1 hy with hy | hy
  · exact h.not_trans hx hbest (hall y hy) hcomp (hb.undominated y hy)
  · obtain rfl := List.mem_singleton.1 hy
    exact h.irrefl _ hx

variable (comp) in
/-- **The loop of `top`** finds the last of the best elements, at its index; so does the search
that keeps no index. -/
theorem topLoop_spec (before : List α) (best : α) (after xs : List α) :
    ∃ l e r, before ++ best :: after ++ xs = l ++ e :: r ∧
      topLoop comp xs (before.length + after.length + 1) best before.length = (e, l.length) ∧
      CustomPriorityQueue.search comp before best after xs = (e, l ++ r) ∧
      (StrictWeakOn comp {y | y ∈ l ++ e :: r} → Best comp before best after →
        Best comp l e r) := by
  induction xs generalizing before best after with
  | nil => exact ⟨before, best, after, List.append_nil _, rfl, rfl, fun _ hb => hb⟩
  | cons x xs ih =>
    unfold topLoop CustomPriorityQueue.search
    by_cases hcomp : comp x best = true
    · obtain ⟨l, e, r, heq, hloop, hsearch, hbest⟩ := ih before best (after ++ [x])
      refine ⟨l, e, r, ?_, ?_, ?_, fun h hb => hbest h ?_⟩
      · rw [← heq]
        simp
      · rw [if_neg (by simp [hcomp]), ← hloop, List.length_append]
        rfl
      · rw [if_pos hcomp, hsearch]
      · have hmem : ∀ y ∈ before ++ best :: (after ++ [x]) ++ xs, y ∈ {y | y ∈ l ++ e :: r} :=
          fun y hy => heq ▸ hy
        exact hb.behind h (hmem best (by simp)) (hmem x (by simp)) hcomp
    · rw [Bool.not_eq_true] at hcomp
      obtain ⟨l, e, r, heq, hloop, hsearch, hbest⟩ := ih (before ++ best :: after) x []
      refine ⟨l, e, r, ?_, ?_, ?_, fun h hb => hbest h ?_⟩
      · rw [← heq]
        simp
      · rw [if_pos hcomp, ← hloop, List.length_append, List.length_cons, List.length_nil]
        rfl
      · rw [if_neg (by simp [hcomp]), hsearch]
      · have hmem : ∀ y ∈ before ++ best :: after ++ x :: ([] ++ xs), y ∈ {y | y ∈ l ++ e :: r} :=
          fun y hy => by
            show y ∈ l ++ e :: r
            rw [← heq]
            simpa using hy
        exact hb.instead h (fun y hy => hmem y (List.mem_append_left _ hy)) (hmem x (by simp)) hcomp

variable (comp) in
/-- **What `top` returns**: an element whose index it keeps, and which is the one popped by the
queue that keeps no index. -/
theorem top_spec {q : CachedQueue α} (hq : q.v ≠ []) :
    ∃ l e r, q.v = l ++ e :: r ∧ top comp q = some (e, ⟨q.v, some l.length⟩) ∧
      CustomPriorityQueue.pop comp q.v = some (e, l ++ r) ∧
      (StrictWeakOn comp {y | y ∈ q.v} → Best comp l e r) := by
  obtain ⟨v, bestIndex⟩ := q
  cases v with
  | nil => exact absurd rfl hq
  | cons x xs =>
    obtain ⟨l, e, r, heq, hloop, hsearch, hbest⟩ := topLoop_spec comp [] x [] xs
    have heq' : x :: xs = l ++ e :: r := heq
    refine ⟨l, e, r, heq', ?_, congrArg some hsearch, fun h => ?_⟩
    · -- the first turn compares the first element with itself
      have hfirst : topLoop comp (x :: xs) 0 x 0 = topLoop comp xs 1 x 0 := by
        rw [topLoop]
        split_ifs <;> rfl
      unfold top
      rw [List.head?_cons, Option.map_some, hfirst]
      dsimp only [List.length_nil] at hloop ⊢
      rw [hloop]
    · rw [heq'] at h
      refine hbest h ⟨fun y hy => ?_, fun y hy => absurd hy List.not_mem_nil⟩
      obtain rfl := List.mem_singleton.1 hy
      exact h.irrefl _ (heq' ▸ List.mem_cons_self)

lemma top_eq_none {q : CachedQueue α} : top comp q = none ↔ q.v = [] := by
  rw [top, Option.map_eq_none_iff, List.head?_eq_none_iff]

lemma pop_eq_none {q : CachedQueue α} : pop comp q = none ↔ q.v = [] := by
  unfold pop
  split_ifs with hv
  · exact iff_of_true rfl hv
  · cases popIndex comp q <;> exact iff_of_false nofun hv

end CachedQueue

/-! ### Calls one after the other -/

/-- The calls of a queue, each with the comparison as it is at the time. -/
inductive QueueCall (α : Type*)
  | push (x : α)
  | top (comp : α → α → Bool)
  | pop (comp : α → α → Bool)

namespace CachedQueue

variable {α β : Type*}

def call (q : CachedQueue α) : QueueCall α → Option (CachedQueue α)
  | .push x => some (q.push x)
  | .top comp => (q.top comp).map (·.2)
  | .pop comp => q.pop comp

/-- The queue with something else in the place of its elements. -/
def map (f : β → α) (q : CachedQueue β) : CachedQueue α := ⟨q.v.map f, q.bestIndex⟩

variable (comp : α → α → Bool) (f : β → α)

lemma topLoop_map (xs : List β) (i : ℕ) (best : β) (bestIndex : ℕ) :
    topLoop comp (xs.map f) i (f best) bestIndex =
      Prod.map f id (topLoop (fun a b => comp (f a) (f b)) xs i best bestIndex) := by
  induction xs generalizing i best bestIndex with
  | nil => rfl
  | cons x xs ih =>
    rw [List.map_cons, topLoop, topLoop, ih, ih]
    split_ifs <;> rfl

lemma top_map (q : CachedQueue β) :
    (q.map f).top comp =
      (q.top fun a b => comp (f a) (f b)).map fun r => (f r.1, r.2.map f) := by
  obtain ⟨v, bestIndex⟩ := q
  cases v with
  | nil => rfl
  | cons x xs =>
    have hloop := topLoop_map comp f (x :: xs) 0 x 0
    rw [List.map_cons] at hloop
    simp only [top, map, List.map_cons, List.head?_cons, Option.map_some, hloop]
    rfl

lemma pop_map (q : CachedQueue β) :
    (q.map f).pop comp = (q.pop fun a b => comp (f a) (f b)).map (map f) := by
  have hindex : popIndex comp (q.map f) = popIndex (fun a b => comp (f a) (f b)) q := by
    unfold popIndex
    rw [top_map]
    cases hb : q.bestIndex <;> simp only [map, hb]
    cases q.top fun a b => comp (f a) (f b) <;> rfl
  unfold pop
  rw [hindex]
  simp only [map, List.map_eq_nil_iff]
  split_ifs
  · rfl
  · cases popIndex (fun a b => comp (f a) (f b)) q with
    | none => rfl
    | some i => simp [map, List.eraseIdx_map]

end CachedQueue

structure NumberedQueue (α : Type*) where
  -- The elements are numbered in the order they are pushed: `count` is how many there have been,
  -- and `seen` the one that a `top` has returned since the last push or pop.
  queue : CachedQueue (ℕ × α)
  count : ℕ
  seen : Option (ℕ × α)

namespace NumberedQueue

variable {α : Type*}

/-- The comparison does not look at the numbers. -/
def onElements (comp : α → α → Bool) (a b : ℕ × α) : Bool := comp a.2 b.2

def next (s : NumberedQueue α) : QueueCall α → Option (NumberedQueue α)
  | .push x => some ⟨s.queue.push (s.count, x), s.count + 1, none⟩
  | .top comp => (s.queue.top (onElements comp)).map fun r => ⟨r.2, s.count, some r.1⟩
  | .pop comp => (s.queue.pop (onElements comp)).map fun q => ⟨q, s.count, none⟩

def machine (α : Type*) : Machine (NumberedQueue α) (QueueCall α) := ⟨⟨⟨[], none⟩, 0, none⟩, next⟩

/-- **The numbers are only looked at**: without them the queue is the one it would be. -/
theorem next_map (s : NumberedQueue α) (a : QueueCall α) :
    (s.next a).map (fun t => t.queue.map Prod.snd) = (s.queue.map Prod.snd).call a := by
  cases a with
  | push x => simp [next, CachedQueue.call, CachedQueue.map, CachedQueue.push]
  | top comp =>
    rw [CachedQueue.call, CachedQueue.top_map, next, Option.map_map, Option.map_map]
    rfl
  | pop comp =>
    rw [CachedQueue.call, CachedQueue.pop_map, next, Option.map_map]
    rfl

structure Latest (comp : α → α → Bool) (v : List (ℕ × α)) (e : ℕ × α) : Prop where
  mem : e ∈ v
  undominated : ∀ y ∈ v, comp e.2 y.2 = false
  last : ∀ e' ∈ v, (∀ y ∈ v, comp e'.2 y.2 = false) → e'.1 ≤ e.1

/-- The comparison is a strict weak ordering of the elements that are queued. -/
def Ordering (comp : α → α → Bool) (v : List (ℕ × α)) : Prop :=
  StrictWeakOn comp {x | ∃ e ∈ v, e.2 = x}

/-- One element is taken out, and the others stay as they are. -/
def Removed (e : ℕ × α) (v v' : List (ℕ × α)) : Prop := ∃ l r, v = l ++ e :: r ∧ v' = l ++ r

/-- **What a call does**, as a priority queue: `seen` is what `top` returns. -/
def Does (s : NumberedQueue α) : QueueCall α → NumberedQueue α → Prop
  | .push x, t => t.queue.v = s.queue.v ++ [(s.count, x)] ∧ t.count = s.count + 1
  | .top comp, t => t.queue.v = s.queue.v ∧
      ∃ e, t.seen = some e ∧ (Ordering comp s.queue.v → Latest comp s.queue.v e)
  | .pop comp, t => ∃ e, Removed e s.queue.v t.queue.v ∧
      match s.seen with
      | some seen => e = seen
      | none => Ordering comp s.queue.v → Latest comp s.queue.v e

structure Kept (s : NumberedQueue α) : Prop where
  sorted : s.queue.v.Pairwise (·.1 < ·.1)
  lt : ∀ e ∈ s.queue.v, e.1 < s.count
  cached : (s.queue.bestIndex.map fun i => s.queue.v[i]?) = s.seen.map some

variable {comp : α → α → Bool} {s t : NumberedQueue α} {a : QueueCall α} {v v' : List (ℕ × α)}
  {e : ℕ × α}

lemma Ordering.strictWeakOn (h : Ordering comp v) : StrictWeakOn (onElements comp) {e | e ∈ v} := by
  have hmem : ∀ e ∈ v, e.2 ∈ {x | ∃ e ∈ v, e.2 = x} := fun e he => ⟨e, he, rfl⟩
  exact ⟨fun a ha => h.irrefl _ (hmem a ha), fun a ha b hb => h.asymm _ (hmem a ha) _ (hmem b hb),
    fun a ha b hb c hc => h.trans _ (hmem a ha) _ (hmem b hb) _ (hmem c hc),
    fun a ha b hb c hc => h.incomp _ (hmem a ha) _ (hmem b hb) _ (hmem c hc)⟩

lemma latest_of_best {l r : List (ℕ × α)} (hsorted : (l ++ e :: r).Pairwise (·.1 < ·.1))
    (h : CachedQueue.Best (onElements comp) l e r) : Latest comp (l ++ e :: r) e := by
  have hin : e ∈ l ++ e :: r := List.mem_append_right l List.mem_cons_self
  refine ⟨hin, h.undominated, fun e' he' hundom => ?_⟩
  rcases List.mem_append.1 he' with he' | he'
  · exact ((List.pairwise_append.1 hsorted).2.2 e' he' e List.mem_cons_self).le
  · rcases List.mem_cons.1 he' with rfl | he'
    · exact le_rfl
    · exact absurd ((hundom e hin).symm.trans (h.later e' he')) Bool.false_ne_true

lemma removed_eraseIdx {i : ℕ} (h : v[i]? = some e) : Removed e v (v.eraseIdx i) := by
  obtain ⟨hi, rfl⟩ := List.getElem?_eq_some_iff.1 h
  refine ⟨v.take i, v.drop (i + 1), ?_, List.eraseIdx_eq_take_drop_succ v i⟩
  rw [List.getElem_cons_drop, List.take_append_drop]

lemma Removed.sublist (h : Removed e v v') : v'.Sublist v := by
  obtain ⟨l, r, rfl, rfl⟩ := h
  exact (List.sublist_cons_self e r).append_left l

lemma top_does (hs : Kept s) (hv : s.queue.v ≠ []) (comp : α → α → Bool) :
    ∃ i e, s.queue.top (onElements comp) = some (e, ⟨s.queue.v, some i⟩) ∧
      s.queue.v[i]? = some e ∧ (Ordering comp s.queue.v → Latest comp s.queue.v e) := by
  obtain ⟨l, e, r, heq, htop, -, hbest⟩ := CachedQueue.top_spec (onElements comp) hv
  refine ⟨l.length, e, htop, ?_, fun h => ?_⟩
  · rw [heq]
    simp
  · have hb := hbest h.strictWeakOn
    have hsorted := hs.sorted
    rw [heq] at hsorted ⊢
    exact latest_of_best hsorted hb

lemma pop_does (hs : Kept s) (hv : s.queue.v ≠ []) (comp : α → α → Bool) :
    ∃ e v', s.queue.pop (onElements comp) = some ⟨v', none⟩ ∧ Removed e s.queue.v v' ∧
      match s.seen with
      | some seen => e = seen
      | none => Ordering comp s.queue.v → Latest comp s.queue.v e := by
  have hcached := hs.cached
  unfold CachedQueue.pop CachedQueue.popIndex
  rw [if_neg hv]
  cases hseen : s.seen with
  | some seen =>
    rw [hseen] at hcached
    obtain ⟨i, hi, hget⟩ := Option.map_eq_some_iff.1 hcached
    rw [hi]
    exact ⟨seen, _, rfl, removed_eraseIdx hget, rfl⟩
  | none =>
    rw [hseen] at hcached
    obtain ⟨i, e, htop, hget, hlatest⟩ := top_does hs hv comp
    rw [Option.map_eq_none_iff.1 hcached, htop]
    exact ⟨e, _, rfl, removed_eraseIdx hget, hlatest⟩

lemma Kept.next (hs : Kept s) (hn : next s a = some t) : Kept t ∧ Does s a t := by
  cases a with
  | push x =>
    obtain rfl := Option.some.inj hn
    refine ⟨⟨List.pairwise_append.2 ⟨hs.sorted, List.pairwise_singleton _ _, fun e he f hf => ?_⟩,
      fun e he => ?_, rfl⟩, rfl, rfl⟩
    · obtain rfl := List.mem_singleton.1 hf
      exact hs.lt e he
    · rcases List.mem_append.1 he with he | he
      · exact (hs.lt e he).trans (Nat.lt_succ_self _)
      · obtain rfl := List.mem_singleton.1 he
        exact Nat.lt_succ_self _
  | top comp =>
    obtain ⟨r, hr, rfl⟩ := Option.map_eq_some_iff.1 hn
    have hv : s.queue.v ≠ [] := fun hv => by
      rw [CachedQueue.top_eq_none.2 hv] at hr
      cases hr
    obtain ⟨i, e, htop, hget, hlatest⟩ := top_does hs hv comp
    obtain rfl := Option.some.inj (htop.symm.trans hr)
    exact ⟨⟨hs.sorted, hs.lt, congrArg some hget⟩, rfl, e, rfl, hlatest⟩
  | pop comp =>
    obtain ⟨q, hq, rfl⟩ := Option.map_eq_some_iff.1 hn
    have hv : s.queue.v ≠ [] := fun hv => by
      rw [CachedQueue.pop_eq_none.2 hv] at hq
      cases hq
    obtain ⟨e, v', hpop, hremoved, he⟩ := pop_does hs hv comp
    obtain rfl := Option.some.inj (hpop.symm.trans hq)
    have hsub := hremoved.sublist
    exact ⟨⟨hs.sorted.sublist hsub, fun f hf => hs.lt f (hsub.subset hf), rfl⟩, e, hremoved, he⟩

lemma Kept.reach (hs : Reach (machine α) s) : Kept s :=
  hs.inv ⟨List.Pairwise.nil, nofun, rfl⟩ fun _ h hn => (h.next hn).1

/-- **The queue is a priority queue**, whatever the comparisons of the calls before were: it does
what is asked of it, unless it is asked for an element of none. -/
theorem does_of_reach (hs : Reach (machine α) s) (a : QueueCall α) :
    (∀ t, next s a = some t → Does s a t) ∧
      (next s a = none → (∀ x, a ≠ .push x) ∧ s.queue.v = []) := by
  refine ⟨fun t hn => ((Kept.reach hs).next hn).2, fun hn => ?_⟩
  cases a with
  | push x => cases hn
  | top comp => exact ⟨nofun, CachedQueue.top_eq_none.1 (Option.map_eq_none_iff.1 hn)⟩
  | pop comp => exact ⟨nofun, CachedQueue.pop_eq_none.1 (Option.map_eq_none_iff.1 hn)⟩

/-- Of two elements of the least key the second is returned, and popped although by then the order
of the keys is the other way round. -/
theorem does_of_two_least :
    ∃ s, Reach (machine ℕ) s ∧ s.seen = some (2, 1) ∧
      (∀ t, next s (.pop fun a b => a < b) = some t → Does s (.pop fun a b => a < b) t) ∧
        (next s (.pop fun a b => a < b) = none →
          (∀ x, QueueCall.pop (fun a b : ℕ => a < b) ≠ .push x) ∧ s.queue.v = []) := by
  obtain ⟨s, hs, hseen⟩ := exists_reach_of_exec_any (M := machine ℕ)
    (P := fun s => s.seen = some (2, 1)) [.push 5, .push 1, .push 1, .top fun a b => b < a]
    (by decide)
  exact ⟨s, hs, hseen, does_of_reach hs _⟩

end NumberedQueue

end DcSim
