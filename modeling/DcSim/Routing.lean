import Mathlib.Data.List.Basic

/-!
The way of a packet through queues that choose the next queue.

A router is asked for the next queue of a packet at a queue. It may read and change the packet
and a counter of the queue, which other packets use as well, so a counter can have any value
at any time. A packet whose transmission is broken off is asked for again at the same queue.
-/

namespace DcSim.Routing

variable {P Q : Type*}

/-- The packet and the counter after the call and the next queue, if there is one; the call may
fail. -/
abbrev Router (P Q : Type*) := ℕ → P → Q → Option (P × ℕ × Option Q)

/-- A packet goes from a queue on through a list of queues, and arrives. -/
inductive Traverses (R : Router P Q) : P → Q → List Q → P → Prop
  | arrive {c c' p p' q} : R c p q = some (p', c', none) → Traverses R p q [q] p'
  | next {c c' p p₁ p' q r qs} : R c p q = some (p₁, c', some r) → Traverses R p₁ r qs p' →
      Traverses R p q (q :: qs) p'
  | again {c c' p p₁ p' q r qs} : R c p q = some (p₁, c', r) → Traverses R p₁ q qs p' →
      Traverses R p q qs p'

/-- The queues from one on, when each has one next queue. -/
inductive Chain (f : Q → Option (Option Q)) : Q → List Q → Prop
  | last {q} : f q = some none → Chain f q [q]
  | cons {q r qs} : f q = some (some r) → Chain f r qs → Chain f q (q :: qs)

variable {R : Router P Q} {f : Q → Option (Option Q)} {q : Q} {qs : List Q}

theorem Chain.unique {qs' : List Q} (h : Chain f q qs) (h' : Chain f q qs') : qs = qs' := by
  induction h generalizing qs' with
  | last hq =>
    cases h' with
    | last => rfl
    | cons hr => exact absurd (hq.symm.trans hr) (by simp)
  | cons hr _ ih =>
    cases h' with
    | last hq => exact absurd (hq.symm.trans hr) (by simp)
    | cons hr' hqs =>
      obtain rfl : _ = _ := Option.some.inj (Option.some.inj (hr.symm.trans hr'))
      rw [ih hqs]

lemma Chain.next_mem {r s : Q} (h : Chain f q qs) (hr : r ∈ qs) (hs : f r = some (some s)) :
    s ∈ qs := by
  induction h with
  | last hq =>
    obtain rfl := List.mem_singleton.1 hr
    exact nomatch hq.symm.trans hs
  | cons hq hrest ih =>
    rcases List.mem_cons.1 hr with rfl | hr
    · obtain rfl : _ = s := Option.some.inj (Option.some.inj (hq.symm.trans hs))
      cases hrest <;> simp
    · exact List.mem_cons_of_mem _ (ih hr)

lemma Chain.mem (h : Chain f q qs) : q ∈ qs := by
  cases h <;> simp

lemma Chain.head (h : Chain f q qs) : ∃ rest, qs = q :: rest ∧ f q = some rest.head? := by
  cases h with
  | last hq => exact ⟨[], rfl, hq⟩
  | cons hq hrest => cases hrest <;> exact ⟨_, rfl, hq⟩

lemma Chain.next_mem_tail {r s : Q} (h : Chain f q qs) (hr : r ∈ qs) (hs : f r = some (some s)) :
    s ∈ qs.tail := by
  induction h with
  | last hq =>
    obtain rfl := List.mem_singleton.1 hr
    exact nomatch hq.symm.trans hs
  | cons hq hrest ih =>
    rcases List.mem_cons.1 hr with rfl | hr
    · obtain rfl : _ = s := Option.some.inj (Option.some.inj (hq.symm.trans hs))
      exact hrest.mem
    · exact List.mem_of_mem_tail (ih hr)

lemma Chain.exists_next (h : Chain f q qs) {s : Q} (hs : s ∈ qs.tail) :
    ∃ r ∈ qs, f r = some (some s) := by
  induction h with
  | last => cases hs
  | @cons q r qs hq hrest ih =>
    obtain ⟨rest, rfl, -⟩ := hrest.head
    rcases List.mem_cons.1 hs with rfl | hs
    · exact ⟨q, List.mem_cons_self .., hq⟩
    · obtain ⟨r', hr', hnext⟩ := ih hs
      exact ⟨r', List.mem_cons_of_mem _ hr', hnext⟩

lemma Chain.goes {r : Q} (h : Chain f q qs) (hr : r ∈ qs) :
    ∃ o, f r = some o ∧ ∀ s ∈ o, s ∈ qs := by
  have hsome : ∃ o, f r = some o := by
    induction h with
    | last hq => exact ⟨none, List.mem_singleton.1 hr ▸ hq⟩
    | cons hq _ ih =>
      rcases List.mem_cons.1 hr with rfl | hr
      · exact ⟨_, hq⟩
      · exact ih hr
  obtain ⟨o, ho⟩ := hsome
  refine ⟨o, ho, fun s hs => ?_⟩
  obtain rfl : o = some s := hs
  exact h.next_mem hr ho

lemma Chain.exists_last (h : Chain f q qs) : ∃ r ∈ qs, f r = some none := by
  induction h with
  | last hq => exact ⟨_, List.mem_cons_self .., hq⟩
  | cons hq hrest ih =>
    obtain ⟨r, hr, hlast⟩ := ih
    exact ⟨r, List.mem_cons_of_mem _ hr, hlast⟩

lemma Chain.next_inj {r s : Q} (h : Chain f q qs) (hnodup : qs.Nodup) (hr : r ∈ qs) (hs : s ∈ qs)
    (heq : f r = f s) : r = s := by
  induction h with
  | last => exact (List.mem_singleton.1 hr).trans (List.mem_singleton.1 hs).symm
  | cons hq hrest ih =>
    obtain ⟨hnot, hnodup⟩ := List.nodup_cons.1 hnodup
    obtain ⟨rest, rfl, -⟩ := hrest.head
    -- the first queue leads to the second, which no later one leads to
    have hfirst : ∀ {s}, s ∈ _ → f s ≠ some (some _) := fun hs hnext =>
      (List.nodup_cons.1 hnodup).1 (hrest.next_mem_tail hs hnext)
    rcases List.mem_cons.1 hr with hr | hr <;> rcases List.mem_cons.1 hs with hs | hs
    · rw [hr, hs]
    · exact absurd ((heq.symm.trans (hr ▸ hq))) (hfirst hs)
    · exact absurd (heq.trans (hs ▸ hq)) (hfirst hr)
    · exact ih hnodup hr hs

lemma chain_map_iff {Q' : Type*} {g : Q' → Option (Option Q')} {e : Q → Q'} {qs' : List Q'}
    (hg : ∀ r, g (e r) = (f r).map (Option.map e)) :
    Chain g (e q) qs' ↔ ∃ qs, qs' = qs.map e ∧ Chain f q qs := by
  constructor
  · intro h
    generalize hq : e q = q' at h
    induction h generalizing q with
    | last hr =>
      subst hq
      obtain ⟨o, ho, hnone⟩ := Option.map_eq_some_iff.1 ((hg q).symm.trans hr)
      exact ⟨[q], rfl, .last (by rw [ho, Option.map_eq_none_iff.1 hnone])⟩
    | cons hr _ ih =>
      subst hq
      obtain ⟨o, ho, hsome⟩ := Option.map_eq_some_iff.1 ((hg q).symm.trans hr)
      obtain ⟨r, rfl, rfl⟩ := Option.map_eq_some_iff.1 hsome
      obtain ⟨qs, rfl, hqs⟩ := ih rfl
      exact ⟨q :: qs, rfl, .cons ho hqs⟩
  · rintro ⟨qs, rfl, h⟩
    induction h with
    | last hr => exact .last (by rw [hg, hr]; rfl)
    | cons hr _ ih => exact .cons (by rw [hg, hr]; rfl) ih

/-- The queues of a packet on its way, for at most so many of them, where each counter is as it
stands when the packet is at the queue. -/
def walk (R : Router P Q) (counters : ℕ → ℕ) : ℕ → P → Q → Option (List Q)
  | 0, _, _ => none
  | n + 1, p, q => (R (counters n) p q).bind fun
    | (_, _, none) => some [q]
    | (p', _, some r) => (walk R counters n p' r).map (q :: ·)

lemma walk_of_chain {counters : ℕ → ℕ} {p : P} (h : Chain f q qs)
    (hR : ∀ r ∈ qs, ∀ c o, f r = some o → ∃ c', R c p r = some (p, c', o)) {n : ℕ}
    (hn : qs.length ≤ n) : walk R counters n p q = some qs := by
  induction h generalizing n with
  | last hq =>
    obtain ⟨n, rfl⟩ : ∃ k, n = k + 1 := ⟨n - 1, by simp at hn; omega⟩
    obtain ⟨c', hstep⟩ := hR _ (by simp) (counters n) _ hq
    simp only [walk, hstep, Option.bind_some]
  | cons hq _ ih =>
    obtain ⟨n, rfl⟩ : ∃ k, n = k + 1 := ⟨n - 1, by simp at hn; omega⟩
    obtain ⟨c', hstep⟩ := hR _ (by simp) (counters n) _ hq
    have hrest := ih (fun r hr => hR r (List.mem_cons_of_mem _ hr)) (n := n) (by simpa using hn)
    simp only [walk, hstep, Option.bind_some, hrest, Option.map_some]

structure Follows (R : Router P Q) (f : Q → Option (Option Q)) (I : P → Q → Prop) : Prop where
  goes {c c' p p' q r} : I p q → R c p q = some (p', c', r) → f q = some r
  keeps {c c' p p' q r} : I p q → R c p q = some (p', c', r) → I p' q ∧ ∀ s ∈ r, I p' s
  can {p q r} : I p q → f q = some r → ∃ c c' p', R c p q = some (p', c', r)

variable {I : P → Q → Prop} {p p' : P}

lemma Follows.chain (hF : Follows R f I) (hI : I p q) (h : Traverses R p q qs p') :
    Chain f q qs := by
  induction h with
  | arrive hr => exact .last (hF.goes hI hr)
  | next hr _ ih => exact .cons (hF.goes hI hr) (ih ((hF.keeps hI hr).2 _ rfl))
  | again hr _ ih => exact ih (hF.keeps hI hr).1

lemma Follows.traverses (hF : Follows R f I) (hI : I p q) (h : Chain f q qs) :
    ∃ p', Traverses R p q qs p' := by
  induction h generalizing p with
  | last hq =>
    obtain ⟨c, c', p', hr⟩ := hF.can hI hq
    exact ⟨p', .arrive hr⟩
  | cons hq _ ih =>
    obtain ⟨c, c', p₁, hr⟩ := hF.can hI hq
    obtain ⟨p', hp'⟩ := ih ((hF.keeps hI hr).2 _ rfl)
    exact ⟨p', .next hr hp'⟩

/-- **A packet that goes by `f` goes one way**: through the queues `f` leads to, and no others. -/
theorem Follows.traverses_iff (hF : Follows R f I) (hI : I p q) :
    (∃ p', Traverses R p q qs p') ↔ Chain f q qs :=
  ⟨fun ⟨_, h⟩ => hF.chain hI h, fun h => hF.traverses hI h⟩

end DcSim.Routing
