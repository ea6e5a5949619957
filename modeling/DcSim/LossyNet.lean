import DcSim.Runs
import Mathlib.Algebra.Order.Group.Multiset

/-!
One party over a network that loses, duplicates, delays and reorders packets.

The party is given by what it does with a packet and with an input of its own, such as a
timer. Each returns the packets it sends. Packets are in flight until they are received or
lost, in any order and for any time, and any of them may be doubled on the way.
-/

namespace DcSim.LossyNet

open Runs

structure Party (F P T I : Type*) where
  -- An input that is not enabled does nothing.
  init : F
  input : T → I → F → Option (F × List P)
  receive : T → P → F → F × List P

structure State (F P T : Type*) where
  now : T
  party : F
  inFlight : Multiset P

inductive Act (P T I : Type*)
  | input (t : T) (i : I)
  | deliver (t : T) (p : P)
  | lose (p : P)
  | duplicate (p : P)

variable {F P T I : Type*} [LE T] [DecidableLE T] [DecidableEq P] (A : Party F P T I) (t₀ : T)

def next (s : State F P T) : Act P T I → Option (State F P T)
  | .input t i =>
    if s.now ≤ t then (A.input t i s.party).map fun r => ⟨t, r.1, s.inFlight + r.2⟩ else none
  | .deliver t p =>
    if s.now ≤ t ∧ p ∈ s.inFlight then
      some ⟨t, (A.receive t p s.party).1, s.inFlight.erase p + (A.receive t p s.party).2⟩
    else none
  | .lose p => if p ∈ s.inFlight then some { s with inFlight := s.inFlight.erase p } else none
  | .duplicate p => if p ∈ s.inFlight then some { s with inFlight := p ::ₘ s.inFlight } else none

/-- The party in its network, from a time on. -/
def machine : Machine (State F P T) (Act P T I) := ⟨⟨t₀, A.init, 0⟩, next A⟩

variable {A t₀}

/-- **What a step can do.** -/
theorem next_cases {s t : State F P T} {a : Act P T I} (h : next A s a = some t) :
    (∃ time i r, a = .input time i ∧ A.input time i s.party = some r ∧
      t = ⟨time, r.1, s.inFlight + r.2⟩) ∨
    (∃ time p S, a = .deliver time p ∧ s.inFlight = p ::ₘ S ∧
      t = ⟨time, (A.receive time p s.party).1, S + (A.receive time p s.party).2⟩) ∨
    (∃ p S, a = .lose p ∧ s.inFlight = p ::ₘ S ∧ t = { s with inFlight := S }) ∨
    (∃ p, a = .duplicate p ∧ p ∈ s.inFlight ∧ t = { s with inFlight := p ::ₘ s.inFlight }) := by
  cases a with
  | input time i =>
    obtain ⟨-, h⟩ := Option.ite_none_right_eq_some.mp h
    obtain ⟨r, hr, rfl⟩ := Option.map_eq_some_iff.mp h
    exact .inl ⟨time, i, r, rfl, hr, rfl⟩
  | deliver time p =>
    obtain ⟨⟨-, hp⟩, h⟩ := Option.ite_none_right_eq_some.mp h
    obtain rfl := Option.some.inj h
    exact .inr (.inl ⟨time, p, _, rfl, (Multiset.cons_erase hp).symm, rfl⟩)
  | lose p =>
    obtain ⟨hp, h⟩ := Option.ite_none_right_eq_some.mp h
    obtain rfl := Option.some.inj h
    exact .inr (.inr (.inl ⟨p, _, rfl, (Multiset.cons_erase hp).symm, rfl⟩))
  | duplicate p =>
    obtain ⟨hp, h⟩ := Option.ite_none_right_eq_some.mp h
    obtain rfl := Option.some.inj h
    exact .inr (.inr (.inr ⟨p, rfl, hp, rfl⟩))

/-- `I` relates the party to the packets in flight, and the steps that meet a condition keep
it. -/
structure Kept (A : Party F P T I) (C : F → Act P T I → Prop) (R : F → Multiset P → Prop) :
    Prop where
  init : R A.init 0
  input {f S t i r} : C f (.input t i) → R f S → A.input t i f = some r → R r.1 (S + r.2)
  receive {f S t p} : C f (.deliver t p) → R f (p ::ₘ S) →
    R (A.receive t p f).1 (S + (A.receive t p f).2)
  lose {f S p} : R f (p ::ₘ S) → R f S
  duplicate {f S p} : p ∈ S → R f S → R f (p ::ₘ S)

namespace Kept

variable {C : F → Act P T I → Prop} {R : F → Multiset P → Prop}

lemma step (h : Kept A C R) {s t : State F P T} {a : Act P T I} (hR : R s.party s.inFlight)
    (hC : C s.party a) (hn : next A s a = some t) : R t.party t.inFlight := by
  rcases next_cases hn with ⟨t, i, r, rfl, hr, rfl⟩ | ⟨t, p, S, rfl, hS, rfl⟩ |
    ⟨p, S, rfl, hS, rfl⟩ | ⟨p, rfl, hp, rfl⟩
  · exact h.input hC hR hr
  · exact h.receive hC (hS ▸ hR)
  · exact h.lose (hS ▸ hR)
  · exact h.duplicate hp hR

/-- **The rule for a run**: the relation holds in each state of a run whose steps all meet the
condition. -/
theorem always (h : Kept A C R) {as : List (Act P T I)}
    (hC : Along (machine A t₀) (fun s a => C s.party a) (machine A t₀).init as) :
    Always (machine A t₀) (fun s => R s.party s.inFlight) (machine A t₀).init as :=
  hC.always (fun hR hC hn => h.step hR hC hn) h.init

/-- **The rule for every run**, when the condition is met by any step. -/
theorem reach (h : Kept A (fun _ _ => True) R) {s : State F P T}
    (hs : Reach (machine A t₀) s) : R s.party s.inFlight :=
  hs.inv (I := fun s => R s.party s.inFlight) h.init fun _ hR hn => h.step hR trivial hn

end Kept

/-! ### One call at a time -/

structure Call (I : F → Prop) (L : F → F → Prop) (G : F → P → Prop) (f : F) (r : F × List P) :
    Prop where
  inv : I r.1
  le : L f r.1
  packets : ∀ p ∈ r.2, G r.1 p

structure Calls (A : Party F P T I) (C : F → Act P T I → Prop) (J : F → Prop)
    (L : F → F → Prop) (G : F → P → Prop) : Prop where
  init : J A.init
  mono {f g p} : L f g → G f p → G g p
  input {f t i r} : C f (.input t i) → J f → A.input t i f = some r → Call J L G f r
  receive {f t p} : C f (.deliver t p) → J f → G f p → Call J L G f (A.receive t p f)

namespace Calls

variable {C : F → Act P T I → Prop} {J : F → Prop} {L : F → F → Prop} {G : F → P → Prop}

omit [LE T] [DecidableLE T] [DecidableEq P] in
lemma inFlight (h : Calls A C J L G) {f : F} {r : F × List P} {S : Multiset P}
    (hr : Call J L G f r) (hS : ∀ p ∈ S, G f p) :
    J r.1 ∧ ∀ p ∈ S + (r.2 : Multiset P), G r.1 p := by
  refine ⟨hr.inv, fun p hp => ?_⟩
  rcases Multiset.mem_add.mp hp with hp | hp
  · exact h.mono hr.le (hS p hp)
  · exact hr.packets p (Multiset.mem_coe.mp hp)

omit [LE T] [DecidableLE T] [DecidableEq P] in
/-- **Calls make a run**: the party stays in the invariant, and all packets in flight are good. -/
theorem kept (h : Calls A C J L G) : Kept A C fun f S => J f ∧ ∀ p ∈ S, G f p where
  init := ⟨h.init, by simp⟩
  input := fun hC ⟨hJ, hS⟩ hr => h.inFlight (h.input hC hJ hr) hS
  receive := fun hC ⟨hJ, hS⟩ =>
    have ⟨hp, hS⟩ := Multiset.forall_mem_cons.mp hS
    h.inFlight (h.receive hC hJ hp) hS
  lose := fun ⟨hJ, hS⟩ => ⟨hJ, (Multiset.forall_mem_cons.mp hS).2⟩
  duplicate := fun hp ⟨hJ, hS⟩ => ⟨hJ, Multiset.forall_mem_cons.mpr ⟨hS _ hp, hS⟩⟩

theorem exec_mono (h : Calls A (fun _ _ => True) J L G) {α : Type*} [Preorder α] {m : F → α}
    (hm : ∀ {f g}, L f g → m f ≤ m g) {s t : State F P T} {as : List (Act P T I)}
    (hs : Reach (machine A t₀) s) (he : exec (machine A t₀) s as = some t) :
    m s.party ≤ m t.party := by
  refine hs.exec_mono (f := fun s : State F P T => m s.party) (fun {s t a} hs hn => ?_) he
  obtain ⟨hJ, hG⟩ := h.kept.reach hs
  rcases next_cases hn with ⟨t, i, r, -, hr, rfl⟩ | ⟨t, p, S, -, hS, rfl⟩ | ⟨p, S, -, -, rfl⟩ |
    ⟨p, -, -, rfl⟩
  · exact hm (h.input trivial hJ hr).le
  · exact hm (h.receive trivial hJ (hG p (hS ▸ Multiset.mem_cons_self p S))).le
  · exact le_rfl
  · exact le_rfl

end Calls

/-! ### What was sent -/

/-- The party with a history of the packets it sent. -/
def Party.logged (A : Party F P T I) : Party (F × List P) P T I where
  init := (A.init, [])
  input t i f := (A.input t i f.1).map fun r => ((r.1, f.2 ++ r.2), r.2)
  receive t p f := (((A.receive t p f.1).1, f.2 ++ (A.receive t p f.1).2), (A.receive t p f.1).2)

end DcSim.LossyNet
