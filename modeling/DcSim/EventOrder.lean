import DcSim.HeapQueue
import DcSim.Packet
import DcSim.Runs
import Mathlib.Tactic.Linarith

/-!
The order in which the simulation takes its events.

The event queue is a `std::priority_queue` under `EventComparator`, which compares the types of two
events whose times differ by less than a femtosecond, and the times of all others. This is no
strict weak ordering: where three events follow each other by less than that, the first and the
last can be further apart. Where no events do so in the wrong order of types it is one, and then no
event that is pending precedes the one that is taken.
-/

namespace DcSim

open HeapQueue Runs

structure Event where
  uniqueId : ℕ
  time : Time
  type : ℕ
  deriving DecidableEq

namespace Event

def tolerance : Time := 1 / 1000000000000000

/-- The times of two events count as equal. -/
def Near (a b : Event) : Prop := |a.time - b.time| < tolerance

instance (a b : Event) : Decidable (a.Near b) := by unfold Near; infer_instance

/-- `EventComparator`: whether the first event comes after the second. -/
def eventComparator (a b : Event) : Bool :=
  if a.Near b then b.type < a.type else b.time < a.time

/-- What happens to the event queue: `add_to_event_queue`, and a turn of the loop of
`run_scenario`, which takes the top and may then add more events. -/
inductive QueueAct
  | push (e : Event)
  | pop

def queue : Machine (Array Event) QueueAct where
  init := #[]
  next q
    | .push e => some (push eventComparator q e)
    | .pop => (pop eventComparator q).map (·.2)

/-- In every run of the event queue with events of a set, no event that is pending precedes the
one that is taken. -/
def TakesFirst (S : Set Event) : Prop :=
  ∀ as, (∀ e, .push e ∈ as → e ∈ S) → ∀ q, exec queue #[] as = some q →
    ∀ e rest, pop eventComparator q = some (e, rest) → ∀ e' ∈ rest, eventComparator e e' = false

/-- Three events, the times of which count as equal one by one but not those of the first and the
last, although by their types the first does not come before the last. -/
def Straddles (a b c : Event) : Prop :=
  a.Near b ∧ b.Near c ∧ tolerance ≤ c.time - a.time ∧ c.type ≤ b.type ∧ b.type ≤ a.type

variable {a b c : Event} {S : Set Event}

lemma tolerance_pos : 0 < tolerance := by unfold tolerance; norm_num

lemma near_iff : a.Near b ↔ a.time - b.time < tolerance ∧ b.time - a.time < tolerance := by
  unfold Near
  rw [abs_lt]
  constructor <;> rintro ⟨h₁, h₂⟩ <;> constructor <;> linarith

lemma Near.symm (h : a.Near b) : b.Near a := by
  rw [near_iff] at h ⊢
  exact h.symm

lemma eventComparator_eq_true : eventComparator a b = true ↔
    a.Near b ∧ b.type < a.type ∨ tolerance ≤ a.time - b.time := by
  have := tolerance_pos
  unfold eventComparator
  split_ifs with hnear
  · have := (near_iff.1 hnear).1
    simp only [decide_eq_true_eq, hnear, true_and]
    exact ⟨.inl, fun h => h.resolve_right (by linarith)⟩
  · simp only [decide_eq_true_eq, hnear, false_and, false_or]
    rw [near_iff, not_and_or, not_lt, not_lt] at hnear
    constructor
    · intro hlt
      rcases hnear with h | h <;> linarith
    · intro hle
      linarith

lemma eventComparator_eq_false : eventComparator a b = false ↔
    (a.Near b → a.type ≤ b.type) ∧ a.time - b.time < tolerance := by
  rw [← Bool.not_eq_true, eventComparator_eq_true, not_or, not_and, not_lt, not_le]

lemma near_of_incomp (hab : eventComparator a b = false) (hba : eventComparator b a = false) :
    a.Near b ∧ a.type = b.type := by
  rw [eventComparator_eq_false] at hab hba
  have hnear : a.Near b := near_iff.2 ⟨hab.2, hba.2⟩
  exact ⟨hnear, le_antisymm (hab.1 hnear) (hba.1 hnear.symm)⟩

lemma strictWeakOn_of_not_straddles (hS : ∀ a ∈ S, ∀ b ∈ S, ∀ c ∈ S, ¬ Straddles a b c) :
    StrictWeakOn eventComparator S := by
  have htol := tolerance_pos
  refine ⟨fun a _ => ?_, fun a _ b _ hab => ?_, fun a ha b hb c hc hab hbc => ?_,
    fun a ha b hb c hc hab hba hbc hcb => ?_⟩
  · rw [eventComparator_eq_false, sub_self]
    exact ⟨fun _ => le_rfl, htol⟩
  · rw [eventComparator_eq_true] at hab
    rw [eventComparator_eq_false]
    rcases hab with ⟨hnear, htype⟩ | hfar
    · exact ⟨fun _ => htype.le, (near_iff.1 hnear).2⟩
    · refine ⟨fun hnear => ?_, by linarith⟩
      have := (near_iff.1 hnear).2
      linarith
  · by_contra hac
    rw [Bool.not_eq_true, eventComparator_eq_false] at hac
    obtain ⟨htype, hlt⟩ := hac
    rcases eventComparator_eq_true.1 hab with ⟨hnab, htab⟩ | hfab <;>
      rcases eventComparator_eq_true.1 hbc with ⟨hnbc, htbc⟩ | hfbc
    · -- the three follow each other in time, and the types go down
      have hfar : tolerance ≤ c.time - a.time := by
        by_contra hnot
        have := htype (near_iff.2 ⟨hlt, not_le.1 hnot⟩)
        omega
      exact hS a ha b hb c hc ⟨hnab, hnbc, hfar, htbc.le, htab.le⟩
    · have hnac : a.Near c := near_iff.2 ⟨hlt, by have := (near_iff.1 hnab).2; linarith⟩
      exact hS c hc a ha b hb ⟨hnac.symm, hnab, hfbc, htab.le, htype hnac⟩
    · have hnac : a.Near c := near_iff.2 ⟨hlt, by have := (near_iff.1 hnbc).2; linarith⟩
      exact hS b hb c hc a ha ⟨hnbc, hnac.symm, hfab, htype hnac, htbc.le⟩
    · linarith
  · obtain ⟨hnab, htab⟩ := near_of_incomp hab hba
    obtain ⟨hnbc, htbc⟩ := near_of_incomp hbc hcb
    have hac : a.time - c.time < tolerance := by
      by_contra hnot
      exact hS c hc b hb a ha ⟨hnbc.symm, hnab.symm, not_lt.1 hnot, htab.le, htbc.le⟩
    have hca : c.time - a.time < tolerance := by
      by_contra hnot
      exact hS a ha b hb c hc ⟨hnab, hnbc, not_lt.1 hnot, htbc.ge, htab.ge⟩
    rw [eventComparator_eq_false, eventComparator_eq_false]
    exact ⟨⟨fun _ => (htab.trans htbc).le, hac⟩, ⟨fun _ => (htab.trans htbc).ge, hca⟩⟩

lemma not_straddles_of_strictWeakOn (h : StrictWeakOn eventComparator S) (ha : a ∈ S) (hb : b ∈ S)
    (hc : c ∈ S) : ¬ Straddles a b c := by
  rintro ⟨hnab, hnbc, hfar, htbc, htab⟩
  have hcb : eventComparator c b = false :=
    eventComparator_eq_false.2 ⟨fun _ => htbc, (near_iff.1 hnbc).2⟩
  have hba : eventComparator b a = false :=
    eventComparator_eq_false.2 ⟨fun _ => htab, (near_iff.1 hnab).2⟩
  have hca : eventComparator c a = true := eventComparator_eq_true.2 (.inr hfar)
  exact Bool.false_ne_true ((h.not_trans hc hb ha hcb hba).symm.trans hca)

/-! ### The runs -/

/-- The event queue is a heap of events of the set. -/
def Kept (S : Set Event) (q : Array Event) : Prop :=
  IsHeap eventComparator q ∧ ∀ e ∈ q, e ∈ S

lemma kept_next (h : StrictWeakOn eventComparator S) {q q' : Array Event} {act : QueueAct}
    (hq : Kept S q) (hact : ∀ e, act = .push e → e ∈ S) (hn : queue.next q act = some q') :
    Kept S q' := by
  cases act with
  | push e =>
    obtain rfl := Option.some.inj hn
    refine ⟨isHeap_push h hq.2 (hact e rfl) hq.1, fun e' he' => ?_⟩
    rcases Array.mem_push.1 ((push_perm q e).mem_iff.1 he') with he' | rfl
    · exact hq.2 e' he'
    · exact hact e' rfl
  | pop =>
    obtain ⟨⟨e, rest⟩, hpop, rfl⟩ := Option.map_eq_some_iff.1 hn
    obtain ⟨hperm, hheap, -⟩ := pop_spec h hq.2 hq.1 hpop
    refine ⟨hheap, fun e' he' => hq.2 e' ?_⟩
    exact Array.mem_toList_iff.1
      (hperm.mem_iff.2 (List.mem_cons_of_mem _ (Array.mem_toList_iff.2 he')))

theorem takesFirst_of_strictWeakOn (h : StrictWeakOn eventComparator S) : TakesFirst S := by
  intro as has q hq e rest hpop
  have hkept : Kept S q := by
    have hinit : Kept S #[] := ⟨isHeap_empty, nofun⟩
    generalize (#[] : Array Event) = q₀ at hinit hq
    induction as generalizing q₀ with
    | nil =>
      obtain rfl := Option.some.inj hq
      exact hinit
    | cons act as ih =>
      obtain ⟨q₁, hn, hq⟩ := Option.bind_eq_some_iff.1 hq
      refine ih (fun e he => has e (List.mem_cons_of_mem _ he)) q₁ ?_ hq
      exact kept_next h hinit (fun e he => has e (he ▸ List.mem_cons_self)) hn
  exact (pop_spec h hkept.2 hkept.1 hpop).2.2

/-- **`EventComparator` orders a set of events**, and the event queue takes them in this order, if
and only if no three of them straddle the tolerance. -/
theorem ordered_iff_not_straddles (S : Set Event) :
    StrictWeakOn eventComparator S ∧ TakesFirst S ↔
      ∀ a ∈ S, ∀ b ∈ S, ∀ c ∈ S, ¬ Straddles a b c := by
  refine ⟨fun h a ha b hb c hc => not_straddles_of_strictWeakOn h.1 ha hb hc, fun hS => ?_⟩
  have h := strictWeakOn_of_not_straddles hS
  exact ⟨h, takesFirst_of_strictWeakOn h⟩

/-- A queue, an arrival and an enqueueing within 1.2 femtoseconds. -/
def femtoseconds : List Event :=
  [⟨0, 1, 3⟩, ⟨1, 1 + 6 / 10000000000000000, 2⟩, ⟨2, 1 + 12 / 10000000000000000, 1⟩]

/-- Each comes after the next by its type and the last after the first by its time, and the last
is taken first. -/
theorem not_ordered_femtoseconds :
    ¬ StrictWeakOn eventComparator {e | e ∈ femtoseconds} ∧
      ¬ TakesFirst {e | e ∈ femtoseconds} := by
  refine ⟨fun h => ?_, fun h => ?_⟩
  · have hmem : ∀ i (hi : i < 3), femtoseconds.get ⟨i, hi⟩ ∈ {e | e ∈ femtoseconds} :=
      fun i hi => List.get_mem _ _
    have hcomp := h.trans _ (hmem 0 (by decide)) _ (hmem 1 (by decide)) _ (hmem 2 (by decide))
      (by decide +kernel) (by decide +kernel)
    exact absurd hcomp (by decide +kernel)
  · have htaken := h (femtoseconds.map .push) (by simp)
    have hrun : (exec queue #[] (femtoseconds.map .push)).any (fun q =>
        (pop eventComparator q).any fun r => r.2.any fun e => eventComparator r.1 e) = true := by
      decide +kernel
    obtain ⟨q, hq, hany⟩ := (Option.any_eq_true _ _).1 hrun
    obtain ⟨⟨e, rest⟩, hpop, hany⟩ := (Option.any_eq_true _ _).1 hany
    obtain ⟨i, hi, hcomp⟩ := Array.any_eq_true.1 hany
    have := htaken q hq e rest hpop _ (Array.getElem_mem hi)
    exact Bool.false_ne_true (this.symm.trans hcomp)

end Event

end DcSim
