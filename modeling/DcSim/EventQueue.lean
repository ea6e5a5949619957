import Mathlib.Data.List.Basic
import Mathlib.Data.List.MinMax
import Mathlib.Data.List.Nodup

/-!
The event queue of a discrete event simulation.

An event has a number of its own, a time and a kind. The numbers are given out in order, so
that an event that is kept by its number elsewhere is never mistaken for a later one. The
order in which events are taken is left to whoever takes them.
-/

namespace DcSim

structure QueuedEvent (T K : Type*) where
  id : ℕ
  time : T
  kind : K

structure EventQueue (T K : Type*) where
  events : List (QueuedEvent T K)
  count : ℕ

namespace EventQueue

variable {T K : Type*}

def empty : EventQueue T K := ⟨[], 0⟩

/-- A new event; its number is `count`. -/
def add (q : EventQueue T K) (time : T) (kind : K) : EventQueue T K :=
  ⟨q.events ++ [⟨q.count, time, kind⟩], q.count + 1⟩

/-- The event of a number is taken out. -/
def take? (q : EventQueue T K) (id : ℕ) : Option (QueuedEvent T K × EventQueue T K) :=
  (q.events.find? (·.id = id)).map fun e => (e, ⟨q.events.eraseP (·.id = id), q.count⟩)

def ofKind [DecidableEq K] (q : EventQueue T K) (kind : K) : List (QueuedEvent T K) :=
  q.events.filter (·.kind = kind)

/-- The numbers of the events of a kind. -/
def pending [DecidableEq K] (q : EventQueue T K) (kind : K) : List ℕ :=
  (q.ofKind kind).map (·.id)

/-- No event is pending for a time before this one. -/
def NoneBefore [LE T] (q : EventQueue T K) (time : T) : Prop := ∀ e ∈ q.events, time ≤ e.time

instance [LE T] [DecidableLE T] (q : EventQueue T K) (time : T) : Decidable (q.NoneBefore time) :=
  inferInstanceAs (Decidable (∀ e ∈ q.events, _))

/-- The one event of a kind is the one pointed to; there is none if nothing is pointed to. -/
def Tracks [DecidableEq K] (q : EventQueue T K) (kind : K) (pointer : Option ℕ) : Prop :=
  q.pending kind = pointer.toList

/-- The events of some numbers are changed. -/
def modify (q : EventQueue T K) (ids : List ℕ) (f : K → K) : EventQueue T K :=
  ⟨q.events.map fun e => if e.id ∈ ids then { e with kind := f e.kind } else e, q.count⟩

/-- Every number in the queue was given out. -/
def Fresh (q : EventQueue T K) : Prop := ∀ e ∈ q.events, e.id < q.count

/-- No two events have one number. -/
def Distinct (q : EventQueue T K) : Prop := (q.events.map (·.id)).Nodup

lemma take?_eq_some {q q' : EventQueue T K} {id : ℕ} {e : QueuedEvent T K}
    (h : q.take? id = some (e, q')) : e.id = id ∧
      ∃ l r, q.events = l ++ e :: r ∧ q' = ⟨l ++ r, q.count⟩ := by
  obtain ⟨e', he, h⟩ := Option.map_eq_some_iff.mp h
  obtain ⟨rfl, rfl⟩ := Prod.mk.inj h
  obtain ⟨hid, l, r, hq, hl⟩ := List.find?_eq_some_iff_append.mp he
  have hid : e'.id = id := of_decide_eq_true hid
  refine ⟨hid, l, r, hq, ?_⟩
  rw [hq, List.eraseP_append_right _ fun b hb => by simpa using hl b hb,
    List.eraseP_cons_of_pos (by simpa using hid)]

lemma take?_count {q q' : EventQueue T K} {id : ℕ} {e : QueuedEvent T K}
    (h : q.take? id = some (e, q')) : q'.count = q.count := by
  obtain ⟨-, l, r, -, rfl⟩ := take?_eq_some h
  rfl

lemma taken_mem {q q' : EventQueue T K} {id : ℕ} {e : QueuedEvent T K}
    (h : q.take? id = some (e, q')) : e ∈ q.events := by
  obtain ⟨-, l, r, hevents, -⟩ := take?_eq_some h
  simp [hevents]

lemma mem_of_take? {q q' : EventQueue T K} {id : ℕ} {e e' : QueuedEvent T K}
    (h : q.take? id = some (e, q')) (he' : e' ∈ q'.events) : e' ∈ q.events := by
  obtain ⟨-, l, r, hevents, rfl⟩ := take?_eq_some h
  rw [hevents]
  rcases List.mem_append.mp he' with he' | he'
  · exact List.mem_append_left _ he'
  · exact List.mem_append_right _ (List.mem_cons_of_mem _ he')

@[simp] lemma fresh_empty : (empty : EventQueue T K).Fresh := by simp [Fresh, empty]

lemma Fresh.add {q : EventQueue T K} (h : q.Fresh) (time : T) (kind : K) :
    (q.add time kind).Fresh := by
  intro e he
  rcases List.mem_append.mp he with he | he
  · exact Nat.lt_succ_of_lt (h e he)
  · obtain rfl := List.mem_singleton.mp he
    exact Nat.lt_succ_self _

lemma Fresh.take? {q q' : EventQueue T K} {id : ℕ} {e : QueuedEvent T K} (h : q.Fresh)
    (hq : q.take? id = some (e, q')) : id < q.count ∧ q'.Fresh := by
  obtain ⟨rfl, l, r, hevents, -⟩ := take?_eq_some hq
  refine ⟨h e (by simp [hevents]), fun e' he' => ?_⟩
  rw [take?_count hq]
  exact h e' (mem_of_take? hq he')

lemma mem_add {q : EventQueue T K} {time : T} {kind : K} {e : QueuedEvent T K} :
    e ∈ (q.add time kind).events ↔ e ∈ q.events ∨ e = ⟨q.count, time, kind⟩ := by
  simp [EventQueue.add]

lemma mem_take?_of_ne {q q' : EventQueue T K} {id : ℕ} {e e' : QueuedEvent T K}
    (h : q.take? id = some (e, q')) (he' : e' ∈ q.events) (hne : e' ≠ e) : e' ∈ q'.events := by
  obtain ⟨-, l, r, hevents, rfl⟩ := take?_eq_some h
  rw [hevents] at he'
  simpa [hne] using he'

@[simp] lemma distinct_empty : (empty : EventQueue T K).Distinct := List.nodup_nil

lemma Distinct.add {q : EventQueue T K} (h : q.Distinct) (hfresh : q.Fresh) (time : T) (kind : K) :
    (q.add time kind).Distinct := by
  have hnew : ∀ e ∈ q.events, e.id ≠ q.count := fun e he => Nat.ne_of_lt (hfresh e he)
  unfold Distinct EventQueue.add
  simpa [List.nodup_append, show (q.events.map (·.id)).Nodup from h] using hnew

lemma Distinct.take? {q q' : EventQueue T K} {id : ℕ} {e : QueuedEvent T K} (h : q.Distinct)
    (hq : q.take? id = some (e, q')) : q'.Distinct := by
  obtain ⟨-, l, r, hevents, rfl⟩ := take?_eq_some hq
  unfold Distinct at h ⊢
  rw [hevents] at h
  exact h.sublist ((List.sublist_cons_self e r).append_left l |>.map _)

lemma Distinct.take?_eq {q : EventQueue T K} (h : q.Distinct) {e : QueuedEvent T K}
    (he : e ∈ q.events) : ∃ q', q.take? e.id = some (e, q') := by
  obtain ⟨e', he'⟩ : ∃ e', q.events.find? (·.id = e.id) = some e' :=
    Option.isSome_iff_exists.1 (List.find?_isSome.2 ⟨e, he, by simp⟩)
  have hid : e'.id = e.id := by simpa using List.find?_some he'
  obtain rfl : e' = e := List.inj_on_of_nodup_map h (List.mem_of_find?_eq_some he') he hid
  exact ⟨_, by rw [EventQueue.take?, he', Option.map_some]⟩

lemma exists_earliest [LinearOrder T] {q : EventQueue T K} (h : q.events ≠ []) :
    ∃ e ∈ q.events, q.NoneBefore e.time := by
  obtain ⟨e, he⟩ : ∃ e, q.events.argmin (·.time) = some e :=
    Option.ne_none_iff_exists'.1 (mt List.argmin_eq_none.1 h)
  exact ⟨e, List.argmin_mem he, fun e' he' => List.le_of_mem_argmin he' he⟩

lemma modify_ids (q : EventQueue T K) (ids : List ℕ) (f : K → K) :
    (q.modify ids f).events.map (·.id) = q.events.map (·.id) := by
  simp only [modify, List.map_map]
  refine List.map_congr_left fun e _ => ?_
  simp only [Function.comp_apply]
  split_ifs <;> rfl

lemma Distinct.modify {q : EventQueue T K} (h : q.Distinct) (ids : List ℕ) (f : K → K) :
    (q.modify ids f).Distinct := by
  unfold Distinct
  rw [modify_ids]
  exact h

lemma Fresh.modify {q : EventQueue T K} (h : q.Fresh) (ids : List ℕ) (f : K → K) :
    (q.modify ids f).Fresh := by
  intro e he
  have hid : e.id ∈ q.events.map (·.id) := modify_ids q ids f ▸ List.mem_map_of_mem he
  obtain ⟨e', he', heq⟩ := List.mem_map.mp hid
  exact heq ▸ h e' he'

variable [DecidableEq K]

@[simp] lemma ofKind_add (q : EventQueue T K) (time : T) (kind : K) :
    (q.add time kind).ofKind kind = q.ofKind kind ++ [⟨q.count, time, kind⟩] := by
  simp [ofKind, add]

@[simp] lemma ofKind_add_ne (q : EventQueue T K) (time : T) {kind kind' : K} (h : kind ≠ kind') :
    (q.add time kind).ofKind kind' = q.ofKind kind' := by
  simp [ofKind, add, h]

lemma ofKind_take?_ne {q q' : EventQueue T K} {id : ℕ} {e : QueuedEvent T K} {kind : K}
    (hq : q.take? id = some (e, q')) (h : e.kind ≠ kind) : q'.ofKind kind = q.ofKind kind := by
  obtain ⟨-, l, r, hevents, rfl⟩ := take?_eq_some hq
  simp [ofKind, hevents, h]

lemma ofKind_take?_self {q q' : EventQueue T K} {id : ℕ} {e : QueuedEvent T K}
    (hq : q.take? id = some (e, q')) :
    ∃ l r, q.ofKind e.kind = l ++ e :: r ∧ q'.ofKind e.kind = l ++ r := by
  obtain ⟨-, l, r, hevents, rfl⟩ := take?_eq_some hq
  exact ⟨l.filter (·.kind = e.kind), r.filter (·.kind = e.kind), by simp [ofKind, hevents],
    by simp [ofKind]⟩

lemma ofKind_take?_sublist {q q' : EventQueue T K} {id : ℕ} {e : QueuedEvent T K}
    (hq : q.take? id = some (e, q')) (kind : K) : (q'.ofKind kind).Sublist (q.ofKind kind) := by
  obtain ⟨-, l, r, hevents, rfl⟩ := take?_eq_some hq
  unfold ofKind
  rw [hevents]
  exact ((List.sublist_cons_self e r).append_left l).filter _

lemma ofKind_take? {q q' : EventQueue T K} {id : ℕ} {e : QueuedEvent T K}
    (hq : q.take? id = some (e, q')) (h : (q.ofKind e.kind).length ≤ 1) :
    q.ofKind e.kind = [e] ∧ q'.ofKind e.kind = [] := by
  obtain ⟨-, l, r, hevents, rfl⟩ := take?_eq_some hq
  simp only [ofKind, hevents, List.filter_append, decide_true, List.filter_cons_of_pos,
    List.length_append, List.length_cons] at h ⊢
  have hl : l.filter (·.kind = e.kind) = [] := List.eq_nil_of_length_eq_zero (by omega)
  have hr : r.filter (·.kind = e.kind) = [] := List.eq_nil_of_length_eq_zero (by omega)
  rw [hl, hr]
  exact ⟨rfl, rfl⟩

namespace Tracks

variable {q q' : EventQueue T K} {kind kind' : K} {pointer : Option ℕ} {id : ℕ}
  {e : QueuedEvent T K}

lemma empty : (empty : EventQueue T K).Tracks kind none := rfl

lemma none_iff : q.Tracks kind none ↔ q.ofKind kind = [] := List.map_eq_nil_iff

lemma congr (h : q.Tracks kind pointer) (heq : q'.ofKind kind = q.ofKind kind) :
    q'.Tracks kind pointer := by
  unfold Tracks pending
  rw [heq]
  exact h

lemma add (h : q.Tracks kind none) (time : T) : (q.add time kind).Tracks kind (some q.count) := by
  unfold Tracks pending
  rw [ofKind_add, none_iff.mp h]
  rfl

lemma add_ne (h : q.Tracks kind pointer) (time : T) (hne : kind' ≠ kind) :
    (q.add time kind').Tracks kind pointer :=
  h.congr (ofKind_add_ne q time hne)

lemma take?_ne (h : q.Tracks kind pointer) (hq : q.take? id = some (e, q')) (hne : e.kind ≠ kind) :
    q'.Tracks kind pointer :=
  h.congr (ofKind_take?_ne hq hne)

lemma length_le (h : q.Tracks kind pointer) : (q.ofKind kind).length ≤ 1 := by
  rw [← List.length_map (·.id), show (q.ofKind kind).map (·.id) = _ from h]
  exact Option.length_toList_le

lemma length_eq_one_iff (h : q.Tracks kind pointer) :
    (q.ofKind kind).length = 1 ↔ pointer.isSome := by
  rw [← List.length_map (·.id), show (q.ofKind kind).map (·.id) = _ from h,
    Option.length_toList_eq_one_iff]

lemma take? (h : q.Tracks kind pointer) (hq : q.take? id = some (e, q')) (he : e.kind = kind) :
    q.ofKind kind = [e] ∧ q'.ofKind kind = [] :=
  he ▸ ofKind_take? hq (he ▸ h.length_le)

end Tracks

end EventQueue

end DcSim
