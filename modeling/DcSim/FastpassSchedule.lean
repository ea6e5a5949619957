import DcSim.EventOrder

/-!
The schedules of Fastpass, at the hosts.

A host makes each slot of a schedule that a flow was given into an event, at which the flow sends a
packet. A schedule that comes too late is to start now; but the test is the wrong way round, so
one that is still to come starts now, and one that comes too late starts in the past. The loop of
`run_scenario` sets the clock to the time of whatever event it takes, and the clock goes back.
-/

namespace DcSim

open HeapQueue Runs

structure FastpassEpochSpec where
  fastpassEpochTime : Time
  fastpassEpochPkts : ℕ

structure FastpassEpochSchedule where
  startTime : Time
  schedule : List (Option ℕ)

namespace FastpassHost

variable (σ : FastpassEpochSpec)

/-- When a slot begins, of a schedule that starts at a time. -/
def slotTime (startTime : Time) (i : ℕ) : Time :=
  startTime + i * σ.fastpassEpochTime / σ.fastpassEpochPkts

/-- The `schedule_send_pkt` calls for a schedule that starts at a time: when, and by which flow. -/
def slots (startTime : Time) (schedule : List (Option ℕ)) : List (Time × ℕ) :=
  (List.range σ.fastpassEpochPkts).filterMap fun i =>
    (schedule.getD i none).map fun flow => (slotTime σ startTime i, flow)

def receiveSchedulePkt (now : Time) (pkt : FastpassEpochSchedule) : List (Time × ℕ) :=
  let startTime := if now ≤ pkt.startTime then now else pkt.startTime
  slots σ startTime pkt.schedule

/-- No slot is used before now, and those of a schedule that is to start later are used when they
begin. -/
def RespectsTime (now : Time) (pkt : FastpassEpochSchedule) : Prop :=
  (∀ e ∈ receiveSchedulePkt σ now pkt, now ≤ e.1) ∧
    (now < pkt.startTime →
      receiveSchedulePkt σ now pkt = slots σ pkt.startTime pkt.schedule)

/-- The schedule has started, if it gives any flow a slot, and none of these slots has begun
before now. -/
def InTime (now : Time) (pkt : FastpassEpochSchedule) : Prop :=
  ∀ i < σ.fastpassEpochPkts, (pkt.schedule.getD i none).isSome →
    pkt.startTime ≤ now ∧ now ≤ slotTime σ pkt.startTime i

instance (now : Time) (pkt : FastpassEpochSchedule) : Decidable (InTime σ now pkt) :=
  inferInstanceAs (Decidable (∀ i < _, _))

variable {σ} {now : Time} {pkt : FastpassEpochSchedule}

lemma mem_slots {startTime : Time} {schedule : List (Option ℕ)} {e : Time × ℕ} :
    e ∈ slots σ startTime schedule ↔ ∃ i < σ.fastpassEpochPkts,
      schedule.getD i none = some e.2 ∧ slotTime σ startTime i = e.1 := by
  simp only [slots, List.mem_filterMap, List.mem_range, Option.map_eq_some_iff]
  refine exists_congr fun i => and_congr_right fun _ => ⟨?_, fun ⟨hi, ht⟩ => ⟨e.2, hi, by rw [ht]⟩⟩
  rintro ⟨flow, hi, rfl⟩
  exact ⟨hi, rfl⟩

lemma slots_inj {s t : Time} {schedule : List (Option ℕ)}
    (h : slots σ s schedule = slots σ t schedule) {i : ℕ} (hi : i < σ.fastpassEpochPkts)
    (hsome : (schedule.getD i none).isSome) : s = t := by
  unfold slots at h
  have hmem := List.mem_range.2 hi
  generalize List.range σ.fastpassEpochPkts = l at h hmem
  induction l with
  | nil => cases hmem
  | cons j l ih =>
    cases hj : schedule.getD j none with
    | none =>
      have hne : i ≠ j := fun he => by rw [he, hj] at hsome; cases hsome
      simp only [List.filterMap_cons, hj, Option.map_none] at h
      exact ih h ((List.mem_cons.1 hmem).resolve_left hne)
    | some flow =>
      simp only [List.filterMap_cons, hj, Option.map_some] at h
      exact add_right_cancel (Prod.mk.inj (List.cons.inj h).1).1

lemma RespectsTime.inTime (h : RespectsTime σ now pkt) : InTime σ now pkt := by
  intro i hi hsome
  obtain ⟨flow, hflow⟩ := Option.isSome_iff_exists.1 hsome
  have hstarted : pkt.startTime ≤ now := by
    by_contra hlt
    have hslots := h.2 (not_le.1 hlt)
    unfold receiveSchedulePkt at hslots
    dsimp only at hslots
    rw [if_pos (not_le.1 hlt).le] at hslots
    exact (not_le.1 hlt).ne (slots_inj hslots hi hsome)
  have hmem : (slotTime σ pkt.startTime i, flow) ∈ receiveSchedulePkt σ now pkt := by
    refine mem_slots.2 ⟨i, hi, hflow, ?_⟩
    split_ifs with hle
    · rw [le_antisymm hle hstarted]
    · rfl
  exact ⟨hstarted, h.1 _ hmem⟩

lemma InTime.respectsTime (h : InTime σ now pkt) : RespectsTime σ now pkt := by
  have hgiven : ∀ {s e}, e ∈ slots σ s pkt.schedule → ∃ i, pkt.startTime ≤ now ∧
      now ≤ slotTime σ pkt.startTime i ∧ slotTime σ s i = e.1 := fun he => by
    obtain ⟨i, hi, hflow, ht⟩ := mem_slots.1 he
    obtain ⟨hstarted, hle⟩ := h i hi (hflow ▸ rfl)
    exact ⟨i, hstarted, hle, ht⟩
  refine ⟨fun e he => ?_, fun hlt => ?_⟩
  · obtain ⟨i, hstarted, hle, ht⟩ := hgiven he
    rw [← ht]
    split_ifs with hnow
    · rwa [← le_antisymm hstarted hnow] at hle ⊢
    · exact hle
  · -- no slot is used, now or at the start
    have hnone : ∀ s, slots σ s pkt.schedule = [] := fun s => by
      refine List.eq_nil_iff_forall_not_mem.2 fun e he => ?_
      obtain ⟨i, hstarted, -⟩ := hgiven he
      exact absurd hstarted (not_le.2 hlt)
    exact (hnone _).trans (hnone _).symm

theorem respectsTime_iff : RespectsTime σ now pkt ↔ InTime σ now pkt :=
  ⟨fun h => h.inTime, fun h => h.respectsTime⟩

end FastpassHost

/-! ### The loop of `run_scenario` -/

structure EventLoop where
  -- `current_time`, `Event::instance_count` and `event_queue`.
  currentTime : Time
  instanceCount : ℕ
  eventQueue : Array Event

/-- What happens: another component adds an event, the loop takes one, or a schedule is
received. -/
inductive LoopAct
  | add (time : Time) (type : ℕ)
  | take
  | receiveSchedulePkt (pkt : FastpassEpochSchedule)

namespace EventLoop

variable (σ : FastpassEpochSpec)

def newEvents (instanceCount : ℕ) (es : List (Time × ℕ)) : List Event :=
  es.mapIdx fun k e => ⟨instanceCount + k, e.1, e.2⟩

/-- `add_to_event_queue` of new events, one after the other. -/
def addToEventQueue (L : EventLoop) (es : List (Time × ℕ)) : EventLoop :=
  { L with
    instanceCount := L.instanceCount + es.length
    eventQueue := (newEvents L.instanceCount es).foldl (push Event.eventComparator) L.eventQueue }

def fastpassFlowProcessing : ℕ := 15

/-- The times and types of the events an act adds. -/
def added (now : Time) : LoopAct → List (Time × ℕ)
  | .add time type => [(time, type)]
  | .take => []
  | .receiveSchedulePkt pkt =>
    (FastpassHost.receiveSchedulePkt σ now pkt).map fun e => (e.1, fastpassFlowProcessing)

/-- The other components add no event in the past. -/
def next (L : EventLoop) : LoopAct → Option EventLoop
  | .add time type =>
    if L.currentTime ≤ time then some (L.addToEventQueue (added σ L.currentTime (.add time type)))
    else none
  | .take => (pop Event.eventComparator L.eventQueue).map fun r =>
      { L with currentTime := r.1.time, eventQueue := r.2 }
  | .receiveSchedulePkt pkt =>
    some (L.addToEventQueue (added σ L.currentTime (.receiveSchedulePkt pkt)))

def machine : Machine EventLoop LoopAct := ⟨⟨0, 0, #[]⟩, next σ⟩

/-- The clock does not go back when the next event is taken. -/
def Forward (L : EventLoop) : Prop :=
  ∀ L', L.next σ .take = some L' → L.currentTime ≤ L'.currentTime

/-- The events that are pending once an act has added its own. -/
def pending (L : EventLoop) (a : LoopAct) : List Event :=
  L.eventQueue.toList ++ newEvents L.instanceCount (added σ L.currentTime a)

/-- If the act is a schedule, it is received in time. -/
def InTime (now : Time) : LoopAct → Prop
  | .receiveSchedulePkt pkt => FastpassHost.InTime σ now pkt
  | _ => True

/-- A schedule is received in time, and `EventComparator` puts each event that is pending after
all earlier ones. -/
def Timely (L : EventLoop) (a : LoopAct) : Prop :=
  InTime σ L.currentTime a ∧ ∀ e ∈ pending σ L a, ∀ f ∈ pending σ L a,
    e.time < f.time → Event.eventComparator f e = true

instance (now : Time) (a : LoopAct) : Decidable (InTime σ now a) := by
  cases a <;> unfold InTime <;> infer_instance

instance (L : EventLoop) (a : LoopAct) : Decidable (Timely σ L a) :=
  inferInstanceAs (Decidable (_ ∧ _))

structure Kept (L : EventLoop) : Prop where
  heap : IsHeap Event.eventComparator L.eventQueue
  later : ∀ e ∈ L.eventQueue, L.currentTime ≤ e.time

variable {σ} {L L' : EventLoop} {a : LoopAct}

lemma exists_of_mem_newEvents {n : ℕ} {es : List (Time × ℕ)} {e : Event}
    (he : e ∈ newEvents n es) : ∃ x ∈ es, e.time = x.1 := by
  obtain ⟨i, hi, rfl⟩ := List.mem_mapIdx.1 he
  exact ⟨es[i], List.getElem_mem hi, rfl⟩

lemma Timely.strictWeakOn (h : Timely σ L a) :
    StrictWeakOn Event.eventComparator {e | e ∈ pending σ L a} := by
  refine Event.strictWeakOn_of_not_straddles fun e he f hf g hg => ?_
  rintro ⟨hnef, hnfg, hfar, htfg, htef⟩
  have hpos := Event.tolerance_pos
  -- one of the three is later than the one before it, but not put after it
  rcases lt_or_ge e.time f.time with hlt | hle
  · have hafter := h.2 e he f hf hlt
    rw [Event.eventComparator_eq_false.2 ⟨fun _ => htef, (Event.near_iff.1 hnef).2⟩] at hafter
    cases hafter
  · have hafter := h.2 f hf g hg (by linarith)
    rw [Event.eventComparator_eq_false.2 ⟨fun _ => htfg, (Event.near_iff.1 hnfg).2⟩] at hafter
    cases hafter

lemma mem_pending_of_mem {e : Event} (he : e ∈ L.eventQueue) : e ∈ pending σ L a :=
  List.mem_append_left _ (Array.mem_toList_iff.2 he)

lemma Kept.addToEventQueue (hL : Kept L) (h : Timely σ L a)
    (hadded : ∀ x ∈ added σ L.currentTime a, L.currentTime ≤ x.1) :
    Kept (L.addToEventQueue (added σ L.currentTime a)) := by
  refine ⟨isHeap_foldl_push h.strictWeakOn (fun e he => mem_pending_of_mem he)
    (fun e he => List.mem_append_right _ he) hL.heap, fun e he => ?_⟩
  have hperm := foldl_push_perm Event.eventComparator L.eventQueue
    (newEvents L.instanceCount (added σ L.currentTime a))
  rcases List.mem_append.1 (hperm.mem_iff.1 (Array.mem_toList_iff.2 he)) with he | he
  · exact hL.later e (Array.mem_toList_iff.1 he)
  · obtain ⟨x, hx, ht⟩ := exists_of_mem_newEvents he
    exact ht ▸ hadded x hx

lemma Kept.next (hL : Kept L) (h : Timely σ L a) (hn : L.next σ a = some L') : Kept L' := by
  cases a with
  | add time type =>
    obtain ⟨hle, hn⟩ := Option.ite_none_right_eq_some.1 hn
    obtain rfl := Option.some.inj hn
    refine hL.addToEventQueue h fun x hx => ?_
    obtain rfl := List.mem_singleton.1 hx
    exact hle
  | take =>
    obtain ⟨⟨e, rest⟩, hpop, rfl⟩ := Option.map_eq_some_iff.1 hn
    obtain ⟨hperm, hheap, hfirst⟩ :=
      pop_spec h.strictWeakOn (fun e he => mem_pending_of_mem he) hL.heap hpop
    have hmem : ∀ f ∈ e :: rest.toList, f ∈ L.eventQueue := fun f hf =>
      Array.mem_toList_iff.1 (hperm.mem_iff.2 hf)
    refine ⟨hheap, fun f hf => not_lt.1 fun hlt => ?_⟩
    have hin := hmem f (List.mem_cons_of_mem e (Array.mem_toList_iff.2 hf))
    have hafter := h.2 f (mem_pending_of_mem hin) e
      (mem_pending_of_mem (hmem e List.mem_cons_self)) hlt
    exact Bool.false_ne_true ((hfirst f hf).symm.trans hafter)
  | receiveSchedulePkt pkt =>
    obtain rfl := Option.some.inj hn
    refine hL.addToEventQueue h fun x hx => ?_
    obtain ⟨e, he, rfl⟩ := List.mem_map.1 hx
    exact (FastpassHost.InTime.respectsTime h.1).1 e he

lemma Kept.forward (hL : Kept L) : Forward σ L := by
  intro L' hn
  obtain ⟨⟨e, rest⟩, hpop, rfl⟩ := Option.map_eq_some_iff.1 hn
  exact hL.later e (Array.mem_toList_iff.1 ((pop_perm hpop).mem_iff.2 List.mem_cons_self))

/-- **The schedules of Fastpass respect time** exactly when they are received before their first
slot but no sooner than they start; and as long as they are, the clock does not go back. -/
theorem respectsTime_and_forward (σ : FastpassEpochSpec) :
    (∀ now pkt, FastpassHost.RespectsTime σ now pkt ↔ FastpassHost.InTime σ now pkt) ∧
      ∀ as, Along (machine σ) (Timely σ) (machine σ).init as →
        Always (machine σ) (Forward σ) (machine σ).init as := by
  refine ⟨fun now pkt => FastpassHost.respectsTime_iff, fun as h => ?_⟩
  have hinit : Kept (machine σ).init := ⟨isHeap_empty, nofun⟩
  exact (h.always (fun hL hC hn => hL.next hC hn) hinit).mono fun _ hL => hL.forward

def twoSlots : FastpassEpochSpec := ⟨2, 2⟩

/-- A schedule that starts at a time and gives a flow the first slot. -/
def firstSlot (startTime : Time) : FastpassEpochSchedule := ⟨startTime, [some 0, none]⟩

/-- A schedule that is received as it starts is used at once. -/
theorem forward_at_start :
    Always (machine twoSlots) (Forward twoSlots) (machine twoSlots).init
      [.add 2 2, .take, .receiveSchedulePkt (firstSlot 2), .take] :=
  (respectsTime_and_forward twoSlots).2 _ (by decide +kernel)

/-- The schedule for time 1 is received at time 2, together with one for time 3: both are used at
the wrong time, and the first sets the clock back. -/
theorem not_respectsTime :
    ¬ FastpassHost.RespectsTime twoSlots 2 (firstSlot 1) ∧
      ¬ FastpassHost.RespectsTime twoSlots 2 (firstSlot 3) ∧
        ¬ Always (machine twoSlots) (Forward twoSlots) (machine twoSlots).init
          [.add 2 2, .take, .receiveSchedulePkt (firstSlot 1)] := by
  refine ⟨fun h => ?_, fun h => ?_, ?_⟩
  · exact absurd (h.1 _ (List.mem_singleton.2 rfl)) (by decide +kernel)
  · exact absurd (h.2 (by decide +kernel)) (by decide +kernel)
  · intro h
    have hrun : ((exec (machine twoSlots) (machine twoSlots).init
        [.add 2 2, .take, .receiveSchedulePkt (firstSlot 1)]).any fun L =>
          (L.next twoSlots .take).any fun L' => L'.currentTime < L.currentTime) = true := by
      decide +kernel
    obtain ⟨L, hL, hany⟩ := (Option.any_eq_true _ _).1 hrun
    obtain ⟨L', hL', hlt⟩ := (Option.any_eq_true _ _).1 hany
    exact absurd (of_decide_eq_true hlt) (not_lt.2 (h.last hL L' hL'))

end EventLoop

end DcSim
