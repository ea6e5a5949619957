import DcSim.PreemptiveQueue
import Mathlib.Tactic.Linarith

/-!
What becomes of the packets of a preemptive queue.

A packet that came waits, is dropped, has been handed on or will be by one pending event. When a
transmission is given up, its packet goes back to the queue and the event that would hand it on is
cancelled with the others. That event can be over when the packet is handed on before it is
through: then the packet is in two places. Without cut-through it comes after the end of the
transmission, and the packet is in one.
-/

namespace DcSim.PreemptiveQueue

open Runs

variable {K : PreemptiveSpec} {s t : PreemptiveQueue} {p q : Packet} {a : LinkAct}

/-! ### Where the packets are -/

@[simp] lemma handing_queueProcessing :
    (⟨.queueProcessing, false⟩ : LinkEvent).handing = none := rfl

lemma handing_handingAction (p : Packet) :
    (⟨K.handingAction p, false⟩ : LinkEvent).handing = some p := by
  unfold PreemptiveSpec.handingAction
  split_ifs <;> rfl

lemma places_begin (p : Packet) : (s.begin p).places = s.places := by
  simp [places, downstream, begin, addEvent, EventQueue.add]

lemma places_enque (hsim : s.queue.simPackets = []) (lost : Bool) :
    (s.enque K p lost).places.Perm (p :: s.places) := by
  have hsim' := (PacketQueue.enque_sublist (Q := s.queue) (p := p) K.not_sns lost).2
  have hstored := (PacketQueue.takes_enque (K := K.toQueueSpec) (Q := s.queue) (p := p) lost).stored
  simp only [PacketQueue.stored, PacketQueue.held, hsim', hsim, List.append_nil] at hstored
  exact (hstored.append_right _).append_right _

lemma places_take {id : ℕ} {e : QueuedEvent Time LinkEvent} {events : EventQueue Time LinkEvent}
    (hq : s.events.take? id = some (e, events)) (now : Time) :
    s.places.Perm (e.kind.handing.toList ++ { s with now := now, events := events }.places) := by
  obtain ⟨-, l, r, hevents, rfl⟩ := EventQueue.take?_eq_some hq
  simp only [places, downstream, hevents, List.filterMap_append]
  cases he : e.kind.handing with
  | none => simp [he]
  | some p =>
    simpa [he] using @List.perm_middle _ p (s.queue.packets ++ s.queue.dropped ++
      l.filterMap (·.kind.handing)) (r.filterMap (·.kind.handing) ++ s.handed)

lemma places_transmit {ps : List Packet} (hps : s.queue.packets.Perm (p :: ps)) :
    (transmit K { s with queue := s.queue.depart (p, ps) } p).places.Perm s.places := by
  have hdown : (transmit K { s with queue := s.queue.depart (p, ps) } p).downstream =
      s.downstream ++ [p] := by
    simp [downstream, transmit, addEvent, EventQueue.add, List.filterMap_cons,
      handing_handingAction]
  have hqueue : (transmit K { s with queue := s.queue.depart (p, ps) } p).places =
      ps ++ s.queue.dropped ++ (s.downstream ++ [p]) ++ s.handed := by
    rw [places, hdown]
    rfl
  have hwait : s.places.Perm (p :: ps ++ s.queue.dropped ++ s.downstream ++ s.handed) :=
    ((hps.append_right _).append_right _).append_right _
  rw [hqueue]
  refine List.Perm.trans ?_ hwait.symm
  simpa using @List.perm_middle _ p (ps ++ s.queue.dropped ++ s.downstream) s.handed

lemma places_hand (p : Packet) :
    ({ s with handed := s.handed ++ [p] } : PreemptiveQueue).places.Perm (p :: s.places) := by
  have hplaces : ({ s with handed := s.handed ++ [p] } : PreemptiveQueue).places =
      s.places ++ [p] := by
    simp only [places, List.append_assoc]
    rfl
  rw [hplaces]
  exact List.perm_append_singleton p _

/-! ### The invariant -/

structure Waits (s : PreemptiveQueue) : Prop where
  busyEvents : s.busyEvents = []
  due : ∀ e, s.queueProcEvent = some e → e.2 ≤ s.now

/-- The packet `q` is being transmitted until `τ`, when the event `b` comes. The event `d` hands
it on, or has. -/
structure Transmits (K : PreemptiveSpec) (s : PreemptiveQueue) (b d : ℕ) (τ : Time)
    (q : Packet) : Prop where
  busyEvents : s.busyEvents = [b, d]
  queueProcEvent : s.queueProcEvent = some (b, τ)
  packetTransmitting : s.packetTransmitting = some q
  notWaiting : q ∉ s.queue.packets
  handing : ∀ e ∈ s.events.events, e.id = d →
    e.kind.handing = some q ∧ (K.early q = false → τ ≤ e.time)
  pending : (∃ e ∈ s.events.events, e.id = d) ∨ (K.early q = false → τ ≤ s.now)

structure Sound (K : PreemptiveSpec) (s : PreemptiveQueue) : Prop where
  simPackets : s.queue.simPackets = []
  nodup : s.queue.packets.Nodup
  fresh : s.events.Fresh
  distinct : s.events.Distinct
  busy : s.busy = s.queueProcEvent.isSome
  pointer : ∀ e ∈ s.events.events, s.queueProcEvent.map (·.1) = some e.id →
    e.kind = ⟨.queueProcessing, false⟩
  service : Waits s ∨ ∃ b d τ q, Transmits K s b d τ q

structure Accounted (K : PreemptiveSpec) (s : PreemptiveQueue) : Prop extends Sound K s where
  conserves : s.Conserves

namespace Sound

lemma waits_of_idle (h : Sound K s) (hidle : s.queueProcEvent = none) : Waits s := by
  rcases h.service with hw | ⟨b, d, τ, q, ht⟩
  · exact hw
  · exact nomatch hidle.symm.trans ht.queueProcEvent

lemma history (h : Sound K s) (entered handed : List Packet) :
    Sound K { s with entered := entered, handed := handed } := by
  refine ⟨h.simPackets, h.nodup, h.fresh, h.distinct, h.busy, h.pointer, ?_⟩
  rcases h.service with hw | ⟨b, d, τ, q, ht⟩
  · exact .inl ⟨hw.busyEvents, hw.due⟩
  · exact .inr ⟨b, d, τ, q, { ht with }⟩

lemma later (h : Sound K s) {now : Time} (hnow : s.now ≤ now) : Sound K { s with now := now } := by
  refine ⟨h.simPackets, h.nodup, h.fresh, h.distinct, h.busy, h.pointer, ?_⟩
  rcases h.service with hw | ⟨b, d, τ, q, ht⟩
  · exact .inl ⟨hw.busyEvents, fun e he => (hw.due e he).trans hnow⟩
  · refine .inr ⟨b, d, τ, q, { ht with pending := ?_ }⟩
    exact ht.pending.imp_right fun hpast hearly => (hpast hearly).trans hnow

lemma take (h : Sound K s) {id : ℕ} {e : QueuedEvent Time LinkEvent}
    {events : EventQueue Time LinkEvent} (hq : s.events.take? id = some (e, events))
    (hnow : s.now ≤ e.time) : Sound K { s with now := e.time, events := events } := by
  refine ⟨h.simPackets, h.nodup, (h.fresh.take? hq).2, h.distinct.take? hq, h.busy,
    fun e' he' => h.pointer e' (EventQueue.mem_of_take? hq he'), ?_⟩
  rcases h.service with hw | ⟨b, d, τ, q, ht⟩
  · exact .inl ⟨hw.busyEvents, fun e' he' => (hw.due e' he').trans hnow⟩
  · refine .inr ⟨b, d, τ, q, { ht with handing := ?_, pending := ?_ }⟩
    · exact fun e' he' => ht.handing e' (EventQueue.mem_of_take? hq he')
    · rcases ht.pending with ⟨e', he', hid⟩ | hpast
      · by_cases heq : e' = e
        · exact .inr (ht.handing e (heq ▸ he') (heq ▸ hid)).2
        · exact .inl ⟨e', EventQueue.mem_take?_of_ne hq he' heq, hid⟩
      · exact .inr fun hearly => (hpast hearly).trans hnow

lemma begin (h : Sound K s) (hidle : s.queueProcEvent = none) (p : Packet) :
    Sound K (s.begin p) := by
  refine ⟨h.simPackets, h.nodup, h.fresh.add _ _, h.distinct.add h.fresh _ _, rfl, ?_, .inl ?_⟩
  · intro e he hid
    rcases EventQueue.mem_add.mp he with he | rfl
    · exact absurd (Option.some.inj hid) (Nat.ne_of_gt (h.fresh e he))
    · rfl
  · exact ⟨(h.waits_of_idle hidle).busyEvents, fun e he => by obtain rfl := Option.some.inj he; rfl⟩

lemma enque (h : Sound K s) (hp : p ∉ s.queue.packets)
    (hne : ∀ b d τ q, Transmits K s b d τ q → q ≠ p) (lost : Bool) :
    Sound K (s.enque K p lost) := by
  obtain ⟨hsub, hsim⟩ :=
    PacketQueue.enque_sublist (K := K.toQueueSpec) (Q := s.queue) (p := p) K.not_sns lost
  have hnodup : (s.queue.packets ++ [p]).Nodup := by
    simpa [List.nodup_append, h.nodup] using fun q hq => ne_of_mem_of_not_mem hq hp
  refine ⟨hsim.trans h.simPackets, hnodup.sublist hsub, h.fresh, h.distinct, h.busy, h.pointer, ?_⟩
  rcases h.service with hw | ⟨b, d, τ, q, ht⟩
  · exact .inl ⟨hw.busyEvents, hw.due⟩
  · refine .inr ⟨b, d, τ, q, { ht with notWaiting := fun hq => ?_ }⟩
    rcases List.mem_append.mp (hsub.subset hq) with hq | hq
    · exact ht.notWaiting hq
    · exact hne b d τ q ht (List.mem_singleton.mp hq)

lemma rest (h : Sound K s) : Sound K s.rest :=
  ⟨h.simPackets, h.nodup, h.fresh, h.distinct, rfl, (fun _ _ hptr => nomatch hptr),
    .inl ⟨rfl, nofun⟩⟩

lemma transmit (h : Sound K s) {ps : List Packet} (hps : s.queue.packets.Perm (p :: ps)) :
    Sound K (transmit K { s with queue := s.queue.depart (p, ps) } p) := by
  obtain ⟨hp, hnodup⟩ := List.nodup_cons.mp (hps.nodup_iff.mp h.nodup)
  have hfresh := h.fresh.add (s.now + K.getTransmissionDelay p.size) ⟨.queueProcessing, false⟩
  refine ⟨h.simPackets, hnodup, hfresh.add _ _, (h.distinct.add h.fresh _ _).add hfresh _ _, rfl,
    ?_, .inr ⟨s.events.count, s.events.count + 1, s.now + K.getTransmissionDelay p.size, p, rfl,
      rfl, rfl, hp, ?_, .inl ⟨_, EventQueue.mem_add.mpr (.inr rfl), rfl⟩⟩⟩
  · intro e he hid
    have hid : s.events.count = e.id := Option.some.inj hid
    rcases EventQueue.mem_add.mp he with he | rfl
    · rcases EventQueue.mem_add.mp he with he | rfl
      · exact absurd hid (Nat.ne_of_gt (h.fresh e he))
      · rfl
    · exact absurd hid (Nat.ne_of_lt (Nat.lt_succ_self _))
  · intro e he hid
    rcases EventQueue.mem_add.mp he with he | rfl
    · exact absurd hid (Nat.ne_of_lt (hfresh e he))
    · refine ⟨handing_handingAction p, fun hearly => ?_⟩
      have hpd := K.propagationDelay_nonneg
      simp only [PreemptiveSpec.handingDelay, hearly, Bool.false_eq_true, if_false]
      linarith

end Sound

/-! ### A transmission is given up -/

lemma Sound.transmits (h : Sound K s) (hpre : s.preempted K p = some q) :
    s.busy = true ∧ ∃ b d τ, Transmits K s b d τ q ∧ s.now < τ := by
  obtain ⟨-, hpre⟩ := Option.ite_none_right_eq_some.mp hpre
  obtain ⟨hq, hcond⟩ := Option.filter_eq_some_iff.mp hpre
  obtain ⟨-, hleft⟩ := of_decide_eq_true hcond
  have hleft : 1 / 100 < s.remainingPercentage K q := hleft
  have htd : 0 ≤ K.getTransmissionDelay q.size :=
    div_nonneg (mul_nonneg (Nat.cast_nonneg _) (by norm_num)) K.rate_pos.le
  have hlate : ∀ e, s.queueProcEvent = some e → s.now < e.2 := by
    intro e he
    by_contra hle
    have hnonpos : (e.2 - s.now) / K.getTransmissionDelay q.size ≤ 0 :=
      div_nonpos_of_nonpos_of_nonneg (sub_nonpos.mpr (not_lt.mp hle)) htd
    rw [remainingPercentage, he] at hleft
    exact absurd (hleft.trans_le hnonpos) (by norm_num)
  rcases h.service with hw | ⟨b, d, τ, q', ht⟩
  · cases hptr : s.queueProcEvent with
    | none =>
      rw [remainingPercentage, hptr] at hleft
      exact absurd hleft (by norm_num)
    | some e => exact absurd (hlate e hptr) (not_lt.mpr (hw.due e hptr))
  · obtain rfl := Option.some.inj (ht.packetTransmitting.symm.trans hq)
    refine ⟨?_, b, d, τ, ht, hlate _ ht.queueProcEvent⟩
    rw [h.busy, ht.queueProcEvent]
    rfl

section Preempt

variable {b d : ℕ} {τ : Time}

/-- What an event hands on when those of some numbers are cancelled. -/
def handingUnless (ids : List ℕ) (e : QueuedEvent Time LinkEvent) : Option Packet :=
  if e.id ∈ ids then none else e.kind.handing

lemma Transmits.downstream_eq (ht : Transmits K s b d τ q) :
    s.cancelBusyEvents.downstream = s.events.events.filterMap (handingUnless [b, b, d]) := by
  have hids : (s.queueProcEvent.map (·.1)).toList ++ s.busyEvents = [b, b, d] := by
    rw [ht.queueProcEvent, ht.busyEvents]
    rfl
  simp only [downstream, cancelBusyEvents, EventQueue.modify, hids, List.filterMap_map]
  refine List.filterMap_congr fun e _ => ?_
  simp only [Function.comp_apply, handingUnless]
  split_ifs <;> rfl

lemma Transmits.handingUnless_eq (h : Sound K s) (ht : Transmits K s b d τ q)
    {e : QueuedEvent Time LinkEvent} (he : e ∈ s.events.events) (hne : e.id ≠ d) :
    handingUnless [b, b, d] e = e.kind.handing := by
  unfold handingUnless
  split_ifs with hid
  · have hb : e.id = b := by simpa [hne] using hid
    rw [h.pointer e he (by rw [ht.queueProcEvent, hb]; rfl)]
    rfl
  · rfl

/-- **The packet that is given up** will not be handed on, if it has not been. -/
lemma Transmits.downstream_cancel (h : Sound K s) (ht : Transmits K s b d τ q) :
    ((∃ e ∈ s.events.events, e.id = d) →
      s.downstream.Perm (q :: s.cancelBusyEvents.downstream)) ∧
    (¬ (∃ e ∈ s.events.events, e.id = d) → s.cancelBusyEvents.downstream = s.downstream) := by
  rw [ht.downstream_eq]
  refine ⟨?_, fun hnone => ?_⟩
  · rintro ⟨e, he, hid⟩
    obtain ⟨l, r, hevents⟩ := List.append_of_mem he
    have hids : (l.map (·.id) ++ e.id :: r.map (·.id)).Nodup := by
      simpa [EventQueue.Distinct, hevents] using h.distinct
    -- the other events have other numbers
    have hsame : ∀ e' ∈ l ++ r, handingUnless [b, b, d] e' = e'.kind.handing := by
      intro e' he'
      have hmem : e' ∈ s.events.events := by
        rw [hevents]
        exact List.perm_middle.mem_iff.mpr (List.mem_cons_of_mem _ he')
      refine ht.handingUnless_eq h hmem fun heq => ?_
      have hnot := (List.nodup_cons.mp (List.perm_middle.nodup_iff.mp hids)).1
      rw [← List.map_append, hid, ← heq] at hnot
      exact hnot (List.mem_map_of_mem he')
    have hl := List.filterMap_congr fun e' he' => hsame e' (List.mem_append_left r he')
    have hr := List.filterMap_congr fun e' he' => hsame e' (List.mem_append_right l he')
    have hnone : handingUnless [b, b, d] e = none := if_pos (by simp [hid])
    have hsome := (ht.handing e he hid).1
    simp only [downstream, hevents, List.filterMap_append, List.filterMap_cons, hl, hr, hnone,
      hsome]
    exact List.perm_middle
  · exact List.filterMap_congr fun e he => ht.handingUnless_eq h he fun hid => hnone ⟨e, he, hid⟩

lemma Transmits.preempt_eq (ht : Transmits K s b d τ q) (lost : Bool) :
    s.preemptCurrentTransmission K q lost =
      { s.cancelBusyEvents.enque K q lost with
        packetTransmitting := none
        queueProcEvent := none
        busy := false } := by
  have hout : s.cancelBusyEvents.withdraw q = s.cancelBusyEvents := if_neg ht.notWaiting
  rw [preemptCurrentTransmission, hout]

lemma Transmits.sound_preempt (h : Sound K s) (ht : Transmits K s b d τ q) (lost : Bool) :
    Sound K (s.preemptCurrentTransmission K q lost) := by
  have hstop : Sound K { s.cancelBusyEvents with
      packetTransmitting := none
      queueProcEvent := none
      busy := false } :=
    ⟨h.simPackets, h.nodup, h.fresh.modify _ _, h.distinct.modify _ _, rfl,
      (fun _ _ hptr => nomatch hptr), .inl ⟨rfl, nofun⟩⟩
  rw [ht.preempt_eq]
  exact hstop.enque ht.notWaiting (fun b d τ q' ht' => nomatch ht'.queueProcEvent) lost

lemma Transmits.places_preempt (h : Sound K s) (ht : Transmits K s b d τ q) (lost : Bool) :
    ((∃ e ∈ s.events.events, e.id = d) →
      (s.preemptCurrentTransmission K q lost).places.Perm s.places) ∧
    (¬ (∃ e ∈ s.events.events, e.id = d) →
      (s.preemptCurrentTransmission K q lost).places.Perm (q :: s.places)) := by
  have hback : (s.preemptCurrentTransmission K q lost).places.Perm
      (q :: s.cancelBusyEvents.places) := by
    rw [ht.preempt_eq]
    exact places_enque (s := s.cancelBusyEvents) h.simPackets lost
  obtain ⟨hpending, hover⟩ := ht.downstream_cancel h
  refine ⟨fun hd => hback.trans ?_, fun hd => ?_⟩
  · have hplaces : s.places.Perm (s.queue.packets ++ s.queue.dropped ++
        (q :: s.cancelBusyEvents.downstream) ++ s.handed) :=
      ((hpending hd).append_left _).append_right _
    have hcancel : s.cancelBusyEvents.places = s.queue.packets ++ s.queue.dropped ++
        s.cancelBusyEvents.downstream ++ s.handed := rfl
    rw [hcancel]
    refine List.Perm.trans ?_ hplaces.symm
    simpa using (@List.perm_middle _ q (s.queue.packets ++ s.queue.dropped)
      (s.cancelBusyEvents.downstream ++ s.handed)).symm
  · have hplaces : s.cancelBusyEvents.places = s.places := by
      rw [places, hover hd]
      rfl
    exact hplaces ▸ hback

end Preempt

/-! ### The steps -/

lemma Transmits.givesUpInTime_iff {b d : ℕ} {τ : Time} (h : Sound K s)
    (ht : Transmits K s b d τ q) (hpre : s.preempted K p = some q) :
    s.GivesUpInTime K p ↔ ∃ e ∈ s.events.events, e.id = d := by
  constructor
  · intro hC
    obtain ⟨e, he, hid, hsome⟩ := hC (by rw [hpre]; exact nofun)
    rw [ht.busyEvents] at hid
    refine ⟨e, he, (List.mem_pair.mp hid).resolve_left fun hb => hsome ?_⟩
    rw [h.pointer e he (by rw [ht.queueProcEvent, hb]; rfl)]
    rfl
  · rintro ⟨e, he, hid⟩ -
    refine ⟨e, he, ?_, ?_⟩
    · rw [ht.busyEvents, hid]
      simp
    · rw [(ht.handing e he hid).1]
      exact nofun

/-- The queue is ready for `p`, which is neither in it nor under way; the packets are where they
were, but for one that is in two places if it was given up late. -/
structure ReadyFor (K : PreemptiveSpec) (s : PreemptiveQueue) (p : Packet)
    (t : PreemptiveQueue) : Prop extends Sound K t where
  notWaiting : p ∉ t.queue.packets
  notTransmitting : ∀ b d τ q, Transmits K t b d τ q → q ≠ p
  inTime : s.GivesUpInTime K p → t.places.Perm s.places
  late : ¬ s.GivesUpInTime K p → ∃ q, t.places.Perm (q :: s.places)

lemma Sound.makeReady (h : Sound K s) (hp : p ∉ s.queue.packets)
    (hne : s.packetTransmitting ≠ some p) (lost : Bool) :
    ReadyFor K s p (s.makeReady K p lost) := by
  unfold PreemptiveQueue.makeReady
  cases hpre : s.preempted K p with
  | none =>
    have hC : s.GivesUpInTime K p := fun hsome => absurd hpre hsome
    split_ifs with hbusy
    · refine ⟨h, hp, fun b d τ q ht heq => ?_, fun _ => .refl _, fun hlate => absurd hC hlate⟩
      exact hne (heq ▸ ht.packetTransmitting)
    · have hidle : s.queueProcEvent = none := by simpa [h.busy] using hbusy
      have hnone := (h.waits_of_idle hidle).busyEvents
      exact ⟨h.begin hidle p, hp, (fun b d τ q ht => nomatch ht.busyEvents.symm.trans hnone),
        fun _ => by rw [places_begin], fun hlate => absurd hC hlate⟩
  | some q =>
    obtain ⟨hbusy, b, d, τ, ht, -⟩ := h.transmits hpre
    have hstop := ht.sound_preempt h lost
    obtain ⟨hpending, hover⟩ := ht.places_preempt h lost
    have hiff := ht.givesUpInTime_iff h hpre
    have hout : p ∉ (s.preemptCurrentTransmission K q lost).queue.packets := by
      rw [ht.preempt_eq]
      intro hmem
      have hsub := (PacketQueue.enque_sublist (K := K.toQueueSpec) (Q := s.queue) (p := q)
        K.not_sns lost).1
      rcases List.mem_append.mp (hsub.subset hmem) with hmem | hmem
      · exact hp hmem
      · exact hne (List.mem_singleton.mp hmem ▸ ht.packetTransmitting)
    have hnone := (hstop.waits_of_idle rfl).busyEvents
    rw [if_pos hbusy]
    refine ⟨hstop.begin rfl p, hout, (fun b d τ q ht => nomatch ht.busyEvents.symm.trans hnone),
      fun hC => ?_,
      fun hlate => ⟨q, ?_⟩⟩
    · rw [places_begin]
      exact hpending (hiff.mp hC)
    · rw [places_begin]
      exact hover fun hd => hlate (hiff.mpr hd)

/-- **What a packet that comes leads to**. -/
lemma packetQueuing_next {time : Time} {lost lostAgain : Bool} (h : Sound K s)
    (hn : next K s (.packetQueuing time p lost lostAgain) = some t) :
    Sound K t ∧ t.entered = s.entered ++ [p] ∧
      (s.PreemptsInTime K (.packetQueuing time p lost lostAgain) →
        t.places.Perm (p :: s.places)) ∧
      (¬ s.PreemptsInTime K (.packetQueuing time p lost lostAgain) →
        ∃ q, t.places.Perm (p :: q :: s.places)) := by
  obtain ⟨⟨hnow, -, hp, hne⟩, hn⟩ := Option.ite_none_right_eq_some.mp hn
  obtain rfl := Option.some.inj hn
  have hready := (h.later hnow).makeReady hp hne lostAgain
  have hcome := hready.enque hready.notWaiting hready.notTransmitting lost
  have hplaces := places_enque (K := K) (p := p) hready.simPackets lost
  refine ⟨hcome.history (s.entered ++ [p]) _, rfl,
    fun hC => hplaces.trans ((hready.inTime hC).cons p), fun hlate => ?_⟩
  obtain ⟨q, hq⟩ := hready.late hlate
  exact ⟨q, hplaces.trans (hq.cons p)⟩

lemma queueProcessing_cases (h : s.queueProcessing K = some t) :
    t = s.rest ∨
      ∃ p ps, s.queue.packets.Perm (p :: ps) ∧
        t = transmit K { s with queue := s.queue.depart (p, ps) } p := by
  obtain ⟨⟨o, R⟩, hdeque, rfl⟩ := Option.map_eq_some_iff.mp h
  rcases PacketQueue.deque_cases hdeque with ⟨rfl, -, rfl⟩ | ⟨p, ps, rfl, hps, rfl⟩
  · exact .inl rfl
  · exact .inr ⟨p, ps, hps, rfl⟩

lemma queueProcessing_next {e : QueuedEvent Time LinkEvent} (h : Sound K s)
    (hid : e.id < s.events.count) (hn : s.queueProcessing K = some t) :
    Sound K (t.destroy e) ∧ (t.destroy e).entered = s.entered ∧
      (t.destroy e).places.Perm s.places := by
  rcases queueProcessing_cases hn with rfl | ⟨p, ps, hps, rfl⟩
  · have hkeep : s.rest.destroy e = s.rest := if_neg fun hptr => nomatch hptr.2
    rw [hkeep]
    exact ⟨h.rest, rfl, .refl _⟩
  · have hkeep : (transmit K { s with queue := s.queue.depart (p, ps) } p).destroy e =
        transmit K { s with queue := s.queue.depart (p, ps) } p :=
      if_neg fun hptr => absurd (Option.some.inj hptr.2) (Nat.ne_of_gt hid)
    rw [hkeep]
    exact ⟨h.transmit hps, rfl, places_transmit hps⟩

lemma hand_next {e : QueuedEvent Time LinkEvent} (h : Sound K s)
    (hne : e.kind.action ≠ .queueProcessing) (p : Packet)
    (ht : t = { s with handed := s.handed ++ [p] }) :
    Sound K (t.destroy e) ∧ (t.destroy e).entered = s.entered ∧
      (t.destroy e).places.Perm (p :: s.places) := by
  have hkeep : t.destroy e = t := if_neg fun hptr => hne hptr.1
  rw [hkeep, ht]
  exact ⟨h.history _ _, rfl, places_hand p⟩

/-- **What an event leads to**: the packets stay where they are, or one is handed on. -/
lemma process_next {id : ℕ} (h : Sound K s) (hn : next K s (.process id) = some t) :
    Sound K t ∧ t.entered = s.entered ∧ t.places.Perm s.places := by
  obtain ⟨⟨e, events⟩, hq, hn⟩ := Option.bind_eq_some_iff.mp hn
  obtain ⟨⟨hnow, -⟩, hn⟩ := Option.ite_none_right_eq_some.mp hn
  obtain ⟨t, ht, rfl⟩ := Option.map_eq_some_iff.mp hn
  have hsound : Sound K { s with now := e.time, events := events } := h.take hq hnow
  have hplaces := places_take hq e.time
  unfold processEvent at ht
  by_cases hc : e.kind.cancelled = true
  · rw [if_pos hc] at ht
    obtain rfl := Option.some.inj ht
    have hnone : e.kind.handing = none := if_pos hc
    have hkeep : destroy { s with now := e.time, events := events } e =
        { s with now := e.time, events := events } := by
      refine if_neg fun hptr => ?_
      obtain ⟨-, l, r, hevents, -⟩ := EventQueue.take?_eq_some hq
      rw [h.pointer e (by simp [hevents]) hptr.2] at hc
      exact nomatch hc
    rw [hnone] at hplaces
    rw [hkeep]
    exact ⟨hsound, rfl, hplaces.symm⟩
  · rw [if_neg hc] at ht
    have hhand : ∀ p, e.kind.handing = some p → e.kind.action ≠ .queueProcessing →
        t = { s with now := e.time, events := events, handed := s.handed ++ [p] } →
        Sound K (t.destroy e) ∧ (t.destroy e).entered = s.entered ∧
          (t.destroy e).places.Perm s.places := by
      intro p hsome hne ht
      obtain ⟨hs, hentered, hperm⟩ := hand_next hsound hne p ht
      rw [hsome] at hplaces
      exact ⟨hs, hentered, hperm.trans hplaces.symm⟩
    cases hkind : e.kind.action with
    | packetArrival p | packetQueuing p =>
      rw [hkind] at ht
      exact hhand p (by simp [LinkEvent.handing, hc, hkind]) (by simp [hkind])
        (Option.some.inj ht).symm
    | queueProcessing =>
      rw [hkind] at ht
      have hnone : e.kind.handing = none := by simp [LinkEvent.handing, hc, hkind]
      have hid : e.id < events.count := by
        rw [(EventQueue.take?_eq_some hq).1, EventQueue.take?_count hq]
        exact (h.fresh.take? hq).1
      obtain ⟨hs, hentered, hperm⟩ := queueProcessing_next hsound hid ht
      rw [hnone] at hplaces
      exact ⟨hs, hentered, hperm.trans hplaces.symm⟩

/-! ### Runs -/

lemma accounted_init : Accounted K init where
  simPackets := rfl
  nodup := List.nodup_nil
  fresh := EventQueue.fresh_empty
  distinct := EventQueue.distinct_empty
  busy := rfl
  pointer := fun _ _ hptr => nomatch hptr
  service := .inl ⟨rfl, nofun⟩
  conserves := .refl _

/-- **A step** keeps each packet in one place, if a transmission that is given up is so in time. -/
lemma Accounted.next (h : Accounted K s) (hC : s.PreemptsInTime K a) (hn : next K s a = some t) :
    Accounted K t := by
  cases a with
  | packetQueuing time p lost lostAgain =>
    obtain ⟨hsound, hentered, hplaces, -⟩ := packetQueuing_next h.toSound hn
    refine ⟨hsound, ?_⟩
    have hcame : (s.entered ++ [p]).Perm (p :: s.entered) := List.perm_append_singleton p _
    rw [Conserves, hentered]
    exact (hcame.trans (h.conserves.cons p)).trans (hplaces hC).symm
  | process id =>
    obtain ⟨hsound, hentered, hplaces⟩ := process_next h.toSound hn
    refine ⟨hsound, ?_⟩
    rw [Conserves, hentered]
    exact h.conserves.trans hplaces.symm

lemma Accounted.not_conserves_next (h : Accounted K s) (hC : ¬ s.PreemptsInTime K a)
    (hn : PreemptiveQueue.next K s a = some t) : ¬ t.Conserves := by
  cases a with
  | packetQueuing time p lost lostAgain =>
    obtain ⟨-, hentered, -, hlate⟩ := packetQueuing_next h.toSound hn
    obtain ⟨q, hplaces⟩ := hlate hC
    intro ht
    have hlength := h.conserves.length_eq
    have htwice := (ht.trans hplaces).length_eq
    rw [hentered] at htwice
    simp only [List.length_append, List.length_cons, List.length_nil] at htwice
    omega
  | process id => exact absurd trivial hC

/-- **Preemption** keeps each packet in one place as long as no packet is preempted that has been
handed on; the first that is ends that. -/
theorem conserves_iff_preemptsInTime (as : List LinkAct) :
    Always (machine K) Conserves init as ↔ Along (machine K) (PreemptsInTime K) init as :=
  always_iff_along (M := machine K) Accounted.conserves (fun h hC hn => h.next hC hn)
    (fun h hC hn => h.not_conserves_next hC hn) as accounted_init

lemma Sound.givesUpInTime (h : Sound K s) (hearly : ∀ p, K.early p = false) (p : Packet) :
    s.GivesUpInTime K p := by
  intro hsome
  obtain ⟨q, hpre⟩ := Option.ne_none_iff_exists'.mp hsome
  obtain ⟨-, b, d, τ, ht, hlate⟩ := h.transmits hpre
  refine (ht.givesUpInTime_iff h hpre).mpr ?_ hsome
  exact ht.pending.resolve_right fun hpast => absurd hlate (not_lt.mpr (hpast (hearly q)))

/-- **Store-and-forward**, and the last hop, keep each packet in one place in every run. -/
theorem always_conserves (hearly : ∀ p, K.early p = false) (as : List LinkAct) :
    Always (machine K) Conserves init as := by
  have haccounted : Always (machine K) (Accounted K) init as := by
    refine always_of_inv (fun {s t a} h hn => h.next ?_ hn) as accounted_init
    cases a with
    | packetQueuing time p lost lostAgain =>
      obtain ⟨⟨hnow, -⟩, -⟩ := Option.ite_none_right_eq_some.mp hn
      exact (h.later hnow).givesUpInTime hearly p
    | process id => trivial
  exact haccounted.mono fun _ h => h.conserves

/-- A cut-through link of 10 Gbit/s, with a `PFabricQueue`. -/
def cutThroughLink : PreemptiveSpec where
  type := .pfabric
  limitBytes := 36864
  normalHost := false
  simQueueSize := 12
  rate := 10000000000
  propagationDelay := 2 / 10000000
  hdrSize := 40
  preemptiveQueue := true
  cutThrough := true
  lastHop := fun _ => false
  not_sns := by decide
  rate_pos := by decide +kernel
  propagationDelay_nonneg := by decide +kernel

def linkPacket (id pfPriority : ℕ) : Packet where
  uniqueId := id
  sendingTime := 0
  flow := id
  seqNo := 0
  pfPriority := pfPriority
  size := 1500
  src := 0
  dst := 1

/-- The transmission of a packet is given up when its header has long come to the next queue. -/
def lateRun : List LinkAct :=
  [.packetQueuing 0 (linkPacket 0 5) false false, .process 0, .process 2,
    .packetQueuing (1 / 1000000) (linkPacket 1 1) false false]

/-- The more urgent packet is transmitted, and the other one again. -/
def againRun : List LinkAct :=
  lateRun ++ [.process 3, .process 1, .process 5, .process 4, .process 7]

/-- The packet is in two places, and in the end has been handed on twice. -/
theorem not_conserves_lateRun :
    ¬ Always (machine cutThroughLink) Conserves init lateRun ∧
      ∃ s, exec (machine cutThroughLink) init againRun = some s ∧
        s.handed.count (linkPacket 0 5) = 2 :=
  ⟨not_always_of_exec_any (by decide +kernel), exists_exec_of_any (by decide +kernel)⟩

end DcSim.PreemptiveQueue
