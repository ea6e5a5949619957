import DcSim.Network

/-!
Where the packets of a network are.

A packet that was put in waits in a queue, is on its way by one pending event, was dropped, or has
arrived at its flow. A queue that holds a packet is busy, and is so by one pending event that it
points to.
-/

namespace DcSim.Network

open Runs

variable {Q : Type} {σ : NetworkSpec Q} {s t : Network Q} {p : Packet} {q q' : Q} {a : NetworkAct}

/-! ### The operations, field by field -/

@[simp] lemma addEvent_queues (time : Time) (action : NetworkAction Q) :
    (s.addEvent time action).queues = s.queues := rfl

@[simp] lemma addEvent_now (time : Time) (action : NetworkAction Q) :
    (s.addEvent time action).now = s.now := rfl

@[simp] lemma addEvent_events (time : Time) (action : NetworkAction Q) :
    (s.addEvent time action).events = s.events.add time action := rfl

structure Timely (σ : NetworkSpec Q) (s : Network Q) : Prop where
  fresh : s.events.Fresh
  distinct : s.events.Distinct
  notBefore : ∀ e ∈ s.events.events, s.now ≤ e.time
  inside : ∀ e ∈ s.events.events, ∀ q ∈ e.kind.queue?, q ∈ σ.queues

lemma Timely.addEvent (h : Timely σ s) {time : Time} (htime : s.now ≤ time)
    {action : NetworkAction Q} (hin : ∀ q ∈ action.queue?, q ∈ σ.queues) :
    Timely σ (s.addEvent time action) where
  fresh := h.fresh.add time action
  distinct := h.distinct.add h.fresh time action
  notBefore e he := by
    rcases EventQueue.mem_add.1 he with he | rfl
    · exact h.notBefore e he
    · exact htime
  inside e he := by
    rcases EventQueue.mem_add.1 he with he | rfl
    · exact h.inside e he
    · exact hin

/-- The network when an event has been taken, at its time. -/
def after (s : Network Q) (e : QueuedEvent Time (NetworkAction Q))
    (events : EventQueue Time (NetworkAction Q)) : Network Q :=
  { s with now := e.time, events := events }

lemma Timely.take (h : Timely σ s) {id : ℕ} {e : QueuedEvent Time (NetworkAction Q)}
    {events : EventQueue Time (NetworkAction Q)} (htake : s.events.take? id = some (e, events))
    (hnone : s.events.NoneBefore e.time) : Timely σ (s.after e events) where
  fresh := (h.fresh.take? htake).2
  distinct := h.distinct.take? htake
  notBefore e' he' := hnone e' (EventQueue.mem_of_take? htake he')
  inside e' he' := h.inside e' (EventQueue.mem_of_take? htake he')

variable [DecidableEq Q]

@[simp] lemma setQueue_self (k : NetworkQueue) : (s.setQueue q k).queues q = k :=
  Function.update_self ..

@[simp] lemma setQueue_ne (k : NetworkQueue) (h : q' ≠ q) :
    (s.setQueue q k).queues q' = s.queues q' :=
  Function.update_of_ne h ..

@[simp] lemma setQueue_now (k : NetworkQueue) : (s.setQueue q k).now = s.now := rfl

@[simp] lemma setQueue_events (k : NetworkQueue) : (s.setQueue q k).events = s.events := rfl

lemma setQueue_queue (k : NetworkQueue) (q' : Q) :
    ((s.setQueue q k).queues q').queue = if q' = q then k.queue else (s.queues q').queue := by
  split_ifs with h
  · rw [h, setQueue_self]
  · rw [setQueue_ne k h]

lemma begin_queue (q q' : Q) : ((s.begin q).queues q').queue = (s.queues q').queue := by
  unfold Network.begin
  split_ifs
  · rfl
  · rw [setQueue_queue]
    split_ifs with h
    · rw [h]
    · rfl

lemma begin_arrived (q q' : Q) : ((s.begin q).queues q').arrived = (s.queues q').arrived := by
  unfold Network.begin
  split_ifs
  · rfl
  · by_cases h : q' = q
    · rw [h, setQueue_self]
    · rw [setQueue_ne _ h, addEvent_queues]

lemma begin_history (q : Q) :
    (s.begin q).injected = s.injected ∧ (s.begin q).delivered = s.delivered := by
  unfold Network.begin
  split_ifs <;> exact ⟨rfl, rfl⟩

@[simp] lemma begin_now (q : Q) : (s.begin q).now = s.now := by
  unfold Network.begin
  split_ifs <;> rfl

lemma mem_begin {e : QueuedEvent Time (NetworkAction Q)} (h : e ∈ (s.begin q).events.events) :
    e ∈ s.events.events ∨ e.time = s.now ∧ e.kind = .queueProcessing q := by
  unfold Network.begin at h
  split_ifs at h
  · exact .inl h
  · rcases EventQueue.mem_add.1 h with h | rfl
    · exact .inl h
    · exact .inr ⟨rfl, rfl⟩

lemma packetQueuing_queue (p : Packet) (q : Q) (lost : Bool) (q' : Q) :
    ((s.packetQueuing σ p q lost).queues q').queue =
      if q' = q then (s.queues q).queue.enque (σ.queue q) p lost else (s.queues q').queue := by
  unfold packetQueuing Network.enque
  rw [setQueue_queue, begin_queue, begin_queue]

lemma packetQueuing_arrived (p : Packet) (q : Q) (lost : Bool) (q' : Q) :
    ((s.packetQueuing σ p q lost).queues q').arrived =
      if q' = q then (s.queues q).arrived ++ [p] else (s.queues q').arrived := by
  unfold packetQueuing Network.enque
  by_cases h : q' = q
  · rw [h, setQueue_self, begin_arrived, if_pos rfl]
  · rw [setQueue_ne _ h, begin_arrived, if_neg h]

@[simp] lemma packetQueuing_events (p : Packet) (q : Q) (lost : Bool) :
    (s.packetQueuing σ p q lost).events = (s.begin q).events := rfl

@[simp] lemma rest_queue (q q' : Q) : ((s.rest q).queues q').queue = (s.queues q').queue := by
  unfold Network.rest
  rw [setQueue_queue]
  split_ifs with h
  · rw [h]
  · rfl

@[simp] lemma rest_arrived (q q' : Q) : ((s.rest q).queues q').arrived = (s.queues q').arrived := by
  unfold Network.rest
  by_cases h : q' = q
  · rw [h, setQueue_self]
  · rw [setQueue_ne _ h]

@[simp] lemma transmit_queue (q : Q) (p : Packet) (c : ℕ) (hop : Option Q) (q' : Q) :
    ((s.transmit σ q p c hop).queues q').queue = (s.queues q').queue := by
  unfold Network.transmit
  rw [addEvent_queues, addEvent_queues, setQueue_queue]
  split_ifs with h
  · rw [h]
  · rfl

@[simp] lemma transmit_arrived (q : Q) (p : Packet) (c : ℕ) (hop : Option Q) (q' : Q) :
    ((s.transmit σ q p c hop).queues q').arrived = (s.queues q').arrived := by
  unfold Network.transmit
  rw [addEvent_queues, addEvent_queues]
  by_cases h : q' = q
  · rw [h, setQueue_self]
  · rw [setQueue_ne _ h]

@[simp] lemma transmit_events (q : Q) (p : Packet) (c : ℕ) (hop : Option Q) :
    (s.transmit σ q p c hop).events =
      (s.events.add (s.now + σ.getTransmissionDelay q p.size) (.queueProcessing q)).add
        (s.now + σ.handingDelay q p hop) (.handing p hop) := rfl

/-! ### The links -/

structure Linked (events : EventQueue Time (NetworkAction Q)) (q : Q) (k : NetworkQueue) :
    Prop where
  tracks : events.Tracks (.queueProcessing q) k.queueProcEvent
  busy : k.busy = k.queueProcEvent.isSome
  idle : k.busy = false → k.queue.bytesInQueue = 0
  noSims : k.queue.simPackets = []

structure Sound (σ : NetworkSpec Q) (s : Network Q) : Prop extends Timely σ s where
  links : ∀ q, Linked s.events q (s.queues q)

lemma Linked.add_ne {events : EventQueue Time (NetworkAction Q)} {k : NetworkQueue}
    (h : Linked events q k) (time : Time) {action : NetworkAction Q}
    (hne : action ≠ .queueProcessing q) : Linked (events.add time action) q k :=
  { h with tracks := h.tracks.add_ne time hne }

lemma Timely.setQueue (h : Timely σ s) (q : Q) (k : NetworkQueue) : Timely σ (s.setQueue q k) :=
  ⟨h.fresh, h.distinct, h.notBefore, h.inside⟩

lemma sound_init : Sound σ (init σ) where
  fresh := EventQueue.fresh_empty
  distinct := EventQueue.distinct_empty
  notBefore := by simp [init, EventQueue.empty]
  inside := by simp [init, EventQueue.empty]
  links _ := ⟨rfl, rfl, fun _ => rfl, rfl⟩

lemma Sound.later (h : Sound σ s) {time : Time} (hnone : s.events.NoneBefore time) :
    Sound σ { s with now := time } :=
  ⟨⟨h.fresh, h.distinct, hnone, h.inside⟩, h.links⟩

lemma Sound.addEvent (h : Sound σ s) {time : Time} (htime : s.now ≤ time)
    {action : NetworkAction Q} (hin : ∀ q ∈ action.queue?, q ∈ σ.queues)
    (hne : ∀ q, action ≠ .queueProcessing q) : Sound σ (s.addEvent time action) :=
  ⟨h.toTimely.addEvent htime hin, fun q => (h.links q).add_ne time (hne q)⟩

lemma Sound.inject (h : Sound σ s) (hp : σ.hostQueue p.src ∈ σ.queues) :
    Sound σ (s.inject σ p) := by
  have hadd : Sound σ (s.addEvent s.now (.packetQueuing p (σ.hostQueue p.src))) :=
    h.addEvent le_rfl (by simpa [NetworkAction.queue?] using hp) (by simp)
  exact ⟨⟨hadd.fresh, hadd.distinct, hadd.notBefore, hadd.inside⟩, hadd.links⟩

lemma Sound.begin (h : Sound σ s) (hq : q ∈ σ.queues) :
    Sound σ (s.begin q) ∧ ((s.begin q).queues q).busy = true := by
  unfold Network.begin
  split_ifs with hbusy
  · exact ⟨h, hbusy⟩
  have hidle : (s.queues q).queueProcEvent = none := by
    simpa [(h.links q).busy] using hbusy
  refine ⟨⟨(h.toTimely.addEvent le_rfl (by simpa [NetworkAction.queue?] using hq)).setQueue q _,
    fun q' => ?_⟩, by simp⟩
  by_cases hq' : q' = q
  · subst hq'
    rw [setQueue_self]
    exact ⟨(hidle ▸ (h.links q').tracks).add s.now, rfl, by simp, (h.links q').noSims⟩
  · rw [setQueue_ne _ hq']
    exact (h.links q').add_ne s.now (by simpa using Ne.symm hq')

lemma Sound.enque (h : Sound σ s) (hbusy : (s.queues q).busy = true) (lost : Bool) :
    Sound σ (s.enque σ p q lost) := by
  refine ⟨h.toTimely.setQueue q _, fun q' => ?_⟩
  by_cases hq' : q' = q
  · subst hq'
    unfold Network.enque
    rw [setQueue_self]
    have hsims := (PacketQueue.enque_sublist (Q := (s.queues q').queue) (p := p) (σ.not_sns q')
      lost).2
    exact ⟨(h.links q').tracks, (h.links q').busy, by simp [hbusy],
      hsims.trans (h.links q').noSims⟩
  · unfold Network.enque
    rw [setQueue_ne _ hq']
    exact h.links q'

lemma Linked.take {k : NetworkQueue} (h : Linked s.events q k) {id : ℕ}
    {e : QueuedEvent Time (NetworkAction Q)} {events : EventQueue Time (NetworkAction Q)}
    (htake : s.events.take? id = some (e, events)) (hne : e.kind ≠ .queueProcessing q) :
    Linked events q k :=
  { h with tracks := h.tracks.take?_ne htake hne }

lemma Sound.take (h : Sound σ s) {id : ℕ} {e : QueuedEvent Time (NetworkAction Q)}
    {events : EventQueue Time (NetworkAction Q)} (htake : s.events.take? id = some (e, events))
    (hnone : s.events.NoneBefore e.time) (hne : ∀ q, e.kind ≠ .queueProcessing q) :
    Sound σ (s.after e events) :=
  ⟨h.toTimely.take htake hnone, fun q => (h.links q).take htake (hne q)⟩

structure Serves (σ : NetworkSpec Q) (s : Network Q) (q : Q) : Prop extends Timely σ s where
  mem : q ∈ σ.queues
  none : s.events.ofKind (.queueProcessing q) = []
  noSims : (s.queues q).queue.simPackets = []
  others : ∀ q' ≠ q, Linked s.events q' (s.queues q')

lemma Sound.serves (h : Sound σ s) {id : ℕ} {e : QueuedEvent Time (NetworkAction Q)}
    {events : EventQueue Time (NetworkAction Q)} (htake : s.events.take? id = some (e, events))
    (hnone : s.events.NoneBefore e.time) (hkind : e.kind = .queueProcessing q) :
    Serves σ (s.after e events) q where
  toTimely := h.toTimely.take htake hnone
  mem := h.inside e (EventQueue.taken_mem htake) q (by simp [hkind, NetworkAction.queue?])
  none := ((h.links q).tracks.take? htake hkind).2
  noSims := (h.links q).noSims
  others q' hq' := (h.links q').take htake (by simpa [hkind] using Ne.symm hq')

lemma Serves.rest (h : Serves σ s q) (hempty : (s.queues q).queue.bytesInQueue = 0) :
    Sound σ (s.rest q) := by
  refine ⟨h.toTimely.setQueue q _, fun q' => ?_⟩
  unfold Network.rest
  by_cases hq' : q' = q
  · subst hq'
    rw [setQueue_self]
    exact ⟨EventQueue.Tracks.none_iff.2 h.none, rfl, fun _ => hempty, h.noSims⟩
  · rw [setQueue_ne _ hq']
    exact h.others q' hq'

lemma Serves.transmit (h : Serves σ s q) (c : ℕ) {hop : Option Q} (hhop : ∀ r ∈ hop, r ∈ σ.queues) :
    Sound σ (s.transmit σ q p c hop) := by
  have htd := σ.getTransmissionDelay_nonneg q p.size
  have hhd := σ.handingDelay_nonneg q p hop
  refine ⟨Timely.addEvent (Timely.addEvent (h.toTimely.setQueue q _) (by simpa using htd)
    (by simpa [NetworkAction.queue?] using h.mem)) (by simpa using hhd) (by simpa using hhop),
    fun q' => ?_⟩
  by_cases hq' : q' = q
  · subst hq'
    have htracks := (EventQueue.Tracks.none_iff.2 h.none).add
      (s.now + σ.getTransmissionDelay q' p.size)
    simp only [Network.transmit, addEvent_queues, setQueue_self, addEvent_events, setQueue_events]
    exact ⟨htracks.add_ne _ (NetworkAction.handing_ne p hop q'), rfl, by simp, h.noSims⟩
  · simp only [Network.transmit, addEvent_queues, setQueue_ne _ hq', addEvent_events,
      setQueue_events]
    exact ((h.others q' hq').add_ne _ (by simpa using Ne.symm hq')).add_ne _
      (NetworkAction.handing_ne p hop q')

lemma destroy_eq {e : QueuedEvent Time (NetworkAction Q)}
    (h : ∀ q, e.kind = .queueProcessing q → (s.queues q).queueProcEvent ≠ some e.id) :
    s.destroy e = s := by
  unfold destroy
  split
  · next q hkind => rw [if_neg (h q hkind)]
  · rfl

inductive Step (σ : NetworkSpec Q) (s : Network Q) : NetworkAct → Network Q → Prop
  | inject {time p} : s.now ≤ time → s.events.NoneBefore time → σ.hostQueue p.src ∈ σ.queues →
      Step σ s (.inject time p) ({ s with now := time }.inject σ p)
  | queuing {id lost e events p q} : s.events.take? id = some (e, events) →
      s.events.NoneBefore e.time → e.kind = .packetQueuing p q →
      Step σ s (.process id lost) ((s.after e events).packetQueuing σ p q lost)
  | arrival {id lost e events p} : s.events.take? id = some (e, events) →
      s.events.NoneBefore e.time → e.kind = .packetArrival p →
      Step σ s (.process id lost) { s.after e events with delivered := s.delivered ++ [p] }
  | rest {id lost e events q} : s.events.take? id = some (e, events) →
      s.events.NoneBefore e.time → e.kind = .queueProcessing q →
      (s.queues q).queue.bytesInQueue = 0 → Step σ s (.process id lost) ((s.after e events).rest q)
  | transmit {id lost e events q p ps c hop} : s.events.take? id = some (e, events) →
      s.events.NoneBefore e.time → e.kind = .queueProcessing q →
      PacketQueue.take (σ.queue q) (s.queues q).queue.packets = some (p, ps) →
      σ.getNextHop (s.queues q).sprayCounter p q = some (c, hop) →
      Step σ s (.process id lost)
        (((s.after e events).setQueue q
          { s.queues q with queue := (s.queues q).queue.depart (p, ps) }).transmit σ q p c hop)

lemma queueProcessing_cases (hq : s.queueProcessing σ q = some t) :
    (s.queues q).queue.bytesInQueue = 0 ∧ t = s.rest q ∨
      ∃ p ps c hop, PacketQueue.take (σ.queue q) (s.queues q).queue.packets = some (p, ps) ∧
        σ.getNextHop (s.queues q).sprayCounter p q = some (c, hop) ∧
        t = (s.setQueue q
          { s.queues q with queue := (s.queues q).queue.depart (p, ps) }).transmit σ q p c hop := by
  obtain ⟨⟨o, R⟩, hdeque, hq⟩ := Option.bind_eq_some_iff.1 hq
  unfold PacketQueue.deque at hdeque
  split_ifs at hdeque with hbytes
  · obtain ⟨⟨p, ps⟩, htake, hR⟩ := Option.map_eq_some_iff.1 hdeque
    obtain ⟨rfl, rfl⟩ := Prod.mk.inj hR
    obtain ⟨⟨c, hop⟩, hhop, rfl⟩ := Option.map_eq_some_iff.1 hq
    rw [setQueue_self] at hhop
    exact .inr ⟨p, ps, c, hop, htake, hhop, rfl⟩
  · obtain ⟨rfl, rfl⟩ := Prod.mk.inj (Option.some.inj hdeque)
    refine .inl ⟨Nat.eq_zero_of_not_pos hbytes, ?_⟩
    obtain rfl := Option.some.inj hq
    have hsame : s.setQueue q { s.queues q with queue := (s.queues q).queue } = s := by
      unfold setQueue
      rw [Function.update_eq_self]
    dsimp only
    rw [hsame]

/-- **What a step does**, between two events: a destructor finds nothing to undo. -/
theorem Sound.step (h : Sound σ s) (hn : next σ s a = some t) : Step σ s a t := by
  cases a with
  | inject time p =>
    obtain ⟨⟨htime, hnone, hp⟩, hn⟩ := Option.ite_none_right_eq_some.1 hn
    obtain rfl := Option.some.inj hn
    exact .inject htime hnone hp
  | process id lost =>
    obtain ⟨⟨e, events⟩, htake, hn⟩ := Option.bind_eq_some_iff.1 hn
    obtain ⟨hnone, hn⟩ := Option.ite_none_right_eq_some.1 hn
    obtain ⟨u, hu, rfl⟩ := Option.map_eq_some_iff.1 hn
    change (s.after e events).processEvent σ lost e.kind = some u at hu
    have hother : (∀ q, e.kind ≠ .queueProcessing q) → u.destroy e = u := fun hne =>
      destroy_eq fun q hq => absurd hq (hne q)
    cases hkind : e.kind with
    | queueProcessing q =>
      rw [hkind] at hu
      have hid : e.id < events.count := by
        obtain ⟨hid, -⟩ := EventQueue.take?_eq_some htake
        rw [EventQueue.take?_count htake, hid]
        exact (h.fresh.take? htake).1
      obtain ⟨hbytes, rfl⟩ | ⟨p, ps, c, hop, hps, hhop, rfl⟩ := queueProcessing_cases hu
      · rw [destroy_eq fun q' hq' => ?_]
        · exact .rest htake hnone hkind hbytes
        · obtain rfl : q = q' := by simpa [hkind] using hq'
          simp [Network.rest]
      · rw [destroy_eq fun q' hq' => ?_]
        · exact .transmit htake hnone hkind hps hhop
        · obtain rfl : q = q' := by simpa [hkind] using hq'
          simp only [Network.transmit, addEvent_queues, setQueue_self, after]
          simpa using hid.ne'
    | packetQueuing p q =>
      rw [hkind] at hu
      obtain rfl := Option.some.inj hu
      rw [hother (by simp [hkind])]
      exact .queuing htake hnone hkind
    | packetArrival p =>
      rw [hkind] at hu
      obtain rfl := Option.some.inj hu
      rw [hother (by simp [hkind])]
      exact .arrival htake hnone hkind

/-- **The invariant** of the links. -/
theorem Step.sound (hstep : Step σ s a t) (h : Sound σ s) : Sound σ t := by
  cases hstep with
  | inject htime hnone hp => exact (h.later hnone).inject hp
  | @queuing id lost e events p q htake hnone hkind =>
    have hafter : Sound σ (s.after e events) := h.take htake hnone (by simp [hkind])
    have hq : q ∈ σ.queues :=
      h.inside e (EventQueue.taken_mem htake) q (by simp [hkind, NetworkAction.queue?])
    obtain ⟨hbegin, hbusy⟩ := hafter.begin hq
    exact hbegin.enque hbusy lost
  | arrival htake hnone hkind =>
    have hafter := h.take htake hnone (by simp [hkind])
    exact ⟨⟨hafter.fresh, hafter.distinct, hafter.notBefore, hafter.inside⟩, hafter.links⟩
  | rest htake hnone hkind hbytes => exact (h.serves htake hnone hkind).rest hbytes
  | @transmit id lost e events q p ps c hop htake hnone hkind hps hhop =>
    have hs := h.serves htake hnone hkind
    refine Serves.transmit ⟨hs.toTimely.setQueue q _, hs.mem, hs.none, ?_, fun q' hq' => ?_⟩ c
      fun r hr => ?_
    · rw [setQueue_self]
      exact (h.links q).noSims
    · rw [setQueue_ne _ hq']
      exact hs.others q' hq'
    · obtain rfl : hop = some r := hr
      exact σ.leads hs.mem hhop

lemma Step.now_le (hstep : Step σ s a t) (hs : Sound σ s) : s.now ≤ t.now := by
  have htaken : ∀ {id e events}, s.events.take? id = some (e, events) → s.now ≤ e.time :=
    fun htake => hs.notBefore _ (EventQueue.taken_mem htake)
  cases hstep with
  | inject htime => exact htime
  | @queuing id lost e events p q htake =>
    exact (htaken htake).trans (begin_now (s := s.after e events) q).ge
  | arrival htake | rest htake | transmit htake => exact htaken htake

lemma sound_of_reach (hs : Reach (machine σ) s) : Sound σ s :=
  hs.inv sound_init fun _ h hn => (h.step hn).sound h

/-! ### The packets -/

/-- The packets that pending events hand on. -/
def onWay (s : Network Q) : Multiset Packet :=
  (s.events.events.filterMap (·.kind.packet?) : List Packet)

variable (σ) in
def waiting (s : Network Q) : Multiset Packet :=
  ∑ q ∈ σ.queues, ((s.queues q).queue.held : Multiset Packet)

variable (σ) in
def inFlight (s : Network Q) : Multiset Packet := s.onWay + s.waiting σ

variable (σ) in
def dropped (s : Network Q) : Multiset Packet :=
  ∑ q ∈ σ.queues, ((s.queues q).queue.dropped : Multiset Packet)

omit [DecidableEq Q] in
lemma onWay_addEvent (time : Time) {action : NetworkAction Q} (h : action.packet? = some p) :
    (s.addEvent time action).onWay = p ::ₘ s.onWay := by
  unfold onWay
  rw [Multiset.cons_coe, Multiset.coe_eq_coe]
  simp [EventQueue.add, h]

omit [DecidableEq Q] in
@[simp] lemma onWay_addEvent_processing (time : Time) (q : Q) :
    (s.addEvent time (.queueProcessing q)).onWay = s.onWay := by
  simp [onWay, EventQueue.add, NetworkAction.packet?]

section Take

variable {id : ℕ} {e : QueuedEvent Time (NetworkAction Q)}
  {events : EventQueue Time (NetworkAction Q)} (htake : s.events.take? id = some (e, events))
include htake

omit [DecidableEq Q]

lemma onWay_take (h : e.kind.packet? = some p) : s.onWay = p ::ₘ (s.after e events).onWay := by
  obtain ⟨-, l, r, hevents, rfl⟩ := EventQueue.take?_eq_some htake
  unfold onWay after
  rw [hevents, Multiset.cons_coe, Multiset.coe_eq_coe]
  simp [h]

lemma onWay_take_none (h : e.kind.packet? = none) : s.onWay = (s.after e events).onWay := by
  obtain ⟨-, l, r, hevents, rfl⟩ := EventQueue.take?_eq_some htake
  unfold onWay after
  rw [hevents]
  simp [h]

end Take

lemma sum_setQueue {M : Type*} [AddCommMonoid M] (f : Q → NetworkQueue → M) (k : NetworkQueue)
    (hq : q ∈ σ.queues) :
    ∑ q' ∈ σ.queues, f q' ((s.setQueue q k).queues q') + f q (s.queues q) =
      ∑ q' ∈ σ.queues, f q' (s.queues q') + f q k := by
  have hrest : ∑ q' ∈ σ.queues.erase q, f q' ((s.setQueue q k).queues q') =
      ∑ q' ∈ σ.queues.erase q, f q' (s.queues q') :=
    Finset.sum_congr rfl fun q' hq' => by rw [setQueue_ne k (Finset.ne_of_mem_erase hq')]
  rw [← Finset.add_sum_erase _ _ hq, ← Finset.add_sum_erase _ (fun q' => f q' (s.queues q')) hq,
    setQueue_self, hrest]
  ac_rfl

/-- Where the packets are after a step: one was put in, arrived or was dropped, or they are where
they were. -/
inductive Flight (σ : NetworkSpec Q) (s t : Network Q) : Prop
  | inject (p : Packet) (flight : t.inFlight σ = p ::ₘ s.inFlight σ)
      (dropped : t.dropped σ = s.dropped σ)
      (injected : t.injected = s.injected ++ [p]) (delivered : t.delivered = s.delivered)
  | arrive (p : Packet) (flight : s.inFlight σ = p ::ₘ t.inFlight σ)
      (dropped : t.dropped σ = s.dropped σ)
      (injected : t.injected = s.injected) (delivered : t.delivered = s.delivered ++ [p])
  | drop (p : Packet) (flight : s.inFlight σ = p ::ₘ t.inFlight σ)
      (dropped : t.dropped σ = p ::ₘ s.dropped σ)
      (injected : t.injected = s.injected) (delivered : t.delivered = s.delivered)
  | stay (flight : t.inFlight σ = s.inFlight σ) (dropped : t.dropped σ = s.dropped σ)
      (injected : t.injected = s.injected) (delivered : t.delivered = s.delivered)

lemma waiting_setQueue (k : NetworkQueue) (hq : q ∈ σ.queues) :
    (s.setQueue q k).waiting σ + (s.queues q).queue.held = s.waiting σ + k.queue.held :=
  sum_setQueue (fun _ k => (k.queue.held : Multiset Packet)) k hq

lemma dropped_setQueue (k : NetworkQueue) (hq : q ∈ σ.queues) :
    (s.setQueue q k).dropped σ + (s.queues q).queue.dropped = s.dropped σ + k.queue.dropped :=
  sum_setQueue (fun _ k => (k.queue.dropped : Multiset Packet)) k hq

lemma setQueue_same {k : NetworkQueue} (hk : k.queue = (s.queues q).queue) :
    (s.setQueue q k).waiting σ = s.waiting σ ∧ (s.setQueue q k).dropped σ = s.dropped σ := by
  have hqueue : ∀ q', ((s.setQueue q k).queues q').queue = (s.queues q').queue := by
    intro q'
    by_cases hq' : q' = q
    · subst hq'
      rw [setQueue_self, hk]
    · rw [setQueue_ne _ hq']
  unfold waiting dropped
  simp only [hqueue, and_self]

lemma inFlight_begin (q : Q) :
    (s.begin q).inFlight σ = s.inFlight σ ∧ (s.begin q).dropped σ = s.dropped σ := by
  unfold Network.begin
  split_ifs
  · exact ⟨rfl, rfl⟩
  obtain ⟨hwait, hdrop⟩ := setQueue_same (σ := σ) (q := q)
    (s := s.addEvent s.now (.queueProcessing q))
    (k := { s.queues q with busy := true, queueProcEvent := some s.events.count }) rfl
  refine ⟨?_, hdrop⟩
  unfold inFlight
  rw [hwait]
  exact congrArg (· + _) (onWay_addEvent_processing s.now q)

lemma inFlight_enque (hq : q ∈ σ.queues) (p : Packet) (lost : Bool) :
    (s.enque σ p q lost).inFlight σ = p ::ₘ s.inFlight σ ∧
        (s.enque σ p q lost).dropped σ = s.dropped σ ∨
      ∃ x, p ::ₘ s.inFlight σ = x ::ₘ (s.enque σ p q lost).inFlight σ ∧
        (s.enque σ p q lost).dropped σ = x ::ₘ s.dropped σ := by
  have hwait := waiting_setQueue (s := s)
    { s.queues q with
      queue := (s.queues q).queue.enque (σ.queue q) p lost
      arrived := (s.queues q).arrived ++ [p] } hq
  have hdrop := dropped_setQueue (s := s)
    { s.queues q with
      queue := (s.queues q).queue.enque (σ.queue q) p lost
      arrived := (s.queues q).arrived ++ [p] } hq
  change (s.enque σ p q lost).waiting σ + _ = _ at hwait
  change (s.enque σ p q lost).dropped σ + _ = _ at hdrop
  have hway : (s.enque σ p q lost).onWay = s.onWay := rfl
  unfold inFlight
  rw [hway]
  rcases (s.queues q).queue.enque_cases (K := σ.queue q) (p := p) lost with ⟨hsame, hheld⟩ |
    ⟨x, hmore, hheld⟩
  · rw [hsame] at hdrop
    rw [Multiset.coe_eq_coe.2 hheld, ← Multiset.cons_coe, Multiset.add_cons,
      ← Multiset.cons_add] at hwait
    refine .inl ⟨?_, add_right_cancel hdrop⟩
    rw [add_right_cancel hwait, Multiset.add_cons]
  · refine .inr ⟨x, ?_, ?_⟩
    · have hx : p ::ₘ s.waiting σ = x ::ₘ (s.enque σ p q lost).waiting σ := by
        have hperm : (p ::ₘ ((s.queues q).queue.held : Multiset Packet)) =
            x ::ₘ (((s.queues q).queue.enque (σ.queue q) p lost).held : Multiset Packet) := by
          rw [Multiset.cons_coe, Multiset.cons_coe]
          exact Multiset.coe_eq_coe.2 hheld
        refine add_right_cancel (b := ((s.queues q).queue.held : Multiset Packet)) ?_
        rw [Multiset.cons_add, ← Multiset.add_cons, hperm, Multiset.cons_add, hwait,
          Multiset.add_cons]
      rw [← Multiset.add_cons, hx, Multiset.add_cons]
    · rw [hmore, ← Multiset.coe_add, ← add_assoc, add_right_comm] at hdrop
      rw [add_right_cancel hdrop, Multiset.coe_singleton, add_comm, Multiset.singleton_add]

lemma inFlight_transmit (hq : q ∈ σ.queues) {ps : List Packet} {p : Packet}
    (hps : PacketQueue.take (σ.queue q) (s.queues q).queue.packets = some (p, ps)) (c : ℕ)
    (hop : Option Q) :
    ((s.setQueue q { s.queues q with queue := (s.queues q).queue.depart (p, ps) }).transmit σ q p c
        hop).inFlight σ = s.inFlight σ ∧
      ((s.setQueue q { s.queues q with queue := (s.queues q).queue.depart (p, ps) }).transmit σ q p
        c hop).dropped σ = s.dropped σ := by
  obtain ⟨u, hu⟩ : ∃ u, u = s.setQueue q
    { s.queues q with queue := (s.queues q).queue.depart (p, ps) } := ⟨_, rfl⟩
  obtain ⟨v, hv⟩ : ∃ v, v = u.setQueue q
    { u.queues q with
      busy := true
      queueProcEvent := some u.events.count
      sprayCounter := c } := ⟨_, rfl⟩
  have hheld : (s.queues q).queue.held.Perm
      (p :: ((s.queues q).queue.depart (p, ps)).held) :=
    (PacketQueue.take_perm hps).append_right _
  have hwait := waiting_setQueue (s := s)
    { s.queues q with queue := (s.queues q).queue.depart (p, ps) } hq
  have hdrop := dropped_setQueue (s := s)
    { s.queues q with queue := (s.queues q).queue.depart (p, ps) } hq
  rw [← hu] at hwait hdrop ⊢
  obtain ⟨hwait', hdrop'⟩ := setQueue_same (σ := σ) (s := u) (q := q)
    (k := { u.queues q with
      busy := true
      queueProcEvent := some u.events.count
      sprayCounter := c }) rfl
  rw [← hv] at hwait' hdrop'
  have hway : (u.transmit σ q p c hop).onWay = p ::ₘ s.onWay := by
    unfold Network.transmit
    rw [onWay_addEvent _ (NetworkAction.packet?_handing p hop), onWay_addEvent_processing, ← hv,
      show v.onWay = s.onWay from hv ▸ hu ▸ rfl]
  have hw : p ::ₘ u.waiting σ = s.waiting σ := by
    rw [Multiset.coe_eq_coe.2 hheld, ← Multiset.cons_coe, Multiset.add_cons,
      ← Multiset.cons_add] at hwait
    exact add_right_cancel hwait
  constructor
  · unfold inFlight
    rw [hway, ← hw, show (u.transmit σ q p c hop).waiting σ = v.waiting σ from hv ▸ rfl, hwait',
      Multiset.cons_add, Multiset.add_cons]
  · rw [show (u.transmit σ q p c hop).dropped σ = v.dropped σ from hv ▸ rfl, hdrop']
    exact add_right_cancel hdrop

/-- **Where the packets are after a step.** -/
theorem Step.flight (hstep : Step σ s a t) (h : Sound σ s) : Flight σ s t := by
  cases hstep with
  | @inject time p htime hnone hp =>
    refine .inject p ?_ rfl rfl rfl
    have hway : ({ s with now := time }.inject σ p).onWay = p ::ₘ s.onWay :=
      onWay_addEvent (s := { s with now := time }) time rfl
    unfold inFlight
    rw [hway, Multiset.cons_add]
    rfl
  | @queuing id lost e events p q htake hnone hkind =>
    have hq : q ∈ σ.queues :=
      h.inside e (EventQueue.taken_mem htake) q (by simp [hkind, NetworkAction.queue?])
    obtain ⟨hflight, hdropped⟩ := inFlight_begin (σ := σ) (s := s.after e events) q
    have hway : s.inFlight σ = p ::ₘ ((s.after e events).begin q).inFlight σ := by
      rw [hflight]
      unfold inFlight
      rw [onWay_take htake (p := p) (by rw [hkind]; rfl), Multiset.cons_add]
      rfl
    have hhist := begin_history (s := s.after e events) q
    unfold packetQueuing
    rcases inFlight_enque (s := (s.after e events).begin q) hq p lost with ⟨hin, hdrop⟩ |
      ⟨x, hin, hdrop⟩
    · exact .stay (hin.trans hway.symm) (hdrop.trans hdropped) hhist.1 hhist.2
    · exact .drop x (hway.trans hin) (hdrop.trans (by rw [hdropped]; rfl)) hhist.1 hhist.2
  | @arrival id lost e events p htake hnone hkind =>
    refine .arrive p ?_ rfl rfl rfl
    unfold inFlight
    rw [onWay_take htake (p := p) (by rw [hkind]; rfl), Multiset.cons_add]
    rfl
  | @rest id lost e events q htake hnone hkind hbytes =>
    obtain ⟨hwait, hdrop⟩ := setQueue_same (σ := σ) (s := s.after e events) (q := q)
      (k := { (s.after e events).queues q with busy := false, queueProcEvent := none }) rfl
    refine .stay ?_ hdrop rfl rfl
    unfold inFlight
    rw [onWay_take_none htake (by rw [hkind]; rfl)]
    exact congrArg (_ + ·) hwait
  | @transmit id lost e events q p ps c hop htake hnone hkind hps hhop =>
    have hq : q ∈ σ.queues := (h.serves htake hnone hkind).mem
    obtain ⟨hin, hdrop⟩ := inFlight_transmit (s := s.after e events) hq hps c hop
    refine .stay (hin.trans ?_) hdrop rfl rfl
    unfold inFlight
    rw [onWay_take_none htake (by rw [hkind]; rfl)]
    rfl

variable (σ) in
/-- Each packet that was put in is in the network, was dropped or has arrived. -/
def Conserves (s : Network Q) : Prop :=
  (s.injected : Multiset Packet) = s.inFlight σ + s.dropped σ + s.delivered

omit [DecidableEq Q] in
lemma conserves_init : (init σ).Conserves σ := by
  simp [Conserves, inFlight, onWay, waiting, dropped, init, EventQueue.empty, PacketQueue.init,
    PacketQueue.held]

omit [DecidableEq Q] in
lemma Flight.conserves (hf : Flight σ s t) (h : s.Conserves σ) : t.Conserves σ := by
  unfold Conserves at h ⊢
  cases hf with
  | inject p flight dropped injected delivered =>
    rw [flight, dropped, injected, delivered, ← Multiset.coe_add, h, Multiset.coe_singleton,
      Multiset.cons_add, Multiset.cons_add, add_comm, Multiset.singleton_add]
  | arrive p flight dropped injected delivered =>
    rw [dropped, injected, delivered, ← Multiset.coe_add, h, flight, Multiset.coe_singleton,
      Multiset.cons_add, Multiset.cons_add, ← add_assoc, ← Multiset.singleton_add,
      add_comm ({p} : Multiset Packet)]
  | drop p flight dropped injected delivered =>
    rw [dropped, injected, delivered, h, flight, Multiset.cons_add, Multiset.add_cons]
  | stay flight dropped injected delivered => rw [flight, dropped, injected, delivered, h]

/-- **Conservation of packets.** In every reachable state of the network each packet that a flow
put in is in flight, was dropped or has arrived, as often as it was put in. -/
theorem conserves_of_reach (hs : Reach (machine σ) s) : s.Conserves σ :=
  hs.inv conserves_init fun hs hc hn =>
    ((sound_of_reach hs).step hn |>.flight (sound_of_reach hs)).conserves hc

/-- One link, whose queue takes one packet and does not take a second. -/
def oneLink : NetworkSpec Unit where
  queues := {()}
  queue _ := ⟨.dropTail, 2000, true, 0⟩
  rate _ := 10000000000
  propagationDelay _ := 1 / 5000000
  hdrSize := 40
  cutThrough := false
  hostQueue _ := ()
  sprayCounter _ := 0
  getNextHop sprayCounter _ _ := some (sprayCounter, none)
  not_sns _ := by decide
  rate_pos _ := by norm_num
  propagationDelay_nonneg _ := by norm_num
  leads _ h := by simp at h

/-- Three packets are put in. The first is on the link when the others come. -/
def threePackets : List NetworkAct :=
  [0, 1460, 2920].map (fun seq => .inject 1
    { sendingTime := 1, flow := 0, seqNo := seq, size := 1500, src := 0, dst := 1 }) ++
  [0, 3, 1, 2, 4, 5].map (.process · false)

theorem conserves_of_reach_oneLink : ∃ s, (Reach (machine oneLink) s ∧ s.injected.length = 3 ∧
    s.delivered.length = 1 ∧ (s.queues ()).queue.dropped.length = 1) ∧ s.Conserves oneLink := by
  obtain ⟨s, hs, h⟩ : ∃ s, Reach (machine oneLink) s ∧ (s.injected.length = 3 ∧
      s.delivered.length = 1 ∧ (s.queues ()).queue.dropped.length = 1) :=
    exists_reach_of_exec_any threePackets (by decide +kernel)
  exact ⟨s, ⟨hs, h⟩, conserves_of_reach hs⟩

end DcSim.Network
