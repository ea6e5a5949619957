import DcSim.Runs
import DcSim.SnsFlow
import DcSim.SnsQueue
import Mathlib.Order.CompletePartialOrder
import Mathlib.Order.Interval.Set.Disjoint

/-!
An SNS link, and when it is a single server.

Packets arrive at the queue of the link at any times; its own events are processed in the order
of their times. The transmissions the link has begun are kept as history.
-/

namespace DcSim

open Runs

structure SnsLink where
  now : Time
  queue : SnsQueue
  log : List Transmission

/-- A `PacketQueuingEvent` brings a packet, or an event of the queue is processed. -/
inductive SnsLinkAct
  | arrive (time : Time) (p : Packet)
  | process (id : ℕ)

namespace SnsLink

variable (K : SnsQueueSpec)

def init : SnsLink := ⟨0, .init, []⟩

/-- Time moves on to the next thing that happens. -/
def Due (s : SnsLink) (time : Time) : Prop := s.now ≤ time ∧ s.queue.events.NoneBefore time

instance (s : SnsLink) (time : Time) : Decidable (s.Due time) :=
  inferInstanceAs (Decidable (_ ∧ _))

/-- The event `id` has been taken out of the events, which leaves `q`, and is processed. -/
def processed (s : SnsLink) (id : ℕ) (e : QueuedEvent Time QueueEvent)
    (q : EventQueue Time QueueEvent) : SnsLink :=
  let r := ({ s.queue with events := q } : SnsQueue).process K e.time id e.kind
  ⟨e.time, r.1, s.log ++ r.2.toList⟩

def next (s : SnsLink) : SnsLinkAct → Option SnsLink
  | .arrive time p =>
    if s.Due time ∧ p.size < 4294967296 then
      some { s with now := time, queue := s.queue.packetQueuing K time p }
    else none
  | .process id =>
    (s.queue.events.take? id).bind fun (e, q) =>
      if s.Due e.time then some (s.processed K id e q) else none

def machine : Machine SnsLink SnsLinkAct := ⟨init, next K⟩

end SnsLink

/-- When the link is busy with a packet. -/
def Transmission.times (x : Transmission) : Set Time := Set.Ico x.start x.finish

instance : DecidableRel fun x y : Transmission => Disjoint x.times y.times := fun x y =>
  decidable_of_iff (min x.finish y.finish ≤ max x.start y.start) Set.Ico_disjoint_Ico.symm

namespace SnsLink

/-- At most one `QueueProcessingEvent` is pending, `busy` says whether there is one, and no two
packets were on the link at once. -/
def SingleServer (s : SnsLink) : Prop :=
  s.queue.services.length ≤ 1 ∧ (s.queue.busy = true ↔ s.queue.services.length = 1) ∧
    s.log.Pairwise fun x y => Disjoint x.times y.times

/-- A `SnsQueueProcessingEvent` that lets a SIM go finds the queue pointing to its
`QueueProcessingEvent`. -/
def ReleasesToServed (s : SnsLink) : SnsLinkAct → Prop
  | .process id => ∀ e q, s.queue.events.take? id = some (e, q) → e.kind = .snsQueueProcessing →
      1 ≤ s.queue.freeTokens → s.queue.simPackets ≠ [] → s.queue.queueProcEvent ≠ none
  | .arrive .. => True

structure Served (s : SnsLink) : Prop where
  tracks : s.queue.events.Tracks .queueProcessing s.queue.queueProcEvent
  fresh : s.queue.events.Fresh
  busy : s.queue.busy = s.queue.queueProcEvent.isSome
  disjoint : s.log.Pairwise fun x y => Disjoint x.times y.times
  idle : s.queue.queueProcEvent = none → ∀ x ∈ s.log, x.finish ≤ s.now
  serving : ∀ e ∈ s.queue.services, s.now ≤ e.time → ∀ x ∈ s.log, x.finish ≤ e.time

variable {K : SnsQueueSpec} {s t : SnsLink} {a : SnsLinkAct}

/-- **What a step can do.** -/
theorem next_cases (h : next K s a = some t) :
    (∃ time p, a = .arrive time p ∧ p.size < 4294967296 ∧ s.Due time ∧
      t = { s with now := time, queue := s.queue.packetQueuing K time p }) ∨
    (∃ id e q, a = .process id ∧ s.queue.events.take? id = some (e, q) ∧ s.Due e.time ∧
      t = s.processed K id e q) := by
  cases a with
  | arrive time p =>
    obtain ⟨hdue, h⟩ := Option.ite_none_right_eq_some.mp h
    exact .inl ⟨time, p, rfl, hdue.2, hdue.1, (Option.some.inj h).symm⟩
  | process id =>
    obtain ⟨⟨e, q⟩, hq, h⟩ := Option.bind_eq_some_iff.mp h
    obtain ⟨hdue, h⟩ := Option.ite_none_right_eq_some.mp h
    exact .inr ⟨id, e, q, rfl, hq, hdue, (Option.some.inj h).symm⟩

lemma Served.singleServer (hS : Served s) : s.SingleServer := by
  refine ⟨hS.tracks.length_le, ?_, hS.disjoint⟩
  rw [hS.busy]
  exact hS.tracks.length_eq_one_iff.symm

lemma Served.free (hS : Served s) (hnone : s.queue.queueProcEvent = none) :
    s.queue.services = [] :=
  EventQueue.Tracks.none_iff.mp (hnone ▸ hS.tracks)

lemma Served.same {Q : SnsQueue} {now : Time} (hS : Served s) (hQ : s.queue.SameServer Q)
    (hnow : s.now ≤ now) : Served ⟨now, Q, s.log⟩ where
  tracks := by
    rw [hQ.queueProcEvent]
    exact hS.tracks.congr hQ.services
  fresh := hQ.fresh hS.fresh
  busy := by rw [hQ.busy, hQ.queueProcEvent, hS.busy]
  disjoint := hS.disjoint
  idle := by
    intro hnone x hx
    have hidle : s.queue.queueProcEvent = none := hQ.queueProcEvent ▸ hnone
    exact (hS.idle hidle x hx).trans hnow
  serving := by
    intro e he hle
    have hmem : e ∈ s.queue.services := hQ.services ▸ he
    exact hS.serving e hmem (hnow.trans hle)

lemma served_newQueueProcEvent {Q : SnsQueue} {now time : Time} {log : List Transmission}
    (hfree : Q.services = []) (hfresh : Q.events.Fresh)
    (hlog : log.Pairwise fun x y => Disjoint x.times y.times)
    (hend : now ≤ time → ∀ x ∈ log, x.finish ≤ time) :
    Served ⟨now, { Q.newQueueProcEvent time with busy := true }, log⟩ := by
  have hone : ({ Q.newQueueProcEvent time with busy := true } : SnsQueue).services =
      [⟨Q.events.count, time, .queueProcessing⟩] := by
    refine SnsQueue.services_newQueueProcEvent (Q := Q) time |>.trans ?_
    rw [hfree]
    rfl
  refine ⟨(EventQueue.Tracks.none_iff.mpr hfree).add time, hfresh.add _ _, rfl, hlog, nofun,
    fun e he hle => ?_⟩
  rw [hone] at he
  obtain rfl := List.mem_singleton.mp he
  exact hend hle

lemma Served.arrive {time : Time} (hS : Served s) (hdue : s.Due time) (p : Packet) :
    Served { s with now := time, queue := s.queue.packetQueuing K time p } := by
  unfold SnsQueue.packetQueuing
  dsimp only
  split_ifs with hbusy
  · exact hS.same .enque hdue.1
  · have hnone : s.queue.queueProcEvent = none := by
      simpa [hS.busy] using hbusy
    have hend : ∀ x ∈ s.log, x.finish ≤ time := by
      intro x hx
      calc x.finish ≤ s.now := hS.idle hnone x hx
        _ ≤ time := hdue.1
    have hstart : Served ⟨time, { s.queue.newQueueProcEvent time with busy := true }, s.log⟩ :=
      served_newQueueProcEvent (hS.free hnone) hS.fresh hS.disjoint fun _ => hend
    exact hstart.same .enque le_rfl

lemma pairwise_append {log : List Transmission} {x : Transmission}
    (hlog : log.Pairwise fun x y => Disjoint x.times y.times)
    (hx : ∀ y ∈ log, y.finish ≤ x.start) :
    (log ++ [x]).Pairwise fun x y => Disjoint x.times y.times := by
  refine List.pairwise_append.mpr ⟨hlog, List.pairwise_singleton _ _, fun y hy z hz => ?_⟩
  obtain rfl := List.mem_singleton.mp hz
  refine Set.Ico_disjoint_Ico.mpr ?_
  calc min y.finish z.finish ≤ y.finish := min_le_left _ _
    _ ≤ z.start := hx y hy
    _ ≤ max y.start z.start := le_max_right _ _

lemma Served.queueProcessing {id : ℕ} {e : QueuedEvent Time QueueEvent}
    {q : EventQueue Time QueueEvent} (hS : Served s)
    (hq : s.queue.events.take? id = some (e, q)) (he : e.kind = .queueProcessing)
    (hdue : s.Due e.time) : Served (s.processed K id e q) := by
  obtain ⟨hone, hfree⟩ := hS.tracks.take? hq he
  obtain ⟨hlt, hfresh⟩ := hS.fresh.take? hq
  have hcount := EventQueue.take?_count hq
  have hmem : e ∈ s.queue.services := by
    unfold SnsQueue.services
    rw [hone]
    exact List.mem_singleton_self e
  have hend : ∀ x ∈ s.log, x.finish ≤ e.time := hS.serving e hmem hdue.1
  unfold processed
  rw [he]
  unfold SnsQueue.process
  rcases SnsQueue.queueProcessing_cases K { s.queue with events := q } e.time with
    ⟨p, R, hR, hr⟩ | hr
  · have hnew : some R.events.count ≠ some id := by simpa [hR, hcount] using hlt.ne'
    have hkeep : ({ R.newQueueProcEvent (e.time + K.getTransmissionDelay p) with
        busy := true } : SnsQueue).destroyQueueProcEvent id =
        { R.newQueueProcEvent (e.time + K.getTransmissionDelay p) with busy := true } :=
      if_neg hnew
    simp only [hr, hkeep]
    refine served_newQueueProcEvent ?_ (hR ▸ hfresh) (pairwise_append hS.disjoint hend) ?_
    · rw [SnsQueue.services, hR]
      exact hfree
    · intro hle x hx
      rcases List.mem_append.mp hx with hx | hx
      · exact (hend x hx).trans hle
      · obtain rfl := List.mem_singleton.mp hx
        exact le_rfl
  · simp only [hr, SnsQueue.destroyQueueProcEvent, reduceCtorEq, if_false, Option.toList_none,
      List.append_nil]
    refine ⟨?_, hfresh, rfl, hS.disjoint, fun _ => hend, fun e' he' => ?_⟩
    · exact EventQueue.Tracks.none_iff.mpr hfree
    · have hmem : e' ∈ q.ofKind .queueProcessing := he'
      rw [hfree] at hmem
      exact absurd hmem List.not_mem_nil

lemma Served.next (hS : Served s) (hC : s.ReleasesToServed a) (h : next K s a = some t) :
    Served t := by
  rcases next_cases h with ⟨time, p, rfl, -, hdue, rfl⟩ | ⟨id, e, q, rfl, hq, hdue, rfl⟩
  · exact hS.arrive hdue p
  · by_cases he : e.kind = .queueProcessing
    · exact hS.queueProcessing hq he hdue
    · have htake := SnsQueue.SameServer.take? hq he
      unfold processed
      cases hk : e.kind with
      | queueProcessing => exact absurd hk he
      | fillTokenBucket =>
        simp only [SnsQueue.process, Option.toList_none, List.append_nil]
        exact hS.same (htake.trans .fillTokenBucket) hdue.1
      | snsQueueProcessing =>
        simp only [SnsQueue.process, Option.toList_none, List.append_nil]
        rcases SnsQueue.snsQueueProcessing_cases K { s.queue with events := q } e.time with
          ⟨-, hr⟩ | ⟨-, -, -, hr⟩ | ⟨htokens, hsims, hnone, -⟩
        · rw [hr]
          exact hS.same htake hdue.1
        · exact hS.same (htake.trans hr) hdue.1
        · exact absurd hnone (hC e q hq hk htokens hsims)

lemma Served.not_singleServer_next (hS : Served s) (hC : ¬ s.ReleasesToServed a)
    (h : SnsLink.next K s a = some t) : ¬ t.SingleServer := by
  rcases next_cases h with ⟨time, p, rfl, -, -, rfl⟩ | ⟨id, e, q, rfl, hq, -, rfl⟩
  · exact absurd trivial hC
  · simp only [ReleasesToServed, hq] at hC
    push Not at hC
    obtain ⟨e', q', heq, hk, htokens, hsims, hnone⟩ := hC
    obtain ⟨rfl, rfl⟩ := Prod.mk.inj (Option.some.inj heq)
    -- the new service is the only one, but `busy` is still what it was
    have htake := SnsQueue.SameServer.take? hq (by simp [hk])
    rcases SnsQueue.snsQueueProcessing_cases K { s.queue with events := q } e.time with
      ⟨hno, -⟩ | ⟨-, -, hsome, -⟩ | ⟨-, -, -, R, time, hR, hr⟩
    · exact absurd ⟨htokens, hsims⟩ hno
    · exact absurd hnone hsome
    · unfold processed
      rw [hk]
      simp only [SnsQueue.process, hr]
      have hbusy : R.busy = false := by
        rw [(htake.trans hR).busy, hS.busy, hnone]
        rfl
      have hone : (R.newQueueProcEvent time).services.length = 1 := by
        rw [SnsQueue.services_newQueueProcEvent, (htake.trans hR).services, hS.free hnone]
        rfl
      exact fun hP => absurd ((hP.2.1.mpr hone).symm.trans hbusy) nofun

/-- **The link is a single server** as long as a SIM is only ever let go while the queue points
to its `QueueProcessingEvent`; the first that is let go to an idle queue ends that. -/
theorem singleServer_iff (as : List SnsLinkAct) :
    Always (machine K) SingleServer init as ↔ Along (machine K) ReleasesToServed init as :=
  always_iff_along (M := machine K) Served.singleServer (fun hS hC ht => hS.next hC ht)
    (fun hS hC ht => hS.not_singleServer_next hC ht) as
    ⟨.empty, EventQueue.fresh_empty, rfl, .nil, fun _ _ hx => (nomatch hx),
      fun _ he => (nomatch he)⟩

/-! ### What the queue holds -/

lemma counted_next (hQ : s.queue.Counted) (h : next K s a = some t) : t.queue.Counted := by
  rcases next_cases h with ⟨time, p, -, hp, -, rfl⟩ | ⟨id, e, q, -, -, -, rfl⟩
  · exact hQ.packetQueuing hp
  · have hq : ({ s.queue with events := q } : SnsQueue).Counted :=
      ⟨hQ.bytes, hQ.size, hQ.simSize⟩
    exact hq.process id e.kind

/-- **A queue that holds bytes has a packet to send**: `deque` never reads an empty one. -/
theorem deque_eq_none_iff (hs : Reach (machine K) s) :
    s.queue.deque = none ↔ s.queue.bytesInQueue = 0 := by
  have hQ : s.queue.Counted :=
    hs.inv (I := fun s => s.queue.Counted) ⟨rfl, nofun, nofun⟩ fun _ hI hn => counted_next hI hn
  exact hQ.deque_eq_none_iff

/-! ### Two services at once -/

/-- A queue of the link at 100 Gb/s, with room for twelve SIMs. -/
def exampleQueue : SnsQueueSpec where
  params := exampleParams 1
  snsFlow := true
  paramB := 12
  rate := 100000000000
  limitBytes := 36864

/-- A SIM arrives and is let go at the next token, to the idle queue; a nanosecond later a data
packet arrives. -/
def overlappingRun : List SnsLinkAct :=
  [.arrive 1 (snsPacket exampleQueue.params .sim 1 0 0 0 40 0 1 (-1) 0), .process 0, .process 2,
    .process 1, .process 4,
    .arrive (1000000001 / 1000000000)
      (snsPacket exampleQueue.params .data 1 0 0 0 1500 0 1 (-1) 0), .process 6, .process 5]

/-- The SIM and the data packet are on the link at once. -/
theorem not_singleServer :
    ¬ Always (machine exampleQueue) SingleServer init overlappingRun := by
  have hrun : (exec (machine exampleQueue) init overlappingRun).any (fun s =>
      ¬ s.log.Pairwise fun x y => Disjoint x.times y.times) = true := by
    decide +kernel
  obtain ⟨s, hs, hoverlap⟩ := exists_exec_of_any hrun
  exact fun halways => hoverlap (halways.last hs).2.2

end SnsLink

end DcSim
