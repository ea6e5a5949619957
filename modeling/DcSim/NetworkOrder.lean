import DcSim.NetworkDrain
import DcSim.Routing

/-!
The order of packets that go one way.

The packets of a flow that is hashed to one port go through the same queues. They arrive in the
order in which the first of these queues got them, although some may be missing: a queue takes the
packets in the order they came, and the event that hands one on is always earlier than that of the
next, with cut-through as well, since the link is still busy when the header is through.
-/

namespace DcSim.Network

open Runs Routing

variable {Q : Type} [DecidableEq Q] {σ : NetworkSpec Q} {s t : Network Q} {p : Packet} {q : Q}
  {a : NetworkAct}

/-! ### What is on its way to one place -/

/-- The events that hand packets of a kind on to a queue, or to the end of their way. -/
def heading (c : Packet → Bool) (hop : Option Q) (events : EventQueue Time (NetworkAction Q)) :
    List (QueuedEvent Time (NetworkAction Q)) :=
  events.events.filter fun e => e.kind.packet?.any c ∧ e.kind.queue? = hop

def sent (c : Packet → Bool) (hop : Option Q) (events : EventQueue Time (NetworkAction Q)) :
    List Packet :=
  (heading c hop events).filterMap (·.kind.packet?)

section Heading

variable {c : Packet → Bool} {hop : Option Q} {events : EventQueue Time (NetworkAction Q)}
  {e : QueuedEvent Time (NetworkAction Q)} {id : ℕ}

lemma heading_add (time : Time) {action : NetworkAction Q}
    (h : action.packet?.any c = true ∧ action.queue? = hop) :
    heading c hop (events.add time action) =
      heading c hop events ++ [⟨events.count, time, action⟩] := by
  simp [heading, EventQueue.add, h]

lemma heading_add_ne (time : Time) {action : NetworkAction Q}
    (h : action.packet?.any c = true → action.queue? ≠ hop) :
    heading c hop (events.add time action) = heading c hop events := by
  simpa [heading, EventQueue.add] using h

@[simp] lemma heading_add_processing (time : Time) (q : Q) :
    heading c hop (events.add time (.queueProcessing q)) = heading c hop events :=
  heading_add_ne time (by simp [NetworkAction.packet?])

@[simp] lemma heading_begin (q : Q) :
    heading c hop (s.begin q).events = heading c hop s.events := by
  unfold Network.begin
  split_ifs
  · rfl
  · exact heading_add_processing s.now q

lemma heading_take_ne (htake : s.events.take? id = some (e, events))
    (h : e.kind.packet?.any c = true → e.kind.queue? ≠ hop) :
    heading c hop events = heading c hop s.events := by
  obtain ⟨-, l, r, hevents, rfl⟩ := EventQueue.take?_eq_some htake
  unfold heading
  rw [hevents, List.filter_append, List.filter_append, List.filter_cons_of_neg (by simpa using h)]

lemma heading_take (htake : s.events.take? id = some (e, events))
    (h : e.kind.packet?.any c = true ∧ e.kind.queue? = hop) :
    ∃ l r, heading c hop s.events = l ++ e :: r ∧ heading c hop events = l ++ r := by
  obtain ⟨-, l, r, hevents, rfl⟩ := EventQueue.take?_eq_some htake
  unfold heading
  rw [hevents, List.filter_append, List.filter_append, List.filter_cons_of_pos (by simpa using h)]
  exact ⟨_, _, rfl, rfl⟩

lemma heading_take_sublist (htake : s.events.take? id = some (e, events)) :
    (heading c hop events).Sublist (heading c hop s.events) := by
  obtain ⟨-, l, r, hevents, rfl⟩ := EventQueue.take?_eq_some htake
  unfold heading
  rw [hevents]
  exact ((List.sublist_cons_self e r).append_left l).filter _

lemma heading_take_head (htake : s.events.take? id = some (e, events))
    (hnone : s.events.NoneBefore e.time)
    (hsorted : (heading c hop s.events).Pairwise (·.time < ·.time))
    (h : e.kind.packet?.any c = true ∧ e.kind.queue? = hop) :
    heading c hop s.events = e :: heading c hop events := by
  obtain ⟨l, r, hl, hr⟩ := heading_take htake h
  have hfirst : l = [] := by
    refine List.eq_nil_iff_forall_not_mem.2 fun e' he' => ?_
    have hlt : e'.time < e.time := by
      rw [hl] at hsorted
      exact (List.pairwise_append.1 hsorted).2.2 e' he' e (List.mem_cons_self ..)
    have hmem : e' ∈ heading c hop s.events := hl ▸ List.mem_append_left _ he'
    exact absurd (hnone e' (List.mem_of_mem_filter hmem)) (not_le.2 hlt)
  rw [hl, hr, hfirst, List.nil_append, List.nil_append]

end Heading

/-! ### The times of the events -/

/-- The link of a queue is free by a time. -/
def FreeBy (s : Network Q) (q : Q) (t₀ : Time) : Prop :=
  s.now ≤ t₀ ∧ ∀ e ∈ s.events.events, e.kind = .queueProcessing q → e.time ≤ t₀

lemma mem_begin_of_mem {e : QueuedEvent Time (NetworkAction Q)} (h : e ∈ s.events.events) (q : Q) :
    e ∈ (s.begin q).events.events := by
  unfold Network.begin
  split_ifs
  · exact h
  · exact EventQueue.mem_add.2 (.inl h)

omit [DecidableEq Q] in
lemma Timely.freeBy (h : Timely σ s) {id : ℕ} {e : QueuedEvent Time (NetworkAction Q)}
    {events : EventQueue Time (NetworkAction Q)} (htake : s.events.take? id = some (e, events))
    {t₀ : Time} (ht : FreeBy (s.after e events) q t₀) : FreeBy s q t₀ := by
  have he : e ∈ s.events.events := EventQueue.taken_mem htake
  refine ⟨(h.notBefore e he).trans ht.1, fun e' he' hkind' => ?_⟩
  by_cases heq : e' = e
  · exact heq ▸ ht.1
  · exact ht.2 e' (EventQueue.mem_take?_of_ne htake he' heq) hkind'

lemma Serves.freeBy (h : Serves σ s q) : FreeBy s q s.now := by
  refine ⟨le_rfl, fun e he hkind => ?_⟩
  have hmem : e ∈ s.events.ofKind (.queueProcessing q) :=
    List.mem_filter.2 ⟨he, by simpa using hkind⟩
  rw [h.none] at hmem
  exact absurd hmem List.not_mem_nil

lemma Step.freeBy (hstep : Step σ s a t) (h : Sound σ s) {t₀ : Time} (ht : FreeBy t q t₀) :
    FreeBy s q t₀ := by
  cases hstep with
  | inject htime =>
    exact ⟨htime.trans ht.1, fun e he hkind => ht.2 e (EventQueue.mem_add.2 (.inl he)) hkind⟩
  | @queuing id lost e events p q' htake =>
    have hnow : e.time ≤ t₀ := by
      have hnow : ((s.after e events).begin q').now ≤ t₀ := ht.1
      rwa [begin_now] at hnow
    exact h.freeBy htake ⟨hnow, fun e' he' =>
      ht.2 e' (mem_begin_of_mem (s := s.after e events) he' q')⟩
  | arrival htake => exact h.freeBy htake ht
  | rest htake => exact h.freeBy htake ht
  | transmit htake =>
    refine h.freeBy htake ⟨ht.1, fun e' he' hkind' => ht.2 e' ?_ hkind'⟩
    rw [transmit_events]
    exact EventQueue.mem_add.2 (.inl (EventQueue.mem_add.2 (.inl he')))

variable (σ) in
structure Spaced (c : Packet → Bool) (q : Q) (hop : Option Q) (s : Network Q) : Prop where
  sorted : (heading c hop s.events).Pairwise (·.time < ·.time)
  before : ∀ t₀, FreeBy s q t₀ → ∀ e ∈ heading c hop s.events, ∀ p : Packet, 0 < p.size →
    e.time < t₀ + σ.handingDelay q p hop

omit [DecidableEq Q] in
lemma handingDelay_lt {p' : Packet} (hp : 0 < p.size) (hp' : 0 < p'.size) (hop : Option Q) :
    σ.handingDelay q p hop <
      σ.getTransmissionDelay q p.size + σ.handingDelay q p' hop := by
  have hpos : ∀ {size : ℕ}, 0 < size → 0 < σ.getTransmissionDelay q size := fun hsize =>
    div_pos (by positivity) (σ.rate_pos q)
  have htd := hpos hp
  have htd' := hpos hp'
  unfold NetworkSpec.handingDelay
  split_ifs <;> linarith

section Spaced

variable {c : Packet → Bool} {hop : Option Q}

lemma Spaced.of_sublist (h : Spaced σ c q hop s)
    (hsub : (heading c hop t.events).Sublist (heading c hop s.events))
    (hfree : ∀ {t₀}, FreeBy t q t₀ → FreeBy s q t₀) : Spaced σ c q hop t :=
  ⟨h.sorted.sublist hsub, fun t₀ ht e he => h.before t₀ (hfree ht) e (hsub.subset he)⟩

lemma Spaced.transmit (h : Spaced σ c q hop s) (hp : c p = true) (hsize : 0 < p.size)
    (hfree : FreeBy s q s.now) (n : ℕ) : Spaced σ c q hop (s.transmit σ q p n hop) := by
  have hheading : heading c hop (s.transmit σ q p n hop).events =
      heading c hop s.events ++
        [⟨s.events.count + 1, s.now + σ.handingDelay q p hop, .handing p hop⟩] := by
    rw [transmit_events, heading_add _ (by simp [hp]), heading_add_processing]
    rfl
  refine ⟨?_, fun t₀ ht e he p' hp' => ?_⟩
  · rw [hheading, List.pairwise_append]
    refine ⟨h.sorted, List.pairwise_singleton .., fun e he e' he' => ?_⟩
    obtain rfl := List.mem_singleton.1 he'
    exact h.before s.now hfree e he p hsize
  · have hbusy : s.now + σ.getTransmissionDelay q p.size ≤ t₀ :=
      ht.2 ⟨s.events.count, _, .queueProcessing q⟩ (by
        rw [transmit_events]
        exact EventQueue.mem_add.2 (.inl (EventQueue.mem_add.2 (.inr rfl)))) rfl
    have hlt := handingDelay_lt (σ := σ) (q := q) hsize hp' hop
    have hlast : s.now + σ.handingDelay q p hop < t₀ + σ.handingDelay q p' hop := by linarith
    rw [hheading] at he
    rcases List.mem_append.1 he with he | he
    · exact (h.before s.now hfree e he p hsize).trans hlast
    · obtain rfl := List.mem_singleton.1 he
      exact hlast

end Spaced

/-! ### One way -/

structure OneWay (σ : NetworkSpec Q) (c : Packet → Bool) (f : Q → Option (Option Q)) (q₀ : Q)
    (qs : List Q) : Prop where
  chain : Chain f q₀ qs
  nodup : qs.Nodup
  start : ∀ p : Packet, c p = true → σ.hostQueue p.src = q₀
  goes : ∀ p, c p = true → ∀ q ∈ qs, ∀ n n' hop, σ.getNextHop n p q = some (n', hop) →
    f q = some hop
  fifo : ∀ q ∈ qs, (σ.queue q).Fifo

def OnWay (c : Packet → Bool) (qs : List Q) (p : Packet) (q : Q) : Prop :=
  c p = true → q ∈ qs ∧ 0 < p.size

section OneWay

variable {c : Packet → Bool} {f : Q → Option (Option Q)} {q₀ : Q} {qs : List Q}
  {hop : Option Q} (hway : OneWay σ c f q₀ qs)
include hway

omit [DecidableEq Q] in
lemma OneWay.ne_start (hq : q ∈ qs) (hf : f q = some hop) : hop ≠ some q₀ := by
  rintro rfl
  obtain ⟨rest, rfl, -⟩ := hway.chain.head
  exact (List.nodup_cons.1 hway.nodup).1 (hway.chain.next_mem_tail hq hf)

lemma OneWay.holds (hs : Reach (machine σ) s)
    (hsize : ∀ p ∈ s.injected, c p = true → 0 < p.size) : Holds (OnWay c qs) s := by
  refine holds_of_reach hs (fun p hp hc => ⟨?_, hsize p hp hc⟩) fun {n p q n' r} h hnext hc => ?_
  · exact hway.start p hc ▸ hway.chain.mem
  · obtain ⟨hq, hsize⟩ := h hc
    exact ⟨hway.chain.next_mem hq (hway.goes p hc q hq _ _ _ hnext), hsize⟩

/-- **What a step does to the events towards one place**: they stay apart. -/
lemma OneWay.spaced (hstep : Step σ s a t) (h : Sound σ s) (hon : Holds (OnWay c qs) s)
    (hq : q ∈ qs) (hf : f q = some hop) (hs : Spaced σ c q hop s) : Spaced σ c q hop t := by
  have hfree : ∀ {t₀}, FreeBy t q t₀ → FreeBy s q t₀ := fun ht => hstep.freeBy h ht
  cases hstep with
  | inject =>
    refine hs.of_sublist ?_ hfree
    rw [inject, addEvent_events, heading_add_ne _ fun hc hhop => ?_]
    have hc : c _ = true := hc
    exact hway.ne_start hq hf (hway.start _ hc ▸ hhop.symm)
  | queuing htake =>
    refine hs.of_sublist ?_ hfree
    rw [packetQueuing_events, heading_begin]
    exact heading_take_sublist htake
  | arrival htake => exact hs.of_sublist (heading_take_sublist htake) hfree
  | rest htake => exact hs.of_sublist (heading_take_sublist htake) hfree
  | @transmit id lost e events r p ps n hop' htake hnone hkind hps hhop' =>
    obtain ⟨u, hu⟩ : ∃ u, u = (s.after e events).setQueue r
      { s.queues r with queue := (s.queues r).queue.depart (p, ps) } := ⟨_, rfl⟩
    have hevents : u.events = events := hu ▸ rfl
    have hsub : (heading c hop u.events).Sublist (heading c hop s.events) :=
      hevents ▸ heading_take_sublist htake
    rw [← hu] at hfree ⊢
    by_cases hmine : c p = true ∧ hop' = hop
    · obtain ⟨hc, rfl⟩ := hmine
      have hp : p ∈ (s.queues r).queue.packets :=
        (PacketQueue.take_perm hps).mem_iff.2 (List.mem_cons_self ..)
      obtain ⟨hr, hsize⟩ := hon.queued r p hp hc
      obtain rfl : r = q :=
        hway.chain.next_inj hway.nodup hr hq ((hway.goes p hc r hr _ _ _ hhop').trans hf.symm)
      -- the only event of the link has been taken
      have hnow : FreeBy u r u.now := hu ▸ (h.serves htake hnone hkind).freeBy
      have hu' : Spaced σ c r hop' u := hs.of_sublist hsub fun ht =>
        h.freeBy htake ⟨by rw [hu] at ht; exact ht.1, fun e' he' => ht.2 e' (hevents ▸ he')⟩
      exact hu'.transmit hc hsize hnow n
    · refine hs.of_sublist ?_ hfree
      rw [transmit_events, heading_add_ne _ fun hc hhop => ?_, heading_add_processing]
      · exact hsub
      · exact hmine ⟨by simpa using hc, by simpa using hhop⟩

end OneWay

/-! ### The packets of the way, one behind the other -/

/-- The packets of a kind that wait in a queue. -/
def queued (c : Packet → Bool) (s : Network Q) (q : Q) : List Packet :=
  (s.queues q).queue.packets.filter c

/-- The packets of a kind that have arrived, that are on their way and that wait, the foremost
first. -/
def line (c : Packet → Bool) (s : Network Q) : List Q → List Packet
  | [] => s.delivered.filter c
  | q :: qs => line c s qs ++ (sent c qs.head? s.events ++ queued c s q)

/-- Those in front of what waits in the queue before. -/
def ahead (c : Packet → Bool) (s : Network Q) : List Q → List Packet
  | [] => s.delivered.filter c ++ sent c none s.events
  | q :: qs => ahead c s qs ++ (queued c s q ++ sent c (some q) s.events)

section Line

variable {c : Packet → Bool} {f : Q → Option (Option Q)} {q₀ : Q} {qs : List Q}

omit [DecidableEq Q] in
lemma line_append_sent [DecidableEq Q] (qs : List Q) :
    line c s qs ++ sent c qs.head? s.events = ahead c s qs := by
  induction qs with
  | nil => rfl
  | cons q qs ih =>
    rw [line, ahead, ← ih]
    simp only [List.head?_cons, List.append_assoc]

lemma line_cons (q : Q) (qs : List Q) : line c s (q :: qs) = ahead c s qs ++ queued c s q := by
  rw [line, ← List.append_assoc, line_append_sent]

lemma line_congr (h : Chain f q₀ qs) (hdelivered : t.delivered = s.delivered)
    (hpiece : ∀ q ∈ qs, ∀ hop, f q = some hop →
      sent c hop t.events ++ queued c t q = sent c hop s.events ++ queued c s q) :
    line c t qs = line c s qs := by
  induction h with
  | last hq =>
    simp only [line, hdelivered]
    rw [List.head?_nil, hpiece _ (List.mem_cons_self ..) _ hq]
  | @cons q r qs hq hrest ih =>
    obtain ⟨rest, rfl, -⟩ := hrest.head
    have hrest := ih fun q hq => hpiece q (List.mem_cons_of_mem _ hq)
    change line c t (r :: rest) ++ _ = line c s (r :: rest) ++ _
    rw [hrest, hpiece q (List.mem_cons_self ..) (r :: rest).head? hq]

lemma ahead_sublist (hnone : (t.delivered.filter c ++ sent c none t.events).Sublist
      (s.delivered.filter c ++ sent c none s.events))
    (hpiece : ∀ q ∈ qs, (queued c t q ++ sent c (some q) t.events).Sublist
      (queued c s q ++ sent c (some q) s.events)) : (ahead c t qs).Sublist (ahead c s qs) := by
  induction qs with
  | nil => exact hnone
  | cons q qs ih =>
    exact (ih fun q hq => hpiece q (List.mem_cons_of_mem _ hq)).append
      (hpiece q (List.mem_cons_self ..))

lemma queued_queuing_ne {e : QueuedEvent Time (NetworkAction Q)}
    {events : EventQueue Time (NetworkAction Q)} {r : Q} (lost : Bool) (hq : q ≠ r) :
    queued c ((s.after e events).packetQueuing σ p r lost) q = queued c s q := by
  unfold queued
  rw [packetQueuing_queue, if_neg hq]
  rfl

lemma sent_queuing {id : ℕ} {e : QueuedEvent Time (NetworkAction Q)}
    {events : EventQueue Time (NetworkAction Q)} (htake : s.events.take? id = some (e, events))
    {r : Q} (hkind : e.kind = .packetQueuing p r) (lost : Bool) {hop : Option Q}
    (hhop : c p = true → hop ≠ some r) :
    sent c hop ((s.after e events).packetQueuing σ p r lost).events = sent c hop s.events := by
  unfold sent
  rw [packetQueuing_events, heading_begin]
  exact congrArg _ (heading_take_ne htake fun hc => by
    have hc : c p = true := by simpa [hkind, NetworkAction.packet?] using hc
    simpa [hkind, NetworkAction.queue?] using (hhop hc).symm)

variable (hway : OneWay σ c f q₀ qs)
include hway

lemma OneWay.line_same (hs : (line c s qs).Sublist ((s.queues q₀).arrived.filter c))
    (hdelivered : t.delivered = s.delivered)
    (harrived : (t.queues q₀).arrived.filter c = (s.queues q₀).arrived.filter c)
    (hpiece : ∀ q ∈ qs, ∀ hop, f q = some hop →
      sent c hop t.events ++ queued c t q = sent c hop s.events ++ queued c s q) :
    (line c t qs).Sublist ((t.queues q₀).arrived.filter c) := by
  rw [line_congr hway.chain hdelivered hpiece, harrived]
  exact hs

lemma OneWay.piece_transmit (hon : Holds (OnWay c qs) s) {id : ℕ}
    {e : QueuedEvent Time (NetworkAction Q)} {events : EventQueue Time (NetworkAction Q)}
    (htake : s.events.take? id = some (e, events)) {r : Q} (hkind : e.kind = .queueProcessing r)
    {ps : List Packet}
    (hps : PacketQueue.take (σ.queue r) (s.queues r).queue.packets = some (p, ps)) {n : ℕ}
    {hop' : Option Q}
    (hhop' : σ.getNextHop (s.queues r).sprayCounter p r = some (n, hop')) (hq : q ∈ qs)
    (hf : f q = some hop) {u : Network Q} (hu : u = (s.after e events).setQueue r
      { s.queues r with queue := (s.queues r).queue.depart (p, ps) }) :
    sent c hop (u.transmit σ r p n hop').events ++ queued c (u.transmit σ r p n hop') q =
      sent c hop s.events ++ queued c s q := by
  have hqueued : ∀ q', queued c (u.transmit σ r p n hop') q' =
      if q' = r then ps.filter c else queued c s q' := by
    intro q'
    unfold queued
    rw [transmit_queue, hu, setQueue_queue]
    split_ifs <;> rfl
  have hheading : heading c hop u.events = heading c hop s.events :=
    hu ▸ heading_take_ne htake (by simp [hkind, NetworkAction.packet?])
  have hsent : ¬ (c p = true ∧ hop' = hop) →
      sent c hop (u.transmit σ r p n hop').events = sent c hop s.events := by
    intro hne
    unfold sent
    rw [transmit_events, heading_add_ne _ fun hc hhop => hne ⟨by simpa using hc,
      by simpa using hhop⟩, heading_add_processing, hheading]
  rw [hqueued]
  by_cases hr : q = r
  · subst hr
    have hfirst : (s.queues q).queue.packets = p :: ps :=
      (PacketQueue.fifo_take (hway.fifo q hq)).1 hps
    rw [if_pos rfl]
    unfold queued
    rw [hfirst]
    by_cases hc : c p = true
    · obtain rfl : hop' = hop :=
        (Option.some.inj (hf.symm.trans (hway.goes p hc q hq _ _ _ hhop'))).symm
      unfold sent
      rw [transmit_events, heading_add _ (by simp [hc]), heading_add_processing, hheading,
        List.filterMap_append, List.filter_cons_of_pos hc]
      simp
    · rw [hsent fun h => hc h.1, List.filter_cons_of_neg hc]
  · rw [if_neg hr, hsent fun hp => ?_]
    obtain ⟨hc, hhop⟩ := hp
    have hp : p ∈ (s.queues r).queue.packets :=
      (PacketQueue.take_perm hps).mem_iff.2 (List.mem_cons_self ..)
    have hmem : r ∈ qs := (hon.queued r p hp hc).1
    have hnext : f r = some hop := hhop ▸ hway.goes p hc r hmem _ _ _ hhop'
    exact hr (hway.chain.next_inj hway.nodup hq hmem (hf.trans hnext.symm))

lemma OneWay.in_line_arrival (hspaced : ∀ q ∈ qs, ∀ hop, f q = some hop → Spaced σ c q hop s)
    (hs : (line c s qs).Sublist ((s.queues q₀).arrived.filter c)) {id : ℕ}
    {e : QueuedEvent Time (NetworkAction Q)} {events : EventQueue Time (NetworkAction Q)}
    (htake : s.events.take? id = some (e, events)) (hnone : s.events.NoneBefore e.time)
    (hkind : e.kind = .packetArrival p) :
    (line c { s.after e events with delivered := s.delivered ++ [p] } qs).Sublist
      ((s.queues q₀).arrived.filter c) := by
  obtain ⟨rest, rfl, -⟩ := hway.chain.head
  rw [line_cons] at hs ⊢
  refine ((ahead_sublist ?_ fun q hq => ?_).append_right _).trans hs
  · obtain ⟨q, hq, hf⟩ := hway.chain.exists_last
    by_cases hc : c p = true
    · have hhead : heading c none s.events = e :: heading c none events :=
        heading_take_head htake hnone (hspaced q hq none hf).sorted
          (by simp [hkind, NetworkAction.packet?, NetworkAction.queue?, hc])
      unfold sent
      rw [hhead, List.filter_append, List.append_assoc,
        List.filterMap_cons_some (by rw [hkind]; rfl)]
      simp [hc, after]
    · have hsame : heading c none events = heading c none s.events :=
        heading_take_ne htake (by simp [hkind, NetworkAction.packet?, hc])
      unfold sent
      rw [List.filter_append]
      simp [hc, after, hsame]
  · have hsame : heading c (some q) events = heading c (some q) s.events :=
      heading_take_ne htake (by simp [hkind, NetworkAction.queue?])
    unfold sent
    simp [after, hsame, queued]

lemma OneWay.queued_queuing (e : QueuedEvent Time (NetworkAction Q))
    (events : EventQueue Time (NetworkAction Q)) {r : Q} (hr : r ∈ qs) (lost : Bool) :
    queued c ((s.after e events).packetQueuing σ p r lost) r = queued c s r ++ [p].filter c ∨
      queued c ((s.after e events).packetQueuing σ p r lost) r = queued c s r := by
  unfold queued
  rw [packetQueuing_queue, if_pos rfl, ← List.filter_append]
  exact (PacketQueue.fifo_enque (Q := (s.queues r).queue) (p := p) (hway.fifo r hr) lost).imp
    (fun h => congrArg _ h.1) fun h => congrArg _ h.1

lemma OneWay.in_line_queuing (hspaced : ∀ q ∈ qs, ∀ hop, f q = some hop → Spaced σ c q hop s)
    (hs : (line c s qs).Sublist ((s.queues q₀).arrived.filter c)) {id : ℕ}
    {e : QueuedEvent Time (NetworkAction Q)} {events : EventQueue Time (NetworkAction Q)}
    (htake : s.events.take? id = some (e, events)) (hnone : s.events.NoneBefore e.time) {r : Q}
    (hkind : e.kind = .packetQueuing p r) (lost : Bool) (hc : c p = true) (hr : r ∈ qs) :
    (line c ((s.after e events).packetQueuing σ p r lost) qs).Sublist
      ((((s.after e events).packetQueuing σ p r lost).queues q₀).arrived.filter c) := by
  have hthis := hway.queued_queuing (s := s) (p := p) e events hr lost
  obtain ⟨rest, rfl, -⟩ := hway.chain.head
  have hnot : q₀ ∉ rest := (List.nodup_cons.1 hway.nodup).1
  have hbase : ((s.after e events).packetQueuing σ p r lost).delivered.filter c ++
      sent c none ((s.after e events).packetQueuing σ p r lost).events =
        s.delivered.filter c ++ sent c none s.events := by
    rw [sent_queuing htake hkind lost (by simp)]
    exact congrArg (List.filter c · ++ _) (begin_history (s := s.after e events) r).2
  rw [line_cons] at hs ⊢
  rw [packetQueuing_arrived]
  by_cases hfirst : q₀ = r
  · subst hfirst
    rw [if_pos rfl, List.filter_append]
    have hahead : (ahead c ((s.after e events).packetQueuing σ p q₀ lost) rest).Sublist
        (ahead c s rest) := by
      refine ahead_sublist (by rw [hbase]) fun q hq => ?_
      have hne : q ≠ q₀ := fun h => hnot (h ▸ hq)
      rw [queued_queuing_ne lost hne, sent_queuing htake hkind lost fun _ => by simpa using hne]
    refine (hahead.append ?_).trans (List.append_assoc .. ▸ hs.append_right _)
    rcases hthis with h | h
    · rw [h]
    · rw [h]
      exact List.sublist_append_left _ _
  · have hrest : r ∈ rest := (List.mem_cons.1 hr).resolve_left (Ne.symm hfirst)
    rw [if_neg hfirst, queued_queuing_ne lost hfirst]
    refine (List.Sublist.append_right ?_ _).trans hs
    refine ahead_sublist (by rw [hbase]) fun q hq => ?_
    by_cases hqr : q = r
    · subst hqr
      -- the packet was the first one on its way to this queue
      obtain ⟨x, hx, hf⟩ := hway.chain.exists_next hq
      have hhead : heading c (some q) s.events = e :: heading c (some q) events :=
        heading_take_head htake hnone (hspaced x hx _ hf).sorted
          (by simp [hkind, NetworkAction.packet?, NetworkAction.queue?, hc])
      have hsplit : sent c (some q) s.events =
          p :: sent c (some q) ((s.after e events).packetQueuing σ p q lost).events := by
        unfold sent
        rw [hhead, List.filterMap_cons_some (by rw [hkind]; rfl), packetQueuing_events,
          heading_begin]
        rfl
      rw [hsplit]
      rcases hthis with h | h
      · rw [h, List.filter_cons_of_pos hc, List.filter_nil, List.append_assoc]
        rfl
      · rw [h]
        exact (List.sublist_cons_self p _).append_left _
    · rw [queued_queuing_ne lost hqr, sent_queuing htake hkind lost fun _ => by simpa using hqr]

/-- **What a step does to the packets of the way**: they stay behind each other as they came into
the first queue. -/
lemma OneWay.in_line (hstep : Step σ s a t) (hon : Holds (OnWay c qs) s)
    (hspaced : ∀ q ∈ qs, ∀ hop, f q = some hop → Spaced σ c q hop s)
    (hs : (line c s qs).Sublist ((s.queues q₀).arrived.filter c)) :
    (line c t qs).Sublist ((t.queues q₀).arrived.filter c) := by
  cases hstep with
  | @inject time p =>
    refine hway.line_same hs rfl rfl fun q hq hop hf => ?_
    have hheading : heading c hop ({ s with now := time }.inject σ p).events =
        heading c hop s.events := by
      refine heading_add_ne time fun hc hhop => ?_
      exact hway.ne_start hq hf (hway.start p hc ▸ hhop.symm)
    unfold sent
    rw [hheading]
    rfl
  | @rest id lost e events r htake hnone hkind hbytes =>
    refine hway.line_same hs rfl (congrArg _ (rest_arrived ..)) fun q hq hop hf => ?_
    have hheading : heading c hop events = heading c hop s.events :=
      heading_take_ne htake (by simp [hkind, NetworkAction.packet?])
    unfold sent queued
    rw [rest_queue]
    exact congrArg (List.filterMap _ · ++ _) hheading
  | @transmit id lost e events r p ps n hop' htake hnone hkind hps hhop' =>
    refine hway.line_same hs rfl (congrArg _ ?_) fun q hq hop hf =>
      hway.piece_transmit hon htake hkind hps hhop' hq hf rfl
    rw [transmit_arrived]
    by_cases hr : q₀ = r
    · rw [hr, setQueue_self]
    · rw [setQueue_ne _ hr]
      rfl
  | arrival htake hnone hkind => exact hway.in_line_arrival hspaced hs htake hnone hkind
  | @queuing id lost e events p r htake hnone hkind =>
    by_cases hc : c p = true
    · have hr : r ∈ qs := (hon.pending e (EventQueue.taken_mem htake) p r hkind hc).1
      exact hway.in_line_queuing hspaced hs htake hnone hkind lost hc hr
    · refine hway.line_same hs (begin_history (s := s.after e events) r).2 ?_
        fun q hq hop hf => ?_
      · rw [packetQueuing_arrived]
        split_ifs with h
        · rw [← h, List.filter_append]
          simp [hc, after]
        · rfl
      · rw [sent_queuing htake hkind lost fun h => absurd h hc]
        by_cases hqr : q = r
        · subst hqr
          have hthis := hway.queued_queuing (s := s) (p := p) e events hq lost
          have hnil : [p].filter c = [] := by simp [hc]
          rw [hnil, List.append_nil, or_self] at hthis
          rw [hthis]
        · rw [queued_queuing_ne lost hqr]

omit hway in
lemma prefix_line (qs : List Q) : s.delivered.filter c <+: line c s qs := by
  induction qs with
  | nil => exact List.prefix_refl _
  | cons q qs ih => exact ih.trans (List.prefix_append _ _)

lemma OneWay.line_of_reach (hs : Reach (machine σ) s)
    (hsize : ∀ p ∈ s.injected, c p = true → 0 < p.size) :
    (∀ q ∈ qs, ∀ hop, f q = some hop → Spaced σ c q hop s) ∧
      (line c s qs).Sublist ((s.queues q₀).arrived.filter c) := by
  have hinv : (∀ p ∈ s.injected, c p = true → 0 < p.size) →
      (∀ q ∈ qs, ∀ hop, f q = some hop → Spaced σ c q hop s) ∧
        (line c s qs).Sublist ((s.queues q₀).arrived.filter c) := by
    refine hs.inv (I := fun s => (∀ p ∈ s.injected, c p = true → 0 < p.size) →
      (∀ q ∈ qs, ∀ hop, f q = some hop → Spaced σ c q hop s) ∧
        (line c s qs).Sublist ((s.queues q₀).arrived.filter c)) (fun _ => ⟨?_, ?_⟩)
      fun {s t a} hs h hn hsize => ?_
    · refine fun q _ hop _ => ⟨List.Pairwise.nil, fun t₀ _ e he => ?_⟩
      exact absurd he List.not_mem_nil
    · have hnil : ∀ qs, line c (machine σ).init qs = [] := by
        intro qs
        induction qs with
        | nil => rfl
        | cons q qs ih =>
          rw [line, ih]
          rfl
      rw [hnil]
      exact List.nil_sublist _
    · have hsound := sound_of_reach hs
      have hstep := hsound.step hn
      have hold : ∀ p ∈ s.injected, c p = true → 0 < p.size := fun p hp =>
        hsize p (hstep.injected ▸ List.mem_append_left _ hp)
      obtain ⟨hspaced, hline⟩ := h hold
      have hon := hway.holds hs hold
      exact ⟨fun q hq hop hf => hway.spaced hstep hsound hon hq hf (hspaced q hq hop hf),
        hway.in_line hstep hon hspaced hline⟩
  exact hinv hsize

/-- **Packets that go one way arrive in order**: those that have arrived did so in the order in
which the first queue got them. -/
theorem OneWay.in_order (hs : Reach (machine σ) s)
    (hsize : ∀ p ∈ s.injected, c p = true → 0 < p.size) :
    (s.delivered.filter c).Sublist ((s.queues q₀).arrived.filter c) :=
  (prefix_line qs).sublist.trans (hway.line_of_reach hs hsize).2

end Line

end DcSim.Network
