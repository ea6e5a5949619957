import DcSim.NetworkOrder

/-!
How long packets take at least.

A packet that waits in a queue has a way to go, which takes the transmission and the propagation on
each link of it. So a packet that was put in at a time has not arrived before that time and its way
have passed. Packets of several segments that leave one host are sent one after the other: when
all of them are on their way, some segment is as late as the link of the host makes it.
-/

namespace DcSim.Network

open Runs

variable {Q : Type} [DecidableEq Q] {σ : NetworkSpec Q} {s t : Network Q} {p : Packet} {q : Q}
  {a : NetworkAct}

/-! ### The way that is left -/

/-- The time from one queue on, for packets of a kind, is no more than the time to the next queue
and from there on; at the end of the way nothing is left. -/
def Takes (σ : NetworkSpec Q) (c : Packet → Bool) (D : Q → Time) : Prop :=
  ∀ p, c p = true → ∀ q n n' hop, σ.getNextHop n p q = some (n', hop) →
    D q ≤ σ.handingDelay q p hop + hop.elim 0 D

structure Due (c : Packet → Bool) (D : Q → Time) (b : Time) (s : Network Q) : Prop where
  queued : ∀ q, ∀ p ∈ (s.queues q).queue.packets, c p = true → b ≤ s.now + D q
  pending : ∀ e ∈ s.events.events, ∀ p, e.kind.packet? = some p → c p = true →
    b ≤ e.time + e.kind.queue?.elim 0 D
  delivered : ∀ p ∈ s.delivered, c p = true → b ≤ s.now

variable {c : Packet → Bool} {D : Q → Time} {b : Time}

omit [DecidableEq Q] in
lemma Due.later (h : Due c D b s) {time : Time} (htime : s.now ≤ time) :
    Due c D b { s with now := time } where
  queued q p hp hc := (h.queued q p hp hc).trans (by gcongr)
  pending := h.pending
  delivered p hp hc := (h.delivered p hp hc).trans htime

omit [DecidableEq Q] in
lemma Due.take (h : Due c D b s) {id : ℕ} {e : QueuedEvent Time (NetworkAction Q)}
    {events : EventQueue Time (NetworkAction Q)} (htake : s.events.take? id = some (e, events))
    (htime : s.now ≤ e.time) : Due c D b (s.after e events) where
  queued q p hp hc := ((h.later htime).queued q p hp hc :)
  pending e' he' := h.pending e' (EventQueue.mem_of_take? htake he')
  delivered p hp hc := ((h.later htime).delivered p hp hc :)

/-- **What a step does to the time packets are due**: nothing, if those that are put in are not
due earlier. -/
theorem Step.due (hstep : Step σ s a t) (hs : Sound σ s) (htakes : Takes σ c D) (h : Due c D b s)
    (hin : ∀ p ∈ a.packets, c p = true → b ≤ t.now + D (σ.hostQueue p.src)) : Due c D b t := by
  cases hstep with
  | @inject time p htime =>
    have hlater := h.later htime
    refine ⟨hlater.queued, fun e he p' hp' hc => ?_, hlater.delivered⟩
    rcases EventQueue.mem_add.1 he with he | rfl
    · exact hlater.pending e he p' hp' hc
    · obtain rfl : p = p' := Option.some.inj hp'
      exact hin p (List.mem_singleton_self p) hc
  | @queuing id lost e events p q htake hnone hkind =>
    have hafter := h.take htake (hs.notBefore e (EventQueue.taken_mem htake))
    obtain ⟨-, hdelivered⟩ := begin_history (s := s.after e events) q
    have hnow : ((s.after e events).begin q).now = e.time := begin_now q
    refine ⟨fun q' p' hp' hc => ?_, fun e' he' p' hp' hc => ?_, fun p' hp' hc => ?_⟩
    · change b ≤ ((s.after e events).begin q).now + D q'
      rw [hnow]
      rw [packetQueuing_queue] at hp'
      split_ifs at hp' with hq'
      · subst hq'
        have hsub := (PacketQueue.enque_sublist (Q := (s.queues q').queue) (p := p) (σ.not_sns q')
          lost).1
        rcases List.mem_append.1 (hsub.subset hp') with hp' | hp'
        · exact hafter.queued q' p' hp' hc
        · obtain rfl := List.mem_singleton.1 hp'
          have hpending := h.pending e (EventQueue.taken_mem htake) p' (by rw [hkind]; rfl) hc
          rwa [hkind] at hpending
      · exact hafter.queued q' p' hp' hc
    · rcases mem_begin he' with he' | ⟨-, hnew⟩
      · exact hafter.pending e' he' p' hp' hc
      · rw [hnew] at hp'
        exact nomatch hp'
    · change b ≤ ((s.after e events).begin q).now
      rw [hnow]
      exact hafter.delivered p' (hdelivered ▸ hp') hc
  | @arrival id lost e events p htake hnone hkind =>
    have hafter := h.take htake (hs.notBefore e (EventQueue.taken_mem htake))
    refine ⟨hafter.queued, hafter.pending, fun p' hp' hc => ?_⟩
    rcases List.mem_append.1 hp' with hp' | hp'
    · exact hafter.delivered p' hp' hc
    · obtain rfl := List.mem_singleton.1 hp'
      have hpending := h.pending e (EventQueue.taken_mem htake) p' (by rw [hkind]; rfl) hc
      rw [hkind] at hpending
      exact hpending.trans (add_zero e.time).le
  | @rest id lost e events q htake =>
    have hafter := h.take htake (hs.notBefore e (EventQueue.taken_mem htake))
    refine ⟨fun q' p' hp' hc => ?_, hafter.pending, hafter.delivered⟩
    rw [rest_queue] at hp'
    exact hafter.queued q' p' hp' hc
  | @transmit id lost e events q p ps n hop htake hnone hkind hps hhop =>
    have hafter := h.take htake (hs.notBefore e (EventQueue.taken_mem htake))
    have hperm : (s.queues q).queue.packets.Perm (p :: ps) := PacketQueue.take_perm hps
    refine ⟨fun q' p' hp' hc => ?_, fun e' he' p' hp' hc => ?_, hafter.delivered⟩
    · rw [transmit_queue, setQueue_queue] at hp'
      split_ifs at hp' with hq'
      · subst hq'
        exact hafter.queued q' p' (hperm.mem_iff.2 (List.mem_cons_of_mem _ hp')) hc
      · exact hafter.queued q' p' hp' hc
    · rw [transmit_events] at he'
      rcases EventQueue.mem_add.1 he' with he' | rfl
      · rcases EventQueue.mem_add.1 he' with he' | rfl
        · exact hafter.pending e' he' p' hp' hc
        · exact nomatch hp'
      · obtain rfl : p = p' := by simpa using hp'
        have hqueued := hafter.queued q p (hperm.mem_iff.2 (List.mem_cons_self ..)) hc
        have hway := htakes p hc q _ _ _ hhop
        change b ≤ e.time + _ + _
        rw [NetworkAction.queue?_handing]
        calc b ≤ e.time + D q := hqueued
          _ ≤ _ := by rw [add_assoc]; gcongr

/-! ### Segments that leave one host -/

/-- The segments of a flow. Its packets are of one size for each segment, go through one queue first
and are not put in before a time. -/
structure Batch (σ : NetworkSpec Q) (ι : Type) where
  segs : Finset ι
  seg : Packet → Option ι
  size : ι → ℕ
  first : Q
  start : Time
  left : ι → Q → Time

namespace Batch

variable {ι : Type} [DecidableEq ι] (B : Batch σ ι)

def Of (x : ι) (p : Packet) : Bool := B.seg p = some x

/-- The time from the first queue on is right for each segment. -/
def Right : Prop := ∀ x, Takes σ (B.Of x) (B.left x)

/-- A packet as it may be put in at a time. -/
def Sends (now : Time) (p : Packet) : Prop :=
  ∀ x, B.seg p = some x →
    B.start ≤ now ∧ σ.hostQueue p.src = B.first ∧ x ∈ B.segs ∧ p.size = B.size x

/-- The transmission of all segments but one. -/
def others (x : ι) : Time := ∑ y ∈ B.segs.erase x, σ.getTransmissionDelay B.first (B.size y)

/-- A segment is past the first queue. -/
inductive Past (s : Network Q) (x : ι) : Prop
  | queued {q : Q} {p : Packet} : q ≠ B.first → p ∈ (s.queues q).queue.packets →
      B.seg p = some x → Past s x
  | pending {e : QueuedEvent Time (NetworkAction Q)} {p : Packet} : e ∈ s.events.events →
      e.kind.packet? = some p → B.seg p = some x → e.kind.queue? ≠ some B.first → Past s x
  | delivered {p : Packet} : p ∈ s.delivered → B.seg p = some x → Past s x

/-- **The first queue serves one packet after the other**: its link is not free before the segments
that are past it were transmitted, and if all of them are, some segment is as late as that. -/
structure Serial (s : Network Q) : Prop where
  sizes : Holds (fun p _ => ∀ x, B.seg p = some x → x ∈ B.segs ∧ p.size = B.size x) s
  begun : Due (fun p => (B.seg p).isSome) (fun _ => 0) B.start s
  busy : ∀ t₀, FreeBy s B.first t₀ → ∀ Y ⊆ B.segs, Y.Nonempty → (∀ x ∈ Y, B.Past s x) →
    B.start + ∑ x ∈ Y, σ.getTransmissionDelay B.first (B.size x) ≤ t₀
  last : (∀ x ∈ B.segs, B.Past s x) → ∃ x ∈ B.segs, B.start + B.others x ≤ s.now ∧
    Due (B.Of x) (B.left x) (B.start + B.others x + B.left x B.first) s

variable {B}

omit [DecidableEq Q] [DecidableEq ι] in
lemma takes_zero (c : Packet → Bool) : Takes σ c fun _ => 0 := by
  intro p _ q n n' hop _
  have hdelay := σ.handingDelay_nonneg q p hop
  cases hop <;> simpa using hdelay

variable {x : ι} {id : ℕ} {e : QueuedEvent Time (NetworkAction Q)}
  {events : EventQueue Time (NetworkAction Q)}

omit [DecidableEq Q] [DecidableEq ι] in
lemma Past.of_inject {time : Time} (h : B.Past ({ s with now := time }.inject σ p) x)
    (hp : B.Sends time p) : B.Past s x := by
  cases h with
  | queued hq hp' hx => exact .queued hq hp' hx
  | @pending e' p' he hp' hx hne =>
    rcases EventQueue.mem_add.1 he with he | rfl
    · exact .pending he hp' hx hne
    · obtain rfl : p = p' := Option.some.inj hp'
      exact absurd (congrArg some (hp x hx).2.1) hne
  | delivered hp' hx => exact .delivered hp' hx

omit [DecidableEq ι] in
lemma Past.of_queuing {lost : Bool} (h : B.Past ((s.after e events).packetQueuing σ p q lost) x)
    (htake : s.events.take? id = some (e, events)) (hkind : e.kind = .packetQueuing p q) :
    B.Past s x := by
  cases h with
  | @queued q' p' hq hp' hx =>
    rw [packetQueuing_queue] at hp'
    split_ifs at hp' with hq'
    · subst hq'
      have hsub := (PacketQueue.enque_sublist (Q := (s.queues q').queue) (p := p) (σ.not_sns q')
        lost).1
      rcases List.mem_append.1 (hsub.subset hp') with hp' | hp'
      · exact .queued hq hp' hx
      · obtain rfl := List.mem_singleton.1 hp'
        exact .pending (EventQueue.taken_mem htake) (by rw [hkind]; rfl) hx
          (by rw [hkind]; exact fun heq => hq (Option.some.inj heq))
    · exact .queued hq hp' hx
  | @pending e' p' he hp' hx hne =>
    rcases mem_begin he with he | ⟨-, hnew⟩
    · exact .pending (EventQueue.mem_of_take? htake he) hp' hx hne
    · rw [hnew] at hp'
      exact nomatch hp'
  | delivered hp' hx =>
    exact .delivered ((begin_history (s := s.after e events) q).2 ▸ hp') hx

omit [DecidableEq ι] in
lemma Past.of_transmit {ps : List Packet} {n : ℕ} {hop : Option Q}
    (h : B.Past (((s.after e events).setQueue q { s.queues q with
      queue := (s.queues q).queue.depart (p, ps) }).transmit σ q p n hop) x)
    (htake : s.events.take? id = some (e, events))
    (hps : PacketQueue.take (σ.queue q) (s.queues q).queue.packets = some (p, ps)) :
    B.Past s x ∨ q = B.first ∧ B.seg p = some x := by
  have hperm : (s.queues q).queue.packets.Perm (p :: ps) := PacketQueue.take_perm hps
  cases h with
  | @queued q' p' hq hp' hx =>
    rw [transmit_queue, setQueue_queue] at hp'
    split_ifs at hp' with hq'
    · subst hq'
      exact .inl (.queued hq (hperm.mem_iff.2 (List.mem_cons_of_mem _ hp')) hx)
    · exact .inl (.queued hq hp' hx)
  | @pending e' p' he hp' hx hne =>
    rw [transmit_events] at he
    rcases EventQueue.mem_add.1 he with he | rfl
    · rcases EventQueue.mem_add.1 he with he | rfl
      · exact .inl (.pending (EventQueue.mem_of_take? htake he) hp' hx hne)
      · exact nomatch hp'
    · obtain rfl : p = p' := by simpa using hp'
      by_cases hq : q = B.first
      · exact .inr ⟨hq, hx⟩
      · exact .inl (.queued hq (hperm.mem_iff.2 (List.mem_cons_self ..)) hx)
  | delivered hp' hx => exact .inl (.delivered hp' hx)

lemma Serial.step_packets (h : B.Serial s) (hstep : Step σ s a t) (hs : Sound σ s)
    (hin : ∀ p ∈ a.packets, B.Sends t.now p) :
    Holds (fun p _ => ∀ x, B.seg p = some x → x ∈ B.segs ∧ p.size = B.size x) t ∧
      Due (fun p => (B.seg p).isSome) (fun _ => 0) B.start t := by
  refine ⟨hstep.holds h.sizes (fun p hp x hx => (hin p hp x hx).2.2) fun h _ => h,
    hstep.due hs (takes_zero _) h.begun fun p hp hc => ?_⟩
  obtain ⟨x, hx⟩ := Option.isSome_iff_exists.1 hc
  simpa using (hin p hp x hx).1

lemma Serial.mono (h : B.Serial s) (hright : B.Right) (hstep : Step σ s a t) (hs : Sound σ s)
    (hin : ∀ p ∈ a.packets, B.Sends t.now p) (hpast : ∀ x, B.Past t x → B.Past s x) :
    B.Serial t where
  sizes := (h.step_packets hstep hs hin).1
  begun := (h.step_packets hstep hs hin).2
  busy t₀ ht Y hY hne hYpast :=
    h.busy t₀ (hstep.freeBy hs ht) Y hY hne fun x hx => hpast x (hYpast x hx)
  last hall := by
    obtain ⟨x, hx, hnow, hdue⟩ := h.last fun x hx => hpast x (hall x hx)
    have hlater : B.start + B.others x ≤ t.now := hnow.trans (hstep.now_le hs)
    refine ⟨x, hx, hlater, hstep.due hs (hright x) hdue fun p hp hc => ?_⟩
    rw [(hin p hp x (by simpa [Of] using hc)).2.1]
    gcongr

omit [DecidableEq Q] in
lemma Serial.busy_or (h : B.Serial s) {t₀ : Time} (hfree : FreeBy s B.first t₀)
    (hstart : B.start ≤ t₀) {Y : Finset ι} (hY : Y ⊆ B.segs) (hpast : ∀ x ∈ Y, B.Past s x) :
    B.start + ∑ x ∈ Y, σ.getTransmissionDelay B.first (B.size x) ≤ t₀ := by
  rcases Y.eq_empty_or_nonempty with rfl | hne
  · simpa using hstart
  · exact h.busy t₀ hfree Y hY hne hpast

/-- **A segment gets past the first queue**, when the link was free for it. -/
lemma Serial.transmit (h : B.Serial s) (hright : B.Right) (hs : Sound σ s)
    (htake : s.events.take? id = some (e, events)) (hnone : s.events.NoneBefore e.time)
    (hkind : e.kind = .queueProcessing B.first) {ps : List Packet}
    (hps : PacketQueue.take (σ.queue B.first) (s.queues B.first).queue.packets = some (p, ps))
    {n : ℕ} {hop : Option Q}
    (hhop : σ.getNextHop (s.queues B.first).sprayCounter p B.first = some (n, hop))
    (hx : B.seg p = some x) (hnew : ¬ B.Past s x)
    (hstep : Step σ s a (((s.after e events).setQueue B.first { s.queues B.first with
      queue := (s.queues B.first).queue.depart (p, ps) }).transmit σ B.first p n hop))
    (ha : a.packets = []) :
    B.Serial (((s.after e events).setQueue B.first { s.queues B.first with
      queue := (s.queues B.first).queue.depart (p, ps) }).transmit σ B.first p n hop) := by
  obtain ⟨t, ht⟩ : ∃ t, t = ((s.after e events).setQueue B.first { s.queues B.first with
    queue := (s.queues B.first).queue.depart (p, ps) }).transmit σ B.first p n hop := ⟨_, rfl⟩
  have hmem : p ∈ (s.queues B.first).queue.packets :=
    (PacketQueue.take_perm hps).mem_iff.2 (List.mem_cons_self ..)
  obtain ⟨hseg, hsize⟩ := h.sizes.queued B.first p hmem x hx
  have hfree : FreeBy s B.first e.time := hs.freeBy htake (hs.serves htake hnone hkind).freeBy
  have hstart : B.start ≤ e.time := by
    have hafter := h.begun.take htake (hs.notBefore e (EventQueue.taken_mem htake))
    simpa [after] using hafter.queued B.first p hmem (by simp [hx])
  have hpast : ∀ y ≠ x, B.Past t y → B.Past s y := by
    intro y hy hty
    rcases (ht ▸ hty).of_transmit htake hps with hold | ⟨-, hx'⟩
    · exact hold
    · exact absurd (Option.some.inj (hx'.symm.trans hx)) hy
  have hin : ∀ p ∈ a.packets, B.Sends t.now p := by
    rw [ha]
    exact fun p hp => absurd hp List.not_mem_nil
  have hevents : t.events = (events.add (e.time + σ.getTransmissionDelay B.first p.size)
      (.queueProcessing B.first)).add (e.time + σ.handingDelay B.first p hop) (.handing p hop) :=
    ht ▸ rfl
  have hnow : t.now = e.time := ht ▸ rfl
  rw [← ht] at hstep ⊢
  refine ⟨(h.step_packets hstep hs hin).1, (h.step_packets hstep hs hin).2, ?_, fun hall => ?_⟩
  · intro t₀ ht₀ Y hY hne hYpast
    have hbusy : e.time + σ.getTransmissionDelay B.first (B.size x) ≤ t₀ := by
      rw [← hsize]
      exact ht₀.2 ⟨events.count, _, .queueProcessing B.first⟩ (hevents ▸ EventQueue.mem_add.2
        (.inl (EventQueue.mem_add.2 (.inr rfl)))) rfl
    have htd := σ.getTransmissionDelay_nonneg B.first (B.size x)
    by_cases hxY : x ∈ Y
    · have hrest := h.busy_or hfree hstart ((Y.erase_subset x).trans hY) fun y hy =>
        hpast y (Finset.ne_of_mem_erase hy) (hYpast y (Finset.mem_of_mem_erase hy))
      rw [← Finset.add_sum_erase Y _ hxY]
      linarith
    · have hrest := h.busy_or hfree hstart hY fun y hy =>
        hpast y (fun hyx => hxY (hyx ▸ hy)) (hYpast y hy)
      linarith
  · -- all the others were transmitted before this one
    have hrest : B.start + B.others x ≤ e.time :=
      h.busy_or hfree hstart (B.segs.erase_subset x) fun y hy =>
        hpast y (Finset.ne_of_mem_erase hy) (hall y (Finset.mem_of_mem_erase hy))
    have hlate : ∀ {time}, e.time ≤ time →
        B.start + B.others x + B.left x B.first ≤ time + B.left x B.first := fun htime => by
      gcongr
      exact hrest.trans htime
    refine ⟨x, hseg, hnow ▸ hrest, fun q' p' hp' hc => ?_, fun e' he' p' hp' hc => ?_,
      fun p' hp' hc => ?_⟩
    · by_cases hq' : q' = B.first
      · subst hq'
        rw [hnow]
        exact hlate le_rfl
      · rw [ht, transmit_queue, setQueue_queue, if_neg hq'] at hp'
        exact absurd (.queued hq' hp' (by simpa [Of] using hc)) hnew
    · rw [hevents] at he'
      rcases EventQueue.mem_add.1 he' with he' | rfl
      · rcases EventQueue.mem_add.1 he' with he' | rfl
        · by_cases hq' : e'.kind.queue? = some B.first
          · rw [hq']
            exact hlate (hnone e' (EventQueue.mem_of_take? htake he'))
          · exact absurd (.pending (EventQueue.mem_of_take? htake he') hp'
              (by simpa [Of] using hc) hq') hnew
        · exact absurd hp' (by simp [NetworkAction.packet?])
      · obtain rfl : p = p' := by simpa using hp'
        have hway := hright x p hc B.first _ _ _ hhop
        rw [NetworkAction.queue?_handing]
        have hlate := hlate le_rfl
        linarith
    · rw [ht] at hp'
      exact absurd (.delivered hp' (by simpa [Of] using hc)) hnew

/-- **The rule for a step.** -/
theorem Serial.step (h : B.Serial s) (hright : B.Right) (hstep : Step σ s a t) (hs : Sound σ s)
    (hin : ∀ p ∈ a.packets, B.Sends t.now p) : B.Serial t := by
  have hstep' := hstep
  cases hstep with
  | inject =>
    exact h.mono hright hstep' hs hin fun x hx => hx.of_inject (hin _ (List.mem_singleton_self _))
  | queuing htake hnone hkind =>
    exact h.mono hright hstep' hs hin fun x hx => hx.of_queuing htake hkind
  | @arrival id lost e events p htake hnone hkind =>
    refine h.mono hright hstep' hs hin fun x hx => ?_
    cases hx with
    | queued hq hp' hx => exact .queued hq hp' hx
    | pending he hp' hx hne => exact .pending (EventQueue.mem_of_take? htake he) hp' hx hne
    | @delivered p' hp' hx =>
      rcases List.mem_append.1 hp' with hp' | hp'
      · exact .delivered hp' hx
      · obtain rfl := List.mem_singleton.1 hp'
        exact .pending (EventQueue.taken_mem htake) (by rw [hkind]; rfl) hx
          (by rw [hkind]; exact Option.some_ne_none _ |>.symm)
  | @rest id lost e events q htake =>
    refine h.mono hright hstep' hs hin fun x hx => ?_
    cases hx with
    | queued hq hp' hx => exact .queued hq (by rwa [rest_queue] at hp') hx
    | pending he hp' hx hne => exact .pending (EventQueue.mem_of_take? htake he) hp' hx hne
    | delivered hp' hx => exact .delivered hp' hx
  | @transmit id lost e events q p ps n hop htake hnone hkind hps hhop =>
    by_cases hnew : ∃ x, q = B.first ∧ B.seg p = some x ∧ ¬ B.Past s x
    · obtain ⟨x, rfl, hx, hnew⟩ := hnew
      exact h.transmit hright hs htake hnone hkind hps hhop hx hnew hstep' rfl
    · refine h.mono hright hstep' hs hin fun x hx => ?_
      rcases hx.of_transmit htake hps with hold | ⟨hq, hx'⟩
      · exact hold
      · by_contra hpast
        exact hnew ⟨x, hq, hx', hpast⟩

omit [DecidableEq Q] in
lemma serial_init (hne : B.segs.Nonempty) : B.Serial (init σ) where
  sizes := ⟨fun e he => absurd he List.not_mem_nil, fun q p hp => absurd hp List.not_mem_nil⟩
  begun := ⟨fun q p hp => absurd hp List.not_mem_nil, fun e he => absurd he List.not_mem_nil,
    fun p hp => absurd hp List.not_mem_nil⟩
  busy t₀ _ Y _ hY hpast := by
    obtain ⟨x, hx⟩ := hY
    cases hpast x hx with
    | queued _ hp => exact absurd hp List.not_mem_nil
    | pending he => exact absurd he List.not_mem_nil
    | delivered hp => exact absurd hp List.not_mem_nil
  last hall := by
    obtain ⟨x, hx⟩ := hne
    cases hall x hx with
    | queued _ hp => exact absurd hp List.not_mem_nil
    | pending he => exact absurd he List.not_mem_nil
    | delivered hp => exact absurd hp List.not_mem_nil

omit [DecidableEq Q] in
/-- **When all segments have arrived**, the transmissions of all but one of them and the way of that
one have passed since the start. -/
theorem Serial.late (h : B.Serial s) (hall : ∀ x ∈ B.segs, ∃ p ∈ s.delivered, B.seg p = some x) :
    ∃ x ∈ B.segs, B.start + B.others x + B.left x B.first ≤ s.now := by
  obtain ⟨x, hx, -, hdue⟩ := h.last fun x hx => by
    obtain ⟨p, hp, hseg⟩ := hall x hx
    exact .delivered hp hseg
  obtain ⟨p, hp, hseg⟩ := hall x hx
  exact ⟨x, hx, hdue.delivered p hp (by simp [Of, hseg])⟩

end Batch

end DcSim.Network
