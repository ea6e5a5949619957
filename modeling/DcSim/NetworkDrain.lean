import DcSim.NetworkPlaces

/-!
A network that is left alone comes to rest.

Where each hop leads down in rank, each event takes something off the work that is left. So a
network into which no more packets are put comes to rest, in whatever order the events of one time
are processed, and then nothing waits in it: each packet has arrived or was dropped. The queues
take the packets in the order they came, and their numbers of bytes do not wrap around.
-/

namespace DcSim.Network

open Runs Word32

variable {Q : Type} [DecidableEq Q] {σ : NetworkSpec Q} {s t u : Network Q} {p : Packet} {q : Q}
  {a : NetworkAct}

/-! ### Which packets are where -/

structure Holds (ok : Packet → Q → Prop) (s : Network Q) : Prop where
  pending : ∀ e ∈ s.events.events, ∀ p q, e.kind = .packetQueuing p q → ok p q
  queued : ∀ q, ∀ p ∈ (s.queues q).queue.packets, ok p q

section Holds

variable {ok : Packet → Q → Prop}

lemma Step.injected (hstep : Step σ s a t) : t.injected = s.injected ++ a.packets := by
  cases hstep with
  | inject => rfl
  | @queuing id lost e events p q =>
    exact (begin_history (s := s.after e events) q).1.trans (List.append_nil _).symm
  | arrival | rest | transmit => exact (List.append_nil _).symm

lemma Step.holds (hstep : Step σ s a t) (h : Holds ok s)
    (hin : ∀ p ∈ a.packets, ok p (σ.hostQueue p.src))
    (hhop : ∀ {c p q c' r}, ok p q → σ.getNextHop c p q = some (c', some r) → ok p r) :
    Holds ok t := by
  cases hstep with
  | inject =>
    refine ⟨fun e he p' q' hkind => ?_, h.queued⟩
    rcases EventQueue.mem_add.1 he with he | rfl
    · exact h.pending e he p' q' hkind
    · obtain ⟨rfl, rfl⟩ : _ = p' ∧ _ = q' := by simpa using hkind
      exact hin _ (by simp [NetworkAct.packets])
  | @queuing id lost e events p q htake hnone hkind =>
    have hp : ok p q := h.pending e (EventQueue.taken_mem htake) p q hkind
    refine ⟨fun e' he' p' q' hkind' => ?_, fun q' p' hp' => ?_⟩
    · rcases mem_begin he' with he' | ⟨-, hnew⟩
      · exact h.pending e' (EventQueue.mem_of_take? htake he') p' q' hkind'
      · exact nomatch hnew.symm.trans hkind'
    · rw [packetQueuing_queue] at hp'
      split_ifs at hp' with hq'
      · subst hq'
        have hsub := (PacketQueue.enque_sublist (Q := (s.queues q').queue) (p := p) (σ.not_sns q')
          lost).1
        rcases List.mem_append.1 (hsub.subset hp') with hp' | hp'
        · exact h.queued q' p' hp'
        · obtain rfl := List.mem_singleton.1 hp'
          exact hp
      · exact h.queued q' p' hp'
  | arrival htake =>
    exact ⟨fun e' he' => h.pending e' (EventQueue.mem_of_take? htake he'), h.queued⟩
  | rest htake =>
    refine ⟨fun e' he' => h.pending e' (EventQueue.mem_of_take? htake he'), fun q' p' hp' => ?_⟩
    rw [rest_queue] at hp'
    exact h.queued q' p' hp'
  | @transmit id lost e events q p ps c hop htake hnone hkind hps hhop' =>
    have hperm : (s.queues q).queue.packets.Perm (p :: ps) := PacketQueue.take_perm hps
    have hp : ok p q := h.queued q p (hperm.mem_iff.2 (List.mem_cons_self ..))
    refine ⟨fun e' he' p' q' hkind' => ?_, fun q' p' hp' => ?_⟩
    · rw [transmit_events] at he'
      rcases EventQueue.mem_add.1 he' with he' | rfl
      · rcases EventQueue.mem_add.1 he' with he' | rfl
        · exact h.pending e' (EventQueue.mem_of_take? htake he') p' q' hkind'
        · exact nomatch hkind'
      · cases hop with
        | none => exact nomatch hkind'
        | some r =>
          obtain ⟨rfl, rfl⟩ : p = p' ∧ r = q' := by simpa [NetworkAction.handing] using hkind'
          exact hhop hp hhop'
    · rw [transmit_queue, setQueue_queue] at hp'
      split_ifs at hp' with hq'
      · subst hq'
        exact h.queued q' p' (hperm.mem_iff.2 (List.mem_cons_of_mem _ hp'))
      · exact h.queued q' p' hp'

lemma holds_of_reach (hs : Reach (machine σ) s) (hin : ∀ p ∈ s.injected, ok p (σ.hostQueue p.src))
    (hhop : ∀ {c p q c' r}, ok p q → σ.getNextHop c p q = some (c', some r) → ok p r) :
    Holds ok s := by
  have hinv : (∀ p ∈ s.injected, ok p (σ.hostQueue p.src)) → Holds ok s :=
    hs.inv (I := fun s => (∀ p ∈ s.injected, ok p (σ.hostQueue p.src)) → Holds ok s)
      (fun _ => ⟨fun e he => by simp [machine, init, EventQueue.empty] at he,
        fun q p hp => by simp [machine, init, PacketQueue.init] at hp⟩)
      fun hs h hn hin => by
        have hstep := (sound_of_reach hs).step hn
        rw [hstep.injected] at hin
        exact hstep.holds (h fun p hp => hin p (List.mem_append_left _ hp))
          (fun p hp => hin p (List.mem_append_right _ hp)) hhop
  exact hinv hin

end Holds

/-! ### The bytes in the queues -/

/-- The size of a packet, which is not empty. -/
def Sized (p : Packet) : Prop := 0 < p.size ∧ p.size < 2147483648

instance : DecidablePred Sized := fun _ => inferInstanceAs (Decidable (_ ∧ _))

structure Plain (σ : NetworkSpec Q) : Prop where
  fifo : ∀ q, (σ.queue q).Fifo
  limit : ∀ q, (σ.queue q).limitBytes < 2147483648

structure Counted (K : QueueSpec) (R : PacketQueue) : Prop where
  bytes : R.bytesInQueue = (R.packets.map (·.size)).sum
  le : R.bytesInQueue ≤ K.limitBytes

section Counted

variable {K : QueueSpec} {R : PacketQueue} (hfifo : K.Fifo) (hlimit : K.limitBytes < 2147483648)
include hfifo hlimit

lemma Counted.enque (h : Counted K R) (hp : Sized p) (lost : Bool) :
    Counted K (R.enque K p lost) := by
  rcases PacketQueue.fifo_enque (Q := R) (p := p) hfifo lost with ⟨hpackets, hbytes, hfit⟩ |
    ⟨hpackets, hbytes⟩
  · refine ⟨?_, hbytes ▸ hfit⟩
    have hle := h.le
    have hsize := hp.2
    rw [hbytes, hpackets, PacketQueue.sum_append, ← h.bytes]
    exact add32_eq (by omega)
  · exact ⟨by rw [hbytes, hpackets, h.bytes], hbytes ▸ h.le⟩

lemma Counted.depart (h : Counted K R) {ps : List Packet}
    (htake : PacketQueue.take K R.packets = some (p, ps)) : Counted K (R.depart (p, ps)) := by
  have hsum : R.bytesInQueue = p.size + (ps.map (·.size)).sum := by
    rw [h.bytes, (PacketQueue.fifo_take hfifo).1 htake, List.map_cons, List.sum_cons]
  have hle := h.le
  have hbytes : (R.depart (p, ps)).bytesInQueue = (ps.map (·.size)).sum := by
    change sub32 R.bytesInQueue p.size = _
    rw [sub32_eq (by omega) (by omega)]
    omega
  exact ⟨hbytes, hbytes ▸ by omega⟩

omit hfifo hlimit in
lemma Counted.packets_eq_nil (h : Counted K R) (hsized : ∀ p ∈ R.packets, Sized p)
    (hbytes : R.bytesInQueue = 0) : R.packets = [] := by
  cases hps : R.packets with
  | nil => rfl
  | cons p ps =>
    have hpos := (hsized p (by simp [hps])).1
    have hsum := h.bytes
    rw [hps, List.map_cons, List.sum_cons] at hsum
    omega

end Counted

lemma Step.counted (hstep : Step σ s a t) (hplain : Plain σ) (hs : Holds (fun p _ => Sized p) s)
    (h : ∀ q, Counted (σ.queue q) (s.queues q).queue) (q : Q) :
    Counted (σ.queue q) (t.queues q).queue := by
  cases hstep with
  | inject | arrival => exact h q
  | @queuing id lost e events p r htake hnone hkind =>
    rw [packetQueuing_queue]
    split_ifs with hq
    · subst hq
      have hp : Sized p := hs.pending e (EventQueue.taken_mem htake) p q hkind
      exact (h q).enque (hplain.fifo q) (hplain.limit q) hp lost
    · exact h q
  | rest =>
    rw [rest_queue]
    exact h q
  | @transmit id lost e events r p ps c hop htake hnone hkind hps hhop =>
    rw [transmit_queue, setQueue_queue]
    split_ifs with hq
    · subst hq
      exact (h q).depart (hplain.fifo q) (hplain.limit q) hps
    · exact h q

/-- **The bytes are counted** in every queue at any time, if the packets fit. -/
theorem counted_of_reach (hplain : Plain σ) (hs : Reach (machine σ) s)
    (hsized : ∀ p ∈ s.injected, Sized p) (q : Q) : Counted (σ.queue q) (s.queues q).queue := by
  have hinv : (∀ p ∈ s.injected, Sized p) → ∀ q, Counted (σ.queue q) (s.queues q).queue :=
    hs.inv (I := fun s => (∀ p ∈ s.injected, Sized p) →
        ∀ q, Counted (σ.queue q) (s.queues q).queue)
      (fun _ _ => ⟨rfl, Nat.zero_le _⟩) fun hs h hn hsized => by
        have hstep := (sound_of_reach hs).step hn
        rw [hstep.injected] at hsized
        have hold : ∀ p ∈ _, Sized p := fun p hp => hsized p (List.mem_append_left _ hp)
        exact hstep.counted hplain (holds_of_reach hs hold fun h _ => h) (h hold)
  exact hinv hsized q

/-- **Nothing waits** in a network without pending events: what was put in has arrived or was
dropped. -/
theorem settled_of_quiet (hplain : Plain σ) (hs : Reach (machine σ) s)
    (hsized : ∀ p ∈ s.injected, Sized p) (hquiet : s.events.events = []) :
    (s.injected : Multiset Packet) = s.dropped σ + s.delivered := by
  have hsound := sound_of_reach hs
  have hholds : Holds (fun p _ => Sized p) s := holds_of_reach hs hsized fun h _ => h
  have hempty : ∀ q, (s.queues q).queue.held = [] := by
    intro q
    have hlink := hsound.links q
    have hpointer : (s.queues q).queueProcEvent = none := by
      have htracks : _ = (s.queues q).queueProcEvent.toList := hlink.tracks
      rw [show s.events.pending (.queueProcessing q) = [] by
        simp [EventQueue.pending, EventQueue.ofKind, hquiet]] at htracks
      simpa using htracks.symm
    have hbusy : (s.queues q).busy = false := by rw [hlink.busy, hpointer]; rfl
    have hpackets := (counted_of_reach hplain hs hsized q).packets_eq_nil (hholds.queued q)
      (hlink.idle hbusy)
    unfold PacketQueue.held
    rw [hpackets, hlink.noSims, List.append_nil]
  have hflight : s.inFlight σ = 0 := by
    simp [inFlight, onWay, waiting, hquiet, hempty]
  have hconserves : (s.injected : Multiset Packet) = _ := conserves_of_reach hs
  rw [hconserves, hflight, zero_add]

/-! ### The work that is left -/

structure Routes (σ : NetworkSpec Q) (ok : Packet → Prop) where
  On : Packet → Q → Prop
  rank : Q → ℕ
  start {p : Packet} : ok p → On p (σ.hostQueue p.src)
  goes {p : Packet} {q : Q} : On p q → ∀ c, ∃ c' hop, σ.getNextHop c p q = some (c', hop) ∧
    ∀ r ∈ hop, On p r ∧ rank r < rank q

/-- What an event may lead to: a packet that waits is transmitted, and one that is handed on to a
queue also begins its service. -/
def eventWork (rank : Q → ℕ) : NetworkAction Q → ℕ
  | .queueProcessing _ | .packetArrival _ => 1
  | .packetQueuing _ q => 4 * rank q + 4

variable (σ) in
def work (rank : Q → ℕ) (s : Network Q) : ℕ :=
  (s.events.events.map fun e => eventWork rank e.kind).sum +
    ∑ q ∈ σ.queues, (s.queues q).queue.packets.length * (4 * rank q + 2)

variable (rank : Q → ℕ)

omit [DecidableEq Q] in
lemma work_take {id : ℕ} {e : QueuedEvent Time (NetworkAction Q)}
    {events : EventQueue Time (NetworkAction Q)} (htake : s.events.take? id = some (e, events)) :
    s.work σ rank = eventWork rank e.kind + (s.after e events).work σ rank := by
  obtain ⟨-, l, r, hevents, rfl⟩ := EventQueue.take?_eq_some htake
  simp only [work, after, hevents, List.map_append, List.sum_append, List.map_cons, List.sum_cons]
  omega

omit [DecidableEq Q] in
lemma work_addEvent (time : Time) (action : NetworkAction Q) :
    (s.addEvent time action).work σ rank = s.work σ rank + eventWork rank action := by
  simp only [work, addEvent_queues, addEvent_events, EventQueue.add, List.map_append,
    List.sum_append, List.map_cons, List.map_nil, List.sum_cons, List.sum_nil]
  omega

lemma work_setQueue (k : NetworkQueue) (hq : q ∈ σ.queues) :
    (s.setQueue q k).work σ rank + (s.queues q).queue.packets.length * (4 * rank q + 2) =
      s.work σ rank + k.queue.packets.length * (4 * rank q + 2) := by
  have hsum := sum_setQueue (s := s)
    (fun q (k : NetworkQueue) => k.queue.packets.length * (4 * rank q + 2)) k hq
  unfold work
  rw [setQueue_events]
  omega

lemma work_same {k : NetworkQueue} (hk : k.queue = (s.queues q).queue) :
    (s.setQueue q k).work σ rank = s.work σ rank := by
  have hqueue : ∀ q', ((s.setQueue q k).queues q').queue = (s.queues q').queue := by
    intro q'
    rw [setQueue_queue]
    split_ifs with hq'
    · rw [hq', hk]
    · rfl
  simp only [work, hqueue, setQueue_events]

lemma work_begin (q : Q) : (s.begin q).work σ rank ≤ s.work σ rank + 1 := by
  unfold Network.begin
  split_ifs
  · exact Nat.le_add_right _ _
  · rw [work_same rank (by rfl), work_addEvent]
    rfl

lemma work_enque (hq : q ∈ σ.queues) (p : Packet) (lost : Bool) :
    (s.enque σ p q lost).work σ rank ≤ s.work σ rank + (4 * rank q + 2) := by
  have hset := work_setQueue (s := s) rank
    { s.queues q with
      queue := (s.queues q).queue.enque (σ.queue q) p lost
      arrived := (s.queues q).arrived ++ [p] } hq
  change (s.enque σ p q lost).work σ rank + _ = _ at hset
  have hlength : ((s.queues q).queue.enque (σ.queue q) p lost).packets.length ≤
      (s.queues q).queue.packets.length + 1 := by
    simpa using (PacketQueue.enque_sublist (Q := (s.queues q).queue) (p := p) (σ.not_sns q)
      lost).1.length_le
  have hmul := Nat.mul_le_mul_right (4 * rank q + 2) hlength
  rw [Nat.add_mul, Nat.one_mul] at hmul
  dsimp only at hset
  omega

variable {rank}

/-- **Each event takes work off**, on ways that lead down. -/
theorem Step.work_lt (hstep : Step σ s a t) (h : Sound σ s) (ha : a.packets = [])
    (hdown : ∀ {q p c c' r}, p ∈ (s.queues q).queue.packets →
      σ.getNextHop c p q = some (c', some r) → rank r < rank q) :
    t.work σ rank < s.work σ rank := by
  cases hstep with
  | inject => exact absurd ha (List.cons_ne_nil _ _)
  | @queuing id lost e events p q htake hnone hkind =>
    have hq : q ∈ σ.queues :=
      h.inside e (EventQueue.taken_mem htake) q (by simp [hkind, NetworkAction.queue?])
    have hbegin := work_begin (σ := σ) (s := s.after e events) rank q
    have henque := work_enque (s := (s.after e events).begin q) rank hq p lost
    have htaken := work_take (σ := σ) rank htake
    have hfour : eventWork rank e.kind = 4 * rank q + 4 := by rw [hkind]; rfl
    unfold packetQueuing
    omega
  | @arrival id lost e events p htake hnone hkind =>
    have htaken := work_take (σ := σ) rank htake
    have hone : eventWork rank e.kind = 1 := by rw [hkind]; rfl
    change (s.after e events).work σ rank < _
    omega
  | @rest id lost e events q htake hnone hkind hbytes =>
    have htaken := work_take (σ := σ) rank htake
    have hone : eventWork rank e.kind = 1 := by rw [hkind]; rfl
    unfold Network.rest
    rw [work_same rank (by rfl)]
    omega
  | @transmit id lost e events q p ps c hop htake hnone hkind hps hhop =>
    have hq : q ∈ σ.queues := (h.serves htake hnone hkind).mem
    have hperm : (s.queues q).queue.packets.Perm (p :: ps) := PacketQueue.take_perm hps
    have hlength := hperm.length_eq
    have htaken := work_take (σ := σ) rank htake
    have hone : eventWork rank e.kind = 1 := by rw [hkind]; rfl
    have hset := work_setQueue (s := s.after e events) rank
      { s.queues q with queue := (s.queues q).queue.depart (p, ps) } hq
    -- the packet that waited is on its way to a queue of lower rank
    have hhand : eventWork rank (.handing p hop) + 1 ≤ 4 * rank q + 2 := by
      cases hop with
      | none => exact Nat.le_add_left 2 _
      | some r =>
        have hlt := hdown (hperm.mem_iff.2 (List.mem_cons_self ..)) hhop
        change 4 * rank r + 4 + 1 ≤ _
        omega
    have hrest : (s.queues q).queue.packets.length * (4 * rank q + 2) =
        ps.length * (4 * rank q + 2) + (4 * rank q + 2) := by
      rw [hlength, List.length_cons, Nat.add_mul, Nat.one_mul]
    have hserve : eventWork rank (.queueProcessing q) = 1 := rfl
    change _ + (s.queues q).queue.packets.length * _ = _ + ps.length * _ at hset
    unfold Network.transmit
    rw [work_addEvent, work_addEvent, work_same rank (by rfl)]
    omega

/-! ### A network that is left alone -/

variable {ok : Packet → Prop} (R : Routes σ ok)

omit [DecidableEq Q] in
lemma Routes.next (R : Routes σ ok) {c c' : ℕ} {hop : Option Q} (hp : R.On p q)
    (h : σ.getNextHop c p q = some (c', hop)) : ∀ r ∈ hop, R.On p r ∧ R.rank r < R.rank q := by
  obtain ⟨c'', hop', h', hnext⟩ := R.goes hp c
  obtain ⟨-, rfl⟩ := Prod.mk.inj (Option.some.inj (h.symm.trans h'))
  exact hnext

lemma Routes.holds (R : Routes σ ok) (hs : Reach (machine σ) s)
    (hok : ∀ p ∈ s.injected, ok p ∧ Sized p) : Holds (fun p q => R.On p q ∧ Sized p) s :=
  holds_of_reach hs (fun p hp => ⟨R.start (hok p hp).1, (hok p hp).2⟩)
    fun hp h => ⟨(R.next hp.1 h _ rfl).1, hp.2⟩

include R in
lemma exists_next (hplain : Plain σ) (hs : Reach (machine σ) s)
    (hok : ∀ p ∈ s.injected, ok p ∧ Sized p) (hpending : s.events.events ≠ []) :
    ∃ a t, next σ s a = some t ∧ a.packets = [] := by
  obtain ⟨e, he, hnone⟩ := EventQueue.exists_earliest hpending
  obtain ⟨events, htake⟩ := (sound_of_reach hs).distinct.take?_eq he
  obtain ⟨u, hu⟩ : ∃ u, (s.after e events).processEvent σ false e.kind = some u := by
    cases e.kind with
    | packetQueuing p q | packetArrival p => exact ⟨_, rfl⟩
    | queueProcessing q =>
      have hcounted := counted_of_reach hplain hs (fun p hp => (hok p hp).2) q
      change ∃ u, (s.after e events).queueProcessing σ q = some u
      unfold queueProcessing PacketQueue.deque
      change ∃ u, Option.bind (if 0 < (s.queues q).queue.bytesInQueue then _ else _) _ = _
      split_ifs with hbytes
      · cases hps : (s.queues q).queue.packets with
        | nil =>
          have hsum := hcounted.bytes
          rw [hps] at hsum
          exact absurd hsum hbytes.ne'
        | cons p ps =>
          have hp : R.On p q := ((R.holds hs hok).queued q p (by simp [hps])).1
          obtain ⟨c', hop, hhop, -⟩ := R.goes hp (s.queues q).sprayCounter
          have htake : PacketQueue.take (σ.queue q) (s.queues q).queue.packets = some (p, ps) :=
            (PacketQueue.fifo_take (hplain.fifo q)).2 hps
          rw [show (s.after e events).queues q = s.queues q from rfl, htake]
          simp only [Option.map_some, Option.bind_some, setQueue_self, hhop]
          exact ⟨_, rfl⟩
      · exact ⟨_, rfl⟩
  refine ⟨.process e.id false, u.destroy e, ?_, rfl⟩
  change Option.bind _ _ = _
  rw [htake, Option.bind_some, if_pos hnone]
  exact congrArg (Option.map _) hu

lemma work_next (hs : Reach (machine σ) s) (hok : ∀ p ∈ s.injected, ok p ∧ Sized p)
    (ha : a.packets = []) (hn : next σ s a = some t) :
    t.work σ R.rank < s.work σ R.rank ∧ t.injected = s.injected := by
  have hstep := (sound_of_reach hs).step hn
  refine ⟨hstep.work_lt (sound_of_reach hs) ha fun hp h => ?_, ?_⟩
  · exact (R.next ((R.holds hs hok).queued _ _ hp).1 h _ rfl).2
  · rw [hstep.injected, ha, List.append_nil]

lemma work_exec (hs : Reach (machine σ) s) (hok : ∀ p ∈ s.injected, ok p ∧ Sized p)
    {as : List NetworkAct} (has : ∀ a ∈ as, a.packets = [])
    (h : exec (machine σ) s as = some t) :
    t.work σ R.rank + as.length ≤ s.work σ R.rank ∧ t.injected = s.injected := by
  induction as generalizing s with
  | nil =>
    obtain rfl : s = t := by simpa using h
    exact ⟨le_rfl, rfl⟩
  | cons a as ih =>
    obtain ⟨u, hu, h⟩ := Option.bind_eq_some_iff.1 h
    obtain ⟨hlt, heq⟩ := work_next R hs hok (has a (List.mem_cons_self ..)) hu
    obtain ⟨hle, heq'⟩ := ih (hs.step hu) (heq ▸ hok)
      (fun b hb => has b (List.mem_cons_of_mem _ hb))
      h
    exact ⟨by rw [List.length_cons]; omega, heq'.trans heq⟩

include R in
lemma exists_quiet (hplain : Plain σ) (hs : Reach (machine σ) s)
    (hok : ∀ p ∈ s.injected, ok p ∧ Sized p) : ∃ as t, (∀ a ∈ as, a.packets = []) ∧
      exec (machine σ) s as = some t ∧ t.events.events = [] := by
  induction hwork : s.work σ R.rank using Nat.strong_induction_on generalizing s with
  | h n ih =>
    subst hwork
    by_cases hquiet : s.events.events = []
    · exact ⟨[], s, by simp, rfl, hquiet⟩
    · obtain ⟨a, t, hn, ha⟩ := exists_next R hplain hs hok hquiet
      obtain ⟨hlt, heq⟩ := work_next R hs hok ha hn
      obtain ⟨as, u, has, h, hu⟩ := ih _ hlt (hs.step hn) (heq ▸ hok) rfl
      refine ⟨a :: as, u, List.forall_mem_cons.2 ⟨ha, has⟩, ?_, hu⟩
      rw [exec_cons, show (machine σ).next s a = some t from hn]
      exact h

/-- **A network that is left alone comes to rest**: from any reachable state, events can only be
processed until the work is done, and in the end each packet that was put in has arrived or was
dropped. -/
theorem drains (hplain : Plain σ) (hs : Reach (machine σ) s)
    (hok : ∀ p ∈ s.injected, ok p ∧ Sized p) {as : List NetworkAct}
    (has : ∀ a ∈ as, a.packets = []) (h : exec (machine σ) s as = some t) :
    ∃ bs u, (∀ b ∈ bs, b.packets = []) ∧ exec (machine σ) t bs = some u ∧
      as.length + bs.length ≤ s.work σ R.rank ∧ u.events.events = [] ∧
      (s.injected : Multiset Packet) = u.dropped σ + u.delivered := by
  have ht := hs.of_exec h
  obtain ⟨hle, heq⟩ := work_exec R hs hok has h
  obtain ⟨bs, u, hbs, hu, hquiet⟩ := exists_quiet R hplain ht (heq ▸ hok)
  obtain ⟨hle', heq'⟩ := work_exec R ht (heq ▸ hok) hbs hu
  have hsame : u.injected = s.injected := heq'.trans heq
  refine ⟨bs, u, hbs, hu, by omega, hquiet, ?_⟩
  rw [← hsame]
  exact settled_of_quiet hplain (ht.of_exec hu) (fun p hp => (hok p (hsame ▸ hp)).2) hquiet

end DcSim.Network
