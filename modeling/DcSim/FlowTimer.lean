import DcSim.Flow

/-!
The retransmission timer of the base flow and of pFabric.

The send loop starts the timer when there is none, a new ACK moves it, and a timeout starts it
again before the event that ran out is destroyed. Through all of this the events of a flow that
are not cancelled are the one that `retx_event` points to, if it points to any. That it does is
decided in the first turn of the loop at the start of the flow: when the window, a product of
32 bits, is less than a segment, nothing is sent and no timer is ever started.
-/

namespace DcSim.Flow

open LossyNet Runs Word32

def liveTimers {X : Type} (f : Flow X) : List RetxTimeoutEvent :=
  f.retxEvents.filter fun e => !e.cancelled

/-- A flow that is started and not finished has one timer, the one `retx_event` points to. A
finished flow has none. -/
def TimerDisciplined {X : Type} (f : Flow X) : Prop :=
  (f.started = true → f.finished = false →
    ∃ e, f.liveTimers = [e] ∧ f.retxEvent = some e.id) ∧
  (f.finished = true → f.liveTimers = [])

/-- The flow is not empty, and its first window has room for a segment. -/
def OpensWindow (σ : FlowSpec) : Prop := 0 < σ.size ∧ σ.mss ≤ mul32 σ.initialCwnd σ.mss

instance (σ : FlowSpec) : Decidable (OpensWindow σ) := by
  unfold OpensWindow; infer_instance

/-! ### The timer calls -/

section Pointed

variable {X : Type} {σ : FlowSpec} {f : Flow X}

structure Pointed (f : Flow X) : Prop where
  live : f.liveTimers.map (·.id) = f.retxEvent.toList
  nodup : (f.retxEvents.map (·.id)).Nodup
  fresh : ∀ e ∈ f.retxEvents, e.id < f.retxEventCount

lemma mem_liveTimers {e : RetxTimeoutEvent} :
    e ∈ f.liveTimers ↔ e ∈ f.retxEvents ∧ e.cancelled = false := by
  simp [liveTimers]

lemma pointed_new (σ : FlowSpec) (w : ℕ) (o : X) : Pointed (new σ w o) where
  live := rfl
  nodup := List.nodup_nil
  fresh := nofun

lemma setTimeout_ne_none (hlt : f.lastUnackedSeq < σ.size) (time : Time) :
    (f.setTimeout σ time).retxEvent ≠ none := by
  rw [setTimeout, if_pos hlt]
  exact nofun

namespace Pointed

lemma eq_id (h : Pointed f) {e : RetxTimeoutEvent} (he : e ∈ f.liveTimers) :
    f.retxEvent = some e.id := by
  have hmem : e.id ∈ f.retxEvent.toList := h.live ▸ List.mem_map_of_mem he
  simpa using hmem

lemma live_eq_nil (h : Pointed f) (hnone : f.retxEvent = none) : f.liveTimers = [] := by
  simpa [hnone] using h.live

lemma exists_live (h : Pointed f) (hsome : f.retxEvent ≠ none) :
    ∃ e, f.liveTimers = [e] ∧ f.retxEvent = some e.id := by
  obtain ⟨id, hid⟩ := Option.ne_none_iff_exists'.mp hsome
  have hmap : f.liveTimers.map (·.id) = [id] := by rw [h.live, hid]; rfl
  obtain ⟨e, he, rfl⟩ := List.map_eq_singleton_iff.mp hmap
  exact ⟨e, he, hid⟩

lemma ne_cancelled (h : Pointed f) {e : RetxTimeoutEvent} (he : e ∈ f.retxEvents)
    (hcancelled : e.cancelled = true) : f.retxEvent ≠ some e.id := by
  intro hptr
  obtain ⟨e', hlive, hid⟩ := h.exists_live (by simp [hptr])
  obtain ⟨he', hnot⟩ := mem_liveTimers.mp (hlive ▸ List.mem_singleton_self e')
  have heq : e = e' := List.inj_on_of_nodup_map h.nodup he he' (by simpa [hptr] using hid)
  simp [heq, hnot] at hcancelled

lemma setTimeout (h : Pointed f) (hnone : f.retxEvent = none) (time : Time) :
    Pointed (f.setTimeout σ time) := by
  unfold Flow.setTimeout
  split_ifs
  · refine ⟨?_, ?_, fun e he => ?_⟩
    · have hnil := h.live_eq_nil hnone
      unfold liveTimers at hnil ⊢
      simp [hnil]
    · have hnew : ∀ e ∈ f.retxEvents, e.id ≠ f.retxEventCount := fun e he => (h.fresh e he).ne
      simpa [List.nodup_append, h.nodup] using hnew
    · rcases List.mem_append.mp he with he | he
      · exact (h.fresh e he).trans (Nat.lt_succ_self _)
      · obtain rfl := List.mem_singleton.mp he
        exact Nat.lt_succ_self _
  · exact h

lemma cancelRetxEvent (h : Pointed f) : Pointed f.cancelRetxEvent := by
  have hids : f.cancelRetxEvent.retxEvents.map (·.id) = f.retxEvents.map (·.id) := by
    simp only [Flow.cancelRetxEvent, List.map_map]
    refine List.map_congr_left fun e _ => ?_
    simp only [Function.comp_apply]
    split_ifs <;> rfl
  refine ⟨?_, hids ▸ h.nodup, fun e he => ?_⟩
  · have hnone : f.cancelRetxEvent.liveTimers = [] := by
      refine List.eq_nil_iff_forall_not_mem.mpr fun e he => ?_
      obtain ⟨he, hnot⟩ := mem_liveTimers.mp he
      obtain ⟨e', he', rfl⟩ := List.mem_map.mp he
      split_ifs at hnot with hptr
      exact hptr (h.eq_id (mem_liveTimers.mpr ⟨he', hnot⟩)).symm
    rw [hnone]
    rfl
  · have hid : e.id ∈ f.retxEvents.map (·.id) := hids ▸ List.mem_map_of_mem he
    obtain ⟨e', he', heq⟩ := List.mem_map.mp hid
    exact heq ▸ h.fresh e' he'

lemma moveTimeout (h : Pointed f) (hsome : f.retxEvent ≠ none) (now : Time) :
    Pointed (f.moveTimeout σ now) ∧
      ((f.moveTimeout σ now).retxEvent ≠ none ↔ f.lastUnackedSeq < σ.size) := by
  have hlast : f.cancelRetxEvent.lastUnackedSeq = f.lastUnackedSeq := rfl
  rw [Flow.moveTimeout, if_neg hsome]
  dsimp only
  split_ifs with hlt
  · exact ⟨h.cancelRetxEvent.setTimeout rfl _, by simp [setTimeout_ne_none hlt, hlast ▸ hlt]⟩
  · exact ⟨h.cancelRetxEvent, by simp [Flow.cancelRetxEvent, hlast ▸ hlt]⟩

lemma dropRetxEvent (h : Pointed f) (id : ℕ) : Pointed (f.dropRetxEvent id) := by
  refine ⟨?_, ?_, fun e he => h.fresh e (List.mem_of_mem_filter he)⟩
  · have hlive : (f.dropRetxEvent id).liveTimers = f.liveTimers.filter (·.id ≠ id) := by
      simp only [liveTimers, Flow.dropRetxEvent, List.filter_filter, Bool.and_comm]
    have hmap : (f.dropRetxEvent id).liveTimers.map (·.id) =
        (f.liveTimers.map (·.id)).filter (· ≠ id) := by
      rw [hlive, List.filter_map]
      rfl
    rw [hmap, h.live]
    unfold Flow.dropRetxEvent
    cases hptr : f.retxEvent with
    | none => simp
    | some i => by_cases hi : i = id <;> simp [hi]
  · exact h.nodup.sublist (List.Sublist.map _ List.filter_sublist)

end Pointed

lemma dropRetxEvent_setTimeout {id : ℕ} (hid : id < f.retxEventCount) (time : Time) :
    (f.setTimeout σ time).dropRetxEvent id = (f.dropRetxEvent id).setTimeout σ time := by
  unfold setTimeout
  by_cases hlt : f.lastUnackedSeq < σ.size
  · have hlt' : (f.dropRetxEvent id).lastUnackedSeq < σ.size := hlt
    have hne : f.retxEventCount ≠ id := by omega
    rw [if_pos hlt, if_pos hlt']
    simp [Flow.dropRetxEvent, List.filter_append, hne]
  · have hlt' : ¬ (f.dropRetxEvent id).lastUnackedSeq < σ.size := hlt
    rw [if_neg hlt, if_neg hlt']

end Pointed

/-! ### The calls of a flow -/

section Loop

variable {X : Type} {σ : FlowSpec} {f : Flow X}

lemma sendLoop_timed (now : Time) (window priority turns seq : ℕ) (hsome : f.retxEvent ≠ none) :
    ∃ n, (sendLoop σ now window priority turns seq f).1 = { f with nextSeqNo := n } := by
  induction turns generalizing seq f with
  | zero => exact ⟨_, rfl⟩
  | succ turns ih =>
    unfold sendLoop
    by_cases hmay : f.MaySend σ window seq
    · have hadv : f.advance σ now seq = { f with nextSeqNo := nextSeq σ seq } := if_neg hsome
      obtain ⟨n, hn⟩ := ih (f := f.advance σ now seq) (nextSeq σ seq) (by rw [hadv]; exact hsome)
      rw [if_pos hmay]
      exact ⟨n, by rw [hn, hadv]⟩
    · rw [if_neg hmay]
      exact ⟨_, rfl⟩

lemma sendLoop_normal (now : Time) (window priority turns seq : ℕ) :
    ∀ p ∈ (sendLoop σ now window priority turns seq f).2, p.type = .normal := by
  induction turns generalizing seq f with
  | zero => simp [sendLoop]
  | succ turns ih =>
    unfold sendLoop
    by_cases hmay : f.MaySend σ window seq
    · rw [if_pos hmay]
      intro p hp
      rcases List.mem_append.mp hp with hp | hp
      · by_cases hmem : seq ∈ f.received
        · rw [if_pos hmem] at hp
          cases hp
        · rw [if_neg hmem] at hp
          exact List.mem_singleton.mp hp ▸ rfl
      · exact ih _ p hp
    · rw [if_neg hmay]
      simp

/-- **The first turn of the loop**, in a window that is of 32 bits. -/
lemma maySend_first (hlast : f.lastUnackedSeq = 0) {window : ℕ} (hwindow : window < 4294967296) :
    f.MaySend σ window 0 ↔ 0 < σ.size ∧ σ.mss ≤ window := by
  have hm := σ.mss_pos
  have hlt := σ.mss_lt
  have hs := σ.size_lt
  unfold MaySend
  rw [add32_eq (by omega), hlast, add32_eq (by omega), sub32_eq hs (Nat.zero_le _)]
  omega

/-- **The loop of a flow that starts** sets the timer in its first turn, if it takes one. -/
lemma sendLoop_first (hlast : f.lastUnackedSeq = 0) (hnone : f.retxEvent = none) {window : ℕ}
    (hwindow : window < 4294967296) (now : Time) (priority turns : ℕ) :
    (0 < σ.size ∧ σ.mss ≤ window →
      ∃ n, (sendLoop σ now window priority (turns + 1) 0 f).1 =
        { f.setTimeout σ (now + σ.retxTimeout) with nextSeqNo := n }) ∧
    (¬ (0 < σ.size ∧ σ.mss ≤ window) →
      sendLoop σ now window priority (turns + 1) 0 f = (f, [])) := by
  rw [← maySend_first hlast hwindow]
  refine ⟨fun hmay => ?_, fun hmay => ?_⟩
  · have hlt : f.lastUnackedSeq < σ.size := hlast ▸ ((maySend_first hlast hwindow).mp hmay).1
    have hadv : f.advance σ now 0 =
        { f.setTimeout σ (now + σ.retxTimeout) with nextSeqNo := nextSeq σ 0 } := by
      simp only [advance, setTimeout, hnone, if_true, if_pos hlt]
    obtain ⟨n, hn⟩ := sendLoop_timed (σ := σ) (f := f.advance σ now 0) now window priority turns
      (nextSeq σ 0) (by rw [hadv]; exact setTimeout_ne_none hlt _)
    refine ⟨n, ?_⟩
    rw [sendLoop, if_pos hmay]
    dsimp only
    rw [hn, hadv]
  · rw [sendLoop, if_neg hmay]

lemma fireRetxEvent_cases {P : Type} {handleTimeout : Flow X → Flow X × List P} {now : Time}
    {id : ℕ} {r : Flow X × List P}
    (h : f.fireRetxEvent handleTimeout now id = some r) :
    ∃ e ∈ f.retxEvents, e.id = id ∧
      (e.cancelled = true ∧ r = (f.dropRetxEvent id, []) ∨
        e.cancelled = false ∧
          r = ((handleTimeout f).1.dropRetxEvent id, (handleTimeout f).2)) := by
  obtain ⟨e, he, rfl⟩ := Option.map_eq_some_iff.mp h
  obtain ⟨hid, -⟩ : e.id = id ∧ e.time = now := by simpa using List.find?_some he
  refine ⟨e, List.mem_of_find?_eq_some he, hid, ?_⟩
  by_cases hc : e.cancelled = true
  · exact .inl ⟨hc, by simp [hc]⟩
  · exact .inr ⟨by simpa using hc, by simp [hc]⟩

end Loop

variable {σ : FlowSpec} {kind : FlowKind} {f : Flow PFabric}

lemma sendPendingData_timed (kind : FlowKind) (now : Time) (hsome : f.retxEvent ≠ none) :
    ∃ n, (f.sendPendingData σ kind now).1 = { f with nextSeqNo := n } := by
  unfold sendPendingData
  split_ifs
  · exact sendLoop_timed now _ _ _ _ hsome
  · exact ⟨_, rfl⟩

lemma sendPendingData_normal (now : Time) :
    ∀ p ∈ (f.sendPendingData σ kind now).2, p.type = .normal := by
  unfold sendPendingData
  split_ifs
  · exact sendLoop_normal now _ _ _ _
  · simp

lemma startFlow_eq (hkind : kind ≠ .tcp) (now : Time) :
    f.startFlow σ kind now = f.sendPendingData σ kind now := by
  cases kind
  · rfl
  · rfl
  · exact absurd rfl hkind

lemma receive_eq (hkind : kind ≠ .tcp) (now : Time) (p : Packet) :
    f.receive σ kind now p = f.receiveBase σ kind now p := by
  unfold receive
  split
  · exact absurd rfl hkind
  · exact absurd rfl hkind
  · rfl

/-- The flow as it starts. -/
abbrev opened (σ : FlowSpec) : Flow PFabric :=
  { new σ σ.initialCwnd ⟨100000, 0⟩ with started := true }

/-- **What the start of a flow does**: it starts the timer, or nothing at all. -/
lemma startFlow_opened (hkind : kind ≠ .tcp) (now : Time) :
    (OpensWindow σ → ∃ n, ((opened σ).startFlow σ kind now).1 =
      { (opened σ).setTimeout σ (now + σ.retxTimeout) with nextSeqNo := n }) ∧
    (¬ OpensWindow σ → (opened σ).startFlow σ kind now = (opened σ, [])) := by
  have hsend : (opened σ).sendPendingData σ kind now =
      if 0 < σ.size then
        sendLoop σ now (add32 (mul32 σ.initialCwnd σ.mss) 0) ((opened σ).getPriority σ kind)
          (σ.size + 1) 0 (opened σ)
      else (opened σ, []) := rfl
  have hmod : mul32 σ.initialCwnd σ.mss < 4294967296 := Nat.mod_lt _ (by decide)
  obtain ⟨hopen, hclosed⟩ := sendLoop_first (σ := σ) (f := opened σ) rfl rfl hmod now
    ((opened σ).getPriority σ kind) σ.size
  rw [startFlow_eq hkind, hsend, add32_eq hmod, Nat.add_zero]
  refine ⟨fun h => ?_, fun h => ?_⟩
  · rw [if_pos h.1]
    exact hopen h
  · split_ifs
    · exact hclosed h
    · rfl

lemma handleTimeout_timed (kind : FlowKind) (now : Time) (hsome : f.retxEvent ≠ none) :
    (∃ n o, (f.handleTimeout σ kind now).1 =
      ({ f with nextSeqNo := n, cwndMss := 1, own := o } : Flow PFabric).setTimeout σ
        (now + σ.retxTimeout)) ∧
    ∀ p ∈ (f.handleTimeout σ kind now).2, p.type = .normal := by
  have hwith : ∀ o, (∃ n o', ({ f with own := o }.handleTimeoutWith σ
        (fun f => f.sendPendingData σ kind now) now).1 =
      ({ f with nextSeqNo := n, cwndMss := 1, own := o' } : Flow PFabric).setTimeout σ
        (now + σ.retxTimeout)) ∧
      ∀ p ∈ ({ f with own := o }.handleTimeoutWith σ
        (fun f => f.sendPendingData σ kind now) now).2, p.type = .normal := by
    intro o
    obtain ⟨n, hn⟩ := sendPendingData_timed (σ := σ)
      (f := { f with own := o, nextSeqNo := f.lastUnackedSeq, cwndMss := 1 }) kind now hsome
    refine ⟨⟨n, o, ?_⟩, sendPendingData_normal now⟩
    unfold handleTimeoutWith
    dsimp only
    rw [hn]
  cases kind
  · exact hwith f.own
  · exact hwith _
  · exact hwith f.own

lemma newAck_timed (kind : FlowKind) (now : Time) (a : ℕ) (hsome : f.retxEvent ≠ none) :
    (∃ n w o, (f.newAck σ kind now a).1 =
      ({ f with lastUnackedSeq := a, nextSeqNo := n, cwndMss := w, own := o } :
        Flow PFabric).moveTimeout σ now) ∧
    ∀ p ∈ (f.newAck σ kind now a).2, p.type = .normal := by
  obtain ⟨w, o, hcwnd⟩ := increaseCwnd_frame (σ := σ) kind { f with lastUnackedSeq := a }
  have hsome' : (increaseCwnd σ kind { f with lastUnackedSeq := a }).retxEvent ≠ none := by
    rw [hcwnd]
    exact hsome
  obtain ⟨n, hn⟩ := sendPendingData_timed (σ := σ) kind now hsome'
  refine ⟨⟨n, w, o, ?_⟩, sendPendingData_normal now⟩
  unfold newAck
  dsimp only
  rw [hn, hcwnd]

/-! ### The invariant -/

structure Timed (σ : FlowSpec) (f : Flow PFabric) : Prop extends Pointed f where
  idle : f.started = false → f = new σ σ.initialCwnd ⟨100000, 0⟩
  running : f.started = true → f.finished = false →
    f.retxEvent ≠ none ∧ f.lastUnackedSeq < σ.size
  finished : f.finished = true → f.retxEvent = none
  recvTill : f.recvTill ≤ σ.size

structure TimedPacket (σ : FlowSpec) (f : Flow PFabric) (p : Packet) : Prop where
  started : f.started = true
  ack : p.type = .ack → p.seqNo ≤ σ.size

structure Running (σ : FlowSpec) (f : Flow PFabric) : Prop where
  started : f.started = true
  finished : f.finished = false
  lastUnackedSeq : f.lastUnackedSeq < σ.size
  recvTill : f.recvTill ≤ σ.size

lemma Running.timer {g : Flow PFabric} (h : Running σ f)
    (hg : ∃ e es c, g = { f with retxEvent := e, retxEvents := es, retxEventCount := c }) :
    Running σ g := by
  obtain ⟨e, es, c, rfl⟩ := hg
  exact ⟨h.started, h.finished, h.lastUnackedSeq, h.recvTill⟩

def StaysStarted (f g : Flow PFabric) : Prop := f.started = true → g.started = true

abbrev TimedCall (σ : FlowSpec) : Flow PFabric → Flow PFabric × List Packet → Prop :=
  Call (Timed σ) StaysStarted (TimedPacket σ)

lemma timed_new (σ : FlowSpec) : Timed σ (new σ σ.initialCwnd ⟨100000, 0⟩) where
  toPointed := pointed_new σ _ _
  idle := fun _ => rfl
  running := nofun
  finished := nofun
  recvTill := Nat.zero_le _

namespace Timed

lemma disciplined (h : Timed σ f) : TimerDisciplined f :=
  ⟨fun hstarted hfin => h.exists_live (h.running hstarted hfin).1,
    fun hfin => h.live_eq_nil (h.finished hfin)⟩

lemma isRunning (h : Timed σ f) (hstarted : f.started = true) (hfin : f.finished = false) :
    Running σ f :=
  ⟨hstarted, hfin, (h.running hstarted hfin).2, h.recvTill⟩

lemma runs {r : Flow PFabric × List Packet} (hp : Pointed r.1) (hrun : Running σ r.1)
    (hsome : r.1.retxEvent ≠ none) (hps : ∀ p ∈ r.2, p.type = .normal) : TimedCall σ f r where
  inv :=
    { toPointed := hp
      idle := fun h => absurd (hrun.started.symm.trans h) nofun
      running := fun _ _ => ⟨hsome, hrun.lastUnackedSeq⟩
      finished := fun h => absurd (hrun.finished.symm.trans h) nofun
      recvTill := hrun.recvTill }
  le := fun _ => hrun.started
  packets := fun p hmem => ⟨hrun.started, fun hack => absurd ((hps p hmem).symm.trans hack) nofun⟩

lemma noCall (h : Timed σ f) : TimedCall σ f (f, []) := ⟨h, id, by simp⟩

lemma startFlow (hkind : kind ≠ .tcp) (hopen : OpensWindow σ) (h : Timed σ f)
    (hidle : f.started = false) (now : Time) :
    TimedCall σ f (({ f with started := true } : Flow PFabric).startFlow σ kind now) := by
  rw [h.idle hidle]
  have hps : ∀ p ∈ ((opened σ).startFlow σ kind now).2, p.type = .normal := by
    rw [startFlow_eq hkind]
    exact sendPendingData_normal now
  have hopened : Pointed (opened σ) := ⟨rfl, List.nodup_nil, nofun⟩
  have hset := hopened.setTimeout (σ := σ) rfl (now + σ.retxTimeout)
  have hrun : Running σ (opened σ) := ⟨rfl, rfl, hopen.1, Nat.zero_le _⟩
  have hrun' := hrun.timer (setTimeout_frame (σ := σ) _ (now + σ.retxTimeout))
  have hsome := setTimeout_ne_none hrun.lastUnackedSeq (now + σ.retxTimeout)
  obtain ⟨n, hn⟩ := (startFlow_opened hkind now).1 hopen
  refine runs ?_ ?_ ?_ hps <;> rw [hn]
  · exact ⟨hset.live, hset.nodup, hset.fresh⟩
  · exact ⟨hrun'.started, hrun'.finished, hrun'.lastUnackedSeq, hrun'.recvTill⟩
  · exact hsome

lemma dropCancelled (h : Timed σ f) (hstarted : f.started = true) {e : RetxTimeoutEvent}
    (he : e ∈ f.retxEvents) (hc : e.cancelled = true) :
    TimedCall σ f (f.dropRetxEvent e.id, []) := by
  have hptr : (f.dropRetxEvent e.id).retxEvent = f.retxEvent := if_neg (h.ne_cancelled he hc)
  refine ⟨{ toPointed := h.dropRetxEvent e.id, idle := ?_, running := ?_, finished := ?_,
            recvTill := h.recvTill }, id, by simp⟩
  · exact fun hidle => absurd (hstarted.symm.trans hidle) nofun
  · exact fun _ hfin => hptr.symm ▸ h.running hstarted hfin
  · exact fun hfin => hptr.trans (h.finished hfin)

lemma handleTimeout (h : Timed σ f) (hstarted : f.started = true) {e : RetxTimeoutEvent}
    (he : e ∈ f.retxEvents) (hc : e.cancelled = false) (now : Time) :
    TimedCall σ f ((f.handleTimeout σ kind now).1.dropRetxEvent e.id,
      (f.handleTimeout σ kind now).2) := by
  have hptr := h.eq_id (mem_liveTimers.mpr ⟨he, hc⟩)
  have hsome : f.retxEvent ≠ none := fun hnone => nomatch hptr.symm.trans hnone
  have hfin : f.finished = false := Bool.eq_false_iff.mpr fun hfin => hsome (h.finished hfin)
  have hrun := h.isRunning hstarted hfin
  obtain ⟨⟨n, o, hn⟩, hps⟩ := handleTimeout_timed (σ := σ) kind now hsome
  let g : Flow PFabric := { f with nextSeqNo := n, cwndMss := 1, own := o }
  have hg : Pointed g := ⟨h.live, h.nodup, h.fresh⟩
  have hdrop : (f.handleTimeout σ kind now).1.dropRetxEvent e.id =
      (g.dropRetxEvent e.id).setTimeout σ (now + σ.retxTimeout) := by
    rw [hn]
    exact dropRetxEvent_setTimeout (f := g) (h.fresh e he) _
  have hout : Running σ (g.dropRetxEvent e.id) :=
    ⟨hstarted, hfin, hrun.lastUnackedSeq, hrun.recvTill⟩
  have hnone : (g.dropRetxEvent e.id).retxEvent = none := if_pos hptr
  refine runs ?_ ?_ ?_ hps <;> dsimp only <;> rw [hdrop]
  · exact (hg.dropRetxEvent e.id).setTimeout hnone _
  · exact hout.timer (setTimeout_frame _ _)
  · exact setTimeout_ne_none hout.lastUnackedSeq _

/-- **A timer runs out**. -/
lemma retxTimeout (h : Timed σ f) {now : Time} {id : ℕ} {r : Flow PFabric × List Packet}
    (hr : f.fireRetxEvent (fun f => f.handleTimeout σ kind now) now id = some r) :
    TimedCall σ f r := by
  obtain ⟨e, he, rfl, hcases⟩ := fireRetxEvent_cases hr
  have hstarted : f.started = true := by
    by_contra hidle
    rw [h.idle (Bool.eq_false_iff.mpr hidle)] at he
    cases he
  rcases hcases with ⟨hc, rfl⟩ | ⟨hc, rfl⟩
  · exact h.dropCancelled hstarted he hc
  · exact h.handleTimeout hstarted he hc now

/-- **A new ACK comes in**: it moves the timer, or ends the flow and the timer with it. -/
lemma newAck (kind : FlowKind) (hp : Pointed f) (hrun : Running σ f)
    (hsome : f.retxEvent ≠ none) (now : Time)
    {a : ℕ} (ha : a ≤ σ.size) {before : Flow PFabric} :
    (a = σ.size → TimedCall σ before ({ (f.newAck σ kind now a).1 with received := ∅ }.finish now,
      (f.newAck σ kind now a).2)) ∧
    (a ≠ σ.size → TimedCall σ before (f.newAck σ kind now a)) ∧
    (f.newAck σ kind now a).1.finished = false := by
  obtain ⟨⟨n, w, o, hn⟩, hps⟩ := newAck_timed (σ := σ) kind now a hsome
  let g : Flow PFabric := { f with lastUnackedSeq := a, nextSeqNo := n, cwndMss := w, own := o }
  have hg : Pointed g := ⟨hp.live, hp.nodup, hp.fresh⟩
  obtain ⟨hmove, hiff⟩ := hg.moveTimeout (σ := σ) hsome now
  obtain ⟨i, es, c, htime⟩ := moveTimeout_frame (σ := σ) g now
  have hstarted : (g.moveTimeout σ now).started = true := by rw [htime]; exact hrun.started
  have hfin : (g.moveTimeout σ now).finished = false := by rw [htime]; exact hrun.finished
  have hrecv : (g.moveTimeout σ now).recvTill ≤ σ.size := by rw [htime]; exact hrun.recvTill
  refine ⟨fun hend => ?_, fun hend => ?_, hn ▸ hfin⟩
  · have hnone : (g.moveTimeout σ now).retxEvent = none := by
      by_contra hne
      exact absurd (hiff.mp hne) (Nat.not_lt.mpr hend.ge)
    rw [hn]
    exact ⟨⟨⟨hmove.live, hmove.nodup, hmove.fresh⟩,
      fun hidle => absurd (hstarted.symm.trans hidle) nofun, nofun, fun _ => hnone, hrecv⟩,
      fun _ => hstarted,
      fun p hp => ⟨hstarted, fun hack => absurd ((hps p hp).symm.trans hack) nofun⟩⟩
  · have hlt : a < σ.size := lt_of_le_of_ne ha hend
    have hlast : (g.moveTimeout σ now).lastUnackedSeq < σ.size := by rw [htime]; exact hlt
    refine runs ?_ ?_ ?_ hps <;> rw [hn]
    · exact hmove
    · exact ⟨hstarted, hfin, hlast, hrecv⟩
    · exact hiff.mpr hlt

lemma receiveAck (h : Timed σ f) (hstarted : f.started = true) (hfin : f.finished = false)
    (now : Time) {a : ℕ} (ha : a ≤ σ.size) (sackList : List ℕ) :
    TimedCall σ f (f.receiveAck σ kind now a sackList) := by
  obtain ⟨hsome, hlast⟩ := h.running hstarted hfin
  have hnote : Pointed (f.noteAck σ a sackList) := ⟨h.live, h.nodup, h.fresh⟩
  have hrun : Running σ (f.noteAck σ a sackList) := ⟨hstarted, hfin, hlast, h.recvTill⟩
  unfold Flow.receiveAck
  dsimp only
  by_cases hnew : (f.noteAck σ a sackList).lastUnackedSeq < a
  · obtain ⟨hdone, hmore, hopen⟩ := newAck kind hnote hrun hsome now ha
    rw [if_pos hnew]
    split_ifs with hend
    · exact hdone hend.1
    · exact hmore fun hsize => hend ⟨hsize, hopen⟩
  · have hle : a ≤ f.lastUnackedSeq := not_lt.mp hnew
    have hend : a ≠ σ.size := by omega
    rw [if_neg hnew, if_neg fun hboth => hend hboth.1]
    exact runs hnote hrun hsome (by simp)

lemma ackLoop_le (received : Finset ℕ) (m turns s recvTill : ℕ) (inSequence : Bool)
    (sackList : List ℕ) (hle : recvTill ≤ σ.size) :
    (ackLoop σ received m turns s recvTill inSequence sackList).1 ≤ σ.size := by
  induction turns generalizing s recvTill inSequence sackList with
  | zero => exact hle
  | succ turns ih =>
    have hnext : nextRecvTill σ recvTill ≤ σ.size := by
      unfold nextRecvTill
      split_ifs <;> omega
    rw [ackLoop]
    split_ifs
    · exact ih _ _ _ _ hnext
    · exact ih _ _ _ _ hle
    · exact ih _ _ _ _ hle
    · exact hle

lemma receiveDataPkt (h : Timed σ f) (hstarted : f.started = true) (p : Packet) :
    TimedCall σ f (f.receiveDataPkt σ p) := by
  obtain ⟨r, b, haccept, -⟩ := accept_frame f p (σ := σ)
  have hle := ackLoop_le (σ := σ) r (max f.maxSeqNoRecv p.seqNo)
    (max f.maxSeqNoRecv p.seqNo + 1) f.recvTill f.recvTill true [] h.recvTill
  unfold Flow.receiveDataPkt
  rw [haccept]
  refine ⟨⟨⟨h.live, h.nodup, h.fresh⟩, fun hidle => absurd (hstarted.symm.trans hidle) nofun,
    h.running, h.finished, hle⟩, id, fun q hq => ⟨hstarted, fun _ => ?_⟩⟩
  obtain rfl := List.mem_singleton.mp hq
  exact hle

lemma receive (hkind : kind ≠ .tcp) (h : Timed σ f) (now : Time) {p : Packet}
    (hp : TimedPacket σ f p) : TimedCall σ f (f.receive σ kind now p) := by
  rw [receive_eq hkind]
  unfold receiveBase
  split_ifs with hfin
  · exact h.noCall
  · split
    case h_1 htype =>
      exact h.receiveAck hp.started (Bool.eq_false_iff.mpr hfin) now (hp.ack htype) _
    case h_2 => exact h.receiveDataPkt hp.started p
    case h_3 => exact h.noCall

end Timed

/-! ### Runs -/

lemma timed_calls (hkind : kind ≠ .tcp) (hopen : OpensWindow σ) :
    Calls (party σ kind) (fun _ _ => True) (Timed σ) StaysStarted (TimedPacket σ) where
  init := by
    unfold party
    rw [if_neg hkind]
    exact timed_new σ
  mono := fun hfg hp => ⟨hfg hp.started, hp.ack⟩
  input := fun {f now i r} _ h hr => by
    cases i with
    | start =>
      obtain ⟨hidle, hr⟩ := Option.ite_none_left_eq_some.mp hr
      obtain rfl := Option.some.inj hr
      exact h.startFlow hkind hopen (Bool.eq_false_iff.mpr hidle) now
    | retxTimeout id => exact h.retxTimeout hr
  receive := fun _ h hp => h.receive hkind _ hp

/-- **The discipline of the timer**: in every state that is reached a flow that is started and
not finished has one timer pending, which `retx_event` points to, and a finished flow has none,
exactly when the flow is not empty and its first window, `initial_cwnd * mss` in 32 bits, has
room for a segment. -/
theorem timerDisciplined_iff (hkind : kind ≠ .tcp) (t₀ : Time) :
    (∀ s, Reach (machine (party σ kind) t₀) s → TimerDisciplined s.party) ↔ OpensWindow σ := by
  refine ⟨fun h => ?_, fun hopen s hs => ((timed_calls hkind hopen).kept.reach hs).1.disciplined⟩
  by_contra hclosed
  have hinit : (party σ kind).init = new σ σ.initialCwnd ⟨100000, 0⟩ := by
    unfold party
    rw [if_neg hkind]
  have hinput : (party σ kind).input t₀ .start (new σ σ.initialCwnd ⟨100000, 0⟩) =
      some (opened σ, []) :=
    congrArg some ((startFlow_opened hkind t₀).2 hclosed)
  have hstep : (machine (party σ kind) t₀).next (machine (party σ kind) t₀).init
      (.input t₀ .start) = some ⟨t₀, opened σ, 0⟩ := by
    simp only [machine, LossyNet.next, hinit, hinput, le_refl, if_true, Option.map_some]
    rfl
  obtain ⟨e, hlive, -⟩ := (h _ (Reach.init.step hstep)).1 rfl rfl
  exact nomatch hlive

theorem timerDisciplined_twoSegments :
    (∀ s, Reach (machine (party twoSegments .flow) 0) s → TimerDisciplined s.party) ∧
      ∀ s, Reach (machine (party twoSegments .pFabric) 0) s → TimerDisciplined s.party :=
  ⟨(timerDisciplined_iff (by decide) 0).mpr (by decide),
    (timerDisciplined_iff (by decide) 0).mpr (by decide)⟩

/-- A window whose bytes are 844 more than `2 ^ 32`. -/
def wideWindow : FlowSpec := { twoSegments with initialCwnd := 2941759 }

/-- **A flow that waits for ever**: its first window has no room for a segment, so that it
starts with nothing sent and no timer. -/
theorem not_timerDisciplined_wideWindow :
    (1 ≤ wideWindow.initialCwnd ∧ 1 ≤ wideWindow.maxCwnd) ∧
    (∃ s, Reach (machine (party wideWindow .flow) 0) s ∧ ¬ TimerDisciplined s.party) ∧
    ∃ s, Reach (machine (party wideWindow .pFabric) 0) s ∧ ¬ TimerDisciplined s.party := by
  have hnone : ∀ f : Flow PFabric, f.started = true ∧ f.finished = false ∧ f.liveTimers = [] →
      ¬ TimerDisciplined f := by
    rintro f ⟨hstarted, hfin, hnil⟩ h
    obtain ⟨e, hlive, -⟩ := h.1 hstarted hfin
    exact nomatch hnil.symm.trans hlive
  refine ⟨by decide, ?_, ?_⟩
  · obtain ⟨s, hs, hP⟩ : ∃ s, Reach (machine (party wideWindow .flow) 0) s ∧
        (s.party.started = true ∧ s.party.finished = false ∧ s.party.liveTimers = []) :=
      exists_reach_of_exec_any [.input 1 .start] (by decide +kernel)
    exact ⟨s, hs, hnone _ hP⟩
  · obtain ⟨s, hs, hP⟩ : ∃ s, Reach (machine (party wideWindow .pFabric) 0) s ∧
        (s.party.started = true ∧ s.party.finished = false ∧ s.party.liveTimers = []) :=
      exists_reach_of_exec_any [.input 1 .start] (by decide +kernel)
    exact ⟨s, hs, hnone _ hP⟩

end DcSim.Flow
