import DcSim.FlowTimer
import DcSim.NdpFlow
import DcSim.RepsFlow
import DcSim.STrackFlow

/-!
The retransmission timers of STrack, REPS and NDP.

A flow of these classes sets its timer at its start. STrack and REPS set it once more if the loop
that sends takes a turn there, and the first of the two is forgotten. When the receiver, or the
sender of NDP, finishes the flow, the timer that runs is not cancelled. Through all else the timer
that is not cancelled is the one `retx_event` points to.
-/

namespace DcSim.Flow

open LossyNet Runs Word32

variable {X P : Type} {σ : FlowSpec} {f g : Flow X} {b : ℕ}

/-! ### What an observer knows of the timers -/

/-- The timers that are cancelled and still in the event queue. -/
def cancelledIds (f : Flow X) : List ℕ := (f.retxEvents.filter (·.cancelled)).map (·.id)

/-- How many timers were set before the last time that one was cancelled, or that the flow was
finished. A timer that is set after a cancel, in one step with it, is the one `retx_event` points
to. -/
def seeTimers (f g : Flow X) (b : ℕ) : ℕ :=
  if f.finished = false ∧ g.finished = true then g.retxEventCount
  else if ∃ id ∈ cancelledIds g, id ∉ cancelledIds f then g.retxEvent.getD g.retxEventCount
  else b

/-- A flow and its packets in flight, with one who sees the timers. -/
def timerMachine [DecidableEq P] (A : Party (Flow X) P Time FlowInput) (t₀ : Time) :
    Machine (State (Flow X) P Time × ℕ) (Act P Time FlowInput) :=
  (machine A t₀).observed 0 fun s t b => seeTimers s.party t.party b

/-- One timer at most is pending, and none from before the last cancel or finish. -/
def OneTimer (f : Flow X) (b : ℕ) : Prop :=
  f.liveTimers.length ≤ 1 ∧ ∀ e ∈ f.liveTimers, b ≤ e.id

structure SameTimers (f g : Flow X) : Prop where
  retxEvent : g.retxEvent = f.retxEvent
  retxEvents : g.retxEvents = f.retxEvents
  retxEventCount : g.retxEventCount = f.retxEventCount
  started : g.started = f.started

namespace SameTimers

lemma refl (f : Flow X) : SameTimers f f := ⟨rfl, rfl, rfl, rfl⟩

lemma trans {h : Flow X} (hfg : SameTimers f g) (hgh : SameTimers g h) : SameTimers f h :=
  ⟨hgh.retxEvent.trans hfg.retxEvent, hgh.retxEvents.trans hfg.retxEvents,
    hgh.retxEventCount.trans hfg.retxEventCount, hgh.started.trans hfg.started⟩

lemma liveTimers (h : SameTimers f g) : g.liveTimers = f.liveTimers := by
  rw [Flow.liveTimers, h.retxEvents, Flow.liveTimers]

lemma cancelledIds (h : SameTimers f g) : g.cancelledIds = f.cancelledIds := by
  rw [Flow.cancelledIds, h.retxEvents, Flow.cancelledIds]

lemma pointed (h : SameTimers f g) (hp : Pointed f) : Pointed g where
  live := by rw [h.liveTimers, h.retxEvent, hp.live]
  nodup := h.retxEvents ▸ hp.nodup
  fresh := by rw [h.retxEvents, h.retxEventCount]; exact hp.fresh

lemma dropRetxEvent (h : SameTimers f g) (id : ℕ) :
    SameTimers (f.dropRetxEvent id) (g.dropRetxEvent id) :=
  ⟨by simp only [Flow.dropRetxEvent, h.retxEvent],
    by simp only [Flow.dropRetxEvent, h.retxEvents], h.retxEventCount, h.started⟩

lemma setTimeout (h : SameTimers f g) (hlast : g.lastUnackedSeq = f.lastUnackedSeq)
    (time : Time) : SameTimers (f.setTimeout σ time) (g.setTimeout σ time) := by
  unfold Flow.setTimeout
  rw [hlast]
  split_ifs
  · exact ⟨by rw [h.retxEventCount], by rw [h.retxEvents, h.retxEventCount],
      by rw [h.retxEventCount], h.started⟩
  · exact h

lemma cancelRetxEvent (h : SameTimers f g) :
    SameTimers f.cancelRetxEvent g.cancelRetxEvent :=
  ⟨rfl, by simp only [Flow.cancelRetxEvent, h.retxEvent, h.retxEvents], h.retxEventCount,
    h.started⟩

lemma moveTimeout (h : SameTimers f g) (hlast : g.lastUnackedSeq = f.lastUnackedSeq)
    (now : Time) : SameTimers (f.moveTimeout σ now) (g.moveTimeout σ now) := by
  have hlast' : g.cancelRetxEvent.lastUnackedSeq = f.cancelRetxEvent.lastUnackedSeq := hlast
  unfold Flow.moveTimeout
  dsimp only
  rw [h.retxEvent, hlast']
  split_ifs
  · exact h
  · exact h.cancelRetxEvent.setTimeout hlast _
  · exact h.cancelRetxEvent

lemma moveTo (h : SameTimers f g) (a : ℕ) (now : Time) :
    SameTimers ({ f with lastUnackedSeq := a }.moveTimeout σ now)
      ({ g with lastUnackedSeq := a }.moveTimeout σ now) := by
  have hsame : SameTimers { f with lastUnackedSeq := a } { g with lastUnackedSeq := a } :=
    ⟨h.retxEvent, h.retxEvents, h.retxEventCount, h.started⟩
  exact hsame.moveTimeout rfl now

end SameTimers

structure Quiet (f g : Flow X) : Prop extends SameTimers f g where
  lastUnackedSeq : g.lastUnackedSeq = f.lastUnackedSeq
  finished : g.finished = f.finished

lemma Quiet.refl (f : Flow X) : Quiet f f := ⟨.refl f, rfl, rfl⟩

lemma Quiet.trans {h : Flow X} (hfg : Quiet f g) (hgh : Quiet g h) : Quiet f h :=
  ⟨hfg.toSameTimers.trans hgh.toSameTimers, hgh.lastUnackedSeq.trans hfg.lastUnackedSeq,
    hgh.finished.trans hfg.finished⟩

/-! ### The invariant -/

structure Watched (σ : FlowSpec) (init f : Flow X) (b : ℕ) : Prop extends Pointed f where
  finished : f.finished = false
  idle : f.started = false → f = init
  running : f.started = true → 0 < σ.size → f.retxEvent ≠ none
  lastUnackedSeq : f.retxEvent ≠ none → f.lastUnackedSeq < σ.size
  le_id : ∀ id, f.retxEvent = some id → b ≤ id
  le_count : b ≤ f.retxEventCount

namespace Watched

variable {init : Flow X}

lemma oneTimer (h : Watched σ init f b) : OneTimer f b := by
  refine ⟨?_, fun e he => h.le_id e.id (h.eq_id he)⟩
  have hlen : f.liveTimers.length = f.retxEvent.toList.length := by
    rw [← h.live, List.length_map]
  rw [hlen]
  cases f.retxEvent <;> simp

lemma seeTimers_eq (hfin : g.finished = false) (hsub : g.cancelledIds ⊆ f.cancelledIds) :
    seeTimers f g b = b := by
  unfold seeTimers
  rw [if_neg (by simp [hfin]), if_neg]
  rintro ⟨id, hid, hnot⟩
  exact hnot (hsub hid)

lemma same (h : Watched σ init f b) (hs : SameTimers f g) (hstarted : f.started = true)
    (hfin : g.finished = false) (hlast : g.lastUnackedSeq < σ.size) :
    Watched σ init g (seeTimers f g b) := by
  rw [seeTimers_eq hfin (hs.cancelledIds ▸ List.Subset.refl _)]
  exact
    { toPointed := hs.pointed h.toPointed
      finished := hfin
      idle := fun hidle => absurd (hidle.symm.trans (hs.started.trans hstarted)) Bool.false_ne_true
      running := fun _ hpos => hs.retxEvent ▸ h.running hstarted hpos
      lastUnackedSeq := fun _ => hlast
      le_id := fun id hid => h.le_id id (hs.retxEvent ▸ hid)
      le_count := hs.retxEventCount ▸ h.le_count }

lemma renew (hb : b ≤ f.retxEventCount) (hp : Pointed g) (hfin : g.finished = false)
    (hstarted : g.started = true) (hlast : g.lastUnackedSeq < σ.size)
    (hptr : g.retxEvent = some f.retxEventCount) : Watched σ init g (seeTimers f g b) := by
  obtain ⟨e, hlive, hid⟩ := hp.exists_live (by simp [hptr])
  have he := (mem_liveTimers.mp (hlive ▸ List.mem_singleton_self e)).1
  have hcount : f.retxEventCount < g.retxEventCount := by
    rw [hptr] at hid
    exact Option.some.inj hid ▸ hp.fresh e he
  have hle : seeTimers f g b ≤ f.retxEventCount := by
    unfold seeTimers
    rw [if_neg (by simp [hfin])]
    split_ifs
    · rw [hptr]
      exact le_rfl
    · exact hb
  exact
    { toPointed := hp
      finished := hfin
      idle := fun hidle => absurd (hidle.symm.trans hstarted) Bool.false_ne_true
      running := fun _ _ => by simp [hptr]
      lastUnackedSeq := fun _ => hlast
      le_id := fun id hid => by
        rw [hptr] at hid
        exact Option.some.inj hid ▸ hle
      le_count := hle.trans hcount.le }

end Watched

lemma moveTimeout_retxEvent {a : ℕ} (hsome : f.retxEvent ≠ none) (ha : a < σ.size) (now : Time) :
    ({ f with lastUnackedSeq := a }.moveTimeout σ now).retxEvent = some f.retxEventCount := by
  have hlt : ({ f with lastUnackedSeq := a } : Flow X).cancelRetxEvent.lastUnackedSeq < σ.size := ha
  rw [moveTimeout, if_neg hsome]
  dsimp only
  rw [if_pos hlt, setTimeout, if_pos hlt]
  rfl

/-! ### A class of flows -/

/-- What the events of a class do with the timers of its flows: whether the start sets two, and
whether a packet finishes the flow. -/
structure TimedClass (A : Party (Flow X) P Time FlowInput) (σ : FlowSpec) (opens : Prop)
    (completes : Flow X → P → Prop) (good : P → Prop) : Prop where
  init : ∃ w o, A.init = new σ w o
  start {t : Time} {f : Flow X} {r : Flow X × List P} : A.input t .start f = some r →
    f.started = false ∧ (f = A.init →
      (opens → r.1.liveTimers.length = 2) ∧
      (¬ opens → (∃ time, SameTimers ({ f with started := true }.setTimeout σ time) r.1) ∧
        r.1.finished = false ∧ r.1.lastUnackedSeq = 0) ∧
      ∀ p ∈ r.2, 0 < σ.size ∧ good p)
  retxTimeout {t : Time} {id : ℕ} {f : Flow X} {r : Flow X × List P} :
    A.input t (.retxTimeout id) f = some r → ∃ e ∈ f.retxEvents, e.id = id ∧
      (e.cancelled = true ∧ r = (f.dropRetxEvent id, []) ∨
        e.cancelled = false ∧ (f.retxEvent ≠ none →
          (∃ time, SameTimers ((f.setTimeout σ time).dropRetxEvent id) r.1) ∧
          r.1.finished = f.finished ∧ r.1.lastUnackedSeq = f.lastUnackedSeq ∧ ∀ p ∈ r.2, good p))
  receive {t : Time} {p : P} {f : Flow X} : f.finished = false → f.retxEvent ≠ none →
    f.lastUnackedSeq < σ.size → good p →
    (completes f p → SameTimers f (A.receive t p f).1 ∧ (A.receive t p f).1.finished = true) ∧
    (¬ completes f p →
      ((A.receive t p f).1.finished = false ∧ (A.receive t p f).1.lastUnackedSeq < σ.size) ∧
      (∀ q ∈ (A.receive t p f).2, good q) ∧
      (SameTimers f (A.receive t p f).1 ∨ ∃ a < σ.size,
        SameTimers ({ f with lastUnackedSeq := a }.moveTimeout σ t) (A.receive t p f).1))

/-- The condition on a step: the start sets one timer only, and no packet finishes the flow. -/
def TimerStep (opens : Prop) (completes : Flow X → P → Prop) (f : Flow X) :
    Act P Time FlowInput → Prop
  | .input _ .start => ¬ opens
  | .deliver _ p => ¬ completes f p
  | _ => True

namespace TimedClass

variable {A : Party (Flow X) P Time FlowInput} {opens : Prop} {completes : Flow X → P → Prop}
  {good : P → Prop} {S : Multiset P}

/-- The packets in flight are of a flow that is started. -/
def Flying (σ : FlowSpec) (good : P → Prop) (f : Flow X) (S : Multiset P) : Prop :=
  ∀ p ∈ S, f.started = true ∧ 0 < σ.size ∧ good p

lemma watched_init (h : TimedClass A σ opens completes good) : Watched σ A.init A.init 0 := by
  obtain ⟨w, o, hinit⟩ := h.init
  rw [hinit]
  exact
    { toPointed := pointed_new σ w o
      finished := rfl
      idle := fun _ => rfl
      running := fun hstarted => absurd hstarted Bool.false_ne_true
      lastUnackedSeq := fun hsome => absurd rfl hsome
      le_id := fun id hid => absurd hid (Option.some_ne_none id).symm
      le_count := le_rfl }

lemma started_of_mem (h : TimedClass A σ opens completes good) (hw : Watched σ A.init f b)
    {e : RetxTimeoutEvent} (he : e ∈ f.retxEvents) : f.started = true := by
  by_contra hidle
  obtain ⟨w, o, hinit⟩ := h.init
  rw [hw.idle (Bool.eq_false_iff.mpr hidle), hinit] at he
  exact absurd he List.not_mem_nil

lemma watched_start (h : TimedClass A σ opens completes good) (hw : Watched σ A.init f b)
    (hS : Flying σ good f S) (hopens : ¬ opens) {t : Time} {r : Flow X × List P}
    (hr : A.input t .start f = some r) :
    Watched σ A.init r.1 (seeTimers f r.1 b) ∧ Flying σ good r.1 (S + (r.2 : Multiset P)) := by
  obtain ⟨hidle, hstart⟩ := h.start hr
  obtain ⟨-, hone, hsent⟩ := hstart (hw.idle hidle)
  obtain ⟨⟨time, hsame⟩, hfin, hlast⟩ := hone hopens
  obtain ⟨w, o, hinit⟩ := h.init
  have hnone : f.retxEvent = none := by rw [hw.idle hidle, hinit]; rfl
  have hstarted : Pointed { f with started := true } := ⟨hw.live, hw.nodup, hw.fresh⟩
  obtain ⟨e, es, c, hset⟩ := setTimeout_frame (σ := σ) { f with started := true } time
  have hrun : r.1.started = true := by rw [hsame.started, hset]
  refine ⟨?_, fun p hp => ?_⟩
  · have hp := hsame.pointed (hstarted.setTimeout (σ := σ) hnone time)
    rcases Nat.eq_zero_or_pos σ.size with hzero | hpos
    · have hlt : ¬ ({ f with started := true } : Flow X).lastUnackedSeq < σ.size := by omega
      rw [setTimeout, if_neg hlt] at hsame
      have hcancel : r.1.cancelledIds ⊆ f.cancelledIds := by
        rw [hsame.cancelledIds]
        exact List.Subset.refl _
      rw [Watched.seeTimers_eq hfin hcancel]
      have hptr : r.1.retxEvent = none := hsame.retxEvent.trans hnone
      exact
        { toPointed := hp
          finished := hfin
          idle := fun hidle => absurd (hidle.symm.trans hrun) Bool.false_ne_true
          running := fun _ hpos => absurd hzero hpos.ne'
          lastUnackedSeq := fun hsome => absurd hptr hsome
          le_id := fun id hid => absurd (hptr.symm.trans hid) (Option.some_ne_none id).symm
          le_count := hsame.retxEventCount ▸ hw.le_count }
    · refine .renew hw.le_count hp hfin hrun (hlast ▸ hpos) ?_
      have hlt : ({ f with started := true } : Flow X).lastUnackedSeq < σ.size := by
        rw [hw.idle hidle, hinit]
        exact hpos
      rw [hsame.retxEvent, setTimeout, if_pos hlt]
  · rcases Multiset.mem_add.mp hp with hp | hp
    · exact absurd (hidle.symm.trans (hS p hp).1) Bool.false_ne_true
    · exact ⟨hrun, hsent p (Multiset.mem_coe.mp hp)⟩

lemma watched_retxTimeout (h : TimedClass A σ opens completes good)
    (hw : Watched σ A.init f b) (hS : Flying σ good f S) {t : Time} {id : ℕ}
    {r : Flow X × List P} (hr : A.input t (.retxTimeout id) f = some r) :
    Watched σ A.init r.1 (seeTimers f r.1 b) ∧ Flying σ good r.1 (S + (r.2 : Multiset P)) := by
  obtain ⟨e, he, rfl, hcases⟩ := h.retxTimeout hr
  have hstarted := h.started_of_mem hw he
  rcases hcases with ⟨hc, rfl⟩ | ⟨hc, hlive⟩
  · have hptr : (f.dropRetxEvent e.id).retxEvent = f.retxEvent := if_neg (hw.ne_cancelled he hc)
    have hcancel : (f.dropRetxEvent e.id).cancelledIds ⊆ f.cancelledIds :=
      List.map_subset _ (List.filter_sublist.filter _).subset
    have hsee : seeTimers f (f.dropRetxEvent e.id) b = b := Watched.seeTimers_eq hw.finished hcancel
    refine ⟨?_, fun p hp => hS p (by simpa using hp)⟩
    dsimp only
    rw [hsee]
    exact
      { toPointed := hw.dropRetxEvent e.id
        finished := hw.finished
        idle := fun hidle => absurd (hidle.symm.trans hstarted) Bool.false_ne_true
        running := fun _ hpos => hptr ▸ hw.running hstarted hpos
        lastUnackedSeq := fun hsome => hw.lastUnackedSeq (hptr ▸ hsome)
        le_id := fun id hid => hw.le_id id (hptr ▸ hid)
        le_count := hw.le_count }
  · have hid := hw.eq_id (mem_liveTimers.mpr ⟨he, hc⟩)
    have hsome : f.retxEvent ≠ none := by simp [hid]
    have hlt := hw.lastUnackedSeq hsome
    obtain ⟨⟨time, hsame⟩, hfin, hlast, hsent⟩ := hlive hsome
    rw [dropRetxEvent_setTimeout (hw.fresh e he)] at hsame
    have hnone : (f.dropRetxEvent e.id).retxEvent = none := if_pos hid
    have hp := hsame.pointed ((hw.dropRetxEvent e.id).setTimeout (σ := σ) hnone time)
    obtain ⟨e', es, c, hset⟩ := setTimeout_frame (σ := σ) (f.dropRetxEvent e.id) time
    have hrun : r.1.started = true := by rw [hsame.started, hset]; exact hstarted
    refine ⟨.renew hw.le_count hp (hfin.trans hw.finished) hrun (hlast ▸ hlt) ?_, fun p hp => ?_⟩
    · have hlt' : (f.dropRetxEvent e.id).lastUnackedSeq < σ.size := hlt
      rw [hsame.retxEvent, setTimeout, if_pos hlt']
      rfl
    · rcases Multiset.mem_add.mp hp with hp | hp
      · exact ⟨hrun, (hS p hp).2⟩
      · exact ⟨hrun, by omega, hsent p (Multiset.mem_coe.mp hp)⟩

lemma watched_receive (h : TimedClass A σ opens completes good) (hw : Watched σ A.init f b)
    {p : P} (hS : Flying σ good f (p ::ₘ S)) (hmore : ¬ completes f p) (t : Time) :
    Watched σ A.init (A.receive t p f).1 (seeTimers f (A.receive t p f).1 b) ∧
      Flying σ good (A.receive t p f).1 (S + ((A.receive t p f).2 : Multiset P)) := by
  obtain ⟨⟨hstarted, hpos, hgood⟩, hS⟩ := Multiset.forall_mem_cons.mp hS
  have hsome := hw.running hstarted hpos
  obtain ⟨⟨hfin, hlast⟩, hsent, heffect⟩ :=
    (h.receive (t := t) hw.finished hsome (hw.lastUnackedSeq hsome) hgood).2 hmore
  suffices hinv : Watched σ A.init (A.receive t p f).1 (seeTimers f (A.receive t p f).1 b) ∧
      (A.receive t p f).1.started = true by
    refine ⟨hinv.1, fun q hq => ?_⟩
    rcases Multiset.mem_add.mp hq with hq | hq
    · exact ⟨hinv.2, (hS q hq).2⟩
    · exact ⟨hinv.2, hpos, hsent q (Multiset.mem_coe.mp hq)⟩
  rcases heffect with hsame | ⟨a, ha, hsame⟩
  · exact ⟨hw.same hsame hstarted hfin hlast, hsame.started.trans hstarted⟩
  · have hacked : Pointed { f with lastUnackedSeq := a } := ⟨hw.live, hw.nodup, hw.fresh⟩
    have hp := hsame.pointed (hacked.moveTimeout (σ := σ) hsome t).1
    obtain ⟨e, es, c, hmove⟩ := moveTimeout_frame (σ := σ) { f with lastUnackedSeq := a } t
    have hrun : (A.receive t p f).1.started = true := by rw [hsame.started, hmove]; exact hstarted
    refine ⟨.renew hw.le_count hp hfin hrun hlast ?_, hrun⟩
    rw [hsame.retxEvent]
    exact moveTimeout_retxEvent hsome ha t

/-- **The exact condition** for the flows of a class. -/
theorem oneTimer_iff [DecidableEq P] (h : TimedClass A σ opens completes good) (t₀ : Time)
    (as : List (Act P Time FlowInput)) :
    Always (timerMachine A t₀) (fun s => OneTimer s.1.party s.2) (timerMachine A t₀).init as ↔
      Along (timerMachine A t₀) (fun s a => TimerStep opens completes s.1.party a)
        (timerMachine A t₀).init as := by
  let J : State (Flow X) P Time × ℕ → Prop := fun s =>
    Watched σ A.init s.1.party s.2 ∧ Flying σ good s.1.party s.1.inFlight
  have hinit : J (timerMachine A t₀).init :=
    ⟨h.watched_init, by simp [Flying, timerMachine, Machine.observed, machine]⟩
  refine always_iff_along (J := J) (fun hJ => hJ.1.oneTimer) ?_ ?_ as hinit
  · rintro ⟨s, b⟩ ⟨t, b'⟩ a ⟨hw, hS⟩ hC hobs
    obtain ⟨hn, rfl⟩ := observed_next hobs
    have hsee : seeTimers s.party s.party b = b :=
      Watched.seeTimers_eq hw.finished (List.Subset.refl _)
    rcases next_cases hn with ⟨time, i, r, rfl, hr, rfl⟩ | ⟨time, p, T, rfl, hT, rfl⟩ |
      ⟨p, T, rfl, hT, rfl⟩ | ⟨p, rfl, hp, rfl⟩
    · cases i with
      | start => exact h.watched_start hw hS hC hr
      | retxTimeout id => exact h.watched_retxTimeout hw hS hr
    · exact h.watched_receive hw (hT ▸ hS) hC time
    · exact ⟨hsee.symm ▸ hw, fun q hq => hS q (hT ▸ Multiset.mem_cons_of_mem hq)⟩
    · refine ⟨hsee.symm ▸ hw, fun q hq => ?_⟩
      rcases Multiset.mem_cons.mp hq with rfl | hq
      · exact hS q hp
      · exact hS q hq
  · rintro ⟨s, b⟩ ⟨t, b'⟩ a ⟨hw, hS⟩ hC hobs
    obtain ⟨hn, rfl⟩ := observed_next hobs
    rcases next_cases hn with ⟨time, i, r, rfl, hr, rfl⟩ | ⟨time, p, T, rfl, hT, rfl⟩ |
      ⟨p, T, rfl, -, rfl⟩ | ⟨p, rfl, -, rfl⟩
    · cases i with
      | start =>
        obtain ⟨hidle, hstart⟩ := h.start hr
        have htwo := (hstart (hw.idle hidle)).1 (not_not.mp hC)
        exact fun hone => absurd hone.1 (by simp [htwo])
      | retxTimeout id => exact absurd trivial hC
    · obtain ⟨hstarted, hpos, hgood⟩ := hS p (hT ▸ Multiset.mem_cons_self p T)
      have hsome := hw.running hstarted hpos
      obtain ⟨hsame, hfin⟩ := (h.receive (t := time) hw.finished hsome
        (hw.lastUnackedSeq hsome) hgood).1 (not_not.mp hC)
      -- the timer that runs is older than the finish
      obtain ⟨e, hlive, -⟩ := hw.exists_live hsome
      have he : e ∈ (A.receive time p s.party).1.liveTimers :=
        hsame.liveTimers ▸ hlive ▸ List.mem_singleton_self e
      intro hone
      have hle := hone.2 e he
      have hsee : seeTimers s.party (A.receive time p s.party).1 b =
          (A.receive time p s.party).1.retxEventCount := if_pos ⟨hw.finished, hfin⟩
      have hlt := (hsame.pointed hw.toPointed).fresh e (mem_liveTimers.mp he).1
      exact absurd (hsee ▸ hle) (Nat.not_le.mpr hlt)
    · exact absurd trivial hC
    · exact absurd trivial hC

end TimedClass

/-! ### Receivers that count bytes -/

/-- The receiver finishes the flow with this packet. -/
def CountCompletes (σ : FlowSpec) (f : Flow X) (p : Packet) : Prop :=
  p.type = .normal ∧ f.finished = false ∧ σ.size ≤ (f.accept σ p).receivedBytes

instance (σ : FlowSpec) (f : Flow X) (p : Packet) : Decidable (CountCompletes σ f p) :=
  inferInstanceAs (Decidable (_ ∧ _))

def AckOfPart (σ : FlowSpec) (p : Packet) : Prop := p.type = .ack → p.seqNo < σ.size

lemma ackOfPart_of_normal {p : Packet} (hp : p.type = .normal) : AckOfPart σ p := fun hack =>
  absurd (hp.symm.trans hack) nofun

lemma receiveCounted_timers (hfin : f.finished = false) (hlast : f.lastUnackedSeq < σ.size)
    (now : Time) {p : Packet} (hp : p.type = .normal) :
    (CountCompletes σ f p → SameTimers f (f.receiveCounted σ now p).1 ∧
      (f.receiveCounted σ now p).1.finished = true) ∧
    (¬ CountCompletes σ f p →
      ((f.receiveCounted σ now p).1.finished = false ∧
        (f.receiveCounted σ now p).1.lastUnackedSeq < σ.size) ∧
      (∀ q ∈ (f.receiveCounted σ now p).2, AckOfPart σ q) ∧
      SameTimers f (f.receiveCounted σ now p).1) := by
  obtain ⟨r, b, hacc, -⟩ := accept_frame f p (σ := σ)
  unfold CountCompletes receiveCounted countAck
  rw [if_neg (by simp [hfin])]
  dsimp only
  constructor
  · rintro ⟨-, -, hend⟩
    rw [if_pos ⟨hend, by rw [hacc]; exact hfin⟩, hacc]
    exact ⟨⟨rfl, rfl, rfl, rfl⟩, rfl⟩
  · intro hmore
    have hlt : (f.accept σ p).receivedBytes < σ.size :=
      not_le.mp fun hend => hmore ⟨hp, hfin, hend⟩
    rw [if_neg fun h => absurd h.1 (Nat.not_le.mpr hlt)]
    refine ⟨?_, fun q hq => ?_, ?_⟩
    · rw [hacc]
      exact ⟨hfin, hlast⟩
    · obtain rfl := List.mem_singleton.mp hq
      exact fun _ => hlt
    · rw [hacc]
      exact ⟨rfl, rfl, rfl, rfl⟩

/-! ### What the classes have in common -/

lemma setTimeout_keeps (f : Flow X) (time : Time) :
    (f.setTimeout σ time).lastUnackedSeq = f.lastUnackedSeq ∧
      (f.setTimeout σ time).finished = f.finished := by
  obtain ⟨e, es, c, hset⟩ := f.setTimeout_frame (σ := σ) time
  rw [hset]
  exact ⟨rfl, rfl⟩

lemma Quiet.moveTimeout_timers {a : ℕ} (h : Quiet { f with lastUnackedSeq := a } g)
    (now : Time) : ((g.moveTimeout σ now).finished = f.finished ∧
      (g.moveTimeout σ now).lastUnackedSeq = a) ∧
    SameTimers ({ f with lastUnackedSeq := a }.moveTimeout σ now) (g.moveTimeout σ now) := by
  refine ⟨?_, h.toSameTimers.moveTimeout h.lastUnackedSeq now⟩
  obtain ⟨e, es, c, hmove⟩ := g.moveTimeout_frame (σ := σ) now
  rw [hmove]
  exact ⟨h.finished, h.lastUnackedSeq⟩

lemma length_liveTimers_setTimeout (hnil : f.retxEvents = []) (hlt : f.lastUnackedSeq < σ.size)
    {time : Time} (hset : SameTimers (f.setTimeout σ time) g)
    (hlast : g.lastUnackedSeq = f.lastUnackedSeq) (time' : Time) :
    (g.setTimeout σ time').liveTimers.length = 2 := by
  have hevents : g.retxEvents = [⟨f.retxEventCount, time, false⟩] := by
    rw [hset.retxEvents, setTimeout, if_pos hlt, hnil]
    rfl
  rw [setTimeout, if_pos (hlast ▸ hlt), liveTimers, hevents]
  rfl

lemma handleTimeoutWith_timers {sendPendingData : Flow X → Flow X × List P} (hfg : Quiet f g)
    (hsend : Quiet { g with nextSeqNo := g.lastUnackedSeq, cwndMss := 1 }
      (sendPendingData { g with nextSeqNo := g.lastUnackedSeq, cwndMss := 1 }).1) (now : Time) :
    (∃ time, SameTimers (f.setTimeout σ time) (g.handleTimeoutWith σ sendPendingData now).1) ∧
    (g.handleTimeoutWith σ sendPendingData now).1.finished = f.finished ∧
    (g.handleTimeoutWith σ sendPendingData now).1.lastUnackedSeq = f.lastUnackedSeq := by
  have hback : Quiet g { g with nextSeqNo := g.lastUnackedSeq, cwndMss := 1 } :=
    ⟨⟨rfl, rfl, rfl, rfl⟩, rfl, rfl⟩
  have hquiet := (hfg.trans hback).trans hsend
  obtain ⟨hlast, hfin⟩ := setTimeout_keeps (σ := σ)
    (sendPendingData { g with nextSeqNo := g.lastUnackedSeq, cwndMss := 1 }).1
    (now + σ.retxTimeout)
  exact ⟨⟨_, hquiet.toSameTimers.setTimeout hquiet.lastUnackedSeq _⟩, hfin.trans hquiet.finished,
    hlast.trans hquiet.lastUnackedSeq⟩

lemma fireRetxEvent_timers {handleTimeout : Flow X → Flow X × List P} {good : P → Prop}
    {now : Time} {id : ℕ} {r : Flow X × List P}
    (hhandle : f.retxEvent ≠ none →
      ((∃ time, SameTimers (f.setTimeout σ time) (handleTimeout f).1) ∧
        (handleTimeout f).1.finished = f.finished ∧
        (handleTimeout f).1.lastUnackedSeq = f.lastUnackedSeq) ∧
      ∀ p ∈ (handleTimeout f).2, good p)
    (hr : f.fireRetxEvent handleTimeout now id = some r) :
    ∃ e ∈ f.retxEvents, e.id = id ∧ (e.cancelled = true ∧ r = (f.dropRetxEvent id, []) ∨
      e.cancelled = false ∧ (f.retxEvent ≠ none →
        (∃ time, SameTimers ((f.setTimeout σ time).dropRetxEvent id) r.1) ∧
        r.1.finished = f.finished ∧ r.1.lastUnackedSeq = f.lastUnackedSeq ∧
        ∀ p ∈ r.2, good p)) := by
  obtain ⟨e, he, hid, hcases⟩ := fireRetxEvent_cases hr
  refine ⟨e, he, hid, hcases.imp_right fun ⟨hc, heq⟩ => ⟨hc, fun hsome => ?_⟩⟩
  obtain ⟨⟨⟨time, hsame⟩, hfin, hlast⟩, hgood⟩ := hhandle hsome
  rw [heq]
  exact ⟨⟨time, hsame.dropRetxEvent id⟩, hfin, hlast, hgood⟩

lemma start_timers {opens : Prop} {r : Flow X × List P} (hnil : f.retxEvents = [])
    (hlast : f.lastUnackedSeq = 0) (hfin : f.finished = false)
    (hfg : Quiet f g)
    (hopen : opens → 0 < σ.size ∧
      (∃ time, SameTimers (g.setTimeout σ time) r.1) ∧ r.1.lastUnackedSeq = g.lastUnackedSeq)
    (hclosed : ¬ opens → Quiet g r.1) (time : Time) :
    (opens → (r.1.setTimeout σ time).liveTimers.length = 2) ∧
    (¬ opens → (∃ time', SameTimers (f.setTimeout σ time') (r.1.setTimeout σ time)) ∧
      (r.1.setTimeout σ time).finished = false ∧ (r.1.setTimeout σ time).lastUnackedSeq = 0) := by
  obtain ⟨hkeep, hkeep'⟩ := setTimeout_keeps (σ := σ) r.1 time
  refine ⟨fun h => ?_, fun h => ?_⟩
  · obtain ⟨hpos, ⟨time', hset⟩, hl⟩ := hopen h
    refine length_liveTimers_setTimeout (hfg.retxEvents.trans hnil) ?_ hset hl time
    rw [hfg.lastUnackedSeq, hlast]
    exact hpos
  · have hquiet := hfg.trans (hclosed h)
    exact ⟨⟨time, hquiet.toSameTimers.setTimeout hquiet.lastUnackedSeq time⟩,
      hkeep'.trans (hquiet.finished.trans hfin), hkeep.trans (hquiet.lastUnackedSeq.trans hlast)⟩

end DcSim.Flow

namespace DcSim.RepsFlow

open DcSim.Flow LossyNet Word32

variable {σ : FlowSpec} {f : Flow Unit}

lemma sendPendingData_quiet (now : Time) (hsome : f.retxEvent ≠ none) :
    Quiet f (sendPendingData σ f now).1 ∧ ∀ p ∈ (sendPendingData σ f now).2, AckOfPart σ p := by
  unfold sendPendingData
  split_ifs
  · exact ⟨.refl f, by simp⟩
  · obtain ⟨n, hn⟩ := sendLoop_timed (σ := σ) now (add32 (mul32 f.cwndMss σ.mss)
      f.scoreboardSackBytes) 1 (σ.size + 1) f.nextSeqNo hsome
    exact ⟨hn ▸ ⟨⟨rfl, rfl, rfl, rfl⟩, rfl, rfl⟩,
      fun p hp => ackOfPart_of_normal (sendLoop_normal now _ _ _ _ p hp)⟩
  · exact ⟨.refl f, by simp⟩

lemma sendPendingData_first (now : Time) :
    let g : Flow Unit := { new σ σ.initialCwnd () with started := true, startTime := now }
    (OpensWindow σ → 0 < σ.size ∧
      (∃ time, SameTimers (g.setTimeout σ time) (sendPendingData σ g now).1) ∧
      (sendPendingData σ g now).1.lastUnackedSeq = g.lastUnackedSeq) ∧
    (¬ OpensWindow σ → Quiet g (sendPendingData σ g now).1) ∧
    ∀ p ∈ (sendPendingData σ g now).2, 0 < σ.size ∧ AckOfPart σ p := by
  intro g
  have hmod : mul32 σ.initialCwnd σ.mss < 4294967296 := Nat.mod_lt _ (by decide)
  have hsend : sendPendingData σ g now = if 0 < σ.size then
      sendLoop σ now (add32 (mul32 σ.initialCwnd σ.mss) 0) 1 (σ.size + 1) 0 g else (g, []) := rfl
  obtain ⟨hopen, hclosed⟩ := sendLoop_first (σ := σ) (f := g) rfl rfl hmod now 1 σ.size
  rw [hsend, add32_eq hmod, Nat.add_zero]
  split_ifs with hpos
  · refine ⟨fun h => ?_, fun h => hclosed h ▸ .refl g, fun p hp =>
      ⟨hpos, ackOfPart_of_normal (sendLoop_normal now _ _ _ _ p hp)⟩⟩
    obtain ⟨n, hn⟩ := hopen h
    rw [hn]
    exact ⟨hpos, ⟨_, ⟨rfl, rfl, rfl, rfl⟩⟩, (setTimeout_keeps g _).1⟩
  · exact ⟨fun h => absurd h.1 hpos, fun _ => .refl g, by simp⟩

lemma newAck_timers (now : Time) (a : ℕ) (hsome : f.retxEvent ≠ none) :
    ((newAck σ f now a).1.finished = f.finished ∧ (newAck σ f now a).1.lastUnackedSeq = a) ∧
    (∀ p ∈ (newAck σ f now a).2, AckOfPart σ p) ∧
    SameTimers ({ f with lastUnackedSeq := a }.moveTimeout σ now) (newAck σ f now a).1 := by
  obtain ⟨c, hcwnd⟩ := ({ f with lastUnackedSeq := a }.prune a).increaseCwndBase_frame (σ := σ)
  have hopen : Quiet { f with lastUnackedSeq := a }
      (({ f with lastUnackedSeq := a }.prune a).increaseCwndBase σ) := by
    rw [hcwnd]
    exact ⟨⟨rfl, rfl, rfl, rfl⟩, rfl, rfl⟩
  have hsome' : (({ f with lastUnackedSeq := a }.prune a).increaseCwndBase σ).retxEvent ≠ none := by
    rw [hopen.retxEvent]
    exact hsome
  obtain ⟨hquiet, hsent⟩ := sendPendingData_quiet (σ := σ) now hsome'
  obtain ⟨hkeep, hsame⟩ := (hopen.trans hquiet).moveTimeout_timers (σ := σ) now
  exact ⟨hkeep, hsent, hsame⟩

lemma receiveAck_timers (hfin : f.finished = false) (hsome : f.retxEvent ≠ none)
    (hlast : f.lastUnackedSeq < σ.size) (now : Time) {a : ℕ} (ha : a < σ.size)
    (sackList : List ℕ) :
    ((receiveAck σ f now a sackList).1.finished = false ∧
      (receiveAck σ f now a sackList).1.lastUnackedSeq < σ.size) ∧
    (∀ p ∈ (receiveAck σ f now a sackList).2, AckOfPart σ p) ∧
    (SameTimers f (receiveAck σ f now a sackList).1 ∨ ∃ b < σ.size,
      SameTimers ({ f with lastUnackedSeq := b }.moveTimeout σ now)
        (receiveAck σ f now a sackList).1) := by
  unfold receiveAck
  dsimp only
  rw [if_neg fun h => absurd h.1 ha.ne]
  split_ifs with hnew
  · obtain ⟨⟨hf, hl⟩, hsent, hsame⟩ :=
      newAck_timers (σ := σ) (f := f.noteAck σ a sackList) now a hsome
    have hnote : SameTimers f (f.noteAck σ a sackList) := ⟨rfl, rfl, rfl, rfl⟩
    exact ⟨⟨hf.trans hfin, hl.trans_lt ha⟩, hsent,
      .inr ⟨a, ha, (hnote.moveTo a now).trans hsame⟩⟩
  · exact ⟨⟨hfin, hlast⟩, by simp, .inl ⟨rfl, rfl, rfl, rfl⟩⟩

lemma timedClass : TimedClass (party σ) σ.longTimeout (OpensWindow σ.longTimeout)
    (CountCompletes σ.longTimeout) (AckOfPart σ.longTimeout) where
  init := ⟨_, _, rfl⟩
  start := by
    intro t f r hr
    obtain ⟨hidle, hr⟩ := Option.ite_none_left_eq_some.mp hr
    obtain rfl := Option.some.inj hr
    refine ⟨Bool.eq_false_iff.mpr hidle, fun hinit => ?_⟩
    obtain ⟨hopen, hclosed, hsent⟩ := sendPendingData_first (σ := σ.longTimeout) t
    rw [hinit]
    have hstart : Quiet { (party σ).init with started := true }
        { (party σ).init with started := true, startTime := t } := ⟨⟨rfl, rfl, rfl, rfl⟩, rfl, rfl⟩
    obtain ⟨htwo, hone⟩ := start_timers rfl rfl rfl hstart hopen hclosed
      (t + σ.longTimeout.retxTimeout)
    exact ⟨htwo, hone, hsent⟩
  retxTimeout := by
    intro t id f r hr
    have hr : f.fireRetxEvent (fun f => handleTimeout σ.longTimeout f t) t id = some r := hr
    refine fireRetxEvent_timers (fun hsome => ?_) hr
    obtain ⟨hquiet, hsent⟩ := sendPendingData_quiet (σ := σ.longTimeout)
      (f := { f with nextSeqNo := f.lastUnackedSeq, cwndMss := 1 }) t hsome
    exact ⟨handleTimeoutWith_timers (.refl f) hquiet t, hsent⟩
  receive := by
    intro t p f hfin hsome hlast hgood
    generalize hr : (party σ).receive t p f = r
    replace hr : receive σ.longTimeout f t p = r := hr
    unfold receive at hr
    split at hr <;> subst hr
    case h_1 hack =>
      refine ⟨fun h => absurd (hack.symm.trans h.1) nofun, fun _ => ?_⟩
      exact receiveAck_timers hfin hsome hlast t (hgood hack) p.sackList
    case h_2 hdata =>
      obtain ⟨hend, hmore⟩ := receiveCounted_timers hfin hlast t hdata
      exact ⟨hend, fun h => ⟨(hmore h).1, (hmore h).2.1, .inl (hmore h).2.2⟩⟩
    case h_3 hack hdata =>
      exact ⟨fun h => absurd h.1 hdata, fun _ => ⟨⟨hfin, hlast⟩, by simp, .inl (.refl f)⟩⟩

end DcSim.RepsFlow

namespace DcSim.STrackFlow

open DcSim.Flow LossyNet Word32

variable {σ : FlowSpec} {f : Flow STrack}

lemma sendPendingData_quiet (now : Time) (hsome : f.retxEvent ≠ none) :
    Quiet f (sendPendingData σ f now).1 ∧ ∀ p ∈ (sendPendingData σ f now).2, AckOfPart σ p := by
  unfold sendPendingData
  split_ifs
  · exact ⟨.refl f, by simp⟩
  · obtain ⟨n, hn⟩ := sendLoop_timed (σ := σ) now (add32 (add32 f.own.strackCwnd
      f.scoreboardSackBytes) f.own.inflate) 1 (σ.size + 1) f.nextSeqNo hsome
    have hloop : Quiet f (sendLoop σ now (add32 (add32 f.own.strackCwnd f.scoreboardSackBytes)
        f.own.inflate) 1 (σ.size + 1) f.nextSeqNo f).1 :=
      hn ▸ ⟨⟨rfl, rfl, rfl, rfl⟩, rfl, rfl⟩
    exact ⟨hloop.trans ⟨⟨rfl, rfl, rfl, rfl⟩, rfl, rfl⟩,
      fun p hp => ackOfPart_of_normal (sendLoop_normal now _ _ _ _ p hp)⟩
  · exact ⟨.refl f, by simp⟩

lemma sendPendingData_first (now : Time) :
    let g : Flow STrack := { new σ with started := true, startTime := now }
    (OpensWindow σ → 0 < σ.size ∧
      (∃ time, SameTimers (g.setTimeout σ time) (sendPendingData σ g now).1) ∧
      (sendPendingData σ g now).1.lastUnackedSeq = g.lastUnackedSeq) ∧
    (¬ OpensWindow σ → Quiet g (sendPendingData σ g now).1) ∧
    ∀ p ∈ (sendPendingData σ g now).2, 0 < σ.size ∧ AckOfPart σ p := by
  intro g
  have hmod : mul32 σ.initialCwnd σ.mss < 4294967296 := Nat.mod_lt _ (by decide)
  have hsend : sendPendingData σ g now = if 0 < σ.size then
      noteSent now (sendLoop σ now (add32 (add32 (mul32 σ.initialCwnd σ.mss) 0) 0) 1
        (σ.size + 1) 0 g) else (g, []) := rfl
  obtain ⟨hopen, hclosed⟩ := sendLoop_first (σ := σ) (f := g) rfl rfl hmod now 1 σ.size
  have hzero : add32 (mul32 σ.initialCwnd σ.mss) 0 = mul32 σ.initialCwnd σ.mss := add32_eq hmod
  rw [hsend, hzero, hzero]
  unfold noteSent
  split_ifs with hpos
  · refine ⟨fun h => ?_, fun h => ?_, fun p hp =>
      ⟨hpos, ackOfPart_of_normal (sendLoop_normal now _ _ _ _ p hp)⟩⟩
    · obtain ⟨n, hn⟩ := hopen h
      rw [hn]
      exact ⟨hpos, ⟨_, ⟨rfl, rfl, rfl, rfl⟩⟩, (setTimeout_keeps g _).1⟩
    · rw [hclosed h]
      exact ⟨⟨rfl, rfl, rfl, rfl⟩, rfl, rfl⟩
  · exact ⟨fun h => absurd h.1 hpos, fun _ => .refl g, by simp⟩

lemma newAck_timers (now : Time) (a : ℕ) (hsome : f.retxEvent ≠ none) :
    ((newAck σ f now a).1.finished = f.finished ∧ (newAck σ f now a).1.lastUnackedSeq = a) ∧
    (∀ p ∈ (newAck σ f now a).2, AckOfPart σ p) ∧
    SameTimers ({ f with lastUnackedSeq := a }.moveTimeout σ now) (newAck σ f now a).1 := by
  unfold newAck
  dsimp only
  generalize (if f.own.inFastRecovery = true ∧ f.own.recoverq ≤ a then
    ({ f.own with dupacks := 0, inFastRecovery := false, inflate := 0 } : STrack)
    else { f.own with dupacks := 0 }) = o
  have hopen : Quiet { f with lastUnackedSeq := a }
      ({ f with own := o, lastUnackedSeq := a }.prune a) := ⟨⟨rfl, rfl, rfl, rfl⟩, rfl, rfl⟩
  obtain ⟨hquiet, hsent⟩ := sendPendingData_quiet (σ := σ)
    (f := { f with own := o, lastUnackedSeq := a }.prune a) now hsome
  obtain ⟨hkeep, hsame⟩ := (hopen.trans hquiet).moveTimeout_timers (σ := σ) now
  exact ⟨hkeep, hsent, hsame⟩

lemma dupAck_quiet (now : Time) (hsome : f.retxEvent ≠ none) :
    Quiet f (dupAck σ f now).1 ∧ ∀ p ∈ (dupAck σ f now).2, AckOfPart σ p := by
  have hown : ∀ o : STrack, Quiet f { f with own := o } := fun _ =>
    ⟨⟨rfl, rfl, rfl, rfl⟩, rfl, rfl⟩
  unfold dupAck
  dsimp only
  split_ifs
  · exact ⟨hown _, by simp⟩
  · refine ⟨⟨⟨rfl, rfl, rfl, rfl⟩, rfl, rfl⟩, fun p hp => ?_⟩
    obtain rfl := List.mem_singleton.mp hp
    exact ackOfPart_of_normal rfl
  · obtain ⟨hquiet, hsent⟩ := sendPendingData_quiet (σ := σ)
      (f := { f with own := { f.own with
        dupacks := add32 f.own.dupacks 1
        inflate := add32 f.own.inflate σ.mss } }) now hsome
    exact ⟨(hown _).trans hquiet, hsent⟩
  · exact ⟨hown _, by simp⟩

lemma handleAckStrack_timers (hfin : f.finished = false) (hsome : f.retxEvent ≠ none)
    (hlast : f.lastUnackedSeq < σ.size) (now : Time) {a : ℕ} (ha : a < σ.size) (delay : Time) :
    ((handleAckStrack σ f now a delay).1.finished = false ∧
      (handleAckStrack σ f now a delay).1.lastUnackedSeq < σ.size) ∧
    (∀ p ∈ (handleAckStrack σ f now a delay).2, AckOfPart σ p) ∧
    (SameTimers f (handleAckStrack σ f now a delay).1 ∨ ∃ b < σ.size,
      SameTimers ({ f with lastUnackedSeq := b }.moveTimeout σ now)
        (handleAckStrack σ f now a delay).1) := by
  have hadj : Quiet f (adjustCwnd σ f now delay) := ⟨⟨rfl, rfl, rfl, rfl⟩, rfl, rfl⟩
  have hsome' : (adjustCwnd σ f now delay).retxEvent ≠ none := hsome
  unfold handleAckStrack
  dsimp only
  rw [if_neg fun h => absurd h.1 ha.ne]
  split_ifs with hnew
  · obtain ⟨⟨hf, hl⟩, hsent, hsame⟩ := newAck_timers (σ := σ) now a hsome'
    have hmove := hadj.toSameTimers.moveTo (σ := σ) a now
    exact ⟨⟨hf.trans hfin, hl.trans_lt ha⟩, hsent, .inr ⟨a, ha, hmove.trans hsame⟩⟩
  · obtain ⟨hquiet, hsent⟩ := dupAck_quiet (σ := σ) now hsome'
    have hquiet := hadj.trans hquiet
    exact ⟨⟨hquiet.finished.trans hfin, hquiet.lastUnackedSeq.trans_lt hlast⟩, hsent,
      .inl hquiet.toSameTimers⟩

lemma timedClass : TimedClass (party σ) σ.longTimeout (OpensWindow σ.longTimeout)
    (CountCompletes σ.longTimeout) (AckOfPart σ.longTimeout) where
  init := ⟨_, _, rfl⟩
  start := by
    intro t f r hr
    obtain ⟨hidle, hr⟩ := Option.ite_none_left_eq_some.mp hr
    obtain rfl := Option.some.inj hr
    refine ⟨Bool.eq_false_iff.mpr hidle, fun hinit => ?_⟩
    obtain ⟨hopen, hclosed, hsent⟩ := sendPendingData_first (σ := σ.longTimeout) t
    rw [hinit]
    have hstart : Quiet { (party σ).init with started := true }
        { (party σ).init with started := true, startTime := t } := ⟨⟨rfl, rfl, rfl, rfl⟩, rfl, rfl⟩
    obtain ⟨htwo, hone⟩ := start_timers rfl rfl rfl hstart hopen hclosed
      (t + σ.longTimeout.retxTimeout)
    exact ⟨htwo, hone, hsent⟩
  retxTimeout := by
    intro t id f r hr
    have hr : f.fireRetxEvent (fun f => handleTimeout σ.longTimeout f t) t id = some r := hr
    refine fireRetxEvent_timers (fun hsome => ?_) hr
    let g : Flow STrack := { f with
      own := { f.own with
        strackCwnd := minCwnd σ.longTimeout
        inFastRecovery := false
        inflate := 0
        dupacks := 0 }
      cwndMss := minCwnd σ.longTimeout / σ.longTimeout.mss }
    have hg : Quiet f g := ⟨⟨rfl, rfl, rfl, rfl⟩, rfl, rfl⟩
    obtain ⟨hquiet, hsent⟩ := sendPendingData_quiet (σ := σ.longTimeout)
      (f := { g with nextSeqNo := g.lastUnackedSeq, cwndMss := 1 }) t hsome
    exact ⟨handleTimeoutWith_timers hg hquiet t, hsent⟩
  receive := by
    intro t p f hfin hsome hlast hgood
    generalize hr : (party σ).receive t p f = r
    replace hr : receive σ.longTimeout f t p = r := hr
    unfold receive at hr
    split at hr <;> subst hr
    case h_1 hack =>
      refine ⟨fun h => absurd (hack.symm.trans h.1) nofun, fun _ => ?_⟩
      obtain ⟨hkeep, hsent, heffect⟩ := handleAckStrack_timers (σ := σ.longTimeout)
        (f := eraseSent f p.seqNo) hfin hsome hlast t (hgood hack)
        (measuredDelay σ.longTimeout f t p.seqNo)
      refine ⟨hkeep, hsent, ?_⟩
      have herase : SameTimers f (eraseSent f p.seqNo) := ⟨rfl, rfl, rfl, rfl⟩
      rcases heffect with hsame | ⟨b, hb, hsame⟩
      · exact .inl (herase.trans hsame)
      · exact .inr ⟨b, hb, (herase.moveTo b t).trans hsame⟩
    case h_2 hdata =>
      obtain ⟨hend, hmore⟩ := receiveCounted_timers hfin hlast t hdata
      exact ⟨hend, fun h => ⟨(hmore h).1, (hmore h).2.1, .inl (hmore h).2.2⟩⟩
    case h_3 hack hdata =>
      exact ⟨fun h => absurd h.1 hdata, fun _ => ⟨⟨hfin, hlast⟩, by simp, .inl (.refl f)⟩⟩

end DcSim.STrackFlow

namespace DcSim.NdpFlow

open DcSim.Flow LossyNet Word32

variable {σ : FlowSpec} {f : Flow Ndp}

/-- The receiver, or the sender, finishes the flow with this packet. -/
def Completes (σ : FlowSpec) (f : Flow Ndp) (p : NdpPacket) : Prop :=
  f.finished = false ∧ (p.ndpType = .data ∧ σ.size ≤ (accept σ f p).receivedBytes ∨
    p.ndpType = .ack ∧ σ.size ≤ (processAck σ f p.seqNo).own.cumulativeAck)

instance (σ : FlowSpec) (f : Flow Ndp) (p : NdpPacket) : Decidable (Completes σ f p) :=
  inferInstanceAs (Decidable (_ ∧ _))

lemma sendDataPacket_quiet (f : Flow Ndp) (now : Time) (seq : ℕ) :
    Quiet f (sendDataPacket σ f now seq).1 ∧
      ∀ p ∈ (sendDataPacket σ f now seq).2, 0 < σ.size := by
  unfold sendDataPacket
  split_ifs with hend
  · exact ⟨.refl f, by simp⟩
  · exact ⟨⟨⟨rfl, rfl, rfl, rfl⟩, rfl, rfl⟩, fun _ _ => by omega⟩

lemma rtxLoop_quiet (now : Time) (queue : List ℕ) (f : Flow Ndp) :
    Quiet f (rtxLoop σ now queue f).1 ∧ ∀ p ∈ (rtxLoop σ now queue f).2, 0 < σ.size := by
  induction queue generalizing f with
  | nil => exact ⟨⟨⟨rfl, rfl, rfl, rfl⟩, rfl, rfl⟩, by simp [rtxLoop]⟩
  | cons seq queue ih =>
    have hsend : ∀ r : Flow Ndp × List NdpPacket, (Quiet f r.1 ∧ ∀ p ∈ r.2, 0 < σ.size) →
        Quiet f (rtxLoop σ now queue r.1).1 ∧
          ∀ p ∈ r.2 ++ (rtxLoop σ now queue r.1).2, 0 < σ.size := by
      intro r hr
      refine ⟨hr.1.trans (ih r.1).1, fun p hp => ?_⟩
      rcases List.mem_append.mp hp with hp | hp
      · exact hr.2 p hp
      · exact (ih r.1).2 p hp
    unfold rtxLoop
    split_ifs
    · exact hsend (f, []) ⟨.refl f, by simp⟩
    · exact hsend _ (sendDataPacket_quiet f now seq)
    · exact ⟨⟨⟨rfl, rfl, rfl, rfl⟩, rfl, rfl⟩, by simp⟩

lemma newDataLoop_quiet (now : Time) (turns : ℕ) (f : Flow Ndp) :
    Quiet f (newDataLoop σ now turns f).1 ∧ ∀ p ∈ (newDataLoop σ now turns f).2, 0 < σ.size := by
  induction turns generalizing f with
  | zero => exact ⟨.refl f, by simp [newDataLoop]⟩
  | succ turns ih =>
    unfold newDataLoop
    split_ifs
    · obtain ⟨hquiet, hsent⟩ := sendDataPacket_quiet (σ := σ) f now f.nextSeqNo
      have hnext : Quiet (sendDataPacket σ f now f.nextSeqNo).1
          { (sendDataPacket σ f now f.nextSeqNo).1 with nextSeqNo := nextSeq σ f.nextSeqNo } :=
        ⟨⟨rfl, rfl, rfl, rfl⟩, rfl, rfl⟩
      refine ⟨(hquiet.trans hnext).trans (ih _).1, fun p hp => ?_⟩
      rcases List.mem_append.mp hp with hp | hp
      · exact hsent p hp
      · exact (ih _).2 p hp
    · exact ⟨.refl f, by simp⟩

lemma sendPendingData_quiet (f : Flow Ndp) (now : Time) :
    Quiet f (sendPendingData σ f now).1 ∧ ∀ p ∈ (sendPendingData σ f now).2, 0 < σ.size := by
  unfold sendPendingData
  split_ifs
  · exact ⟨.refl f, by simp⟩
  · obtain ⟨hrtx, hrtx'⟩ := rtxLoop_quiet (σ := σ) now f.own.rtxQueue f
    obtain ⟨hnew, hnew'⟩ := newDataLoop_quiet (σ := σ) now (σ.size + 1)
      (rtxLoop σ now f.own.rtxQueue f).1
    refine ⟨hrtx.trans hnew, fun p hp => ?_⟩
    rcases List.mem_append.mp hp with hp | hp
    · exact hrtx' p hp
    · exact hnew' p hp

lemma accept_quiet (f : Flow Ndp) (p : NdpPacket) : Quiet f (accept σ f p) := by
  unfold accept
  dsimp only
  split_ifs <;> exact ⟨⟨rfl, rfl, rfl, rfl⟩, rfl, rfl⟩

lemma receiveData_timers (hfin : f.finished = false) (hlast : f.lastUnackedSeq < σ.size)
    (now : Time) {p : NdpPacket} (hp : p.ndpType = .data) :
    (Completes σ f p → SameTimers f (receiveData σ f now p).1 ∧
      (receiveData σ f now p).1.finished = true) ∧
    (¬ Completes σ f p → ((receiveData σ f now p).1.finished = false ∧
      (receiveData σ f now p).1.lastUnackedSeq < σ.size) ∧
      SameTimers f (receiveData σ f now p).1) := by
  have hacc := accept_quiet (σ := σ) f p
  have hfin' := hacc.finished.trans hfin
  unfold receiveData
  rw [if_neg (by simp [hfin])]
  dsimp only
  constructor
  · rintro ⟨-, ⟨-, hend⟩ | ⟨hack, -⟩⟩
    · rw [if_pos ⟨hend, hfin'⟩]
      exact ⟨hacc.toSameTimers.trans ⟨rfl, rfl, rfl, rfl⟩, rfl⟩
    · exact absurd (hp.symm.trans hack) nofun
  · intro hmore
    rw [if_neg fun h => hmore ⟨hfin, .inl ⟨hp, h.1⟩⟩]
    exact ⟨⟨hfin', hacc.lastUnackedSeq.trans_lt hlast⟩,
      hacc.toSameTimers.trans ⟨rfl, rfl, rfl, rfl⟩⟩

lemma receiveAck_timers (hfin : f.finished = false) (now : Time) {p : NdpPacket}
    (hp : p.ndpType = .ack) :
    (Completes σ f p → SameTimers f (receiveAck σ f now p.seqNo).1 ∧
      (receiveAck σ f now p.seqNo).1.finished = true) ∧
    (¬ Completes σ f p → ((receiveAck σ f now p.seqNo).1.finished = false ∧
      (receiveAck σ f now p.seqNo).1.lastUnackedSeq < σ.size) ∧
      SameTimers f (receiveAck σ f now p.seqNo).1) := by
  unfold receiveAck
  dsimp only
  constructor
  · rintro ⟨-, ⟨hdata, -⟩ | ⟨-, hend⟩⟩
    · exact absurd (hp.symm.trans hdata) nofun
    · rw [if_pos ⟨hend, hfin⟩]
      exact ⟨⟨rfl, rfl, rfl, rfl⟩, rfl⟩
  · intro hmore
    have hlt : (processAck σ f p.seqNo).own.cumulativeAck < σ.size :=
      not_le.mp fun hend => hmore ⟨hfin, .inr ⟨hp, hend⟩⟩
    rw [if_neg fun h => absurd h.1 (Nat.not_le.mpr hlt)]
    exact ⟨⟨hfin, hlt⟩, ⟨rfl, rfl, rfl, rfl⟩⟩

lemma not_completes {p : NdpPacket} (hdata : p.ndpType ≠ .data) (hack : p.ndpType ≠ .ack) :
    ¬ Completes σ f p := fun h => h.2.elim (fun h => hdata h.1) fun h => hack h.1

lemma timedClass : TimedClass (party σ) σ.longTimeout False (Completes σ.longTimeout)
    (fun _ => True) where
  init := ⟨_, _, rfl⟩
  start := by
    intro t f r hr
    obtain ⟨hidle, hr⟩ := Option.ite_none_left_eq_some.mp hr
    obtain rfl := Option.some.inj hr
    refine ⟨Bool.eq_false_iff.mpr hidle, fun hinit => ?_⟩
    rw [hinit]
    have hstart : Quiet { (party σ).init with started := true }
        { (party σ).init with started := true, startTime := t } := ⟨⟨rfl, rfl, rfl, rfl⟩, rfl, rfl⟩
    obtain ⟨hquiet, hsent⟩ := sendPendingData_quiet (σ := σ.longTimeout)
      { (party σ).init with started := true, startTime := t } t
    obtain ⟨htwo, hone⟩ := start_timers (σ := σ.longTimeout) rfl rfl rfl hstart False.elim
      (fun _ => hquiet) (t + rto)
    exact ⟨htwo, hone, fun p hp => ⟨hsent p hp, trivial⟩⟩
  retxTimeout := by
    intro t id f r hr
    have hr : f.fireRetxEvent (fun f => handleTimeout σ.longTimeout f t) t id = some r := hr
    refine fireRetxEvent_timers (fun _ => ?_) hr
    let g : Flow Ndp := { f with own := { f.own with
      cwnd := σ.longTimeout.initialCwnd
      flightSize := 0
      pullWindow := σ.longTimeout.initialCwnd
      rtxQueue := [] } }
    have hg : Quiet f g := ⟨⟨rfl, rfl, rfl, rfl⟩, rfl, rfl⟩
    obtain ⟨hquiet, -⟩ := sendPendingData_quiet (σ := σ.longTimeout)
      { g with nextSeqNo := g.lastUnackedSeq, cwndMss := 1 } t
    exact ⟨handleTimeoutWith_timers hg hquiet t, fun _ _ => trivial⟩
  receive := by
    intro t p f hfin _ hlast _
    generalize hr : (party σ).receive t p f = r
    replace hr : receive σ.longTimeout f t p = r := hr
    unfold receive at hr
    split at hr <;> subst hr
    case h_1 hdata =>
      obtain ⟨hend, hmore⟩ := receiveData_timers hfin hlast t hdata
      exact ⟨hend, fun h => ⟨(hmore h).1, fun _ _ => trivial, .inl (hmore h).2⟩⟩
    case h_2 hack =>
      obtain ⟨hend, hmore⟩ := receiveAck_timers (σ := σ.longTimeout) hfin t hack
      exact ⟨hend, fun h => ⟨(hmore h).1, fun _ _ => trivial, .inl (hmore h).2⟩⟩
    case h_3 hnack =>
      have hnot : ¬ Completes σ.longTimeout f p := not_completes (by simp [hnack]) (by simp [hnack])
      have hnack : Quiet f (processNack f p.seqNo) := ⟨⟨rfl, rfl, rfl, rfl⟩, rfl, rfl⟩
      have hquiet := hnack.trans (sendPendingData_quiet (σ := σ.longTimeout)
        (processNack f p.seqNo) t).1
      exact ⟨fun h => absurd h hnot, fun _ => ⟨⟨hquiet.finished.trans hfin,
        hquiet.lastUnackedSeq.trans_lt hlast⟩, fun _ _ => trivial, .inl hquiet.toSameTimers⟩⟩
    case h_4 hpull =>
      have hnot : ¬ Completes σ.longTimeout f p := not_completes (by simp [hpull]) (by simp [hpull])
      let g : Flow Ndp := { f with own := { f.own with
        pullWindow := if 0 < f.own.pullWindow then f.own.pullWindow - 1 else f.own.pullWindow } }
      have hg : Quiet f g := ⟨⟨rfl, rfl, rfl, rfl⟩, rfl, rfl⟩
      have hquiet := hg.trans (sendPendingData_quiet (σ := σ.longTimeout) g t).1
      exact ⟨fun h => absurd h hnot, fun _ => ⟨⟨hquiet.finished.trans hfin,
        hquiet.lastUnackedSeq.trans_lt hlast⟩, fun _ _ => trivial, .inl hquiet.toSameTimers⟩⟩

end DcSim.NdpFlow

namespace DcSim.Flow

open LossyNet Runs

/-- **One timer at a time**, for STrack and REPS in each run whose start opens no window and in
which no data packet finishes the flow, and for NDP in each run in which neither a data packet nor
an ACK does. In every other run of theirs there is a state with a second or an overdue timer. -/
theorem oneTimer_classes_iff (σ : FlowSpec) (t₀ : Time) :
    (∀ as, Always (timerMachine (STrackFlow.party σ) t₀) (fun s => OneTimer s.1.party s.2)
        (timerMachine (STrackFlow.party σ) t₀).init as ↔
      Along (timerMachine (STrackFlow.party σ) t₀)
        (fun s a => TimerStep (OpensWindow σ.longTimeout) (CountCompletes σ.longTimeout)
          s.1.party a)
        (timerMachine (STrackFlow.party σ) t₀).init as) ∧
    (∀ as, Always (timerMachine (RepsFlow.party σ) t₀) (fun s => OneTimer s.1.party s.2)
        (timerMachine (RepsFlow.party σ) t₀).init as ↔
      Along (timerMachine (RepsFlow.party σ) t₀)
        (fun s a => TimerStep (OpensWindow σ.longTimeout) (CountCompletes σ.longTimeout)
          s.1.party a)
        (timerMachine (RepsFlow.party σ) t₀).init as) ∧
    ∀ as, Always (timerMachine (NdpFlow.party σ) t₀) (fun s => OneTimer s.1.party s.2)
        (timerMachine (NdpFlow.party σ) t₀).init as ↔
      Along (timerMachine (NdpFlow.party σ) t₀)
        (fun s a => TimerStep False (NdpFlow.Completes σ.longTimeout) s.1.party a)
        (timerMachine (NdpFlow.party σ) t₀).init as :=
  ⟨STrackFlow.timedClass.oneTimer_iff t₀, RepsFlow.timedClass.oneTimer_iff t₀,
    NdpFlow.timedClass.oneTimer_iff t₀⟩

/-- Both segments come. -/
def wholeOfNdp : List (Act NdpPacket Time FlowInput) :=
  [.input 1 .start, .deliver 2 (NdpFlow.dataPacket twoSegments 1 0),
    .deliver 3 (NdpFlow.dataPacket twoSegments 1 1460)]

/-- **The start of STrack and REPS sets two timers**, and a flow of NDP that has come as a whole
has the timer of its start. -/
theorem two_timers_twoSegments :
    (∃ s, exec (machine (STrackFlow.party twoSegments) 0)
        (machine (STrackFlow.party twoSegments) 0).init [.input 1 .start] = some s ∧
      s.party.liveTimers.length = 2) ∧
    (∃ s, exec (machine (RepsFlow.party twoSegments) 0)
        (machine (RepsFlow.party twoSegments) 0).init [.input 1 .start] = some s ∧
      s.party.liveTimers.length = 2) ∧
    ∃ s, exec (machine (NdpFlow.party twoSegments) 0)
        (machine (NdpFlow.party twoSegments) 0).init wholeOfNdp = some s ∧
      s.party.finished = true ∧ s.party.liveTimers.length = 1 :=
  ⟨exists_exec_of_any (by decide +kernel), exists_exec_of_any (by decide +kernel),
    exists_exec_of_any (by decide +kernel)⟩

end DcSim.Flow
