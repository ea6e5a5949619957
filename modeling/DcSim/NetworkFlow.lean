import DcSim.LossyNet
import DcSim.NetworkPlaces

/-!
A flow in the network.

One flow puts its packets into the queues of its two hosts and is handed those that arrive; the
other flows put in what they want. To this flow the network is one that loses, delays and reorders
packets, so that what it does there it can do here, and what holds there in any state holds here.
-/

namespace DcSim

open Runs LossyNet

structure NetworkFlow (Q F : Type) where
  net : Network Q
  party : F

/-- What can happen next: another flow puts in a packet, the flow does something of its own, or an
event of the network is processed. -/
inductive NetworkFlowAct (I : Type)
  | other (time : Time) (p : Packet)
  | input (time : Time) (i : I)
  | process (id : ℕ) (lost : Bool)

/-- The packet an event of the network hands to its flow. -/
def Network.arrival? {Q : Type} (s : Network Q) (id : ℕ) : Option Packet :=
  (s.events.take? id).bind fun r =>
    match r.1.kind with
    | .packetArrival p => some p
    | _ => none

/-- The flow puts packets into the queues of its hosts. -/
def Network.sendAll {Q : Type} (σ : NetworkSpec Q) [DecidableEq Q] (s : Network Q)
    (ps : List Packet) : Option (Network Q) :=
  if ∀ p ∈ ps, σ.hostQueue p.src ∈ σ.queues then
    some (ps.foldl (fun s p => s.inject σ p) s)
  else none

namespace NetworkFlow

variable {Q F I : Type} [DecidableEq Q] (σ : NetworkSpec Q) (A : Party F Packet Time I)
  (flow : FlowId) (startTime : Time)

/-- The flow arrives at its start time, and does nothing of its own before. -/
def next (s : NetworkFlow Q F) : NetworkFlowAct I → Option (NetworkFlow Q F)
  | .other time p =>
    if p.flow ≠ flow then (Network.next σ s.net (.inject time p)).map fun n => ⟨n, s.party⟩
    else none
  | .input time i =>
    if startTime ≤ time ∧ s.net.now ≤ time ∧ s.net.events.NoneBefore time then
      (A.input time i s.party).bind fun r =>
        (Network.sendAll σ { s.net with now := time } r.2).map fun n => ⟨n, r.1⟩
    else none
  | .process id lost =>
    (Network.next σ s.net (.process id lost)).bind fun n =>
      match s.net.arrival? id with
      | some p =>
        if p.flow = flow then
          let r := A.receive n.now p s.party
          (n.sendAll σ r.2).map fun n => ⟨n, r.1⟩
        else some ⟨n, s.party⟩
      | none => some ⟨n, s.party⟩

def machine : Machine (NetworkFlow Q F) (NetworkFlowAct I) :=
  ⟨⟨Network.init σ, A.init⟩, next σ A flow startTime⟩

end NetworkFlow

/-! ### What a step does -/

namespace Network

variable {Q : Type} [DecidableEq Q] {σ : NetworkSpec Q} {s t u : Network Q} {ps : List Packet}

/-- Packets are put in one after the other, at one time. -/
inductive Injects (σ : NetworkSpec Q) : Network Q → List Packet → Network Q → Prop
  | nil {s : Network Q} : Injects σ s [] s
  | cons {s t u : Network Q} {p : Packet} {ps : List Packet} : Step σ s (.inject s.now p) u →
      Injects σ u ps t → Injects σ s (p :: ps) t

lemma Sound.injects (h : Sound σ s) (hs : s.sendAll σ ps = some t) : Injects σ s ps t := by
  induction ps generalizing s with
  | nil =>
    obtain rfl : s = t := by simpa [sendAll] using hs
    exact .nil
  | cons p ps ih =>
    obtain ⟨hin, hs⟩ := Option.ite_none_right_eq_some.1 hs
    have hstep : Step σ s (.inject s.now p) (s.inject σ p) :=
      .inject le_rfl h.notBefore (hin p (List.mem_cons_self ..))
    refine .cons hstep (ih (hstep.sound h) ?_)
    unfold sendAll
    rw [if_pos fun p hp => hin p (List.mem_cons_of_mem _ hp)]
    exact hs

lemma Injects.sound (hs : Injects σ s ps t) (h : Sound σ s) : Sound σ t := by
  induction hs with
  | nil => exact h
  | cons hstep _ ih => exact ih (hstep.sound h)

lemma Injects.now (hs : Injects σ s ps t) : t.now = s.now := by
  induction hs with
  | nil => rfl
  | cons hstep _ ih => cases hstep with | inject => exact ih

lemma Injects.delivered (hs : Injects σ s ps t) : t.delivered = s.delivered := by
  induction hs with
  | nil => rfl
  | cons hstep _ ih => cases hstep with | inject => exact ih

lemma Injects.inFlight (hs : Injects σ s ps t) : t.inFlight σ = s.inFlight σ + ps := by
  induction hs with
  | nil => simp
  | @cons s t u p ps hstep _ ih =>
    cases hstep with
    | inject =>
      have hone : (s.inject σ p).inFlight σ = p ::ₘ s.inFlight σ := by
        unfold Network.inFlight
        rw [← Multiset.cons_add]
        exact congrArg (· + _) (onWay_addEvent s.now rfl)
      rw [ih]
      change (s.inject σ p).inFlight σ + _ = _
      rw [hone, ← Multiset.cons_coe, Multiset.add_cons, Multiset.cons_add]

lemma Step.inFlight {a : NetworkAct} {id : ℕ} {lost : Bool} (ha : a = .process id lost)
    (hstep : Step σ s a t) (h : Sound σ s) :
    (∃ p, s.arrival? id = some p ∧ s.inFlight σ = p ::ₘ t.inFlight σ ∧
        t.delivered = s.delivered ++ [p]) ∨
      s.arrival? id = none ∧ t.delivered = s.delivered ∧
        (t.inFlight σ = s.inFlight σ ∨ ∃ p, s.inFlight σ = p ::ₘ t.inFlight σ) := by
  have harrival : ∀ {e events}, s.events.take? id = some (e, events) →
      (∀ p, e.kind ≠ .packetArrival p) → s.arrival? id = none := by
    intro e events htake hkind
    unfold arrival?
    rw [htake, Option.bind_some]
    split
    · next p hp => exact absurd hp (hkind p)
    · rfl
  have hflight := hstep.flight h
  have hother : s.arrival? id = none → t.delivered = s.delivered → t.injected = s.injected →
      s.arrival? id = none ∧ t.delivered = s.delivered ∧
        (t.inFlight σ = s.inFlight σ ∨ ∃ p, s.inFlight σ = p ::ₘ t.inFlight σ) := by
    intro hnone hdelivered hinjected
    refine ⟨hnone, hdelivered, ?_⟩
    cases hflight with
    | inject p _ _ hnew => simp [hinjected] at hnew
    | arrive p _ _ _ hnew => simp [hdelivered] at hnew
    | drop p hdrop => exact .inr ⟨p, hdrop⟩
    | stay hstay => exact .inl hstay
  cases hstep with
  | inject => cases ha
  | @queuing id' lost' e events p q htake hnone hkind =>
    obtain ⟨rfl, rfl⟩ := NetworkAct.process.inj ha
    have hhistory := begin_history (s := s.after e events) q
    exact .inr (hother (harrival htake (by simp [hkind])) hhistory.2 hhistory.1)
  | @arrival id' lost' e events p htake hnone hkind =>
    obtain ⟨rfl, rfl⟩ := NetworkAct.process.inj ha
    refine .inl ⟨p, ?_, ?_, rfl⟩
    · unfold arrival?
      rw [htake, Option.bind_some, hkind]
    · cases hflight with
      | inject p _ _ _ hnew => exact absurd hnew (by simp)
      | arrive p' hp _ _ hnew =>
        obtain rfl : p = p' := by simpa using hnew
        exact hp
      | drop p _ _ _ hnew => exact absurd hnew (by simp)
      | stay _ _ _ hnew => exact absurd hnew (by simp)
  | rest htake hnone hkind =>
    obtain ⟨rfl, rfl⟩ := NetworkAct.process.inj ha
    exact .inr (hother (harrival htake (by simp [hkind])) rfl rfl)
  | transmit htake hnone hkind =>
    obtain ⟨rfl, rfl⟩ := NetworkAct.process.inj ha
    exact .inr (hother (harrival htake (by simp [hkind])) rfl rfl)

end Network

structure LossyNet.Party.Sends {F P T I : Type*} (A : Party F P T I) (good : P → Prop) : Prop where
  input {t i f r} : A.input t i f = some r → ∀ p ∈ r.2, good p
  receive {t p f} : ∀ p' ∈ (A.receive t p f).2, good p'

namespace NetworkFlow

variable {Q F I : Type} [DecidableEq Q] {σ : NetworkSpec Q} {A : Party F Packet Time I}
  {flow : FlowId} {startTime : Time} {s t : NetworkFlow Q F} {a : NetworkFlowAct I}

/-- **What a step does** to the flow and the network. -/
inductive Step (σ : NetworkSpec Q) (A : Party F Packet Time I) (flow : FlowId) (startTime : Time)
    (s : NetworkFlow Q F) : NetworkFlow Q F → Prop
  | other {time : Time} {p : Packet} {n : Network Q} : p.flow ≠ flow →
      Network.Step σ s.net (.inject time p) n → Step σ A flow startTime s ⟨n, s.party⟩
  | input {time : Time} {i : I} {r : F × List Packet} {n : Network Q} : startTime ≤ time →
      s.net.now ≤ time → s.net.events.NoneBefore time → A.input time i s.party = some r →
      Network.Injects σ { s.net with now := time } r.2 n → Step σ A flow startTime s ⟨n, r.1⟩
  | receive {id : ℕ} {lost : Bool} {p : Packet} {n n' : Network Q} :
      Network.Step σ s.net (.process id lost) n → p.flow = flow →
      s.net.inFlight σ = p ::ₘ n.inFlight σ → n.delivered = s.net.delivered ++ [p] →
      Network.Injects σ n (A.receive n.now p s.party).2 n' →
      Step σ A flow startTime s ⟨n', (A.receive n.now p s.party).1⟩
  | pass {id : ℕ} {lost : Bool} {n : Network Q} : Network.Step σ s.net (.process id lost) n →
      (n.inFlight σ = s.net.inFlight σ ∨ ∃ p, s.net.inFlight σ = p ::ₘ n.inFlight σ) →
      (∀ p ∈ n.delivered, p.flow = flow → p ∈ s.net.delivered) →
      Step σ A flow startTime s ⟨n, s.party⟩

lemma step_of_next (h : Network.Sound σ s.net)
    (hn : next σ A flow startTime s a = some t) : Step σ A flow startTime s t := by
  cases a with
  | other time p =>
    obtain ⟨hflow, hn⟩ := Option.ite_none_right_eq_some.1 hn
    obtain ⟨n, hinject, rfl⟩ := Option.map_eq_some_iff.1 hn
    exact .other hflow (h.step hinject)
  | input time i =>
    obtain ⟨⟨hstart, htime, hnone⟩, hn⟩ := Option.ite_none_right_eq_some.1 hn
    obtain ⟨r, hr, hn⟩ := Option.bind_eq_some_iff.1 hn
    obtain ⟨n, hsend, rfl⟩ := Option.map_eq_some_iff.1 hn
    exact .input hstart htime hnone hr ((h.later hnone).injects hsend)
  | process id lost =>
    obtain ⟨n, hn, hrest⟩ := Option.bind_eq_some_iff.1 hn
    have hstep := h.step hn
    rcases hstep.inFlight rfl h with ⟨p, harrival, hflight, hdelivered⟩ | ⟨harrival, hdelivered,
      hflight⟩
    · rw [harrival] at hrest
      dsimp only at hrest
      split_ifs at hrest with hflow
      · obtain ⟨n', hn', rfl⟩ := Option.map_eq_some_iff.1 hrest
        exact .receive hstep hflow hflight hdelivered ((hstep.sound h).injects hn')
      · obtain rfl := Option.some.inj hrest
        refine .pass hstep (.inr ⟨p, hflight⟩) fun p' hp' hflow' => ?_
        rw [hdelivered] at hp'
        rcases List.mem_append.1 hp' with hp' | hp'
        · exact hp'
        · obtain rfl := List.mem_singleton.1 hp'
          exact absurd hflow' hflow
    · rw [harrival] at hrest
      obtain rfl := Option.some.inj hrest
      exact .pass hstep hflight fun p hp _ => hdelivered ▸ hp

lemma Step.sound (hstep : Step σ A flow startTime s t) (h : Network.Sound σ s.net) :
    Network.Sound σ t.net := by
  cases hstep with
  | other _ hn => exact hn.sound h
  | input _ _ hnone _ hn => exact hn.sound (h.later hnone)
  | receive hn _ _ _ hn' => exact hn'.sound (hn.sound h)
  | pass hn => exact hn.sound h

lemma sound_of_reach (hs : Reach (machine σ A flow startTime) s) : Network.Sound σ s.net :=
  hs.inv (I := fun s => Network.Sound σ s.net) Network.sound_init
    fun _ h hn => (step_of_next h hn).sound h

/-! ### The network is a lossy one -/

variable (σ flow) in
/-- The packets of the flow in flight. -/
def own (s : NetworkFlow Q F) : Multiset Packet := (s.net.inFlight σ).filter (·.flow = flow)

omit [DecidableEq Q] in
lemma filter_cons_own {p : Packet} (S : Multiset Packet) (hp : p.flow = flow) :
    (p ::ₘ S).filter (·.flow = flow) = p ::ₘ S.filter (·.flow = flow) :=
  Multiset.filter_cons_of_pos (p := fun p : Packet => p.flow = flow) S hp

lemma filter_cons_other {p : Packet} (S : Multiset Packet) (hp : p.flow ≠ flow) :
    (p ::ₘ S).filter (·.flow = flow) = S.filter (·.flow = flow) :=
  Multiset.filter_cons_of_neg (p := fun p : Packet => p.flow = flow) S hp

lemma Step.refines (hstep : Step σ A flow startTime s t) (h : Network.Sound σ s.net)
    (hA : A.Sends (·.flow = flow)) {time : Time} (htime : time ≤ s.net.now)
    (hs : Reach (LossyNet.machine A 0) ⟨time, s.party, s.own σ flow⟩) :
    ∃ time' ≤ t.net.now, Reach (LossyNet.machine A 0) ⟨time', t.party, t.own σ flow⟩ := by
  have hfilter : ∀ ps : List Packet, (∀ p ∈ ps, p.flow = flow) →
      (ps : Multiset Packet).filter (·.flow = flow) = ps := fun ps hps =>
    Multiset.filter_eq_self.2 fun p hp => hps p (Multiset.mem_coe.1 hp)
  cases hstep with
  | @other time' p n hflow hn =>
    refine ⟨time, htime.trans (hn.now_le h), ?_⟩
    have hsame : own σ flow (⟨n, s.party⟩ : NetworkFlow Q F) = s.own σ flow := by
      cases hn with
      | inject =>
        have hone : ({ s.net with now := time' }.inject σ p).inFlight σ =
            p ::ₘ s.net.inFlight σ := by
          unfold Network.inFlight
          rw [← Multiset.cons_add]
          exact congrArg (· + _)
            (Network.onWay_addEvent (s := { s.net with now := time' }) time' rfl)
        unfold own
        rw [hone, filter_cons_other _ hflow]
    rw [hsame]
    exact hs
  | @input time' i r n hstart hnow hnone hr hn =>
    refine ⟨time', hn.now.ge, hs.step (a := .input time' i) ?_⟩
    have hown : own σ flow (⟨n, r.1⟩ : NetworkFlow Q F) = s.own σ flow + r.2 := by
      unfold own
      rw [hn.inFlight, Multiset.filter_add, hfilter _ (hA.input hr)]
      rfl
    show LossyNet.next A ⟨time, s.party, s.own σ flow⟩ (.input time' i) = some _
    rw [LossyNet.next, if_pos (htime.trans hnow), hr, hown]
    rfl
  | @receive id lost p n n' hn hflow hflight hdelivered hn' =>
    refine ⟨n.now, hn'.now.ge, hs.step (a := .deliver n.now p) ?_⟩
    have hown : own σ flow s = p ::ₘ (n.inFlight σ).filter (·.flow = flow) := by
      unfold own
      rw [hflight, filter_cons_own _ hflow]
    have hown' : own σ flow (⟨n', (A.receive n.now p s.party).1⟩ : NetworkFlow Q F) =
        (n.inFlight σ).filter (·.flow = flow) + (A.receive n.now p s.party).2 := by
      unfold own
      rw [hn'.inFlight, Multiset.filter_add, hfilter _ hA.receive]
    show LossyNet.next A ⟨time, s.party, s.own σ flow⟩ (.deliver n.now p) = some _
    rw [LossyNet.next, hown, if_pos ⟨htime.trans (hn.now_le h), Multiset.mem_cons_self ..⟩, hown',
      Multiset.erase_cons_head]
  | @pass id lost n hn hflight hdelivered =>
    have hlater := htime.trans (hn.now_le h)
    rcases hflight with hsame | ⟨p, hlost⟩
    · refine ⟨time, hlater, ?_⟩
      unfold own at hs ⊢
      rwa [hsame]
    · by_cases hflow : p.flow = flow
      · refine ⟨time, hlater, hs.step (a := .lose p) ?_⟩
        have hown : own σ flow s = p ::ₘ (n.inFlight σ).filter (·.flow = flow) := by
          unfold own
          rw [hlost, filter_cons_own _ hflow]
        show LossyNet.next A ⟨time, s.party, s.own σ flow⟩ (.lose p) = some _
        rw [LossyNet.next, hown, if_pos (Multiset.mem_cons_self ..), Multiset.erase_cons_head]
        rfl
      · refine ⟨time, hlater, ?_⟩
        have hown : own σ flow s = (n.inFlight σ).filter (·.flow = flow) := by
          unfold own
          rw [hlost, filter_cons_other _ hflow]
        rw [hown] at hs
        exact hs

/-- **The network refines the lossy one**: what a flow that sends only packets of its own can come
to in the network, with its packets in flight, it can come to in a lossy network. -/
theorem refines (hA : A.Sends (·.flow = flow)) (hs : Reach (machine σ A flow startTime) s) :
    ∃ time ≤ s.net.now, Reach (LossyNet.machine A 0) ⟨time, s.party, s.own σ flow⟩ := by
  refine hs.inv (I := fun s => ∃ time ≤ s.net.now,
      Reach (LossyNet.machine A 0) ⟨time, s.party, s.own σ flow⟩) ⟨0, le_rfl, ?_⟩
    fun hs ⟨time, htime, hr⟩ hn =>
      (step_of_next (sound_of_reach hs) hn).refines (sound_of_reach hs) hA htime hr
  have hnone : own σ flow (machine σ A flow startTime).init = 0 := by
    simp [own, machine, Network.inFlight, Network.onWay, Network.waiting, Network.init,
      EventQueue.empty, PacketQueue.init, PacketQueue.held]
  rw [hnone]
  exact .init

end NetworkFlow

end DcSim
