import DcSim.Runs
import DcSim.SnsHost
import Mathlib.Algebra.Order.Group.Multiset

/-!
All SNS flows on their hosts, and when a packet is stranded at a host.

A packet that a host has given to the queue of its NIC is on the wire, until it arrives at its
flow or is lost. Which flow a host picks, and when, is left open, as is what happens on the
wire; the events of the hosts are processed in the order of their times.
-/

namespace DcSim

open Runs Word32

structure SnsWorldSpec where
  params : SnsParams
  rate : HostId → ℚ
  flow : FlowId → SnsSpec
  flow_params : ∀ i, (flow i).params = params
  flow_id : ∀ i, (flow i).id = i

structure SnsWorld (Ω : SnsWorldSpec) where
  now : Time
  flow : ∀ i, SnsFlow (Ω.flow i).sizeInPkt
  hosts : SnsHosts
  wire : Multiset Packet

inductive SnsWorldAct
  | sendPendingData (time : Time) (i : FlowId) (seqNo collectiveMsgId : ℕ)
  | deliver (time : Time) (p : Packet)
  | lose (p : Packet)
  | process (id : ℕ)

namespace SnsWorld

variable (Ω : SnsWorldSpec)

def init : SnsWorld Ω := ⟨0, fun i => .new (Ω.flow i), .init, 0⟩

variable {Ω} in
/-- The state after a call of flow `i` at a time. -/
def after (s : SnsWorld Ω) (time : Time) (i : FlowId) (wire : Multiset Packet)
    (r : SnsFlow (Ω.flow i).sizeInPkt × List HostCall) : SnsWorld Ω :=
  ⟨time, Function.update s.flow i r.1, s.hosts.performAll Ω.params r.2, wire⟩

/-- Time moves on to the next thing that happens: no event of a host is pending for earlier. -/
def Due (s : SnsWorld Ω) (time : Time) : Prop :=
  s.now ≤ time ∧ s.hosts.events.NoneBefore time

instance (s : SnsWorld Ω) (time : Time) : Decidable (s.Due Ω time) :=
  inferInstanceAs (Decidable (_ ∧ _))

def next (s : SnsWorld Ω) : SnsWorldAct → Option (SnsWorld Ω)
  | .sendPendingData time i seq cid =>
    if s.Due Ω time ∧ (s.flow i).finished = false then
      some (s.after time i s.wire ((s.flow i).sendPendingData (Ω.flow i) time seq cid))
    else none
  | .deliver time p =>
    if s.Due Ω time ∧ p ∈ s.wire then
      some (s.after time p.flow (s.wire.erase p)
        ((s.flow p.flow).receive (Ω.flow p.flow) time p))
    else none
  | .lose p => if p ∈ s.wire then some { s with wire := s.wire.erase p } else none
  | .process id =>
    (s.hosts.events.take? id).bind fun (e, q) =>
      if s.Due Ω e.time then
        let r := ({ s.hosts with events := q } : SnsHosts).process Ω.rate e.time id e.kind
        some { s with now := e.time, hosts := r.1, wire := s.wire + r.2 }
      else none

def machine : Machine (SnsWorld Ω) SnsWorldAct := ⟨init Ω, next Ω⟩

variable {Ω}

/-- **What a step can do.** -/
theorem next_cases {s t : SnsWorld Ω} {a : SnsWorldAct} (h : next Ω s a = some t) :
    (∃ time i seq cid, a = .sendPendingData time i seq cid ∧
      t = s.after time i s.wire ((s.flow i).sendPendingData (Ω.flow i) time seq cid)) ∨
    (∃ time p wire, a = .deliver time p ∧
      t = s.after time p.flow wire ((s.flow p.flow).receive (Ω.flow p.flow) time p)) ∨
    (∃ p wire, a = .lose p ∧ t = { s with wire := wire }) ∨
    (∃ id e q wire, a = .process id ∧ s.hosts.events.take? id = some (e, q) ∧
      t = { s with
        now := e.time
        hosts :=
          (({ s.hosts with events := q } : SnsHosts).process Ω.rate e.time id e.kind).1
        wire := wire }) := by
  cases a with
  | sendPendingData time i seq cid =>
    obtain ⟨-, h⟩ := Option.ite_none_right_eq_some.mp h
    exact .inl ⟨time, i, seq, cid, rfl, (Option.some.inj h).symm⟩
  | deliver time p =>
    obtain ⟨-, h⟩ := Option.ite_none_right_eq_some.mp h
    exact .inr (.inl ⟨time, p, _, rfl, (Option.some.inj h).symm⟩)
  | lose p =>
    obtain ⟨-, h⟩ := Option.ite_none_right_eq_some.mp h
    exact .inr (.inr (.inl ⟨p, _, rfl, (Option.some.inj h).symm⟩))
  | process id =>
    obtain ⟨⟨e, q⟩, hq, h⟩ := Option.bind_eq_some_iff.mp h
    obtain ⟨-, h⟩ := Option.ite_none_right_eq_some.mp h
    exact .inr (.inr (.inr ⟨id, e, q, _, rfl, hq, (Option.some.inj h).symm⟩))

end SnsWorld

/-! ### What a flow gives to its hosts -/

/-- A call that gives no packet to `packets_to_be_sent`. -/
def HostCall.Quiet (c : HostCall) : Prop := ∀ h p, c ≠ .pushPacket h p

namespace SnsFlow

variable {σ : SnsSpec} (f : SnsFlow σ.sizeInPkt) (now : Time) (p : Packet)

/-- The arrival of a data packet that the flow answers with a DATA_ACK: it is unfinished, also
after the check it begins with, and the packet is a sixteenth one. -/
def AnswersData : Prop :=
  p.snsType ≠ .sim ∧ p.snsType ≠ .simAck ∧ p.snsType ≠ .dataAck ∧ f.finished = false ∧
    f.receivedBytes < sub32 σ.size 1 ∧ (f.dataIdsRecived.length + 1) % 16 = 0

lemma check_calls : ∀ c ∈ (f.checkAndSetToFinished σ now).2, ∃ time, c = .flowFinished time := by
  unfold checkAndSetToFinished
  split_ifs <;> simp

lemma quiet_check : ∀ c ∈ (f.checkAndSetToFinished σ now).2, c.Quiet := by
  intro c hc
  obtain ⟨time, rfl⟩ := f.check_calls now c hc
  simp [HostCall.Quiet]

lemma quiet_sendPendingData (seq cid : ℕ) :
    ∀ c ∈ (f.sendPendingData σ now seq cid).2, c.Quiet := by
  have hcheck := f.quiet_check now
  have hsend : ∀ g : SnsFlow σ.sizeInPkt, ∀ c ∈ (g.sendSimulation σ now).2, c.Quiet := by
    intro g
    rcases g.sendSimulation_cases σ now with ⟨-, hs⟩ | ⟨i, -, -, -, hs⟩ | ⟨-, -, hs⟩ <;>
      rw [hs] <;> simp [HostCall.Quiet]
  intro c hc
  simp only [sendPendingData, List.mem_append, List.mem_singleton] at hc
  rcases hc with (hc | hc) | rfl
  · exact hcheck c hc
  · split_ifs at hc
    · obtain rfl := List.mem_singleton.mp hc
      simp [HostCall.Quiet]
    · exact hsend _ c hc
  · simp [HostCall.Quiet]

lemma quiet_receiveSimAck : ∀ c ∈ (f.receiveSimAck σ now p).2, c.Quiet := by
  intro c hc
  simp only [receiveSimAck, List.mem_append, List.mem_map, List.mem_singleton] at hc
  rcases hc with ⟨i, -, rfl⟩ | rfl <;> simp [HostCall.Quiet]

lemma receiveData_calls :
    (f.finished = true ∧ (f.receiveData σ now p).2 = []) ∨
    (f.finished = false ∧ (f.dataIdsRecived.length + 1) % 16 = 0 ∧
      ∃ q cs, (∀ c ∈ cs, ∃ time, c = .flowFinished time) ∧
        (f.receiveData σ now p).2 = .pushPacket σ.dst q :: cs) ∨
    (f.finished = false ∧ (f.dataIdsRecived.length + 1) % 16 ≠ 0 ∧
      ∀ c ∈ (f.receiveData σ now p).2, c.Quiet) := by
  unfold receiveData
  simp only [List.orderedInsert_length]
  by_cases hf : f.finished = true
  · exact .inl ⟨hf, by rw [if_pos hf]⟩
  · rw [if_neg hf]
    by_cases h16 : (f.dataIdsRecived.length + 1) % 16 = 0
    · rw [if_pos h16]
      exact .inr (.inl ⟨Bool.eq_false_iff.mpr hf, h16, _, _, check_calls _ now, rfl⟩)
    · rw [if_neg h16]
      exact .inr (.inr ⟨Bool.eq_false_iff.mpr hf, h16, quiet_check _ now⟩)

lemma receive_data_calls (h1 : p.snsType ≠ .sim) (h2 : p.snsType ≠ .simAck)
    (h3 : p.snsType ≠ .dataAck) :
    (f.AnswersData p ∧ ∃ q cs, (∀ c ∈ cs, ∃ time, c = .flowFinished time) ∧
      (f.receive σ now p).2 = .pushPacket σ.dst q :: cs) ∨
    (¬ f.AnswersData p ∧ ∀ c ∈ (f.receive σ now p).2, c.Quiet) := by
  have hcalls : (f.receive σ now p).2 = (f.checkAndSetToFinished σ now).2 ++
      ((f.checkAndSetToFinished σ now).1.receiveData σ now p).2 := by
    simp only [receive]
  rw [hcalls]
  unfold AnswersData
  rcases f.check_cases σ now with ⟨hf, hc⟩ | ⟨hf, hlt, hc⟩ | ⟨-, hle, hc⟩
  · rw [hc]
    rcases f.receiveData_calls now p with ⟨-, hd⟩ | ⟨hf', -⟩ | ⟨hf', -⟩
    · exact .inr ⟨by simp [hf], by simp [hd]⟩
    · exact absurd (hf.symm.trans hf') nofun
    · exact absurd (hf.symm.trans hf') nofun
  · rw [hc]
    rcases f.receiveData_calls now p with ⟨hf', -⟩ | ⟨-, h16, hd⟩ | ⟨-, h16, hd⟩
    · exact absurd (hf.symm.trans hf') nofun
    · exact .inl ⟨⟨h1, h2, h3, hf, hlt, h16⟩, by simpa using hd⟩
    · exact .inr ⟨fun h => h16 h.2.2.2.2.2, by simpa using hd⟩
  · have hquiet := f.quiet_check now
    refine .inr ⟨fun h => absurd h.2.2.2.2.1 (not_lt.mpr hle), ?_⟩
    rcases (f.checkAndSetToFinished σ now).1.receiveData_calls now p with
      ⟨-, hd⟩ | ⟨hf', -⟩ | ⟨hf', -⟩
    · simpa [hd] using hquiet
    · exact absurd hf' (by simp [hc])
    · exact absurd hf' (by simp [hc])

/-- **What an arrival gives to a host**: a SIM is answered and its answer sent, a data packet
may be answered, and nothing else gives a packet to a host. -/
theorem receive_calls :
    (∃ q cs, (∀ c ∈ cs, c.Quiet) ∧ ¬ f.AnswersData p ∧
      (f.receive σ now p).2 = cs ++ [.pushPacket σ.dst q, .sendPacketEvt σ.dst now]) ∨
    (f.AnswersData p ∧ ∃ q cs, (∀ c ∈ cs, ∃ time, c = .flowFinished time) ∧
      (f.receive σ now p).2 = .pushPacket σ.dst q :: cs) ∨
    (¬ f.AnswersData p ∧ ∀ c ∈ (f.receive σ now p).2, c.Quiet) := by
  have hcheck := f.quiet_check now
  by_cases h1 : p.snsType = .sim
  · refine .inl ⟨simAckPacket σ now p, _, hcheck, fun h => h.1 h1, ?_⟩
    simp only [receive, h1]
    rfl
  · by_cases h2 : p.snsType = .simAck
    · refine .inr (.inr ⟨fun h => h.2.1 h2, fun c hc => ?_⟩)
      simp only [receive, h2] at hc
      rcases List.mem_append.mp hc with hc | hc
      · exact hcheck c hc
      · exact quiet_receiveSimAck _ now p c hc
    · by_cases h3 : p.snsType = .dataAck
      · refine .inr (.inr ⟨fun h => h.2.2.1 h3, fun c hc => ?_⟩)
        simp only [receive, h3, List.append_nil] at hc
        exact hcheck c hc
      · exact .inr (f.receive_data_calls now p h1 h2 h3)

end SnsFlow

namespace SnsHosts

variable {P : SnsParams} {H : SnsHosts}

lemma performAll_append (cs ds : List HostCall) :
    H.performAll P (cs ++ ds) = (H.performAll P cs).performAll P ds :=
  List.foldl_append

lemma performAll_finished {cs : List HostCall} (hcs : ∀ c ∈ cs, ∃ time, c = .flowFinished time) :
    H.performAll P cs = H := by
  induction cs with
  | nil => rfl
  | cons c cs ih =>
    obtain ⟨⟨time, rfl⟩, htail⟩ := List.forall_mem_cons.mp hcs
    exact ih htail

lemma served_push_send (hS : ∀ k, H.Served k) (h : HostId) (p : Packet) (time : Time) :
    ∀ k, (H.performAll P [.pushPacket h p, .sendPacketEvt h time]).Served k := by
  refine served_ensureSendPacketEvent (fun k hk => ?_) time
  unfold perform pushPacket Served
  rw [modify_host_ne _ hk]
  exact hS k

end SnsHosts

namespace SnsWorld

variable {Ω : SnsWorldSpec}

/-! ### Stranded packets -/

/-- No host has more than one `SnsSendPacketProcessingEvent` pending, and one with packets to be
sent has one. -/
def NoneStranded (s : SnsWorld Ω) : Prop :=
  ∀ h, (s.hosts.sends h).length ≤ 1 ∧
    ((s.hosts.host h).packetsToBeSent ≠ [] → (s.hosts.sends h).length = 1)

/-- A DATA_ACK, or the packet of a `SnsAddToPktToBeSentEvt`, comes to a host that points to its
`SnsSendPacketProcessingEvent`. -/
def PushesToServed (s : SnsWorld Ω) : SnsWorldAct → Prop
  | .deliver _ p => (s.flow p.flow).AnswersData p →
      (s.hosts.host (Ω.flow p.flow).dst).hostProcSnsSendPacketEvent ≠ none
  | .process id => ∀ e q, s.hosts.events.take? id = some (e, q) → ∀ h p,
      e.kind = .addToPktToBeSent h p → (s.hosts.host h).hostProcSnsSendPacketEvent ≠ none
  | _ => True

lemma noneStranded_iff_served {s : SnsWorld Ω} (hT : s.hosts.Tracked) :
    s.NoneStranded ↔ ∀ h, s.hosts.Served h := by
  refine forall_congr' fun h => ?_
  rw [show s.hosts.sends h = _ from hT.sends h]
  unfold SnsHosts.Served
  cases (s.hosts.host h).hostProcSnsSendPacketEvent <;> simp

lemma tracked_next {s t : SnsWorld Ω} {a : SnsWorldAct} (hT : s.hosts.Tracked)
    (h : next Ω s a = some t) : t.hosts.Tracked := by
  rcases next_cases h with ⟨time, i, seq, cid, -, rfl⟩ | ⟨time, p, wire, -, rfl⟩ |
    ⟨p, wire, -, rfl⟩ | ⟨id, e, q, wire, -, hq, rfl⟩
  · exact hT.performAll _
  · exact hT.performAll _
  · exact hT
  · exact hT.process hq

lemma served_next {s t : SnsWorld Ω} {a : SnsWorldAct} (hT : s.hosts.Tracked)
    (hS : ∀ h, s.hosts.Served h) (hC : s.PushesToServed a) (h : next Ω s a = some t) :
    ∀ h, t.hosts.Served h := by
  rcases next_cases h with ⟨time, i, seq, cid, rfl, rfl⟩ | ⟨time, p, wire, rfl, rfl⟩ |
    ⟨p, wire, rfl, rfl⟩ | ⟨id, e, q, wire, rfl, hq, rfl⟩
  · exact SnsHosts.served_performAll hS ((s.flow i).quiet_sendPendingData time seq cid)
  · rcases (s.flow p.flow).receive_calls time p with
      ⟨q, cs, hcs, -, hr⟩ | ⟨hans, q, cs, hcs, hr⟩ | ⟨-, hcs⟩
    · unfold after
      rw [hr, SnsHosts.performAll_append]
      exact SnsHosts.served_push_send (SnsHosts.served_performAll hS hcs) _ _ _
    · unfold after
      rw [hr, ← List.singleton_append, SnsHosts.performAll_append,
        SnsHosts.performAll_finished hcs]
      exact SnsHosts.served_pushPacket hS q (hC hans)
    · exact SnsHosts.served_performAll hS hcs
  · exact hS
  · exact SnsHosts.served_process hT hq hS (hC e q hq)

lemma not_served_next {s t : SnsWorld Ω} {a : SnsWorldAct} (hC : ¬ s.PushesToServed a)
    (h : next Ω s a = some t) : ∃ h, ¬ t.hosts.Served h := by
  rcases next_cases h with ⟨time, i, seq, cid, rfl, rfl⟩ | ⟨time, p, wire, rfl, rfl⟩ |
    ⟨p, wire, rfl, rfl⟩ | ⟨id, e, q, wire, rfl, hq, rfl⟩
  · exact absurd trivial hC
  · obtain ⟨hans, hnone⟩ := Classical.not_imp.mp hC
    rcases (s.flow p.flow).receive_calls time p with
      ⟨q, cs, -, hans', -⟩ | ⟨-, q, cs, hcs, hr⟩ | ⟨hans', -⟩
    · exact absurd hans hans'
    · refine ⟨(Ω.flow p.flow).dst, ?_⟩
      unfold after
      rw [hr, ← List.singleton_append, SnsHosts.performAll_append,
        SnsHosts.performAll_finished hcs]
      exact SnsHosts.not_served_pushPacket q (not_not.mp hnone)
    · exact absurd hans hans'
  · exact absurd trivial hC
  · simp only [PushesToServed, hq] at hC
    push Not at hC
    obtain ⟨e', q', heq, h, p, hk, hnone⟩ := hC
    obtain ⟨rfl, rfl⟩ := Prod.mk.inj (Option.some.inj heq)
    refine ⟨h, ?_⟩
    rw [hk]
    exact SnsHosts.not_served_pushPacket (H := { s.hosts with events := q }) p hnone

/-- **No packet is stranded at a host** as long as a DATA_ACK, and the packet of a
`SnsAddToPktToBeSentEvt`, only ever comes to a host whose `SnsSendPacketProcessingEvent` is
pending; the first that does not is stranded. -/
theorem noneStranded_iff (as : List SnsWorldAct) :
    Always (machine Ω) NoneStranded (init Ω) as ↔ Along (machine Ω) PushesToServed (init Ω) as := by
  refine always_iff_along (J := fun s : SnsWorld Ω => s.hosts.Tracked ∧ ∀ h, s.hosts.Served h)
    (fun hJ => (noneStranded_iff_served hJ.1).mpr hJ.2) (fun hJ hC ht => ?_)
    (fun hJ hC ht hP => ?_) as ⟨SnsHosts.tracked_init, fun h hp => absurd rfl hp⟩
  · exact ⟨tracked_next hJ.1 ht, served_next hJ.1 hJ.2 hC ht⟩
  · obtain ⟨h, hh⟩ := not_served_next hC ht
    exact hh ((noneStranded_iff_served (tracked_next hJ.1 ht)).mp hP h)

/-! ### A stranded packet -/

/-- Flows of one segment from host 0 to host 1. -/
def exampleWorld : SnsWorldSpec where
  params := oneSegment.params
  rate := fun _ => 100000000000
  flow := fun i => { oneSegment with id := i }
  flow_params := fun _ => rfl
  flow_id := fun _ => rfl

/-- The SIM of the flow, as it leaves host 0. -/
def exampleSim : Packet :=
  { (SnsFlow.new oneSegment).simPacket oneSegment 1 with
    sendingTime := 1000000064001 / 1000000000000 }

/-- Its SIM_ACK, as it leaves host 1 after five microseconds. -/
def exampleSimAck : Packet := SnsFlow.simAckPacket oneSegment (200001 / 200000) exampleSim

/-- The SIM_ACK is back after ten microseconds, and asks for the data after twenty-three. The
event it makes sure of finds nothing to send, and is gone before the data comes. -/
def strandingRun : List SnsWorldAct :=
  [.sendPendingData 1 0 0 0, .process 0, .process 1, .process 2,
    .deliver (200001 / 200000) exampleSim, .process 3, .process 4,
    .deliver (100001 / 100000) exampleSimAck, .process 6, .process 5]

/-- The data packet of the flow is left at host 0, with no event to send it. -/
theorem not_noneStranded :
    ¬ Always (machine exampleWorld) NoneStranded (init exampleWorld) strandingRun := by
  have hrun : (exec (machine exampleWorld) (init exampleWorld) strandingRun).any (fun s =>
      (s.hosts.sends 0).length = 0 ∧ (s.hosts.host 0).packetsToBeSent ≠ []) = true := by
    decide +kernel
  obtain ⟨s, hs, hsends, hpackets⟩ := exists_exec_of_any hrun
  intro halways
  have hone := (halways.last hs 0).2 hpackets
  omega

end SnsWorld

end DcSim
