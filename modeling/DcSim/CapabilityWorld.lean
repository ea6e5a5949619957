import DcSim.CapabilityChain
import Mathlib.Logic.Relation

/-!
The capability hosts over a network.

The network loses, delays, reorders and doubles packets: any packet that was sent may arrive, at
any time and any number of times. The events of the hosts are processed at their times, and the
time does not go back.

A step changes many flows, as `send` and `send_capability` look at one flow after the other. What
it does to each of them is a list of changes, each of them one function of the flow.
-/

namespace DcSim

open Collection Runs Word32

namespace CapabilityPacket

def flow : CapabilityPacket → FlowId
  | .rts id | .data id .. | .capability id .. | .status id _ | .ack id => id

def isData (id : FlowId) (capaSeq : ℤ) (seq : ℕ) : CapabilityPacket → Bool
  | .data id' _ capaSeq' seq' _ => id' = id ∧ capaSeq' = capaSeq ∧ seq' = seq
  | _ => false

lemma isData_iff {id : FlowId} {capaSeq : ℤ} {seq : ℕ} {p : CapabilityPacket} :
    p.isData id capaSeq seq = true ↔ ∃ seqNo priority, p = .data id seqNo capaSeq seq priority := by
  cases p with
  | data id' seqNo capaSeq' seq' priority =>
    simp only [isData, decide_eq_true_eq, CapabilityPacket.data.injEq]
    constructor
    · rintro ⟨rfl, rfl, rfl⟩
      exact ⟨seqNo, priority, rfl, rfl, rfl, rfl, rfl⟩
    · rintro ⟨_, _, rfl, -, rfl, rfl, -⟩
      exact ⟨rfl, rfl, rfl⟩
  | _ => simp [isData]

end CapabilityPacket

/-- The time of a step; an ACK and a `FlowFinishedEvent` do not read it. -/
def CapabilityAct.time (now : Time) : CapabilityAct → Time
  | .start now .. | .send now .. | .sendCapability now .. | .notify now _ | .rts now _
  | .data now .. | .capability now .. => now
  | .ack _ | .finish _ => now

/-- An event is there for the step, or a packet that was sent. -/
def CapabilityNet.Due (net : CapabilityNet) : CapabilityAct → Prop
  | .start _ id _ => (net.flows id).started = false
  | .send now h _ _ => (net.hosts h).hostProcEvent = some now
  | .sendCapability now h _ => (net.hosts h).capaProcEvt.map (·.time) = some now
  | .notify now h => (net.hosts h).senderNotifyEvt = some now
  | .rts _ id => .rts id ∈ net.sent
  | .data _ id capaSeq seq => ∃ p ∈ net.sent, p.isData id capaSeq seq = true
  | .capability _ id _ ttl remainingSz capSeqNum dataSeqNum =>
    .capability id ttl remainingSz capSeqNum dataSeqNum ∈ net.sent
  | .ack id => .ack id ∈ net.sent
  | .finish id => 0 < (net.flows id).finishEvents

instance (net : CapabilityNet) (a : CapabilityAct) : Decidable (net.Due a) :=
  match a with
  | .start .. | .send .. | .sendCapability .. | .notify .. => inferInstanceAs (Decidable (_ = _))
  | .rts .. | .capability .. | .ack _ => inferInstanceAs (Decidable (_ ∈ _))
  | .data .. => inferInstanceAs (Decidable (∃ p ∈ _, _ = true))
  | .finish _ => inferInstanceAs (Decidable (_ < _))

structure CapabilityWorld where
  now : Time
  net : CapabilityNet

namespace CapabilityWorld

variable (σ : CapabilitySpec) (t₀ : Time)

/-- A step may be the next one. No timeout is as late as the time that stands for none. -/
def May (s : CapabilityWorld) (a : CapabilityAct) : Prop :=
  s.now ≤ a.time s.now ∧ s.net.Due a ∧ s.net.StepsBelow σ a

instance (s : CapabilityWorld) (a : CapabilityAct) : Decidable (May σ s a) := by
  unfold May
  infer_instance

def next (s : CapabilityWorld) (a : CapabilityAct) : Option CapabilityWorld :=
  if May σ s a then (s.net.next σ a).map (⟨a.time s.now, ·⟩) else none

def machine : Machine CapabilityWorld CapabilityAct := ⟨⟨t₀, σ.init⟩, next σ⟩

end CapabilityWorld

/-! ### What happens to a flow -/

namespace CapabilityFlow

variable (σ : CapabilitySpec) (now : Time) (id : FlowId)

/-- The RTS has arrived, if only by a data packet. -/
def known (f : CapabilityFlow) : CapabilityFlow :=
  if f.rtsReceived then f else { f.setCapabilityCount σ now id with rtsReceived := true }

variable {σ now id} in
lemma sendPendingData_eq_some {f g : CapabilityFlow} {p : CapabilityPacket}
    (hp : f.sendPendingData σ now id = some (g, p)) :
    ∃ c rest n priority, HeapQueue.pop Capability.comparator f.capabilities = some (c, rest) ∧
      now ≤ c.timeout ∧ g = { f with capabilities := rest, nextSeqNo := n } ∧
      p = .data id f.nextSeqNo c.seqNum c.dataSeqNum priority := by
  obtain ⟨⟨c, rest⟩, hpop, hp⟩ := Option.bind_eq_some_iff.1 hp
  obtain ⟨htime, hp⟩ := Option.ite_none_right_eq_some.1 hp
  obtain ⟨rfl, rfl⟩ := Prod.mk.inj (Option.some.inj hp)
  exact ⟨c, rest, _, _, hpop, htime, rfl, rfl⟩

variable {σ} in
lemma lt_of_closed {f : CapabilityFlow} (h : f.inWindow σ = some false) :
    (σ.capabilityWindow : ℤ) < f.capabilityCount - f.largestCapSeqReceived := by
  obtain ⟨gap, hgap, hwin⟩ := Option.map_eq_some_iff.1 h
  obtain ⟨hnonneg, hgap⟩ := Option.ite_none_right_eq_some.1 hgap
  have hle := of_decide_eq_false hwin
  rw [← Option.some.inj hgap] at hle
  unfold ofInt32 at hle
  omega

/-- A flow that may be given a capability: its window is open, and no timeout is set. -/
def Open (f : CapabilityFlow) : Prop := f.inWindow σ = some true ∧ f.redundancyCtrlTimeout ≤ 0

/-- What can happen to a flow, of which these packets have been sent, and what it sends. -/
inductive Change (sent : List CapabilityPacket) :
    CapabilityFlow → CapabilityFlow → List CapabilityPacket → Prop
  | start {f} (hf : f.started = false) :
    Change sent f { f.assignInitCapability σ now id with started := true } [.rts id]
  | drop {f} : Change sent f (f.hasCapability now).1 []
  | send {f g p} (hf : f.finished = false) (hp : f.sendPendingData σ now id = some (g, p)) :
    Change sent f g [p]
  | status {f ps} (hps : ∀ p ∈ ps, ∃ n, p = .status id n) : Change sent f f ps
  | reset {f} (hf : ¬ now < f.redundancyCtrlTimeout) : Change sent f (f.resetTimeout σ id) []
  | relax {f g} (hf : f.inWindow σ = some false) (hg : f.relaxCapabilityGap σ = some g) :
    Change sent f g []
  | give {f g p} (hknown : f.rtsReceived = true) (hf : f.finishedAtReceiver = false)
    (hopen : f.Open σ) (hp : f.sendCapabilityPkt σ now id = some (g, p)) :
    Change sent f g [p]
  | rts {f} (hp : .rts id ∈ sent) (hf : f.finished = false) : Change sent f (f.known σ now id) []
  | data {f seqNo capaSeq seq priority} (hp : .data id seqNo capaSeq seq priority ∈ sent)
    (hf : f.finished = false) :
    Change sent f ((f.known σ now id).receiveData σ id capaSeq seq)
      (if σ.sizeInPkt id ≤ ((f.known σ now id).receiveData σ id capaSeq seq).receivedCount then
        [.ack id] else [])
  | capability {f ttl remainingSz capSeqNum dataSeqNum}
    (hp : .capability id ttl remainingSz capSeqNum dataSeqNum ∈ sent) (hf : f.finished = false) :
    Change sent f (f.receiveCapability now ttl remainingSz capSeqNum dataSeqNum) []
  | ack {f} (hp : .ack id ∈ sent) (hf : f.finished = false) :
    Change sent f { f with toTokenFlow := f.toTokenFlow.receiveAck .capability } []
  | finish {f r} (hf : f.toTokenFlow.finish = some r) :
    Change sent f { f with toTokenFlow := r.1 } []

end CapabilityFlow

structure FlowView where
  now : Time
  flow : CapabilityFlow
  sent : List CapabilityPacket

namespace FlowView

variable (σ : CapabilitySpec) (id : FlowId)

/-- The time goes on, or the flow is changed. -/
inductive Step : FlowView → FlowView → Prop
  | wait {s t} (hle : s.now ≤ t) : Step s { s with now := t }
  | change {s g ps} (h : s.flow.Change σ s.now id s.sent g ps) :
    Step s ⟨s.now, g, s.sent ++ ps⟩

/-- One change after the other. -/
abbrev Steps : FlowView → FlowView → Prop := Relation.ReflTransGen (Step σ id)

def of (now : Time) (flows : FlowId → CapabilityFlow) (sent : List CapabilityPacket) : FlowView :=
  ⟨now, flows id, sent.filter (·.flow = id)⟩

variable {σ id} {now : Time} {f g : CapabilityFlow} {sent : List CapabilityPacket}

lemma Step.quiet (h : f.Change σ now id sent g []) : Step σ id ⟨now, f, sent⟩ ⟨now, g, sent⟩ := by
  have hstep : Step σ id ⟨now, f, sent⟩ ⟨now, g, sent ++ []⟩ := .change h
  rwa [List.append_nil] at hstep

lemma steps_examine {gives : Bool} {wait : Time}
    (he : f.examine σ now id = some (g, gives, wait)) :
    Steps σ id ⟨now, f, sent⟩ ⟨now, g, sent⟩ ∧ (gives = true → g.Open σ) := by
  unfold CapabilityFlow.examine at he
  split_ifs at he with htimeout
  · simp only [Option.some.injEq, Prod.mk.injEq] at he
    obtain ⟨rfl, rfl, -⟩ := he
    exact ⟨.refl, nofun⟩
  have hreset : Step σ id ⟨now, f, sent⟩ ⟨now, f.resetTimeout σ id, sent⟩ :=
    .quiet (.reset htimeout)
  have hnone : (f.resetTimeout σ id).redundancyCtrlTimeout ≤ 0 := by
    unfold CapabilityFlow.resetTimeout
    split_ifs with hset
    · exact (by norm_num : (-1 : Time) ≤ 0)
    · exact not_lt.1 hset
  obtain ⟨isOpen, hopen, he⟩ := Option.bind_eq_some_iff.1 he
  split_ifs at he with hwin hpast
  · simp only [Option.some.injEq, Prod.mk.injEq] at he
    obtain ⟨rfl, -, -⟩ := he
    exact ⟨.single hreset, fun _ => ⟨hwin ▸ hopen, hnone⟩⟩
  · obtain ⟨g', hg', he⟩ := Option.bind_eq_some_iff.1 he
    obtain ⟨b, hb, he⟩ := Option.map_eq_some_iff.1 he
    simp only [Prod.mk.injEq] at he
    obtain ⟨rfl, rfl, -⟩ := he
    have hclosed : (f.resetTimeout σ id).inWindow σ = some false :=
      hopen.trans (congrArg some (Bool.not_eq_true _ ▸ hwin))
    refine ⟨.tail (.single hreset) (.quiet (.relax hclosed hg')), fun hgives => ⟨hgives ▸ hb, ?_⟩⟩
    obtain ⟨-, -, rfl⟩ := Option.map_eq_some_iff.1 hg'
    exact hnone
  · simp only [Option.some.injEq, Prod.mk.injEq] at he
    obtain ⟨rfl, rfl, -⟩ := he
    exact ⟨.single hreset, nofun⟩

end FlowView

section Goes

variable {σ : CapabilitySpec} {now : Time} {net net' : CapabilityNet} {h : HostId} {id : FlowId}
  {flows flows' flows'' : FlowId → CapabilityFlow} {sent sent' sent'' : List CapabilityPacket}

/-- Each flow goes on by steps of its own. -/
def Goes (σ : CapabilitySpec) (now : Time) (flows : FlowId → CapabilityFlow)
    (sent : List CapabilityPacket) (flows' : FlowId → CapabilityFlow)
    (sent' : List CapabilityPacket) : Prop :=
  ∀ id, FlowView.Steps σ id (.of id now flows sent) (.of id now flows' sent')

lemma Goes.rfl : Goes σ now flows sent flows sent := fun _ => .refl

lemma Goes.trans (h : Goes σ now flows sent flows' sent')
    (h' : Goes σ now flows' sent' flows'' sent'') : Goes σ now flows sent flows'' sent'' :=
  fun id => (h id).trans (h' id)

lemma goes_update {f : CapabilityFlow} {ps : List CapabilityPacket}
    (hf : FlowView.Steps σ id ⟨now, flows id, sent.filter (·.flow = id)⟩
      ⟨now, f, sent.filter (·.flow = id) ++ ps⟩)
    (hps : ∀ p ∈ ps, p.flow = id) :
    Goes σ now flows sent (Function.update flows id f) (sent ++ ps) := by
  intro k
  unfold FlowView.of
  rw [List.filter_append]
  rcases eq_or_ne k id with rfl | hne
  · have hall : ps.filter (·.flow = k) = ps := List.filter_eq_self.2 fun p hp => by simp [hps p hp]
    rw [Function.update_self, hall]
    exact hf
  · have hnone : ps.filter (·.flow = k) = [] :=
      List.filter_eq_nil_iff.2 fun p hp => by simp [hps p hp, hne.symm]
    rw [Function.update_of_ne hne, hnone, List.append_nil]

lemma goes_change {f : CapabilityFlow} {ps : List CapabilityPacket}
    (hf : (flows id).Change σ now id (sent.filter (·.flow = id)) f ps)
    (hps : ∀ p ∈ ps, p.flow = id) :
    Goes σ now flows sent (Function.update flows id f) (sent ++ ps) :=
  goes_update (.single (.change hf)) hps

lemma goes_quiet {f : CapabilityFlow}
    (hf : FlowView.Steps σ id ⟨now, flows id, sent.filter (·.flow = id)⟩
      ⟨now, f, sent.filter (·.flow = id)⟩) :
    Goes σ now flows sent (Function.update flows id f) sent := by
  have hgoes : Goes σ now flows sent (Function.update flows id f) (sent ++ []) :=
    goes_update (by rwa [List.append_nil]) (by simp)
  rwa [List.append_nil] at hgoes

/-! ### What a step does to the flows -/

lemma goes_sendSearch {draws : ℕ → ℕ} {turns : ℕ}
    {s r : Search FlowId (FlowId → CapabilityFlow)}
    (hr : search (CapabilityNet.sendRules σ now draws) turns s = some r)
    (hs : Remembers (CapabilityNet.sendRules σ now draws) s) (hfound : s.found = none) :
    Goes σ now s.state sent r.state sent := by
  have hvisit : ∀ {st : FlowId → CapabilityFlow} {x : FlowId} {st' : FlowId → CapabilityFlow}
      {b : Bool}, Goes σ now s.state sent st sent →
      (CapabilityNet.sendRules σ now draws).visit st x = some (st', b) →
      Goes σ now s.state sent st' sent := by
    intro st x st' b hgoes hv
    obtain ⟨rfl, -⟩ := Prod.mk.inj (Option.some.inj hv)
    exact hgoes.trans (goes_quiet (.single (.quiet .drop)))
  have hrule := search_rule (lawful_sendRules draws)
    (P := fun st _ => Goes σ now s.state sent st sent)
    (Q := fun st _ => Goes σ now s.state sent st sent) (fun hgoes _ hv => hvisit hgoes hv)
    (fun hgoes _ hv => hvisit hgoes hv) hs (List.Subset.refl _) hfound .rfl hr
  cases ho : r.found with
  | none => exact hrule.1 ho
  | some x => exact hrule.2 x ho

lemma goes_visit {senders : HostId → List FlowId} {draws : ℕ → ℕ} {b : Bool}
    {st st' : (FlowId → CapabilityFlow) × Time} (hgoes : Goes σ now flows sent st.1 sent)
    (hm : ∀ k, Moves (flows k) (st.1 k))
    (hv : (CapabilityNet.recvRules σ now senders draws).visit st id = some (st', b)) :
    Goes σ now flows sent st'.1 sent ∧ (∀ k, Moves (flows k) (st'.1 k)) ∧
      (b = true → (st'.1 id).Open σ) := by
  obtain ⟨f, wait, he, rfl⟩ := visit_recvRules hv
  obtain ⟨-, hopen⟩ : FlowView.Steps σ id ⟨now, st.1 id, sent⟩ ⟨now, f, sent⟩ ∧
    (b = true → f.Open σ) := FlowView.steps_examine he
  refine ⟨hgoes.trans (goes_quiet (FlowView.steps_examine he).1),
    moves_update hm (.of_eq (examine_spec he).1), fun hb => ?_⟩
  dsimp only
  rw [Function.update_self]
  exact hopen hb

lemma goes_recvSearch {senders : HostId → List FlowId} {draws : ℕ → ℕ} {turns : ℕ}
    {s r : Search FlowId ((FlowId → CapabilityFlow) × Time)}
    (hr : search (CapabilityNet.recvRules σ now senders draws) turns s = some r)
    (hs : Remembers (CapabilityNet.recvRules σ now senders draws) s) (hfound : s.found = none) :
    Goes σ now s.state.1 sent r.state.1 sent ∧ (∀ k, Moves (s.state.1 k) (r.state.1 k)) ∧
      ∀ id, r.found = some id → (r.state.1 id).Open σ := by
  have hrule := search_rule lawful_recvRules
    (P := fun st _ => Goes σ now s.state.1 sent st.1 sent ∧ ∀ k, Moves (s.state.1 k) (st.1 k))
    (Q := fun st id => (Goes σ now s.state.1 sent st.1 sent ∧
      ∀ k, Moves (s.state.1 k) (st.1 k)) ∧ (st.1 id).Open σ)
    (fun hst _ hv => have h := goes_visit hst.1 hst.2 hv; ⟨h.1, h.2.1⟩)
    (fun hst _ hv => have h := goes_visit hst.1 hst.2 hv; ⟨⟨h.1, h.2.1⟩, h.2.2 rfl⟩)
    hs (List.Subset.refl _) hfound ⟨.rfl, fun _ => .rfl⟩ hr
  cases ho : r.found with
  | none => exact ⟨(hrule.1 ho).1, (hrule.1 ho).2, nofun⟩
  | some x =>
    obtain ⟨⟨hgoes, hm⟩, hopen⟩ := hrule.2 x ho
    exact ⟨hgoes, hm, fun y hy => Option.some.inj hy ▸ hopen⟩

namespace CapabilityNet

lemma goes_sendFound (hnot : (net.flows id).finished = false)
    (hn : net.sendFound σ now h id = some net') :
    Goes σ now net.flows net.sent net'.flows net'.sent := by
  obtain ⟨⟨f, p⟩, hf, rfl⟩ := Option.map_eq_some_iff.1 hn
  refine goes_change (.send hnot hf) fun q hq => ?_
  obtain rfl := List.mem_singleton.1 hq
  obtain ⟨_, _, _, _, -, -, -, rfl⟩ := CapabilityFlow.sendPendingData_eq_some hf
  rfl

lemma goes_send (net : CapabilityNet) {link : LinkState} {draws : ℕ → ℕ}
    (hs : Collects (Sends σ net.flows h) (fun id => (net.flows id).finished)
      (net.hosts h).sendFlows (net.hosts h).sendFlow)
    (hn : net.send σ now h link draws = some net') :
    Goes σ now net.flows net.sent net'.flows net'.sent := by
  unfold CapabilityNet.send at hn
  dsimp only at hn
  split_ifs at hn with hbusy
  · obtain rfl := Option.some.inj hn
    exact .rfl
  obtain ⟨r, hr, hn⟩ := Option.bind_eq_some_iff.1 hn
  have hrem : Remembers (sendRules σ now draws)
      ⟨net.flows, (net.hosts h).sendFlows, (net.hosts h).sendFlow, [], none⟩ := hs.last
  have hgoes : Goes σ now net.flows net.sent r.state net.sent := goes_sendSearch hr hrem rfl
  split at hn
  case h_1 id ho =>
    obtain ⟨-, hnot⟩ := found_of_search (lawful_sendRules draws) hrem rfl hr ho
    rw [← (keeps_search (lawful_sendRules draws) hrem hr).done] at hnot
    exact hgoes.trans (goes_sendFound hnot hn)
  case h_2 ho =>
    split_ifs at hn
    exact Option.some.inj hn ▸ hgoes

lemma goes_notifyFlowStatus (net : CapabilityNet) :
    Goes σ now net.flows net.sent (net.notifyFlowStatus σ now h).flows
      (net.notifyFlowStatus σ now h).sent := by
  unfold CapabilityNet.notifyFlowStatus
  split_ifs
  · exact .rfl
  intro id
  dsimp only [FlowView.of, CapabilityNet.setHost, CapabilityNet.sendPackets]
  rw [List.filter_append]
  refine .single (.change (.status fun p hp => ?_))
  obtain ⟨hp, hflow⟩ := List.mem_filter.1 hp
  obtain ⟨k, -, rfl⟩ := List.mem_map.1 hp
  obtain rfl : k = id := of_decide_eq_true hflow
  exact ⟨_, rfl⟩

lemma goes_startFlow {link : LinkState} (hnew : (net.flows id).started = false) :
    Goes σ now net.flows net.sent (net.startFlow σ now id link).flows
      (net.startFlow σ now id link).sent := by
  have hgoes : Goes σ now net.flows net.sent
      (Function.update net.flows id
        { (((net.flows id).assignInitCapability σ now id).hasCapability now).1 with
          started := true }) (net.sent ++ [.rts id]) :=
    goes_update (.tail (.single (.change (.start hnew))) (.quiet .drop)) fun p hp =>
      List.mem_singleton.1 hp ▸ rfl
  unfold CapabilityNet.startFlow CapabilityNet.wakeSender
  dsimp only
  split_ifs <;> exact hgoes

lemma goes_afterSearch {host : CapabilityHost}
    {r : Search FlowId ((FlowId → CapabilityFlow) × Time)}
    (hgoes : Goes σ now net.flows net.sent r.state.1 net.sent)
    (hfound : ∀ id, r.found = some id → (r.state.1 id).rtsReceived = true ∧
      (r.state.1 id).finishedAtReceiver = false ∧ (r.state.1 id).Open σ)
    (hn : net.afterSearch σ now h host r = some net') :
    Goes σ now net.flows net.sent net'.flows net'.sent := by
  unfold CapabilityNet.afterSearch at hn
  dsimp only at hn
  split at hn
  case h_1 id ho =>
    obtain ⟨⟨f, p⟩, hf, rfl⟩ := Option.map_eq_some_iff.1 hn
    obtain ⟨hknown, hnot, hopen⟩ := hfound id ho
    refine hgoes.trans (goes_change (.give hknown hnot hopen hf) fun q hq => ?_)
    obtain rfl := List.mem_singleton.1 hq
    obtain ⟨seq, -, hf⟩ := Option.map_eq_some_iff.1 hf
    obtain ⟨-, rfl⟩ := Prod.mk.inj hf
    rfl
  case h_2 ho =>
    obtain rfl := Option.some.inj hn
    exact hgoes

lemma goes_sendCapability (net : CapabilityNet) {draws : ℕ → ℕ}
    (hs : Collects (Receives σ net.flows h) (fun id => (net.flows id).finishedAtReceiver)
      (net.hosts h).recvFlows (net.hosts h).recvFlow)
    (hn : net.sendCapability σ now h draws = some net') :
    Goes σ now net.flows net.sent net'.flows net'.sent := by
  unfold CapabilityNet.sendCapability at hn
  dsimp only at hn
  split_ifs at hn with hhold
  · obtain rfl := Option.some.inj hn
    exact .rfl
  obtain ⟨r, hr, hn⟩ := Option.bind_eq_some_iff.1 hn
  have hrem : Remembers (recvRules σ now (fun s => (net.hosts s).sendFlows) draws)
      ⟨(net.flows, 999999), (net.hosts h).recvFlows, (net.hosts h).recvFlow, [], none⟩ := hs.last
  obtain ⟨hgoes, hm, hopen⟩ : Goes σ now net.flows net.sent r.state.1 net.sent ∧
      (∀ k, Moves (net.flows k) (r.state.1 k)) ∧
      ∀ id, r.found = some id → (r.state.1 id).Open σ :=
    goes_recvSearch hr hrem rfl
  refine goes_afterSearch hgoes (fun id ho => ?_) hn
  obtain ⟨hmem, hnot⟩ := found_of_search lawful_recvRules hrem rfl hr ho
  rw [← (keeps_search lawful_recvRules hrem hr).done] at hnot
  exact ⟨(hm id).rtsReceived.trans (hs.mine id hmem).1, hnot, hopen id ho⟩

lemma flows_known :
    (if (net.flows id).rtsReceived then net else net.receiveRts σ now id).flows =
      Function.update net.flows id ((net.flows id).known σ now id) := by
  unfold CapabilityFlow.known
  split_ifs with hrts
  · rw [Function.update_eq_self]
  · rfl

lemma goes_receiveData {capaSeq : ℤ} {seq : ℕ} (hnot : (net.flows id).finished = false)
    (hsent : ∃ p ∈ net.sent, p.isData id capaSeq seq = true) :
    Goes σ now net.flows net.sent (net.receiveData σ now id capaSeq seq).flows
      (net.receiveData σ now id capaSeq seq).sent := by
  obtain ⟨p, hp, hdata⟩ := hsent
  obtain ⟨seqNo, priority, rfl⟩ := CapabilityPacket.isData_iff.1 hdata
  have hmem : CapabilityPacket.data id seqNo capaSeq seq priority ∈
      net.sent.filter (·.flow = id) := List.mem_filter.2 ⟨hp, decide_eq_true (.refl _)⟩
  have hchange : (net.flows id).Change σ now id (net.sent.filter (·.flow = id)) _ _ :=
    .data hmem hnot
  have hsame : (if (net.flows id).rtsReceived then net else net.receiveRts σ now id).sent =
      net.sent := by
    split_ifs <;> rfl
  unfold CapabilityNet.receiveData
  dsimp only
  generalize hnet₁ : (if (net.flows id).rtsReceived then net else net.receiveRts σ now id) = net₁
    at hsame
  have hflows : net₁.flows = Function.update net.flows id ((net.flows id).known σ now id) :=
    hnet₁ ▸ flows_known
  have hupdate : ∀ g, (net₁.setFlow id g).flows = Function.update net.flows id g := fun g => by
    rw [CapabilityNet.setFlow, hflows, Function.update_idem]
  have hflow : net₁.flows id = (net.flows id).known σ now id := by
    rw [hflows, Function.update_self]
  rw [hflow]
  split_ifs at hchange ⊢ with hgoal
  · show Goes σ now net.flows net.sent (net₁.setFlow id _).flows (net₁.sent ++ [.ack id])
    rw [hupdate, hsame]
    exact goes_change hchange fun q hq => List.mem_singleton.1 hq ▸ rfl
  · show Goes σ now net.flows net.sent (net₁.setFlow id _).flows net₁.sent
    rw [hupdate, hsame]
    exact goes_quiet (.single (.quiet hchange))

lemma goes_receive {handle : CapabilityNet → CapabilityNet}
    (hhandle : (net.flows id).finished = false →
      Goes σ now net.flows net.sent (handle net).flows (handle net).sent) :
    Goes σ now net.flows net.sent (net.receive id handle).flows (net.receive id handle).sent := by
  unfold CapabilityNet.receive
  split_ifs with hfin
  · exact .rfl
  · exact hhandle (Bool.not_eq_true _ ▸ hfin)

lemma hosts_setHost (host : CapabilityHost) : (net.setHost h host).hosts h = host :=
  Function.update_self _ _ _

/-- **What a step does to the flows.** -/
theorem goes_next (now : Time) {a : CapabilityAct} (hs : Sound σ net) (hdue : net.Due a)
    (hn : next σ net a = some net') :
    Goes σ (a.time now) net.flows net.sent net'.flows net'.sent := by
  have hmem : ∀ {p : CapabilityPacket}, p ∈ net.sent → p ∈ net.sent.filter (·.flow = p.flow) :=
    fun hp => List.mem_filter.2 ⟨hp, decide_eq_true rfl⟩
  cases a with
  | start now id link =>
    obtain ⟨hnew, hn⟩ := Option.ite_none_left_eq_some.1 hn
    exact Option.some.inj hn ▸ goes_startFlow (Bool.not_eq_true _ ▸ hnew)
  | send now h link draws =>
    refine goes_send (net.setHost h { net.hosts h with hostProcEvent := none }) ?_ hn
    rw [hosts_setHost]
    exact (hs h).sends
  | sendCapability now h draws =>
    refine goes_sendCapability (net.setHost h { net.hosts h with capaProcEvt := none }) ?_ hn
    rw [hosts_setHost]
    exact (hs h).receives
  | notify now h => exact Option.some.inj hn ▸ goes_notifyFlowStatus (net.setHost h _)
  | rts now id =>
    refine Option.some.inj hn ▸ goes_receive fun hnot => ?_
    have hknown : Goes σ now net.flows net.sent
        (Function.update net.flows id ((net.flows id).known σ now id)) net.sent :=
      goes_quiet (.single (.quiet (.rts (hmem hdue) hnot)))
    rw [← flows_known] at hknown
    split_ifs at hknown ⊢ <;> exact hknown
  | data now id capaSeq seq =>
    exact Option.some.inj hn ▸ goes_receive fun hnot => goes_receiveData hnot hdue
  | capability now id link ttl remainingSz capSeqNum dataSeqNum =>
    refine Option.some.inj hn ▸ goes_receive fun hnot => ?_
    have hgoes : Goes σ now net.flows net.sent (Function.update net.flows id
        ((net.flows id).receiveCapability now ttl remainingSz capSeqNum dataSeqNum)) net.sent :=
      goes_quiet (.single (.quiet (.capability (hmem hdue) hnot)))
    unfold CapabilityNet.receiveCapability CapabilityNet.wakeSender
    split_ifs <;> exact hgoes
  | ack id =>
    refine Option.some.inj hn ▸ goes_receive fun hnot => ?_
    exact goes_quiet (.single (.quiet (.ack (hmem hdue) hnot)))
  | finish id =>
    obtain ⟨r, hr, rfl⟩ := Option.map_eq_some_iff.1 hn
    exact goes_quiet (.single (.quiet (.finish hr)))

end CapabilityNet

end Goes

/-! ### All runs -/

namespace CapabilityWorld

variable {σ : CapabilitySpec} {t₀ : Time} {s t : CapabilityWorld} {a : CapabilityAct}

lemma next_eq_some (h : next σ s a = some t) : May σ s a ∧
    ∃ net, s.net.next σ a = some net ∧ t = ⟨a.time s.now, net⟩ := by
  obtain ⟨hmay, h⟩ := Option.ite_none_right_eq_some.1 h
  obtain ⟨net, hnet, rfl⟩ := Option.map_eq_some_iff.1 h
  exact ⟨hmay, net, hnet, rfl⟩

theorem sound_of_reach (hs : Reach (machine σ t₀) s) : CapabilityNet.Sound σ s.net :=
  hs.inv (I := fun s => CapabilityNet.Sound σ s.net) CapabilityNet.sound_init fun _ hsound hn => by
    obtain ⟨⟨-, -, hbelow⟩, net, hnet, rfl⟩ := next_eq_some hn
    exact hsound.next hbelow hnet

def view (s : CapabilityWorld) (id : FlowId) : FlowView := .of id s.now s.net.flows s.net.sent

lemma steps_view (hs : Reach (machine σ t₀) s) (h : next σ s a = some t) (id : FlowId) :
    FlowView.Steps σ id (s.view id) (t.view id) := by
  obtain ⟨⟨hle, hdue, -⟩, net, hnet, rfl⟩ := next_eq_some h
  have hgoes := CapabilityNet.goes_next s.now (sound_of_reach hs) hdue hnet
  exact .trans (.single (.wait hle)) (hgoes id)

/-- **The rule for a flow**: what each of its steps keeps holds of it in all runs. -/
theorem view_inv {I : FlowView → Prop} {id : FlowId} (h0 : I ((machine σ t₀).init.view id))
    (hstep : ∀ {s t}, I s → FlowView.Step σ id s t → I t) (hs : Reach (machine σ t₀) s) :
    I (s.view id) :=
  hs.inv (I := fun s => I (s.view id)) h0 fun {_ t _} hs hI hn => by
    have hsteps := steps_view hs hn id
    generalize t.view id = v at hsteps ⊢
    induction hsteps with
    | refl => exact hI
    | tail _ hlast ih => exact hstep ih hlast

end CapabilityWorld

end DcSim
