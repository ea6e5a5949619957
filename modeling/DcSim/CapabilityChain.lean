import DcSim.CapabilityHost

/-!
The capability hosts lose no flow and do not stall.

Each flow that is started and not finished is once in the collection of its sender, each flow that
is registered and not finished at its receiver is once in the collection there, and a receiver
that has such a flow has its `CapabilityProcessingEvent` pending: a search that gives no
capability has looked at every flow, and each of them says when to look at it again.
-/

namespace DcSim

open Collection Runs Word32

variable {σ : CapabilitySpec} {now : Time} {net net' : CapabilityNet}
  {flows flows' : FlowId → CapabilityFlow} {host : CapabilityHost} {h : HostId} {id : FlowId}

/-- The flow was started at this host. -/
def Sends (σ : CapabilitySpec) (flows : FlowId → CapabilityFlow) (h : HostId) (id : FlowId) :
    Prop :=
  (flows id).started = true ∧ σ.src id = h

/-- The flow was registered at this host. -/
def Receives (σ : CapabilitySpec) (flows : FlowId → CapabilityFlow) (h : HostId) (id : FlowId) :
    Prop :=
  (flows id).rtsReceived = true ∧ σ.dst id = h

structure HostSound (σ : CapabilitySpec) (flows : FlowId → CapabilityFlow) (h : HostId)
    (host : CapabilityHost) : Prop where
  sends : Collects (Sends σ flows h) (fun id => (flows id).finished) host.sendFlows host.sendFlow
  receives : Collects (Receives σ flows h) (fun id => (flows id).finishedAtReceiver)
    host.recvFlows host.recvFlow
  pending : (∃ id ∈ host.recvFlows, (flows id).finishedAtReceiver = false) →
    host.capaProcEvt ≠ none
  asserts : host.asserts = true

structure Moves (f g : CapabilityFlow) : Prop where
  started : g.started = f.started
  rtsReceived : g.rtsReceived = f.rtsReceived
  finished : f.finished = true → g.finished = true
  finishedAtReceiver : f.finishedAtReceiver = true → g.finishedAtReceiver = true

lemma Moves.of_eq {f g : CapabilityFlow} (h : g.toTokenFlow = f.toTokenFlow) : Moves f g :=
  ⟨congrArg _ h, congrArg _ h, fun hf => h ▸ hf, fun hf => h ▸ hf⟩

lemma Moves.rfl {f : CapabilityFlow} : Moves f f := .of_eq (.refl _)

lemma field_update {β : Type*} (field : CapabilityFlow → β) {f : CapabilityFlow}
    (hf : field f = field (flows id)) (k : FlowId) :
    field (Function.update flows id f k) = field (flows k) := by
  rcases eq_or_ne k id with rfl | hne
  · rw [Function.update_self, hf]
  · rw [Function.update_of_ne hne]

lemma sends_update {f : CapabilityFlow} (hf : f.started = true) (k : FlowId) :
    Sends σ (Function.update flows id f) h k ↔ Sends σ flows h k ∨ k = id ∧ σ.src id = h := by
  unfold Sends
  rcases eq_or_ne k id with rfl | hne
  · simp only [Function.update_self, hf, true_and]
    exact ⟨.inr, fun hk => hk.elim And.right fun hk => hk⟩
  · simp [hne]

lemma receives_update {f : CapabilityFlow} (hf : f.rtsReceived = true) (k : FlowId) :
    Receives σ (Function.update flows id f) h k ↔
      Receives σ flows h k ∨ k = id ∧ σ.dst id = h := by
  unfold Receives
  rcases eq_or_ne k id with rfl | hne
  · simp only [Function.update_self, hf, true_and]
    exact ⟨.inr, fun hk => hk.elim And.right fun hk => hk⟩
  · simp [hne]

lemma HostSound.mono (hs : HostSound σ flows h host)
    (hsends : ∀ id, Sends σ flows' h id ↔ Sends σ flows h id)
    (hreceives : ∀ id, Receives σ flows' h id ↔ Receives σ flows h id)
    (hfinished : ∀ id, (flows id).finished = true → (flows' id).finished = true)
    (hreceiver : ∀ id, (flows id).finishedAtReceiver = true →
      (flows' id).finishedAtReceiver = true) : HostSound σ flows' h host where
  sends := hs.sends.mono hsends hfinished
  receives := hs.receives.mono hreceives hreceiver
  pending := by
    rintro ⟨id, hmem, hnot⟩
    refine hs.pending ⟨id, hmem, Bool.eq_false_iff.2 fun hdone => ?_⟩
    exact Bool.false_ne_true (hnot.symm.trans (hreceiver id hdone))
  asserts := hs.asserts

lemma HostSound.moves (hs : HostSound σ flows h host) (hm : ∀ id, Moves (flows id) (flows' id)) :
    HostSound σ flows' h host :=
  hs.mono (fun id => by simp only [Sends, (hm id).started])
    (fun id => by simp only [Receives, (hm id).rtsReceived]) (fun id => (hm id).finished)
    fun id => (hm id).finishedAtReceiver

namespace CapabilityNet

def Sound (σ : CapabilitySpec) (net : CapabilityNet) : Prop :=
  ∀ h, HostSound σ net.flows h (net.hosts h)

/-- No timeout of the flows is as late as the time that stands for none. -/
def TimesBelow (σ : CapabilitySpec) (flows : FlowId → CapabilityFlow) (xs : List FlowId) : Prop :=
  ∀ id ∈ xs, (flows id).redundancyCtrlTimeout < 999999 ∧
    (flows id).latestCapSentTime + σ.windowTimeout < 999999

instance (flows : FlowId → CapabilityFlow) (xs : List FlowId) :
    Decidable (TimesBelow σ flows xs) := by unfold TimesBelow; infer_instance

/-- The flows that `send_capability` looks at have such timeouts. -/
def StepsBelow (σ : CapabilitySpec) (net : CapabilityNet) : CapabilityAct → Prop
  | .sendCapability _ h _ => TimesBelow σ net.flows (net.hosts h).recvFlows
  | _ => True

instance (a : CapabilityAct) : Decidable (StepsBelow σ net a) := by
  unfold StepsBelow
  split <;> infer_instance

structure Conserves (σ : CapabilitySpec) (net : CapabilityNet) : Prop where
  sends : ∀ id, (net.flows id).started = true → (net.flows id).finished = false →
    (net.hosts (σ.src id)).sendFlows.count id = 1
  receives : ∀ id, (net.flows id).rtsReceived = true → (net.flows id).finishedAtReceiver = false →
    (net.hosts (σ.dst id)).recvFlows.count id = 1
  pending : ∀ h, (∃ id ∈ (net.hosts h).recvFlows, (net.flows id).finishedAtReceiver = false) →
    (net.hosts h).capaProcEvt ≠ none
  asserts : ∀ h, (net.hosts h).asserts = true

lemma Sound.conserves (hs : Sound σ net) : Conserves σ net where
  sends id hstarted hnot := (hs (σ.src id)).sends.once id ⟨hstarted, rfl⟩ hnot
  receives id hrts hnot := (hs (σ.dst id)).receives.once id ⟨hrts, rfl⟩ hnot
  pending h := (hs h).pending
  asserts h := (hs h).asserts

lemma Sound.setHost (hs : Sound σ net) (hhost : HostSound σ net.flows h host) :
    Sound σ (net.setHost h host) := by
  intro k
  rcases eq_or_ne k h with rfl | hne
  · simpa [CapabilityNet.setHost] using hhost
  · simpa [CapabilityNet.setHost, hne] using hs k

lemma Sound.setFlow {f : CapabilityFlow} (hs : Sound σ net) (hm : Moves (net.flows id) f) :
    Sound σ (net.setFlow id f) := by
  intro k
  refine (hs k).moves fun id' => ?_
  rcases eq_or_ne id' id with rfl | hne
  · simpa [CapabilityNet.setFlow] using hm
  · simpa [CapabilityNet.setFlow, hne] using Moves.rfl

end CapabilityNet

/-! ### What the searches do -/

lemma choose_eq_some {comp : FlowId → FlowId → Bool} {draw : ℕ} {last : Option FlowId}
    {xs rest : List FlowId} (hc : CapabilityNet.choose σ comp draw last xs = some (id, rest)) :
    xs.Perm (id :: rest) ∨ last = some id ∧ id ∉ xs ∧ rest = xs := by
  unfold CapabilityNet.choose at hc
  split_ifs at hc
  · exact chooseRandom_eq_some hc
  · exact .inl (CustomPriorityQueue.pop_perm hc)

lemma choose_eq_none {comp : FlowId → FlowId → Bool} {draw : ℕ} {last : Option FlowId}
    {xs : List FlowId} (hc : CapabilityNet.choose σ comp draw last xs = none) : xs = [] := by
  unfold CapabilityNet.choose at hc
  split_ifs at hc
  · exact chooseRandom_eq_none hc
  · exact CustomPriorityQueue.pop_eq_none hc

lemma TokenFlow.accept_roles (ρ : TokenSpec) (f : TokenFlow) (seq : ℕ) :
    (f.accept ρ seq).started = f.started ∧ (f.accept ρ seq).rtsReceived = f.rtsReceived ∧
      (f.accept ρ seq).finished = f.finished ∧
      (f.accept ρ seq).finishedAtReceiver = f.finishedAtReceiver := by
  unfold TokenFlow.accept
  dsimp only
  split_ifs <;> exact ⟨rfl, rfl, rfl, rfl⟩

lemma moves_receiveData (f : CapabilityFlow) (capaSeq : ℤ) (seq : ℕ) :
    Moves f (f.receiveData σ id capaSeq seq) := by
  obtain ⟨hstarted, hrts, hfinished, hreceiver⟩ :=
    f.toTokenFlow.accept_roles (σ.flow id) seq
  refine ⟨hstarted, hrts, fun h => hfinished.trans h, fun h => ?_⟩
  simp [CapabilityFlow.receiveData, hreceiver, h]

lemma moves_sendCapabilityPkt {f g : CapabilityFlow} {p : CapabilityPacket}
    (hf : f.sendCapabilityPkt σ now id = some (g, p)) : Moves f g := by
  obtain ⟨seq, -, hf⟩ := Option.map_eq_some_iff.1 hf
  obtain ⟨rfl, -⟩ := Prod.mk.inj hf
  exact ⟨rfl, rfl, fun h => h, fun h => h⟩

lemma moves_hasCapability (f : CapabilityFlow) : Moves f (f.hasCapability now).1 :=
  ⟨rfl, rfl, id, id⟩

lemma moves_update {f : CapabilityFlow} (hm : ∀ id, Moves (flows id) (flows' id))
    (hf : Moves (flows' id) f) (k : FlowId) : Moves (flows k) (Function.update flows' id f k) := by
  rcases eq_or_ne k id with rfl | hne
  · rw [Function.update_self]
    exact ⟨hf.started.trans (hm k).started, hf.rtsReceived.trans (hm k).rtsReceived,
      hf.finished ∘ (hm k).finished, hf.finishedAtReceiver ∘ (hm k).finishedAtReceiver⟩
  · rw [Function.update_of_ne hne]
    exact hm k

lemma lawful_sendRules (draws : ℕ → ℕ) : (CapabilityNet.sendRules σ now draws).Lawful where
  takes := choose_eq_some
  empty := choose_eq_none
  visit := by
    intro flows id r hr
    obtain rfl := Option.some.inj hr
    funext k
    rcases eq_or_ne k id with rfl | hne
    · simp [CapabilityNet.sendRules, CapabilityFlow.hasCapability]
    · simp [CapabilityNet.sendRules, hne]

lemma moves_sendSearch {draws : ℕ → ℕ} {turns : ℕ} {s r : Search FlowId (FlowId → CapabilityFlow)}
    (hr : search (CapabilityNet.sendRules σ now draws) turns s = some r)
    (hs : Remembers (CapabilityNet.sendRules σ now draws) s) (hfound : s.found = none) :
    ∀ k, Moves (s.state k) (r.state k) := by
  have hvisit : ∀ {st : FlowId → CapabilityFlow} {x : FlowId} {st' : FlowId → CapabilityFlow}
      {b : Bool}, (∀ k, Moves (s.state k) (st k)) →
      (CapabilityNet.sendRules σ now draws).visit st x = some (st', b) →
      ∀ k, Moves (s.state k) (st' k) := by
    intro st x st' b hm hv
    obtain ⟨rfl, -⟩ := Prod.mk.inj (Option.some.inj hv)
    exact moves_update hm (moves_hasCapability _)
  have hrule := search_rule (lawful_sendRules draws)
    (P := fun st _ => ∀ k, Moves (s.state k) (st k))
    (Q := fun st _ => ∀ k, Moves (s.state k) (st k)) (fun hm _ hv => hvisit hm hv)
    (fun hm _ hv => hvisit hm hv) hs (List.Subset.refl _) hfound (fun _ => .rfl) hr
  cases ho : r.found with
  | none => exact hrule.1 ho
  | some x => exact hrule.2 x ho

/-! ### The sender -/

lemma HostSound.scheduleHostProcEvt {link : LinkState} (hs : HostSound σ flows h host)
    (hnone : host.hostProcEvent = none) (k : HostId) :
    HostSound σ flows h (host.scheduleHostProcEvt σ now k link) :=
  ⟨hs.sends, hs.receives, hs.pending,
    by simp [CapabilityHost.scheduleHostProcEvt, CapabilityHost.assert, hs.asserts, hnone]⟩

namespace CapabilityNet

lemma Sound.wakeSender {link : LinkState} (hs : Sound σ net) :
    Sound σ (net.wakeSender σ now h link) := by
  unfold CapabilityNet.wakeSender
  split_ifs with hnone
  · exact hs.setHost ((hs h).scheduleHostProcEvt (Option.isNone_iff_eq_none.1 hnone) h)
  · exact hs

lemma Sound.sendFound (hs : Sound σ net) (hnone : (net.hosts h).hostProcEvent = none)
    (hn : net.sendFound σ now h id = some net') : Sound σ net' := by
  obtain ⟨⟨f, p⟩, hf, rfl⟩ := Option.map_eq_some_iff.1 hn
  have hm : Moves (net.flows id) f := by
    obtain ⟨⟨c, rest⟩, -, hf⟩ := Option.bind_eq_some_iff.1 hf
    obtain ⟨-, hf⟩ := Option.ite_none_right_eq_some.1 hf
    obtain ⟨rfl, -⟩ := Prod.mk.inj (Option.some.inj hf)
    exact ⟨rfl, rfl, fun h => h, fun h => h⟩
  have hflow : Sound σ ((net.setFlow id f).sendPackets [p]) := hs.setFlow hm
  have hhost := hflow h
  exact hflow.setHost ⟨hhost.sends, hhost.receives, hhost.pending,
    by simp [CapabilityHost.assert, (hs h).asserts, hnone]⟩

lemma Sound.send {link : LinkState} {draws : ℕ → ℕ} (hs : Sound σ net)
    (hnone : (net.hosts h).hostProcEvent = none)
    (hn : net.send σ now h link draws = some net') : Sound σ net' := by
  have hhost : HostSound σ net.flows h ((net.hosts h).assert (net.hosts h).hostProcEvent.isNone) :=
    ⟨(hs h).sends, (hs h).receives, (hs h).pending,
      by simp [CapabilityHost.assert, (hs h).asserts, hnone]⟩
  unfold CapabilityNet.send at hn
  dsimp only at hn
  split_ifs at hn with hbusy
  · obtain rfl := Option.some.inj hn
    exact hs.setHost (hhost.scheduleHostProcEvt hnone h)
  · obtain ⟨r, hr, hn⟩ := Option.bind_eq_some_iff.1 hn
    have hm := moves_sendSearch hr hhost.sends.last rfl
    have hcollects := Collects.search (lawful_sendRules draws) hhost.sends rfl hr
    have hflows : Sound σ { net with flows := r.state } := fun k => (hs k).moves hm
    have hfound : Sound σ ({ net with flows := r.state }.setHost h
        { (net.hosts h).assert (net.hosts h).hostProcEvent.isNone with
          sendFlows := r.queue ++ r.tried, sendFlow := r.last }) := by
      refine hflows.setHost ⟨?_, (hflows h).receives, (hflows h).pending, hhost.asserts⟩
      exact hcollects.mono (fun id => by simp only [Sends, (hm id).started])
        fun id => (hm id).finished
    split at hn
    case h_1 id ho =>
      refine hfound.sendFound ?_ hn
      simpa [CapabilityNet.setHost, CapabilityHost.assert] using hnone
    case h_2 ho =>
      split_ifs at hn
      exact Option.some.inj hn ▸ hfound

lemma Sound.hostProcessing {link : LinkState} {draws : ℕ → ℕ} (hs : Sound σ net)
    (hn : net.hostProcessing σ now h link draws = some net') : Sound σ net' := by
  have hhost := hs h
  have hfree : Sound σ (net.setHost h { net.hosts h with hostProcEvent := none }) :=
    hs.setHost ⟨hhost.sends, hhost.receives, hhost.pending, hhost.asserts⟩
  refine hfree.send ?_ hn
  simp [CapabilityNet.setHost]

lemma Sound.notifyFlowStatus (hs : Sound σ net) (hnone : (net.hosts h).senderNotifyEvt = none) :
    Sound σ (net.notifyFlowStatus σ now h) := by
  have hhost := hs h
  unfold CapabilityNet.notifyFlowStatus
  by_cases hrandom : σ.randomHost = true
  · rwa [if_pos hrandom]
  rw [if_neg hrandom]
  dsimp only
  have hperm : (CustomPriorityQueue.drain (comparator σ net.flows) (net.hosts h).sendFlows.length
      (net.hosts h).sendFlows).Perm (net.hosts h).sendFlows :=
    CustomPriorityQueue.drain_perm _
  generalize CustomPriorityQueue.drain (comparator σ net.flows) _ _ = order at hperm
  have hkept : Collects (Sends σ net.flows h) (fun id => (net.flows id).finished)
      (order.filter fun id => !(net.flows id).finished) (net.hosts h).sendFlow := by
    refine ⟨fun id hid hnot => ?_, fun id hid => ?_, fun id hid => ?_⟩
    · rw [List.count_filter (by simpa using hnot), hperm.count_eq]
      exact hhost.sends.once id hid hnot
    · exact hhost.sends.mine id (hperm.mem_iff.1 (List.mem_filter.1 hid).1)
    · by_cases hdone : (net.flows id).finished = true
      · exact .inr hdone
      · refine (hhost.sends.last id hid).imp_left fun hmem => ?_
        exact List.mem_filter.2 ⟨hperm.mem_iff.2 hmem, by simpa using hdone⟩
  have hback : ∀ b : Bool, HostSound σ net.flows h
      (let host := { net.hosts h with
        sendFlows := order.filter fun id => !(net.flows id).finished }
      if b then host else host.scheduleSenderNotifyEvt σ now) := by
    intro b
    cases b with
    | true => exact ⟨hkept, hhost.receives, hhost.pending, hhost.asserts⟩
    | false =>
      exact ⟨hkept, hhost.receives, hhost.pending, by
        simp [CapabilityHost.scheduleSenderNotifyEvt, CapabilityHost.assert, hhost.asserts, hnone]⟩
  have hnet : ∀ ps, Sound σ (net.sendPackets ps) := fun _ => hs
  exact (hnet _).setHost (hback _)

lemma Sound.senderNotify (hs : Sound σ net) : Sound σ (net.senderNotify σ now h) := by
  have hhost := hs h
  have hfree : Sound σ (net.setHost h { net.hosts h with senderNotifyEvt := none }) :=
    hs.setHost ⟨hhost.sends, hhost.receives, hhost.pending, hhost.asserts⟩
  refine hfree.notifyFlowStatus ?_
  simp [CapabilityNet.setHost]

lemma sound_update {sent : List CapabilityPacket}
    (hother : ∀ k, k ≠ h → HostSound σ flows' k (net.hosts k)) (hhost : HostSound σ flows' h host) :
    Sound σ ⟨flows', Function.update net.hosts h host, sent⟩ := by
  intro k
  rcases eq_or_ne k h with rfl | hne
  · simpa using hhost
  · simpa [hne] using hother k hne

section Update

variable {f : CapabilityFlow}

lemma Sound.addSender {sent : List CapabilityPacket} (hs : Sound σ net)
    (hnew : (net.flows id).started = false) (hstarted : f.started = true)
    (hrts : f.rtsReceived = (net.flows id).rtsReceived)
    (hfinished : f.finished = (net.flows id).finished)
    (hreceiver : f.finishedAtReceiver = (net.flows id).finishedAtReceiver) :
    Sound σ ⟨Function.update net.flows id f, Function.update net.hosts (σ.src id)
      { net.hosts (σ.src id) with
        sendFlows := (net.hosts (σ.src id)).sendFlows ++ [id] }, sent⟩ := by
  have hhost := hs (σ.src id)
  have hreceives : ∀ k k', Receives σ (Function.update net.flows id f) k k' ↔
      Receives σ net.flows k k' := fun k k' => by
    rw [Receives, Receives, field_update (·.rtsReceived) hrts]
  have hdone : ∀ k', (Function.update net.flows id f k').finished = (net.flows k').finished :=
    field_update (·.finished) hfinished
  have hdone' : ∀ k', (Function.update net.flows id f k').finishedAtReceiver =
      (net.flows k').finishedAtReceiver :=
    field_update (·.finishedAtReceiver) hreceiver
  refine sound_update (fun k hk => (hs k).mono (fun k' => ?_) (hreceives k)
    (fun k' => (hdone k').trans) fun k' => (hdone' k').trans)
    ⟨?_, hhost.receives.mono (hreceives _) fun k' => (hdone' k').trans, ?_, hhost.asserts⟩
  · rw [sends_update hstarted, or_iff_left fun hk' => hk hk'.2.symm]
  · have hnot : ¬ Sends σ net.flows (σ.src id) id := fun hsent =>
      Bool.false_ne_true (hnew.symm.trans hsent.1)
    refine (hhost.sends.push hnot).mono (fun k' => ?_) fun k' => (hdone k').trans
    rw [sends_update hstarted, and_iff_left rfl]
  · simp only [hdone']
    exact hhost.pending

lemma Sound.addReceiver {sent : List CapabilityPacket} (hs : Sound σ net)
    (hnew : (net.flows id).rtsReceived = false) (hrts : f.rtsReceived = true)
    (hstarted : f.started = (net.flows id).started)
    (hfinished : f.finished = (net.flows id).finished)
    (hreceiver : f.finishedAtReceiver = (net.flows id).finishedAtReceiver)
    (hsends : host.sendFlows = (net.hosts (σ.dst id)).sendFlows)
    (hsend : host.sendFlow = (net.hosts (σ.dst id)).sendFlow)
    (hrecvs : host.recvFlows = (net.hosts (σ.dst id)).recvFlows ++ [id])
    (hrecv : host.recvFlow = (net.hosts (σ.dst id)).recvFlow) (hevt : host.capaProcEvt ≠ none)
    (hasserts : host.asserts = true) :
    Sound σ ⟨Function.update net.flows id f, Function.update net.hosts (σ.dst id) host, sent⟩ := by
  have hhost := hs (σ.dst id)
  have hsame : ∀ k k', Sends σ (Function.update net.flows id f) k k' ↔ Sends σ net.flows k k' :=
    fun k k' => by rw [Sends, Sends, field_update (·.started) hstarted]
  have hdone : ∀ k', (Function.update net.flows id f k').finished = (net.flows k').finished :=
    field_update (·.finished) hfinished
  have hdone' : ∀ k', (Function.update net.flows id f k').finishedAtReceiver =
      (net.flows k').finishedAtReceiver :=
    field_update (·.finishedAtReceiver) hreceiver
  refine sound_update (fun k hk => (hs k).mono (hsame k) (fun k' => ?_)
    (fun k' => (hdone k').trans) fun k' => (hdone' k').trans)
    ⟨?_, ?_, fun _ => hevt, hasserts⟩
  · rw [receives_update hrts, or_iff_left fun hk' => hk hk'.2.symm]
  · rw [hsends, hsend]
    exact hhost.sends.mono (hsame _) fun k' => (hdone k').trans
  · have hnot : ¬ Receives σ net.flows (σ.dst id) id := fun hreceived =>
      Bool.false_ne_true (hnew.symm.trans hreceived.1)
    rw [hrecvs, hrecv]
    refine (hhost.receives.push hnot).mono (fun k' => ?_) fun k' => (hdone' k').trans
    rw [receives_update hrts, and_iff_left rfl]

end Update

lemma Sound.startFlow {link : LinkState} (hs : Sound σ net)
    (hnew : (net.flows id).started = false) : Sound σ (net.startFlow σ now id link) := by
  unfold CapabilityNet.startFlow
  dsimp only
  split_ifs
  · exact Sound.wakeSender (hs.addSender hnew rfl rfl rfl rfl)
  · exact hs.addSender hnew rfl rfl rfl rfl

/-! ### The receiver -/

lemma capaProcEvt_register (k : HostId) :
    ((net.hosts k).register σ now id).capaProcEvt ≠ none := by
  unfold CapabilityHost.register
  dsimp only
  split_ifs with hnone
  · exact nofun
  · exact fun h => hnone (Option.isNone_iff_eq_none.2 h)

lemma Sound.receiveRts (hs : Sound σ net) (hnew : (net.flows id).rtsReceived = false) :
    Sound σ (net.receiveRts σ now id) := by
  have hasserts := (hs (σ.dst id)).asserts
  have hregister : ((net.hosts (σ.dst id)).register σ now id).sendFlows =
        (net.hosts (σ.dst id)).sendFlows ∧
      ((net.hosts (σ.dst id)).register σ now id).sendFlow = (net.hosts (σ.dst id)).sendFlow ∧
      ((net.hosts (σ.dst id)).register σ now id).recvFlows =
        (net.hosts (σ.dst id)).recvFlows ++ [id] ∧
      ((net.hosts (σ.dst id)).register σ now id).recvFlow = (net.hosts (σ.dst id)).recvFlow ∧
      ((net.hosts (σ.dst id)).register σ now id).asserts = true := by
    unfold CapabilityHost.register CapabilityHost.cancelTimeout
    dsimp only
    split_ifs with htimeout hnone hnone
    · exact ⟨rfl, rfl, rfl, rfl, by
        simp [CapabilityHost.scheduleCapaProcEvt, CapabilityHost.assert, hasserts]⟩
    · exact ⟨rfl, rfl, rfl, rfl, hasserts⟩
    · exact ⟨rfl, rfl, rfl, rfl, by
        simpa [CapabilityHost.scheduleCapaProcEvt, CapabilityHost.assert, hasserts] using hnone⟩
    · exact ⟨rfl, rfl, rfl, rfl, hasserts⟩
  obtain ⟨hsends, hsend, hrecvs, hrecv, hassert⟩ := hregister
  exact hs.addReceiver hnew rfl rfl rfl rfl hsends hsend hrecvs hrecv (capaProcEvt_register _)
    hassert

lemma Sound.receiveData {capaSeq : ℤ} {seq : ℕ} (hs : Sound σ net) :
    Sound σ (net.receiveData σ now id capaSeq seq) := by
  have hknown : Sound σ
      (if (net.flows id).rtsReceived then net else net.receiveRts σ now id) := by
    split_ifs with hrts
    · exact hs
    · exact hs.receiveRts (Bool.not_eq_true _ ▸ hrts)
  unfold CapabilityNet.receiveData
  dsimp only
  generalize (if (net.flows id).rtsReceived then net else net.receiveRts σ now id) = net₁
    at hknown
  have hdata : Sound σ (net₁.setFlow id ((net₁.flows id).receiveData σ id capaSeq seq)) :=
    hknown.setFlow (moves_receiveData _ _ _)
  split_ifs
  · exact hdata
  · exact hdata

end CapabilityNet

lemma inWindow_relax {f g : CapabilityFlow} {b : Bool} (hf : f.relaxCapabilityGap σ = some g)
    (hg : g.inWindow σ = some b) : b = true := by
  obtain ⟨gap, -, rfl⟩ := Option.map_eq_some_iff.1 hf
  obtain ⟨gap', hgap', rfl⟩ := Option.map_eq_some_iff.1 hg
  have hlt := σ.capabilityWindow_lt
  have hgap : gap' = f.capabilityCount -
      toInt32 (ofInt32 (f.capabilityCount - σ.capabilityWindow)) :=
    (Option.some.inj (Option.ite_none_right_eq_some.1 hgap').2).symm
  refine decide_eq_true ?_
  rw [hgap]
  unfold toInt32 ofInt32
  split_ifs <;> omega

lemma examine_spec {f g : CapabilityFlow} {gives : Bool} {wait : Time}
    (he : f.examine σ now id = some (g, gives, wait)) : g.toTokenFlow = f.toTokenFlow ∧
      (gives = false → f.redundancyCtrlTimeout < 999999 →
        f.latestCapSentTime + σ.windowTimeout < 999999 →
        now < wait ∧ wait < 999999 ∧ g.redundancyCtrlTimeout < 999999 ∧
          g.latestCapSentTime + σ.windowTimeout < 999999) := by
  have hreset : (f.resetTimeout σ id).toTokenFlow = f.toTokenFlow ∧
      (f.resetTimeout σ id).latestCapSentTime = f.latestCapSentTime ∧
      (f.redundancyCtrlTimeout < 999999 →
        (f.resetTimeout σ id).redundancyCtrlTimeout < 999999) := by
    unfold CapabilityFlow.resetTimeout
    split_ifs
    · exact ⟨rfl, rfl, fun _ => by norm_num⟩
    · exact ⟨rfl, rfl, fun h => h⟩
  obtain ⟨hm, hlatest, hbelow⟩ := hreset
  unfold CapabilityFlow.examine at he
  split_ifs at he with htimeout
  · simp only [Option.some.injEq, Prod.mk.injEq] at he
    obtain ⟨rfl, rfl, rfl⟩ := he
    exact ⟨rfl, fun _ h₁ h₂ => ⟨htimeout, h₁, h₁, h₂⟩⟩
  · obtain ⟨isOpen, hopen, he⟩ := Option.bind_eq_some_iff.1 he
    split_ifs at he with hwin hpast
    · simp only [Option.some.injEq, Prod.mk.injEq] at he
      obtain ⟨rfl, rfl, rfl⟩ := he
      exact ⟨hm, nofun⟩
    · obtain ⟨g', hg', he⟩ := Option.bind_eq_some_iff.1 he
      obtain ⟨b, hb, he⟩ := Option.map_eq_some_iff.1 he
      simp only [Prod.mk.injEq] at he
      obtain ⟨rfl, rfl, rfl⟩ := he
      have hopen' := inWindow_relax hg' hb
      obtain ⟨-, -, rfl⟩ := Option.map_eq_some_iff.1 hg'
      exact ⟨hm, fun hno => absurd (hno.symm.trans hopen') nofun⟩
    · simp only [Option.some.injEq, Prod.mk.injEq] at he
      obtain ⟨rfl, rfl, rfl⟩ := he
      rw [hlatest] at hpast ⊢
      exact ⟨hm, fun _ h₁ h₂ => ⟨not_le.1 hpast, h₂, hbelow h₁, h₂⟩⟩

structure Waits (σ : CapabilitySpec) (now : Time) (flows : FlowId → CapabilityFlow)
    (xs : List FlowId) (s : (FlowId → CapabilityFlow) × Time) (tried : List FlowId) : Prop where
  moves : ∀ k, Moves (flows k) (s.1 k)
  below : CapabilityNet.TimesBelow σ s.1 xs
  tried : tried ≠ [] → s.2 < 999999
  later : s.2 < 999999 → now < s.2

variable {senders : HostId → List FlowId} {draws : ℕ → ℕ} {s : (FlowId → CapabilityFlow) × Time}
  {xs tried : List FlowId}

lemma visit_recvRules {r : ((FlowId → CapabilityFlow) × Time) × Bool}
    (hv : (CapabilityNet.recvRules σ now senders draws).visit s id = some r) :
    ∃ f wait, (s.1 id).examine σ now id = some (f, r.2, wait) ∧
      r.1 = (Function.update s.1 id f, min wait s.2) := by
  obtain ⟨-, hv⟩ := Option.ite_none_left_eq_some.1 hv
  obtain ⟨⟨f, gives, wait⟩, he, rfl⟩ := Option.map_eq_some_iff.1 hv
  exact ⟨f, wait, he, rfl⟩

lemma lawful_recvRules : (CapabilityNet.recvRules σ now senders draws).Lawful where
  takes := choose_eq_some
  empty := choose_eq_none
  visit := by
    intro s id r hr
    obtain ⟨f, wait, he, hr⟩ := visit_recvRules hr
    have hsame : f.finishedAtReceiver = (s.1 id).finishedAtReceiver :=
      congrArg _ (examine_spec he).1
    funext k
    rw [hr]
    exact field_update (·.finishedAtReceiver) hsame k

lemma Waits.visit (hw : Waits σ now flows xs s tried) (hmem : id ∈ xs)
    {s' : (FlowId → CapabilityFlow) × Time}
    (hv : (CapabilityNet.recvRules σ now senders draws).visit s id = some (s', false)) :
    Waits σ now flows xs s' (tried ++ [id]) := by
  obtain ⟨f, wait, he, rfl⟩ := visit_recvRules hv
  obtain ⟨hm, hwait⟩ := examine_spec he
  obtain ⟨hlater, hwaits, hf⟩ := hwait rfl (hw.below id hmem).1 (hw.below id hmem).2
  refine ⟨moves_update hw.moves (.of_eq hm), fun k hk => ?_,
    fun _ => min_lt_of_left_lt hwaits, fun _ => lt_min hlater ?_⟩
  · rcases eq_or_ne k id with rfl | hne
    · simpa using hf
    · simpa [hne] using hw.below k hk
  · rcases lt_or_ge s.2 999999 with hlt | hge
    · exact hw.later hlt
    · exact (hlater.trans hwaits).trans_le hge

/-- **A search of `send_capability`** gives a capability, or says when to look at the flows that
are left, if there are any. -/
lemma waits_of_search {turns : ℕ} {s r : Search FlowId ((FlowId → CapabilityFlow) × Time)}
    (hr : search (CapabilityNet.recvRules σ now senders draws) turns s = some r)
    (hs : Remembers (CapabilityNet.recvRules σ now senders draws) s) (hfound : s.found = none)
    (hw : Waits σ now flows s.queue s.state s.tried) :
    (∀ k, Moves (flows k) (r.state.1 k)) ∧
      (r.found = none → Waits σ now flows s.queue r.state r.tried) := by
  have hrule := search_rule lawful_recvRules (P := Waits σ now flows s.queue)
    (Q := fun st _ => ∀ k, Moves (flows k) (st.1 k)) (fun hw hmem hv => hw.visit hmem hv)
    (fun hw _ hv => by
      obtain ⟨f, wait, he, rfl⟩ := visit_recvRules hv
      exact moves_update hw.moves (.of_eq (examine_spec he).1))
    hs (List.Subset.refl _) hfound hw hr
  refine ⟨?_, hrule.1⟩
  cases ho : r.found with
  | none => exact (hrule.1 ho).moves
  | some x => exact hrule.2 x ho

lemma hostSound_scheduleCapaProcEvt {time : Time} {isTimeout : Bool}
    (hsends : Collects (Sends σ flows h) (fun id => (flows id).finished) host.sendFlows
      host.sendFlow)
    (hreceives : Collects (Receives σ flows h) (fun id => (flows id).finishedAtReceiver)
      host.recvFlows host.recvFlow)
    (hasserts : host.asserts = true) (hnone : host.capaProcEvt = none) :
    HostSound σ flows h (host.scheduleCapaProcEvt now time isTimeout) :=
  ⟨hsends, hreceives, fun _ => nofun,
    by simp [CapabilityHost.scheduleCapaProcEvt, CapabilityHost.assert, hasserts, hnone]⟩

namespace CapabilityNet

lemma sound_afterSearch {r : Search FlowId ((FlowId → CapabilityFlow) × Time)}
    (hother : ∀ k, k ≠ h → HostSound σ net.flows k (net.hosts k))
    (hsends : Collects (Sends σ net.flows h) (fun id => (net.flows id).finished)
      host.sendFlows host.sendFlow)
    (hreceives : Collects (Receives σ net.flows h) (fun id => (net.flows id).finishedAtReceiver)
      (r.queue ++ r.tried) r.last)
    (hnone : host.capaProcEvt = none) (hasserts : host.asserts = true)
    (hm : ∀ k, Moves (net.flows k) (r.state.1 k))
    (hwaits : r.found = none → Waits σ now net.flows xs r.state r.tried ∧ r.queue = [])
    (hn : net.afterSearch σ now h host r = some net') : Sound σ net' := by
  -- the collections after the flows have moved
  have hsends' : ∀ flows', (∀ k, Moves (net.flows k) (flows' k)) →
      Collects (Sends σ flows' h) (fun id => (flows' id).finished) host.sendFlows
        host.sendFlow := fun flows' hm =>
    hsends.mono (fun k => by rw [Sends, Sends, (hm k).started]) fun k => (hm k).finished
  have hreceives' : ∀ flows', (∀ k, Moves (net.flows k) (flows' k)) →
      Collects (Receives σ flows' h) (fun id => (flows' id).finishedAtReceiver)
        (r.queue ++ r.tried) r.last := fun flows' hm =>
    hreceives.mono (fun k => by rw [Receives, Receives, (hm k).rtsReceived])
      fun k => (hm k).finishedAtReceiver
  unfold CapabilityNet.afterSearch at hn
  dsimp only at hn
  split at hn
  case h_1 id hfound =>
    obtain ⟨⟨f, p⟩, hf, rfl⟩ := Option.map_eq_some_iff.1 hn
    have hgives : ∀ k, Moves (net.flows k) (Function.update r.state.1 id f k) :=
      moves_update hm (moves_sendCapabilityPkt hf)
    exact sound_update (fun k hk => (hother k hk).moves hgives)
      (hostSound_scheduleCapaProcEvt (hsends' _ hgives) (hreceives' _ hgives) hasserts hnone)
  case h_2 hfound =>
    obtain rfl := Option.some.inj hn
    obtain ⟨hw, hall⟩ := hwaits hfound
    refine sound_update (fun k hk => (hother k hk).moves hm) ?_
    split_ifs with hclose
    · exact hostSound_scheduleCapaProcEvt (hsends' _ hm) (hreceives' _ hm)
        (by simp [CapabilityHost.assert, hasserts, hw.later hclose]) hnone
    · refine ⟨hsends' _ hm, hreceives' _ hm, ?_, hasserts⟩
      rintro ⟨id, hmem, -⟩
      -- no flow is left
      have htried : r.tried = [] := by
        by_contra hne
        exact hclose (hw.tried hne)
      rw [hall, htried] at hmem
      exact absurd hmem List.not_mem_nil

lemma sound_sendCapability (hbelow : TimesBelow σ net.flows (net.hosts h).recvFlows)
    (hother : ∀ k, k ≠ h → HostSound σ net.flows k (net.hosts k))
    (hsends : Collects (Sends σ net.flows h) (fun id => (net.flows id).finished)
      (net.hosts h).sendFlows (net.hosts h).sendFlow)
    (hreceives : Collects (Receives σ net.flows h) (fun id => (net.flows id).finishedAtReceiver)
      (net.hosts h).recvFlows (net.hosts h).recvFlow)
    (hnone : (net.hosts h).capaProcEvt = none) (hasserts : (net.hosts h).asserts = true)
    (hn : net.sendCapability σ now h draws = some net') : Sound σ net' := by
  have hassert : ((net.hosts h).assert (net.hosts h).capaProcEvt.isNone).asserts = true := by
    simp [CapabilityHost.assert, hasserts, hnone]
  unfold CapabilityNet.sendCapability at hn
  dsimp only at hn
  split_ifs at hn with hhold
  · obtain rfl := Option.some.inj hn
    exact sound_update hother (hostSound_scheduleCapaProcEvt hsends hreceives hassert hnone)
  · obtain ⟨r, hr, hn⟩ := Option.bind_eq_some_iff.1 hn
    have hstart : Waits σ now net.flows (net.hosts h).recvFlows (net.flows, (999999 : Time)) [] :=
      ⟨fun _ => .rfl, hbelow, fun hne => absurd rfl hne, fun hlt => absurd hlt (lt_irrefl _)⟩
    obtain ⟨hm, hwaits⟩ := waits_of_search hr hreceives.last rfl hstart
    have hcollects := Collects.search lawful_recvRules hreceives rfl hr
    have hend := fun hfound => And.intro (hwaits hfound)
      (queue_of_notFound lawful_recvRules hr hfound)
    refine sound_afterSearch hother ?_ hcollects ?_ ?_ hm hend hn
    · exact hsends
    · exact hnone
    · exact hassert

lemma Sound.capaProcessing (hs : Sound σ net)
    (hbelow : TimesBelow σ net.flows (net.hosts h).recvFlows)
    (hn : net.capaProcessing σ now h draws = some net') : Sound σ net' := by
  have hhost : (net.setHost h { net.hosts h with capaProcEvt := none }).hosts h =
      { net.hosts h with capaProcEvt := none } := Function.update_self _ _ _
  unfold CapabilityNet.capaProcessing at hn
  refine sound_sendCapability ?_ (fun k hk => ?_) ?_ ?_ ?_ ?_ hn
  · rw [hhost]
    exact hbelow
  · simpa [CapabilityNet.setHost, hk] using hs k
  · rw [hhost]
    exact (hs h).sends
  · rw [hhost]
    exact (hs h).receives
  · rw [hhost]
  · rw [hhost]
    exact (hs h).asserts

/-! ### All runs -/

lemma sound_init : Sound σ σ.init := fun _ =>
  ⟨⟨fun _ hs => absurd hs.1 nofun, nofun, nofun⟩, ⟨fun _ hs => absurd hs.1 nofun, nofun, nofun⟩,
    fun ⟨_, hmem, _⟩ => absurd hmem List.not_mem_nil, rfl⟩

lemma Sound.receive {handle : CapabilityNet → CapabilityNet} (hs : Sound σ net)
    (hhandle : Sound σ (handle net)) : Sound σ (net.receive id handle) := by
  unfold CapabilityNet.receive
  split_ifs
  · exact hs
  · exact hhandle

lemma Sound.next {a : CapabilityAct} (hs : Sound σ net) (hbelow : StepsBelow σ net a)
    (hn : next σ net a = some net') : Sound σ net' := by
  cases a with
  | start now id link =>
    obtain ⟨hnew, hn⟩ := Option.ite_none_left_eq_some.1 hn
    exact Option.some.inj hn ▸ hs.startFlow (Bool.not_eq_true _ ▸ hnew)
  | send now h link draws => exact hs.hostProcessing hn
  | sendCapability now h draws => exact hs.capaProcessing hbelow hn
  | notify now h => exact Option.some.inj hn ▸ hs.senderNotify
  | rts now id =>
    refine Option.some.inj hn ▸ hs.receive ?_
    split_ifs with hrts
    · exact hs
    · exact hs.receiveRts (Bool.not_eq_true _ ▸ hrts)
  | data now id capaSeq seq => exact Option.some.inj hn ▸ hs.receive hs.receiveData
  | capability now id link ttl remainingSz capSeqNum dataSeqNum =>
    exact Option.some.inj hn ▸ hs.receive (Sound.wakeSender (hs.setFlow (.of_eq rfl)))
  | ack id =>
    exact Option.some.inj hn ▸ hs.receive
      (hs.setFlow ⟨rfl, rfl, fun hd => hd, fun hd => hd⟩)
  | finish id =>
    obtain ⟨r, hr, rfl⟩ := Option.map_eq_some_iff.1 hn
    obtain ⟨-, hr⟩ := Option.ite_none_left_eq_some.1 hr
    obtain rfl := Option.some.inj hr
    exact hs.setFlow ⟨rfl, rfl, fun _ => rfl, fun hd => hd⟩

/-- **The capability hosts lose no flow and do not stall**, as long as all timeouts are below the
time that stands for none. -/
theorem always_conservesFlows (σ : CapabilitySpec) (as : List CapabilityAct)
    (h : Along (machine σ) (StepsBelow σ) σ.init as) :
    Always (machine σ) (Conserves σ) σ.init as := by
  have hsound : Always (machine σ) (Sound σ) σ.init as :=
    h.always (fun hs hbelow hn => hs.next hbelow hn) sound_init
  exact hsound.mono fun _ => Sound.conserves

/-- Random hosts with a window of one packet, and flows of three packets to host 1. -/
def exampleHosts : CapabilitySpec where
  randomHost := true
  tokens := ⟨3, 0, 1, 1 / 1000000, 0, 0, 0, 0, 0⟩
  size _ := 4380
  sizeInPkt _ := 3
  src _ := 0
  dst _ := 1
  startTime _ := 1
  deadline _ := 0
  scheduleByDeadline := false
  mss := 1460
  hdrSize := 40
  rate _ := 10000000000
  capabilityWindow := 1
  capabilityWindowTimeout := 2
  capabilityResendTimeout := 2
  capabilityPrioThresh := 7
  capabilityThirdLevel := false
  capabilityFourthLevel := false
  capabilityWindow_lt := by decide

/-- Two flows are registered and given a capability each, and a window that has been closed for long
enough is relaxed. -/
theorem always_conservesFlows_closedWindow : Always (machine exampleHosts) (Conserves exampleHosts)
    exampleHosts.init
    [.start 1 0 ⟨none, 0⟩, .start 1 1 ⟨none, 0⟩, .rts 1 0, .rts 1 1, .sendCapability 1 1 fun _ => 0,
      .sendCapability (1000001 / 1000000) 1 fun _ => 0,
      .sendCapability (1000003 / 1000000) 1 fun _ => 0] :=
  always_conservesFlows exampleHosts _ (by decide +kernel)

end CapabilityNet

end DcSim
