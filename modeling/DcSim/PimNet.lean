import DcSim.PimEpoch
import DcSim.Runs
import Mathlib.Algebra.Order.Group.Multiset

/-!
The hosts of PIM and the network between them.

Each host has the epochs it has started and not yet removed, the links of the epoch it sends in,
and the event that starts its next epoch. Packets are in flight until they are received or lost,
in any order and for any time, and the events of a host happen at any time. What the matching
reads of the flows (whether a flow is finished, and how much of it has arrived) is moved from
outside, and so is the choice of the flows to request for, among those not finished.
-/

namespace DcSim

open Runs

structure PimFlowState where
  finished : Bool := false
  finishedAtReceiver : Bool := false
  receivedCount : ℕ := 0

structure PimHost where
  epochs : ℕ → Option PimEpoch := fun _ => none
  matchReceiverLinks : List PimVlink := []
  matchSenderLinks : List PimVlink := []
  curEpoch : ℤ := -1
  newEpochEvt : Option ℕ := some 0

structure PimNet where
  hosts : HostId → PimHost
  flows : FlowId → PimFlowState
  inFlight : Multiset PimPacket

inductive PimAct
  | newEpoch (h : HostId) (allFinished : Bool)
  | receiverIter (h : HostId) (e : ℕ) (order : List PimOffer) (links : List PimVlink)
      (best : List FlowId)
  | senderIter (h : HostId) (e : ℕ) (order : List PimOffer)
  | deliver (p : PimPacket) (word : ℤ)
  | lose (p : PimPacket)
  | flow (f : FlowId) (state : PimFlowState)

namespace PimHost

variable (host : PimHost)

def setEpoch (e : ℕ) (ep : PimEpoch) : PimHost :=
  { host with epochs := Function.update host.epochs e (some ep) }

@[simp] lemma setEpoch_self (e : ℕ) (ep : PimEpoch) : (host.setEpoch e ep).epochs e = some ep :=
  Function.update_self ..

@[simp] lemma setEpoch_ne {e i : ℕ} (hne : i ≠ e) (ep : PimEpoch) :
    (host.setEpoch e ep).epochs i = host.epochs i :=
  Function.update_of_ne hne ..

/-- `start_new_epoch`, which reads the epoch before. -/
def startNewEpoch (e : ℕ) (allFinished : Bool) : Option PimHost :=
  if (host.epochs e).isSome ∨ allFinished then some { host with newEpochEvt := none }
  else
    let start (prev : ℕ × ℕ) : PimHost :=
      { host.setEpoch e { numTxPromptLink := prev.1, numRxPromptLink := prev.2 } with
        newEpochEvt := some (e + 1) }
    if e = 0 then some (start (0, 0))
    else (host.epochs (e - 1)).map fun prev => start (prev.numTxLink, prev.numRxLink)

/-- The end of the iterations: the links are sorted and become those the host sends by, and the
epoch before is removed. -/
def endEpoch (e : ℕ) (ep : PimEpoch) (links : List PimVlink) : PimHost :=
  { host with
    epochs := fun i =>
      if i = e then some { ep with matchSenderLinks := links, procReceiverIterEvt := false }
      else if i + 1 = e then none else host.epochs i
    matchSenderLinks := links.map fun l => { l with promptLinks := 0 }
    matchReceiverLinks := ep.matchReceiverLinks
    curEpoch := e }

def scheduleReceiverIterEvt (σ : PimSpec) (e : ℕ) (ep : PimEpoch) (order : List PimOffer)
    (links : List PimVlink) (remaining : FlowId → ℤ) (best : List FlowId) :
    Option (PimHost × List PimPacket) :=
  (ep.handleAllGrants σ e order).bind fun r =>
    let ep := r.1.advanceIter
    if σ.pimIterLimit < ep.iter then
      if links.Perm ep.matchSenderLinks ∧
          links.Pairwise fun a b => a.shortestFlowSize ≤ b.shortestFlowSize then
        some (host.endEpoch e ep links, r.2)
      else none
    else
      (ep.sendAllReq σ e host.matchSenderLinks remaining best).map fun out =>
        (host.setEpoch e ep, r.2 ++ out)

end PimHost

namespace PimSpec

variable (σ : PimSpec)

def remainingPkts (flows : FlowId → PimFlowState) (f : FlowId) : ℤ :=
  max 0 (σ.sizeInPkt f - (flows f).receivedCount)

/-- The host that receives a packet. -/
def target (p : PimPacket) : HostId :=
  match p.kind with
  | .req | .accept => σ.src p.flow
  | .grants | .grantsR => σ.dst p.flow

/-- The handlers of the packets of an epoch. -/
def receive (ep : PimEpoch) (p : PimPacket) (word : ℤ) : Option (PimEpoch × List PimPacket) :=
  match p.kind with
  | .req => (ep.receiveReq p).map (·, [])
  | .grants => (ep.receiveGrants p).map (·, [])
  | .accept => ep.receiveAcceptPkt σ p.epoch word p
  | .grantsR => (ep.receiveGrantsr σ p).map (·, [])

/-- The epoch that a packet arrives at: there is none if the flow is finished or the epoch does not
exist. -/
def arrives (s : PimNet) (p : PimPacket) : Option PimEpoch :=
  if (s.flows p.flow).finished then none else (s.hosts (σ.target p)).epochs p.epoch

end PimSpec

namespace PimNet

variable (s : PimNet)

/-- A host changes and sends packets. -/
def update (h : HostId) (host : PimHost) (out : List PimPacket) : PimNet :=
  { s with hosts := Function.update s.hosts h host, inFlight := s.inFlight + out }

@[simp] lemma update_self (h : HostId) (host : PimHost) (out : List PimPacket) :
    (s.update h host out).hosts h = host :=
  Function.update_self ..

@[simp] lemma update_ne {h h' : HostId} (hne : h' ≠ h) (host : PimHost) (out : List PimPacket) :
    (s.update h host out).hosts h' = s.hosts h' :=
  Function.update_of_ne hne ..

end PimNet

namespace PimSpec

variable (σ : PimSpec)

def next (s : PimNet) : PimAct → Option PimNet
  | .newEpoch h allFinished =>
    (s.hosts h).newEpochEvt.bind fun e =>
      ((s.hosts h).startNewEpoch e allFinished).map (s.update h · [])
  | .receiverIter h e order links best =>
    ((s.hosts h).epochs e).bind fun ep =>
      if ep.procReceiverIterEvt = true ∧
          ∀ f ∈ best, σ.dst f = h ∧ (s.flows f).finishedAtReceiver = false then
        ((s.hosts h).scheduleReceiverIterEvt σ e ep order links (σ.remainingPkts s.flows) best).map
          fun r => s.update h r.1 r.2
      else none
  | .senderIter h e order =>
    ((s.hosts h).epochs e).bind fun ep =>
      if ep.procSenderIterEvt then
        (ep.scheduleSenderIterEvt σ e order).map fun r =>
          s.update h ((s.hosts h).setEpoch e r.1) r.2
      else none
  | .deliver p word =>
    if p ∈ s.inFlight then
      let s := { s with inFlight := s.inFlight.erase p }
      match σ.arrives s p with
      | none => some s
      | some ep =>
        (σ.receive ep p word).map fun r =>
          s.update (σ.target p) ((s.hosts (σ.target p)).setEpoch p.epoch r.1) r.2
    else none
  | .lose p => if p ∈ s.inFlight then some { s with inFlight := s.inFlight.erase p } else none
  | .flow f state =>
    if (s.flows f).finished ≤ state.finished ∧
        (s.flows f).finishedAtReceiver ≤ state.finishedAtReceiver ∧
        (s.flows f).receivedCount ≤ state.receivedCount then
      some { s with flows := Function.update s.flows f state }
    else none

def machine : Machine PimNet PimAct := ⟨⟨fun _ => {}, fun _ => {}, 0⟩, σ.next⟩

/-- A small experiment: host `0` has a flow of ten packets to each host, and a link carries ten
packets in an epoch. -/
def ofLinks (k : ℕ) (h : k < 4294967296) : PimSpec where
  pimK := k
  pimIterLimit := 5
  pimSelectMinIters := 0
  pimLinkPkts := 10
  src := fun _ => 0
  dst := id
  sizeInPkt := fun _ => 10
  startTime := fun _ => 0
  pimK_lt := h
  pimLinkPkts_pos := by decide

def oneLink (kind : PimKind) (f : FlowId) (iter epoch : ℕ) : PimPacket :=
  ⟨kind, f, iter, epoch, if kind = .accept then 0 else 10, 1, 1⟩

/-- The handshake of a flow, with no other one in the way, up to the ACCEPT; hosts `0` and `f` begin
the iteration, and end it. -/
def handshake (f : FlowId) (iter epoch : ℕ) : List PimAct :=
  [.deliver (oneLink .req f iter epoch) 0,
    .senderIter 0 epoch [PimEpoch.offer (oneLink .req f iter epoch)],
    .deliver (oneLink .grants f iter epoch) 0, .receiverIter 0 epoch [] [] [],
    .receiverIter f epoch [PimEpoch.offer (oneLink .grants f iter epoch)] [] []]

/-! ### Properties of the epochs and the packets -/

/-- All epochs of each host have one property, and all packets in flight another. -/
def All (I : HostId → PimEpoch → Prop) (G : PimPacket → Prop) (s : PimNet) : Prop :=
  (∀ h e ep, (s.hosts h).epochs e = some ep → I h ep) ∧ ∀ p ∈ s.inFlight, G p

/-- A condition on the packets that arrive at an epoch. -/
def Arrivals (C : PimEpoch → PimPacket → ℤ → Prop) (s : PimNet) (a : PimAct) : Prop :=
  ∀ p word ep, a = .deliver p word → σ.arrives s p = some ep → C ep p word

instance (C : PimEpoch → PimPacket → ℤ → Prop) [∀ ep p word, Decidable (C ep p word)] (s : PimNet)
    (a : PimAct) : Decidable (σ.Arrivals C s a) :=
  match a with
  | .deliver p word =>
    decidable_of_iff (∀ ep ∈ σ.arrives s p, C ep p word)
      ⟨by rintro hC _ _ ep ⟨⟩ harr; exact hC ep harr, fun hC ep harr => hC p word ep rfl harr⟩
  | .newEpoch .. | .receiverIter .. | .senderIter .. | .lose _ | .flow .. =>
    isTrue fun _ _ _ ha => nomatch ha

structure Keeps (C : PimEpoch → PimPacket → ℤ → Prop) (I : HostId → PimEpoch → Prop)
    (G : PimPacket → Prop) : Prop where
  first {h} : I h { numTxPromptLink := 0, numRxPromptLink := 0 }
  start {h ep} : I h ep → I h { numTxPromptLink := ep.numTxLink, numRxPromptLink := ep.numRxLink }
  receive {ep p word r} : I (σ.target p) ep → G p → C ep p word → σ.receive ep p word = some r →
    I (σ.target p) r.1 ∧ ∀ q ∈ r.2, G q
  grants {h e ep order r} : I h ep → ep.handleAllGrants σ e order = some r →
    I h r.1 ∧ ∀ q ∈ r.2, G q
  advance {h ep} : I h ep → I h ep.advanceIter
  sort {h ep links} : I h ep → links.Perm ep.matchSenderLinks →
    I h { ep with matchSenderLinks := links, procReceiverIterEvt := false }
  reqs {h e ep links remaining best out} : I h ep →
    ep.sendAllReq σ e links remaining best = some out → ∀ q ∈ out, G q
  requests {h e ep order r} : I h ep → ep.scheduleSenderIterEvt σ e order = some r →
    I h r.1 ∧ ∀ q ∈ r.2, G q

variable {σ} {C : PimEpoch → PimPacket → ℤ → Prop} {I : HostId → PimEpoch → Prop}
  {G : PimPacket → Prop} {s t : PimNet} {a : PimAct}

lemma All.update (hs : All I G s) {h : HostId} {host : PimHost} {out : List PimPacket}
    (hhost : ∀ e ep, host.epochs e = some ep → I h ep) (hout : ∀ q ∈ out, G q) :
    All I G (s.update h host out) := by
  refine ⟨fun h' e ep hep => ?_, fun p hp => ?_⟩
  · rcases eq_or_ne h' h with rfl | hne
    · exact hhost e ep (by simpa using hep)
    · exact hs.1 h' e ep (by simpa [hne] using hep)
  · rcases Multiset.mem_add.1 hp with hp | hp
    · exact hs.2 p hp
    · exact hout p (Multiset.mem_coe.1 hp)

lemma All.setEpoch (hs : All I G s) {h : HostId} {e : ℕ} {ep : PimEpoch} (hep : I h ep) :
    ∀ i x, ((s.hosts h).setEpoch e ep).epochs i = some x → I h x := by
  intro i x hx
  rcases eq_or_ne i e with rfl | hne
  · rw [PimHost.setEpoch_self] at hx
    exact Option.some.inj hx ▸ hep
  · rw [PimHost.setEpoch_ne _ hne] at hx
    exact hs.1 h i x hx

lemma All.startNewEpoch (hK : σ.Keeps C I G) (hs : All I G s) {h : HostId} {e : ℕ} {b : Bool}
    {host : PimHost} (hhost : (s.hosts h).startNewEpoch e b = some host) :
    ∀ i ep, host.epochs i = some ep → I h ep := by
  unfold PimHost.startNewEpoch at hhost
  split_ifs at hhost with h₁ h₂
  · obtain rfl := Option.some.inj hhost
    exact hs.1 h
  · obtain rfl := Option.some.inj hhost
    exact hs.setEpoch hK.first
  · obtain ⟨prev, hprev, rfl⟩ := Option.map_eq_some_iff.1 hhost
    exact hs.setEpoch (hK.start (hs.1 h _ prev hprev))

lemma All.scheduleReceiverIterEvt (hK : σ.Keeps C I G) (hs : All I G s) {h : HostId} {e : ℕ}
    {ep : PimEpoch} (hep : I h ep) {order : List PimOffer} {links : List PimVlink}
    {remaining : FlowId → ℤ} {best : List FlowId} {r : PimHost × List PimPacket}
    (hr : (s.hosts h).scheduleReceiverIterEvt σ e ep order links remaining best = some r) :
    (∀ i x, r.1.epochs i = some x → I h x) ∧ ∀ q ∈ r.2, G q := by
  obtain ⟨r₁, hgrants, hr⟩ := Option.bind_eq_some_iff.1 hr
  obtain ⟨hI, hG⟩ := hK.grants hep hgrants
  have hadvance := hK.advance hI
  dsimp only at hr
  split_ifs at hr with hlimit hlinks
  · obtain rfl := Option.some.inj hr
    refine ⟨fun i x hx => ?_, hG⟩
    unfold PimHost.endEpoch at hx
    dsimp only at hx
    split_ifs at hx
    · exact Option.some.inj hx ▸ hK.sort hadvance hlinks.1
    · exact hs.1 h i x hx
  · obtain ⟨out, hout, rfl⟩ := Option.map_eq_some_iff.1 hr
    refine ⟨hs.setEpoch hadvance, fun q hq => ?_⟩
    rcases List.mem_append.1 hq with hq | hq
    · exact hG q hq
    · exact hK.reqs hadvance hout q hq

/-- **What a step keeps.** -/
theorem Keeps.step (hK : σ.Keeps C I G) (hs : All I G s) (hC : σ.Arrivals C s a)
    (hn : σ.next s a = some t) : All I G t := by
  cases a with
  | newEpoch h b =>
    obtain ⟨e, -, hn⟩ := Option.bind_eq_some_iff.1 hn
    obtain ⟨host, hhost, rfl⟩ := Option.map_eq_some_iff.1 hn
    exact hs.update (hs.startNewEpoch hK hhost) (by simp)
  | receiverIter h e order links best =>
    obtain ⟨ep, hep, hn⟩ := Option.bind_eq_some_iff.1 hn
    split_ifs at hn
    obtain ⟨r, hr, rfl⟩ := Option.map_eq_some_iff.1 hn
    obtain ⟨hI, hG⟩ := hs.scheduleReceiverIterEvt hK (hs.1 h e ep hep) hr
    exact hs.update hI hG
  | senderIter h e order =>
    obtain ⟨ep, hep, hn⟩ := Option.bind_eq_some_iff.1 hn
    split_ifs at hn
    obtain ⟨r, hr, rfl⟩ := Option.map_eq_some_iff.1 hn
    obtain ⟨hI, hG⟩ := hK.requests (hs.1 h e ep hep) hr
    exact hs.update (hs.setEpoch hI) hG
  | deliver p word =>
    simp only [next] at hn
    split_ifs at hn with hp
    have hs' : All I G { s with inFlight := s.inFlight.erase p } :=
      ⟨hs.1, fun q hq => hs.2 q (Multiset.mem_of_mem_erase hq)⟩
    cases harr : σ.arrives { s with inFlight := s.inFlight.erase p } p with
    | none =>
      rw [harr] at hn
      exact Option.some.inj hn ▸ hs'
    | some ep =>
      rw [harr] at hn
      obtain ⟨r, hr, rfl⟩ := Option.map_eq_some_iff.1 hn
      have hep : (s.hosts (σ.target p)).epochs p.epoch = some ep := by
        unfold arrives at harr
        split_ifs at harr
        exact harr
      obtain ⟨hI, hG⟩ := hK.receive (hs.1 _ _ ep hep) (hs.2 p hp) (hC p word ep rfl harr) hr
      exact hs'.update (hs'.setEpoch hI) hG
  | lose p =>
    simp only [next] at hn
    split_ifs at hn
    obtain rfl := Option.some.inj hn
    exact ⟨hs.1, fun q hq => hs.2 q (Multiset.mem_of_mem_erase hq)⟩
  | flow f state =>
    simp only [next] at hn
    split_ifs at hn
    obtain rfl := Option.some.inj hn
    exact hs

lemma all_init : All I G σ.machine.init :=
  ⟨fun _ _ _ h => (nomatch h), fun _ hp => absurd hp (Multiset.notMem_zero _)⟩

/-- **What a run keeps**, as long as the packets that arrive meet the condition. -/
theorem Keeps.always (hK : σ.Keeps C I G) {as : List PimAct}
    (hC : Along σ.machine (σ.Arrivals C) σ.machine.init as) :
    Always σ.machine (All I G) σ.machine.init as :=
  hC.always (fun hs hC hn => hK.step hs hC hn) all_init

/-- **What every run keeps**, when the condition is met by any packet. -/
theorem Keeps.reach (hK : σ.Keeps (fun _ _ _ => True) I G) (hs : Reach σ.machine s) :
    All I G s :=
  hs.inv (I := All I G) all_init fun _ hs hn => hK.step hs (fun _ _ _ _ _ => trivial) hn

end PimSpec

end DcSim
