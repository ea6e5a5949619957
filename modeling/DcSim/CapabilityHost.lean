import DcSim.Collection
import DcSim.CustomPriorityQueue
import DcSim.HeapQueue
import DcSim.Runs
import DcSim.TokenFlow
import DcSim.Word32

/-!
The hosts of the capability flows, `CAPABILITY_HOST` and `RANDOM_HOST`.

A host has a collection of the flows it sends and one of those it receives. When its
`HostProcessingEvent` comes, it looks for a flow that holds a capability and lets it send a data
packet; when its `CapabilityProcessingEvent` comes, it looks for a flow that may be given a
capability. A `CAPABILITY_HOST` takes the best flow first, from priority queues, and a
`RANDOM_HOST` the flow it chose last, and then one at random, from arrays; each host uses one of
the two, so that a collection is one list here.

What arrives, and when, is left open, and so is when the events of a host are processed. An
assertion about the events of a host that fails is recorded, and a step that fails another
assertion has no next state. `CAPABILITY_HOLD` is true, `CAPABILITY_NOTIFY_BLOCKING` and
`CAPABILITY_MEASURE_WASTE` are false.
-/

namespace DcSim

open Collection Runs Word32

structure CapabilitySpec where
  -- Of `tokens` the flows have all but the size.
  randomHost : Bool
  tokens : TokenSpec
  size : FlowId → ℕ
  sizeInPkt : FlowId → ℕ
  src : FlowId → HostId
  dst : FlowId → HostId
  startTime : FlowId → Time
  deadline : FlowId → Time
  scheduleByDeadline : Bool
  mss : ℕ
  hdrSize : ℕ
  rate : HostId → ℚ
  capabilityWindow : ℕ
  capabilityWindowTimeout : ℚ
  capabilityResendTimeout : ℚ
  capabilityPrioThresh : ℕ
  capabilityThirdLevel : Bool
  capabilityFourthLevel : Bool
  capabilityWindow_lt : capabilityWindow < 4294967296

structure Capability where
  timeout : Time
  seqNum : ℤ
  dataSeqNum : ℕ
  deriving DecidableEq

/-- `CapabilityComparator` -/
def Capability.comparator (a b : Capability) : Bool := b.timeout < a.timeout

structure CapabilityFlow extends TokenFlow where
  -- The capabilities take the place of the tokens.
  capabilities : Array Capability := #[]
  nextSeqNo : ℕ := 0
  remainingPktsAtSender : ℤ
  notifiedNumFlowAtSender : ℕ := 1
  capabilityCount : ℤ := 0
  capabilityGoal : ℤ
  redundancyCtrlTimeout : Time := -1
  largestCapSeqReceived : ℤ := -1
  latestCapSentTime : Time

inductive CapabilityPacket
  | rts (flow : FlowId)
  | data (flow : FlowId) (seqNo : ℕ) (capaSeq : ℤ) (capaDataSeq pfPriority : ℕ)
  | capability (flow : FlowId) (ttl : Time) (remainingSz capSeqNum : ℤ) (dataSeqNum : ℕ)
  | status (flow : FlowId) (numFlowsAtSender : ℕ)
  | ack (flow : FlowId)
  deriving DecidableEq

structure CapabilityProcessingEvent where
  time : Time
  isTimeoutEvt : Bool
  deriving DecidableEq

structure CapabilityHost where
  -- The last field is history: whether each assertion about the events of the host has held.
  sendFlows : List FlowId := []
  recvFlows : List FlowId := []
  sendFlow : Option FlowId := none
  recvFlow : Option FlowId := none
  hostProcEvent : Option Time := none
  capaProcEvt : Option CapabilityProcessingEvent := none
  senderNotifyEvt : Option Time := none
  holdOn : ℕ := 0
  asserts : Bool := true

structure LinkState where
  -- What a host sees of the queue of its link: until when it is busy, and its bytes.
  busyUntil : Option Time
  bytesInQueue : ℕ

structure CapabilityNet where
  flows : FlowId → CapabilityFlow
  hosts : HostId → CapabilityHost := fun _ => {}
  sent : List CapabilityPacket := []

namespace CapabilitySpec

variable (σ : CapabilitySpec)

def flow (f : FlowId) : TokenSpec := { σ.tokens with sizeInPkt := σ.sizeInPkt f }

def init : CapabilityNet where
  flows f :=
    { remainingPktsAtSender := σ.sizeInPkt f
      capabilityGoal := σ.sizeInPkt f
      latestCapSentTime := σ.startTime f }

/-- How long a flow whose window is closed waits. -/
def windowTimeout : Time := σ.capabilityWindowTimeout * σ.tokens.fullPktTranDelay

end CapabilitySpec

namespace CapabilityFlow

variable (σ : CapabilitySpec) (now : Time) (id : FlowId) (f : CapabilityFlow)

/-! ### The sender of a flow -/

def assignInitCapability : CapabilityFlow :=
  let timeout := TokenFlow.initTimeout (σ.flow id) .capability now
  { f with
    capabilities := (List.range (TokenFlow.initTokenSize (σ.flow id))).foldl
      (fun cs (i : ℕ) => HeapQueue.push Capability.comparator cs ⟨timeout, i, i⟩) f.capabilities }

/-- The loop of `has_capability`, for at most so many turns: expired capabilities are deleted. -/
def dropExpired : ℕ → Array Capability → Array Capability
  | 0, cs => cs
  | turns + 1, cs =>
    match HeapQueue.pop Capability.comparator cs with
    | none => cs
    | some (c, rest) => if c.timeout < now then dropExpired turns rest else cs

/-- `has_capability`, and the flow after it. -/
def hasCapability : CapabilityFlow × Bool :=
  let cs := dropExpired now f.capabilities.size f.capabilities
  ({ f with capabilities := cs }, !cs.isEmpty)

/-- `send_pending_data`, and the packet that is sent. -/
def sendPendingData : Option (CapabilityFlow × CapabilityPacket) :=
  (HeapQueue.pop Capability.comparator f.capabilities).bind fun (c, rest) =>
    if now ≤ c.timeout then
      let more := add32 f.nextSeqNo σ.mss ≤ σ.size id
      let priority := if σ.capabilityThirdLevel ∧ σ.capabilityPrioThresh < σ.sizeInPkt id then 2
        else 1
      some ({ f with
          capabilities := rest
          nextSeqNo := if more then add32 f.nextSeqNo σ.mss else σ.size id },
        .data id f.nextSeqNo c.seqNum c.dataSeqNum priority)
    else none

def receiveCapability (ttl : Time) (remainingSz capSeqNum : ℤ) (dataSeqNum : ℕ) :
    CapabilityFlow :=
  { f with
    capabilities := HeapQueue.push Capability.comparator f.capabilities
      ⟨now + ttl, capSeqNum, dataSeqNum⟩
    remainingPktsAtSender := remainingSz }

/-! ### The receiver of a flow -/

def remainingPkts : ℤ := max 0 (σ.sizeInPkt id - f.receivedCount)

def capabilityGap : Option ℤ :=
  let gap := f.capabilityCount - f.largestCapSeqReceived
  if 0 ≤ gap then some gap else none

/-- `capability_gap() <= params.capability_window`, where an `int` is compared with a
`uint32_t`. -/
def inWindow : Option Bool :=
  f.capabilityGap.map fun gap => decide (ofInt32 gap ≤ σ.capabilityWindow)

def relaxCapabilityGap : Option CapabilityFlow :=
  f.capabilityGap.map fun _ =>
    { f with largestCapSeqReceived := toInt32 (ofInt32 (f.capabilityCount - σ.capabilityWindow)) }

/-- A redundancy timeout that has passed is set back, and the flow is to be given capabilities
again. -/
def resetTimeout : CapabilityFlow :=
  if 0 < f.redundancyCtrlTimeout then
    { f with
      redundancyCtrlTimeout := -1
      capabilityGoal := f.capabilityGoal + f.remainingPkts σ id }
  else f

/-- A flow is looked at in `send_capability`: the flow after it, whether it may be given a
capability, and how long it waits otherwise. -/
def examine : Option (CapabilityFlow × Bool × Time) :=
  if now < f.redundancyCtrlTimeout then some (f, false, f.redundancyCtrlTimeout)
  else
    let f := f.resetTimeout σ id
    let closes := f.latestCapSentTime + σ.windowTimeout
    (f.inWindow σ).bind fun isOpen =>
      if isOpen then some (f, true, 999999)
      else if closes ≤ now then
        (f.relaxCapabilityGap σ).bind fun f => (f.inWindow σ).map (f, ·, 999999)
      else some (f, false, closes)

/-- `send_capability_pkt`, and the redundancy timeout it starts when the goal is reached. -/
def sendCapabilityPkt : Option (CapabilityFlow × CapabilityPacket) :=
  (f.getNextTokenSeqNum (σ.flow id)).map fun seq : ℕ =>
    ({ f with
        lastTokenDataSeqNumSent := seq
        capabilityCount := f.capabilityCount + 1
        latestCapSentTime := now
        redundancyCtrlTimeout :=
          if f.capabilityCount + 1 = f.capabilityGoal then
            now + σ.capabilityResendTimeout * σ.tokens.fullPktTranDelay
          else f.redundancyCtrlTimeout },
      .capability id (TokenFlow.tokenTtl (σ.flow id) .capability 0) (f.remainingPkts σ id)
        f.capabilityCount seq)

def setCapabilityCount : CapabilityFlow :=
  let init := TokenFlow.initTokenSize (σ.flow id)
  { f with
    capabilityCount := init
    lastTokenDataSeqNumSent := init - 1
    redundancyCtrlTimeout :=
      if (init : ℤ) = f.capabilityGoal then now + init * σ.tokens.fullPktTranDelay * 2
      else f.redundancyCtrlTimeout }

def receiveData (capaSeq : ℤ) (seq : ℕ) : CapabilityFlow :=
  let flow := f.toTokenFlow.accept (σ.flow id) seq
  { f with
    toTokenFlow := { flow with
      finishedAtReceiver := flow.finishedAtReceiver || σ.sizeInPkt id ≤ flow.receivedCount }
    largestCapSeqReceived := max f.largestCapSeqReceived capaSeq }

end CapabilityFlow

namespace CapabilityHost

variable (σ : CapabilitySpec) (now : Time) (host : CapabilityHost)

/-- An assertion, and whether it holds. -/
def assert (holds : Bool) : CapabilityHost := { host with asserts := host.asserts && holds }

def scheduleHostProcEvt (h : HostId) (link : LinkState) : CapabilityHost :=
  { host.assert host.hostProcEvent.isNone with
    hostProcEvent := some (link.busyUntil.getD now + link.bytesInQueue * 8 / σ.rate h +
      infinitesimalTime) }

def scheduleCapaProcEvt (time : Time) (isTimeout : Bool) : CapabilityHost :=
  { host.assert host.capaProcEvt.isNone with
    capaProcEvt := some ⟨now + time + infinitesimalTime, isTimeout⟩ }

def scheduleSenderNotifyEvt : CapabilityHost :=
  { host.assert host.senderNotifyEvt.isNone with
    senderNotifyEvt := some (now + σ.tokens.fullPktTranDelay * 20 + infinitesimalTime) }

/-- A capability event that waits for a timeout is cancelled. -/
def cancelTimeout : CapabilityHost :=
  if host.capaProcEvt.any (·.isTimeoutEvt) then { host with capaProcEvt := none } else host

/-- A flow is registered, and without a capability event one is scheduled at once. -/
def register (id : FlowId) : CapabilityHost :=
  let host := { host with
    holdOn := TokenFlow.initTokenSize (σ.flow id)
    recvFlows := host.recvFlows ++ [id] }.cancelTimeout
  if host.capaProcEvt.isNone then host.scheduleCapaProcEvt now 0 false else host

end CapabilityHost

namespace CapabilityNet

variable (σ : CapabilitySpec) (now : Time) (net : CapabilityNet)

def setFlow (id : FlowId) (f : CapabilityFlow) : CapabilityNet :=
  { net with flows := Function.update net.flows id f }

def setHost (h : HostId) (host : CapabilityHost) : CapabilityNet :=
  { net with hosts := Function.update net.hosts h host }

def sendPackets (ps : List CapabilityPacket) : CapabilityNet := { net with sent := net.sent ++ ps }

/-! ### The choice of a flow -/

/-- `CapabilityFlowComparator` -/
def comparator (flows : FlowId → CapabilityFlow) (a b : FlowId) : Bool :=
  if σ.scheduleByDeadline then σ.deadline b < σ.deadline a
  else if (flows b).remainingPktsAtSender < (flows a).remainingPktsAtSender then true
  else if (flows a).remainingPktsAtSender = (flows b).remainingPktsAtSender then
    σ.startTime b < σ.startTime a
  else false

/-- `CapabilityFlowComparatorAtReceiver` -/
def comparatorAtReceiver (flows : FlowId → CapabilityFlow) (a b : FlowId) : Bool :=
  if σ.scheduleByDeadline then σ.deadline b < σ.deadline a
  else if (flows b).notifiedNumFlowAtSender < (flows a).notifiedNumFlowAtSender then true
  else if (flows a).notifiedNumFlowAtSender = (flows b).notifiedNumFlowAtSender then
    if (flows b).remainingPkts σ b < (flows a).remainingPkts σ a then true
    else if (flows a).remainingPkts σ a = (flows b).remainingPkts σ b then
      σ.startTime b < σ.startTime a
    else false
  else false

/-- `choose_send_flow` and `choose_recv_flow`; a `CAPABILITY_HOST` does not read which flow was the
last. -/
def choose (comp : FlowId → FlowId → Bool) (draw : ℕ) (last : Option FlowId)
    (flows : List FlowId) : Option (FlowId × List FlowId) :=
  if σ.randomHost then chooseRandom draw last flows else CustomPriorityQueue.pop comp flows

/-! ### The sender -/

/-- The search of `send`, for a flow that holds a capability. -/
def sendRules (draws : ℕ → ℕ) : Rules FlowId (FlowId → CapabilityFlow) where
  choose flows n := choose σ (comparator σ flows) (draws n)
  done flows id := (flows id).finished
  visit flows id :=
    let r := (flows id).hasCapability now
    some (Function.update flows id r.1, r.2)

/-- The flow that `send` has found sends a packet, which the next `HostProcessingEvent` waits
for. -/
def sendFound (h : HostId) (id : FlowId) : Option CapabilityNet :=
  ((net.flows id).sendPendingData σ now id).map fun (f, p) =>
    let host := (net.hosts h).assert (net.hosts h).hostProcEvent.isNone
    let delay := add32 σ.mss σ.hdrSize * 8 / σ.rate h
    ((net.setFlow id f).sendPackets [p]).setHost h
      { host with hostProcEvent := some (now + delay + infinitesimalTime) }

/-- `send`. At the fourth level, the first flow without a capability would send a packet of low
priority, which fails. -/
def send (h : HostId) (link : LinkState) (draws : ℕ → ℕ) : Option CapabilityNet :=
  let host := (net.hosts h).assert (net.hosts h).hostProcEvent.isNone
  if link.busyUntil.isSome then some (net.setHost h (host.scheduleHostProcEvt σ now h link))
  else
    (search (sendRules σ now draws) (host.sendFlows.length + 1)
        { state := net.flows, queue := host.sendFlows, last := host.sendFlow }).bind fun r =>
      let net := { net with flows := r.state }.setHost h
        { host with sendFlows := r.queue ++ r.tried, sendFlow := r.last }
      match r.found with
      | some id => net.sendFound σ now h id
      | none =>
        if σ.capabilityFourthLevel ∧
            r.tried.head?.any fun id => σ.tokens.tokenInitial < σ.sizeInPkt id then none
        else some net

/-- `HostProcessingEvent::process_event` -/
def hostProcessing (h : HostId) (link : LinkState) (draws : ℕ → ℕ) : Option CapabilityNet :=
  (net.setHost h { net.hosts h with hostProcEvent := none }).send σ now h link draws

/-- `notify_flow_status`, which looks at the priority queue only. -/
def notifyFlowStatus (h : HostId) : CapabilityNet :=
  if σ.randomHost then net
  else
    let host := net.hosts h
    let order := CustomPriorityQueue.drain (comparator σ net.flows) host.sendFlows.length
      host.sendFlows
    let kept := order.filter fun id => !(net.flows id).finished
    let large := kept.filter fun id => σ.tokens.tokenInitial < σ.sizeInPkt id
    let host := { host with sendFlows := kept }
    (net.sendPackets (large.map (.status · (if 2 < large.length then 2 else 1)))).setHost h
      (if kept.isEmpty then host else host.scheduleSenderNotifyEvt σ now)

/-- `SenderNotifyEvent::process_event` -/
def senderNotify (h : HostId) : CapabilityNet :=
  (net.setHost h { net.hosts h with senderNotifyEvt := none }).notifyFlowStatus σ now h

/-- A host without a `HostProcessingEvent` schedules one. -/
def wakeSender (h : HostId) (link : LinkState) : CapabilityNet :=
  if (net.hosts h).hostProcEvent.isNone then
    net.setHost h ((net.hosts h).scheduleHostProcEvt σ now h link)
  else net

/-- `start_flow` and `start_capability_flow` -/
def startFlow (id : FlowId) (link : LinkState) : CapabilityNet :=
  let h := σ.src id
  let r := ((net.flows id).assignInitCapability σ now id).hasCapability now
  let host := net.hosts h
  let net := ((net.setFlow id { r.1 with started := true }).setHost h
    { host with sendFlows := host.sendFlows ++ [id] }).sendPackets [.rts id]
  if r.2 then net.wakeSender σ now h link else net

/-! ### The receiver -/

/-- The search of `send_capability`, for a flow that may be given a capability, and the next time
to look at the others. For a flow that waits, a `CAPABILITY_HOST` looks at the best flow of its
sender, which has to have one. -/
def recvRules (senders : HostId → List FlowId) (draws : ℕ → ℕ) :
    Rules FlowId ((FlowId → CapabilityFlow) × Time) where
  choose s n := choose σ (comparatorAtReceiver σ s.1) (draws n)
  done s id := (s.1 id).finishedAtReceiver
  visit s id :=
    if now < (s.1 id).redundancyCtrlTimeout ∧ σ.randomHost = false ∧ senders (σ.src id) = [] then
      none
    else
      ((s.1 id).examine σ now id).map fun (f, gives, wait) =>
        ((Function.update s.1 id f, min wait s.2), gives)

/-- What follows the search of `send_capability` of a host. -/
def afterSearch (h : HostId) (host : CapabilityHost)
    (r : Search FlowId ((FlowId → CapabilityFlow) × Time)) : Option CapabilityNet :=
  let host := { host with recvFlows := r.queue ++ r.tried, recvFlow := r.last }
  let net := { net with flows := r.state.1 }
  match r.found with
  | some id =>
    ((net.flows id).sendCapabilityPkt σ now id).map fun (f, p) =>
      ((net.setFlow id f).sendPackets [p]).setHost h
        (host.scheduleCapaProcEvt now σ.tokens.fullPktTranDelay false)
  | none =>
    let closest := r.state.2
    some (net.setHost h
      (if closest < 999999 then
        (host.assert (now < closest)).scheduleCapaProcEvt now (closest - now) true
      else host))

/-- `send_capability`: while `hold_on` is positive, the packets of a short flow use the link. -/
def sendCapability (h : HostId) (draws : ℕ → ℕ) : Option CapabilityNet :=
  let host := (net.hosts h).assert (net.hosts h).capaProcEvt.isNone
  if 0 < host.holdOn then
    some (net.setHost h ({ host with holdOn := host.holdOn - 1 }.scheduleCapaProcEvt now
      σ.tokens.fullPktTranDelay false))
  else
    (search (recvRules σ now (fun s => (net.hosts s).sendFlows) draws) (host.recvFlows.length + 1)
        { state := (net.flows, 999999), queue := host.recvFlows, last := host.recvFlow }).bind
      (net.afterSearch σ now h host)

/-- `CapabilityProcessingEvent::process_event` -/
def capaProcessing (h : HostId) (draws : ℕ → ℕ) : Option CapabilityNet :=
  (net.setHost h { net.hosts h with capaProcEvt := none }).sendCapability σ now h draws

/-! ### The packets that arrive -/

def receiveRts (id : FlowId) : CapabilityNet :=
  (net.setFlow id { (net.flows id).setCapabilityCount σ now id with rtsReceived := true }).setHost
    (σ.dst id) ((net.hosts (σ.dst id)).register σ now id)

def receiveData (id : FlowId) (capaSeq : ℤ) (seq : ℕ) : CapabilityNet :=
  let net := if (net.flows id).rtsReceived then net else net.receiveRts σ now id
  let f := (net.flows id).receiveData σ id capaSeq seq
  let net := net.setFlow id f
  if σ.sizeInPkt id ≤ f.receivedCount then net.sendPackets [.ack id] else net

def receiveCapability (id : FlowId) (link : LinkState) (ttl : Time) (remainingSz capSeqNum : ℤ)
    (dataSeqNum : ℕ) : CapabilityNet :=
  (net.setFlow id ((net.flows id).receiveCapability now ttl remainingSz capSeqNum dataSeqNum))
    |>.wakeSender σ now (σ.src id) link

def receiveAck (id : FlowId) : CapabilityNet :=
  net.setFlow id
    { net.flows id with toTokenFlow := (net.flows id).toTokenFlow.receiveAck .capability }

/-- A `FlowFinishedEvent` of the flow is processed. -/
def finish (id : FlowId) : Option CapabilityNet :=
  (net.flows id).toTokenFlow.finish.map fun r =>
    net.setFlow id { net.flows id with toTokenFlow := r.1 }

end CapabilityNet

inductive CapabilityAct
  | start (now : Time) (id : FlowId) (link : LinkState)
  | send (now : Time) (h : HostId) (link : LinkState) (draws : ℕ → ℕ)
  | sendCapability (now : Time) (h : HostId) (draws : ℕ → ℕ)
  | notify (now : Time) (h : HostId)
  | rts (now : Time) (id : FlowId)
  | data (now : Time) (id : FlowId) (capaSeq : ℤ) (seq : ℕ)
  | capability (now : Time) (id : FlowId) (link : LinkState) (ttl : Time)
      (remainingSz capSeqNum : ℤ) (dataSeqNum : ℕ)
  | ack (id : FlowId)
  | finish (id : FlowId)

namespace CapabilityNet

variable (σ : CapabilitySpec) (net : CapabilityNet)

/-- A packet of a flow that is finished is deleted. -/
def receive (id : FlowId) (handle : CapabilityNet → CapabilityNet) : CapabilityNet :=
  if (net.flows id).finished then net else handle net

/-- A step. A flow is started once. -/
def next : CapabilityAct → Option CapabilityNet
  | .start now id link =>
    if (net.flows id).started then none else some (net.startFlow σ now id link)
  | .send now h link draws => net.hostProcessing σ now h link draws
  | .sendCapability now h draws => net.capaProcessing σ now h draws
  | .notify now h => some (net.senderNotify σ now h)
  | .rts now id => some (net.receive id fun net =>
    if (net.flows id).rtsReceived then net else net.receiveRts σ now id)
  | .data now id capaSeq seq => some (net.receive id (·.receiveData σ now id capaSeq seq))
  | .capability now id link ttl remainingSz capSeqNum dataSeqNum =>
    some (net.receive id (·.receiveCapability σ now id link ttl remainingSz capSeqNum dataSeqNum))
  | .ack id => some (net.receive id (·.receiveAck id))
  | .finish id => net.finish id

def machine : Machine CapabilityNet CapabilityAct := ⟨σ.init, next σ⟩

end CapabilityNet

end DcSim
