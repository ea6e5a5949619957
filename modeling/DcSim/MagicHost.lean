import DcSim.CapabilityHost
import DcSim.EventQueue
import Mathlib.Data.Rat.Floor

/-!
The hosts and flows of `MAGIC_HOST`.

A sender looks at the receivers of its flows and picks one that is free, or that is busy with a
larger flow; it notes at the receiver until when that is busy. The flow sends so many packets, each
when the `HostProcessingEvent` of its host comes, and goes back to the others. A host that finds no
flow asks again at the time the first of them could go. A receiver counts the packets of a flow,
whichever they are, and acknowledges each from the one that completes it on.

The loop of `run_scenario` takes the events in the order of their times, and those of one time in
any order. What the queue of a host does is left open, and the network, which may delay and lose
packets but does not copy them. A step has no next state when an assertion fails, or when the code
reads a field of a host that has not been set.
-/

namespace DcSim

open HeapQueue Runs Word32

structure MagicSpec where
  src : FlowId → HostId
  dst : FlowId → HostId
  sizeInPkt : FlowId → ℕ
  startTime : FlowId → Time
  mss : ℕ
  hdrSize : ℕ
  rate : HostId → ℚ
  reauthLimit : ℚ
  magicTransSlack : ℚ
  magicDelayScheduling : Bool
  magicInflate : Bool
  rate_pos : ∀ h, 0 < rate h
  magicTransSlack_nonneg : 0 ≤ magicTransSlack

structure MagicFlow where
  -- The flows that are known to the main loop have arrived, and those their host was given are
  -- started; the last field is history, the number of its data packets that were delivered.
  arrived : Bool := false
  started : Bool := false
  finished : Bool := false
  addedInflTime : Bool
  nextSeqNo : ℕ := 0
  sendCount : ℕ := 0
  remainingPktThisRound : ℤ := 0
  ackTimeout : Time := 0
  receivedCount : ℕ := 0
  delivered : ℕ := 0

structure MagicHost where
  -- A field that the constructor does not set is `none` until it is set; `host_proc_event` is the
  -- number of the event.
  activeSendingFlows : Array FlowId := #[]
  flowSending : Option FlowId := none
  flowReceiving : Option FlowId := none
  recvBusyUntil : Time := 0
  hostProcEvent : Option ℕ := none
  isHostProcEventATimeout : Option Bool := none

inductive MagicPacket
  | data (flow : FlowId) (seqNo priority : ℕ)
  | ack (flow : FlowId)
  deriving DecidableEq

/-- `HostProcessingEvent`, `MagicHostScheduleEvent`, the `FlowArrivalEvent` that a flow adds itself
and `FlowFinishedEvent`. -/
inductive MagicEvent
  | hostProcessing (h : HostId)
  | schedule (h : HostId)
  | flowArrival (id : FlowId)
  | flowFinished (id : FlowId)
  deriving DecidableEq

structure MagicNet where
  now : Time
  events : EventQueue Time MagicEvent
  flows : FlowId → MagicFlow
  hosts : HostId → MagicHost
  inFlight : List MagicPacket

structure MagicSearch where
  active : Array FlowId
  minFinishTime : Time := 999999
  triedFlows : List FlowId := []
  hasShortFlowToDelay : Bool := false
  found : Option FlowId := none

namespace MagicFlow

def getPropaTime : Time := 26 / 10000000

/-- The time of a packet in `recv_busy_until`. -/
def pktTime : Time := 12 / 10000000

end MagicFlow

namespace MagicNet

variable (σ : MagicSpec) (net : MagicNet)

def modifyFlow (id : FlowId) (g : MagicFlow → MagicFlow) : MagicNet :=
  { net with flows := Function.update net.flows id (g (net.flows id)) }

def modifyHost (h : HostId) (g : MagicHost → MagicHost) : MagicNet :=
  { net with hosts := Function.update net.hosts h (g (net.hosts h)) }

/-- `add_to_event_queue` -/
def addEvent (time : Time) (kind : MagicEvent) : MagicNet :=
  { net with events := net.events.add time kind }

/-- A packet is given to the queue of a host. -/
def sendPacket (p : MagicPacket) : MagicNet := { net with inFlight := net.inFlight ++ [p] }

/-! ### The choice of a flow -/

def remainingPkt (flows : FlowId → MagicFlow) (id : FlowId) : ℕ :=
  (max (toInt32 (σ.sizeInPkt id) - toInt32 (flows id).receivedCount) 0).toNat

/-- `MagicHostFlowComparator` -/
def comparator (flows : FlowId → MagicFlow) (a b : FlowId) : Bool :=
  if remainingPkt σ flows b < remainingPkt σ flows a then true
  else if remainingPkt σ flows a = remainingPkt σ flows b then σ.startTime b < σ.startTime a
  else false

/-- Until when a receiver may be busy with the packets of another flow, for one to be sent now. -/
def busyBy : Time := net.now + MagicFlow.getPropaTime * σ.magicTransSlack

/-- Whether the receiver is free for a flow, or busy with a larger one. -/
def mayReceive (id : FlowId) : Option Bool :=
  let dst := net.hosts (σ.dst id)
  if dst.recvBusyUntil ≤ net.busyBy σ then some true
  else dst.flowReceiving.map fun other => σ.sizeInPkt id < σ.sizeInPkt other

/-- The receiver of a flow is busy. With `magic_delay_scheduling`, a short flow that will soon be
able to go keeps the large ones back, and the loop ends. -/
def postpone (id : FlowId) (s : MagicSearch) : Option (MagicSearch × Bool) :=
  let busy := (net.hosts (σ.dst id)).recvBusyUntil
  let free := busy - MagicFlow.getPropaTime * σ.magicTransSlack
  if busy < s.minFinishTime ∧ free ≤ net.now then none
  else
    let short := σ.sizeInPkt id < 10 ∧
      busy - net.busyBy σ < σ.reauthLimit * MagicFlow.pktTime * (9 / 10)
    let s := { s with
      minFinishTime := if busy < s.minFinishTime then free else s.minFinishTime
      triedFlows := s.triedFlows ++ [id]
      hasShortFlowToDelay := s.hasShortFlowToDelay || (σ.magicDelayScheduling && decide short) }
    some (s, σ.magicDelayScheduling && s.active[0]?.any (10 < σ.sizeInPkt ·) &&
      s.hasShortFlowToDelay)

/-- The loop of `schedule`, for at most so many turns. -/
def search : ℕ → MagicSearch → Option MagicSearch
  | 0, s => some s
  | turns + 1, s =>
    match pop (comparator σ net.flows) s.active with
    | none => some s
    | some (id, rest) =>
      let s := { s with active := rest }
      let f := net.flows id
      if f.finished then search turns s
      else if net.now < f.ackTimeout then
        search turns { s with
          minFinishTime := if f.ackTimeout < s.minFinishTime then f.ackTimeout else s.minFinishTime
          triedFlows := s.triedFlows ++ [id] }
      else (net.mayReceive σ id).bind fun free =>
        if free then some { s with found := some id }
        else (net.postpone σ id s).bind fun r => if r.2 then some r.1 else search turns r.1

/-- The packets a flow may send before its host looks at the others again. -/
def pktToSchd (id : FlowId) : ℕ := max 1 (min ⌊σ.reauthLimit⌋₊ (remainingPkt σ net.flows id))

def give (id : FlowId) : Option MagicNet :=
  if (net.hosts (σ.src id)).flowSending = none then
    let pkts := net.pktToSchd σ id
    some (((net.modifyHost (σ.src id) fun host => { host with flowSending := some id }).modifyHost
      (σ.dst id) fun host => { host with
        flowReceiving := some id
        recvBusyUntil := net.now + MagicFlow.getPropaTime + MagicFlow.pktTime * pkts }).modifyFlow
      id fun f => { f with remainingPktThisRound := pkts })
  else none

/-- The flows that were tried are pushed back, and a host with flows that cannot be scheduled yet
asks again. -/
def pushBack (h : HostId) (s : MagicSearch) : MagicNet :=
  let active := s.triedFlows.foldl (push (comparator σ net.flows)) s.active
  let net := net.modifyHost h fun host => { host with activeSendingFlows := active }
  if s.found = none ∧ active.isEmpty = false ∧ s.minFinishTime < 999999 then
    net.addEvent s.minFinishTime (.schedule h)
  else net

def schedule (h : HostId) : Option MagicNet :=
  if (net.hosts h).flowSending = none then
    let active := (net.hosts h).activeSendingFlows
    (net.search σ active.size { active }).bind fun s =>
      (s.found.elim (some net) (net.give σ)).map fun net => net.pushBack σ h s
  else some net

/-! ### Sending -/

def reschedule (h : HostId) : Option MagicNet :=
  (net.modifyHost h fun host => { host with flowSending := none }).schedule σ h

/-- A finished flow makes room for another one. -/
def leaveFinished (h : HostId) : Option MagicNet :=
  if (net.hosts h).flowSending.any fun id => (net.flows id).finished then net.reschedule σ h
  else some net

/-- A flow that has sent its packets goes back to the others; once it has sent as many as it
has, it waits for the ACK first. -/
def endRound (h : HostId) (id : FlowId) : Option MagicNet :=
  let net := if σ.sizeInPkt id ≤ (net.flows id).sendCount then
      net.modifyFlow id fun f => { f with ackTimeout := net.now + 95 / 10000000 }
    else net
  (net.modifyHost h fun host => { host with
    activeSendingFlows := push (comparator σ net.flows) host.activeSendingFlows id }).reschedule σ h

/-- The second check of `send`. -/
def leaveRound (h : HostId) : Option MagicNet :=
  ((net.hosts h).flowSending.filter fun id => (net.flows id).remainingPktThisRound = 0).elim
    (some net) (net.endRound σ h)

/-- A new `HostProcessingEvent`, which the host points to. -/
def setHostProcEvent (h : HostId) (time : Time) : MagicNet :=
  (net.modifyHost h fun host => { host with hostProcEvent := some net.events.count }).addEvent time
    (.hostProcessing h)

/-- Whether the host has no `HostProcessingEvent`, or one that is a timeout. -/
def procEventFree (h : HostId) : Option Bool :=
  if (net.hosts h).hostProcEvent = none then some true else (net.hosts h).isHostProcEventATimeout

/-- A `HostProcessingEvent` that is cancelled does nothing when it comes. -/
def cancelHostProcEvent (h : HostId) : MagicNet :=
  let taken := (net.hosts h).hostProcEvent.bind net.events.take?
  { net with events := (taken.map (·.2)).getD net.events }

/-- `MagicFlow::send` and the counters of `send_pending_data` -/
def sendSeq (id : FlowId) : MagicNet :=
  let p := .data id (net.flows id).nextSeqNo (if 8 < σ.sizeInPkt id then 2 else 1)
  (net.sendPacket p).modifyFlow id fun f => { f with
    nextSeqNo := add32 f.nextSeqNo σ.mss
    sendCount := f.sendCount + 1
    remainingPktThisRound := f.remainingPktThisRound - 1 }

/-- `MagicFlow::send_pending_data` of a flow of this host -/
def sendPendingData (h : HostId) (id : FlowId) : Option MagicNet :=
  if 0 < (net.flows id).remainingPktThisRound then
    (net.procEventFree h).map fun free =>
      if free then ((net.sendSeq σ id).cancelHostProcEvent h).setHostProcEvent h
        (net.now + add32 σ.mss σ.hdrSize * 8 / σ.rate h)
      else net.sendSeq σ id
  else none

def setNoTimeout (h : HostId) : MagicNet :=
  net.modifyHost h fun host => { host with isHostProcEventATimeout := some false }

/-- What `send` does once the flow to send is known. -/
def useLink (h : HostId) (link : LinkState) : Option MagicNet :=
  match link.busyUntil with
  | some time =>
    some (if (net.hosts h).hostProcEvent = none then
        (net.setHostProcEvent h
          (time + link.bytesInQueue * 8 / σ.rate h + infinitesimalTime)).setNoTimeout h
      else net)
  | none => (net.hosts h).flowSending.elim (some net) fun id =>
      (net.sendPendingData σ h id).map (·.setNoTimeout h)

def send (h : HostId) (link : LinkState) : Option MagicNet :=
  ((net.leaveFinished σ h).bind (·.leaveRound σ h)).bind (·.useLink σ h link)

def trySend (h : HostId) (link : LinkState) : Option MagicNet :=
  (net.procEventFree h).bind fun free => if free then net.send σ h link else some net

def start (id : FlowId) (link : LinkState) : Option MagicNet :=
  let h := σ.src id
  let net := (net.modifyFlow id fun f => { f with started := true }).modifyHost h fun host =>
    { host with
      activeSendingFlows := push (comparator σ net.flows) host.activeSendingFlows id }
  (net.schedule σ h).bind (·.trySend σ h link)

/-- `MagicFlow::start_flow`, of a `FlowArrivalEvent`: with `magic_inflate`, a flow arrives twice. -/
def startFlow (id : FlowId) (link : LinkState) : Option MagicNet :=
  if (net.flows id).addedInflTime then net.start σ id link
  else some ((net.addEvent (net.now + 16 / 10000000) (.flowArrival id)).modifyFlow id fun f =>
    { f with addedInflTime := true })

def processEvent (link : LinkState) : MagicEvent → Option MagicNet
  | .hostProcessing h =>
    (net.modifyHost h fun host => { host with hostProcEvent := none }).send σ h link
  | .schedule h => (net.schedule σ h).bind (·.trySend σ h link)
  | .flowArrival id => net.startFlow σ id link
  | .flowFinished id => some (net.modifyFlow id fun f => { f with finished := true })

/-! ### The packets that arrive -/

/-- `MagicFlow::receive`, of a data packet -/
def receiveData (id : FlowId) : MagicNet :=
  if (net.flows id).finished then net
  else
    let net := net.modifyFlow id fun f => { f with receivedCount := add32 f.receivedCount 1 }
    if σ.sizeInPkt id ≤ (net.flows id).receivedCount then net.sendPacket (.ack id) else net

/-- `MagicFlow::receive`, of an ACK -/
def receiveAck (id : FlowId) : MagicNet :=
  if (net.flows id).finished then net
  else (net.modifyFlow id fun f => { f with finished := true }).addEvent net.now (.flowFinished id)

/-- A packet arrives, and is counted. -/
def receive : MagicPacket → MagicNet
  | .data id _ _ =>
    (net.receiveData σ id).modifyFlow id fun f => { f with delivered := f.delivered + 1 }
  | .ack id => net.receiveAck id

end MagicNet

/-- What can happen: the main loop starts a flow, takes an event that the flows and hosts have
added, or a packet arrives or is lost. -/
inductive MagicAct
  | arrive (now : Time) (id : FlowId) (link : LinkState)
  | event (id : ℕ) (link : LinkState)
  | deliver (now : Time) (p : MagicPacket)
  | lose (p : MagicPacket)

namespace MagicNet

variable (σ : MagicSpec) (net : MagicNet)

def init : MagicNet where
  now := 0
  events := .empty
  flows _ := { addedInflTime := !σ.magicInflate }
  hosts _ := {}
  inFlight := []

def Next (time : Time) : Prop := net.now ≤ time ∧ net.events.NoneBefore time

/-- The queue of a host is busy until a time that is to come. -/
def LinkAt (time : Time) (link : LinkState) : Prop := ∀ busy ∈ link.busyUntil, time ≤ busy

/-- Whether something can happen now. -/
def Enabled : MagicAct → Prop
  | .arrive now id link => (net.flows id).arrived = false ∧ net.Next now ∧ LinkAt now link
  | .event id link => ∃ r ∈ net.events.take? id, net.Next r.1.time ∧ LinkAt r.1.time link
  | .deliver now p => p ∈ net.inFlight ∧ net.Next now
  | .lose p => p ∈ net.inFlight

instance (time : Time) : Decidable (net.Next time) := inferInstanceAs (Decidable (_ ∧ _))

instance (time : Time) (link : LinkState) : Decidable (LinkAt time link) :=
  inferInstanceAs (Decidable (∀ busy ∈ link.busyUntil, _))

instance (a : MagicAct) : Decidable (net.Enabled a) := by
  cases a <;> unfold Enabled <;> infer_instance

def step : MagicAct → Option MagicNet
  | .arrive now id link =>
    ({ net with now := now }.modifyFlow id fun f => { f with arrived := true }).startFlow σ id link
  | .event id link => (net.events.take? id).bind fun r =>
    { net with now := r.1.time, events := r.2 }.processEvent σ link r.1.kind
  | .deliver now p => some ({ net with now := now, inFlight := net.inFlight.erase p }.receive σ p)
  | .lose p => some { net with inFlight := net.inFlight.erase p }

def machine : Machine MagicNet MagicAct :=
  ⟨init σ, fun net a => if net.Enabled a then net.step σ a else none⟩

end MagicNet

end DcSim
