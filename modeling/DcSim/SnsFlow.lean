import DcSim.SnsWindow
import DcSim.Word32
import Mathlib.Data.List.Sort
import Mathlib.Data.Finset.Card

/-!
The flow class of the SNS protocol.

One object is both ends of a flow: `sendPendingData` runs at the source host, and `receive`
at the host a packet has reached. What a call does outside the object, on its two hosts and
on the event queue, is returned as a list of calls in the order the code makes them.

Left out are the fields that are only printed (counters, rolling averages, queueing times)
and the path history, which `start_flow` switches off, so that a SIM leaves with the port
pair `(0, 0)`.
-/

namespace DcSim

open Word32

structure SnsSpec where
  -- After the ends comes what `get_worst_rtt` reads.
  params : SnsParams
  id : FlowId
  startTime : Time
  size : ℕ
  src : HostId
  dst : HostId
  collectiveId : ℕ
  driftSample : ℚ
  sameRack : Bool
  propagationDelay : ℚ
  rate : ℚ
  size_pos : 0 < size
  size_lt : size < 4294967296

def SnsFatTreeTopology.getWorstRtt (P : SnsParams) (clockDriftFactor : ℚ) : Time :=
  let numHops := 6
  let alpha := (P.mss : ℚ) / P.hdrSize
  let queueingTerm := (2 * numHops * P.hdrSize * 8 / P.bandwidth) *
    ((P.simulationQueueSize + 1) * alpha + 21 / 10 * P.simulationQueueSize + 1)
  (P.rtt + queueingTerm) / (1 + clockDriftFactor / 1000000) * P.worstRrtFactor

def SnsLeafSpineTopology.getWorstRtt (P : SnsParams) (sameRack : Bool)
    (propagationDelay rate : ℚ) : Time :=
  let numHops := if sameRack then 2 else 4
  let bandwidth := rate / 1000000
  2 * 1000000 * numHops * propagationDelay +
    add32 P.mss P.hdrSize * 8 / bandwidth * numHops * P.simulationQueueSize

namespace SnsSpec

variable (σ : SnsSpec)

/-- `size_in_pkt`, which is also the size of the window. -/
def sizeInPkt : ℕ := (σ.size + σ.params.mss - 1) / σ.params.mss

/-- The factor the constructor of the source host sets. -/
def clockDriftFactor : ℚ := if 0 < σ.params.clockDrift then σ.driftSample else 1

/-- `get_worst_rtt` of the topology in use. -/
def worstRtt : Time :=
  if σ.params.fatTree then SnsFatTreeTopology.getWorstRtt σ.params σ.clockDriftFactor
  else SnsLeafSpineTopology.getWorstRtt σ.params σ.sameRack σ.propagationDelay σ.rate

lemma size_le : σ.size ≤ σ.sizeInPkt * σ.params.mss := by
  have hm := σ.params.mss_pos
  have := Nat.lt_div_mul_add (a := σ.size + σ.params.mss - 1) hm
  unfold sizeInPkt; omega

lemma sizeInPkt_mul_lt : σ.sizeInPkt * σ.params.mss < σ.size + σ.params.mss := by
  have hm := σ.params.mss_pos
  have := Nat.div_mul_le_self (σ.size + σ.params.mss - 1) σ.params.mss
  have := σ.size_pos
  unfold sizeInPkt; omega

lemma sizeInPkt_pos : 0 < σ.sizeInPkt := by
  have h := σ.size_le
  have := σ.size_pos
  by_contra h0
  obtain h0 : σ.sizeInPkt = 0 := by omega
  rw [h0] at h; omega

end SnsSpec

/-- A small experiment: `m` DATA packets for each SIM_ACK, and a round trip of ten
microseconds. -/
def exampleParams (m : ℕ) : SnsParams where
  mss := 1460
  hdrSize := 40
  bandwidth := 100000000000
  rtt := 1 / 100000
  fatTree := true
  numDataPacketsPerSimAck := m
  syncedMode := true
  snsSimulationFrqSize := 20
  simulationQueueSize := 8
  clockDrift := 0
  worstRrtFactor := 1
  mss_pos := Word32.mss_1460_pos
  mss_lt := Word32.mss_1460_lt
  hdrSize_lt := Word32.hdrSize_40_lt

/-- The flow of a size from host 0 to host 1. -/
def exampleSpec (size m : ℕ) (h : 0 < size ∧ size < 4294967296) : SnsSpec where
  params := exampleParams m
  id := 0
  startTime := 1
  size := size
  src := 0
  dst := 1
  collectiveId := 0
  driftSample := 0
  sameRack := false
  propagationDelay := 1 / 5000000
  rate := 100000000000
  size_pos := h.1
  size_lt := h.2

/-- A flow of one segment, and one DATA packet for each SIM_ACK. -/
def oneSegment : SnsSpec := exampleSpec 100 1 (by decide)

/-- The constructor of `SnsPacket`: a SIM and a SIM_ACK are header only. -/
def snsPacket (P : SnsParams) (type : SnsType) (sendingTime : Time) (flow : FlowId)
    (seqNo pfPriority size : ℕ) (src dst : HostId) (savedHashPort : ℤ) (msgId : ℕ) : Packet where
  type := if type = .simAck then .ack else .normal
  snsType := type
  sendingTime := sendingTime
  flow := flow
  seqNo := seqNo
  pfPriority := pfPriority
  size := if type = .sim ∨ type = .simAck then P.hdrSize else size
  src := src
  dst := dst
  savedHashPort := savedHashPort
  snsMsgId := msgId

/-- What a flow does to its hosts and the event queue. -/
inductive HostCall
  /-- `sims_to_be_sent.push_back` -/
  | pushSim (h : HostId) (p : Packet)
  /-- `packets_to_be_sent.push_back` -/
  | pushPacket (h : HostId) (p : Packet)
  /-- If `host_proc_sns_send_packet_event` is `NULL`, a new `SnsSendPacketProcessingEvent`. -/
  | sendPacketEvt (h : HostId) (time : Time)
  /-- A new `SnsAddToPktToBeSentEvt`. -/
  | addToPktToBeSent (h : HostId) (time : Time) (p : Packet)
  /-- A new `SnsSimulationHostProcessingEvent`, as many SIMs later as the host has waiting. -/
  | simHostProc (h : HostId) (time : Time)
  /-- A new `HostProcessingEvent`. -/
  | hostProc (h : HostId) (time : Time)
  /-- A new `FlowFinishedEvent`. -/
  | flowFinished (time : Time)

structure SnsFlow (N : ℕ) where
  -- The last three fields are history: the ids that `received` has taken in (it is cleared at the
  -- end), every index `sim_window` was used with, and when each SIM was made.
  simWindow : Window N
  msgId : ℕ
  stopSendingSim : Bool
  finished : Bool
  finishTime : Time
  flowCompletionTime : Time
  received : Finset ℕ
  receivedBytes : ℕ
  ackedMsgIds : List ℕ
  simIdsSent : List ℕ
  simAckIdsSent : List ℕ
  dataIdsSent : List ℕ
  dataIdsRecived : List ℕ
  currentAvgRtt : Time
  flowRtt : Time
  snsSimPktDrop : ℕ
  accepted : Finset ℕ
  touched : List ℤ
  simTimes : List Time

namespace SnsFlow

def new (σ : SnsSpec) : SnsFlow σ.sizeInPkt where
  simWindow := fun _ => .free
  msgId := 0
  stopSendingSim := false
  finished := false
  finishTime := 0
  flowCompletionTime := 0
  received := ∅
  receivedBytes := 0
  ackedMsgIds := []
  simIdsSent := []
  simAckIdsSent := []
  dataIdsSent := []
  dataIdsRecived := []
  currentAvgRtt := σ.params.rtt
  flowRtt := σ.params.rtt
  snsSimPktDrop := 0
  accepted := ∅
  touched := []
  simTimes := []

section Window

variable {N : ℕ} (f : SnsFlow N)

/-- A loop over the whole window. -/
def scan : SnsFlow N :=
  { f with touched := f.touched ++ (List.finRange N).map fun i : Fin N => ((i : ℕ) : ℤ) }

/-- A read of `sim_window[i]`. -/
def touch (i : ℤ) : SnsFlow N := { f with touched := f.touched ++ [i] }

/-- A write to `sim_window[i]`. -/
def modifySlot (i : ℤ) (g : WindowMsgElement → WindowMsgElement) : SnsFlow N :=
  { f with simWindow := f.simWindow.modify i g, touched := f.touched ++ [i] }

def timeToWait : Time := min (f.currentAvgRtt * (3 / 2)) (10 * f.flowRtt)

def dropSimIfTimeoutPass (now : Time) : SnsFlow N :=
  { f.scan with
    simWindow := f.simWindow.dropExpired now f.timeToWait
    snsSimPktDrop := f.snsSimPktDrop +
      (Finset.univ.filter fun i => Window.Expired now f.timeToWait (f.simWindow i)).card }

def getFreeSlotInWindow (now : Time) : ℤ × SnsFlow N :=
  let f := f.scan
  let i := f.simWindow.firstSlot (·.status = .init)
  if i ≠ -1 then (i, f)
  else if ∀ j, (f.simWindow j).status = .dataAckReceived then
    (-2, { f with stopSendingSim := true })
  else
    let f := f.dropSimIfTimeoutPass now
    (f.simWindow.firstSlot (·.status = .init), f.scan)

def getSlotById (id : ℤ) : ℤ := f.simWindow.firstSlot (·.id = id)

end Window

variable (σ : SnsSpec) (f : SnsFlow σ.sizeInPkt)

def checkAndSetToFinished (now : Time) : SnsFlow σ.sizeInPkt × List HostCall :=
  if f.finished = false ∧ sub32 σ.size 1 ≤ f.receivedBytes then
    ({ f with
        finished := true
        stopSendingSim := true
        received := ∅
        finishTime := now
        flowCompletionTime := now - σ.startTime }, [.flowFinished now])
  else (f, [])

/-- The SIM of message `msg_id`. -/
def simPacket (now : Time) : Packet :=
  { snsPacket σ.params .sim now σ.id 0 0 σ.params.hdrSize σ.src σ.dst (-1) f.msgId with
    savedHashPort := 0
    savedHashPortL2 := 0 }

def sendSimulation (now : Time) : SnsFlow σ.sizeInPkt × List HostCall :=
  let (freeSlot, f) := f.getFreeSlotInWindow now
  if f.stopSendingSim then (f, [])
  else if freeSlot ≠ -1 then
    let p := f.simPacket σ now
    let f := f.modifySlot freeSlot fun _ => ⟨now, f.msgId, .simSent⟩
    ({ f with
        simIdsSent := f.simIdsSent.orderedInsert (· ≤ ·) f.msgId
        msgId := f.msgId + 1
        simTimes := f.simTimes ++ [now] },
      [.pushSim σ.src p, .simHostProc σ.src now])
  else (f, [.simHostProc σ.src now])

def collectivePacket (now : Time) (seqNo msgId : ℕ) : Packet :=
  snsPacket σ.params .data now σ.id seqNo 0 (add32 σ.params.mss σ.params.hdrSize)
    σ.src σ.dst (-1) msgId

/-- `send_pending_data`. A collective flow sends data without probing; its message ids come
from a counter shared by all flows, so the two reads of it are given from outside. -/
def sendPendingData (now : Time) (seqNo collectiveMsgId : ℕ) :
    SnsFlow σ.sizeInPkt × List HostCall :=
  let (f, calls) := f.checkAndSetToFinished σ now
  let (f, calls') :=
    if σ.collectiveId = 99 then
      (f, [.addToPktToBeSent σ.src now (collectivePacket σ now seqNo collectiveMsgId)])
    else f.sendSimulation σ now
  (f, calls ++ calls' ++ [.hostProc σ.src
    (now + σ.params.tdSim * σ.params.numDataPacketsPerSimAck + infinitesimalTime)])

def simAckPacket (now : Time) (p : Packet) : Packet :=
  { snsPacket σ.params .simAck now σ.id p.seqNo 0 (add32 σ.params.mss σ.params.hdrSize)
      σ.dst σ.src p.savedHashPort p.snsMsgId with savedHashPortL2 := p.savedHashPortL2 }

/-- `receive` of a SIM, at the destination. -/
def receiveSim (now : Time) (p : Packet) : SnsFlow σ.sizeInPkt × List HostCall :=
  ({ f with simAckIdsSent := f.simAckIdsSent.orderedInsert (· ≤ ·) p.snsMsgId },
    [.pushPacket σ.dst (simAckPacket σ now p), .sendPacketEvt σ.dst now])

/-- The `i`-th DATA packet a SIM_ACK lets go. -/
def dataPacket (time : Time) (p : Packet) (i : ℕ) : Packet :=
  { snsPacket σ.params .data time σ.id (p.seqNo + i) 0 (add32 σ.params.mss σ.params.hdrSize)
      σ.src σ.dst p.savedHashPort p.snsMsgId with savedHashPortL2 := p.savedHashPortL2 }

/-- When the data of a SIM_ACK is to be sent; `slot` is where its SIM was sent from. -/
def timeToBeSent (now : Time) (slot : ℤ) : Time :=
  let time := if slot ≠ -1 then (f.simWindow.get slot).time + σ.worstRtt else now
  let time := if time < now then now else time
  if σ.params.syncedMode then time else now

/-- `receive` of a SIM_ACK, at the source. The slot is read, and its time written, also when
`get_slot_by_id` has found none. -/
def receiveSimAck (now : Time) (p : Packet) : SnsFlow σ.sizeInPkt × List HostCall :=
  let slot := f.getSlotById p.snsMsgId
  let time := f.timeToBeSent σ now slot
  let f := f.scan
  let f := if slot ≠ -1 then
      { f.touch slot with
        currentAvgRtt := 7 / 8 * f.currentAvgRtt + 1 / 8 * (now - (f.simWindow.get slot).time) }
    else f
  let f := if slot ≠ -1 then
      (f.touch slot).modifySlot slot fun e => { e with status := .simAckReceived }
    else f
  let f := (f.touch slot).modifySlot slot fun e => { e with time := time }
  ({ f with dataIdsSent := f.dataIdsSent.orderedInsert (· ≤ ·) p.snsMsgId },
    (List.range σ.params.numDataPacketsPerSimAck).map (fun i =>
        .addToPktToBeSent σ.src (time + i * (1 / 1000000000)) (dataPacket σ time p i)) ++
      [.sendPacketEvt σ.src now])

/-- One id of a DATA_ACK: the window is indexed by it. -/
def markAcked {N : ℕ} (f : SnsFlow N) (slotId : ℕ) : SnsFlow N :=
  if N ≤ slotId then f
  else if slotId ∈ f.ackedMsgIds then f
  else
    { f.modifySlot slotId fun e => { e with status := .dataAckReceived } with
      ackedMsgIds := f.ackedMsgIds.orderedInsert (· ≤ ·) slotId }

/-- `receive` of a DATA_ACK, at the source. -/
def receiveDataAck {N : ℕ} (f : SnsFlow N) (p : Packet) : SnsFlow N :=
  p.snsAckDataIds.foldl markAcked f

/-- The DATA_ACK, which names every message id received so far. -/
def dataAckPacket (now : Time) : Packet :=
  { snsPacket σ.params .dataAck now σ.id 0 0 σ.params.hdrSize σ.dst σ.src (-1) 0 with
    snsAckDataIds := f.dataIdsRecived }

def sendDataAck (now : Time) : List HostCall :=
  [.pushPacket σ.dst (f.dataAckPacket σ now)]

/-- The bytes of a packet are counted if its message id is new. -/
def acceptData (p : Packet) : SnsFlow σ.sizeInPkt :=
  if p.snsMsgId ∈ f.received then f
  else
    { f with
      received := insert p.snsMsgId f.received
      receivedBytes := add32 f.receivedBytes (sub32 p.size σ.params.hdrSize)
      accepted := insert p.snsMsgId f.accepted }

/-- `receive` of a DATA packet, at the destination: every sixteenth one is acknowledged. -/
def receiveData (now : Time) (p : Packet) : SnsFlow σ.sizeInPkt × List HostCall :=
  let f := { f with dataIdsRecived := f.dataIdsRecived.orderedInsert (· ≤ ·) p.snsMsgId }
  if f.finished then (f, [])
  else
    let calls := if f.dataIdsRecived.length % 16 = 0 then f.sendDataAck σ now else []
    let (f, calls') := (f.acceptData σ p).checkAndSetToFinished σ now
    (f, calls ++ calls')

def receive (now : Time) (p : Packet) : SnsFlow σ.sizeInPkt × List HostCall :=
  let (f, calls) := f.checkAndSetToFinished σ now
  let (f, calls') :=
    match p.snsType with
    | .sim => f.receiveSim σ now p
    | .simAck => f.receiveSimAck σ now p
    | .dataAck => (f.receiveDataAck p, [])
    | _ => f.receiveData σ now p
  (f, calls ++ calls')

/-! ### One call at a time -/

lemma check_cases (now : Time) :
    (f.finished = true ∧ f.checkAndSetToFinished σ now = (f, [])) ∨
    (f.finished = false ∧ f.receivedBytes < sub32 σ.size 1 ∧
      f.checkAndSetToFinished σ now = (f, [])) ∨
    (f.finished = false ∧ sub32 σ.size 1 ≤ f.receivedBytes ∧
      f.checkAndSetToFinished σ now =
        ({ f with
            finished := true
            stopSendingSim := true
            received := ∅
            finishTime := now
            flowCompletionTime := now - σ.startTime }, [.flowFinished now])) := by
  unfold checkAndSetToFinished
  cases hf : f.finished <;> by_cases hb : sub32 σ.size 1 ≤ f.receivedBytes <;> simp [hb]
  omega

section Check

variable (now : Time)

@[simp] lemma check_simWindow : (f.checkAndSetToFinished σ now).1.simWindow = f.simWindow := by
  unfold checkAndSetToFinished; split_ifs <;> rfl

@[simp] lemma check_msgId : (f.checkAndSetToFinished σ now).1.msgId = f.msgId := by
  unfold checkAndSetToFinished; split_ifs <;> rfl

@[simp] lemma check_touched : (f.checkAndSetToFinished σ now).1.touched = f.touched := by
  unfold checkAndSetToFinished; split_ifs <;> rfl

@[simp] lemma check_ackedMsgIds :
    (f.checkAndSetToFinished σ now).1.ackedMsgIds = f.ackedMsgIds := by
  unfold checkAndSetToFinished; split_ifs <;> rfl

@[simp] lemma check_accepted : (f.checkAndSetToFinished σ now).1.accepted = f.accepted := by
  unfold checkAndSetToFinished; split_ifs <;> rfl

@[simp] lemma check_receivedBytes :
    (f.checkAndSetToFinished σ now).1.receivedBytes = f.receivedBytes := by
  unfold checkAndSetToFinished; split_ifs <;> rfl

variable (p : Packet)

@[simp] lemma acceptData_finished : (f.acceptData σ p).finished = f.finished := by
  unfold acceptData; split_ifs <;> rfl

@[simp] lemma acceptData_dataIdsRecived :
    (f.acceptData σ p).dataIdsRecived = f.dataIdsRecived := by
  unfold acceptData; split_ifs <;> rfl

end Check

lemma getFreeSlotInWindow_cases {N : ℕ} (f : SnsFlow N) (now : Time) :
    (∃ i : Fin N, (f.simWindow i).status = .init ∧ (∀ j < i, (f.simWindow j).status ≠ .init) ∧
      f.getFreeSlotInWindow now = (((i : ℕ) : ℤ), f.scan)) ∨
    ((∀ i, (f.simWindow i).status = .dataAckReceived) ∧
      f.getFreeSlotInWindow now = (-2, { f.scan with stopSendingSim := true })) ∨
    ((∀ i, (f.simWindow i).status ≠ .init) ∧
      (f.getFreeSlotInWindow now).2 = (f.scan.dropSimIfTimeoutPass now).scan ∧
      ((∃ i : Fin N,
          (f.simWindow.dropExpired now f.timeToWait i).status = .init ∧
          (f.getFreeSlotInWindow now).1 = (i : ℕ)) ∨
        (f.getFreeSlotInWindow now).1 = -1)) := by
  unfold getFreeSlotInWindow
  rcases Window.firstSlot_cases (w := f.scan.simWindow) (·.status = .init) with
    ⟨i, hi, hfree, hmin⟩ | ⟨hi, hnone⟩
  · exact .inl ⟨i, hfree, hmin, by simp only [hi]; rw [if_pos (by omega)]⟩
  · refine .inr ?_
    simp only [hi, ne_eq, not_true_eq_false, if_false]
    by_cases hall : ∀ j, (f.scan.simWindow j).status = .dataAckReceived
    · exact .inl ⟨hall, if_pos hall⟩
    · refine .inr ⟨hnone, ?_⟩
      rw [if_neg hall]
      refine ⟨rfl, ?_⟩
      rcases Window.firstSlot_cases (w := (f.scan.dropSimIfTimeoutPass now).simWindow)
        (·.status = .init) with ⟨i, hi, hfree, -⟩ | ⟨hi, -⟩
      · exact .inl ⟨i, hfree, hi⟩
      · exact .inr hi

lemma getFreeSlotInWindow_frame {N : ℕ} (f : SnsFlow N) (now : Time) :
    ∃ w b n l, (f.getFreeSlotInWindow now).2 =
        { f with simWindow := w, stopSendingSim := b, snsSimPktDrop := n, touched := l } ∧
      (w = f.simWindow ∨
        w = f.simWindow.dropExpired now f.timeToWait ∧ ∀ i, (f.simWindow i).status ≠ .init) ∧
      (b = f.stopSendingSim ∨ b = true ∧ ∀ i, (f.simWindow i).status = .dataAckReceived) ∧
      ∀ x ∈ l, x ∈ f.touched ∨ 0 ≤ x ∧ x < N := by
  have hscan : ∀ (l : List ℤ) x, x ∈ l ++ (List.finRange N).map (fun i : Fin N => ((i : ℕ) : ℤ)) →
      x ∈ l ∨ 0 ≤ x ∧ x < N := by
    intro l x hx
    rcases List.mem_append.mp hx with hx | hx
    · exact .inl hx
    · obtain ⟨i, -, rfl⟩ := List.mem_map.mp hx
      have := i.isLt
      exact .inr (by omega)
  rcases f.getFreeSlotInWindow_cases now with ⟨i, -, -, h⟩ | ⟨hall, h⟩ | ⟨hnone, h, -⟩
  · rw [h]
    exact ⟨_, _, _, _, rfl, .inl rfl, .inl rfl, hscan _⟩
  · rw [h]
    exact ⟨_, _, _, _, rfl, .inl rfl, .inr ⟨rfl, hall⟩, hscan _⟩
  · rw [h]
    refine ⟨_, _, _, _, rfl, .inr ⟨rfl, hnone⟩, .inl rfl, fun x hx => ?_⟩
    -- two scans: the one that found no slot to be free, and the one after the timeouts
    rcases hscan _ x hx with hx | hx
    · rcases hscan _ x hx with hx | hx
      · exact hscan _ x hx
      · exact .inr hx
    · exact .inr hx

lemma sendSimulation_cases (now : Time) :
    ((f.getFreeSlotInWindow now).2.stopSendingSim = true ∧
      f.sendSimulation σ now = ((f.getFreeSlotInWindow now).2, [])) ∨
    (∃ i : Fin σ.sizeInPkt, (f.getFreeSlotInWindow now).2.stopSendingSim = false ∧
      (f.getFreeSlotInWindow now).1 = (i : ℕ) ∧
      ((f.getFreeSlotInWindow now).2.simWindow i).status = .init ∧
      f.sendSimulation σ now =
        ({ (f.getFreeSlotInWindow now).2.modifySlot (i : ℕ) fun _ => ⟨now, f.msgId, .simSent⟩ with
            simIdsSent := f.simIdsSent.orderedInsert (· ≤ ·) f.msgId
            msgId := f.msgId + 1
            simTimes := f.simTimes ++ [now] },
          [.pushSim σ.src (f.simPacket σ now), .simHostProc σ.src now])) ∨
    ((f.getFreeSlotInWindow now).2.stopSendingSim = false ∧
      (f.getFreeSlotInWindow now).1 = -1 ∧
      f.sendSimulation σ now = ((f.getFreeSlotInWindow now).2, [.simHostProc σ.src now])) := by
  have hslot : (f.getFreeSlotInWindow now).2.stopSendingSim = true ∨
      (∃ i : Fin σ.sizeInPkt, (f.getFreeSlotInWindow now).1 = (i : ℕ) ∧
        ((f.getFreeSlotInWindow now).2.simWindow i).status = .init) ∨
      (f.getFreeSlotInWindow now).1 = -1 := by
    rcases f.getFreeSlotInWindow_cases now with
      ⟨i, hi, -, h⟩ | ⟨-, h⟩ | ⟨-, h, ⟨i, hi, h1⟩ | h1⟩
    · exact .inr (.inl ⟨i, by rw [h], by rw [h]; exact hi⟩)
    · exact .inl (by rw [h])
    · exact .inr (.inl ⟨i, h1, by rw [h]; exact hi⟩)
    · exact .inr (.inr h1)
  obtain ⟨w, b, n, l, hg, -⟩ := f.getFreeSlotInWindow_frame now
  unfold sendSimulation
  revert hslot hg
  generalize f.getFreeSlotInWindow now = r
  obtain ⟨i, g⟩ := r
  rintro hslot rfl
  cases b with
  | true => exact .inl ⟨rfl, if_pos rfl⟩
  | false =>
    rcases hslot with h | ⟨i, rfl, hi⟩ | rfl
    · cases h
    · refine .inr (.inl ⟨i, rfl, rfl, hi, ?_⟩)
      exact (if_neg Bool.false_ne_true).trans (if_pos (by omega))
    · exact .inr (.inr ⟨rfl, rfl, rfl⟩)

lemma getSlotById_cases {N : ℕ} (f : SnsFlow N) (id : ℤ) :
    (∃ i : Fin N, f.getSlotById id = (i : ℕ) ∧ (f.simWindow i).id = id) ∨
    (f.getSlotById id = -1 ∧ ∀ i, (f.simWindow i).id ≠ id) := by
  rcases Window.firstSlot_cases (w := f.simWindow) (·.id = id) with ⟨i, hi, hid, -⟩ | h
  · exact .inl ⟨i, hi, hid⟩
  · exact .inr h

lemma receiveSimAck_cases (now : Time) (p : Packet) :
    (∃ i : Fin σ.sizeInPkt, f.getSlotById p.snsMsgId = (i : ℕ) ∧
      (f.simWindow i).id = p.snsMsgId ∧
      (f.receiveSimAck σ now p).1 =
        { f.scan with
          simWindow := Function.update f.simWindow i
            ⟨f.timeToBeSent σ now (i : ℕ), (f.simWindow i).id, .simAckReceived⟩
          currentAvgRtt := 7 / 8 * f.currentAvgRtt + 1 / 8 * (now - (f.simWindow i).time)
          touched := f.scan.touched ++ List.replicate 5 ((i : ℕ) : ℤ)
          dataIdsSent := f.dataIdsSent.orderedInsert (· ≤ ·) p.snsMsgId }) ∨
    (f.getSlotById p.snsMsgId = -1 ∧ (∀ i, (f.simWindow i).id ≠ p.snsMsgId) ∧
      (f.receiveSimAck σ now p).1 =
        { f.scan with
          touched := f.scan.touched ++ List.replicate 2 (-1)
          dataIdsSent := f.dataIdsSent.orderedInsert (· ≤ ·) p.snsMsgId }) := by
  rcases f.getSlotById_cases p.snsMsgId with ⟨i, hi, hid⟩ | ⟨hi, hid⟩
  · refine .inl ⟨i, hi, hid, ?_⟩
    have hne : ((i : ℕ) : ℤ) ≠ -1 := by omega
    simp [receiveSimAck, hi, hne, scan, touch, modifySlot, List.replicate]
  · refine .inr ⟨hi, hid, ?_⟩
    simp [receiveSimAck, hi, scan, touch, modifySlot, List.replicate]

lemma markAcked_cases {N : ℕ} (f : SnsFlow N) (id : ℕ) :
    ((N ≤ id ∨ id ∈ f.ackedMsgIds) ∧ f.markAcked id = f) ∨
    ∃ i : Fin N, (i : ℕ) = id ∧ id ∉ f.ackedMsgIds ∧ f.markAcked id =
      { f with
        simWindow := Function.update f.simWindow i
          { f.simWindow i with status := .dataAckReceived }
        touched := f.touched ++ [(id : ℤ)]
        ackedMsgIds := f.ackedMsgIds.orderedInsert (· ≤ ·) id } := by
  unfold markAcked
  split_ifs with hN hacked
  · exact .inl ⟨.inl hN, rfl⟩
  · exact .inl ⟨.inr hacked, rfl⟩
  · refine .inr ⟨⟨id, not_le.mp hN⟩, rfl, hacked, ?_⟩
    have hw := Window.modify_val (w := f.simWindow) ⟨id, not_le.mp hN⟩
      fun e => { e with status := .dataAckReceived }
    simp only [modifySlot]
    rw [hw]

lemma receiveDataAck_frame {N : ℕ} (f : SnsFlow N) (p : Packet) :
    ∃ w l a, f.receiveDataAck p = { f with simWindow := w, touched := l, ackedMsgIds := a } := by
  unfold receiveDataAck
  generalize p.snsAckDataIds = ids
  induction ids generalizing f with
  | nil => exact ⟨_, _, _, rfl⟩
  | cons id ids ih =>
    obtain ⟨w, l, a, h⟩ := ih (f.markAcked id)
    refine ⟨w, l, a, h.trans ?_⟩
    unfold markAcked
    split_ifs <;> rfl

lemma receiveData_cases (now : Time) (p : Packet) :
    (f.finished = true ∧ (f.receiveData σ now p).1 =
      { f with dataIdsRecived := f.dataIdsRecived.orderedInsert (· ≤ ·) p.snsMsgId }) ∨
    (f.finished = false ∧ (f.receiveData σ now p).1 =
      (acceptData σ { f with
        dataIdsRecived := f.dataIdsRecived.orderedInsert (· ≤ ·) p.snsMsgId } p
        |>.checkAndSetToFinished σ now).1) := by
  unfold receiveData
  cases hf : f.finished with
  | true => exact .inl ⟨rfl, rfl⟩
  | false => exact .inr ⟨rfl, rfl⟩

lemma receiveData_frame (now : Time) (p : Packet) :
    ∃ d r b a fin stop ft fct, (f.receiveData σ now p).1 =
      { f with
        dataIdsRecived := d
        received := r
        receivedBytes := b
        accepted := a
        finished := fin
        stopSendingSim := stop
        finishTime := ft
        flowCompletionTime := fct } := by
  have hcheck (g : SnsFlow σ.sizeInPkt) : ∃ r fin stop ft fct,
      (g.checkAndSetToFinished σ now).1 = { g with
        received := r
        finished := fin
        stopSendingSim := stop
        finishTime := ft
        flowCompletionTime := fct } := by
    rcases g.check_cases σ now with ⟨-, hr⟩ | ⟨-, -, hr⟩ | ⟨-, -, hr⟩ <;> rw [hr] <;>
      exact ⟨_, _, _, _, _, rfl⟩
  rcases f.receiveData_cases σ now p with ⟨-, hr⟩ | ⟨-, hr⟩ <;> rw [hr]
  · exact ⟨_, _, _, _, _, _, _, _, rfl⟩
  · obtain ⟨r, fin, stop, ft, fct, hr⟩ := hcheck (acceptData σ { f with
      dataIdsRecived := f.dataIdsRecived.orderedInsert (· ≤ ·) p.snsMsgId } p)
    rw [hr]
    unfold acceptData
    split_ifs <;> exact ⟨_, _, _, _, _, _, _, _, rfl⟩

/-! ### The receiver's end -/

structure SameReceiver {N : ℕ} (f g : SnsFlow N) : Prop where
  finished : g.finished = f.finished
  received : g.received = f.received
  receivedBytes : g.receivedBytes = f.receivedBytes
  accepted : g.accepted = f.accepted
  dataIdsRecived : g.dataIdsRecived = f.dataIdsRecived

lemma sameReceiver_send (now : Time) : SameReceiver f (f.sendSimulation σ now).1 := by
  obtain ⟨w, b, n, l, hg, -⟩ := f.getFreeSlotInWindow_frame now
  rcases f.sendSimulation_cases σ now with ⟨-, hs⟩ | ⟨i, -, -, -, hs⟩ | ⟨-, -, hs⟩ <;>
    rw [hs, hg] <;> exact ⟨rfl, rfl, rfl, rfl, rfl⟩

lemma sameReceiver_sim (now : Time) (p : Packet) : SameReceiver f (f.receiveSim σ now p).1 :=
  ⟨rfl, rfl, rfl, rfl, rfl⟩

lemma sameReceiver_simAck (now : Time) (p : Packet) :
    SameReceiver f (f.receiveSimAck σ now p).1 := by
  rcases f.receiveSimAck_cases σ now p with ⟨i, -, -, hr⟩ | ⟨-, -, hr⟩ <;> rw [hr] <;>
    exact ⟨rfl, rfl, rfl, rfl, rfl⟩

lemma sameReceiver_dataAck {N : ℕ} (f : SnsFlow N) (p : Packet) :
    SameReceiver f (f.receiveDataAck p) := by
  obtain ⟨w, l, a, hr⟩ := f.receiveDataAck_frame p
  rw [hr]
  exact ⟨rfl, rfl, rfl, rfl, rfl⟩

@[simp] lemma sendSimulation_finished (now : Time) :
    (f.sendSimulation σ now).1.finished = f.finished := (f.sameReceiver_send σ now).finished

@[simp] lemma sendSimulation_accepted (now : Time) :
    (f.sendSimulation σ now).1.accepted = f.accepted := (f.sameReceiver_send σ now).accepted

end SnsFlow

end DcSim
