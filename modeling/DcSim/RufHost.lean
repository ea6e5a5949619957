import DcSim.CustomPriorityQueue
import DcSim.Runs
import DcSim.TokenFlow
import DcSim.Word32
import Mathlib.Data.List.Dedup

/-!
The receiver of RUF.

A `RufHost` has the flows that were announced to it, kept by their source. It tells the arbiter
the sources it has flows of, is granted one source for so many tokens, and gives these to the
flows of that source, one for each transmission of a packet. Two events drive it: one sends the
next token, and one wakes the host up to list its sources once more.

A queue of `src_to_flows` that becomes empty is erased at once, so that the map is kept here as one
list of flows, and the queue of a source is what the list has of it. The events of the host happen
at times that are left open. An assertion about the two events or the tokens of the grant that
fails is recorded, and a step that fails another assertion has no next state.
-/

namespace DcSim

open Runs Word32

structure RufSpec where
  -- Of `tokens` the flows have all but the size.
  host : HostId
  tokens : TokenSpec
  sizeInPkt : FlowId → ℕ
  src : FlowId → HostId
  startTime : FlowId → Time
  deadline : FlowId → Time
  scheduleByDeadline : Bool
  bdp : ℚ
  tokenWindow : ℕ
  tokenWindowTimeout : Time
  tokenResendTimeout : Time
  rufhostIdleTimeout : Time
  rufControllerEpoch : Time
  tranDelay_nonneg : 0 ≤ tokens.fullPktTranDelay
  ctrlRtt_nonneg : 0 ≤ tokens.controlPktRtt
  epoch_nonneg : 0 ≤ rufControllerEpoch

structure RufFlow extends TokenFlow where
  tokenCount : ℤ := 0
  tokenGoal : ℤ
  redundancyCtrlTimeout : Time := -1
  largestTokenSeqReceived : ℤ := -1
  latestTokenSentTime : Time := -1

structure GoSRC where
  -- The source that was granted, and what is left of the grant.
  maxTokens : ℤ := -1
  remainTokens : ℤ := -1
  round : ℤ := -1
  src : Option HostId := none
  sendNrts : Bool := false
  deriving DecidableEq

/-- `reset`, which leaves `send_nrts` as it is. -/
def GoSRC.reset (g : GoSRC) : GoSRC :=
  { g with maxTokens := -1, remainTokens := -1, round := -1, src := none }

structure RufNrts where
  -- `nrts_src_id`, `nrts_dst_id` and `round`
  src : HostId
  dst : HostId
  round : ℤ
  deriving DecidableEq

structure RufListSrcs where
  rtsDst : HostId
  listSrcs : List HostId
  flowSizes : List ℤ
  nrts : Option RufNrts
  deriving DecidableEq

inductive RufPacket
  | token (flow : FlowId) (ttl : Time) (remainingSz tokenSeqNum : ℤ) (dataSeqNum : ℕ)
  | ack (flow : FlowId)
  | listSrcs (pkt : RufListSrcs)
  deriving DecidableEq

structure TokenProcessingEvent where
  time : Time
  isTimeoutEvt : Bool
  deriving DecidableEq

structure RufHost where
  -- The last two fields are history: the packets it has sent, and whether each assertion so far has
  -- held.
  flows : FlowId → RufFlow
  srcToFlows : List FlowId := []
  gosrcInfo : GoSRC := {}
  wakeupEvt : Option Time := none
  tokenSendEvt : Option TokenProcessingEvent := none
  holdOn : ℕ := 0
  sent : List RufPacket := []
  asserts : Bool := true

namespace RufSpec

variable (σ : RufSpec)

def flow (f : FlowId) : TokenSpec := { σ.tokens with sizeInPkt := σ.sizeInPkt f }

/-- The host before anything has happened. -/
def init : RufHost where
  flows f := { tokenGoal := σ.sizeInPkt f }

end RufSpec

namespace RufFlow

variable (σ : RufSpec) (now : Time) (id : FlowId) (f : RufFlow)

def remainingPkts : ℤ := max 0 (σ.sizeInPkt id - f.receivedCount)

def tokenGap : ℤ := f.tokenCount - f.largestTokenSeqReceived - 1

/-- `token_gap() <= params.token_window`, where an `int` is compared with a `uint32_t`. -/
def InWindow : Prop := ofInt32 f.tokenGap ≤ σ.tokenWindow

instance : Decidable (f.InWindow σ) := by unfold InWindow; infer_instance

def relaxTokenGap : RufFlow :=
  { f with largestTokenSeqReceived := toInt32 (ofInt32 (f.tokenCount - σ.tokenWindow)) }

/-- A redundancy timeout that has passed is set back, and the flow is to be given tokens again. -/
def resetTimeout : RufFlow :=
  if 0 < f.redundancyCtrlTimeout then
    { f with
      redundancyCtrlTimeout := -1
      tokenGoal := f.tokenGoal + f.remainingPkts σ id }
  else f

def receiveShortFlow : Option RufFlow :=
  (f.toTokenFlow.receiveShortFlow (σ.flow id)).map fun flow =>
    let init := TokenFlow.initTokenSize (σ.flow id)
    { f with
      toTokenFlow := flow
      tokenCount := init
      redundancyCtrlTimeout :=
        if (init : ℤ) = f.tokenGoal then
          now + init * σ.tokens.fullPktTranDelay + σ.bdp * σ.tokens.fullPktTranDelay
        else f.redundancyCtrlTimeout }

/-- `send_token_pkt`, and the redundancy timeout it starts when the tokens begin again from the
front. -/
def sendTokenPkt : Option (RufFlow × RufPacket) :=
  (f.getNextTokenSeqNum (σ.flow id)).bind fun seq =>
    let sent := { f with
      lastTokenDataSeqNumSent := seq
      tokenCount := f.tokenCount + 1
      latestTokenSentTime := now }
    (sent.getNextTokenSeqNum (σ.flow id)).map fun next =>
      ({ sent with
          redundancyCtrlTimeout :=
            if next ≤ seq then now + σ.tokenResendTimeout else f.redundancyCtrlTimeout },
        .token id σ.tokens.tokenTimeout (f.remainingPkts σ id) f.tokenCount seq)

/-- `receive`, of a data packet of a flow that is known. -/
def receiveData (tokenSeq : ℤ) (seq : ℕ) : RufFlow :=
  { f with
    toTokenFlow := f.toTokenFlow.accept (σ.flow id) seq
    largestTokenSeqReceived := max f.largestTokenSeqReceived tokenSeq }

end RufFlow

namespace RufHost

variable (σ : RufSpec) (now : Time) (host : RufHost)

def setFlow (id : FlowId) (f : RufFlow) : RufHost :=
  { host with flows := Function.update host.flows id f }

def send (p : RufPacket) : RufHost := { host with sent := host.sent ++ [p] }

/-- An assertion, and whether it holds. -/
def assert (holds : Bool) : RufHost := { host with asserts := host.asserts && holds }

/-! ### The queues of flows -/

/-- `RufFlowComparatorAtReceiver` -/
def comparatorAtReceiver (a b : FlowId) : Bool :=
  let remaining (id : FlowId) : ℤ := (host.flows id).remainingPkts σ id - (host.flows id).tokenGap
  if σ.scheduleByDeadline then σ.deadline b < σ.deadline a
  else if remaining b < remaining a then true
  else if remaining a = remaining b then σ.startTime b < σ.startTime a
  else false

def queueOf (s : HostId) : List FlowId := host.srcToFlows.filter (σ.src · = s)

/-- The queue of a source is written back. -/
def setQueue (s : HostId) (queue : List FlowId) : RufHost :=
  { host with srcToFlows := host.srcToFlows.filter (σ.src · ≠ s) ++ queue }

/-- A queue is searched for a flow to be given tokens, for at most so many turns: finished flows
are taken out and those in their redundancy timeout are passed over, as are, of a source whose
grant ends, the flows that the tokens left are enough for. Each turn takes a flow out, so that the
length of the queue is turns enough. -/
def searchLoop (remainTokens : Option ℤ) (tried : List FlowId) :
    ℕ → List FlowId → Option FlowId × List FlowId
  | 0, queue => (none, queue ++ tried)
  | turns + 1, queue =>
    match CustomPriorityQueue.pop (host.comparatorAtReceiver σ) queue with
    | none => (none, tried)
    | some (id, rest) =>
      let f := host.flows id
      if f.finishedAtReceiver then searchLoop remainTokens tried turns rest
      else if now < f.redundancyCtrlTimeout then
        searchLoop remainTokens (tried ++ [id]) turns rest
      else
        match remainTokens with
        | none => (some id, queue ++ tried)
        | some r =>
          let r := if 0 < r then r - (f.remainingPkts σ id - f.tokenGap) else r
          if r < 0 then (some id, queue ++ tried)
          else searchLoop (some r) (tried ++ [id]) turns rest

def search (remainTokens : Option ℤ) (queue : List FlowId) : Option FlowId × List FlowId :=
  host.searchLoop σ now remainTokens [] queue.length queue

def getTopUnfinishFlow (s : HostId) : Option FlowId × RufHost :=
  let r := host.search σ now none (host.queueOf σ s)
  (r.1, host.setQueue σ s r.2)

/-! ### The events and the list of sources -/

def scheduleTokenProcEvt (time : Time) (isTimeout : Bool) : RufHost :=
  { host.assert host.tokenSendEvt.isNone with
    tokenSendEvt := some ⟨now + time + infinitesimalTime, isTimeout⟩ }

/-- A token event that waits for a timeout is cancelled, and without a token event one is
scheduled at once. -/
def restartTokenEvt : RufHost :=
  let host :=
    match host.tokenSendEvt with
    | some ⟨_, true⟩ => { host with tokenSendEvt := none }
    | _ => host
  if host.tokenSendEvt.isNone then host.scheduleTokenProcEvt now 0 false else host

def scheduleWakeupEvent : RufHost :=
  { host.assert host.wakeupEvt.isNone with wakeupEvt := some (now + σ.rufhostIdleTimeout) }

def cancelWakeup : RufHost := { host with wakeupEvt := none }

/-- The search of the queue of one source in `send_listSrcs`. -/
def searchSrc (nrts : Option (HostId × ℤ)) (s : HostId) : Option FlowId × List FlowId :=
  let granted : Bool := host.gosrcInfo.src = nrts.map (·.1)
  let remainTokens := if granted then host.gosrcInfo.remainTokens else 0
  host.search σ now (if nrts.map (·.1) = some s then some remainTokens else none)
    (host.queueOf σ s)

def srcs : List HostId := (host.srcToFlows.map σ.src).dedup

/-- The sources that have a flow to be given tokens, each with what that flow needs. -/
def listedSrcs (nrts : Option (HostId × ℤ)) : List (HostId × ℤ) :=
  (host.srcs σ).filterMap fun s => (host.searchSrc σ now nrts s).1.map fun id =>
    (s, min ((host.flows id).remainingPkts σ id - (host.flows id).tokenGap) 65535)

/-- `send_listSrcs`, with the source and the round of a grant that ends. -/
def sendListSrcs (nrts : Option (HostId × ℤ)) : RufHost :=
  let listed := host.listedSrcs σ now nrts
  let kept := { host with
    srcToFlows := (host.srcs σ).flatMap fun s => (host.searchSrc σ now nrts s).2 }
  if listed.isEmpty ∧ nrts.isNone then kept
  else
    { kept.send (.listSrcs ⟨σ.host, listed.map (·.1), listed.map (·.2),
        nrts.map fun n => ⟨n.1, σ.host, n.2⟩⟩) with
      gosrcInfo := { kept.gosrcInfo with sendNrts := nrts.isSome || kept.gosrcInfo.sendNrts } }

def wakeup : RufHost :=
  let host := (host.assert host.wakeupEvt.isNone).sendListSrcs σ now none
  if host.srcToFlows.isEmpty then host else host.scheduleWakeupEvent σ now

/-! ### The packets that arrive -/

def receiveShortFlow (id : FlowId) : Option RufHost :=
  ((host.flows id).receiveShortFlow σ now id).map fun f =>
    { host.setFlow id f with holdOn := TokenFlow.initTokenSize (σ.flow id) }

/-- The flow of an RTS is put in the queue of its source. -/
def pushFlow (id : FlowId) : RufHost :=
  { host.setFlow id { host.flows id with rtsReceived := true } with
    srcToFlows := host.srcToFlows ++ [id] }

/-- `receive_rts` of a long flow -/
def receiveLongRts (id : FlowId) : RufHost :=
  let host :=
    if host.gosrcInfo.src = some (σ.src id) ∧
        CustomPriorityQueue.top (host.comparatorAtReceiver σ) (host.queueOf σ (σ.src id)) =
          some id then host.restartTokenEvt now
    else host
  if host.gosrcInfo.src.isNone then
    ((host.sendListSrcs σ now none).cancelWakeup).scheduleWakeupEvent σ now
  else host

/-- `receive_rts` of a short flow -/
def receiveShortRts (id : FlowId) : Option RufHost :=
  (host.receiveShortFlow σ now id).map fun host =>
    if host.wakeupEvt.isNone ∧ (host.gosrcInfo.src.isNone ∨ host.gosrcInfo.sendNrts = true) then
      host.scheduleWakeupEvent σ now
    else host

def receiveRts (id : FlowId) : Option RufHost :=
  let host := host.pushFlow id
  if σ.tokens.tokenInitial < σ.sizeInPkt id then some (host.receiveLongRts σ now id)
  else host.receiveShortRts σ now id

/-- What a data packet does to the host once its flow has it: the flow is finished, or is given the
next token if it only waited for this packet. -/
def afterData (id : FlowId) : RufHost :=
  let f := host.flows id
  if σ.sizeInPkt id ≤ f.receivedCount then
    (host.setFlow id { f with finishedAtReceiver := true }).send (.ack id)
  else if f.InWindow σ then
    let r := host.getTopUnfinishFlow σ now (σ.src id)
    if r.2.gosrcInfo.src = some (σ.src id) ∧ 0 < r.2.gosrcInfo.remainTokens ∧ r.1 = some id then
      r.2.restartTokenEvt now
    else r.2
  else host

/-- `RufFlow::receive` of a data packet -/
def receiveData (id : FlowId) (tokenSeq : ℤ) (seq : ℕ) : Option RufHost :=
  (if (host.flows id).rtsReceived then some host else host.receiveShortFlow σ now id).map
    fun host => (host.setFlow id ((host.flows id).receiveData σ id tokenSeq seq)).afterData σ now id

/-- `RufFlow::receive` of the ACK, at the sender of the flow -/
def receiveAck (id : FlowId) : RufHost :=
  host.setFlow id
    { host.flows id with toTokenFlow := (host.flows id).toTokenFlow.receiveAck .ruf }

/-- A `FlowFinishedEvent` of the flow is processed. -/
def finish (id : FlowId) : Option RufHost :=
  (host.flows id).toTokenFlow.finish.map fun r =>
    host.setFlow id { host.flows id with toTokenFlow := r.1 }

/-- `receive_gosrc`. The source of the grant is that of the flow on top of its queue. -/
def receiveGosrc (s : HostId) (maxTokens round : ℤ) : RufHost :=
  let r := host.getTopUnfinishFlow σ now s
  match r.1 with
  | none =>
    let host := ((r.2.sendListSrcs σ now (some (s, round))).cancelWakeup).scheduleWakeupEvent σ now
    { host with gosrcInfo := host.gosrcInfo.reset }
  | some _ =>
    { r.2.cancelWakeup with gosrcInfo := ⟨maxTokens, maxTokens, round, some s, false⟩ }
      |>.restartTokenEvt now

/-! ### The token event -/

/-- A grant that has no flow left to use it ends. -/
def endGrant : RufHost :=
  match host.gosrcInfo.src with
  | none => host
  | some s =>
    let host :=
      if host.gosrcInfo.sendNrts then host
      else
        let host := host.sendListSrcs σ now (some (s, host.gosrcInfo.round))
        (host.assert host.wakeupEvt.isNone).scheduleWakeupEvent σ now
    { host with gosrcInfo := host.gosrcInfo.reset }

def useToken : RufHost :=
  let host := host.assert (0 < host.gosrcInfo.remainTokens)
  let left := host.gosrcInfo.remainTokens - 1
  { host with
    gosrcInfo :=
      let g := { host.gosrcInfo with remainTokens := left }
      if left = 0 then g.reset else g }

/-- The flow is given a token, if its window is open. -/
def sendToFlow (id : FlowId) : Option (RufHost × Bool) :=
  if (host.flows id).InWindow σ then
    ((host.flows id).sendTokenPkt σ now id).map fun r =>
      (((host.setFlow id r.1).send r.2).useToken, true)
  else some (host, false)

/-- How many more tokens of the grant the flow needs. -/
def gap (id : FlowId) : ℤ :=
  let need := (host.flows id).remainingPkts σ id - (host.flows id).tokenGap
  if need < host.gosrcInfo.remainTokens then need else host.gosrcInfo.remainTokens

/-- The end of the grant is announced early, once for each grant. -/
def announceEnd (id : FlowId) : RufHost :=
  if (now < (host.flows id).redundancyCtrlTimeout ∨
        host.gap σ id * σ.tokens.fullPktTranDelay ≤
          σ.tokens.controlPktRtt + σ.rufControllerEpoch) ∧
      host.gosrcInfo.sendNrts = false then
    ((host.assert host.wakeupEvt.isNone).sendListSrcs σ now
      (some (σ.src id, host.gosrcInfo.round))).scheduleWakeupEvent σ now
  else host

/-- The flow after its window was looked at, and when a closed window is relaxed: a window that
has been closed for long enough is opened. -/
def relaxWindow (id : FlowId) : RufHost × Time :=
  let f := host.flows id
  let closes := f.latestTokenSentTime + σ.tokenWindowTimeout
  if f.InWindow σ then (host, 999999)
  else if closes ≤ now then (host.setFlow id (f.relaxTokenGap σ), 999999)
  else (host, min closes 999999)

/-- `send_token`, when there is a flow to be given a token. -/
def sendTokenTo (id : FlowId) : Option RufHost :=
  let r := (host.setFlow id ((host.flows id).resetTimeout σ id)).relaxWindow σ now id
  (r.1.sendToFlow σ now id).map fun s =>
    let host := s.1.announceEnd σ now id
    if s.2 then host.scheduleTokenProcEvt now σ.tokens.fullPktTranDelay false
    else if r.2 < 999999 then (host.assert (now < r.2)).scheduleTokenProcEvt now (r.2 - now) true
    else host.endGrant σ now

/-- `send_token`: while `hold_on` is positive, the packets of a short flow use the link. -/
def sendToken : Option RufHost :=
  let host := host.assert host.tokenSendEvt.isNone
  if 0 < host.holdOn then
    some ({ host with holdOn := host.holdOn - 1 }.scheduleTokenProcEvt now
      σ.tokens.fullPktTranDelay false)
  else
    match host.gosrcInfo.src with
    | none => some host
    | some s =>
      let r := host.getTopUnfinishFlow σ now s
      match r.1 with
      | none => some (r.2.endGrant σ now)
      | some id => r.2.sendTokenTo σ now id

end RufHost

inductive RufAct
  | rts (now : Time) (id : FlowId)
  | goSrc (now : Time) (src : HostId) (maxTokens : ℕ) (round : ℤ)
  | data (now : Time) (id : FlowId) (tokenSeq : ℤ) (seq : ℕ)
  | ack (id : FlowId)
  | finish (id : FlowId)
  | tokenEvt
  | wakeupEvt

namespace RufHost

variable (σ : RufSpec) (host : RufHost)

/-- A packet of a flow that is finished is deleted. -/
def receive (id : FlowId) (handle : RufHost → Option RufHost) : Option RufHost :=
  if (host.flows id).finished then some host else handle host

/-- A step. A GoSrc is a packet of the flow the host shares with the arbiter, which never
finishes; its `max_tokens` is a `uint32_t`, kept in an `int`. -/
def next : RufAct → Option RufHost
  | .rts now id => host.receive id fun host =>
    if (host.flows id).rtsReceived then some host else host.receiveRts σ now id
  | .goSrc now s maxTokens round =>
    some (host.receiveGosrc σ now s (toInt32 maxTokens) round)
  | .data now id tokenSeq seq => host.receive id fun host => host.receiveData σ now id tokenSeq seq
  | .ack id => host.receive id fun host => some (host.receiveAck id)
  | .finish id => host.finish id
  | .tokenEvt => host.tokenSendEvt.bind fun e =>
    { host with tokenSendEvt := none }.sendToken σ e.time
  | .wakeupEvt => host.wakeupEvt.map fun time => (host.cancelWakeup).wakeup σ time

def machine : Machine RufHost RufAct := ⟨σ.init, next σ⟩

end RufHost

end DcSim
