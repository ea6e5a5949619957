import DcSim.EventQueue
import DcSim.PacketQueue
import DcSim.Runs

/-!
A queue and its link, with preemption.

A `QueueProcessingEvent` takes a packet of the queue, and sets the event that hands it on and its
own successor for the end of the transmission; both are the `busy_events`. A packet that is more
urgent than the one being transmitted cancels them, and the other packet goes back to the queue.
With cut-through a packet is handed on when its header is through.

The queue is of any class but `SnsQueue`. A pointer to an event is kept as the number of the event
and, where it is read, its time. The packets that came and those that were handed on are history.
-/

namespace DcSim

open Word32

/-- What an event of a queue does: it processes the queue or hands a packet on, to the flow or to
the next queue. -/
inductive LinkAction
  | queueProcessing
  | packetArrival (p : Packet)
  | packetQueuing (p : Packet)
  deriving DecidableEq

structure LinkEvent where
  action : LinkAction
  cancelled : Bool
  deriving DecidableEq

def LinkEvent.handing (e : LinkEvent) : Option Packet :=
  if e.cancelled then none
  else
    match e.action with
    | .queueProcessing => none
    | .packetArrival p | .packetQueuing p => some p

structure PreemptiveSpec extends QueueSpec where
  rate : ℚ
  propagationDelay : Time
  /-- `hdr_size` of the flows -/
  hdrSize : ℕ
  preemptiveQueue : Bool
  /-- `cut_through` is 1 -/
  cutThrough : Bool
  /-- `get_next_hop` is `NULL` -/
  lastHop : Packet → Bool
  not_sns : type ≠ .sns
  rate_pos : 0 < rate
  propagationDelay_nonneg : 0 ≤ propagationDelay

namespace PreemptiveSpec

variable (K : PreemptiveSpec) (p : Packet)

def getTransmissionDelay (size : ℕ) : Time := size * 8 / K.rate

/-- The packet is handed on before it is through. -/
def early : Bool := K.cutThrough && !K.lastHop p

/-- The time from the beginning of a transmission to the event that hands the packet on. -/
def handingDelay : Time :=
  if K.early p then K.getTransmissionDelay K.hdrSize + K.propagationDelay
  else K.getTransmissionDelay p.size + K.propagationDelay

def handingAction : LinkAction := if K.lastHop p then .packetArrival p else .packetQueuing p

end PreemptiveSpec

structure PreemptiveQueue where
  now : Time
  queue : PacketQueue
  busy : Bool
  queueProcEvent : Option (ℕ × Time)
  packetTransmitting : Option Packet
  busyEvents : List ℕ
  events : EventQueue Time LinkEvent
  entered : List Packet
  handed : List Packet

namespace PreemptiveQueue

def init : PreemptiveQueue := ⟨0, .init, false, none, none, [], .empty, [], []⟩

variable (K : PreemptiveSpec) (s : PreemptiveQueue) (p : Packet)

def addEvent (time : Time) (action : LinkAction) : PreemptiveQueue :=
  { s with events := s.events.add time ⟨action, false⟩ }

/-- The service of a queue is about to begin, with `p` if no other packet goes first. -/
def begin : PreemptiveQueue :=
  { s.addEvent s.now .queueProcessing with
    queueProcEvent := some (s.events.count, s.now)
    busy := true
    packetTransmitting := some p }

/-- How much of the transmission of `p` is left. -/
def remainingPercentage : ℚ :=
  s.queueProcEvent.elim 0 fun e => (e.2 - s.now) / K.getTransmissionDelay p.size

/-- The packet that the transmission of is given up for `p`. -/
def preempted : Option Packet :=
  if K.preemptiveQueue then
    s.packetTransmitting.filter fun q =>
      p.pfPriority < q.pfPriority ∧ 1 / 100 < s.remainingPercentage K q
  else none

def enque (lost : Bool) : PreemptiveQueue :=
  { s with queue := s.queue.enque K.toQueueSpec p lost }

/-- The packet is taken out of the queue, if it is there. -/
def withdraw : PreemptiveQueue :=
  if p ∈ s.queue.packets then
    { s with
      queue :=
        { s.queue with
          packets := s.queue.packets.erase p
          bytesInQueue := sub32 s.queue.bytesInQueue p.size } }
  else s

def cancelBusyEvents : PreemptiveQueue :=
  { s with
    events := s.events.modify ((s.queueProcEvent.map (·.1)).toList ++ s.busyEvents) fun e =>
      { e with cancelled := true }
    busyEvents := [] }

/-- `preempt_current_transmission`, of the transmission of `q` -/
def preemptCurrentTransmission (q : Packet) (lost : Bool) : PreemptiveQueue :=
  { (s.cancelBusyEvents.withdraw q).enque K q lost with
    packetTransmitting := none
    queueProcEvent := none
    busy := false }

/-- The queue makes ready for a packet that comes. -/
def makeReady (lost : Bool) : PreemptiveQueue :=
  if s.busy then
    match s.preempted K p with
    | some q => (s.preemptCurrentTransmission K q lost).begin p
    | none => s
  else s.begin p

/-- `PacketQueuingEvent::process_event`; a `ProbDropQueue` may lose `p` and the packet that is
preempted. -/
def packetQueuing (lost lostAgain : Bool) : PreemptiveQueue :=
  { (s.makeReady K p lostAgain).enque K p lost with entered := s.entered ++ [p] }

/-- The transmission of a packet begins. -/
def transmit : PreemptiveQueue :=
  let td := K.getTransmissionDelay p.size
  { (s.addEvent (s.now + td) .queueProcessing).addEvent (s.now + K.handingDelay p)
      (K.handingAction p) with
    busy := true
    packetTransmitting := some p
    queueProcEvent := some (s.events.count, s.now + td)
    busyEvents := [s.events.count, s.events.count + 1] }

def rest : PreemptiveQueue :=
  { s with
    busy := false
    busyEvents := []
    packetTransmitting := none
    queueProcEvent := none }

/-- `QueueProcessingEvent::process_event` -/
def queueProcessing : Option PreemptiveQueue :=
  (s.queue.deque K.toQueueSpec).map fun r =>
    r.1.elim { s with queue := r.2 }.rest fun p => { s with queue := r.2 }.transmit K p

/-- The destructor of an event, which is of a `QueueProcessingEvent` only. -/
def destroy (e : QueuedEvent Time LinkEvent) : PreemptiveQueue :=
  if e.kind.action = .queueProcessing ∧ s.queueProcEvent.map (·.1) = some e.id then
    { s with queueProcEvent := none, busy := false }
  else s

def processEvent (e : LinkEvent) : Option PreemptiveQueue :=
  if e.cancelled then some s
  else
    match e.action with
    | .queueProcessing => s.queueProcessing K
    | .packetArrival p | .packetQueuing p => some { s with handed := s.handed ++ [p] }

end PreemptiveQueue

/-- What can happen next: a packet comes, or an event is processed. -/
inductive LinkAct
  | packetQueuing (time : Time) (p : Packet) (lost lostAgain : Bool)
  | process (id : ℕ)

namespace PreemptiveQueue

open Runs

variable (K : PreemptiveSpec)

/-- Events are processed in the order of their times. A packet does not come to a queue where it
is. -/
def next (s : PreemptiveQueue) : LinkAct → Option PreemptiveQueue
  | .packetQueuing time p lost lostAgain =>
    if s.now ≤ time ∧ s.events.NoneBefore time ∧ p ∉ s.queue.packets ∧
        s.packetTransmitting ≠ some p then
      some ({ s with now := time }.packetQueuing K p lost lostAgain)
    else none
  | .process id => (s.events.take? id).bind fun r =>
    if s.now ≤ r.1.time ∧ s.events.NoneBefore r.1.time then
      (processEvent K { s with now := r.1.time, events := r.2 } r.1.kind).map (destroy · r.1)
    else none

def machine : Machine PreemptiveQueue LinkAct := ⟨init, next K⟩

/-- The packets that pending events will hand on. -/
def downstream (s : PreemptiveQueue) : List Packet := s.events.events.filterMap (·.kind.handing)

def places (s : PreemptiveQueue) : List Packet :=
  s.queue.packets ++ s.queue.dropped ++ s.downstream ++ s.handed

/-- Each packet that came is in one place. -/
def Conserves (s : PreemptiveQueue) : Prop := s.entered.Perm s.places

instance (s : PreemptiveQueue) : Decidable s.Conserves :=
  inferInstanceAs (Decidable (List.Perm _ _))

/-- If a transmission is given up for `p`, then its packet is still to be handed on. -/
def GivesUpInTime (s : PreemptiveQueue) (p : Packet) : Prop :=
  s.preempted K p ≠ none →
    ∃ e ∈ s.events.events, e.id ∈ s.busyEvents ∧ e.kind.handing ≠ none

instance (s : PreemptiveQueue) (p : Packet) : Decidable (s.GivesUpInTime K p) :=
  inferInstanceAs (Decidable (_ → _))

/-- No packet is preempted that has been handed on. -/
def PreemptsInTime (s : PreemptiveQueue) : LinkAct → Prop
  | .packetQueuing time p _ _ => { s with now := time }.GivesUpInTime K p
  | .process _ => True

instance (s : PreemptiveQueue) : ∀ a, Decidable (s.PreemptsInTime K a)
  | .packetQueuing _ p _ _ => inferInstanceAs (Decidable (GivesUpInTime K _ p))
  | .process _ => .isTrue trivial

end PreemptiveQueue

end DcSim
