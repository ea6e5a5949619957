import DcSim.EventQueue
import DcSim.PacketQueue
import DcSim.Runs
import Mathlib.Algebra.BigOperators.Group.Finset.Basic
import Mathlib.Algebra.Order.Group.Multiset
import Mathlib.Tactic.Linarith

/-!
The network: the queues of the hosts and switches, and the events between them.

A flow puts a packet into the queue of its host. A `QueueProcessingEvent` begins the transmission of
the next packet of a queue and comes again when it is over, and another event hands the packet on,
to the queue that `get_next_hop` chooses or, at the end of the way, to its flow. With cut-through
the next queue gets a packet when its header is through.

The queues are of any class but `SnsQueue`, without preemption. What the flows do is left open: they
may put any packets into the queues of their hosts at any time. The packets a queue was given, and
all that were put in and that arrived, are history.
-/

namespace DcSim

open Runs

inductive NetworkAction (Q : Type)
  | queueProcessing (q : Q)
  | packetQueuing (p : Packet) (q : Q)
  | packetArrival (p : Packet)
  deriving DecidableEq

namespace NetworkAction

variable {Q : Type}

def packet? : NetworkAction Q → Option Packet
  | .queueProcessing _ => none
  | .packetQueuing p _ => some p
  | .packetArrival p => some p

def queue? : NetworkAction Q → Option Q
  | .queueProcessing q => some q
  | .packetQueuing _ q => some q
  | .packetArrival _ => none

def handing (p : Packet) : Option Q → NetworkAction Q
  | none => .packetArrival p
  | some r => .packetQueuing p r

@[simp] lemma packet?_handing (p : Packet) (hop : Option Q) : (handing p hop).packet? = some p := by
  cases hop <;> rfl

@[simp] lemma queue?_handing (p : Packet) (hop : Option Q) : (handing p hop).queue? = hop := by
  cases hop <;> rfl

@[simp] lemma handing_ne (p : Packet) (hop : Option Q) (q : Q) :
    handing p hop ≠ .queueProcessing q := by
  cases hop <;> simp [handing]

end NetworkAction

structure NetworkSpec (Q : Type) where
  -- The counters of the queues start at random, and `get_next_hop` may move that of the queue it is
  -- asked at; it fails where it asserts.
  queues : Finset Q
  queue : Q → QueueSpec
  rate : Q → ℚ
  propagationDelay : Q → Time
  /-- `hdr_size` of the flows -/
  hdrSize : ℕ
  /-- `cut_through` is 1 -/
  cutThrough : Bool
  /-- the queue of a host -/
  hostQueue : HostId → Q
  sprayCounter : Q → ℕ
  getNextHop : ℕ → Packet → Q → Option (ℕ × Option Q)
  not_sns : ∀ q, (queue q).type ≠ .sns
  rate_pos : ∀ q, 0 < rate q
  propagationDelay_nonneg : ∀ q, 0 ≤ propagationDelay q
  leads : ∀ {c p q c' r}, q ∈ queues → getNextHop c p q = some (c', some r) → r ∈ queues

structure NetworkQueue where
  -- The packets it was given are history.
  queue : PacketQueue
  busy : Bool
  queueProcEvent : Option ℕ
  sprayCounter : ℕ
  arrived : List Packet

structure Network (Q : Type) where
  now : Time
  queues : Q → NetworkQueue
  events : EventQueue Time (NetworkAction Q)
  injected : List Packet
  delivered : List Packet

/-- What can happen next: a flow puts a packet into the queue of its host, or an event is
processed; a `ProbDropQueue` may lose the packet. -/
inductive NetworkAct
  | inject (time : Time) (p : Packet)
  | process (id : ℕ) (lost : Bool)

def NetworkAct.packets : NetworkAct → List Packet
  | .inject _ p => [p]
  | .process _ _ => []

namespace NetworkSpec

variable {Q : Type} (σ : NetworkSpec Q)

def getTransmissionDelay (q : Q) (size : ℕ) : Time := size * 8 / σ.rate q

/-- The time from the beginning of a transmission to the event that hands the packet on. -/
def handingDelay (q : Q) (p : Packet) (hop : Option Q) : Time :=
  σ.getTransmissionDelay q (if σ.cutThrough ∧ hop.isSome then σ.hdrSize else p.size) +
    σ.propagationDelay q

lemma getTransmissionDelay_nonneg (q : Q) (size : ℕ) : 0 ≤ σ.getTransmissionDelay q size :=
  div_nonneg (by positivity) (σ.rate_pos q).le

lemma handingDelay_nonneg (q : Q) (p : Packet) (hop : Option Q) : 0 ≤ σ.handingDelay q p hop :=
  add_nonneg (σ.getTransmissionDelay_nonneg q _) (σ.propagationDelay_nonneg q)

end NetworkSpec

namespace Network

variable {Q : Type} [DecidableEq Q] (σ : NetworkSpec Q) (s : Network Q)

def init : Network Q where
  now := 0
  queues q := ⟨.init, false, none, σ.sprayCounter q, []⟩
  events := .empty
  injected := []
  delivered := []

def setQueue (q : Q) (k : NetworkQueue) : Network Q :=
  { s with queues := Function.update s.queues q k }

def addEvent (time : Time) (action : NetworkAction Q) : Network Q :=
  { s with events := s.events.add time action }

/-- A flow puts a packet into the queue of its host. -/
def inject (p : Packet) : Network Q :=
  { s.addEvent s.now (.packetQueuing p (σ.hostQueue p.src)) with injected := s.injected ++ [p] }

/-- The service of a queue begins, unless it has begun. -/
def begin (q : Q) : Network Q :=
  if (s.queues q).busy then s
  else
    (s.addEvent s.now (.queueProcessing q)).setQueue q
      { s.queues q with busy := true, queueProcEvent := some s.events.count }

def enque (p : Packet) (q : Q) (lost : Bool) : Network Q :=
  s.setQueue q
    { s.queues q with
      queue := (s.queues q).queue.enque (σ.queue q) p lost
      arrived := (s.queues q).arrived ++ [p] }

/-- `PacketQueuingEvent::process_event` -/
def packetQueuing (p : Packet) (q : Q) (lost : Bool) : Network Q := (s.begin q).enque σ p q lost

/-- The transmission of a packet begins; `hop` is the queue it is handed on to. -/
def transmit (q : Q) (p : Packet) (sprayCounter : ℕ) (hop : Option Q) : Network Q :=
  ((s.setQueue q
      { s.queues q with
        busy := true
        queueProcEvent := some s.events.count
        sprayCounter := sprayCounter }).addEvent
    (s.now + σ.getTransmissionDelay q p.size) (.queueProcessing q)).addEvent
    (s.now + σ.handingDelay q p hop) (.handing p hop)

def rest (q : Q) : Network Q :=
  s.setQueue q { s.queues q with busy := false, queueProcEvent := none }

/-- `QueueProcessingEvent::process_event` -/
def queueProcessing (q : Q) : Option (Network Q) :=
  ((s.queues q).queue.deque (σ.queue q)).bind fun r =>
    let s := s.setQueue q { s.queues q with queue := r.2 }
    match r.1 with
    | none => some (s.rest q)
    | some p => (σ.getNextHop (s.queues q).sprayCounter p q).map fun h => s.transmit σ q p h.1 h.2

/-- The destructor of an event, which is of a `QueueProcessingEvent` only. -/
def destroy (e : QueuedEvent Time (NetworkAction Q)) : Network Q :=
  match e.kind with
  | .queueProcessing q =>
    if (s.queues q).queueProcEvent = some e.id then
      s.setQueue q { s.queues q with busy := false, queueProcEvent := none }
    else s
  | _ => s

def processEvent (lost : Bool) : NetworkAction Q → Option (Network Q)
  | .queueProcessing q => s.queueProcessing σ q
  | .packetQueuing p q => some (s.packetQueuing σ p q lost)
  | .packetArrival p => some { s with delivered := s.delivered ++ [p] }

/-- Events are processed in the order of their times. -/
def next : NetworkAct → Option (Network Q)
  | .inject time p =>
    if s.now ≤ time ∧ s.events.NoneBefore time ∧ σ.hostQueue p.src ∈ σ.queues then
      some ({ s with now := time }.inject σ p)
    else none
  | .process id lost => (s.events.take? id).bind fun r =>
    if s.events.NoneBefore r.1.time then
      ({ s with now := r.1.time, events := r.2 }.processEvent σ lost r.1.kind).map (destroy · r.1)
    else none

def machine : Machine (Network Q) NetworkAct := ⟨init σ, next σ⟩

end Network

end DcSim
