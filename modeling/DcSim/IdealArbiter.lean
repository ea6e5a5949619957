import DcSim.LossyNet
import DcSim.Packet
import DcSim.Word32
import Mathlib.Data.Finset.Insert
import Mathlib.Data.List.Sort

/-!
The ideal arbiter, its hosts and flows.

The arbiter keeps the flows that have something to send in a list. When one arrives or is done it
goes over the list and gives each host whose source and destination are free a flow to send. A host
sends packets of its flow for as long as the arbiter leaves it.

The packets cross a network that may lose, copy, delay and reorder them.
-/

namespace DcSim

open LossyNet Runs Word32

structure IdealSpec where
  src : ℕ → ℕ
  dst : ℕ → ℕ
  size : ℕ → ℕ
  mss : ℕ
  retxTimeoutValue : Time
  transmissionDelay : Time

structure IdealFlow where
  -- `retxEvent` is the time of the `RetxTimeoutEvent` that is not cancelled.
  sent : ℕ := 0
  acked : ℕ := 0
  received : ℕ := 0
  finished : Bool := false
  started : Bool := false
  retxEvent : Option Time := none

structure IdealProcEvent where
  time : Time
  cancelled : Bool := false

structure IdealHost where
  activeFlow : Option ℕ := none
  hostProcEvent : Option IdealProcEvent := none

structure Ideal where
  flows : ℕ → IdealFlow
  activeFlows : List ℕ
  hosts : ℕ → IdealHost

inductive IdealPacket
  | data (f : ℕ)
  | ack (f : ℕ) (received : ℕ)
  deriving DecidableEq

namespace Ideal

variable (σ : IdealSpec) (now : Time) (A : Ideal)

/-! ### The arbiter -/

/-- `compareFlows`: the flow with fewer bytes to go comes first, as far as `acked` has not passed
`size`. -/
def compareFlows (i j : ℕ) : Bool :=
  sub32 (A.flows j).acked (σ.size j) < sub32 (A.flows i).acked (σ.size i)

structure Pass where
  -- The loop of `compute_schedule`: the sources and destinations that are taken, the flows that
  -- stay in the list, and the hosts.
  srcs : Finset ℕ
  dsts : Finset ℕ
  kept : List ℕ
  hosts : ℕ → IdealHost

/-- The host gives up a flow that is finished. -/
def Pass.clear (f : ℕ) (w : Pass) : Pass :=
  if (w.hosts (σ.src f)).activeFlow = some f then
    { w with
      hosts := Function.update w.hosts (σ.src f)
        { w.hosts (σ.src f) with activeFlow := none } }
  else w

/-- The host is given the flow. The event for another flow is cancelled, and a new one comes at
once. -/
def giveFlow (f : ℕ) (H : IdealHost) : IdealHost :=
  let event := if H.activeFlow ≠ none ∧ H.activeFlow ≠ some f then none else H.hostProcEvent
  { activeFlow := some f
    hostProcEvent :=
      match event with
      | some e => if e.cancelled then some { time := now } else some e
      | none => some { time := now } }

/-- The flow is given to its host if its source and its destination are free. -/
def Pass.assign (f : ℕ) (w : Pass) : Pass :=
  if σ.src f ∉ w.srcs ∧ σ.dst f ∉ w.dsts then
    { w with
      srcs := insert (σ.src f) w.srcs
      dsts := insert (σ.dst f) w.dsts
      hosts := Function.update w.hosts (σ.src f) (giveFlow now f (w.hosts (σ.src f))) }
  else w

def Pass.keep (f : ℕ) (w : Pass) : Pass := { w with kept := w.kept ++ [f] }

/-- The loop. Behind a flow that is erased the next one is not looked at, and the erased one is
looked at as if it were in the list. -/
def scheduleLoop : List ℕ → Pass → Pass
  | [], w => w
  | [f], w => if (A.flows f).finished then w.clear σ f else (w.assign σ now f).keep f
  | f :: x :: fs, w =>
    if (A.flows f).finished then scheduleLoop fs (((w.clear σ f).assign σ now f).keep x)
    else scheduleLoop (x :: fs) ((w.assign σ now f).keep f)

def computeSchedule : Ideal :=
  let w := scheduleLoop σ now A A.activeFlows ⟨∅, ∅, [], A.hosts⟩
  { A with activeFlows := w.kept, hosts := w.hosts }

/-- A flow is put into the list, and the list is sorted. -/
def arrived (f : ℕ) : Ideal :=
  { A with activeFlows :=
      (A.activeFlows ++ [f]).insertionSort fun i j => A.compareFlows σ j i = false }

def flowArrival (f : ℕ) : Option Ideal :=
  if f ∈ A.activeFlows then none else some ((A.arrived σ f).computeSchedule σ now)

def setHost (h : ℕ) (H : IdealHost) : Ideal := { A with hosts := Function.update A.hosts h H }

def setFlow (f : ℕ) (x : IdealFlow) : Ideal := { A with flows := Function.update A.flows f x }

/-- A flow is taken from its host and from the list. -/
def removed (f : ℕ) : Ideal :=
  { A.setHost (σ.src f) { A.hosts (σ.src f) with activeFlow := none } with
    activeFlows := A.activeFlows.erase f }

def flowFinished (f : ℕ) : Ideal :=
  if f ∈ A.activeFlows then (A.removed σ f).computeSchedule σ now else A.removed σ f

/-! ### The flows -/

def startFlow (f : ℕ) : Option (Ideal × List IdealPacket) :=
  if (A.flows f).started then none
  else ((A.setFlow f { A.flows f with started := true }).flowArrival σ now f).map (·, [])

def handleTimeout (f : ℕ) : Option (Ideal × List IdealPacket) :=
  if (A.flows f).retxEvent.any (· ≤ now) then
    let A := A.setFlow f { A.flows f with retxEvent := none }
    if (A.flows f).finished then some (A, []) else (A.flowArrival σ now f).map (·, [])
  else none

/-- A packet of the flow is sent, by a host whose next event is later. -/
def sentPacket (f : ℕ) : Ideal :=
  (A.setHost (σ.src f) { A.hosts (σ.src f) with
    hostProcEvent := some { time := now + σ.transmissionDelay + infinitesimalTime } }).setFlow f
    { A.flows f with sent := add32 (A.flows f).sent σ.mss }

/-- The last packet was sent: the timer is set and the event of the host is cancelled. -/
def sentAll (f : ℕ) : Ideal :=
  let H := A.hosts (σ.src f)
  (A.setHost (σ.src f) { H with
    hostProcEvent := H.hostProcEvent.map ({ · with cancelled := true }) }).setFlow f
    { A.flows f with
      retxEvent := if 0 < σ.size f then some (now + σ.retxTimeoutValue) else none }

/-- `send_pending_data`, of a flow that is not finished -/
def sendPendingData (f : ℕ) : Option (Ideal × List IdealPacket) :=
  let A := A.sentPacket σ now f
  if (A.flows f).sent = σ.size f then
    if (A.flows f).retxEvent = none then
      some ((A.sentAll σ now f).flowFinished σ now f, [.data f])
    else none
  else some (A, [.data f])

/-- A `HostProcessingEvent` and `send` -/
def send (h : ℕ) : Option (Ideal × List IdealPacket) :=
  if (A.hosts h).hostProcEvent.any fun e => e.cancelled = false ∧ e.time ≤ now then
    let A := A.setHost h { A.hosts h with hostProcEvent := none }
    match (A.hosts h).activeFlow with
    | none => some (A, [])
    | some f =>
      if (A.flows f).finished then some (A, [])
      else if σ.src f = h then A.sendPendingData σ now f else none
  else none

/-- An ACK for all of a flow arrives that has sent more than all: it sends no more. -/
def stopped (f : ℕ) : Ideal :=
  if σ.size f < (A.flows f).sent then
    let H := A.hosts (σ.src f)
    (A.setHost (σ.src f) { H with
      hostProcEvent := H.hostProcEvent.map ({ · with cancelled := true }) }).flowFinished σ now f
  else A

def finish (f : ℕ) : Ideal :=
  let H := A.hosts (σ.src f)
  (A.setHost (σ.src f) (if H.activeFlow = some f then { H with activeFlow := none } else H)).setFlow
    f { A.flows f with finished := true }

/-- `receive`, of an ACK -/
def receiveAck (f : ℕ) (received : ℕ) : Ideal :=
  if (A.flows f).finished then A
  else if received < (A.flows f).acked then A
  else
    let A := A.setFlow f { A.flows f with acked := received }
    if σ.size f ≤ received then
      let A := A.setFlow f { A.flows f with retxEvent := none }
      (A.stopped σ now f).finish σ f
    else A

def receive (p : IdealPacket) : Ideal × List IdealPacket :=
  match p with
  | .data f =>
    if (A.flows f).finished then (A, [])
    else
      let received := add32 (A.flows f).received σ.mss
      (A.setFlow f { A.flows f with received := received }, [.ack f received])
  | .ack f received => (A.receiveAck σ now f received, [])

end Ideal

inductive IdealInput
  | start (f : ℕ)
  | timeout (f : ℕ)
  | host (h : ℕ)

namespace Ideal

/-- No flow has been started. -/
def init : Ideal := ⟨fun _ => {}, [], fun _ => {}⟩

def input (σ : IdealSpec) (now : Time) (i : IdealInput) (A : Ideal) :
    Option (Ideal × List IdealPacket) :=
  match i with
  | .start f => A.startFlow σ now f
  | .timeout f => A.handleTimeout σ now f
  | .host h => A.send σ now h

def party (σ : IdealSpec) : Party Ideal IdealPacket Time IdealInput where
  init := init
  input := input σ
  receive now p A := A.receive σ now p

end Ideal

end DcSim
