import DcSim.HeapQueue
import DcSim.Packet
import DcSim.Runs
import Mathlib.Data.Finset.Insert

/-!
The arbiter of Fastpass.

A flow asks for slots by an RTS that says how many packets it has left, and is done by one that says
less than none. For each slot of an epoch the arbiter takes all flows out of its priority queue, one
after the other, gives a slot to each whose sender and receiver are free, and puts them back. The
keys of the queue change while flows are in it and while they are out.
-/

namespace DcSim

open Runs

structure FastpassArbiterSpec where
  -- `conLimit` is `num_hosts_per_tor() * os_ratio`, as an `int`.
  src : ℕ → HostId
  dst : ℕ → HostId
  numHostsPerTor : ℕ
  conLimit : ℤ
  sameRack : HostId → HostId → Bool
  localize : Bool
  limitConns : Bool
  epochPkts : ℕ

def FastpassArbiterSpec.tor (σ : FastpassArbiterSpec) (h : HostId) : ℕ := h / σ.numHostsPerTor

structure ArbiterFlow where
  receivedRts : Bool := false
  remainingNumPkts : ℤ := 0
  finished : Bool := false

structure FastpassArbiter where
  flows : ℕ → ArbiterFlow
  sendingFlows : Array ℕ

namespace FastpassArbiter

variable (σ : FastpassArbiterSpec)

/-- `FastpassFlowComparator` -/
def comparator (flows : ℕ → ArbiterFlow) (a b : ℕ) : Bool :=
  let more : Bool := (flows b).remainingNumPkts < (flows a).remainingNumPkts
  if σ.localize then
    let aSameRack := σ.sameRack (σ.src a) (σ.dst a)
    let bSameRack := σ.sameRack (σ.src b) (σ.dst b)
    if aSameRack ∧ bSameRack then more
    else if aSameRack then false
    else if bSameRack then true
    else more
  else more

structure Slot where
  flows : ℕ → ArbiterFlow
  schedule : HostId → Option ℕ := fun _ => none
  senderUsed : Finset HostId := ∅
  receiverUsed : Finset HostId := ∅
  sendTorCons : ℕ → ℤ := fun _ => 0
  recvTorCons : ℕ → ℤ := fun _ => 0
  flowsTried : List ℕ := []

namespace Slot

/-- A connection between two racks. -/
def connect (f : ℕ) (w : Slot) : Slot :=
  let senderTor := σ.tor (σ.src f)
  let receiverTor := σ.tor (σ.dst f)
  if senderTor ≠ receiverTor then
    { w with
      sendTorCons := Function.update w.sendTorCons senderTor (w.sendTorCons senderTor + 1)
      recvTorCons := Function.update w.recvTorCons receiverTor (w.recvTorCons receiverTor + 1) }
  else w

/-- The flow is given the slot. -/
def give (f : ℕ) (w : Slot) : Slot :=
  { w with
    flows := Function.update w.flows f
      { w.flows f with remainingNumPkts := (w.flows f).remainingNumPkts - 1 }
    senderUsed := insert (σ.src f) w.senderUsed
    receiverUsed := insert (σ.dst f) w.receiverUsed
    schedule := Function.update w.schedule (σ.src f) (some f) }

/-- The flow is given the slot if its sender, its receiver and their racks are free. -/
def tryFlow (f : ℕ) (w : Slot) : Slot :=
  let senderTor := σ.tor (σ.src f)
  let receiverTor := σ.tor (σ.dst f)
  if 0 < (w.flows f).remainingNumPkts ∧ σ.src f ∉ w.senderUsed ∧ σ.dst f ∉ w.receiverUsed then
    if σ.limitConns then
      if senderTor = receiverTor ∨
          w.sendTorCons senderTor < σ.conLimit ∧ w.recvTorCons receiverTor < σ.conLimit then
        (w.connect σ f).give σ f
      else w
    else w.give σ f
  else w

/-- A flow that was popped; one that is finished is forgotten. -/
def visit (w : Slot) (f : ℕ) : Slot :=
  if (w.flows f).finished then w
  else
    let w := w.tryFlow σ f
    { w with flowsTried := w.flowsTried ++ [f] }

end Slot

/-- The loop of `schedule_timeslot`, for at most so many turns. Each takes one flow. -/
def timeslotLoop : ℕ → Array ℕ → Slot → Slot
  | 0, _, w => w
  | turns + 1, q, w =>
    match HeapQueue.pop (comparator σ w.flows) q with
    | none => w
    | some (f, q) => timeslotLoop turns q (w.visit σ f)

variable (A : FastpassArbiter)

def scheduleTimeslot : (HostId → Option ℕ) × FastpassArbiter :=
  let w := timeslotLoop σ A.sendingFlows.size A.sendingFlows { flows := A.flows }
  (w.schedule,
    { flows := w.flows
      sendingFlows := w.flowsTried.foldl (HeapQueue.push (comparator σ w.flows)) #[] })

/-- The loop of `schedule_epoch`: the schedules of so many slots. -/
def epochLoop : ℕ → FastpassArbiter → List (HostId → Option ℕ) × FastpassArbiter
  | 0, A => ([], A)
  | slots + 1, A =>
    if 0 < A.sendingFlows.size then
      let s := A.scheduleTimeslot σ
      let r := epochLoop slots s.2
      (s.1 :: r.1, r.2)
    else
      let r := epochLoop slots A
      ((fun _ => none) :: r.1, r.2)

/-- `schedule_epoch`: what the `FastpassEpochSchedule` of each host says of each slot. -/
def scheduleEpoch : (HostId → List (Option ℕ)) × FastpassArbiter :=
  let r := epochLoop σ σ.epochPkts A
  (fun h => r.1.map (· h), r.2)

def receiveRts (f : ℕ) (remainingNumPkts : ℤ) : FastpassArbiter :=
  let x := A.flows f
  let y :=
    if remainingNumPkts < 0 then
      { x with receivedRts := true, remainingNumPkts := 0, finished := true }
    else { x with receivedRts := true, remainingNumPkts := remainingNumPkts }
  { flows := Function.update A.flows f y
    sendingFlows :=
      if x.receivedRts then A.sendingFlows
      else HeapQueue.push (comparator σ A.flows) A.sendingFlows f }

end FastpassArbiter

inductive FastpassArbiterAct
  | rts (f : ℕ) (remainingNumPkts : ℤ)
  | epoch

namespace FastpassArbiter

variable (σ : FastpassArbiterSpec)

def next (A : FastpassArbiter) : FastpassArbiterAct → Option FastpassArbiter
  | .rts f remainingNumPkts => some (A.receiveRts σ f remainingNumPkts)
  | .epoch => some (A.scheduleEpoch σ).2

/-- The arbiter, which no flow has asked yet. -/
def machine : Machine FastpassArbiter FastpassArbiterAct := ⟨⟨fun _ => {}, #[]⟩, next σ⟩

end FastpassArbiter

end DcSim
