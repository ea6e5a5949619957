import DcSim.RufHost

/-!
The arbiter of RUF.

The arbiter grants sources to destinations, once in each epoch. It keeps the state of each host as
a source and as a destination, and for each rack how many more connections to other racks may
begin or end in it. Both are one kind of table, with the same operations on a host: it becomes busy
by a grant, and free again by the end of the grant or, when a request asks for it, by a timeout.

An index beyond the hosts is no index of the tables, and a step that uses one has no next state.
-/

namespace DcSim

open Runs Word32

structure RufArbiterSpec where
  -- `capacity` is `num_hosts_per_tor() * os_ratio`.
  numHosts : ℕ
  numHostsPerTor : ℕ
  capacity : ℤ
  sameRack : HostId → HostId → Bool
  localize : Bool
  limitConns : Bool
  controlPktRtt : HostId → Time
  maxTokens : ℚ
  fullPktTranDelay : Time
  controllerEpoch : Time

structure HostState where
  -- A host that is free: `state` is true.
  state : Bool := true
  timeout : Time := -1
  round : ℤ := -1
  isLocal : Bool := false
  deriving DecidableEq

structure ConnTable where
  -- `src_state` with `outbound_cons`, or `dst_state` with `inbound_cons`.
  state : HostId → HostState
  cons : ℕ → ℤ

structure PqElement where
  dst : HostId
  srcId : HostId
  flowSize : ℤ
  deriving DecidableEq

structure RufGoSrc where
  dst : HostId
  srcId : HostId
  round : ℤ
  deriving DecidableEq

structure RufArbiter where
  -- `sent` is history.
  round : ℤ := 0
  src : ConnTable
  dst : ConnTable
  rufQ : List PqElement := []
  gosrcQueue : List (HostId × HostId) := []
  procEvt : Option Time := some 1
  gosrcQueueEvt : Bool := false
  sent : List RufGoSrc := []

namespace RufArbiterSpec

variable (σ : RufArbiterSpec)

def tor (h : HostId) : ℕ := h / σ.numHostsPerTor

/-- The arbiter after `start_arbiter`. -/
def init : RufArbiter where
  src := ⟨fun _ => {}, fun _ => σ.capacity⟩
  dst := ⟨fun _ => {}, fun _ => σ.capacity⟩

/-- `PqElementComparator` -/
def comparator (a b : PqElement) : Bool :=
  let localA := σ.sameRack a.srcId a.dst
  let localB := σ.sameRack b.srcId b.dst
  if σ.localize ∧ localA ≠ localB then localB
  else b.flowSize < a.flowSize

def Exists (e : PqElement) : Prop := e.srcId < σ.numHosts ∧ e.dst < σ.numHosts

/-- The hosts that a packet names exist. -/
def Names (p : RufListSrcs) : Prop :=
  p.rtsDst < σ.numHosts ∧ (∀ s ∈ p.listSrcs, s < σ.numHosts) ∧
    ∀ n ∈ p.nrts, n.src < σ.numHosts ∧ n.dst < σ.numHosts

instance (p : RufListSrcs) : Decidable (σ.Names p) := by unfold Names; infer_instance

end RufArbiterSpec

namespace ConnTable

variable (σ : RufArbiterSpec) (c : ConnTable)

/-- A host is free again, and so is its connection if it was to another rack. -/
def release (h : HostId) : ConnTable where
  state := Function.update c.state h {}
  cons :=
    if (c.state h).isLocal then c.cons
    else Function.update c.cons (σ.tor h) (c.cons (σ.tor h) + 1)

/-- A busy host that has timed out is free again. -/
def expire (now : Time) (h : HostId) : ConnTable :=
  if (c.state h).state = false ∧ (c.state h).timeout < now then c.release σ h else c

/-- The end of a grant frees a host that has the round of the grant. -/
def receiveNrts (h : HostId) (round : ℤ) : ConnTable :=
  if round = (c.state h).round then c.release σ h else c

/-- A host becomes busy, with a connection to another rack or within its own. -/
def occupy (h : HostId) (timeout : Time) (round : ℤ) (isLocal : Bool) : ConnTable where
  state := Function.update c.state h ⟨false, timeout, round, isLocal⟩
  cons :=
    if isLocal then c.cons else Function.update c.cons (σ.tor h) (c.cons (σ.tor h) - 1)

end ConnTable

namespace RufArbiter

variable (σ : RufArbiterSpec) (now : Time) (arb : RufArbiter)

/-- The timeout of a host that becomes busy. -/
def timeout (h : HostId) : Time :=
  now + σ.controlPktRtt h + 5 * σ.maxTokens * σ.fullPktTranDelay

/-- What `ruf_schedule` does with a request; `maxGoSrc` is how many more packets the queue of the
arbiter takes. -/
def request (maxGoSrc : ℕ) (e : PqElement) : RufArbiter × ℕ :=
  let arb := { arb with dst := arb.dst.expire σ now e.dst, src := arb.src.expire σ now e.srcId }
  let isLocal : Bool := σ.tor e.dst = σ.tor e.srcId
  if (arb.src.state e.srcId).state = false ∨ (arb.dst.state e.dst).state = false then
    (arb, maxGoSrc)
  else if σ.limitConns ∧ isLocal = false ∧
      (arb.dst.cons (σ.tor e.dst) = 0 ∨ arb.src.cons (σ.tor e.srcId) = 0) then (arb, maxGoSrc)
  else
    let arb := { arb with
      src := arb.src.occupy σ e.srcId (timeout σ now e.srcId) arb.round isLocal
      dst := arb.dst.occupy σ e.dst (timeout σ now e.dst) arb.round isLocal }
    if 0 < maxGoSrc then
      ({ arb with sent := arb.sent ++ [⟨e.dst, e.srcId, arb.round⟩] }, maxGoSrc - 1)
    else ({ arb with gosrcQueue := arb.gosrcQueue ++ [(e.dst, e.srcId)] }, maxGoSrc)

/-- The loop of `ruf_schedule`, for at most so many turns. Each takes one request. -/
def scheduleLoop : ℕ → RufArbiter → ℕ → RufArbiter
  | 0, arb, _ => arb
  | turns + 1, arb, maxGoSrc =>
    match CustomPriorityQueue.pop σ.comparator arb.rufQ with
    | none => arb
    | some (e, rest) =>
      let r := request σ now { arb with rufQ := rest } maxGoSrc e
      scheduleLoop turns r.1 r.2

def rufSchedule (maxGoSrc : ℕ) : Option RufArbiter :=
  if arb.gosrcQueue = [] then
    let arb := scheduleLoop σ now arb.rufQ.length arb maxGoSrc
    some { arb with gosrcQueueEvt := arb.gosrcQueueEvt || !arb.gosrcQueue.isEmpty }
  else none

def scheduleEpoch (maxGoSrc : ℕ) (allFinished : Bool) : Option RufArbiter :=
  if allFinished then some arb
  else (arb.rufSchedule σ now maxGoSrc).map fun arb =>
    { arb with round := (arb.round + 1) % 65536, procEvt := some (now + σ.controllerEpoch) }

/-- The loop of `send_gosrc`, which stops before it takes the last packet it had room for out of
the queue. -/
def sendGosrcLoop (arb : RufArbiter) : ℕ → List (HostId × HostId) → RufArbiter
  | _, [] => { arb with gosrcQueue := [] }
  | maxGoSrc, (dst, src) :: rest =>
    let arb := { arb with sent := arb.sent ++ [⟨dst, src, (arb.src.state src).round⟩] }
    let maxGoSrc := sub32 maxGoSrc 1
    if maxGoSrc = 0 then { arb with gosrcQueue := (dst, src) :: rest }
    else sendGosrcLoop arb maxGoSrc rest

/-- `send_gosrc`, which asserts that the queue is empty afterwards. -/
def sendGosrc (maxGoSrc : ℕ) : Option RufArbiter :=
  let arb := sendGosrcLoop arb maxGoSrc arb.gosrcQueue
  if arb.gosrcQueue = [] then some arb else none

def receiveListsrcs (p : RufListSrcs) : RufArbiter :=
  let arb :=
    match p.nrts with
    | none => arb
    | some n => { arb with
        src := arb.src.receiveNrts σ n.src n.round
        dst := arb.dst.receiveNrts σ n.dst n.round }
  if (arb.dst.state p.rtsDst).state then
    { arb with
      rufQ := arb.rufQ ++ (p.listSrcs.zip p.flowSizes).map fun e => ⟨p.rtsDst, e.1, e.2⟩ }
  else arb

end RufArbiter

inductive RufArbiterAct
  | listSrcs (p : RufListSrcs)
  | epoch (maxGoSrc : ℕ) (allFinished : Bool)
  | goSrcQueuing (maxGoSrc : ℕ)

namespace RufArbiter

variable (σ : RufArbiterSpec)

def next (arb : RufArbiter) : RufArbiterAct → Option RufArbiter
  | .listSrcs p => if σ.Names p then some (arb.receiveListsrcs σ p) else none
  | .epoch maxGoSrc allFinished => arb.procEvt.bind fun now =>
    { arb with procEvt := none }.scheduleEpoch σ now maxGoSrc allFinished
  | .goSrcQueuing maxGoSrc =>
    if arb.gosrcQueueEvt then { arb with gosrcQueueEvt := false }.sendGosrc maxGoSrc else none

/-- The arbiter from its start, with any packets that name hosts. -/
def machine : Machine RufArbiter RufArbiterAct := ⟨σ.init, next σ⟩

end RufArbiter

end DcSim
