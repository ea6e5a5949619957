import DcSim.LossyNet
import DcSim.Packet
import DcSim.Segments
import DcSim.Word32
import Mathlib.Data.Finset.Max

/-!
The base flow, and the flow classes of pFabric and TCP that are built on it.

One object is both ends of a flow. The sender has a window over the bytes of the flow and a
retransmission timer, the receiver a set of segments and the end of their contiguous prefix.
A call returns the packets it puts into the queue of a host. The `RetxTimeoutEvent`s of the
flow that are in the event queue are kept with it. What a class adds to the fields of the base
class is a parameter, so that the code a class inherits is the code below.

Left out are the counters and logs that nothing reads back.
-/

namespace DcSim

open Segments Word32

inductive FlowKind | flow | pFabric | tcp
  deriving DecidableEq

structure FlowSpec where
  id : FlowId
  startTime : Time
  size : ℕ
  src : HostId
  dst : HostId
  mss : ℕ
  hdrSize : ℕ
  initialCwnd : ℕ
  maxCwnd : ℕ
  retxTimeout : Time
  rtt : Time
  flowType : ℕ
  scheduleByDeadline : Bool
  deadlinePriority : ℕ
  mss_pos : 0 < mss
  mss_lt : mss < 4294967296
  hdrSize_lt : hdrSize < 4294967296
  size_lt : size < 4294967296

/-- The constructors of STrack, REPS and NDP set a timeout that is ten times as long. -/
def FlowSpec.longTimeout (σ : FlowSpec) : FlowSpec := { σ with retxTimeout := σ.retxTimeout * 10 }

def twoSegments : FlowSpec where
  id := 0
  startTime := 1
  size := 2920
  src := 0
  dst := 1
  mss := 1460
  hdrSize := 40
  initialCwnd := 12
  maxCwnd := 15
  retxTimeout := 45 / 1000000
  rtt := 1 / 100000
  flowType := 2
  scheduleByDeadline := false
  deadlinePriority := 0
  mss_pos := Word32.mss_1460_pos
  mss_lt := Word32.mss_1460_lt
  hdrSize_lt := Word32.hdrSize_40_lt
  size_lt := Word32.size_2920_lt

structure RetxTimeoutEvent where
  id : ℕ
  time : Time
  cancelled : Bool
  deriving DecidableEq

structure Flow (X : Type) where
  -- `own` has the fields of the class. Those after it are history: whether the flow arrived, the
  -- segments the receiver was handed, and the numbers of all ACKs that were sent and that were
  -- received.
  startTime : Time
  nextSeqNo : ℕ
  lastUnackedSeq : ℕ
  retxEvent : Option ℕ
  retxEvents : List RetxTimeoutEvent
  retxEventCount : ℕ
  received : Finset ℕ
  receivedBytes : ℕ
  recvTill : ℕ
  maxSeqNoRecv : ℕ
  cwndMss : ℕ
  scoreboardSackBytes : ℕ
  finished : Bool
  finishTime : Time
  flowCompletionTime : Time
  own : X
  started : Bool
  delivered : Finset ℕ
  acksSent : List ℕ
  acksReceived : List ℕ

structure PFabric where
  -- What pFabric adds to a flow; the base class and TCP leave it alone.
  ssthresh : ℕ
  countAckAdditiveIncrease : ℕ

namespace Flow

variable {X P : Type}

def new (σ : FlowSpec) (cwndMss : ℕ) (own : X) : Flow X where
  startTime := σ.startTime
  nextSeqNo := 0
  lastUnackedSeq := 0
  retxEvent := none
  retxEvents := []
  retxEventCount := 0
  received := ∅
  receivedBytes := 0
  recvTill := 0
  maxSeqNoRecv := 0
  cwndMss := cwndMss
  scoreboardSackBytes := 0
  finished := false
  finishTime := 0
  flowCompletionTime := 0
  own := own
  started := false
  delivered := ∅
  acksSent := []
  acksReceived := []

section Generic

variable (σ : FlowSpec) (f : Flow X)

/-! ### The retransmission timer -/

def setTimeout (time : Time) : Flow X :=
  if f.lastUnackedSeq < σ.size then
    { f with
      retxEvents := f.retxEvents ++ [⟨f.retxEventCount, time, false⟩]
      retxEvent := some f.retxEventCount
      retxEventCount := f.retxEventCount + 1 }
  else f

def cancelRetxEvent : Flow X :=
  { f with
    retxEvents := f.retxEvents.map fun e =>
      if some e.id = f.retxEvent then { e with cancelled := true } else e
    retxEvent := none }

/-- The timer after a new ACK. -/
def moveTimeout (now : Time) : Flow X :=
  if f.retxEvent = none then f
  else
    let f := f.cancelRetxEvent
    if f.lastUnackedSeq < σ.size then f.setTimeout σ (now + σ.retxTimeout) else f

/-- The end of a `RetxTimeoutEvent`: it leaves the event queue and is destroyed. -/
def dropRetxEvent (id : ℕ) : Flow X :=
  { f with
    retxEvents := f.retxEvents.filter (·.id ≠ id)
    retxEvent := if f.retxEvent = some id then none else f.retxEvent }

/-- The event `id` is taken from the event queue at its time, and processed unless it is
cancelled. -/
def fireRetxEvent (handleTimeout : Flow X → Flow X × List P) (now : Time) (id : ℕ) :
    Option (Flow X × List P) :=
  (f.retxEvents.find? fun e => e.id = id ∧ e.time = now).map fun e =>
    let r := if e.cancelled then (f, []) else handleTimeout f
    (r.1.dropRetxEvent id, r.2)

/-- `handle_timeout` of the base class, which calls the `send_pending_data` of the class. -/
def handleTimeoutWith (sendPendingData : Flow X → Flow X × List P) (now : Time) :
    Flow X × List P :=
  let r := sendPendingData { f with nextSeqNo := f.lastUnackedSeq, cwndMss := 1 }
  (r.1.setTimeout σ (now + σ.retxTimeout), r.2)

/-! ### The sender -/

def send (now : Time) (priority seq : ℕ) : Packet where
  type := .normal
  sendingTime := now
  flow := σ.id
  seqNo := seq
  pfPriority := priority
  size :=
    if σ.size < add32 seq σ.mss then add32 (sub32 σ.size seq) σ.hdrSize
    else add32 σ.mss σ.hdrSize
  src := σ.src
  dst := σ.dst

/-- The condition of the loop of `send_pending_data`. -/
def MaySend (window seq : ℕ) : Prop :=
  add32 seq σ.mss ≤ add32 f.lastUnackedSeq window ∧
    (add32 seq σ.mss ≤ σ.size ∨ (seq ≠ σ.size ∧ sub32 σ.size seq < σ.mss))

instance (window seq : ℕ) : Decidable (f.MaySend σ window seq) := by
  unfold MaySend; infer_instance

/-- The sequence number after `seq`. -/
def nextSeq (seq : ℕ) : ℕ := if add32 seq σ.mss < σ.size then add32 seq σ.mss else σ.size

/-- One turn of the loop of `send_pending_data`. -/
def advance (now : Time) (seq : ℕ) : Flow X :=
  let f := { f with nextSeqNo := nextSeq σ seq }
  if f.retxEvent = none then f.setTimeout σ (now + σ.retxTimeout) else f

/-- The loop of `send_pending_data`, for at most so many turns. -/
def sendLoop (now : Time) (window priority : ℕ) : ℕ → ℕ → Flow X → Flow X × List Packet
  | 0, _, f => (f, [])
  | turns + 1, seq, f =>
    if f.MaySend σ window seq then
      let ps := if seq ∈ f.received then [] else [send σ now priority seq]
      let r := sendLoop now window priority turns (nextSeq σ seq) (f.advance σ now seq)
      (r.1, ps ++ r.2)
    else (f, [])

/-- The window is at most `max_cwnd`. -/
def capCwnd : Flow X := if σ.maxCwnd < f.cwndMss then { f with cwndMss := σ.maxCwnd } else f

/-- `increase_cwnd` of the base class. -/
def increaseCwndBase : Flow X := { f with cwndMss := add32 f.cwndMss 1 }.capCwnd σ

/-- What `receive_ack` does with any ACK. -/
def noteAck (ack : ℕ) (sackList : List ℕ) : Flow X :=
  { f with
    acksReceived := f.acksReceived ++ [ack]
    scoreboardSackBytes := mul32 sackList.length σ.mss
    nextSeqNo := if f.nextSeqNo < ack then ack else f.nextSeqNo }

/-- The flow is finished and says so in a `FlowFinishedEvent`. -/
def finish (now : Time) : Flow X :=
  { f with
    finished := true
    finishTime := now
    flowCompletionTime := now - f.startTime }

/-! ### The receiver -/

def sendAck (seq : ℕ) (sackList : List ℕ) : Packet where
  type := .ack
  sendingTime := 0
  flow := σ.id
  seqNo := seq
  size := σ.hdrSize
  src := σ.dst
  dst := σ.src
  sackList := sackList

/-- A segment is handed to the receiver, who counts its bytes if `received` does not have it. -/
def accept (p : Packet) : Flow X :=
  let f := { f with delivered := insert p.seqNo f.delivered }
  if p.seqNo ∈ f.received then f
  else
    { f with
      received := insert p.seqNo f.received
      receivedBytes := add32 f.receivedBytes (sub32 p.size σ.hdrSize) }

/-- The value of `recv_till` after the segment it is at. -/
def nextRecvTill (recvTill : ℕ) : ℕ :=
  if σ.size < add32 recvTill σ.mss then σ.size else add32 recvTill σ.mss

/-- The loop that finds the ACK to send, for at most so many turns: it moves `recv_till` over
the segments in sequence and lists the others. -/
def ackLoop (received : Finset ℕ) (maxSeqNoRecv : ℕ) :
    ℕ → ℕ → ℕ → Bool → List ℕ → ℕ × List ℕ
  | 0, _, recvTill, _, sackList => (recvTill, sackList)
  | turns + 1, s, recvTill, inSequence, sackList =>
    if s ≤ maxSeqNoRecv then
      if s ∈ received then
        if inSequence then
          ackLoop received maxSeqNoRecv turns (add32 s σ.mss) (nextRecvTill σ recvTill) true
            sackList
        else
          ackLoop received maxSeqNoRecv turns (add32 s σ.mss) recvTill false (sackList ++ [s])
      else ackLoop received maxSeqNoRecv turns (add32 s σ.mss) recvTill false sackList
    else (recvTill, sackList)

/-- The answer to the segments received. -/
def acknowledge : Flow X × List Packet :=
  let r := ackLoop σ f.received f.maxSeqNoRecv (f.maxSeqNoRecv + 1) f.recvTill f.recvTill true []
  ({ f with recvTill := r.1, acksSent := f.acksSent ++ [r.1] }, [sendAck σ r.1 r.2])

def receiveDataPkt (p : Packet) : Flow X × List Packet :=
  let f := f.accept σ p
  { f with maxSeqNoRecv := max f.maxSeqNoRecv p.seqNo }.acknowledge σ

end Generic

/-! ### The base class, pFabric and TCP -/

section Base

variable (σ : FlowSpec) (kind : FlowKind) (f : Flow PFabric)

def getPriority : ℕ :=
  if kind = .tcp then 1
  else if σ.flowType = 1 then 1
  else if σ.scheduleByDeadline then σ.deadlinePriority
  else sub32 (sub32 σ.size f.lastUnackedSeq) f.scoreboardSackBytes

def sendPendingData (now : Time) : Flow PFabric × List Packet :=
  if f.receivedBytes < σ.size then
    let window := add32 (mul32 f.cwndMss σ.mss) f.scoreboardSackBytes
    sendLoop σ now window (f.getPriority σ kind) (σ.size + 1) f.nextSeqNo f
  else (f, [])

def increaseCwnd : Flow PFabric :=
  match kind with
  | .pFabric =>
    let f :=
      if f.cwndMss < f.own.ssthresh then { f with cwndMss := add32 f.cwndMss 1 }
      else
        let count := add32 f.own.countAckAdditiveIncrease 1
        if f.cwndMss ≤ count then
          { f with
            own := { f.own with countAckAdditiveIncrease := 0 }
            cwndMss := add32 f.cwndMss 1 }
        else { f with own := { f.own with countAckAdditiveIncrease := count } }
    f.capCwnd σ
  | _ => f.increaseCwndBase σ

/-- What `receive_ack` does with a new ACK. -/
def newAck (now : Time) (ack : ℕ) : Flow PFabric × List Packet :=
  let r := (increaseCwnd σ kind { f with lastUnackedSeq := ack }).sendPendingData σ kind now
  (r.1.moveTimeout σ now, r.2)

def receiveAck (now : Time) (ack : ℕ) (sackList : List ℕ) : Flow PFabric × List Packet :=
  let f := f.noteAck σ ack sackList
  let r := if f.lastUnackedSeq < ack then f.newAck σ kind now ack else (f, [])
  if ack = σ.size ∧ r.1.finished = false then ({ r.1 with received := ∅ }.finish now, r.2) else r

def handleTimeout (now : Time) : Flow PFabric × List Packet :=
  let f :=
    match kind with
    | .pFabric =>
      { f with own := { f.own with ssthresh := if f.cwndMss / 2 < 2 then 2 else f.cwndMss / 2 } }
    | _ => f
  f.handleTimeoutWith σ (fun f => f.sendPendingData σ kind now) now

/-- The two packets of TCP's handshake. -/
def rtsCts (rts : Bool) (now : Time) : Packet where
  type := if rts then .rts else .cts
  sendingTime := now
  flow := σ.id
  seqNo := 0
  size := σ.hdrSize
  src := if rts then σ.src else σ.dst
  dst := if rts then σ.dst else σ.src

def startFlow (now : Time) : Flow PFabric × List Packet :=
  match kind with
  | .tcp => (f, [rtsCts σ true now])
  | _ => f.sendPendingData σ kind now

/-- `receive` of the base class. -/
def receiveBase (now : Time) (p : Packet) : Flow PFabric × List Packet :=
  if f.finished then (f, [])
  else
    match p.type with
    | .ack => f.receiveAck σ kind now p.seqNo p.sackList
    | .normal => f.receiveDataPkt σ p
    | _ => (f, [])

def receive (now : Time) (p : Packet) : Flow PFabric × List Packet :=
  match kind, p.type with
  | .tcp, .rts => (f, [rtsCts σ false now])
  | .tcp, .cts => f.sendPendingData σ kind now
  | _, _ => f.receiveBase σ kind now p

end Base

/-! ### One call at a time -/

variable {σ : FlowSpec} {kind : FlowKind}

lemma setTimeout_frame (f : Flow X) (time : Time) : ∃ r es c, f.setTimeout σ time =
    { f with retxEvent := r, retxEvents := es, retxEventCount := c } := by
  unfold setTimeout
  split_ifs <;> exact ⟨_, _, _, rfl⟩

lemma moveTimeout_frame (f : Flow X) (now : Time) : ∃ r es c, f.moveTimeout σ now =
    { f with retxEvent := r, retxEvents := es, retxEventCount := c } := by
  unfold moveTimeout
  dsimp only
  split_ifs
  · exact ⟨_, _, _, rfl⟩
  · exact f.cancelRetxEvent.setTimeout_frame _
  · exact ⟨_, _, _, rfl⟩

lemma advance_frame (f : Flow X) (now : Time) (seq : ℕ) : ∃ r es c, f.advance σ now seq =
    { f with nextSeqNo := nextSeq σ seq, retxEvent := r, retxEvents := es,
             retxEventCount := c } := by
  unfold advance
  dsimp only
  split_ifs
  · exact setTimeout_frame _ _
  · exact ⟨_, _, _, rfl⟩

lemma sendLoop_frame (now : Time) (window priority turns seq : ℕ) (f : Flow X) :
    ∃ n r es c, (sendLoop σ now window priority turns seq f).1 =
      { f with nextSeqNo := n, retxEvent := r, retxEvents := es, retxEventCount := c } := by
  induction turns generalizing seq f with
  | zero => exact ⟨_, _, _, _, rfl⟩
  | succ turns ih =>
    unfold sendLoop
    by_cases hmay : f.MaySend σ window seq
    · obtain ⟨r, es, c, hadv⟩ := f.advance_frame (σ := σ) now seq
      obtain ⟨n, r', es', c', hflow⟩ := ih (nextSeq σ seq) (f.advance σ now seq)
      exact ⟨n, r', es', c', by rw [if_pos hmay, hflow, hadv]⟩
    · rw [if_neg hmay]
      exact ⟨_, _, _, _, rfl⟩

lemma capCwnd_frame (f : Flow X) : ∃ c, f.capCwnd σ = { f with cwndMss := c } := by
  unfold capCwnd
  split_ifs <;> exact ⟨_, rfl⟩

lemma increaseCwndBase_frame (f : Flow X) : ∃ c, f.increaseCwndBase σ =
    { f with cwndMss := c } :=
  capCwnd_frame { f with cwndMss := add32 f.cwndMss 1 }

lemma increaseCwnd_frame (kind : FlowKind) (f : Flow PFabric) : ∃ c o, f.increaseCwnd σ kind =
    { f with cwndMss := c, own := o } := by
  have hbase : ∃ c o, f.increaseCwndBase σ = { f with cwndMss := c, own := o } := by
    obtain ⟨c, hc⟩ := f.increaseCwndBase_frame (σ := σ)
    exact ⟨c, f.own, hc⟩
  cases kind with
  | flow => exact hbase
  | tcp => exact hbase
  | pFabric =>
    simp only [increaseCwnd]
    split_ifs
    all_goals
      obtain ⟨c, hc⟩ := capCwnd_frame _
      exact ⟨c, _, hc⟩

lemma accept_frame (f : Flow X) (p : Packet) : ∃ r b, f.accept σ p =
    { f with
      received := r
      receivedBytes := b
      delivered := insert p.seqNo f.delivered } ∧ r ⊆ insert p.seqNo f.received := by
  unfold accept
  dsimp only
  split_ifs
  · exact ⟨_, _, rfl, Finset.subset_insert _ _⟩
  · exact ⟨_, _, rfl, subset_rfl⟩

@[simp] lemma accept_received (f : Flow X) (p : Packet) :
    (f.accept σ p).received = insert p.seqNo f.received := by
  unfold accept
  dsimp only
  split_ifs with hmem
  · exact (Finset.insert_eq_of_mem hmem).symm
  · rfl

@[simp] lemma accept_maxSeqNoRecv (f : Flow X) (p : Packet) :
    (f.accept σ p).maxSeqNoRecv = f.maxSeqNoRecv := by
  unfold accept
  dsimp only
  split_ifs <;> rfl

@[simp] lemma accept_recvTill (f : Flow X) (p : Packet) :
    (f.accept σ p).recvTill = f.recvTill := by
  unfold accept
  dsimp only
  split_ifs <;> rfl

/-- A sequence number at which a segment starts, or the end of the flow. -/
def Boundary (σ : FlowSpec) (seq : ℕ) : Prop := σ.mss ∣ seq ∨ seq = σ.size

lemma nextSeq_le (seq : ℕ) : nextSeq σ seq ≤ σ.size := by
  unfold nextSeq
  split_ifs <;> omega

lemma Boundary.dvd {seq : ℕ} (h : Boundary σ seq) (hlt : seq < σ.size) : σ.mss ∣ seq :=
  h.resolve_right (by omega)

structure Acked (σ : FlowSpec) (D : Finset ℕ) (a : ℕ) : Prop where
  le : a ≤ σ.size
  boundary : Boundary σ a
  covers : Covers σ.mss D a

lemma Acked.mono {D E : Finset ℕ} {a : ℕ} (h : Acked σ D a) (hDE : D ⊆ E) : Acked σ E a :=
  ⟨h.le, h.boundary, h.covers.mono hDE⟩

section Loop

variable (hsize : σ.size + σ.mss < 4294967296)
include hsize

lemma add32_mss {seq : ℕ} (hseq : seq ≤ σ.size) : add32 seq σ.mss = seq + σ.mss :=
  add32_eq (by omega)

lemma MaySend.lt {f : Flow X} {window seq : ℕ} (h : f.MaySend σ window seq)
    (hseq : seq ≤ σ.size) : seq < σ.size := by
  have hm := σ.mss_pos
  rcases h.2 with h | ⟨h, -⟩
  · rw [add32_mss hsize hseq] at h
    omega
  · omega

lemma Boundary.nextSeq {seq : ℕ} (h : Boundary σ seq) (hlt : seq < σ.size) :
    Boundary σ (nextSeq σ seq) := by
  unfold Flow.nextSeq
  split_ifs
  · rw [add32_mss hsize hlt.le]
    exact .inl ((Nat.dvd_add_right (h.dvd hlt)).mpr dvd_rfl)
  · exact .inr rfl

lemma Acked.next {D : Finset ℕ} {a : ℕ} (h : Acked σ D a) (hlt : a < σ.size) (hD : a ∈ D) :
    Acked σ D (nextRecvTill σ a) := by
  have hdvd := h.boundary.dvd hlt
  have hcov := h.covers.succ hdvd hD
  rw [nextRecvTill, add32_mss hsize hlt.le]
  split_ifs with hend
  · exact ⟨le_rfl, .inr rfl, hcov.le hend.le⟩
  · exact ⟨not_lt.mp hend, .inl ((Nat.dvd_add_right hdvd).mpr dvd_rfl), hcov⟩

lemma send_payload (now : Time) (priority : ℕ) {s : ℕ} (hs : s ≤ σ.size) :
    sub32 (send σ now priority s).size σ.hdrSize = payload σ.mss σ.size s := by
  have hm := σ.mss_lt
  have hh := σ.hdrSize_lt
  unfold send payload
  dsimp only
  rw [add32_mss hsize hs, sub32_eq σ.size_lt hs]
  split_ifs
  · rw [sub32_add32 (by omega) hh]
    omega
  · rw [sub32_add32 hm hh]
    omega

/-- **The loop of `send_pending_data`**: it moves `next_seq_no` from boundary to boundary, may
start the timer, and sends segments of the flow. -/
theorem sendLoop_spec (now : Time) (window priority turns seq : ℕ) (f : Flow X)
    (hseq : seq ≤ σ.size) :
    (∃ n r es c, (sendLoop σ now window priority turns seq f).1 =
        { f with nextSeqNo := n, retxEvent := r, retxEvents := es, retxEventCount := c } ∧
      (n = f.nextSeqNo ∨ n ≤ σ.size ∧ (Boundary σ seq → Boundary σ n))) ∧
    ∀ p ∈ (sendLoop σ now window priority turns seq f).2, ∃ s < σ.size,
      p = send σ now priority s ∧ (Boundary σ seq → σ.mss ∣ s) := by
  induction turns generalizing seq f with
  | zero => exact ⟨⟨_, _, _, _, rfl, .inl rfl⟩, by simp [sendLoop]⟩
  | succ turns ih =>
    unfold sendLoop
    by_cases hmay : f.MaySend σ window seq
    · rw [if_pos hmay]
      have hlt := hmay.lt hsize hseq
      have hnext := nextSeq_le (σ := σ) seq
      obtain ⟨r, es, c, hadv⟩ := f.advance_frame (σ := σ) now seq
      obtain ⟨⟨n, r', es', c', hflow, hn⟩, hps⟩ :=
        ih (nextSeq σ seq) (f.advance σ now seq) hnext
      refine ⟨⟨n, r', es', c', by rw [hflow, hadv], ?_⟩, fun p hp => ?_⟩
      · rw [hadv] at hn
        rcases hn with rfl | ⟨hle, hb⟩
        · exact .inr ⟨hnext, fun hb => hb.nextSeq hsize hlt⟩
        · exact .inr ⟨hle, fun h => hb (h.nextSeq hsize hlt)⟩
      · rcases List.mem_append.mp hp with hp | hp
        · have hp' : p = send σ now priority seq := by
            split_ifs at hp
            · cases hp
            · exact List.mem_singleton.mp hp
          exact ⟨seq, hlt, hp', fun h => h.dvd hlt⟩
        · obtain ⟨s, hs, rfl, hdvd⟩ := hps p hp
          exact ⟨s, hs, rfl, fun h => hdvd (h.nextSeq hsize hlt)⟩
    · rw [if_neg hmay]
      exact ⟨⟨_, _, _, _, rfl, .inl rfl⟩, by simp⟩

theorem sendLoop_turns (now : Time) (window priority turns seq : ℕ) (f : Flow X)
    (hseq : seq ≤ σ.size) (hturns : σ.size < seq + turns) :
    sendLoop σ now window priority (turns + 1) seq f =
      sendLoop σ now window priority turns seq f := by
  induction turns generalizing seq f with
  | zero => omega
  | succ turns ih =>
    rw [sendLoop]
    conv_rhs => rw [sendLoop]
    by_cases hmay : f.MaySend σ window seq
    · have hlt := hmay.lt hsize hseq
      have hm := σ.mss_pos
      have hnext : seq < nextSeq σ seq := by
        unfold nextSeq
        rw [add32_mss hsize hseq]
        split_ifs <;> omega
      rw [if_pos hmay, if_pos hmay, ih _ (f.advance σ now seq) (nextSeq_le seq) (by omega)]
    · rw [if_neg hmay, if_neg hmay]

end Loop

end Flow

/-- What a flow does of its own: it arrives, once, or a timer of it runs out. -/
inductive FlowInput
  | start
  | retxTimeout (id : ℕ)
  deriving DecidableEq

/-- What the flow does of its own, from what its class does at its arrival and at a timeout. -/
def Flow.input {X P : Type} (startFlow handleTimeout : Time → Flow X → Flow X × List P)
    (now : Time) (i : FlowInput) (f : Flow X) : Option (Flow X × List P) :=
  match i with
  | .start => if f.started then none else some (startFlow now { f with started := true })
  | .retxTimeout id => f.fireRetxEvent (handleTimeout now) now id

/-- **What a flow can do of its own**. -/
lemma Flow.input_cases {X P : Type} {startFlow handleTimeout : Time → Flow X → Flow X × List P}
    {now : Time} {i : FlowInput} {f : Flow X} {r : Flow X × List P}
    (h : Flow.input startFlow handleTimeout now i f = some r) :
    (f.started = false ∧ r = startFlow now { f with started := true }) ∨
    (∃ id, r = (f.dropRetxEvent id, [])) ∨
    ∃ id, r = ((handleTimeout now f).1.dropRetxEvent id, (handleTimeout now f).2) := by
  cases i with
  | start =>
    obtain ⟨hstarted, h⟩ := Option.ite_none_left_eq_some.mp h
    exact .inl ⟨Bool.eq_false_iff.mpr hstarted, (Option.some.inj h).symm⟩
  | retxTimeout id =>
    obtain ⟨e, -, rfl⟩ := Option.map_eq_some_iff.mp h
    dsimp only
    split_ifs
    · exact .inr (.inl ⟨id, rfl⟩)
    · exact .inr (.inr ⟨id, rfl⟩)

/-- A flow with the network between its two ends; a TCP flow starts with a window of one
packet. -/
def Flow.party (σ : FlowSpec) (kind : FlowKind) :
    LossyNet.Party (Flow PFabric) Packet Time FlowInput where
  init := .new σ (if kind = .tcp then 1 else σ.initialCwnd) ⟨100000, 0⟩
  input := Flow.input (fun now f => f.startFlow σ kind now) fun now f => f.handleTimeout σ kind now
  receive now p f := f.receive σ kind now p

end DcSim
