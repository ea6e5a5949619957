import DcSim.EventQueue
import DcSim.Packet
import DcSim.Word32

/-!
The queue of an SNS link, without preemption.

A `QueueProcessingEvent` begins the transmission of a packet and comes again when it is over,
for as long as there are packets. The SIMs wait apart from the other packets, until a
`SnsQueueProcessingEvent` finds a token for one. That the link is idle is seen in two ways: an
arriving packet looks at `busy`, a SIM that is let go at `queue_proc_event`, which is kept as the
number of the event it points to.
-/

namespace DcSim

open Word32

inductive QueueEvent | queueProcessing | snsQueueProcessing | fillTokenBucket
  deriving DecidableEq

structure SnsQueueSpec where
  -- `paramB` is `param_b` as an `int`.
  params : SnsParams
  snsFlow : Bool
  paramB : ℤ
  rate : ℚ
  limitBytes : ℕ

namespace SnsQueueSpec

variable (K : SnsQueueSpec)

def getTransmissionDelay (p : Packet) : Time := p.size * 8 / K.rate

/-- How many SIMs can wait: `sim_queue_size`, compared as a `size_t`. -/
def simQueueSize : ℤ := K.paramB % 18446744073709551616

def tokenTime : Time := K.params.hdrSize * 8 / (K.rate / K.params.snsSimulationFrqSize)

end SnsQueueSpec

structure Transmission where
  -- A packet on the link, and when its first and its last bit are sent.
  packet : Packet
  start : Time
  finish : Time

structure SnsQueue where
  packets : List Packet
  bytesInQueue : ℕ
  simPackets : List Packet
  busy : Bool
  queueProcEvent : Option ℕ
  freeTokens : ℕ
  tokenBucketRun : Bool
  events : EventQueue Time QueueEvent

namespace SnsQueue

def init : SnsQueue := ⟨[], 0, [], false, none, 0, false, .empty⟩

variable (K : SnsQueueSpec) (Q : SnsQueue) (now : Time) (p : Packet)

def addEvent (time : Time) (e : QueueEvent) : SnsQueue :=
  { Q with events := Q.events.add time e }

/-- A new `QueueProcessingEvent`, which the queue points to. -/
def newQueueProcEvent (time : Time) : SnsQueue :=
  { Q.addEvent time .queueProcessing with queueProcEvent := some Q.events.count }

/-- `Queue::enque` -/
def queueEnque : SnsQueue :=
  if add32 Q.bytesInQueue p.size ≤ K.limitBytes ∧ p.size ≠ 4294967295 then
    { Q with
      packets := Q.packets ++ [p]
      bytesInQueue := add32 Q.bytesInQueue p.size }
  else Q

def startTokenBucket : SnsQueue :=
  if K.snsFlow ∧ Q.tokenBucketRun = false then
    { Q.addEvent (now + infinitesimalTime) .fillTokenBucket with tokenBucketRun := true }
  else Q

def enqueSim : SnsQueue :=
  if (Q.simPackets.length : ℤ) < K.simQueueSize ∧ p.size ≠ 4294967295 then
    { Q with simPackets := Q.simPackets ++ [p] }.addEvent (now + infinitesimalTime)
      .snsQueueProcessing
  else Q

def enque : SnsQueue :=
  let Q := Q.startTokenBucket K now
  if p.snsType ≠ .sim then Q.queueEnque K p else Q.enqueSim K now p

/-- `SnsQueue::deque`. A SIM is looked for first, but the search for a SIM_ACK after it
overwrites what was found. -/
def deque : Option (Packet × SnsQueue) :=
  if 0 < Q.bytesInQueue then
    (takeByPriority [.simAck, .sim, .dataAck, .data] Q.packets).map fun (p, ps) =>
      (p, { Q with packets := ps, bytesInQueue := sub32 Q.bytesInQueue p.size })
  else none

/-- `PacketQueuingEvent::process_event` -/
def packetQueuing : SnsQueue :=
  let Q := if Q.busy then Q else { Q.newQueueProcEvent now with busy := true }
  Q.enque K now p

/-- `QueueProcessingEvent::process_event`, and the transmission it begins. -/
def queueProcessing : SnsQueue × Option Transmission :=
  match Q.deque with
  | some (p, Q) =>
    let td := K.getTransmissionDelay p
    ({ Q.newQueueProcEvent (now + td) with busy := true }, some ⟨p, now, now + td⟩)
  | none => ({ Q with busy := false, queueProcEvent := none }, none)

/-- The destructor of a `QueueProcessingEvent`. -/
def destroyQueueProcEvent (id : ℕ) : SnsQueue :=
  if Q.queueProcEvent = some id then { Q with queueProcEvent := none, busy := false } else Q

def addToken : SnsQueue :=
  if Q.freeTokens < 2 then { Q with freeTokens := Q.freeTokens + 1 } else Q

/-- `FillTokenBucketEvent::process_event` -/
def fillTokenBucket : SnsQueue :=
  let Q := Q.addToken.addEvent (now + K.tokenTime) .fillTokenBucket
  if Q.freeTokens = 1 then Q.addEvent (now + infinitesimalTime) .snsQueueProcessing else Q

/-- A SIM for which there is a token goes to the other packets. -/
def releaseSim (sims : List Packet) : SnsQueue :=
  { Q with freeTokens := Q.freeTokens - 1, simPackets := sims }.queueEnque K p

/-- `SnsQueueProcessingEvent::process_event` -/
def snsQueueProcessing : SnsQueue :=
  match Q.simPackets with
  | [] => Q
  | p :: sims =>
    if Q.freeTokens < 1 then Q
    else
      let Q := Q.releaseSim K p sims
      if Q.queueProcEvent = none then Q.newQueueProcEvent (now + K.getTransmissionDelay p) else Q

/-- The event `id` is processed at its time and destroyed. -/
def process (id : ℕ) : QueueEvent → SnsQueue × Option Transmission
  | .queueProcessing =>
    let r := Q.queueProcessing K now
    (r.1.destroyQueueProcEvent id, r.2)
  | .snsQueueProcessing => (Q.snsQueueProcessing K now, none)
  | .fillTokenBucket => (Q.fillTokenBucket K now, none)

/-! ### The server of the queue -/

/-- The pending `QueueProcessingEvent`s. -/
def services : List (QueuedEvent Time QueueEvent) := Q.events.ofKind .queueProcessing

structure SameServer (Q R : SnsQueue) : Prop where
  services : R.services = Q.services
  queueProcEvent : R.queueProcEvent = Q.queueProcEvent
  busy : R.busy = Q.busy
  fresh : Q.events.Fresh → R.events.Fresh

variable {Q K now p}

@[simp] lemma services_newQueueProcEvent (time : Time) : (Q.newQueueProcEvent time).services =
    Q.services ++ [⟨Q.events.count, time, .queueProcessing⟩] :=
  EventQueue.ofKind_add _ _ _

lemma SameServer.rfl : SameServer Q Q := ⟨.refl _, .refl _, .refl _, id⟩

lemma SameServer.trans {R S : SnsQueue} (h : SameServer Q R) (h' : SameServer R S) :
    SameServer Q S :=
  ⟨h'.services.trans h.services, h'.queueProcEvent.trans h.queueProcEvent, h'.busy.trans h.busy,
    h'.fresh ∘ h.fresh⟩

lemma SameServer.addEvent (time : Time) {e : QueueEvent} (he : e ≠ .queueProcessing) :
    SameServer Q (Q.addEvent time e) :=
  ⟨EventQueue.ofKind_add_ne _ _ he, .refl _, .refl _, fun h => h.add _ _⟩

lemma SameServer.take? {id : ℕ} {e : QueuedEvent Time QueueEvent}
    {q : EventQueue Time QueueEvent} (hq : Q.events.take? id = some (e, q))
    (he : e.kind ≠ .queueProcessing) : SameServer Q { Q with events := q } :=
  ⟨EventQueue.ofKind_take?_ne hq he, .refl _, .refl _, fun h => (h.take? hq).2⟩

lemma SameServer.queueEnque : SameServer Q (Q.queueEnque K p) := by
  unfold SnsQueue.queueEnque
  split_ifs
  · exact ⟨.refl _, .refl _, .refl _, id⟩
  · exact .rfl

lemma SameServer.startTokenBucket : SameServer Q (Q.startTokenBucket K now) := by
  unfold SnsQueue.startTokenBucket
  split_ifs
  · exact ⟨EventQueue.ofKind_add_ne _ _ (by simp), .refl _, .refl _, fun h => h.add _ _⟩
  · exact .rfl

lemma SameServer.enqueSim : SameServer Q (Q.enqueSim K now p) := by
  unfold SnsQueue.enqueSim
  split_ifs
  · exact ⟨EventQueue.ofKind_add_ne _ _ (by simp), .refl _, .refl _, fun h => h.add _ _⟩
  · exact .rfl

lemma SameServer.enque : SameServer Q (Q.enque K now p) := by
  unfold SnsQueue.enque
  dsimp only
  split_ifs
  · exact SameServer.startTokenBucket.trans .queueEnque
  · exact SameServer.startTokenBucket.trans .enqueSim

lemma SameServer.fillTokenBucket : SameServer Q (Q.fillTokenBucket K now) := by
  have htoken : SameServer Q Q.addToken := by
    unfold addToken
    split_ifs
    · exact ⟨.refl _, .refl _, .refl _, id⟩
    · exact .rfl
  have hnext : SameServer Q (Q.addToken.addEvent (now + K.tokenTime) .fillTokenBucket) :=
    htoken.trans (.addEvent _ (by simp))
  unfold SnsQueue.fillTokenBucket
  dsimp only
  split_ifs
  · exact hnext.trans (.addEvent _ (by simp))
  · exact hnext

variable (K Q now)

lemma snsQueueProcessing_cases :
    (¬ (1 ≤ Q.freeTokens ∧ Q.simPackets ≠ []) ∧ Q.snsQueueProcessing K now = Q) ∨
    (1 ≤ Q.freeTokens ∧ Q.simPackets ≠ [] ∧ Q.queueProcEvent ≠ none ∧
      SameServer Q (Q.snsQueueProcessing K now)) ∨
    (1 ≤ Q.freeTokens ∧ Q.simPackets ≠ [] ∧ Q.queueProcEvent = none ∧
      ∃ R time, SameServer Q R ∧ Q.snsQueueProcessing K now = R.newQueueProcEvent time) := by
  unfold snsQueueProcessing
  split
  case h_1 hsims => exact .inl ⟨fun h => h.2 hsims, rfl⟩
  case h_2 p sims hsims =>
    have hrelease : SameServer Q (Q.releaseSim K p sims) :=
      (show SameServer Q { Q with freeTokens := Q.freeTokens - 1, simPackets := sims } from
        ⟨.refl _, .refl _, .refl _, id⟩).trans .queueEnque
    have hne : Q.simPackets ≠ [] := hsims ▸ List.cons_ne_nil p sims
    dsimp only
    split_ifs with htokens hnone
    · exact .inl ⟨fun h => absurd h.1 (not_le.mpr htokens), rfl⟩
    · exact .inr (.inr ⟨not_lt.mp htokens, hne, hrelease.queueProcEvent.symm.trans hnone, _, _,
        hrelease, rfl⟩)
    · exact .inr (.inl ⟨not_lt.mp htokens, hne, hrelease.queueProcEvent ▸ hnone, hrelease⟩)

lemma queueProcessing_cases :
    (∃ p, ∃ R : SnsQueue, R.events = Q.events ∧ Q.queueProcessing K now =
      ({ R.newQueueProcEvent (now + K.getTransmissionDelay p) with busy := true },
        some ⟨p, now, now + K.getTransmissionDelay p⟩)) ∨
    Q.queueProcessing K now = ({ Q with busy := false, queueProcEvent := none }, none) := by
  unfold queueProcessing
  split
  case h_1 p R hdeque =>
    refine .inl ⟨p, R, ?_, rfl⟩
    unfold deque at hdeque
    split_ifs at hdeque
    obtain ⟨⟨p, ps⟩, -, h⟩ := Option.map_eq_some_iff.mp hdeque
    obtain ⟨rfl, rfl⟩ := Prod.mk.inj h
    rfl
  case h_2 => exact .inr rfl

variable {K Q now}

/-! ### The bytes of the queue -/

structure Counted (Q : SnsQueue) : Prop where
  bytes : Q.bytesInQueue = (Q.packets.map (·.size)).sum % 4294967296
  size : ∀ p ∈ Q.packets, p.size < 4294967296
  simSize : ∀ p ∈ Q.simPackets, p.size < 4294967296

lemma size_append {ps : List Packet} (hps : ∀ q ∈ ps, q.size < 4294967296)
    (hp : p.size < 4294967296) : ∀ q ∈ ps ++ [p], q.size < 4294967296 :=
  List.forall_mem_append.mpr ⟨hps, List.forall_mem_singleton.mpr hp⟩

lemma Counted.queueEnque (hQ : Counted Q) (hp : p.size < 4294967296) :
    Counted (Q.queueEnque K p) := by
  unfold SnsQueue.queueEnque
  split_ifs
  · refine ⟨?_, size_append hQ.size hp, hQ.simSize⟩
    simp only [List.map_append, List.map_cons, List.map_nil, List.sum_append, List.sum_singleton]
    rw [hQ.bytes, add32_mod]
  · exact hQ

lemma Counted.enque (hQ : Counted Q) (hp : p.size < 4294967296) : Counted (Q.enque K now p) := by
  have hstart : Counted (Q.startTokenBucket K now) := by
    unfold startTokenBucket
    split_ifs
    · exact ⟨hQ.bytes, hQ.size, hQ.simSize⟩
    · exact hQ
  unfold SnsQueue.enque
  dsimp only
  split_ifs
  · exact hstart.queueEnque hp
  · unfold enqueSim
    split_ifs
    · exact ⟨hstart.bytes, hstart.size, size_append hstart.simSize hp⟩
    · exact hstart

lemma Counted.packetQueuing (hQ : Counted Q) (hp : p.size < 4294967296) :
    Counted (Q.packetQueuing K now p) := by
  unfold SnsQueue.packetQueuing
  dsimp only
  split_ifs
  · exact hQ.enque hp
  · exact Counted.enque ⟨hQ.bytes, hQ.size, hQ.simSize⟩ hp

lemma Counted.deque (hQ : Counted Q) {R : SnsQueue} (h : Q.deque = some (p, R)) : Counted R := by
  unfold SnsQueue.deque at h
  split_ifs at h
  obtain ⟨⟨p, ps⟩, htake, h⟩ := Option.map_eq_some_iff.mp h
  obtain ⟨rfl, rfl⟩ := Prod.mk.inj h
  have hperm := takeByPriority_perm htake
  have hp := hQ.size p (hperm.mem_iff.mpr List.mem_cons_self)
  refine ⟨?_, fun q hq => hQ.size q (hperm.mem_iff.mpr (List.mem_cons_of_mem _ hq)), hQ.simSize⟩
  have hsum := (hperm.map (·.size)).sum_nat
  rw [List.map_cons, List.sum_cons] at hsum
  simp only [hQ.bytes, hsum]
  unfold sub32
  omega

lemma Counted.queueProcessing (hQ : Counted Q) : Counted (Q.queueProcessing K now).1 := by
  unfold SnsQueue.queueProcessing
  split
  case h_1 p R hdeque =>
    have hR := hQ.deque hdeque
    exact ⟨hR.bytes, hR.size, hR.simSize⟩
  case h_2 => exact ⟨hQ.bytes, hQ.size, hQ.simSize⟩

lemma Counted.fillTokenBucket (hQ : Counted Q) : Counted (Q.fillTokenBucket K now) := by
  unfold SnsQueue.fillTokenBucket addToken
  dsimp only
  split_ifs <;> exact ⟨hQ.bytes, hQ.size, hQ.simSize⟩

lemma Counted.snsQueueProcessing (hQ : Counted Q) : Counted (Q.snsQueueProcessing K now) := by
  unfold SnsQueue.snsQueueProcessing
  split
  case h_1 => exact hQ
  case h_2 p sims hsims =>
    have hrelease : Counted (Q.releaseSim K p sims) := by
      obtain ⟨hp, hrest⟩ := List.forall_mem_cons.mp (hsims ▸ hQ.simSize)
      exact Counted.queueEnque ⟨hQ.bytes, hQ.size, hrest⟩ hp
    dsimp only
    split_ifs
    · exact hQ
    · exact ⟨hrelease.bytes, hrelease.size, hrelease.simSize⟩
    · exact hrelease

lemma Counted.process (hQ : Counted Q) (id : ℕ) (e : QueueEvent) :
    Counted (Q.process K now id e).1 := by
  cases e with
  | queueProcessing =>
    have hR : Counted (Q.queueProcessing K now).1 := hQ.queueProcessing
    unfold SnsQueue.process destroyQueueProcEvent
    dsimp only
    split_ifs
    · exact ⟨hR.bytes, hR.size, hR.simSize⟩
    · exact hR
  | snsQueueProcessing => exact hQ.snsQueueProcessing
  | fillTokenBucket => exact hQ.fillTokenBucket

lemma Counted.deque_eq_none_iff (hQ : Counted Q) : Q.deque = none ↔ Q.bytesInQueue = 0 := by
  unfold SnsQueue.deque
  split_ifs with h
  · refine iff_of_false (fun hnone => ?_) h.ne'
    have hps := takeByPriority_eq_none (Option.map_eq_none_iff.mp hnone)
    have hbytes := hQ.bytes
    rw [hps] at hbytes
    exact absurd hbytes h.ne'
  · exact iff_of_true rfl (Nat.eq_zero_of_not_pos h)

end SnsQueue

end DcSim
