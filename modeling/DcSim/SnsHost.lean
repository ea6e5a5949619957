import DcSim.EventQueue
import DcSim.SnsFlow
import Mathlib.Logic.Function.Basic

/-!
The SNS hosts and their events.

A host keeps the packets its flows gave it and hands them to the queue of its NIC one at a
time: a `SnsSendPacketProcessingEvent` sends one packet and makes the next such event, for as
long as there are packets. `host_proc_sns_send_packet_event` is kept as the number of the event
it points to.
-/

namespace DcSim

/-- The events of a host that touch its packets. -/
inductive HostEvent
  /-- `SnsSendPacketProcessingEvent` -/
  | sendPacket (h : HostId)
  /-- `SnsAddToPktToBeSentEvt` -/
  | addToPktToBeSent (h : HostId) (p : Packet)
  /-- `SnsSimulationHostProcessingEvent` -/
  | simHostProc (h : HostId)
  deriving DecidableEq

structure SnsHost where
  packetsToBeSent : List Packet
  simsToBeSent : List Packet
  hostProcSnsSendPacketEvent : Option ℕ

structure SnsHosts where
  host : HostId → SnsHost
  events : EventQueue Time HostEvent

namespace SnsHosts

def init : SnsHosts := ⟨fun _ => ⟨[], [], none⟩, .empty⟩

variable (P : SnsParams) (rate : HostId → ℚ) (H : SnsHosts) (h : HostId) (now : Time)

def modify (g : SnsHost → SnsHost) : SnsHosts :=
  { H with host := Function.update H.host h (g (H.host h)) }

/-- A new `SnsSendPacketProcessingEvent`, which the host points to. -/
def newSendPacketEvent (time : Time) : SnsHosts :=
  { host := (H.modify h fun n => { n with hostProcSnsSendPacketEvent := some H.events.count }).host
    events := H.events.add time (.sendPacket h) }

/-- A new `SnsSendPacketProcessingEvent` if the host points to none. -/
def ensureSendPacketEvent (time : Time) : SnsHosts :=
  if (H.host h).hostProcSnsSendPacketEvent = none then H.newSendPacketEvent h time else H

def pushPacket (p : Packet) : SnsHosts :=
  H.modify h fun n => { n with packetsToBeSent := n.packetsToBeSent ++ [p] }

/-- What a flow does to its hosts and their events. The event of `simHostProc` comes after the
time that all SIMs of the host take. -/
def perform (H : SnsHosts) : HostCall → SnsHosts
  | .pushSim h p => H.modify h fun n => { n with simsToBeSent := n.simsToBeSent ++ [p] }
  | .pushPacket h p => H.pushPacket h p
  | .sendPacketEvt h time => H.ensureSendPacketEvent h time
  | .addToPktToBeSent h time p =>
    { H with events := H.events.add time (.addToPktToBeSent h p) }
  | .simHostProc h time =>
    let needToWait := max P.tdSim ((H.host h).simsToBeSent.length * P.tdSim)
    { H with events := H.events.add (time + needToWait + infinitesimalTime) (.simHostProc h) }
  | .hostProc _ _ => H
  | .flowFinished _ => H

def performAll (calls : List HostCall) : SnsHosts := calls.foldl (perform P) H

/-- `get_sim_or_sim_ack`; its `sim_turn` is always true. -/
def getSimOrSimAck (ps : List Packet) : Option (Packet × List Packet) :=
  takeByPriority [.sim, .simAck, .dataAck, .data] ps

/-- `move_packets_to_queue`, and the packet it gives to the queue of the NIC. -/
def movePacketsToQueue : SnsHosts × List Packet :=
  match getSimOrSimAck (H.host h).packetsToBeSent with
  | none => (H, [])
  | some (p, rest) =>
    ((H.modify h fun n => { n with packetsToBeSent := rest }).newSendPacketEvent h
      (now + p.size * 8 / rate h), [{ p with sendingTime := now }])

def moveSimToPackets : SnsHosts :=
  match (H.host h).simsToBeSent with
  | [] => H
  | p :: sims =>
    (H.modify h fun n =>
      { n with
        simsToBeSent := sims
        packetsToBeSent := n.packetsToBeSent ++ [p] }).ensureSendPacketEvent h now

/-- The event `id` is processed at its time and destroyed. -/
def process (id : ℕ) : HostEvent → SnsHosts × List Packet
  | .sendPacket h =>
    let r := (H.modify h fun n => { n with hostProcSnsSendPacketEvent := none }).movePacketsToQueue
      rate h now
    (r.1.modify h fun n =>
      if n.hostProcSnsSendPacketEvent = some id then { n with hostProcSnsSendPacketEvent := none }
      else n, r.2)
  | .addToPktToBeSent h p => (H.pushPacket h p, [])
  | .simHostProc h => (H.moveSimToPackets h now, [])

/-! ### Which host is served -/

/-- The pending `SnsSendPacketProcessingEvent`s of a host. -/
def sends : List ℕ := H.events.pending (.sendPacket h)

structure Tracked (H : SnsHosts) : Prop where
  sends : ∀ h, H.events.Tracks (.sendPacket h) (H.host h).hostProcSnsSendPacketEvent
  fresh : H.events.Fresh

/-- A host with packets points to a `SnsSendPacketProcessingEvent`. -/
def Served : Prop :=
  (H.host h).packetsToBeSent ≠ [] → (H.host h).hostProcSnsSendPacketEvent ≠ none

variable {H h P rate now}

lemma tracked_init : Tracked init := ⟨fun _ => .empty, EventQueue.fresh_empty⟩

@[simp] lemma modify_host_self (g : SnsHost → SnsHost) : (H.modify h g).host h = g (H.host h) := by
  simp [modify]

@[simp] lemma modify_events (g : SnsHost → SnsHost) : (H.modify h g).events = H.events := rfl

lemma modify_host_ne (g : SnsHost → SnsHost) {k : HostId} (hk : k ≠ h) :
    (H.modify h g).host k = H.host k := by
  simp [modify, hk]

lemma Tracked.modify (hT : Tracked H) {g : SnsHost → SnsHost}
    (hg : (g (H.host h)).hostProcSnsSendPacketEvent = (H.host h).hostProcSnsSendPacketEvent) :
    Tracked (H.modify h g) := by
  refine ⟨fun k => ?_, hT.fresh⟩
  rcases eq_or_ne k h with rfl | hk
  · rw [modify_host_self, hg]
    exact hT.sends k
  · rw [modify_host_ne g hk]
    exact hT.sends k

lemma Tracked.add (hT : Tracked H) (time : Time) {e : HostEvent} (he : ∀ h, e ≠ .sendPacket h) :
    Tracked { H with events := H.events.add time e } :=
  ⟨fun h => (hT.sends h).add_ne time (he h), hT.fresh.add _ _⟩

lemma newSendPacketEvent_host_ne (time : Time) {k : HostId} (hk : k ≠ h) :
    (H.newSendPacketEvent h time).host k = H.host k := by
  simp [newSendPacketEvent, modify, hk]

lemma Tracked.newSendPacketEvent (hT : Tracked H) (time : Time)
    (hnone : (H.host h).hostProcSnsSendPacketEvent = none) :
    Tracked (H.newSendPacketEvent h time) := by
  refine ⟨fun k => ?_, hT.fresh.add _ _⟩
  rcases eq_or_ne k h with rfl | hk
  · simp only [SnsHosts.newSendPacketEvent, modify_host_self]
    exact (hnone ▸ hT.sends k).add time
  · rw [newSendPacketEvent_host_ne time hk]
    exact (hT.sends k).add_ne time (by simpa using hk.symm)

lemma Tracked.ensureSendPacketEvent (hT : Tracked H) (time : Time) :
    Tracked (H.ensureSendPacketEvent h time) := by
  unfold SnsHosts.ensureSendPacketEvent
  split_ifs with hnone
  · exact hT.newSendPacketEvent time hnone
  · exact hT

lemma Tracked.perform (hT : Tracked H) (c : HostCall) : Tracked (H.perform P c) := by
  cases c with
  | pushSim h p =>
    unfold SnsHosts.perform
    exact hT.modify rfl
  | pushPacket h p =>
    unfold SnsHosts.perform pushPacket
    exact hT.modify rfl
  | sendPacketEvt h time => exact hT.ensureSendPacketEvent time
  | addToPktToBeSent h time p => exact hT.add time (by simp)
  | simHostProc h time => exact hT.add _ (by simp)
  | hostProc => exact hT
  | flowFinished => exact hT

lemma Tracked.performAll (hT : Tracked H) (calls : List HostCall) :
    Tracked (H.performAll P calls) := by
  induction calls generalizing H with
  | nil => exact hT
  | cons c calls ih => exact ih (hT.perform c)

/-- **One event at a time**: what an event does leaves each host pointing to the one
`SnsSendPacketProcessingEvent` it has, if any. -/
theorem Tracked.process {q : EventQueue Time HostEvent} {id : ℕ}
    {e : QueuedEvent Time HostEvent} (hT : Tracked H) (hq : H.events.take? id = some (e, q)) :
    Tracked (({ H with events := q } : SnsHosts).process rate now id e.kind).1 := by
  obtain ⟨hlt, hfresh⟩ := hT.fresh.take? hq
  have hcount := EventQueue.take?_count hq
  cases hk : e.kind with
  | addToPktToBeSent h p =>
    have hkeep : Tracked { H with events := q } :=
      ⟨fun k => (hT.sends k).take?_ne hq (by simp [hk]), hfresh⟩
    simp only [SnsHosts.process, pushPacket]
    exact hkeep.modify rfl
  | simHostProc h =>
    have hkeep : Tracked { H with events := q } :=
      ⟨fun k => (hT.sends k).take?_ne hq (by simp [hk]), hfresh⟩
    simp only [SnsHosts.process, moveSimToPackets]
    split
    · exact hkeep
    · refine Tracked.ensureSendPacketEvent (hkeep.modify ?_) now
      rfl
  | sendPacket h =>
    -- this was the one event of the host, so it has none that is still pending
    have hgone : q.ofKind (.sendPacket h) = [] := ((hT.sends h).take? hq hk).2
    have hkeep : Tracked (({ H with events := q } : SnsHosts).modify h fun n =>
        { n with hostProcSnsSendPacketEvent := none }) := by
      refine ⟨fun k => ?_, hfresh⟩
      rcases eq_or_ne k h with rfl | hkh
      · rw [modify_host_self]
        exact EventQueue.Tracks.none_iff.mpr hgone
      · rw [modify_host_ne _ hkh]
        exact (hT.sends k).take?_ne hq (by simpa [hk] using hkh.symm)
    simp only [SnsHosts.process, movePacketsToQueue]
    split
    · refine hkeep.modify ?_
      simp
    · refine Tracked.modify ((hkeep.modify ?_).newSendPacketEvent _ ?_) ?_
      · rfl
      · simp
      · rw [if_neg]
        simp only [SnsHosts.newSendPacketEvent, modify_host_self, modify_events, hcount]
        simpa using hlt.ne'

/-! ### Which steps serve a host -/

lemma served_modify (hS : ∀ k, H.Served k) {g : SnsHost → SnsHost}
    (hp : (g (H.host h)).packetsToBeSent = (H.host h).packetsToBeSent)
    (hg : (g (H.host h)).hostProcSnsSendPacketEvent = (H.host h).hostProcSnsSendPacketEvent) :
    ∀ k, (H.modify h g).Served k := by
  intro k
  rcases eq_or_ne k h with rfl | hk
  · unfold Served
    rw [modify_host_self, hp, hg]
    exact hS k
  · unfold Served
    rw [modify_host_ne g hk]
    exact hS k

lemma served_pushPacket (hS : ∀ k, H.Served k) (p : Packet)
    (hp : (H.host h).hostProcSnsSendPacketEvent ≠ none) : ∀ k, (H.pushPacket h p).Served k := by
  intro k
  rcases eq_or_ne k h with rfl | hk
  · intro _
    simpa [pushPacket] using hp
  · unfold Served pushPacket
    rw [modify_host_ne _ hk]
    exact hS k

lemma not_served_pushPacket (p : Packet) (hp : (H.host h).hostProcSnsSendPacketEvent = none) :
    ¬ (H.pushPacket h p).Served h := by
  simp [Served, pushPacket, hp]

lemma served_ensureSendPacketEvent (hS : ∀ k, k ≠ h → H.Served k) (time : Time) :
    ∀ k, (H.ensureSendPacketEvent h time).Served k := by
  intro k
  rcases eq_or_ne k h with rfl | hk
  · intro _
    unfold ensureSendPacketEvent
    split_ifs with hnone
    · simp [newSendPacketEvent]
    · exact hnone
  · unfold ensureSendPacketEvent
    split_ifs
    · unfold Served
      rw [newSendPacketEvent_host_ne time hk]
      exact hS k hk
    · exact hS k hk

lemma served_perform (hS : ∀ k, H.Served k) (c : HostCall)
    (hc : ∀ h p, c = .pushPacket h p → (H.host h).hostProcSnsSendPacketEvent ≠ none) :
    ∀ k, (H.perform P c).Served k := by
  cases c with
  | pushSim h p =>
    unfold perform
    exact served_modify hS rfl rfl
  | pushPacket h p => exact served_pushPacket hS p (hc h p rfl)
  | sendPacketEvt h time => exact served_ensureSendPacketEvent (fun k _ => hS k) time
  | addToPktToBeSent h time p => exact hS
  | simHostProc h time => exact hS
  | hostProc => exact hS
  | flowFinished => exact hS

lemma served_performAll (hS : ∀ k, H.Served k) {calls : List HostCall}
    (hc : ∀ c ∈ calls, ∀ h p, c ≠ .pushPacket h p) : ∀ k, (H.performAll P calls).Served k := by
  induction calls generalizing H with
  | nil => exact hS
  | cons c calls ih =>
    obtain ⟨hhead, htail⟩ := List.forall_mem_cons.mp hc
    exact ih (served_perform hS c fun h p heq => absurd heq (hhead h p)) htail

/-- **An event serves its host**, but for a packet that comes to a host that points to none. -/
theorem served_process {q : EventQueue Time HostEvent} {id : ℕ} {e : QueuedEvent Time HostEvent}
    (hT : Tracked H) (hq : H.events.take? id = some (e, q)) (hS : ∀ k, H.Served k)
    (hC : ∀ h p, e.kind = .addToPktToBeSent h p → (H.host h).hostProcSnsSendPacketEvent ≠ none) :
    ∀ k, (({ H with events := q } : SnsHosts).process rate now id e.kind).1.Served k := by
  have hkeep : ∀ k, ({ H with events := q } : SnsHosts).Served k := hS
  have hlt := (hT.fresh.take? hq).1
  have hcount := EventQueue.take?_count hq
  cases hk : e.kind with
  | addToPktToBeSent h p => exact served_pushPacket hkeep p (hC h p hk)
  | simHostProc h =>
    simp only [process, moveSimToPackets]
    split
    · exact hkeep
    · refine served_ensureSendPacketEvent (fun k hne => ?_) now
      unfold Served
      rw [modify_host_ne _ hne]
      exact hkeep k
  | sendPacket h =>
    simp only [process, movePacketsToQueue]
    intro k
    split
    case h_1 hps =>
      have hnil := takeByPriority_eq_none hps
      rcases eq_or_ne k h with rfl | hne
      · intro hpackets
        simp_all
      · unfold Served
        rw [modify_host_ne _ hne, modify_host_ne _ hne]
        exact hkeep k
    case h_2 =>
      rcases eq_or_ne k h with rfl | hne
      · intro _
        have hnew : some q.count ≠ some id := by simpa [hcount] using hlt.ne'
        simp [newSendPacketEvent, hnew]
      · unfold Served
        rw [modify_host_ne _ hne, newSendPacketEvent_host_ne _ hne, modify_host_ne _ hne,
          modify_host_ne _ hne]
        exact hkeep k

end SnsHosts

end DcSim
