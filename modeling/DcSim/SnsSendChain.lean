import DcSim.EventQueue
import DcSim.SnsScheduler

/-!
The chain of the `HostProcessingEvent`s of an SNS host.

A flow that starts makes an event if the host points to none. The event lets one flow send, and
every flow that sends makes the next event, also one that finishes as it sends. So the chain ends
only when no flow is left that is not finished.
-/

namespace DcSim

open Runs

structure SnsSendChain where
  -- A host, its `HostProcessingEvent`s, whether all assertions held, and the flows that have sent.
  now : Time
  scheduler : SnsScheduler
  hostProcEvent : Option ℕ
  events : EventQueue Time Unit
  asserts : Bool
  sent : List FlowId

/-- What happens to a host. A flow starts with the delay `td` of a busy NIC; when an event is
processed the flow that sends may finish. -/
inductive SendChainAct
  | startFlow (time : Time) (f : FlowId) (td : Time)
  | finish (f : FlowId)
  | setParallelReceiverLimit (enabled : Bool)
  | setCollectiveRoundRobin (enabled : Bool)
  | setAutoFallbackSingleCollective (enabled : Bool)
  | process (id : ℕ) (finishes : Bool)

namespace SnsSendChain

def init : SnsSendChain := ⟨0, .init, none, .empty, true, []⟩

variable (P : SnsParams) (σ : SendSpec) (s : SnsSendChain)

/-- A new `HostProcessingEvent`, which the host points to. -/
def newHostProcEvent (time : Time) : SnsSendChain :=
  { s with hostProcEvent := some s.events.count, events := s.events.add time () }

def startFlow (f : FlowId) (td : Time) : SnsSendChain :=
  let s := { s with scheduler := s.scheduler.startFlow f }
  if s.hostProcEvent = none then s.newHostProcEvent (s.now + td + infinitesimalTime) else s

/-- `SnsHost::send`, and `send_pending_data` of the flow it finds. -/
def send (finishes : Bool) : SnsSendChain :=
  let s := { s with asserts := s.asserts && s.hostProcEvent.isNone }
  let s' := { s with
    scheduler := s.scheduler.sendAndFinish σ finishes
    sent := s.sent ++ (s.scheduler.send σ).2.toList }
  if (s.scheduler.send σ).2 = none then s'
  else s'.newHostProcEvent (s.now + P.tdSim * P.numDataPacketsPerSimAck + infinitesimalTime)

/-- The destructor of a `HostProcessingEvent`. -/
def destroy (id : ℕ) : SnsSendChain :=
  if s.hostProcEvent = some id then { s with hostProcEvent := none } else s

/-- The event `id` has been taken out of the events, which leaves `q`, and is processed. -/
def process (id : ℕ) (time : Time) (q : EventQueue Time Unit) (finishes : Bool) : SnsSendChain :=
  ({ s with now := time, hostProcEvent := none, events := q }.send P σ finishes).destroy id

/-- Time moves on to the next thing that happens. -/
def Due (time : Time) : Prop := s.now ≤ time ∧ s.events.NoneBefore time

instance (time : Time) : Decidable (s.Due time) := inferInstanceAs (Decidable (_ ∧ _))

def next : SendChainAct → Option SnsSendChain
  | .startFlow time f td =>
    if s.Due time ∧ f ∉ s.scheduler.started then some ({ s with now := time }.startFlow f td)
    else none
  | .finish f => some { s with scheduler := s.scheduler.finish f }
  | .setParallelReceiverLimit b =>
    some { s with scheduler := { s.scheduler with enableParallelReceiverLimit := b } }
  | .setCollectiveRoundRobin b =>
    some { s with scheduler := { s.scheduler with enableCollectiveRoundRobin := b } }
  | .setAutoFallbackSingleCollective b =>
    some { s with scheduler := { s.scheduler with autoFallbackSingleCollective := b } }
  | .process id finishes =>
    (s.events.take? id).bind fun (e, q) =>
      if s.Due e.time then some (s.process P σ id e.time q finishes) else none

def machine : Machine SnsSendChain SendChainAct := ⟨init, next P σ⟩

/-- A flow is not finished that has started or is in the list. -/
def Unfinished (fs : List FlowId) : Prop := ∃ f ∈ fs, s.scheduler.finished f = false

structure Chained : Prop where
  armed : s.Unfinished s.scheduler.activeSendingFlows →
    ∃ id, s.hostProcEvent = some id ∧ s.events.pending () = [id]
  sends : s.Unfinished s.scheduler.activeSendingFlows →
    ∀ id finishes t, s.next P σ (.process id finishes) = some t →
      ∃ f ∈ s.scheduler.activeSendingFlows, s.scheduler.finished f = false ∧ t.sent = s.sent ++ [f]
  listed : ∀ f ∈ s.scheduler.started, s.scheduler.finished f = false →
    f ∈ s.scheduler.activeSendingFlows
  asserts : s.asserts = true

structure Linked : Prop where
  tracks : s.events.Tracks () s.hostProcEvent
  fresh : s.events.Fresh
  armed : s.Unfinished s.scheduler.activeSendingFlows → s.hostProcEvent ≠ none
  lists : s.scheduler.Lists
  asserts : s.asserts = true

variable {P σ s} {t : SnsSendChain} {a : SendChainAct}

lemma linked_newHostProcEvent (hnone : s.events.Tracks () none) (hfresh : s.events.Fresh)
    (hlists : s.scheduler.Lists) (hasserts : s.asserts = true) (time : Time) :
    Linked (s.newHostProcEvent time) :=
  ⟨hnone.add time, hfresh.add _ _, fun _ => nofun, hlists, hasserts⟩

lemma Linked.schedule (h : Linked s) {S : SnsScheduler} (hlists : S.Lists)
    (hS : ∀ f ∈ S.activeSendingFlows, S.finished f = false →
      f ∈ s.scheduler.activeSendingFlows ∧ s.scheduler.finished f = false) :
    Linked { s with scheduler := S } :=
  ⟨h.tracks, h.fresh, fun ⟨f, hf, hu⟩ => h.armed ⟨f, hS f hf hu⟩, hlists, h.asserts⟩

lemma Linked.startFlow (h : Linked s) {f : FlowId} (hf : f ∉ s.scheduler.started) (td : Time) :
    Linked (s.startFlow f td) := by
  have hlists := h.lists.startFlow hf
  unfold SnsSendChain.startFlow
  dsimp only
  split_ifs with hnone
  · have htracks : s.events.Tracks () none := hnone ▸ h.tracks
    exact linked_newHostProcEvent (s := { s with scheduler := s.scheduler.startFlow f }) htracks
      h.fresh hlists h.asserts _
  · exact ⟨h.tracks, h.fresh, fun _ => hnone, hlists, h.asserts⟩

/-- **An event of the host is processed**: if a flow can send it does, and the next event comes. -/
lemma Linked.process (h : Linked s) {id : ℕ} {e : QueuedEvent Time Unit} {q : EventQueue Time Unit}
    (hq : s.events.take? id = some (e, q)) (finishes : Bool) :
    Linked (s.process P σ id e.time q finishes) := by
  have hnone : q.Tracks () none := EventQueue.Tracks.none_iff.2 (h.tracks.take? hq rfl).2
  obtain ⟨hlt, hfresh⟩ := h.fresh.take? hq
  have hcount := EventQueue.take?_count hq
  have hlists : (s.scheduler.sendAndFinish σ finishes).Lists := h.lists.sendAndFinish finishes
  have hpicks := SnsScheduler.picks_send σ s.scheduler
  have hasserts : (s.asserts && true) = true := by rw [h.asserts, Bool.and_true]
  unfold SnsSendChain.process send
  dsimp only
  split_ifs with ho
  · -- all flows are finished
    have hS : s.scheduler.sendAndFinish σ finishes = (s.scheduler.send σ).1 := by
      unfold SnsScheduler.sendAndFinish
      rcases hr : s.scheduler.send σ with ⟨R, _ | f⟩
      · rfl
      · rw [hr] at ho
        exact nomatch ho
    unfold destroy
    rw [if_neg nofun]
    refine ⟨hnone, hfresh, ?_, hlists, hasserts⟩
    rintro ⟨f, hf, hu⟩
    dsimp only at hf hu
    rw [hS] at hf hu
    rw [hpicks.finished, hpicks.idle ho f (hpicks.mem f hf)] at hu
    exact nomatch hu
  · have hne : some q.count ≠ some id := by
      rw [hcount]
      exact fun heq => hlt.ne' (Option.some.inj heq)
    unfold destroy newHostProcEvent
    rw [if_neg hne]
    exact linked_newHostProcEvent hnone hfresh hlists hasserts _

lemma Linked.next (h : Linked s) (hn : next P σ s a = some t) : Linked t := by
  cases a with
  | startFlow time f td =>
    obtain ⟨⟨-, hf⟩, hn⟩ := Option.ite_none_right_eq_some.1 hn
    have hnow : Linked { s with now := time } := ⟨h.tracks, h.fresh, h.armed, h.lists, h.asserts⟩
    exact Option.some.inj hn ▸ hnow.startFlow hf td
  | finish f =>
    refine Option.some.inj hn ▸ h.schedule (h.lists.finish f) fun g hg hu => ⟨hg, ?_⟩
    have hu : Function.update s.scheduler.finished f true g = false := hu
    rcases eq_or_ne g f with rfl | hne
    · simp at hu
    · rwa [Function.update_of_ne hne] at hu
  | setParallelReceiverLimit b | setCollectiveRoundRobin b | setAutoFallbackSingleCollective b =>
    exact Option.some.inj hn ▸ h.schedule ⟨h.lists.once, h.lists.started, h.lists.card_le⟩
      fun g hg hu => ⟨hg, hu⟩
  | process id finishes =>
    obtain ⟨⟨e, q⟩, hq, hn⟩ := Option.bind_eq_some_iff.1 hn
    obtain ⟨-, hn⟩ := Option.ite_none_right_eq_some.1 hn
    exact Option.some.inj hn ▸ h.process hq finishes

lemma Linked.chained (h : Linked s) : Chained P σ s where
  armed hu := by
    obtain ⟨id, hid⟩ := Option.ne_none_iff_exists'.1 (h.armed hu)
    refine ⟨id, hid, ?_⟩
    have htracks := h.tracks
    rw [hid] at htracks
    exact htracks
  sends hu id finishes t hn := by
    obtain ⟨f, hf, hu⟩ := hu
    have hpicks := SnsScheduler.picks_send σ s.scheduler
    cases ho : (s.scheduler.send σ).2 with
    | none => exact absurd (hpicks.idle ho f hf) (by simp [hu])
    | some g =>
      obtain ⟨hg, hgu⟩ := hpicks.sends g ho
      refine ⟨g, hg, hgu, ?_⟩
      obtain ⟨⟨e, q⟩, -, hn⟩ := Option.bind_eq_some_iff.1 hn
      obtain ⟨-, hn⟩ := Option.ite_none_right_eq_some.1 hn
      obtain rfl := Option.some.inj hn
      simp only [SnsSendChain.process, send, ho, destroy, newHostProcEvent]
      split_ifs <;> rfl
  listed f hf hu := List.count_pos_iff.1 (by rw [h.lists.once f hf hu]; decide)
  asserts := h.asserts

/-- **The chain of an SNS host** does not break, whatever starts, finishes and sends. -/
theorem always_chained (P : SnsParams) (σ : SendSpec) (as : List SendChainAct) :
    Always (machine P σ) (Chained P σ) init as := by
  have hlinked : Always (machine P σ) Linked init as :=
    always_of_inv (fun h hn => Linked.next h hn) as
      ⟨.empty, EventQueue.fresh_empty, by simp [Unfinished, init, SnsScheduler.init],
        ⟨by simp [init, SnsScheduler.init], by simp [init, SnsScheduler.init],
          by simp [init, SnsScheduler.init]⟩, rfl⟩
  exact hlinked.mono fun _ => Linked.chained

end SnsSendChain

end DcSim
