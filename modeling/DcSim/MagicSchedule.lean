import DcSim.MagicHost
import Mathlib.Algebra.Order.Field.Basic
import Mathlib.Data.List.Perm.Lattice
import Mathlib.Tactic.Linarith
import Mathlib.Tactic.Positivity

/-!
What holds of the hosts of `MAGIC_HOST`, and how they schedule their flows.

Each flow that is started and not finished is with its host once, among those that wait or as the
one that is sent; a host that sends a flow has a `HostProcessingEvent`, and one that has flows but
sends none a `MagicHostScheduleEvent`. `schedule` does not fail, and leaves its host so.
-/

namespace DcSim

open HeapQueue Runs Word32

namespace MagicSpec

variable (σ : MagicSpec)

/-- The longest time from now that is noted for a receiver or a flow. -/
def longest : Time :=
  MagicFlow.getPropaTime + MagicFlow.pktTime * max 1 ⌊σ.reauthLimit⌋₊ + 95 / 10000000

lemma le_longest : 95 / 10000000 ≤ σ.longest := by
  unfold longest MagicFlow.getPropaTime MagicFlow.pktTime
  exact le_add_of_nonneg_left (by positivity)

lemma longest_nonneg : 0 ≤ σ.longest := le_trans (by positivity) σ.le_longest

end MagicSpec

namespace MagicHost

def held (host : MagicHost) : List FlowId :=
  host.activeSendingFlows.toList ++ host.flowSending.toList

variable (σ : MagicSpec)

structure Holds (flows : FlowId → MagicFlow) (h : HostId) (host : MagicHost) : Prop where
  nodup : host.held.Nodup
  mine : ∀ id ∈ host.held, σ.src id = h ∧ (flows id).started = true
  kept : ∀ id, σ.src id = h → (flows id).started = true → (flows id).finished = false →
    id ∈ host.held

structure Receives (now : Time) (host : MagicHost) : Prop where
  receiving : 0 < host.recvBusyUntil → host.flowReceiving ≠ none
  below : host.recvBusyUntil ≤ now + σ.longest

variable {σ} {flows flows' : FlowId → MagicFlow} {h : HostId} {host host' : MagicHost}
  {now now' : Time}

lemma Holds.perm (hs : Holds σ flows h host) (hperm : host'.held.Perm host.held) :
    Holds σ flows h host' where
  nodup := hperm.nodup_iff.2 hs.nodup
  mine id hid := hs.mine id (hperm.mem_iff.1 hid)
  kept id hsrc hstarted hnot := hperm.mem_iff.2 (hs.kept id hsrc hstarted hnot)

lemma Holds.drop (hs : Holds σ flows h host) (dropped : List FlowId)
    (hdropped : ∀ id ∈ dropped, (flows id).finished = true)
    (hperm : host.held.Perm (host'.held ++ dropped)) : Holds σ flows h host' where
  nodup := (List.nodup_append.1 (hperm.nodup_iff.1 hs.nodup)).1
  mine id hid := hs.mine id (hperm.mem_iff.2 (List.mem_append_left _ hid))
  kept id hsrc hstarted hnot := by
    have hmem := hperm.mem_iff.1 (hs.kept id hsrc hstarted hnot)
    refine (List.mem_append.1 hmem).resolve_right fun hd => ?_
    exact Bool.false_ne_true (hnot.symm.trans (hdropped id hd))

lemma Holds.mono (hs : Holds σ flows h host)
    (hstarted : ∀ id, (flows' id).started = (flows id).started)
    (hfinished : ∀ id, (flows id).finished = true → (flows' id).finished = true) :
    Holds σ flows' h host where
  nodup := hs.nodup
  mine id hid := ⟨(hs.mine id hid).1, (hstarted id).trans (hs.mine id hid).2⟩
  kept id hsrc hst hnot := hs.kept id hsrc ((hstarted id).symm.trans hst) <| by
    by_contra hdone
    exact Bool.false_ne_true (hnot.symm.trans (hfinished id (by simpa using hdone)))

lemma Receives.later (hr : Receives σ now host) (hnow : now ≤ now') : Receives σ now' host :=
  ⟨hr.receiving, hr.below.trans (by gcongr)⟩

end MagicHost

namespace MagicNet

variable (σ : MagicSpec)

/-! ### What holds of the hosts and flows at any time -/

structure Arrives (events : EventQueue Time MagicEvent) (id : FlowId) (f : MagicFlow) : Prop where
  once : (events.ofKind (.flowArrival id)).length ≤ 1
  again : events.ofKind (.flowArrival id) ≠ [] → f.started = false ∧ f.addedInflTime = true
  first : f.arrived = false → f.started = false ∧ events.ofKind (.flowArrival id) = []

/-- Whether a packet is data of a flow. -/
def IsData (id : FlowId) : MagicPacket → Bool
  | .data f _ _ => f = id
  | .ack _ => false

structure Ends (inFlight : List MagicPacket) (id : FlowId) (f : MagicFlow) : Prop where
  count : f.finished = false → f.receivedCount = f.delivered % 4294967296
  acked : f.finished = true ∨ .ack id ∈ inFlight → σ.sizeInPkt id ≤ f.delivered
  sent : f.delivered + inFlight.countP (IsData id) ≤ f.sendCount

structure Sound (net : MagicNet) : Prop where
  holds : ∀ h, (net.hosts h).Holds σ net.flows h
  receives : ∀ h, (net.hosts h).Receives σ net.now
  tracks : ∀ h, net.events.Tracks (.hostProcessing h) (net.hosts h).hostProcEvent
  timeout : ∀ h, (net.hosts h).hostProcEvent ≠ none →
    (net.hosts h).isHostProcEventATimeout = some false
  arrives : ∀ id, Arrives net.events id (net.flows id)
  ends : ∀ id, Ends σ net.inFlight id (net.flows id)
  rounds : ∀ id, 0 ≤ (net.flows id).remainingPktThisRound ∧
    (net.flows id).ackTimeout ≤ net.now + σ.longest
  done : ∀ e ∈ net.events.events, ∀ id, e.kind = .flowFinished id →
    (net.flows id).finished = true
  now_nonneg : 0 ≤ net.now
  later : ∀ e ∈ net.events.events, net.now ≤ e.time

/-- A host with flows that wait asks again, as long as times are below the one that stands for
none. -/
def Asks (net : MagicNet) (h : HostId) : Prop :=
  net.now + σ.longest < 999999 →
    (∃ id ∈ (net.hosts h).activeSendingFlows, (net.flows id).finished = false) →
    ∃ e ∈ net.events.events, e.kind = .schedule h

structure Prompt (net : MagicNet) (h : HostId) : Prop where
  goes : (net.hosts h).flowSending ≠ none → (net.hosts h).hostProcEvent ≠ none
  asks : (net.hosts h).flowSending = none → Asks σ net h

structure Works (net : MagicNet) (h : HostId) : Prop where
  sound : Sound σ net
  others : ∀ k ≠ h, Prompt σ net k

structure Ready (net : MagicNet) (h : HostId) : Prop extends Works σ net h where
  asks : (net.hosts h).flowSending = none → Asks σ net h

structure Settled (net : MagicNet) : Prop where
  sound : Sound σ net
  prompt : ∀ h, Prompt σ net h

variable {σ} {net net' : MagicNet} {h : HostId} {id : FlowId}

lemma Settled.works (hs : Settled σ net) (h : HostId) : Works σ net h :=
  ⟨hs.sound, fun k _ => hs.prompt k⟩

lemma Ready.settled (hr : Ready σ net h)
    (hgoes : (net.hosts h).flowSending ≠ none → (net.hosts h).hostProcEvent ≠ none) :
    Settled σ net where
  sound := hr.sound
  prompt k := by
    rcases eq_or_ne k h with rfl | hne
    · exact ⟨hgoes, hr.asks⟩
    · exact hr.others k hne

/-! ### The search -/

structure Searched (σ : MagicSpec) (net : MagicNet) (start : List FlowId) (s : MagicSearch) :
    Prop where
  split : ∃ dropped, (∀ id ∈ dropped, (net.flows id).finished = true) ∧
    start.Perm (s.active.toList ++ s.triedFlows ++ s.found.toList ++ dropped)
  found : ∀ id, s.found = some id → (net.flows id).finished = false
  later : s.minFinishTime < 999999 → net.now < s.minFinishTime
  below : net.now + σ.longest < 999999 → s.triedFlows ≠ [] → s.minFinishTime < 999999

lemma propa_nonneg : 0 ≤ MagicFlow.getPropaTime := by
  unfold MagicFlow.getPropaTime
  positivity

lemma le_busyBy (net : MagicNet) : net.now ≤ net.busyBy σ :=
  le_add_of_nonneg_right (mul_nonneg propa_nonneg σ.magicTransSlack_nonneg)

lemma Sound.mayReceive (hs : Sound σ net) (id : FlowId) :
    ∃ free, net.mayReceive σ id = some free ∧
      (free = false → net.busyBy σ < (net.hosts (σ.dst id)).recvBusyUntil) := by
  unfold MagicNet.mayReceive
  dsimp only
  split_ifs with hfree
  · exact ⟨true, rfl, fun h => absurd h (by decide)⟩
  · have hbusy := not_le.1 hfree
    have hpos := (hs.now_nonneg.trans (le_busyBy net)).trans_lt hbusy
    obtain ⟨other, hother⟩ := Option.ne_none_iff_exists'.1 ((hs.receives _).receiving hpos)
    exact ⟨_, by rw [hother]; rfl, fun _ => hbusy⟩

lemma Searched.tried {start : List FlowId} {s s' : MagicSearch} {rest : Array FlowId}
    (hs : Searched σ net start s) (hfound : s.found = none)
    (hperm : s.active.toList.Perm (id :: rest.toList)) (hactive : s'.active = rest)
    (htried : s'.triedFlows = s.triedFlows ++ [id]) (hfound' : s'.found = none)
    (hlater : s'.minFinishTime < 999999 → net.now < s'.minFinishTime)
    (hbelow : net.now + σ.longest < 999999 → s'.minFinishTime < 999999) :
    Searched σ net start s' where
  split := by
    obtain ⟨dropped, hdropped, hsplit⟩ := hs.split
    refine ⟨dropped, hdropped, hsplit.trans (List.Perm.append_right dropped ?_)⟩
    rw [hfound, hactive, htried, hfound']
    simp only [Option.toList_none, List.append_nil]
    refine (hperm.append_right _).trans ?_
    rw [List.cons_append, ← List.append_assoc]
    exact (List.perm_append_singleton id _).symm
  found id' hid' := nomatch hfound'.symm.trans hid'
  later := hlater
  below hnow _ := hbelow hnow

lemma Searched.dropped {start : List FlowId} {s : MagicSearch} {rest : Array FlowId}
    (hs : Searched σ net start s) (hperm : s.active.toList.Perm (id :: rest.toList))
    (hdone : (net.flows id).finished = true) : Searched σ net start { s with active := rest } where
  split := by
    obtain ⟨dropped, hdropped, hsplit⟩ := hs.split
    refine ⟨id :: dropped, List.forall_mem_cons.2 ⟨hdone, hdropped⟩, hsplit.trans ?_⟩
    refine ((hperm.append_right _).append_right _).append_right _ |>.trans ?_
    simp only [List.cons_append]
    exact List.perm_middle.symm
  found := hs.found
  later := hs.later
  below := hs.below

lemma Searched.finds {start : List FlowId} {s : MagicSearch} {rest : Array FlowId}
    (hs : Searched σ net start s) (hfound : s.found = none)
    (hperm : s.active.toList.Perm (id :: rest.toList)) (hnot : ¬ (net.flows id).finished = true) :
    Searched σ net start { s with active := rest, found := some id } where
  split := by
    obtain ⟨dropped, hdropped, hsplit⟩ := hs.split
    refine ⟨dropped, hdropped, hsplit.trans (List.Perm.append_right dropped ?_)⟩
    rw [hfound]
    simp only [Option.toList_none, Option.toList_some, List.append_nil]
    exact (hperm.append_right _).trans (List.perm_append_singleton id _).symm
  found id' hid' := Option.some.inj hid' ▸ by simpa using hnot
  later := hs.later
  below := hs.below

lemma Sound.postpone (hs : Sound σ net) {start : List FlowId} {s s₀ : MagicSearch}
    (hsearched : Searched σ net start s₀) (hfound : s₀.found = none)
    (hperm : s₀.active.toList.Perm (id :: s.active.toList))
    (hsame : s = { s₀ with active := s.active })
    (hbusy : net.busyBy σ < (net.hosts (σ.dst id)).recvBusyUntil) :
    ∃ r, net.postpone σ id s = some r ∧ r.1.active = s.active ∧ r.1.found = none ∧
      r.1.triedFlows ≠ [] ∧ Searched σ net start r.1 := by
  have hfree : net.now < (net.hosts (σ.dst id)).recvBusyUntil -
      MagicFlow.getPropaTime * σ.magicTransSlack := by
    unfold busyBy at hbusy
    linarith
  have hslack := mul_nonneg propa_nonneg σ.magicTransSlack_nonneg
  have hbelow := (hs.receives (σ.dst id)).below
  have hmin : s.minFinishTime = s₀.minFinishTime := by rw [hsame]
  have hnone : s.found = none := by rw [hsame]; exact hfound
  have htried : s.triedFlows = s₀.triedFlows := by rw [hsame]
  unfold MagicNet.postpone
  dsimp only
  rw [if_neg fun hfail => absurd hfail.2 (not_le.2 hfree)]
  refine ⟨_, rfl, rfl, hnone, by simp,
    hsearched.tried hfound hperm rfl (by rw [htried]) hnone ?_ ?_⟩
  · dsimp only
    split_ifs
    · exact fun _ => hfree
    · rw [hmin]
      exact hsearched.later
  · dsimp only
    intro hnow
    split_ifs with hlt <;> linarith

/-- **A search** that has turns enough does not fail, and one that finds nothing has put aside
what is not finished, if it has left anything. -/
lemma Sound.search (hs : Sound σ net) {start : List FlowId} {turns : ℕ} {s : MagicSearch}
    (hturns : s.active.size ≤ turns) (hfound : s.found = none)
    (hsearched : Searched σ net start s) :
    ∃ r, net.search σ turns s = some r ∧ Searched σ net start r ∧
      (r.found = none → r.triedFlows = [] → r.active = #[]) := by
  induction turns generalizing s with
  | zero => exact ⟨s, rfl, hsearched, fun _ _ => Array.eq_empty_of_size_eq_zero (by omega)⟩
  | succ turns ih =>
    unfold MagicNet.search
    split
    case h_1 hpop => exact ⟨s, rfl, hsearched, fun _ _ => pop_eq_none hpop⟩
    case h_2 id rest hpop =>
      have hperm := pop_perm hpop
      have hsize : rest.size ≤ turns := by
        have hlen := hperm.length_eq
        simp only [Array.length_toList, List.length_cons] at hlen
        omega
      dsimp only
      by_cases hdone : (net.flows id).finished = true
      · rw [if_pos hdone]
        exact ih hsize hfound (hsearched.dropped hperm hdone)
      rw [if_neg hdone]
      by_cases hack : net.now < (net.flows id).ackTimeout
      · -- a flow that has sent its packets waits for the ACK
        rw [if_pos hack]
        refine ih hsize hfound (hsearched.tried hfound hperm rfl rfl hfound ?_ fun hnow => ?_)
        · dsimp only
          split_ifs
          · exact fun _ => hack
          · exact hsearched.later
        · have hle := ((hs.rounds id).2).trans_lt hnow
          dsimp only
          split_ifs with hmin
          · exact hle
          · exact (not_lt.1 hmin).trans_lt hle
      rw [if_neg hack]
      obtain ⟨free, hfree, hbusy⟩ := hs.mayReceive id
      rw [hfree, Option.bind_some]
      cases free with
      | true => exact ⟨_, rfl, hsearched.finds hfound hperm hdone, nofun⟩
      | false =>
        obtain ⟨r, hr, hactive, hnone, htried, hsearched'⟩ :=
          hs.postpone (s := { s with active := rest }) hsearched hfound hperm rfl (hbusy rfl)
        rw [if_neg Bool.false_ne_true, hr, Option.bind_some]
        by_cases hstop : r.2 = true
        · rw [if_pos hstop]
          exact ⟨_, rfl, hsearched', fun _ hnil => absurd hnil htried⟩
        · rw [if_neg hstop]
          exact ih (hactive ▸ hsize) hnone hsearched'

/-! ### The schedule of a host -/

section Modify

variable {g : MagicHost → MagicHost} {k : HostId}

lemma modifyHost_self (net : MagicNet) (g : MagicHost → MagicHost) :
    (net.modifyHost h g).hosts h = g (net.hosts h) := Function.update_self ..

lemma modifyHost_ne (net : MagicNet) (g : MagicHost → MagicHost) (hne : k ≠ h) :
    (net.modifyHost h g).hosts k = net.hosts k := Function.update_of_ne hne ..

lemma modifyFlow_self (net : MagicNet) (g : MagicFlow → MagicFlow) :
    (net.modifyFlow id g).flows id = g (net.flows id) := Function.update_self ..

lemma modifyFlow_ne (net : MagicNet) (g : MagicFlow → MagicFlow) {k : FlowId} (hne : k ≠ id) :
    (net.modifyFlow id g).flows k = net.flows k := Function.update_of_ne hne ..

lemma modifyHost_field {β : Type} (f : MagicHost → β) (hf : ∀ host, f (g host) = f host)
    (k : HostId) : f ((net.modifyHost h g).hosts k) = f (net.hosts k) := by
  rcases eq_or_ne k h with rfl | hne
  · rw [modifyHost_self, hf]
  · rw [modifyHost_ne net g hne]

end Modify

/-- **What `schedule` does** in a host that sends no flow. -/
structure Scheduled (σ : MagicSpec) (net : MagicNet) (h : HostId) (net' : MagicNet) : Prop where
  now : net'.now = net.now
  inFlight : net'.inFlight = net.inFlight
  events : net'.events = net.events ∨
    ∃ time, net.now ≤ time ∧ net'.events = net.events.add time (.schedule h)
  flows : ∀ id, net'.flows id = net.flows id ∨
    ∃ n : ℤ, 0 ≤ n ∧ net'.flows id = { net.flows id with remainingPktThisRound := n }
  procEvent : ∀ k, (net'.hosts k).hostProcEvent = (net.hosts k).hostProcEvent
  timeout : ∀ k, (net'.hosts k).isHostProcEventATimeout = (net.hosts k).isHostProcEventATimeout
  receives : ∀ k, (net'.hosts k).Receives σ net.now
  others : ∀ k ≠ h, (net'.hosts k).activeSendingFlows = (net.hosts k).activeSendingFlows ∧
    (net'.hosts k).flowSending = (net.hosts k).flowSending
  held : ∃ dropped, (∀ id ∈ dropped, (net.flows id).finished = true) ∧
    (net.hosts h).held.Perm ((net'.hosts h).held ++ dropped)
  sends : ∀ id ∈ (net'.hosts h).flowSending, 0 < (net'.flows id).remainingPktThisRound
  asks : (net'.hosts h).flowSending = none → Asks σ net' h

lemma held_pushBack (comp : FlowId → FlowId → Bool) {active : Array FlowId}
    {tried dropped start : List FlowId} {found : Option FlowId}
    (hperm : start.Perm (active.toList ++ tried ++ found.toList ++ dropped)) :
    start.Perm ((tried.foldl (push comp) active).toList ++ found.toList ++ dropped) :=
  hperm.trans (((foldl_push_perm comp active tried).symm.append_right _).append_right _)

structure Given (σ : MagicSpec) (net : MagicNet) (h : HostId) (found : Option FlowId)
    (net' : MagicNet) : Prop where
  now : net'.now = net.now
  inFlight : net'.inFlight = net.inFlight
  events : net'.events = net.events
  flows : ∀ id, net'.flows id = net.flows id ∨
    ∃ n : ℤ, 0 ≤ n ∧ net'.flows id = { net.flows id with remainingPktThisRound := n }
  procEvent : ∀ k, (net'.hosts k).hostProcEvent = (net.hosts k).hostProcEvent
  timeout : ∀ k, (net'.hosts k).isHostProcEventATimeout = (net.hosts k).isHostProcEventATimeout
  receives : ∀ k, (net'.hosts k).Receives σ net.now
  active : ∀ k, (net'.hosts k).activeSendingFlows = (net.hosts k).activeSendingFlows
  others : ∀ k ≠ h, (net'.hosts k).flowSending = (net.hosts k).flowSending
  sending : (net'.hosts h).flowSending = found
  sends : ∀ id ∈ found, 0 < (net'.flows id).remainingPktThisRound

lemma receives_give (net : MagicNet) (id : FlowId) : net.now + MagicFlow.getPropaTime +
    MagicFlow.pktTime * net.pktToSchd σ id ≤ net.now + σ.longest := by
  have hpkts : (net.pktToSchd σ id : ℚ) ≤ (max 1 ⌊σ.reauthLimit⌋₊ : ℕ) := by
    unfold pktToSchd
    exact_mod_cast max_le_max le_rfl (min_le_left ..)
  have htime : (0 : ℚ) ≤ MagicFlow.pktTime := by
    unfold MagicFlow.pktTime
    positivity
  have hmul := mul_le_mul_of_nonneg_left hpkts htime
  unfold MagicSpec.longest
  push_cast at hmul ⊢
  linarith

lemma pktToSchd_pos (net : MagicNet) (id : FlowId) : 0 < (net.pktToSchd σ id : ℤ) := by
  unfold pktToSchd
  exact_mod_cast Nat.lt_of_lt_of_le Nat.one_pos (le_max_left ..)

lemma Sound.give (hs : Sound σ net) (hnone : (net.hosts h).flowSending = none)
    (hsrc : σ.src id = h) : ∃ net', net.give σ id = some net' ∧ Given σ net h (some id) net' := by
  unfold MagicNet.give
  rw [hsrc, if_pos hnone]
  dsimp only
  obtain ⟨net₁, hnet₁⟩ : ∃ net₁, net₁ = net.modifyHost h fun host =>
      { host with flowSending := some id } := ⟨_, rfl⟩
  obtain ⟨net₂, hnet₂⟩ : ∃ net₂, net₂ = net₁.modifyHost (σ.dst id) fun host => { host with
      flowReceiving := some id
      recvBusyUntil :=
        net.now + MagicFlow.getPropaTime + MagicFlow.pktTime * net.pktToSchd σ id } := ⟨_, rfl⟩
  have hreceiving : ∀ {β : Type} (f : MagicHost → β), (∀ host time,
      f { host with flowReceiving := some id, recvBusyUntil := time } = f host) →
      ∀ k, f (net₂.hosts k) = f (net₁.hosts k) := fun f hf k => by
    rw [hnet₂, modifyHost_field f fun host => hf host _]
  have hfield : ∀ {β : Type} (f : MagicHost → β), (∀ host time,
      f { host with flowReceiving := some id, recvBusyUntil := time } = f host) →
      (∀ host, f { host with flowSending := some id } = f host) →
      ∀ k, f (net₂.hosts k) = f (net.hosts k) := fun f hf hf' k => by
    rw [hreceiving f hf, hnet₁, modifyHost_field f hf']
  have hreceives₁ : ∀ k, (net₁.hosts k).Receives σ net.now := fun k => by
    rcases eq_or_ne k h with rfl | hne
    · rw [hnet₁, modifyHost_self]
      exact ⟨(hs.receives k).receiving, (hs.receives k).below⟩
    · rw [hnet₁, modifyHost_ne _ _ hne]
      exact hs.receives k
  rw [← hnet₁, ← hnet₂]
  refine ⟨_, rfl, ?_⟩
  exact {
    now := by rw [hnet₂, hnet₁]; rfl
    inFlight := by rw [hnet₂, hnet₁]; rfl
    events := by rw [hnet₂, hnet₁]; rfl
    flows := fun k => by
      have hflows : net₂.flows = net.flows := by rw [hnet₂, hnet₁]; rfl
      unfold modifyFlow
      rw [hflows]
      rcases eq_or_ne k id with rfl | hne
      · exact .inr ⟨_, (pktToSchd_pos net k).le, Function.update_self ..⟩
      · exact .inl (Function.update_of_ne hne ..)
    procEvent := hfield MagicHost.hostProcEvent (fun _ _ => rfl) fun _ => rfl
    timeout := hfield MagicHost.isHostProcEventATimeout (fun _ _ => rfl) fun _ => rfl
    receives := fun k => by
      change (net₂.hosts k).Receives σ net.now
      rcases eq_or_ne k (σ.dst id) with rfl | hne
      · rw [hnet₂, modifyHost_self]
        exact ⟨fun _ => Option.some_ne_none id, receives_give net id⟩
      · rw [hnet₂, modifyHost_ne _ _ hne]
        exact hreceives₁ k
    active := hfield MagicHost.activeSendingFlows (fun _ _ => rfl) fun _ => rfl
    others := fun k hk => (hreceiving MagicHost.flowSending (fun _ _ => rfl) k).trans <| by
      rw [hnet₁, modifyHost_ne _ _ hk]
    sending := (hreceiving MagicHost.flowSending (fun _ _ => rfl) h).trans <| by
      rw [hnet₁, modifyHost_self]
    sends := fun id' hid' => by
      obtain rfl := Option.some.inj hid'
      unfold modifyFlow
      dsimp only
      rw [Function.update_self]
      exact pktToSchd_pos net id }

lemma Sound.given_none (hs : Sound σ net) (hnone : (net.hosts h).flowSending = none) :
    Given σ net h none net :=
  ⟨rfl, rfl, rfl, fun _ => .inl rfl, fun _ => rfl, fun _ => rfl, hs.receives, fun _ => rfl,
    fun _ _ => rfl, hnone, nofun⟩

lemma Given.pushBack {net₁ : MagicNet} {s : MagicSearch} (hg : Given σ net h s.found net₁)
    (hnone : (net.hosts h).flowSending = none)
    (hsearched : Searched σ net (net.hosts h).activeSendingFlows.toList s)
    (hempty : s.found = none → s.triedFlows = [] → s.active = #[]) :
    Scheduled σ net h (net₁.pushBack σ h s) := by
  obtain ⟨dropped, hdropped, hsplit⟩ := hsearched.split
  have hheld := held_pushBack (comparator σ net₁.flows) hsplit
  obtain ⟨active, hactive⟩ :
    ∃ active, active = s.triedFlows.foldl (push (comparator σ net₁.flows)) s.active := ⟨_, rfl⟩
  obtain ⟨net₂, hnet₂⟩ : ∃ net₂, net₂ = net₁.modifyHost h fun host =>
      { host with activeSendingFlows := active } := ⟨_, rfl⟩
  have hfield : ∀ {β : Type} (f : MagicHost → β),
      (∀ host, f { host with activeSendingFlows := active } = f host) →
      ∀ k, f (net₂.hosts k) = f (net₁.hosts k) := fun f hf k => by
    rw [hnet₂, modifyHost_field f hf]
  have hsending : (net₂.hosts h).flowSending = s.found :=
    (hfield MagicHost.flowSending (fun _ => rfl) h).trans hg.sending
  have hself : (net₂.hosts h).activeSendingFlows = active := by
    rw [hnet₂, modifyHost_self]
  have hnow : net₂.now = net.now := by rw [hnet₂]; exact hg.now
  have hflows : net₂.flows = net₁.flows := by rw [hnet₂]; rfl
  have hunchanged : net₂.events = net.events := by rw [hnet₂]; exact hg.events
  -- without a flow to send, the host asks
  have hscheduled : ∀ events, (events = net.events ∨
      ∃ time, net.now ≤ time ∧ events = net.events.add time (.schedule h)) →
      (s.found = none → active ≠ #[] → net.now + σ.longest < 999999 →
        ∃ e ∈ events.events, e.kind = .schedule h) →
      Scheduled σ net h { net₂ with events := events } := fun events hevents hasks => {
    now := hnow
    inFlight := by rw [hnet₂]; exact hg.inFlight
    events := hevents
    flows := fun id => hflows ▸ hg.flows id
    procEvent := fun k => (hfield MagicHost.hostProcEvent (fun _ => rfl) k).trans (hg.procEvent k)
    timeout := fun k =>
      (hfield MagicHost.isHostProcEventATimeout (fun _ => rfl) k).trans (hg.timeout k)
    receives := fun k => by
      refine ⟨?_, ?_⟩
      · rw [hfield MagicHost.recvBusyUntil (fun _ => rfl), hfield MagicHost.flowReceiving
          fun _ => rfl]
        exact (hg.receives k).receiving
      · rw [hfield MagicHost.recvBusyUntil fun _ => rfl]
        exact (hg.receives k).below
    others := fun k hk => by
      refine ⟨?_, (hfield MagicHost.flowSending (fun _ => rfl) k).trans (hg.others k hk)⟩
      dsimp only
      rw [hnet₂, modifyHost_ne _ _ hk, hg.active]
    held := by
      refine ⟨dropped, hdropped, ?_⟩
      unfold MagicHost.held
      dsimp only
      rw [hself, hsending, hnone, Option.toList_none, List.append_nil, hactive]
      exact hheld
    sends := fun id hid => by
      dsimp only at hid ⊢
      rw [hsending] at hid
      rw [hflows]
      exact hg.sends id hid
    asks := fun hnone hnear hmem => by
      obtain ⟨id, hid, -⟩ := hmem
      dsimp only at hnone hid
      rw [hself] at hid
      exact hasks (hsending.symm.trans hnone) (Array.ne_empty_of_mem hid) (hnow ▸ hnear) }
  unfold MagicNet.pushBack
  dsimp only
  rw [← hactive, ← hnet₂]
  split_ifs with hask
  · refine hscheduled _ (.inr ⟨s.minFinishTime, (hsearched.later hask.2.2).le, ?_⟩) fun _ _ _ => ?_
    · rw [hunchanged]
    · exact ⟨_, EventQueue.mem_add.2 (.inr rfl), rfl⟩
  · refine hscheduled net₂.events (.inl hunchanged) fun hfound hne hnear => absurd ?_ hask
    refine ⟨hfound, by simpa using hne, hsearched.below hnear fun htried => hne ?_⟩
    rw [hactive, htried]
    exact hempty hfound htried

lemma Scheduled.flow {β : Type} (hsch : Scheduled σ net h net') (f : MagicFlow → β)
    (hf : ∀ flow n, f { flow with remainingPktThisRound := n } = f flow) (id : FlowId) :
    f (net'.flows id) = f (net.flows id) := by
  rcases hsch.flows id with heq | ⟨n, -, heq⟩
  · rw [heq]
  · rw [heq, hf]

lemma Scheduled.ofKind (hsch : Scheduled σ net h net') {kind : MagicEvent}
    (hne : .schedule h ≠ kind) : net'.events.ofKind kind = net.events.ofKind kind := by
  rcases hsch.events with heq | ⟨time, -, heq⟩
  · rw [heq]
  · rw [heq, EventQueue.ofKind_add_ne _ _ hne]

lemma Scheduled.mem_events (hsch : Scheduled σ net h net') {e : QueuedEvent Time MagicEvent}
    (he : e ∈ net.events.events) : e ∈ net'.events.events := by
  rcases hsch.events with heq | ⟨time, -, heq⟩
  · rwa [heq]
  · rw [heq]
    exact EventQueue.mem_add.2 (.inl he)

lemma Asks.mono {k : HostId} (ha : Asks σ net k) (hnow : net.now ≤ net'.now)
    (hactive : (net'.hosts k).activeSendingFlows = (net.hosts k).activeSendingFlows)
    (hfinished : ∀ id, (net.flows id).finished = true → (net'.flows id).finished = true)
    (hevents : ∀ e ∈ net.events.events, e.kind = .schedule k → e ∈ net'.events.events) :
    Asks σ net' k := by
  rintro hnear ⟨id, hid, hnot⟩
  have hnot' : (net.flows id).finished = false := by
    by_contra hdone
    exact Bool.false_ne_true (hnot.symm.trans (hfinished id (by simpa using hdone)))
  obtain ⟨e, he, hkind⟩ := ha (lt_of_le_of_lt (by gcongr) hnear) ⟨id, hactive ▸ hid, hnot'⟩
  exact ⟨e, hevents e he hkind, hkind⟩

lemma Prompt.mono {k : HostId} (hp : Prompt σ net k) (hnow : net.now ≤ net'.now)
    (hactive : (net'.hosts k).activeSendingFlows = (net.hosts k).activeSendingFlows)
    (hsending : (net'.hosts k).flowSending = (net.hosts k).flowSending)
    (hproc : (net'.hosts k).hostProcEvent = (net.hosts k).hostProcEvent)
    (hfinished : ∀ id, (net.flows id).finished = true → (net'.flows id).finished = true)
    (hevents : ∀ e ∈ net.events.events, e.kind = .schedule k → e ∈ net'.events.events) :
    Prompt σ net' k where
  goes hne := by
    rw [hsending] at hne
    rw [hproc]
    exact hp.goes hne
  asks hnone := (hp.asks (hsending ▸ hnone)).mono hnow hactive hfinished hevents

/-- **What `schedule` keeps.** -/
lemma Scheduled.ready (hsch : Scheduled σ net h net') (hw : Works σ net h)
    (hnone : (net.hosts h).flowSending = none) : Ready σ net' h := by
  obtain ⟨hs, hothers⟩ := hw
  have hstarted := hsch.flow MagicFlow.started fun _ _ => rfl
  have hfinished := hsch.flow MagicFlow.finished fun _ _ => rfl
  have hinfl := hsch.flow MagicFlow.addedInflTime fun _ _ => rfl
  have hmono : ∀ id, (net.flows id).finished = true → (net'.flows id).finished = true :=
    fun id hdone => (hfinished id).trans hdone
  refine ⟨⟨?_, fun k hk => ?_⟩, hsch.asks⟩
  · exact {
      holds := fun k => by
        rcases eq_or_ne k h with rfl | hne
        · obtain ⟨dropped, hdropped, hperm⟩ := hsch.held
          exact ((hs.holds k).drop dropped hdropped hperm).mono hstarted hmono
        · obtain ⟨hactive, hsending⟩ := hsch.others k hne
          refine ((hs.holds k).perm ?_).mono hstarted hmono
          rw [MagicHost.held, MagicHost.held, hactive, hsending]
      receives := fun k => hsch.now ▸ hsch.receives k
      tracks := fun k => (hsch.procEvent k).symm ▸ (hs.tracks k).congr (hsch.ofKind nofun)
      timeout := fun k hk => by
        rw [hsch.timeout]
        rw [hsch.procEvent] at hk
        exact hs.timeout k hk
      arrives := fun id => by
        have harr := hs.arrives id
        have hkind : net'.events.ofKind (.flowArrival id) = net.events.ofKind (.flowArrival id) :=
          hsch.ofKind nofun
        refine ⟨?_, ?_, ?_⟩
        · rw [hkind]
          exact harr.once
        · rw [hkind, hstarted, hinfl]
          exact harr.again
        · rw [hkind, hstarted, hsch.flow MagicFlow.arrived fun _ _ => rfl]
          exact harr.first
      ends := fun id => by
        have hends := hs.ends id
        refine ⟨?_, ?_, ?_⟩
        · rw [hfinished, hsch.flow MagicFlow.receivedCount fun _ _ => rfl,
            hsch.flow MagicFlow.delivered fun _ _ => rfl]
          exact hends.count
        · rw [hfinished, hsch.inFlight, hsch.flow MagicFlow.delivered fun _ _ => rfl]
          exact hends.acked
        · rw [hsch.inFlight, hsch.flow MagicFlow.delivered fun _ _ => rfl,
            hsch.flow MagicFlow.sendCount fun _ _ => rfl]
          exact hends.sent
      rounds := fun id => by
        refine ⟨?_, ?_⟩
        · rcases hsch.flows id with heq | ⟨n, hn, heq⟩
          · rw [heq]
            exact (hs.rounds id).1
          · rw [heq]
            exact hn
        · rw [hsch.flow MagicFlow.ackTimeout fun _ _ => rfl, hsch.now]
          exact (hs.rounds id).2
      done := fun e he id hkind => by
        rw [hfinished]
        rcases hsch.events with heq | ⟨time, -, heq⟩
        · exact hs.done e (heq ▸ he) id hkind
        · rw [heq] at he
          rcases EventQueue.mem_add.1 he with he | rfl
          · exact hs.done e he id hkind
          · cases hkind
      now_nonneg := hsch.now ▸ hs.now_nonneg
      later := fun e he => by
        rw [hsch.now]
        rcases hsch.events with heq | ⟨time, htime, heq⟩
        · exact hs.later e (heq ▸ he)
        · rw [heq] at he
          rcases EventQueue.mem_add.1 he with he | rfl
          · exact hs.later e he
          · exact htime }
  · obtain ⟨hactive, hsending⟩ := hsch.others k hk
    exact (hothers k hk).mono hsch.now.ge hactive hsending (hsch.procEvent k) hmono
      fun e he _ => hsch.mem_events he

/-- **`schedule`** does not fail, and leaves the host ready. -/
lemma Works.schedule (hw : Works σ net h) : ∃ net', net.schedule σ h = some net' ∧
    Ready σ net' h ∧ net'.now = net.now ∧ ((net.hosts h).flowSending = none →
      ∀ id ∈ (net'.hosts h).flowSending, 0 < (net'.flows id).remainingPktThisRound) := by
  by_cases hnone : (net.hosts h).flowSending = none
  · have hs := hw.sound
    have hstart : Searched σ net (net.hosts h).activeSendingFlows.toList
        { active := (net.hosts h).activeSendingFlows } :=
      ⟨⟨[], nofun, by simp⟩, nofun, fun hlt => absurd hlt (lt_irrefl _),
        fun _ hne => absurd rfl hne⟩
    obtain ⟨s, hsearch, hsearched, hempty⟩ := hs.search le_rfl rfl hstart
    have hgiven : ∃ net₁, s.found.elim (some net) (net.give σ) = some net₁ ∧
        Given σ net h s.found net₁ := by
      cases hfound : s.found with
      | none => exact ⟨net, rfl, hs.given_none hnone⟩
      | some id =>
        refine hs.give hnone ((hs.holds h).mine id ?_).1
        obtain ⟨dropped, -, hperm⟩ := hsearched.split
        refine List.mem_append_left _ (hperm.mem_iff.2 ?_)
        simp [hfound]
    obtain ⟨net₁, hnet₁, hg⟩ := hgiven
    have hsch := hg.pushBack hnone hsearched hempty
    refine ⟨net₁.pushBack σ h s, ?_, hsch.ready hw hnone, hsch.now, fun _ => hsch.sends⟩
    unfold MagicNet.schedule
    dsimp only
    rw [if_pos hnone, hsearch, Option.bind_some, hnet₁, Option.map_some]
  · exact ⟨net, by rw [MagicNet.schedule, if_neg hnone], ⟨hw, fun h => absurd h hnone⟩, rfl,
      fun h => absurd h hnone⟩

end MagicNet

end DcSim
