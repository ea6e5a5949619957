import DcSim.Packet
import DcSim.Runs
import Mathlib.Data.Finset.Card
import Mathlib.Data.List.Dedup
import Mathlib.Data.List.Sort

/-!
The order in which an SNS host serves its flows.

`SnsHost::send` takes one flow out of `active_sending_flows`, lets it send and puts it back at the
end. There are three ways to find the flow, between which the host may be switched at any time: the
next one, the next one whose receiver is among at most ten, and the next one of the next
collective. A flow that is finished is taken out where it is met. A flow can finish while it waits,
or in its own call of `send_pending_data`.
-/

namespace DcSim

open Runs

structure SendSpec where
  dst : FlowId → HostId
  collectiveId : FlowId → ℕ

def maxParallelReceivers : ℕ := 10

structure SnsScheduler where
  -- The part of an `SnsHost` that finds the next flow, the flows it was given, and their field
  -- `finished`.
  activeSendingFlows : List FlowId
  activeReceivers : Finset HostId
  enableParallelReceiverLimit : Bool
  enableCollectiveRoundRobin : Bool
  autoFallbackSingleCollective : Bool
  currentCollectiveIndex : ℕ
  collectiveFlowIndex : ℕ → ℕ
  started : List FlowId
  finished : FlowId → Bool

namespace SnsScheduler

def init : SnsScheduler := ⟨[], ∅, false, true, true, 0, fun _ => 0, [], fun _ => false⟩

/-- The first flow that is not finished, and the flows after it. -/
def popUnfinished (finished : FlowId → Bool) : List FlowId → Option (FlowId × List FlowId)
  | [] => none
  | f :: fs => if finished f then popUnfinished finished fs else some (f, fs)

/-- The loop of `send_with_parallel_receiver_limit`: the flows that were tried or not reached, the
receivers and the flow that sends. -/
def limitLoop (σ : SendSpec) (finished : FlowId → Bool) (receivers : Finset HostId) :
    List FlowId → List FlowId → List FlowId × Finset HostId × Option FlowId
  | tried, [] => (tried, receivers, none)
  | tried, f :: fs =>
    if finished f then limitLoop σ finished receivers tried fs
    else if σ.dst f ∈ receivers ∨ receivers.card < maxParallelReceivers then
      (fs ++ (tried ++ [f]), insert (σ.dst f) receivers, some f)
    else limitLoop σ finished receivers (tried ++ [f]) fs

/-- The next flow of a collective, for so many attempts, and the index for the next time. -/
def pickFlow (finished : FlowId → Bool) (flows : List FlowId) : ℕ → ℕ → ℕ × Option FlowId
  | 0, flowIndex => (flowIndex, none)
  | attempts + 1, flowIndex =>
    let i := flowIndex % flows.length
    let next := (i + 1) % flows.length
    match flows[i]? with
    | some f => if finished f then pickFlow finished flows attempts next else (next, some f)
    | none => (next, none)

/-- `get_next_flow_round_robin`, for so many attempts. -/
def getNextFlowRoundRobin (flows : ℕ → List FlowId) (order : List ℕ) :
    ℕ → SnsScheduler → SnsScheduler × Option FlowId
  | 0, S => (S, none)
  | attempts + 1, S =>
    match order[S.currentCollectiveIndex]? with
    | none => (S, none)
    | some c =>
      let r := pickFlow S.finished (flows c) (flows c).length (S.collectiveFlowIndex c)
      let S := { S with
        collectiveFlowIndex := Function.update S.collectiveFlowIndex c r.1
        currentCollectiveIndex := (S.currentCollectiveIndex + 1) % order.length }
      match r.2 with
      | some f => (S, some f)
      | none => getNextFlowRoundRobin flows order attempts S

/-- The loop of `send_with_collective_round_robin`; each turn takes a flow out. -/
def collectiveLoop (flows : ℕ → List FlowId) (order : List ℕ) :
    ℕ → SnsScheduler → SnsScheduler × Option FlowId
  | 0, S => (S, none)
  | turns + 1, S =>
    if S.activeSendingFlows = [] then (S, none)
    else
      match getNextFlowRoundRobin flows order order.length S with
      | (S, none) => (S, none)
      | (S, some f) =>
        let S := { S with activeSendingFlows := S.activeSendingFlows.erase f }
        if S.finished f then collectiveLoop flows order turns S
        else ({ S with activeSendingFlows := S.activeSendingFlows ++ [f] }, some f)

variable (σ : SendSpec) (S : SnsScheduler)

/-- The simple round robin, and the flow that sends. -/
def sendSimple : SnsScheduler × Option FlowId :=
  match popUnfinished S.finished S.activeSendingFlows with
  | none => ({ S with activeSendingFlows := [] }, none)
  | some (f, fs) => ({ S with activeSendingFlows := fs ++ [f] }, some f)

def cleanReceivers : Finset HostId :=
  S.activeReceivers.filter fun r => S.activeSendingFlows.any fun f => !S.finished f && σ.dst f == r

/-- `send_with_parallel_receiver_limit`, and the flow that sends. -/
def sendWithParallelReceiverLimit : SnsScheduler × Option FlowId :=
  let r := limitLoop σ S.finished (S.cleanReceivers σ) [] S.activeSendingFlows
  ({ S with activeSendingFlows := r.1, activeReceivers := r.2.1 }, r.2.2)

/-- The flows of the map `collective_flows`. -/
def collectiveFlows (c : ℕ) : List FlowId :=
  S.activeSendingFlows.filter fun f => !S.finished f && σ.collectiveId f == c

/-- `collective_order`, the keys of the map `collective_flows`. -/
def collectiveOrder : List ℕ :=
  (((S.activeSendingFlows.filter fun f => !S.finished f).map σ.collectiveId).dedup).insertionSort
    (· ≤ ·)

/-- `send_with_collective_round_robin`, after `organize_flows_by_collective`, and the flow that
sends. -/
def sendWithCollectiveRoundRobin : SnsScheduler × Option FlowId :=
  let S := { S with currentCollectiveIndex := 0 }
  if S.autoFallbackSingleCollective ∧ (S.collectiveOrder σ).length ≤ 1 then S.sendSimple
  else collectiveLoop (S.collectiveFlows σ) (S.collectiveOrder σ) S.activeSendingFlows.length S

/-- `send`, and the flow whose `send_pending_data` is called. -/
def send : SnsScheduler × Option FlowId :=
  if S.enableParallelReceiverLimit then S.sendWithParallelReceiverLimit σ
  else if S.enableCollectiveRoundRobin then S.sendWithCollectiveRoundRobin σ
  else S.sendSimple

def startFlow (f : FlowId) : SnsScheduler :=
  { S with activeSendingFlows := S.activeSendingFlows ++ [f], started := S.started ++ [f] }

def finish (f : FlowId) : SnsScheduler := { S with finished := Function.update S.finished f true }

/-- `send`, in which the flow that sends may finish. -/
def sendAndFinish (finishes : Bool) : SnsScheduler :=
  match S.send σ with
  | (S, some f) => if finishes then S.finish f else S
  | (S, none) => S

end SnsScheduler

inductive ScheduleAct
  | startFlow (f : FlowId)
  | finish (f : FlowId)
  | setParallelReceiverLimit (enabled : Bool)
  | setCollectiveRoundRobin (enabled : Bool)
  | setAutoFallbackSingleCollective (enabled : Bool)
  | send (finishes : Bool)

namespace SnsScheduler

variable (σ : SendSpec)

/-- A flow is started once. -/
def next (S : SnsScheduler) : ScheduleAct → Option SnsScheduler
  | .startFlow f => if f ∉ S.started then some (S.startFlow f) else none
  | .finish f => some (S.finish f)
  | .setParallelReceiverLimit b => some { S with enableParallelReceiverLimit := b }
  | .setCollectiveRoundRobin b => some { S with enableCollectiveRoundRobin := b }
  | .setAutoFallbackSingleCollective b => some { S with autoFallbackSingleCollective := b }
  | .send finishes => some (S.sendAndFinish σ finishes)

def machine : Machine SnsScheduler ScheduleAct := ⟨init, next σ⟩

variable {σ} {S R : SnsScheduler} {o : Option FlowId} {f : FlowId} {fs : List FlowId}
  {finished : FlowId → Bool}

/-! ### What the loops find -/

lemma popUnfinished_eq_none (h : popUnfinished finished fs = none) :
    ∀ f ∈ fs, finished f = true := by
  induction fs with
  | nil => simp
  | cons f fs ih =>
    unfold popUnfinished at h
    split_ifs at h with hf
    exact List.forall_mem_cons.2 ⟨hf, ih h⟩

lemma popUnfinished_eq_some {rest : List FlowId} (h : popUnfinished finished fs = some (f, rest)) :
    ∃ l, fs = l ++ f :: rest ∧ (∀ g ∈ l, finished g = true) ∧ finished f = false := by
  induction fs with
  | nil => exact nomatch h
  | cons g fs ih =>
    unfold popUnfinished at h
    split_ifs at h with hg
    · obtain ⟨l, rfl, hl, hf⟩ := ih h
      exact ⟨g :: l, rfl, List.forall_mem_cons.2 ⟨hg, hl⟩, hf⟩
    · obtain ⟨rfl, rfl⟩ := Prod.mk.inj (Option.some.inj h)
      exact ⟨[], rfl, by simp, Bool.not_eq_true _ ▸ hg⟩

lemma count_eq_zero_of_finished {l : List FlowId} {g : FlowId}
    (hl : ∀ f ∈ l, finished f = true) (hg : finished g = false) : l.count g = 0 :=
  List.count_eq_zero.2 fun hmem => absurd (hl g hmem) (by simp [hg])

structure LoopKeeps (σ : SendSpec) (finished : FlowId → Bool) (receivers : Finset HostId)
    (tried fs : List FlowId) (r : List FlowId × Finset HostId × Option FlowId) : Prop where
  count : ∀ g, finished g = false → r.1.count g = (tried ++ fs).count g
  mem : ∀ g ∈ r.1, g ∈ tried ++ fs
  sends : ∀ f, r.2.2 = some f → f ∈ fs ∧ finished f = false ∧
    (σ.dst f ∈ receivers ∨ receivers.card < maxParallelReceivers) ∧
    r.2.1 = insert (σ.dst f) receivers
  blocked : r.2.2 = none → r.2.1 = receivers ∧ ∀ f ∈ fs, finished f = false →
    σ.dst f ∉ receivers ∧ maxParallelReceivers ≤ receivers.card

lemma loopKeeps_limitLoop (σ : SendSpec) (finished : FlowId → Bool) (receivers : Finset HostId)
    (tried fs : List FlowId) :
    LoopKeeps σ finished receivers tried fs (limitLoop σ finished receivers tried fs) := by
  induction fs generalizing tried with
  | nil => exact ⟨by simp [limitLoop], by simp [limitLoop], nofun, fun _ => ⟨rfl, by simp⟩⟩
  | cons f fs ih =>
    unfold limitLoop
    split_ifs with hf hcan
    · obtain ⟨hcount, hmem, hsends, hblocked⟩ := ih tried
      refine ⟨fun g hg => ?_, fun g hg => ?_, fun g hg => ?_, fun hnone => ?_⟩
      · have hne : f ≠ g := by
          rintro rfl
          exact absurd hf (by simp [hg])
        rw [hcount g hg, List.count_append, List.count_append, List.count_cons_of_ne hne]
      · rcases List.mem_append.1 (hmem g hg) with h | h
        · exact List.mem_append_left _ h
        · exact List.mem_append_right _ (List.mem_cons_of_mem _ h)
      · obtain ⟨hmem, hrest⟩ := hsends g hg
        exact ⟨List.mem_cons_of_mem _ hmem, hrest⟩
      · obtain ⟨hsame, hall⟩ := hblocked hnone
        refine ⟨hsame, List.forall_mem_cons.2 ⟨fun h => absurd hf (by simp [h]), hall⟩⟩
    · refine ⟨fun g _ => ?_, fun g hg => ?_, fun g hg => ?_, nofun⟩
      · simp only [List.count_append, List.count_cons, List.count_nil]
        omega
      · simp only [List.mem_append, List.mem_cons, List.not_mem_nil, or_false] at hg ⊢
        tauto
      · obtain rfl : f = g := Option.some.inj hg
        exact ⟨List.mem_cons_self, Bool.not_eq_true _ ▸ hf, hcan, rfl⟩
    · obtain ⟨hcount, hmem, hsends, hblocked⟩ := ih (tried ++ [f])
      rw [List.append_assoc, List.singleton_append] at hcount hmem
      refine ⟨hcount, hmem, fun g hg => ?_, fun hnone => ?_⟩
      · obtain ⟨hmem, hrest⟩ := hsends g hg
        exact ⟨List.mem_cons_of_mem _ hmem, hrest⟩
      · obtain ⟨hsame, hall⟩ := hblocked hnone
        obtain ⟨hno, hfull⟩ := not_or.1 hcan
        exact ⟨hsame, List.forall_mem_cons.2 ⟨fun _ => ⟨hno, not_lt.1 hfull⟩, hall⟩⟩

structure Picks (S : SnsScheduler) (r : SnsScheduler × Option FlowId) : Prop where
  count : ∀ g, S.finished g = false →
    r.1.activeSendingFlows.count g = S.activeSendingFlows.count g
  mem : ∀ g ∈ r.1.activeSendingFlows, g ∈ S.activeSendingFlows
  started : r.1.started = S.started
  finished : r.1.finished = S.finished
  sends : ∀ f, r.2 = some f → f ∈ S.activeSendingFlows ∧ S.finished f = false
  idle : r.2 = none → ∀ f ∈ S.activeSendingFlows, S.finished f = true

lemma picks_sendSimple (S : SnsScheduler) : Picks S S.sendSimple := by
  unfold sendSimple
  split
  case h_1 h =>
    have hall := popUnfinished_eq_none h
    refine ⟨fun g hg => ?_, by simp, rfl, rfl, nofun, fun _ => hall⟩
    rw [count_eq_zero_of_finished hall hg, List.count_nil]
  case h_2 f fs h =>
    obtain ⟨l, hactive, hl, hf⟩ := popUnfinished_eq_some h
    refine ⟨fun g hg => ?_, fun g hg => ?_, rfl, rfl, fun g hg => ?_, nofun⟩
    · simp only [hactive, List.count_append, List.count_cons, List.count_nil,
        count_eq_zero_of_finished hl hg]
      omega
    · simp only [hactive, List.mem_append, List.mem_cons, List.not_mem_nil, or_false] at hg ⊢
      tauto
    · obtain rfl : f = g := Option.some.inj hg
      exact ⟨by simp [hactive], hf⟩

lemma picks_sendWithParallelReceiverLimit (σ : SendSpec) (S : SnsScheduler) :
    Picks S (S.sendWithParallelReceiverLimit σ) := by
  obtain ⟨hcount, hmem, hsends, hblocked⟩ :=
    loopKeeps_limitLoop σ S.finished (S.cleanReceivers σ) [] S.activeSendingFlows
  refine ⟨hcount, hmem, rfl, rfl, fun f hf => ⟨(hsends f hf).1, (hsends f hf).2.1⟩,
    fun hnone f hf => ?_⟩
  by_contra hunfinished
  obtain ⟨-, hall⟩ := hblocked hnone
  obtain ⟨-, hfull⟩ := hall f hf (Bool.not_eq_true _ ▸ hunfinished)
  obtain ⟨r, hr⟩ : (S.cleanReceivers σ).Nonempty := by
    rw [← Finset.card_pos]
    exact lt_of_lt_of_le (by decide) hfull
  obtain ⟨g, hg, hgr⟩ := List.any_eq_true.1 (Finset.mem_filter.1 hr).2
  simp only [Bool.and_eq_true, Bool.not_eq_true', beq_iff_eq] at hgr
  obtain ⟨hgu, rfl⟩ := hgr
  exact (hall g hg hgu).1 hr

lemma receivers_sendWithParallelReceiverLimit (σ : SendSpec)
    (hS : S.activeReceivers.card ≤ maxParallelReceivers) :
    (S.sendWithParallelReceiverLimit σ).1.activeReceivers.card ≤ maxParallelReceivers ∧
      ∀ f, (S.sendWithParallelReceiverLimit σ).2 = some f →
        σ.dst f ∈ (S.sendWithParallelReceiverLimit σ).1.activeReceivers := by
  obtain ⟨-, -, hsends, hblocked⟩ :=
    loopKeeps_limitLoop σ S.finished (S.cleanReceivers σ) [] S.activeSendingFlows
  have hclean : (S.cleanReceivers σ).card ≤ maxParallelReceivers :=
    (Finset.card_filter_le _ _).trans hS
  unfold sendWithParallelReceiverLimit
  dsimp only
  constructor
  · cases ho : (limitLoop σ S.finished (S.cleanReceivers σ) [] S.activeSendingFlows).2.2 with
    | none =>
      rw [(hblocked ho).1]
      exact hclean
    | some f =>
      obtain ⟨-, -, hcan, hreceivers⟩ := hsends f ho
      rw [hreceivers]
      rcases hcan with hmem | hlt
      · rwa [Finset.insert_eq_of_mem hmem]
      · exact (Finset.card_insert_le _ _).trans hlt
  · intro f hf
    rw [(hsends f hf).2.2.2]
    exact Finset.mem_insert_self _ _

/-! ### The collectives -/

lemma exists_pickFlow {flows : List FlowId} (hne : flows ≠ [])
    (hall : ∀ f ∈ flows, finished f = false) (attempts flowIndex : ℕ) :
    ∃ i, ∃ f ∈ flows, pickFlow finished flows (attempts + 1) flowIndex = (i, some f) := by
  have hlt : flowIndex % flows.length < flows.length :=
    Nat.mod_lt _ (List.length_pos_iff.2 hne)
  have hmem := List.getElem_mem hlt
  refine ⟨(flowIndex % flows.length + 1) % flows.length, _, hmem, ?_⟩
  simp only [pickFlow, List.getElem?_eq_getElem hlt, hall _ hmem, Bool.false_eq_true, if_false]

lemma exists_getNextFlow {flows : ℕ → List FlowId} {order : List ℕ}
    (hindex : S.currentCollectiveIndex < order.length)
    (hflows : ∀ c ∈ order, flows c ≠ [] ∧ ∀ f ∈ flows c, S.finished f = false) (attempts : ℕ) :
    ∃ i j, ∃ c ∈ order, ∃ f ∈ flows c, getNextFlowRoundRobin flows order (attempts + 1) S =
      ({ S with collectiveFlowIndex := i, currentCollectiveIndex := j }, some f) := by
  have hc := List.getElem_mem hindex
  obtain ⟨hne, hall⟩ := hflows _ hc
  obtain ⟨n, hn⟩ : ∃ n, (flows order[S.currentCollectiveIndex]).length = n + 1 :=
    ⟨_, (Nat.succ_pred_eq_of_pos (List.length_pos_iff.2 hne)).symm⟩
  obtain ⟨i, f, hf, hpick⟩ :=
    exists_pickFlow hne hall n (S.collectiveFlowIndex order[S.currentCollectiveIndex])
  refine ⟨Function.update S.collectiveFlowIndex order[S.currentCollectiveIndex] i,
    (S.currentCollectiveIndex + 1) % order.length, _, hc, f, hf, ?_⟩
  simp only [getNextFlowRoundRobin, List.getElem?_eq_getElem hindex, hn, hpick]

lemma mem_collectiveOrder {c : ℕ} : c ∈ S.collectiveOrder σ ↔
    ∃ f ∈ S.activeSendingFlows, S.finished f = false ∧ σ.collectiveId f = c := by
  unfold collectiveOrder
  simp only [List.mem_insertionSort, List.mem_dedup, List.mem_map, List.mem_filter,
    Bool.not_eq_true', and_assoc]

lemma mem_collectiveFlows {c : ℕ} : f ∈ S.collectiveFlows σ c ↔
    f ∈ S.activeSendingFlows ∧ S.finished f = false ∧ σ.collectiveId f = c := by
  simp only [collectiveFlows, List.mem_filter, Bool.and_eq_true, Bool.not_eq_true', beq_iff_eq]

lemma picks_collectiveLoop (hindex : S.currentCollectiveIndex = 0) : Picks S
    (collectiveLoop (S.collectiveFlows σ) (S.collectiveOrder σ) S.activeSendingFlows.length S) := by
  have hflows : ∀ c ∈ S.collectiveOrder σ, S.collectiveFlows σ c ≠ [] ∧
      ∀ f ∈ S.collectiveFlows σ c, S.finished f = false := by
    intro c hc
    obtain ⟨f, hf, hu, rfl⟩ := mem_collectiveOrder.1 hc
    exact ⟨List.ne_nil_of_mem (mem_collectiveFlows.2 ⟨hf, hu, rfl⟩),
      fun g hg => (mem_collectiveFlows.1 hg).2.1⟩
  by_cases horder : S.collectiveOrder σ = []
  · have hall : ∀ f ∈ S.activeSendingFlows, S.finished f = true := by
      intro f hf
      by_contra hu
      have hmem := mem_collectiveOrder (σ := σ).2 ⟨f, hf, Bool.not_eq_true _ ▸ hu, rfl⟩
      rw [horder] at hmem
      exact nomatch hmem
    have hnone : collectiveLoop (S.collectiveFlows σ) (S.collectiveOrder σ)
        S.activeSendingFlows.length S = (S, none) := by
      rw [horder]
      cases S.activeSendingFlows.length with
      | zero => rfl
      | succ n =>
        simp only [collectiveLoop, List.length_nil, getNextFlowRoundRobin, ite_self]
    rw [hnone]
    exact ⟨fun _ _ => rfl, fun _ hg => hg, rfl, rfl, nofun, fun _ => hall⟩
  · have hlength : 0 < (S.collectiveOrder σ).length := List.length_pos_iff.2 horder
    obtain ⟨n, hn⟩ : ∃ n, (S.collectiveOrder σ).length = n + 1 :=
      ⟨_, (Nat.succ_pred_eq_of_pos hlength).symm⟩
    obtain ⟨i, j, c, -, f, hf, hnext⟩ := exists_getNextFlow (hindex ▸ hlength) hflows n
    obtain ⟨hactive, hu, -⟩ := mem_collectiveFlows.1 hf
    obtain ⟨m, hm⟩ : ∃ m, S.activeSendingFlows.length = m + 1 :=
      ⟨_, (Nat.succ_pred_eq_of_pos (List.length_pos_of_mem hactive)).symm⟩
    have hloop : collectiveLoop (S.collectiveFlows σ) (S.collectiveOrder σ)
        S.activeSendingFlows.length S = ({ S with
          activeSendingFlows := S.activeSendingFlows.erase f ++ [f]
          collectiveFlowIndex := i
          currentCollectiveIndex := j }, some f) := by
      rw [hm, collectiveLoop, if_neg (List.ne_nil_of_mem hactive), hn, hnext]
      simp only [hu, Bool.false_eq_true, if_false]
    -- the flow goes to the end
    have hperm : (S.activeSendingFlows.erase f ++ [f]).Perm S.activeSendingFlows :=
      (List.perm_append_singleton _ _).trans (List.perm_cons_erase hactive).symm
    rw [hloop]
    refine ⟨fun g _ => hperm.count_eq g, fun g hg => hperm.mem_iff.1 hg, rfl, rfl, fun g hg => ?_,
      nofun⟩
    obtain rfl : f = g := Option.some.inj hg
    exact ⟨hactive, hu⟩

/-- **A call of `send`** finds a flow that is not finished if there is one, and loses none. -/
theorem picks_send (σ : SendSpec) (S : SnsScheduler) : Picks S (S.send σ) := by
  have hsimple : Picks S ({ S with currentCollectiveIndex := 0 } : SnsScheduler).sendSimple := by
    obtain ⟨hcount, hmem, hstarted, hfinished, hsends, hidle⟩ :=
      picks_sendSimple ({ S with currentCollectiveIndex := 0 } : SnsScheduler)
    exact ⟨hcount, hmem, hstarted, hfinished, hsends, hidle⟩
  unfold send
  split_ifs
  · exact picks_sendWithParallelReceiverLimit σ S
  · unfold sendWithCollectiveRoundRobin
    dsimp only
    split_ifs
    · exact hsimple
    · obtain ⟨hcount, hmem, hstarted, hfinished, hsends, hidle⟩ :=
        picks_collectiveLoop (σ := σ) (S := { S with currentCollectiveIndex := 0 }) rfl
      exact ⟨hcount, hmem, hstarted, hfinished, hsends, hidle⟩
  · exact picks_sendSimple S

lemma activeReceivers_getNextFlow (flows : ℕ → List FlowId) (order : List ℕ) (attempts : ℕ)
    (S : SnsScheduler) :
    (getNextFlowRoundRobin flows order attempts S).1.activeReceivers = S.activeReceivers := by
  induction attempts generalizing S with
  | zero => rfl
  | succ attempts ih =>
    unfold getNextFlowRoundRobin
    split
    · rfl
    · dsimp only
      split
      · rfl
      · exact ih _

lemma activeReceivers_collectiveLoop (flows : ℕ → List FlowId) (order : List ℕ) (turns : ℕ)
    (S : SnsScheduler) :
    (collectiveLoop flows order turns S).1.activeReceivers = S.activeReceivers := by
  induction turns generalizing S with
  | zero => rfl
  | succ turns ih =>
    have hnext := activeReceivers_getNextFlow flows order order.length S
    unfold collectiveLoop
    split_ifs
    · rfl
    · split
      case h_1 R h => rwa [h] at hnext
      case h_2 R f h =>
        rw [h] at hnext
        dsimp only
        split_ifs
        · exact (ih _).trans hnext
        · exact hnext

lemma receivers_send (σ : SendSpec) (hS : S.activeReceivers.card ≤ maxParallelReceivers) :
    (S.send σ).1.activeReceivers.card ≤ maxParallelReceivers ∧
      (S.enableParallelReceiverLimit = true → ∀ f, (S.send σ).2 = some f →
        σ.dst f ∈ (S.send σ).1.activeReceivers) := by
  have hsimple : ∀ S : SnsScheduler, S.sendSimple.1.activeReceivers = S.activeReceivers := by
    intro S
    unfold sendSimple
    split <;> rfl
  unfold send
  split_ifs with hlimit
  · obtain ⟨hcard, hmem⟩ := receivers_sendWithParallelReceiverLimit σ hS
    exact ⟨hcard, fun _ => hmem⟩
  · refine ⟨?_, fun h => absurd h hlimit⟩
    unfold sendWithCollectiveRoundRobin
    dsimp only
    split_ifs
    · rwa [hsimple]
    · rwa [activeReceivers_collectiveLoop]
  · refine ⟨?_, fun h => absurd h hlimit⟩
    rwa [hsimple]

/-! ### All runs -/

structure Schedules (σ : SendSpec) (S : SnsScheduler) : Prop where
  once : ∀ f ∈ S.started, S.finished f = false → S.activeSendingFlows.count f = 1
  sends : (∃ f ∈ S.started, S.finished f = false) →
    ∃ f ∈ S.started, S.finished f = false ∧ (S.send σ).2 = some f
  card_le : S.activeReceivers.card ≤ maxParallelReceivers
  receiver_mem : S.enableParallelReceiverLimit = true → ∀ f, (S.send σ).2 = some f →
    σ.dst f ∈ (S.send σ).1.activeReceivers

structure Lists (S : SnsScheduler) : Prop where
  once : ∀ f ∈ S.started, S.finished f = false → S.activeSendingFlows.count f = 1
  started : ∀ f ∈ S.activeSendingFlows, f ∈ S.started
  card_le : S.activeReceivers.card ≤ maxParallelReceivers

lemma Lists.schedules (h : Lists S) : Schedules σ S where
  once := h.once
  sends := by
    rintro ⟨f, hf, hu⟩
    have hactive : f ∈ S.activeSendingFlows :=
      List.count_pos_iff.1 (by rw [h.once f hf hu]; decide)
    have hpicks := picks_send σ S
    cases ho : (S.send σ).2 with
    | none => exact absurd (hpicks.idle ho f hactive) (by simp [hu])
    | some g =>
      obtain ⟨hg, hgu⟩ := hpicks.sends g ho
      exact ⟨g, h.started g hg, hgu, rfl⟩
  card_le := h.card_le
  receiver_mem := (receivers_send σ h.card_le).2

lemma Lists.finish (h : Lists S) (f : FlowId) : Lists (S.finish f) := by
  refine ⟨fun g hg hu => h.once g hg ?_, h.started, h.card_le⟩
  have hu : Function.update S.finished f true g = false := hu
  rcases eq_or_ne g f with rfl | hne
  · simp at hu
  · rwa [Function.update_of_ne hne] at hu

lemma Lists.startFlow (h : Lists S) (hf : f ∉ S.started) : Lists (S.startFlow f) := by
  have hactive : f ∉ S.activeSendingFlows := fun hmem => hf (h.started f hmem)
  refine ⟨fun g hg hu => ?_, fun g hg => ?_, h.card_le⟩
  · have hcount : (S.startFlow f).activeSendingFlows.count g =
        S.activeSendingFlows.count g + [f].count g := List.count_append
    rcases List.mem_append.1 hg with hg | hg
    · have hne : f ≠ g := fun heq => hf (heq ▸ hg)
      rw [hcount, h.once g hg hu, List.count_cons_of_ne hne, List.count_nil]
    · obtain rfl := List.mem_singleton.1 hg
      rw [hcount, List.count_eq_zero.2 hactive, List.count_singleton_self]
  · rcases List.mem_append.1 hg with hg | hg
    · exact List.mem_append_left _ (h.started g hg)
    · exact List.mem_append_right _ hg

lemma Lists.sendAndFinish (h : Lists S) (finishes : Bool) : Lists (S.sendAndFinish σ finishes) := by
  have hpicks := picks_send σ S
  have hsent : Lists (S.send σ).1 := by
    refine ⟨fun f hf hu => ?_, fun f hf => ?_, (receivers_send σ h.card_le).1⟩
    · rw [hpicks.started] at hf
      rw [hpicks.finished] at hu
      rw [hpicks.count f hu]
      exact h.once f hf hu
    · rw [hpicks.started]
      exact h.started f (hpicks.mem f hf)
  unfold SnsScheduler.sendAndFinish
  split
  case h_1 R f heq =>
    rw [heq] at hsent
    split_ifs
    · exact hsent.finish f
    · exact hsent
  case h_2 R heq => rwa [heq] at hsent

lemma Lists.next {a : ScheduleAct} (h : Lists S) (hn : next σ S a = some R) : Lists R := by
  cases a with
  | startFlow f =>
    obtain ⟨hf, hn⟩ := Option.ite_none_right_eq_some.1 hn
    exact Option.some.inj hn ▸ h.startFlow hf
  | finish f => exact Option.some.inj hn ▸ h.finish f
  | setParallelReceiverLimit b | setCollectiveRoundRobin b | setAutoFallbackSingleCollective b =>
    exact Option.some.inj hn ▸ ⟨h.once, h.started, h.card_le⟩
  | send finishes => exact Option.some.inj hn ▸ h.sendAndFinish finishes

/-- **The scheduling of an SNS host** loses no flow, whatever the order of starts, completions,
calls and changes between the three ways. -/
theorem always_schedules (σ : SendSpec) (as : List ScheduleAct) :
    Always (machine σ) (Schedules σ) init as := by
  have hlists : Always (machine σ) Lists init as :=
    always_of_inv (fun h hn => Lists.next h hn) as
      ⟨by simp [init], by simp [init], by simp [init]⟩
  exact hlists.mono fun _ => Lists.schedules

end SnsScheduler

end DcSim
