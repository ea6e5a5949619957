import DcSim.SnsScheduler
import DcSim.Rotation

/-!
The two round robins of an SNS host, over the collectives and over the flows of one of them.

`organize_flows_by_collective` sets `current_collective_index` to zero, in each call of `send`, so
that a flow of the first collective is always selected. The flow that sends goes to the end of
`active_sending_flows`, of which the list of its collective is a part, while
`collective_flow_index` moves on: a `Rotation`.
-/

namespace DcSim

open Runs

namespace SnsScheduler

variable (σ : SendSpec)

/-- A call of `send`. -/
def isSend : ScheduleAct → Bool
  | .send _ => true
  | _ => false

def selected (S : SnsScheduler) : ScheduleAct → Option FlowId
  | .send _ => (S.send σ).2
  | _ => none

/-- The flows that are selected in a run. -/
def selections : SnsScheduler → List ScheduleAct → List FlowId
  | _, [] => []
  | S, a :: as => (S.selected σ a).toList ++ ((next σ S a).map fun T => selections T as).getD []

variable (S : SnsScheduler)

/-- The round robin over the collectives is switched on. -/
def CollectiveMode : Prop :=
  S.enableParallelReceiverLimit = false ∧ S.enableCollectiveRoundRobin = true

instance : Decidable S.CollectiveMode := inferInstanceAs (Decidable (_ ∧ _))

/-- The flows of a collective, with the index of the next one. -/
def rotation (c : ℕ) : Rotation.State FlowId := ⟨S.collectiveFlows σ c, S.collectiveFlowIndex c⟩

variable {σ S} {R : SnsScheduler} {c : ℕ} {f : FlowId}

/-! ### A call of `send` -/

lemma pick_rotation (hc : c ∈ S.collectiveOrder σ) :
    ∃ f, (S.rotation σ c).pick = some f ∧ f ∈ S.collectiveFlows σ c := by
  obtain ⟨g, hg, hu, rfl⟩ := mem_collectiveOrder.1 hc
  have hne : (S.rotation σ (σ.collectiveId g)).xs ≠ [] :=
    List.ne_nil_of_mem (mem_collectiveFlows.2 ⟨hg, hu, rfl⟩)
  exact ⟨_, List.getElem?_eq_getElem (Rotation.place_lt hne), List.getElem_mem _⟩

lemma pickFlow_rotation {attempts : ℕ} (hu : S.finished f = false)
    (hpick : (S.rotation σ c).pick = some f) :
    pickFlow S.finished (S.collectiveFlows σ c) (attempts + 1) (S.collectiveFlowIndex c) =
      ((S.rotation σ c).next.index, some f) := by
  have hpick : (S.collectiveFlows σ c)[S.collectiveFlowIndex c % (S.collectiveFlows σ c).length]? =
      some f := hpick
  simp only [pickFlow, hpick, hu, Bool.false_eq_true, if_false]
  rfl

lemma send_collectiveMode (hmode : S.CollectiveMode) {rest : List ℕ}
    (horder : S.collectiveOrder σ = c :: rest) (hrest : rest ≠ []) :
    ∃ f, (S.rotation σ c).pick = some f ∧ f ∈ S.collectiveFlows σ c ∧
      S.send σ = ({ S with
        activeSendingFlows := S.activeSendingFlows.erase f ++ [f]
        collectiveFlowIndex :=
          Function.update S.collectiveFlowIndex c (S.rotation σ c).next.index
        currentCollectiveIndex := 1 % (S.collectiveOrder σ).length }, some f) := by
  obtain ⟨f, hpick, hf⟩ := pick_rotation (horder ▸ List.mem_cons_self)
  obtain ⟨hactive, hu, -⟩ := mem_collectiveFlows.1 hf
  refine ⟨f, hpick, hf, ?_⟩
  obtain ⟨m, hm⟩ : ∃ m, S.activeSendingFlows.length = m + 1 :=
    ⟨_, (Nat.succ_pred_eq_of_pos (List.length_pos_of_mem hactive)).symm⟩
  obtain ⟨n, hn⟩ : ∃ n, (S.collectiveFlows σ c).length = n + 1 :=
    ⟨_, (Nat.succ_pred_eq_of_pos (List.length_pos_of_mem hf)).symm⟩
  have hlength : ¬ (c :: rest).length ≤ 1 := by
    have := List.length_pos_iff.2 hrest
    rw [List.length_cons]
    omega
  -- the index of the collectives is zero
  have hnext : getNextFlowRoundRobin (S.collectiveFlows σ) (c :: rest) (rest.length + 1)
      { S with currentCollectiveIndex := 0 } = ({ S with
        collectiveFlowIndex :=
          Function.update S.collectiveFlowIndex c (S.rotation σ c).next.index
        currentCollectiveIndex := 1 % (c :: rest).length }, some f) := by
    simp only [getNextFlowRoundRobin, List.getElem?_cons_zero, hn, pickFlow_rotation hu hpick,
      Nat.zero_add]
  have horganized : sendWithCollectiveRoundRobin σ S = collectiveLoop (S.collectiveFlows σ)
      (S.collectiveOrder σ) S.activeSendingFlows.length { S with currentCollectiveIndex := 0 } := by
    refine if_neg fun h => ?_
    rw [← horder] at hlength
    exact hlength h.2
  unfold send
  rw [if_neg (Bool.not_eq_true _ ▸ hmode.1), if_pos hmode.2, horganized, horder, hm, collectiveLoop,
    if_neg (List.ne_nil_of_mem hactive), List.length_cons, hnext]
  simp only [hu, Bool.false_eq_true, if_false, List.length_cons]

lemma collectiveFlows_moved {T : SnsScheduler} (hu : S.finished f = false)
    (hactive : T.activeSendingFlows = S.activeSendingFlows.erase f ++ [f])
    (hfinished : T.finished = S.finished) (d : ℕ) : T.collectiveFlows σ d =
      (S.collectiveFlows σ d).erase f ++ if σ.collectiveId f = d then [f] else [] := by
  have hlast : [f].filter (fun g => !S.finished g && σ.collectiveId g == d) =
      if σ.collectiveId f = d then [f] else [] := by
    split_ifs with hd <;> simp [hu, hd]
  unfold collectiveFlows
  rw [hactive, hfinished, List.filter_append, hlast, List.erase_filter]

lemma erase_eq_eraseIdx (hnodup : (S.collectiveFlows σ c).Nodup)
    (hpick : (S.rotation σ c).pick = some f) :
    (S.collectiveFlows σ c).erase f =
      (S.collectiveFlows σ c).eraseIdx (S.rotation σ c).place := by
  obtain ⟨hlt, hget⟩ := List.getElem?_eq_some_iff.1 hpick
  rw [← hnodup.erase_getElem _ hlt]
  exact congrArg _ hget.symm

structure Turns (σ : SendSpec) (S : SnsScheduler) (c : ℕ) (r : SnsScheduler × Option FlowId) :
    Prop where
  sends : (S.rotation σ c).pick = r.2
  order : r.1.collectiveOrder σ = S.collectiveOrder σ
  mode : r.1.CollectiveMode
  rotation : (S.collectiveFlows σ c).Nodup → r.1.rotation σ c = (S.rotation σ c).next
  rest : ∀ d ≠ c, r.1.rotation σ d = S.rotation σ d

lemma collectiveOrder_congr {T : SnsScheduler}
    (h : ∀ c, c ∈ T.collectiveOrder σ ↔ c ∈ S.collectiveOrder σ) :
    T.collectiveOrder σ = S.collectiveOrder σ := by
  have hnodup : ∀ S : SnsScheduler, (S.collectiveOrder σ).Nodup := fun S =>
    (List.perm_insertionSort _ _).nodup_iff.2 (List.nodup_dedup _)
  exact ((List.perm_ext_iff_of_nodup (hnodup T) (hnodup S)).2 h).eq_of_sortedLE
    List.sortedLE_insertionSort List.sortedLE_insertionSort

lemma turns_send (hmode : S.CollectiveMode) {rest : List ℕ}
    (horder : S.collectiveOrder σ = c :: rest) (hrest : rest ≠ []) :
    Turns σ S c (S.send σ) ∧ ∃ f, (S.send σ).2 = some f ∧ f ∈ S.collectiveFlows σ c := by
  obtain ⟨f, hpick, hf, hsend⟩ := send_collectiveMode hmode horder hrest
  obtain ⟨hactive, hu, rfl⟩ := mem_collectiveFlows.1 hf
  have hflows := collectiveFlows_moved (σ := σ) (T := (S.send σ).1) hu (by rw [hsend])
    (by rw [hsend])
  have hindex : (S.send σ).1.collectiveFlowIndex = Function.update S.collectiveFlowIndex
      (σ.collectiveId f) (S.rotation σ (σ.collectiveId f)).next.index := by
    rw [hsend]
  refine ⟨⟨?_, ?_, ?_, fun hnodup => ?_, fun d hd => ?_⟩, f, by rw [hsend], hf⟩
  · rw [hsend, hpick]
  · refine collectiveOrder_congr fun d => ?_
    have hperm : (S.activeSendingFlows.erase f ++ [f]).Perm S.activeSendingFlows :=
      (List.perm_append_singleton _ _).trans (List.perm_cons_erase hactive).symm
    rw [hsend]
    simp only [mem_collectiveOrder, hperm.mem_iff]
  · rw [hsend]
    exact hmode
  · have hxs : (S.send σ).1.collectiveFlows σ (σ.collectiveId f) =
        (S.rotation σ (σ.collectiveId f)).next.xs := by
      rw [hflows, if_pos rfl, erase_eq_eraseIdx hnodup hpick, Rotation.State.next, hpick]
      rfl
    exact congrArg₂ Rotation.State.mk hxs (by rw [hindex, Function.update_self]; rfl)
  · have hnot : f ∉ S.collectiveFlows σ d := fun h => hd (mem_collectiveFlows.1 h).2.2.symm
    have hxs : (S.send σ).1.collectiveFlows σ d = S.collectiveFlows σ d := by
      rw [hflows, if_neg hd.symm, List.erase_of_not_mem hnot, List.append_nil]
    exact congrArg₂ Rotation.State.mk hxs (by rw [hindex, Function.update_of_ne hd])

lemma sendAndFinish_eq {finishes : Bool} (hf : (S.send σ).2 = some f) :
    S.sendAndFinish σ finishes =
      if finishes then (S.send σ).1.finish f else (S.send σ).1 := by
  unfold sendAndFinish
  split
  case h_1 T g heq =>
    obtain rfl : g = f := by simpa [heq] using hf
    rw [heq]
  case h_2 T heq => simp [heq] at hf

/-! ### The collectives -/

/-- The collectives stay the same, and their flows unfinished. -/
def Steady (σ : SendSpec) (cs : List ℕ) : ScheduleAct → Prop
  | .startFlow f => σ.collectiveId f ∈ cs
  | .finish _ => False
  | .setParallelReceiverLimit b => b = false
  | .setCollectiveRoundRobin b => b = true
  | .setAutoFallbackSingleCollective _ => True
  | .send finishes => finishes = false

instance (cs : List ℕ) (a : ScheduleAct) : Decidable (Steady σ cs a) := by
  cases a <;> unfold Steady <;> infer_instance

/-- The flows selected in the run are one of each collective. -/
def FairToCollectives (σ : SendSpec) (S : SnsScheduler) (as : List ScheduleAct) : Prop :=
  ((S.selections σ as).map σ.collectiveId).Perm (S.collectiveOrder σ)

instance (as : List ScheduleAct) : Decidable (FairToCollectives σ S as) :=
  inferInstanceAs (Decidable (List.Perm _ _))

lemma collectiveOrder_startFlow (hc : σ.collectiveId f ∈ S.collectiveOrder σ) :
    (S.startFlow f).collectiveOrder σ = S.collectiveOrder σ := by
  refine collectiveOrder_congr fun d => ?_
  obtain ⟨g, hg, hu, hgc⟩ := mem_collectiveOrder.1 hc
  simp only [mem_collectiveOrder, startFlow, List.mem_append, List.mem_singleton]
  constructor
  · rintro ⟨k, hk | rfl, hku, rfl⟩
    · exact ⟨k, hk, hku, rfl⟩
    · exact ⟨g, hg, hu, hgc⟩
  · rintro ⟨k, hk, hku, rfl⟩
    exact ⟨k, .inl hk, hku, rfl⟩

lemma steady_next {rest : List ℕ} {a : ScheduleAct} (hmode : S.CollectiveMode)
    (horder : S.collectiveOrder σ = c :: rest) (hrest : rest ≠ [])
    (ha : Steady σ (c :: rest) a) (hn : next σ S a = some R) :
    R.CollectiveMode ∧ R.collectiveOrder σ = c :: rest ∧
      (S.selected σ a).toList.map σ.collectiveId =
        List.replicate ([a].countP isSend) c := by
  cases a with
  | startFlow f =>
    obtain ⟨-, hn⟩ := Option.ite_none_right_eq_some.1 hn
    obtain rfl := Option.some.inj hn
    exact ⟨hmode, (collectiveOrder_startFlow (horder ▸ ha)).trans horder, rfl⟩
  | finish f => exact ha.elim
  | setParallelReceiverLimit b =>
    obtain rfl := Option.some.inj hn
    exact ⟨⟨ha, hmode.2⟩, horder, rfl⟩
  | setCollectiveRoundRobin b =>
    obtain rfl := Option.some.inj hn
    exact ⟨⟨hmode.1, ha⟩, horder, rfl⟩
  | setAutoFallbackSingleCollective b =>
    obtain rfl := Option.some.inj hn
    exact ⟨hmode, horder, rfl⟩
  | send finishes =>
    obtain rfl : finishes = false := ha
    obtain ⟨hturns, f, hf, hmem⟩ := turns_send hmode horder hrest
    obtain rfl := Option.some.inj hn
    rw [sendAndFinish_eq hf, if_neg Bool.false_ne_true]
    refine ⟨hturns.mode, hturns.order.trans horder, ?_⟩
    simp [selected, isSend, hf, (mem_collectiveFlows.1 hmem).2.2]

lemma selections_steady {rest : List ℕ} {as : List ScheduleAct} (hmode : S.CollectiveMode)
    (horder : S.collectiveOrder σ = c :: rest) (hrest : rest ≠ [])
    (has : Along (machine σ) (fun _ => Steady σ (c :: rest)) S as)
    (hrun : exec (machine σ) S as = some R) :
    (S.selections σ as).map σ.collectiveId =
      List.replicate (as.countP isSend) c := by
  induction as generalizing S with
  | nil => rfl
  | cons a as ih =>
    obtain ⟨T, hT, hrun⟩ := Option.bind_eq_some_iff.1 hrun
    obtain ⟨ha, has⟩ := has T hT
    obtain ⟨hmode, horder, hselected⟩ := steady_next hmode horder hrest ha hT
    have hT : next σ S a = some T := hT
    rw [← List.singleton_append, List.countP_append, List.replicate_add, ← hselected,
      ← ih hmode horder has hrun, ← List.map_append]
    simp only [List.singleton_append, selections, hT, Option.map_some, Option.getD_some]

/-- **The round robin over the collectives** is never fair: as many calls of `send` as there are
collectives, two or more, do not select a flow of each. -/
theorem not_fairToCollectives (hmode : S.CollectiveMode)
    (hcollectives : 2 ≤ (S.collectiveOrder σ).length) {as : List ScheduleAct}
    (has : Along (machine σ) (fun _ => Steady σ (S.collectiveOrder σ)) S as)
    (hrun : exec (machine σ) S as = some R)
    (hsends : as.countP isSend = (S.collectiveOrder σ).length) :
    ¬ FairToCollectives σ S as := by
  cases horder : S.collectiveOrder σ with
  | nil => simp [horder] at hcollectives
  | cons c rest =>
    rw [horder] at hcollectives has hsends
    have hrest : rest ≠ [] := by
      rintro rfl
      simp at hcollectives
    intro hfair
    unfold FairToCollectives at hfair
    rw [selections_steady hmode horder hrest has hrun, hsends, horder] at hfair
    obtain ⟨d, ds, rfl⟩ := List.exists_cons_of_ne_nil hrest
    have hnodup : (S.collectiveOrder σ).Nodup :=
      (List.perm_insertionSort _ _).nodup_iff.2 (List.nodup_dedup _)
    rw [horder, ← hfair.nodup_iff, List.nodup_replicate] at hnodup
    omega

/-- Three flows, two of them of one collective. -/
def threeFlows : SendSpec := ⟨id, fun f => f / 2⟩

def threeStarted : SnsScheduler :=
  ⟨[0, 1, 2], ∅, false, true, true, 0, fun _ => 0, [0, 1, 2], fun _ => false⟩

lemma reach_threeStarted : Reach (machine threeFlows) threeStarted :=
  have hrun : exec (machine threeFlows) init [.startFlow 0, .startFlow 1, .startFlow 2] =
      some threeStarted := rfl
  Reach.init.of_exec hrun

theorem not_fairToCollectives_startedBetween : ¬ FairToCollectives threeFlows threeStarted
    [.send false, .startFlow 3, .send false] :=
  not_fairToCollectives (by decide) (by decide) (by decide) rfl (by decide)

/-- Two calls of `send` with two collectives: both flows are of the first. -/
theorem not_fairToCollectives_threeFlows : Reach (machine threeFlows) threeStarted ∧
    threeStarted.CollectiveMode ∧ threeStarted.collectiveOrder threeFlows = [0, 1] ∧
      threeStarted.selections threeFlows [.send false, .send false] = [0, 0] ∧
      ¬ FairToCollectives threeFlows threeStarted [.send false, .send false] :=
  ⟨reach_threeStarted, by decide, by decide, by decide, by decide⟩

/-! ### The flows of a collective -/

/-- The calls of `send` are made with two collectives or more, and the flows of the collective stay
the same and unfinished. -/
def Rotates (σ : SendSpec) (c : ℕ) (S : SnsScheduler) : ScheduleAct → Prop
  | .startFlow f => σ.collectiveId f ≠ c
  | .finish f => f ∉ S.collectiveFlows σ c
  | .send finishes => S.CollectiveMode ∧ 2 ≤ (S.collectiveOrder σ).length ∧
      (finishes = true → ∀ f ∈ (S.send σ).2, f ∉ S.collectiveFlows σ c)
  | _ => True

instance (c : ℕ) (S : SnsScheduler) (a : ScheduleAct) : Decidable (Rotates σ c S a) := by
  cases a <;> unfold Rotates <;> infer_instance

/-- The flows of a collective that are selected in a run. -/
def selectionsFrom (σ : SendSpec) (c : ℕ) (S : SnsScheduler) (as : List ScheduleAct) :
    List FlowId :=
  (S.selections σ as).filter fun f => σ.collectiveId f == c

/-- The flows of the collective selected in the run are all its flows, each once. -/
def FairWithin (σ : SendSpec) (c : ℕ) (S : SnsScheduler) (as : List ScheduleAct) : Prop :=
  (S.selectionsFrom σ c as).Perm (S.collectiveFlows σ c)

instance (c : ℕ) (as : List ScheduleAct) : Decidable (FairWithin σ c S as) :=
  inferInstanceAs (Decidable (List.Perm _ _))

lemma nodup_collectiveFlows (h : Lists S) (c : ℕ) : (S.collectiveFlows σ c).Nodup := by
  refine List.nodup_iff_count_le_one.2 fun f => ?_
  by_cases hf : f ∈ S.collectiveFlows σ c
  · obtain ⟨hactive, hu, -⟩ := mem_collectiveFlows.1 hf
    exact (List.filter_sublist.count_le f).trans (h.once f (h.started f hactive) hu).le
  · rw [List.count_eq_zero.2 hf]
    exact Nat.zero_le _

lemma collectiveFlows_startFlow (hc : σ.collectiveId f ≠ c) :
    (S.startFlow f).collectiveFlows σ c = S.collectiveFlows σ c := by
  have hlast : [f].filter (fun g => !S.finished g && σ.collectiveId g == c) = [] := by
    simp [hc]
  unfold collectiveFlows startFlow
  rw [List.filter_append, hlast, List.append_nil]

lemma collectiveFlows_finish (hf : f ∉ S.collectiveFlows σ c) :
    (S.finish f).collectiveFlows σ c = S.collectiveFlows σ c := by
  refine List.filter_congr fun g hg => ?_
  rcases eq_or_ne g f with rfl | hne
  · have hnot : (!S.finished g && σ.collectiveId g == c) = false := by
      by_contra h
      simp only [Bool.not_eq_false, Bool.and_eq_true, Bool.not_eq_true', beq_iff_eq] at h
      exact hf (mem_collectiveFlows.2 ⟨hg, h⟩)
    rw [hnot]
    simp [finish]
  · simp only [finish, Function.update_of_ne hne]

lemma rotates_next {a : ScheduleAct} (hS : Lists S) (ha : Rotates σ c S a)
    (hn : next σ S a = some R) :
    ((S.selected σ a).toList.filter (fun f => σ.collectiveId f == c) = [] ∧
        R.rotation σ c = S.rotation σ c) ∨
      ∃ f, (S.selected σ a).toList.filter (fun f => σ.collectiveId f == c) = [f] ∧
        (S.rotation σ c).pick = some f ∧ R.rotation σ c = (S.rotation σ c).next := by
  cases a with
  | startFlow f =>
    obtain ⟨-, hn⟩ := Option.ite_none_right_eq_some.1 hn
    obtain rfl := Option.some.inj hn
    exact .inl ⟨rfl, congrArg₂ Rotation.State.mk (collectiveFlows_startFlow ha) rfl⟩
  | finish f =>
    obtain rfl := Option.some.inj hn
    exact .inl ⟨rfl, congrArg₂ Rotation.State.mk (collectiveFlows_finish ha) rfl⟩
  | setParallelReceiverLimit b | setCollectiveRoundRobin b | setAutoFallbackSingleCollective b =>
    obtain rfl := Option.some.inj hn
    exact .inl ⟨rfl, rfl⟩
  | send finishes =>
    obtain ⟨hmode, hcollectives, hunfinished⟩ := ha
    obtain rfl := Option.some.inj hn
    cases horder : S.collectiveOrder σ with
    | nil => simp [horder] at hcollectives
    | cons d rest =>
      have hrest : rest ≠ [] := by
        rintro rfl
        simp [horder] at hcollectives
      obtain ⟨hturns, f, hf, hmem⟩ := turns_send hmode horder hrest
      have hstay : finishes = true → f ∉ S.collectiveFlows σ c := fun h => hunfinished h f hf
      have hsame : (S.sendAndFinish σ finishes).rotation σ c = (S.send σ).1.rotation σ c := by
        rw [sendAndFinish_eq hf]
        split_ifs with hfinishes
        · refine congrArg₂ Rotation.State.mk (collectiveFlows_finish fun h => ?_) rfl
          obtain ⟨hactive, hu, hfc⟩ := mem_collectiveFlows.1 h
          have hpicks := picks_send σ S
          exact hstay hfinishes (mem_collectiveFlows.2
            ⟨hpicks.mem f hactive, hpicks.finished ▸ hu, hfc⟩)
        · rfl
      obtain ⟨-, -, hfd⟩ := mem_collectiveFlows.1 hmem
      rw [hsame]
      rcases eq_or_ne c d with rfl | hne
      · refine .inr ⟨f, ?_, hturns.sends.trans hf, hturns.rotation (nodup_collectiveFlows hS c)⟩
        simp [selected, hf, hfd]
      · refine .inl ⟨?_, hturns.rest c hne⟩
        simp [selected, hf, hfd, hne.symm]

lemma selectionsFrom_eq_picks {as : List ScheduleAct} (hS : Lists S)
    (has : Along (machine σ) (Rotates σ c) S as) :
    S.selectionsFrom σ c as =
      Rotation.picks (S.selectionsFrom σ c as).length (S.rotation σ c) := by
  induction as generalizing S with
  | nil => rfl
  | cons a as ih =>
    cases hn : next σ S a with
    | none =>
      -- only a second start has no next state
      have hnone : S.selected σ a = none := by
        cases a with
        | send finishes => exact nomatch hn
        | startFlow f | finish f | setParallelReceiverLimit b | setCollectiveRoundRobin b
        | setAutoFallbackSingleCollective b => rfl
      simp [selectionsFrom, selections, hn, hnone, Rotation.picks]
    | some R =>
      obtain ⟨ha, has⟩ := has R hn
      have hcons : S.selectionsFrom σ c (a :: as) =
          (S.selected σ a).toList.filter (fun f => σ.collectiveId f == c) ++
            R.selectionsFrom σ c as := by
        simp only [selectionsFrom, selections, hn, Option.map_some, Option.getD_some,
          List.filter_append]
      have hrest := ih (hS.next hn) has
      rw [hcons]
      obtain ⟨hnone, hsame⟩ | ⟨f, hf, hpick, hnext⟩ := rotates_next hS ha hn
      · rw [hnone, ← hsame]
        exact hrest
      · rw [hf, List.singleton_append, List.length_cons, Rotation.picks, hpick, ← hnext]
        exact congrArg (f :: ·) hrest

/-- **The round robin within a collective** is fair exactly to a single flow, or to two of which
the second is the next: the index moves on, and the flow that sends moves to the end. -/
theorem fairWithin_iff (hS : Reach (machine σ) S) (hc : S.collectiveFlows σ c ≠ [])
    {as : List ScheduleAct} (has : Along (machine σ) (Rotates σ c) S as)
    (hm : (S.selectionsFrom σ c as).length = (S.collectiveFlows σ c).length) :
    FairWithin σ c S as ↔ (S.collectiveFlows σ c).length = 1 ∨
      (S.collectiveFlows σ c).length = 2 ∧ S.collectiveFlowIndex c % 2 = 1 := by
  have hinit : Lists init := ⟨by simp [init], by simp [init], by simp [init]⟩
  have hlists : Lists S := hS.inv (I := Lists) hinit fun _ h hn => h.next hn
  unfold FairWithin
  rw [selectionsFrom_eq_picks hlists has, hm]
  exact Rotation.picks_perm_iff (s := S.rotation σ c) (nodup_collectiveFlows hlists c) hc

/-- Two flows of which the second is the next: after one call of `send`. -/
theorem fairWithin_afterOne : FairWithin threeFlows 0
    (threeStarted.sendAndFinish threeFlows false) [.send false, .send false] :=
  (fairWithin_iff (reach_threeStarted.step (a := .send false) rfl) (by decide) (by decide)
    (by decide)).2 (.inr (by decide))

/-- Two flows of which the first is the next: it is selected twice. -/
theorem not_fairWithin_threeFlows : Reach (machine threeFlows) threeStarted ∧
    threeStarted.collectiveFlows threeFlows 0 = [0, 1] ∧
      Along (machine threeFlows) (Rotates threeFlows 0) threeStarted [.send false, .send false] ∧
      threeStarted.selectionsFrom threeFlows 0 [.send false, .send false] = [0, 0] ∧
      ¬ FairWithin threeFlows 0 threeStarted [.send false, .send false] :=
  ⟨reach_threeStarted, by decide, by decide, by decide, by decide⟩

end SnsScheduler

end DcSim
