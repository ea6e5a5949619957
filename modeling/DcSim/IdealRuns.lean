import DcSim.IdealSchedule

/-!
The calls of `compute_schedule` in a run of the ideal hosts.

Each is made when a flow arrives, has sent all, or is acknowledged as a whole after a timeout. The
list has each flow once then, and a host has a flow of its own, which is in the list or finished.
-/

namespace DcSim.Ideal

open LossyNet Runs

variable {σ : IdealSpec} {now t₀ : Time} {A B : Ideal} {f h : ℕ}

/-! ### What keeps the list and the hosts sound -/

lemma Sound.mono (hA : Sound σ A) (hlist : B.activeFlows = A.activeFlows)
    (hhosts : ∀ h f, (B.hosts h).activeFlow = some f → (A.hosts h).activeFlow = some f)
    (hfin : ∀ f, (A.flows f).finished = true → (B.flows f).finished = true) : Sound σ B where
  nodup := hlist ▸ hA.nodup
  host h f hf := by
    obtain ⟨hsrc, hmem⟩ := hA.host h f (hhosts h f hf)
    exact ⟨hsrc, hlist ▸ hmem.imp_right (hfin f)⟩

lemma Sound.setFlow (hA : Sound σ A) {x : IdealFlow}
    (hx : (A.flows f).finished = true → x.finished = true) : Sound σ (A.setFlow f x) := by
  refine hA.mono rfl (fun _ _ => id) fun g hg => ?_
  by_cases hgf : g = f
  · subst hgf
    simpa [Ideal.setFlow] using hx hg
  · simpa [Ideal.setFlow, hgf] using hg

lemma Sound.setHost (hA : Sound σ A) {H : IdealHost}
    (hH : H.activeFlow = (A.hosts h).activeFlow ∨ H.activeFlow = none) :
    Sound σ (A.setHost h H) := by
  refine hA.mono rfl (fun h' g hg => ?_) fun _ => id
  by_cases hh : h' = h
  · subst hh
    have hg : H.activeFlow = some g := by simpa [Ideal.setHost] using hg
    rcases hH with heq | heq
    · exact heq.symm.trans hg
    · exact absurd (heq.symm.trans hg) (Option.some_ne_none g).symm
  · simpa [Ideal.setHost, hh] using hg

lemma Sound.arrived (hA : Sound σ A) (hf : f ∉ A.activeFlows) : Sound σ (A.arrived σ f) := by
  have hperm : (A.arrived σ f).activeFlows.Perm (A.activeFlows ++ [f]) :=
    List.perm_insertionSort _ _
  refine ⟨hperm.nodup_iff.mpr ?_, fun h g hg => ?_⟩
  · exact hA.nodup.append (List.nodup_singleton f) (by simpa using hf)
  · obtain ⟨hsrc, hmem⟩ := hA.host h g hg
    exact ⟨hsrc, hmem.imp_left fun hmem => hperm.mem_iff.mpr (List.mem_append_left _ hmem)⟩

lemma Sound.removed (hA : Sound σ A) (f : ℕ) : Sound σ (A.removed σ f) := by
  have hB : Sound σ (A.setHost (σ.src f) { A.hosts (σ.src f) with activeFlow := none }) :=
    hA.setHost (.inr rfl)
  refine ⟨hA.nodup.erase f, fun h g hg => ?_⟩
  obtain ⟨hsrc, hmem⟩ := hB.host h g hg
  have hne : g ≠ f := by
    rintro rfl
    have hnone : ((A.removed σ g).hosts h).activeFlow = none := by
      rw [← hsrc]
      simp [Ideal.removed, Ideal.setHost]
    exact absurd (hnone.symm.trans hg) (Option.some_ne_none g).symm
  exact ⟨hsrc, hmem.imp_left fun hmem => (List.mem_erase_of_ne hne).mpr hmem⟩

lemma Sound.flowArrival (hA : Sound σ A) (hB : A.flowArrival σ now f = some B) : Sound σ B := by
  obtain ⟨hf, hB⟩ := Option.ite_none_left_eq_some.mp hB
  exact Option.some.inj hB ▸ (hA.arrived hf).computeSchedule _

lemma Sound.flowFinished (hA : Sound σ A) (f : ℕ) : Sound σ (A.flowFinished σ now f) := by
  unfold Ideal.flowFinished
  split_ifs
  · exact (hA.removed f).computeSchedule _
  · exact hA.removed f

lemma Sound.sentPacket (hA : Sound σ A) (now : Time) (f : ℕ) : Sound σ (A.sentPacket σ now f) := by
  refine (hA.setHost ?_).setFlow ?_
  · exact .inl rfl
  · exact id

lemma Sound.sentAll (hA : Sound σ A) (f : ℕ) : Sound σ (A.sentAll σ now f) := by
  refine (hA.setHost ?_).setFlow ?_
  · exact .inl rfl
  · exact id

lemma Sound.cancelled (hA : Sound σ A) (h : ℕ) : Sound σ (A.setHost h { A.hosts h with
    hostProcEvent := (A.hosts h).hostProcEvent.map ({ · with cancelled := true }) }) := by
  refine hA.setHost ?_
  exact .inl rfl

/-! ### The calls -/

/-- `compute_schedule` is called, in a step from the first state, on the second. -/
inductive ScheduleCall (σ : IdealSpec) (now : Time) (A : Ideal) : Ideal → Prop
  | start {f : ℕ} : (A.flows f).started = false → f ∉ A.activeFlows →
      ScheduleCall σ now A ((A.setFlow f { A.flows f with started := true }).arrived σ f)
  | timeout {f : ℕ} : (A.flows f).finished = false → f ∉ A.activeFlows →
      ScheduleCall σ now A ((A.setFlow f { A.flows f with retxEvent := none }).arrived σ f)
  | sentAll {h f : ℕ} (B : Ideal) : (A.hosts h).activeFlow = some f →
      (A.flows f).finished = false → σ.src f = h →
      B = (A.setHost h { A.hosts h with hostProcEvent := none }).sentPacket σ now f →
      (B.flows f).sent = σ.size f → f ∈ B.activeFlows →
      ScheduleCall σ now A ((B.sentAll σ now f).removed σ f)
  | acked {f received : ℕ} (B : Ideal) : (A.flows f).finished = false → σ.size f ≤ received →
      B = (A.setFlow f { A.flows f with acked := received }).setFlow f
        { (A.setFlow f { A.flows f with acked := received }).flows f with retxEvent := none } →
      σ.size f < (B.flows f).sent → f ∈ B.activeFlows →
      ScheduleCall σ now A ((B.setHost (σ.src f) { B.hosts (σ.src f) with
        hostProcEvent := (B.hosts (σ.src f)).hostProcEvent.map ({ · with cancelled := true }) }
        ).removed σ f)

lemma ScheduleCall.sound (hA : Sound σ A) (hcall : ScheduleCall σ now A B) : Sound σ B := by
  cases hcall with
  | start _ hf =>
    refine Sound.arrived (hA.setFlow ?_) hf
    exact id
  | timeout _ hf =>
    refine Sound.arrived (hA.setFlow ?_) hf
    exact id
  | sentAll C _ _ _ hC _ _ =>
    subst hC
    refine (((hA.setHost ?_).sentPacket _ _).sentAll _).removed _
    exact .inl rfl
  | acked C _ _ hC _ _ =>
    subst hC
    refine (((hA.setFlow ?_).setFlow ?_).cancelled _).removed _
    · exact id
    · exact id

/-! ### Every run -/

lemma sound_init (σ : IdealSpec) : Sound σ init := ⟨List.nodup_nil, by simp [init]⟩

lemma Sound.input (hA : Sound σ A) {i : IdealInput} {r : Ideal × List IdealPacket}
    (hr : Ideal.input σ now i A = some r) : Sound σ r.1 := by
  cases i with
  | start f =>
    obtain ⟨-, hr⟩ := Option.ite_none_left_eq_some.mp hr
    obtain ⟨B, hB, rfl⟩ := Option.map_eq_some_iff.mp hr
    refine Sound.flowArrival (hA.setFlow ?_) hB
    exact id
  | timeout f =>
    obtain ⟨-, hr⟩ := Option.ite_none_right_eq_some.mp hr
    have hset : Sound σ (A.setFlow f { A.flows f with retxEvent := none }) := by
      refine hA.setFlow ?_
      exact id
    dsimp only at hr
    split_ifs at hr
    · exact Option.some.inj hr ▸ hset
    · obtain ⟨B, hB, rfl⟩ := Option.map_eq_some_iff.mp hr
      exact hset.flowArrival hB
  | host h =>
    obtain ⟨-, hr⟩ := Option.ite_none_right_eq_some.mp hr
    have hset : Sound σ (A.setHost h { A.hosts h with hostProcEvent := none }) := by
      refine hA.setHost ?_
      exact .inl rfl
    dsimp only at hr
    split at hr
    case h_1 => exact Option.some.inj hr ▸ hset
    case h_2 f hf =>
      split_ifs at hr
      · exact Option.some.inj hr ▸ hset
      · have hsent := hset.sentPacket now f
        unfold sendPendingData at hr
        dsimp only at hr
        split_ifs at hr
        · exact Option.some.inj hr ▸ (hsent.sentAll f).flowFinished f
        · exact Option.some.inj hr ▸ hsent

lemma Sound.finish (hA : Sound σ A) (f : ℕ) : Sound σ (A.finish σ f) := by
  unfold Ideal.finish
  refine Sound.setFlow (hA.setHost ?_) fun _ => rfl
  split_ifs
  · exact .inr rfl
  · exact .inl rfl

lemma Sound.stopped (hA : Sound σ A) (f : ℕ) : Sound σ (A.stopped σ now f) := by
  unfold Ideal.stopped
  split_ifs
  · exact (hA.cancelled _).flowFinished f
  · exact hA

lemma Sound.receive (hA : Sound σ A) (p : IdealPacket) : Sound σ (A.receive σ now p).1 := by
  cases p with
  | data f =>
    unfold Ideal.receive
    dsimp only
    split_ifs
    · exact hA
    · refine hA.setFlow ?_
      exact id
  | ack f received =>
    have hacked : Sound σ (A.setFlow f { A.flows f with acked := received }) := by
      refine hA.setFlow ?_
      exact id
    unfold Ideal.receive receiveAck
    dsimp only
    split_ifs
    · exact hA
    · exact hA
    · refine Sound.finish (Sound.stopped (hacked.setFlow ?_) f) f
      exact id
    · exact hacked

lemma sound_kept : Kept (party σ) (fun _ _ => True) fun A _ => Sound σ A where
  init := sound_init σ
  input _ hA hr := hA.input hr
  receive _ hA := hA.receive _
  lose hA := hA
  duplicate _ hA := hA

/-- **The schedule of the ideal arbiter is right exactly under these conditions**, whenever it is
computed on a list of different flows, with hosts that have their own flows; and so it is in each
run. -/
theorem computeSchedule_scheduled_iff (σ : IdealSpec) (t₀ : Time) :
    (∀ A, Sound σ A → ∀ now,
      (Scheduled σ (A.computeSchedule σ now) ↔ Schedulable σ A)) ∧
    ∀ s, Reach (machine (party σ) t₀) s → ∀ now B, ScheduleCall σ now s.party B → Sound σ B :=
  ⟨fun _ hA _ => scheduled_iff_schedulable hA,
    fun _ hs _ _ hcall => hcall.sound (sound_kept.reach hs)⟩

/-- Each flow has a host of its own, and the first two have one destination. -/
def toOne : IdealSpec where
  src f := f
  dst f := if f < 2 then 9 else f
  size f := if f = 1 then 2920 else 1460
  mss := 1460
  retxTimeoutValue := 5
  transmissionDelay := 1

/-- Each of three flows is with its host, and the second one has finished. -/
def secondFinished : Ideal where
  flows f := { finished := f == 1 }
  activeFlows := [0, 1, 2]
  hosts h := { activeFlow := if h < 3 then some h else none }

theorem computeSchedule_scheduled_secondFinished :
    Sound toOne secondFinished ∧
      Scheduled toOne (secondFinished.computeSchedule toOne 0) ∧
      (secondFinished.computeSchedule toOne 0).activeFlows = [0, 2] := by
  have hhost : ∀ {h f}, (secondFinished.hosts h).activeFlow = some f → h < 3 ∧ h = f :=
    fun hf => (Option.ite_none_right_eq_some.1 hf).imp_right Option.some.inj
  have hsound : Sound toOne secondFinished := by
    refine ⟨by decide, fun h f hf => ?_⟩
    obtain ⟨hlt, rfl⟩ := hhost hf
    exact ⟨rfl, .inl (List.mem_range.2 hlt)⟩
  have hgreedy : greedyMatching toOne secondFinished = [0, 2] := by decide
  have hbehind : ∀ {x}, secondFinished.Behind x → x = 2 := by
    rintro x ⟨f, hf, hfin⟩
    have hmem : (f, x) ∈ [(0, 1), (1, 2)] := hf
    have hone : f = 1 := by simpa [secondFinished] using hfin
    simpa [hone] using hmem
  refine ⟨hsound, ((computeSchedule_scheduled_iff toOne 0).1 secondFinished hsound 0).mpr ?_,
    by decide⟩
  refine ⟨by decide, fun p hp hfin => ?_, fun x hx hx' => ?_, fun h f hf hno => ?_⟩
  · have hone : p.1 = 1 := by simpa [secondFinished] using hfin
    rw [hgreedy, hone]
    exact ⟨0, List.mem_cons_self, fun h => absurd (hbehind h) (by decide), Nat.zero_lt_one,
      by decide⟩
  · obtain rfl := hbehind hx'
    refine ⟨⟨2, rfl⟩, fun y hy hy' hlt => ?_⟩
    have hmem : y ∈ [0, 2] := hy
    rcases List.mem_pair.1 hmem with rfl | rfl
    · exact absurd hlt (Nat.not_lt_zero _)
    · exact absurd hx' hy'
  · obtain ⟨hlt, rfl⟩ := hhost hf
    rw [hgreedy] at hno
    obtain rfl | rfl | rfl : h = 0 ∨ h = 1 ∨ h = 2 := by omega
    · exact absurd rfl (hno 0 (by decide))
    · exact ⟨rfl, by decide⟩
    · exact absurd rfl (hno 2 (by decide))

/-- Two flows send their one packet, time out and are acknowledged before they can send again. -/
def acknowledgedLate : List (Act IdealPacket Time IdealInput) :=
  [.input 0 (.start 0), .input 0 (.start 2), .input 0 (.host 0), .input 0 (.host 2),
    .deliver 1 (.data 0), .deliver 1 (.data 2), .input 5 (.timeout 0), .input 5 (.timeout 2),
    .deliver 6 (.ack 0 1460), .deliver 6 (.ack 2 1460)]

/-- **Two wrong schedules**: a host keeps its flow when a shorter one to the same destination comes
to another host; and of two flows that finished while they were in the list, one is given to its
host, and the other stays in the list. -/
theorem not_scheduled_toOne :
    (∃ s B, Reach (machine (party toOne) 0) s ∧ ScheduleCall toOne 1 s.party B ∧
      (∀ f ∈ B.activeFlows, (B.flows f).finished = false) ∧
      ¬ Scheduled toOne (B.computeSchedule toOne 1)) ∧
    ∃ s B, Reach (machine (party toOne) 0) s ∧ ScheduleCall toOne 7 s.party B ∧
      (B.flows 0).finished = true ∧ (B.flows 2).finished = true ∧
      ((B.computeSchedule toOne 7).hosts 0).activeFlow = some 0 ∧
      2 ∈ (B.computeSchedule toOne 7).activeFlows := by
  constructor
  · obtain ⟨s, hs, ⟨hidle, hf⟩, hfin, hzero, hone⟩ :
        ∃ s, Reach (machine (party toOne) 0) s ∧
          ((s.party.flows 0).started = false ∧ 0 ∉ s.party.activeFlows) ∧
          let B := (s.party.setFlow 0 { s.party.flows 0 with started := true }).arrived toOne 0
          (∀ f ∈ B.activeFlows, (B.flows f).finished = false) ∧
          ((B.computeSchedule toOne 1).hosts 0).activeFlow = some 0 ∧
          ((B.computeSchedule toOne 1).hosts 1).activeFlow = some 1 :=
      exists_reach_of_exec_any [.input 0 (.start 1)] (by decide +kernel)
    refine ⟨s, _, hs, .start hidle hf, hfin, fun hS => ?_⟩
    exact (hS.matching 0 1 0 1 (by decide) hzero hone).2 rfl
  · obtain ⟨s, hs, ⟨hidle, hf⟩, hend⟩ :
        ∃ s, Reach (machine (party toOne) 0) s ∧
          ((s.party.flows 3).started = false ∧ 3 ∉ s.party.activeFlows) ∧
          let B := (s.party.setFlow 3 { s.party.flows 3 with started := true }).arrived toOne 3
          (B.flows 0).finished = true ∧ (B.flows 2).finished = true ∧
          ((B.computeSchedule toOne 7).hosts 0).activeFlow = some 0 ∧
          2 ∈ (B.computeSchedule toOne 7).activeFlows :=
      exists_reach_of_exec_any acknowledgedLate (by decide +kernel)
    exact ⟨s, _, hs, .start hidle hf, hend⟩

end DcSim.Ideal
