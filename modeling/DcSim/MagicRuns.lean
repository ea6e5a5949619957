import DcSim.MagicSchedule

/-!
The hosts of `MAGIC_HOST` lose no flow and do not stall.

Whatever happens next, no assertion fails and no field is read before it is set, and the hosts
stay as they should be. So when nothing is left to come, every flow that was started is finished,
whatever the network lost.
-/

namespace DcSim

open HeapQueue Runs Word32

namespace MagicNet

variable {σ : MagicSpec} {net net' : MagicNet} {h : HostId} {id : FlowId}

/-! ### Sending -/

lemma Works.modifyHeld (hw : Works σ net h) {g : MagicHost → MagicHost}
    (hg : ∀ host, g host = { host with
      activeSendingFlows := (g host).activeSendingFlows, flowSending := (g host).flowSending })
    (hholds : (g (net.hosts h)).Holds σ net.flows h) : Works σ (net.modifyHost h g) h := by
  obtain ⟨hs, hothers⟩ := hw
  have hfield : ∀ {β : Type} (f : MagicHost → β),
      (∀ host active sending,
        f { host with activeSendingFlows := active, flowSending := sending } = f host) →
      ∀ k, f ((net.modifyHost h g).hosts k) = f (net.hosts k) := fun f hf k =>
    modifyHost_field f (fun host => by rw [hg, hf]) k
  refine ⟨{ hs with
    holds := fun k => ?_, receives := fun k => ⟨?_, ?_⟩, tracks := fun k => ?_
    timeout := fun k hk => ?_ }, fun k hk => ?_⟩
  · rcases eq_or_ne k h with rfl | hne
    · rw [modifyHost_self]
      exact hholds
    · rw [modifyHost_ne _ _ hne]
      exact hs.holds k
  · rw [hfield MagicHost.recvBusyUntil fun _ _ _ => rfl,
      hfield MagicHost.flowReceiving fun _ _ _ => rfl]
    exact (hs.receives k).receiving
  · rw [hfield MagicHost.recvBusyUntil fun _ _ _ => rfl]
    exact (hs.receives k).below
  · rw [hfield MagicHost.hostProcEvent fun _ _ _ => rfl]
    exact hs.tracks k
  · rw [hfield MagicHost.hostProcEvent fun _ _ _ => rfl] at hk
    rw [hfield MagicHost.isHostProcEventATimeout fun _ _ _ => rfl]
    exact hs.timeout k hk
  · have hsame : (net.modifyHost h g).hosts k = net.hosts k := modifyHost_ne net g hk
    exact (hothers k hk).mono le_rfl (by rw [hsame]) (by rw [hsame]) (by rw [hsame])
      (fun _ hdone => hdone) fun e he _ => he

section ModifyFlow

variable {g : MagicFlow → MagicFlow} {inFlight : List MagicPacket}

lemma Sound.modifyFlow (hs : Sound σ net)
    (hstarted : (g (net.flows id)).started = (net.flows id).started)
    (hfinished : (net.flows id).finished = true → (g (net.flows id)).finished = true)
    (harrives : Arrives net.events id (g (net.flows id)))
    (hothers : ∀ k ≠ id, Ends σ inFlight k (net.flows k))
    (hends : Ends σ inFlight id (g (net.flows id)))
    (hrounds : 0 ≤ (g (net.flows id)).remainingPktThisRound ∧
      (g (net.flows id)).ackTimeout ≤ net.now + σ.longest) :
    Sound σ ({ net with inFlight := inFlight }.modifyFlow id g) := by
  have hcases : ∀ {P : FlowId → MagicFlow → Prop}, (∀ k ≠ id, P k (net.flows k)) →
      P id (g (net.flows id)) →
      ∀ k, P k (({ net with inFlight := inFlight }.modifyFlow id g).flows k) := fun hall hid k => by
    rcases eq_or_ne k id with rfl | hne
    · rw [modifyFlow_self]
      exact hid
    · rw [modifyFlow_ne _ g hne]
      exact hall k hne
  have hmono := hcases (P := fun k f => (net.flows k).finished = true → f.finished = true)
    (fun _ _ h => h) hfinished
  exact { hs with
    holds := fun k => (hs.holds k).mono
      (hcases (P := fun k f => f.started = (net.flows k).started) (fun _ _ => rfl) hstarted) hmono
    arrives := hcases (fun k _ => hs.arrives k) harrives
    ends := hcases hothers hends
    rounds := hcases (P := fun _ f => 0 ≤ f.remainingPktThisRound ∧
      f.ackTimeout ≤ net.now + σ.longest) (fun k _ => hs.rounds k) hrounds
    done := fun e he k hkind => hmono k (hs.done e he k hkind) }

lemma modifyFlow_finished (hfinished : (net.flows id).finished = true →
    (g (net.flows id)).finished = true) {k : FlowId} (hdone : (net.flows k).finished = true) :
    (({ net with inFlight := inFlight }.modifyFlow id g).flows k).finished = true := by
  rcases eq_or_ne k id with rfl | hne
  · rw [modifyFlow_self]
    exact hfinished hdone
  · rw [modifyFlow_ne _ g hne]
    exact hdone

lemma Prompt.modifyFlow {k : HostId} (hp : Prompt σ net k)
    (hfinished : (net.flows id).finished = true → (g (net.flows id)).finished = true) :
    Prompt σ ({ net with inFlight := inFlight }.modifyFlow id g) k :=
  hp.mono le_rfl rfl rfl rfl (fun _ => modifyFlow_finished hfinished) fun _ he _ => he

end ModifyFlow

lemma Ready.leaveFinished (hr : Ready σ net h) :
    ∃ net', net.leaveFinished σ h = some net' ∧ Ready σ net' h ∧ net'.now = net.now := by
  unfold MagicNet.leaveFinished
  split_ifs with hdone
  · obtain ⟨id, hid, hdone⟩ := (Option.any_eq_true _ _).1 hdone
    have hw : Works σ (net.modifyHost h fun host => { host with flowSending := none }) h := by
      refine hr.toWorks.modifyHeld (fun _ => rfl) ((hr.sound.holds h).drop [id]
        (fun k hk => List.mem_singleton.1 hk ▸ hdone) ?_)
      simp [MagicHost.held, hid]
    obtain ⟨net', hnet', hready, hnow, -⟩ := hw.schedule
    exact ⟨net', hnet', hready, hnow⟩
  · exact ⟨net, rfl, hr, rfl⟩

lemma modifyHost_modifyHost (net : MagicNet) (g g' : MagicHost → MagicHost) :
    (net.modifyHost h g).modifyHost h g' = net.modifyHost h fun host => g' (g host) := by
  simp [modifyHost]

lemma Ready.endRound (hr : Ready σ net h) (hid : (net.hosts h).flowSending = some id) :
    ∃ net', net.endRound σ h id = some net' ∧ Ready σ net' h ∧ net'.now = net.now ∧
      ∀ id ∈ (net'.hosts h).flowSending, 0 < (net'.flows id).remainingPktThisRound := by
  unfold MagicNet.endRound
  dsimp only
  obtain ⟨net₁, hnet₁⟩ : ∃ net₁, net₁ = if σ.sizeInPkt id ≤ (net.flows id).sendCount then
      net.modifyFlow id fun f => { f with ackTimeout := net.now + 95 / 10000000 } else net :=
    ⟨_, rfl⟩
  have hlongest : net.now + 95 / 10000000 ≤ net.now + σ.longest :=
    (add_le_add_iff_left _).2 σ.le_longest
  have hw₁ : Works σ net₁ h := by
    rw [hnet₁]
    split_ifs
    · refine ⟨hr.sound.modifyFlow rfl (fun hdone => hdone) ?_ (fun k _ => hr.sound.ends k) ?_ ?_,
        fun k hk => (hr.others k hk).modifyFlow fun hdone => hdone⟩
      · exact ⟨(hr.sound.arrives id).once, (hr.sound.arrives id).again,
          (hr.sound.arrives id).first⟩
      · exact ⟨(hr.sound.ends id).count, (hr.sound.ends id).acked, (hr.sound.ends id).sent⟩
      · exact ⟨(hr.sound.rounds id).1, hlongest⟩
    · exact hr.toWorks
  have hhosts : net₁.hosts = net.hosts := by
    rw [hnet₁]
    split_ifs <;> rfl
  have hnow₁ : net₁.now = net.now := by
    rw [hnet₁]
    split_ifs <;> rfl
  rw [← hnet₁, reschedule, modifyHost_modifyHost]
  have hw₂ : Works σ (net₁.modifyHost h fun host => { host with
      activeSendingFlows := push (comparator σ net₁.flows) host.activeSendingFlows id
      flowSending := none }) h := by
    refine hw₁.modifyHeld (fun _ => rfl) ((hw₁.sound.holds h).perm ?_)
    unfold MagicHost.held
    rw [hhosts, hid]
    simpa using push_toList_perm (comparator σ net₁.flows) (net.hosts h).activeSendingFlows id
  obtain ⟨net', hnet', hready, hnow, hsends⟩ := hw₂.schedule
  exact ⟨net', hnet', hready, hnow.trans hnow₁, hsends (by rw [modifyHost_self])⟩

lemma Ready.leaveRound (hr : Ready σ net h) :
    ∃ net', net.leaveRound σ h = some net' ∧ Ready σ net' h ∧ net'.now = net.now ∧
      ∀ id ∈ (net'.hosts h).flowSending, 0 < (net'.flows id).remainingPktThisRound := by
  unfold MagicNet.leaveRound
  cases hround : (net.hosts h).flowSending.filter fun id =>
      (net.flows id).remainingPktThisRound = 0 with
  | none =>
    refine ⟨net, rfl, hr, rfl, fun id hid => ?_⟩
    have hne : ¬ (net.flows id).remainingPktThisRound = 0 := by
      simpa using Option.filter_eq_none_iff.1 hround id hid
    exact lt_of_le_of_ne (hr.sound.rounds id).1 (Ne.symm hne)
  | some id => exact hr.endRound (Option.filter_eq_some_iff.1 hround).1

lemma Ready.procEvent (hr : Ready σ net h) (hnone : (net.hosts h).hostProcEvent = none)
    {time : Time} (htime : net.now ≤ time) :
    Settled σ ((net.setHostProcEvent h time).setNoTimeout h) := by
  have heq : (net.setHostProcEvent h time).setNoTimeout h = { net.modifyHost h fun host =>
      { host with
        hostProcEvent := some net.events.count
        isHostProcEventATimeout := some false } with
      events := net.events.add time (.hostProcessing h) } := by
    simp [setHostProcEvent, setNoTimeout, addEvent, modifyHost]
  rw [heq]
  obtain ⟨net₁, hnet₁⟩ : ∃ net₁, net₁ = net.modifyHost h fun host => { host with
      hostProcEvent := some net.events.count
      isHostProcEventATimeout := some false } := ⟨_, rfl⟩
  rw [← hnet₁]
  have hfield : ∀ {β : Type} (f : MagicHost → β), (∀ host event,
      f { host with hostProcEvent := event, isHostProcEventATimeout := some false } = f host) →
      ∀ k, f (net₁.hosts k) = f (net.hosts k) := fun f hf k => by
    rw [hnet₁, modifyHost_field f fun host => hf host _]
  have hself : net₁.hosts h = { net.hosts h with
      hostProcEvent := some net.events.count
      isHostProcEventATimeout := some false } := by
    rw [hnet₁, modifyHost_self]
  have hother : ∀ k ≠ h, net₁.hosts k = net.hosts k := fun k hk => by
    rw [hnet₁, modifyHost_ne _ _ hk]
  have hnow : net₁.now = net.now := by rw [hnet₁]; rfl
  have hflows : net₁.flows = net.flows := by rw [hnet₁]; rfl
  have hinFlight : net₁.inFlight = net.inFlight := by rw [hnet₁]; rfl
  have hs := hr.sound
  have hactive := hfield MagicHost.activeSendingFlows fun _ _ => rfl
  have hsending := hfield MagicHost.flowSending fun _ _ => rfl
  refine ⟨?_, fun k => ?_⟩
  · exact {
      holds := fun k => by
        dsimp only
        rw [hflows]
        exact (hs.holds k).perm (by rw [MagicHost.held, MagicHost.held, hactive, hsending])
      receives := fun k => by
        dsimp only
        refine ⟨?_, ?_⟩
        · rw [hfield MagicHost.recvBusyUntil fun _ _ => rfl,
            hfield MagicHost.flowReceiving fun _ _ => rfl]
          exact (hs.receives k).receiving
        · rw [hfield MagicHost.recvBusyUntil fun _ _ => rfl, hnow]
          exact (hs.receives k).below
      tracks := fun k => by
        dsimp only
        rcases eq_or_ne k h with rfl | hne
        · rw [hself]
          have htracks := hs.tracks k
          rw [hnone] at htracks
          exact htracks.add time
        · rw [hother k hne]
          exact (hs.tracks k).add_ne time fun heq => hne (MagicEvent.hostProcessing.inj heq).symm
      timeout := fun k hk => by
        dsimp only at hk ⊢
        rcases eq_or_ne k h with rfl | hne
        · rw [hself]
        · rw [hother k hne] at hk ⊢
          exact hs.timeout k hk
      arrives := fun id => by
        have harr := hs.arrives id
        refine ⟨?_, ?_, ?_⟩ <;> dsimp only <;>
          rw [EventQueue.ofKind_add_ne _ _
            (by simp : MagicEvent.hostProcessing h ≠ .flowArrival id)]
        · exact harr.once
        · rw [hflows]
          exact harr.again
        · rw [hflows]
          exact harr.first
      ends := fun id => by
        dsimp only
        rw [hflows, hinFlight]
        exact hs.ends id
      rounds := fun id => by
        dsimp only
        rw [hflows, hnow]
        exact hs.rounds id
      done := fun e he id hkind => by
        dsimp only
        rw [hflows]
        rcases EventQueue.mem_add.1 he with he | rfl
        · exact hs.done e he id hkind
        · cases hkind
      now_nonneg := hnow ▸ hs.now_nonneg
      later := fun e he => by
        dsimp only
        rw [hnow]
        rcases EventQueue.mem_add.1 he with he | rfl
        · exact hs.later e he
        · exact htime }
  · rcases eq_or_ne k h with rfl | hne
    · refine ⟨fun _ => by dsimp only; rw [hself]; exact Option.some_ne_none _, fun hnone' => ?_⟩
      refine (hr.asks ((hsending k).symm.trans hnone')).mono hnow.ge (hactive k)
        (fun id hdone => hflows ▸ hdone) fun e he _ => EventQueue.mem_add.2 (.inl he)
    · have hsame := hother k hne
      refine (hr.others k hne).mono hnow.ge (congrArg _ hsame) (congrArg _ hsame)
        (congrArg _ hsame) (fun id hdone => hflows ▸ hdone) fun e he _ =>
        EventQueue.mem_add.2 (.inl he)

lemma Ready.setNoTimeout (hr : Ready σ net h) : Ready σ (net.setNoTimeout h) h := by
  have hfield : ∀ {β : Type} (f : MagicHost → β), (∀ host,
      f { host with isHostProcEventATimeout := some false } = f host) →
      ∀ k, f ((net.setNoTimeout h).hosts k) = f (net.hosts k) :=
    fun f hf k => modifyHost_field f hf k
  have hactive := hfield MagicHost.activeSendingFlows fun _ => rfl
  have hsending := hfield MagicHost.flowSending fun _ => rfl
  have hproc := hfield MagicHost.hostProcEvent fun _ => rfl
  have hs := hr.sound
  refine ⟨⟨{ hs with
    holds := fun k => (hs.holds k).perm (by rw [MagicHost.held, MagicHost.held, hactive, hsending])
    receives := fun k => ⟨?_, ?_⟩, tracks := fun k => ?_, timeout := fun k hk => ?_ },
    fun k hk => ?_⟩, fun hnone => ?_⟩
  · rw [hfield MagicHost.recvBusyUntil fun _ => rfl, hfield MagicHost.flowReceiving fun _ => rfl]
    exact (hs.receives k).receiving
  · rw [hfield MagicHost.recvBusyUntil fun _ => rfl]
    exact (hs.receives k).below
  · rw [hproc]
    exact hs.tracks k
  · rcases eq_or_ne k h with rfl | hne
    · exact congrArg MagicHost.isHostProcEventATimeout (modifyHost_self net _)
    · rw [hproc] at hk
      exact (congrArg MagicHost.isHostProcEventATimeout (modifyHost_ne net _ hne)).trans
        (hs.timeout k hk)
  · exact (hr.others k hk).mono le_rfl (hactive k) (hsending k) (hproc k) (fun _ hdone => hdone)
      fun e he _ => he
  · exact (hr.asks ((hsending h).symm.trans hnone)).mono le_rfl (hactive h) (fun _ hdone => hdone)
      fun e he _ => he

lemma Ready.sendSeq (hr : Ready σ net h) (hpos : 0 < (net.flows id).remainingPktThisRound) :
    Ready σ (net.sendSeq σ id) h := by
  obtain ⟨p, hp, hnet⟩ : ∃ p, (∀ k, IsData k p = decide (id = k)) ∧
      net.sendSeq σ id = { net with inFlight := net.inFlight ++ [p] }.modifyFlow id fun f =>
        { f with
          nextSeqNo := add32 f.nextSeqNo σ.mss
          sendCount := f.sendCount + 1
          remainingPktThisRound := f.remainingPktThisRound - 1 } :=
    ⟨_, fun _ => rfl, rfl⟩
  have hack : ∀ k, MagicPacket.ack k ≠ p := fun k heq => by
    have hdata := hp id
    rw [← heq] at hdata
    exact absurd hdata (by simp [IsData])
  rw [hnet]
  have hs := hr.sound
  have hothers : ∀ k ≠ id, Ends σ (net.inFlight ++ [p]) k (net.flows k) := fun k hk => by
    refine ⟨(hs.ends k).count, fun hor => (hs.ends k).acked ?_, ?_⟩
    · simpa [hack k] using hor
    · rw [List.countP_append, List.countP_singleton, hp, decide_eq_false (Ne.symm hk)]
      exact (hs.ends k).sent
  have hends : Ends σ (net.inFlight ++ [p]) id { net.flows id with
      nextSeqNo := add32 (net.flows id).nextSeqNo σ.mss
      sendCount := (net.flows id).sendCount + 1
      remainingPktThisRound := (net.flows id).remainingPktThisRound - 1 } := by
    refine ⟨(hs.ends id).count, fun hor => (hs.ends id).acked ?_, ?_⟩
    · simpa [hack id] using hor
    · rw [List.countP_append, List.countP_singleton, hp, decide_eq_true rfl, if_pos rfl,
        ← Nat.add_assoc]
      exact Nat.add_le_add_right (hs.ends id).sent 1
  refine ⟨⟨hs.modifyFlow rfl (fun hdone => hdone) ?_ hothers hends
    ⟨Int.sub_nonneg.2 hpos, (hs.rounds id).2⟩, fun k hk => (hr.others k hk).modifyFlow
      fun hdone => hdone⟩, fun hnone => (hr.asks hnone).mono le_rfl rfl
      (fun _ => modifyFlow_finished fun hdone => hdone) fun _ he _ => he⟩
  exact ⟨(hs.arrives id).once, (hs.arrives id).again, (hs.arrives id).first⟩

lemma le_add_transmission (net : MagicNet) (h : HostId) (bytes : ℕ) {time : Time}
    (htime : net.now ≤ time) : net.now ≤ time + bytes * 8 / σ.rate h := by
  have hrate := σ.rate_pos h
  have hpos : (0 : ℚ) ≤ bytes * 8 / σ.rate h := by positivity
  linarith

lemma Ready.sendPendingData (hr : Ready σ net h)
    (hpos : 0 < (net.flows id).remainingPktThisRound) :
    ∃ net', (net.sendPendingData σ h id).map (·.setNoTimeout h) = some net' ∧ Settled σ net' := by
  have hsent := hr.sendSeq hpos
  have hhosts : (net.sendSeq σ id).hosts = net.hosts := rfl
  unfold MagicNet.sendPendingData
  rw [if_pos hpos]
  unfold procEventFree
  by_cases hnone : (net.hosts h).hostProcEvent = none
  · have hcancel : (net.sendSeq σ id).cancelHostProcEvent h = net.sendSeq σ id := by
      unfold cancelHostProcEvent
      rw [hhosts, hnone]
      rfl
    rw [if_pos hnone, Option.map_some, if_pos rfl, hcancel]
    exact ⟨_, rfl, hsent.procEvent hnone (le_add_transmission net h _ le_rfl)⟩
  · rw [if_neg hnone, hr.sound.timeout h hnone, Option.map_some, if_neg Bool.false_ne_true]
    refine ⟨_, rfl, hsent.setNoTimeout.settled fun _ => ?_⟩
    rw [MagicNet.setNoTimeout, modifyHost_self]
    exact hnone

lemma Ready.useLink {link : LinkState} (hr : Ready σ net h) (hlink : LinkAt net.now link)
    (hsends : ∀ id ∈ (net.hosts h).flowSending, 0 < (net.flows id).remainingPktThisRound) :
    ∃ net', net.useLink σ h link = some net' ∧ Settled σ net' := by
  unfold MagicNet.useLink
  cases hbusy : link.busyUntil with
  | some time =>
    refine ⟨_, rfl, ?_⟩
    split_ifs with hnone
    · refine hr.procEvent hnone ?_
      have hle := le_add_transmission (σ := σ) net h link.bytesInQueue (hlink time hbusy)
      have hpos : 0 ≤ infinitesimalTime := by
        unfold infinitesimalTime
        positivity
      linarith
    · exact hr.settled fun _ => hnone
  | none =>
    cases hid : (net.hosts h).flowSending with
    | none => exact ⟨net, rfl, hr.settled fun hne => absurd hid hne⟩
    | some id => exact hr.sendPendingData (hsends id hid)

/-- **`send`** -/
lemma Ready.send {link : LinkState} (hr : Ready σ net h) (hlink : LinkAt net.now link) :
    ∃ net', net.send σ h link = some net' ∧ Settled σ net' := by
  obtain ⟨net₁, hnet₁, hr₁, hnow₁⟩ := hr.leaveFinished
  obtain ⟨net₂, hnet₂, hr₂, hnow₂, hsends⟩ := hr₁.leaveRound
  have hlink₂ : LinkAt net₂.now link := by
    rw [hnow₂, hnow₁]
    exact hlink
  obtain ⟨net₃, hnet₃, hsettled⟩ := hr₂.useLink hlink₂ hsends
  refine ⟨net₃, ?_, hsettled⟩
  rw [MagicNet.send, hnet₁, Option.bind_some, hnet₂, Option.bind_some, hnet₃]

lemma Ready.trySend {link : LinkState} (hr : Ready σ net h) (hlink : LinkAt net.now link) :
    ∃ net', net.trySend σ h link = some net' ∧ Settled σ net' := by
  unfold MagicNet.trySend procEventFree
  by_cases hnone : (net.hosts h).hostProcEvent = none
  · rw [if_pos hnone, Option.bind_some, if_pos rfl]
    exact hr.send hlink
  · rw [if_neg hnone, hr.sound.timeout h hnone, Option.bind_some, if_neg Bool.false_ne_true]
    exact ⟨net, rfl, hr.settled fun _ => hnone⟩

lemma Works.scheduleTrySend {link : LinkState} (hw : Works σ net h) (hlink : LinkAt net.now link) :
    ∃ net', (net.schedule σ h).bind (·.trySend σ h link) = some net' ∧ Settled σ net' := by
  obtain ⟨net₁, hnet₁, hr, hnow, -⟩ := hw.schedule
  have hlink₁ : LinkAt net₁.now link := by
    rw [hnow]
    exact hlink
  obtain ⟨net₂, hnet₂, hsettled⟩ := hr.trySend hlink₁
  exact ⟨net₂, by rw [hnet₁, Option.bind_some, hnet₂], hsettled⟩

/-! ### The steps -/

lemma Works.start {link : LinkState} (hw : Works σ net (σ.src id)) (hlink : LinkAt net.now link)
    (hnew : (net.flows id).started = false) (harrived : (net.flows id).arrived = true)
    (hkind : net.events.ofKind (.flowArrival id) = []) :
    ∃ net', net.start σ id link = some net' ∧ Settled σ net' := by
  unfold MagicNet.start
  dsimp only
  obtain ⟨net₁, hnet₁⟩ : ∃ net₁, net₁ = net.modifyFlow id fun f => { f with started := true } :=
    ⟨_, rfl⟩
  obtain ⟨g, hg⟩ : ∃ g : MagicHost → MagicHost, g = fun host => { host with
      activeSendingFlows := push (comparator σ net.flows) host.activeSendingFlows id } := ⟨_, rfl⟩
  have hfield : ∀ {β : Type} (f : MagicHost → β), (∀ host active,
      f { host with activeSendingFlows := active } = f host) →
      ∀ k, f ((net₁.modifyHost (σ.src id) g).hosts k) = f (net.hosts k) := fun f hf k => by
    rw [modifyHost_field f fun host => hg ▸ hf host _, hnet₁]
    rfl
  have hself : net₁.flows id = { net.flows id with started := true } := by
    rw [hnet₁, modifyFlow_self]
  have hother : ∀ k ≠ id, net₁.flows k = net.flows k := fun k hk => by
    rw [hnet₁, modifyFlow_ne _ _ hk]
  have hsame : ∀ {β : Type} (f : MagicFlow → β),
      (∀ flow, f { flow with started := true } = f flow) →
      ∀ k, f (net₁.flows k) = f (net.flows k) := fun f hf k => by
    rcases eq_or_ne k id with rfl | hne
    · rw [hself, hf]
    · rw [hother k hne]
  have hfinished := hsame MagicFlow.finished fun _ => rfl
  have hheld : ((net₁.modifyHost (σ.src id) g).hosts (σ.src id)).held.Perm
      (id :: (net.hosts (σ.src id)).held) := by
    rw [modifyHost_self, hg]
    unfold MagicHost.held
    dsimp only
    rw [show net₁.hosts = net.hosts by rw [hnet₁]; rfl]
    refine ((push_toList_perm _ _ id).append_right _).trans ?_
    exact (List.perm_append_singleton id _).append_right _
  have hs := hw.sound
  rw [← hnet₁, ← hg]
  refine Works.scheduleTrySend ⟨?_, fun k hk => ?_⟩ (hnet₁ ▸ hlink)
  · exact {
      holds := fun k => by
        have hholds := hs.holds k
        rcases eq_or_ne k (σ.src id) with rfl | hne
        · have hnot : id ∉ (net.hosts (σ.src id)).held := fun hmem =>
            Bool.false_ne_true (hnew.symm.trans (hholds.mine id hmem).2)
          refine ⟨hheld.nodup_iff.2 (List.nodup_cons.2 ⟨hnot, hholds.nodup⟩), fun k hk => ?_,
            fun k hsrc hstarted hdone => hheld.mem_iff.2 ?_⟩
          · rcases eq_or_ne k id with rfl | hk'
            · exact ⟨rfl, congrArg MagicFlow.started hself⟩
            · have hmem := (List.mem_cons.1 (hheld.mem_iff.1 hk)).resolve_left hk'
              exact ⟨(hholds.mine k hmem).1,
                (congrArg _ (hother k hk')).trans (hholds.mine k hmem).2⟩
          · rcases eq_or_ne k id with rfl | hk'
            · exact List.mem_cons_self
            · exact List.mem_cons_of_mem _ (hholds.kept k hsrc
                ((congrArg _ (hother k hk')).symm.trans hstarted) ((hfinished k).symm.trans hdone))
        · rw [modifyHost_ne _ _ hne, show net₁.hosts = net.hosts by rw [hnet₁]; rfl]
          refine ⟨hholds.nodup, fun k' hk' => ?_, fun k' hsrc hstarted hdone => ?_⟩
          · have hne' : k' ≠ id := fun heq =>
              Bool.false_ne_true (hnew.symm.trans (heq ▸ (hholds.mine k' hk').2))
            exact ⟨(hholds.mine k' hk').1,
              (congrArg _ (hother k' hne')).trans (hholds.mine k' hk').2⟩
          · have hne' : k' ≠ id := fun heq => hne (hsrc.symm.trans (congrArg _ heq))
            exact hholds.kept k' hsrc ((congrArg _ (hother k' hne')).symm.trans hstarted)
              ((hfinished k').symm.trans hdone)
      receives := fun k => by
        refine ⟨?_, ?_⟩
        · rw [hfield MagicHost.recvBusyUntil fun _ _ => rfl,
            hfield MagicHost.flowReceiving fun _ _ => rfl]
          exact (hs.receives k).receiving
        · rw [hfield MagicHost.recvBusyUntil fun _ _ => rfl, hnet₁]
          exact (hs.receives k).below
      tracks := fun k => by
        rw [hfield MagicHost.hostProcEvent fun _ _ => rfl, hnet₁]
        exact hs.tracks k
      timeout := fun k hk => by
        rw [hfield MagicHost.hostProcEvent fun _ _ => rfl] at hk
        rw [hfield MagicHost.isHostProcEventATimeout fun _ _ => rfl]
        exact hs.timeout k hk
      arrives := fun k => by
        have harr := hs.arrives k
        have hevents : (net₁.modifyHost (σ.src id) g).events = net.events := by rw [hnet₁]; rfl
        rw [hevents]
        change Arrives _ _ (net₁.flows k)
        rcases eq_or_ne k id with rfl | hne
        · rw [hself]
          exact ⟨harr.once, fun hpending => absurd hkind hpending,
            fun hfirst => absurd (harrived.symm.trans hfirst) (by decide)⟩
        · rw [hother k hne]
          exact harr
      ends := fun k => by
        have hends := hs.ends k
        change Ends σ net₁.inFlight _ (net₁.flows k)
        rw [show net₁.inFlight = net.inFlight by rw [hnet₁]; rfl]
        rcases eq_or_ne k id with rfl | hne
        · rw [hself]
          exact ⟨hends.count, hends.acked, hends.sent⟩
        · rw [hother k hne]
          exact hends
      rounds := fun k => by
        change 0 ≤ (net₁.flows k).remainingPktThisRound ∧ (net₁.flows k).ackTimeout ≤ net₁.now + _
        rw [hsame MagicFlow.remainingPktThisRound fun _ => rfl,
          hsame MagicFlow.ackTimeout fun _ => rfl, show net₁.now = net.now by rw [hnet₁]; rfl]
        exact hs.rounds k
      done := fun e he k hkind => (hfinished k).trans
        (hs.done e (by rw [hnet₁] at he; exact he) k hkind)
      now_nonneg := by rw [hnet₁]; exact hs.now_nonneg
      later := by rw [hnet₁]; exact hs.later }
  · refine (hw.others k hk).mono (by rw [hnet₁]; exact le_rfl) ?_
      (hfield MagicHost.flowSending (fun _ _ => rfl) k)
      (hfield MagicHost.hostProcEvent (fun _ _ => rfl) k)
      (fun k' hdone => (hfinished k').trans hdone) fun e he _ => by rw [hnet₁]; exact he
    rw [modifyHost_ne _ _ hk, hnet₁]
    rfl

lemma Settled.startFlow {link : LinkState} (hs : Settled σ net) (hlink : LinkAt net.now link)
    (hnew : (net.flows id).started = false) (harrived : (net.flows id).arrived = true)
    (hkind : net.events.ofKind (.flowArrival id) = []) :
    ∃ net', net.startFlow σ id link = some net' ∧ Settled σ net' := by
  unfold MagicNet.startFlow
  split_ifs with hinfl
  · exact (hs.works _).start hlink hnew harrived hkind
  · refine ⟨_, rfl, ?_⟩
    obtain ⟨net₁, hnet₁⟩ : ∃ net₁, net₁ =
        net.addEvent (net.now + 16 / 10000000) (.flowArrival id) := ⟨_, rfl⟩
    have hsound := hs.sound
    have hmem : ∀ e, e ∈ net₁.events.events ↔ e ∈ net.events.events ∨
        e = ⟨net.events.count, net.now + 16 / 10000000, .flowArrival id⟩ := fun e =>
      hnet₁ ▸ EventQueue.mem_add
    have hflow : (net₁.modifyFlow id fun f => { f with addedInflTime := true }).flows id =
        { net.flows id with addedInflTime := true } := by
      rw [modifyFlow_self, hnet₁]
      rfl
    have hother : ∀ k ≠ id, (net₁.modifyFlow id fun f => { f with addedInflTime := true }).flows k =
        net.flows k := fun k hk => by
      rw [modifyFlow_ne _ _ hk, hnet₁]
      rfl
    have hfield : ∀ {β : Type} (f : MagicFlow → β),
        (∀ flow, f { flow with addedInflTime := true } = f flow) → ∀ k,
        f ((net₁.modifyFlow id fun f => { f with addedInflTime := true }).flows k) =
          f (net.flows k) := fun f hf k => by
      rcases eq_or_ne k id with rfl | hne
      · rw [hflow, hf]
      · rw [hother k hne]
    have hfinished := hfield MagicFlow.finished fun _ => rfl
    rw [← hnet₁]
    refine ⟨?_, fun k => (hs.prompt k).mono (by rw [hnet₁]; exact le_rfl) (by rw [hnet₁]; rfl)
      (by rw [hnet₁]; rfl) (by rw [hnet₁]; rfl) (fun k' hdone => (hfinished k').trans hdone)
      fun e he _ => (hmem e).2 (.inl he)⟩
    exact {
      holds := fun k => by
        have hholds : (net₁.hosts k).Holds σ net.flows k := by
          rw [hnet₁]
          exact hsound.holds k
        exact hholds.mono (hfield MagicFlow.started fun _ => rfl)
          fun k' hdone => (hfinished k').trans hdone
      receives := by rw [hnet₁]; exact hsound.receives
      tracks := fun k => by
        rw [hnet₁]
        exact (hsound.tracks k).add_ne _ nofun
      timeout := by rw [hnet₁]; exact hsound.timeout
      arrives := fun k => by
        have harr := hsound.arrives k
        rcases eq_or_ne k id with rfl | hne
        · have hone : net₁.events.ofKind (.flowArrival k) =
              [⟨net.events.count, net.now + 16 / 10000000, .flowArrival k⟩] := by
            rw [hnet₁, addEvent, EventQueue.ofKind_add, hkind, List.nil_append]
          rw [hflow]
          exact ⟨by rw [modifyFlow, hone]; exact le_rfl, fun _ => ⟨hnew, rfl⟩,
            fun hfirst => absurd (harrived.symm.trans hfirst) (by decide)⟩
        · have hsame :
              net₁.events.ofKind (.flowArrival k) = net.events.ofKind (.flowArrival k) := by
            rw [hnet₁, addEvent, EventQueue.ofKind_add_ne _ _
              fun heq => hne (MagicEvent.flowArrival.inj heq).symm]
          rw [hother k hne]
          exact ⟨by rw [modifyFlow, hsame]; exact harr.once,
            by rw [modifyFlow, hsame]; exact harr.again,
            by rw [modifyFlow, hsame]; exact harr.first⟩
      ends := fun k => by
        have hends := hsound.ends k
        have hinFlight : net₁.inFlight = net.inFlight := by rw [hnet₁]; rfl
        refine ⟨?_, ?_, ?_⟩
        · rw [hfinished, hfield MagicFlow.receivedCount fun _ => rfl,
            hfield MagicFlow.delivered fun _ => rfl]
          exact hends.count
        · rw [hfinished, hfield MagicFlow.delivered fun _ => rfl, modifyFlow, hinFlight]
          exact hends.acked
        · rw [hfield MagicFlow.delivered fun _ => rfl, hfield MagicFlow.sendCount fun _ => rfl,
            modifyFlow, hinFlight]
          exact hends.sent
      rounds := fun k => by
        rw [hfield MagicFlow.remainingPktThisRound fun _ => rfl,
          hfield MagicFlow.ackTimeout fun _ => rfl, hnet₁]
        exact hsound.rounds k
      done := fun e he k hkind' => by
        rw [hfinished]
        rcases (hmem e).1 he with he | rfl
        · exact hsound.done e he k hkind'
        · cases hkind'
      now_nonneg := by rw [hnet₁]; exact hsound.now_nonneg
      later := fun e he => by
        have hle : net.now ≤ e.time := by
          rcases (hmem e).1 he with he | rfl
          · exact hsound.later e he
          · exact le_add_of_nonneg_right (by positivity)
        rw [hnet₁]
        exact hle }

lemma Settled.wait (hs : Settled σ net) {time : Time} (hnext : net.Next time) :
    Settled σ { net with now := time } where
  sound := { hs.sound with
    receives := fun k => (hs.sound.receives k).later hnext.1
    rounds := fun k => ⟨(hs.sound.rounds k).1, (hs.sound.rounds k).2.trans (by
      have hle := hnext.1
      dsimp only
      linarith)⟩
    now_nonneg := hs.sound.now_nonneg.trans hnext.1
    later := hnext.2 }
  prompt k := (hs.prompt k).mono hnext.1 rfl rfl rfl (fun _ hdone => hdone) fun _ he _ => he

section Take

variable {e : QueuedEvent Time MagicEvent} {events : EventQueue Time MagicEvent} {eid : ℕ}

lemma Sound.take (hs : Sound σ net) (htake : net.events.take? eid = some (e, events))
    (hnext : net.Next e.time) {hosts : HostId → MagicHost}
    (hsame : ∀ k, hosts k = { net.hosts k with hostProcEvent := (hosts k).hostProcEvent })
    (htracks : ∀ k, events.Tracks (.hostProcessing k) (hosts k).hostProcEvent)
    (hproc : ∀ k, (hosts k).hostProcEvent ≠ none → (net.hosts k).hostProcEvent ≠ none) :
    Sound σ { net with now := e.time, events := events, hosts := hosts } where
  holds k := by
    dsimp only
    rw [hsame]
    exact ⟨(hs.holds k).nodup, (hs.holds k).mine, (hs.holds k).kept⟩
  receives k := by
    dsimp only
    rw [hsame]
    exact ⟨(hs.receives k).receiving, ((hs.receives k).later hnext.1).below⟩
  tracks := htracks
  timeout k hk := by
    dsimp only
    rw [hsame]
    exact hs.timeout k (hproc k hk)
  arrives id := by
    have harr := hs.arrives id
    have hsub := EventQueue.ofKind_take?_sublist htake (.flowArrival id)
    refine ⟨hsub.length_le.trans harr.once, fun hne => harr.again fun hnil => hne ?_,
      fun hfirst => ⟨(harr.first hfirst).1, ?_⟩⟩
    · exact List.eq_nil_of_sublist_nil (hnil ▸ hsub)
    · exact List.eq_nil_of_sublist_nil ((harr.first hfirst).2 ▸ hsub)
  ends := hs.ends
  rounds id := ⟨(hs.rounds id).1, (hs.rounds id).2.trans (by
    have hle := hnext.1
    dsimp only
    linarith)⟩
  done e' he' := hs.done e' (EventQueue.mem_of_take? htake he')
  now_nonneg := hs.now_nonneg.trans hnext.1
  later e' he' := hnext.2 e' (EventQueue.mem_of_take? htake he')

lemma Prompt.take {k : HostId} (hp : Prompt σ net k)
    (htake : net.events.take? eid = some (e, events)) (hnext : net.Next e.time)
    (hkind : e.kind ≠ .schedule k) {hosts : HostId → MagicHost} (hsame : hosts k = net.hosts k) :
    Prompt σ { net with now := e.time, events := events, hosts := hosts } k :=
  hp.mono hnext.1 (congrArg _ hsame) (congrArg _ hsame) (congrArg _ hsame) (fun _ hdone => hdone)
    fun _ he' hkind' => EventQueue.mem_take?_of_ne htake he' fun heq => hkind (heq ▸ hkind')

lemma Settled.takeProc (hs : Settled σ net) (htake : net.events.take? eid = some (e, events))
    (hnext : net.Next e.time) (hkind : e.kind = .hostProcessing h) :
    Ready σ ({ net with now := e.time, events := events }.modifyHost h fun host =>
      { host with hostProcEvent := none }) h := by
  have hself := Function.update_self h { net.hosts h with hostProcEvent := none } net.hosts
  have hother : ∀ k ≠ h, Function.update net.hosts h { net.hosts h with hostProcEvent := none } k =
      net.hosts k := fun k hk => Function.update_of_ne hk ..
  refine ⟨⟨hs.sound.take htake hnext (fun k => ?_) (fun k => ?_) fun k hk => ?_, fun k hk => ?_⟩,
    fun hnone => ?_⟩
  · rcases eq_or_ne k h with rfl | hne
    · rw [hself]
    · rw [hother k hne]
  · rcases eq_or_ne k h with rfl | hne
    · rw [hself]
      exact EventQueue.Tracks.none_iff.2 ((hs.sound.tracks k).take? htake hkind).2
    · rw [hother k hne]
      refine (hs.sound.tracks k).take?_ne htake fun heq => hne ?_
      exact MagicEvent.hostProcessing.inj (heq.symm.trans hkind)
  · rcases eq_or_ne k h with rfl | hne
    · rw [hself] at hk
      exact absurd rfl hk
    · rwa [hother k hne] at hk
  · exact (hs.prompt k).take htake hnext (by rw [hkind]; nofun) (hother k hk)
  · rw [modifyHost_self] at hnone
    refine ((hs.prompt h).asks hnone).mono hnext.1 (by rw [modifyHost_self]) (fun _ hdone => hdone)
      fun e' he' hkind' => EventQueue.mem_take?_of_ne htake he' fun heq => ?_
    rw [heq, hkind] at hkind'
    cases hkind'

lemma Sound.takeOther (hs : Sound σ net) (htake : net.events.take? eid = some (e, events))
    (hnext : net.Next e.time) (hkind : ∀ k, e.kind ≠ .hostProcessing k) :
    Sound σ { net with now := e.time, events := events } :=
  hs.take htake hnext (fun _ => rfl) (fun k => (hs.tracks k).take?_ne htake (hkind k))
    fun _ hk => hk

/-- **An event** is processed. -/
lemma Settled.processEvent {link : LinkState} (hs : Settled σ net)
    (htake : net.events.take? eid = some (e, events)) (hnext : net.Next e.time)
    (hlink : LinkAt e.time link) :
    ∃ net', { net with now := e.time, events := events }.processEvent σ link e.kind = some net' ∧
      Settled σ net' := by
  have hsettled : (∀ k, e.kind ≠ .hostProcessing k) → (∀ k, e.kind ≠ .schedule k) →
      Settled σ { net with now := e.time, events := events } := fun hproc hsched =>
    ⟨hs.sound.takeOther htake hnext hproc, fun k => (hs.prompt k).take htake hnext (hsched k) rfl⟩
  cases hkind : e.kind with
  | hostProcessing h => exact (hs.takeProc htake hnext hkind).send hlink
  | schedule h =>
    have hw : Works σ { net with now := e.time, events := events } h :=
      ⟨hs.sound.takeOther htake hnext fun k => by rw [hkind]; nofun, fun k hk =>
        (hs.prompt k).take htake hnext
          (fun heq => hk (MagicEvent.schedule.inj (heq.symm.trans hkind))) rfl⟩
    exact hw.scheduleTrySend hlink
  | flowArrival id =>
    have harr := hs.sound.arrives id
    have hthis := EventQueue.ofKind_take? htake (hkind ▸ harr.once)
    rw [hkind] at hthis
    have hpending : net.events.ofKind (.flowArrival id) ≠ [] := by
      rw [hthis.1]
      exact List.cons_ne_nil e []
    refine (hsettled (fun k => by rw [hkind]; nofun) fun k => by rw [hkind]; nofun).startFlow hlink
      (harr.again hpending).1 ?_ hthis.2
    by_contra hnot
    exact hpending (harr.first (by simpa using hnot)).2
  | flowFinished id =>
    have hdone := hs.sound.done e (EventQueue.taken_mem htake) id hkind
    have hnet := hsettled (fun k => by rw [hkind]; nofun) fun k => by rw [hkind]; nofun
    refine ⟨_, rfl, ?_⟩
    have hsame : { net with now := e.time, events := events }.modifyFlow id
        (fun f => { f with finished := true }) = { net with now := e.time, events := events } := by
      have hflow : { net.flows id with finished := true } = net.flows id := by
        cases hf : net.flows id
        rw [hf] at hdone
        rw [← hdone]
      unfold MagicNet.modifyFlow
      dsimp only
      rw [hflow, Function.update_eq_self]
    rw [hsame]
    exact hnet

end Take

/-! ### The packets -/

lemma Ends.erase {inFlight : List MagicPacket} {f : MagicFlow} (he : Ends σ inFlight id f)
    (p : MagicPacket) : Ends σ (inFlight.erase p) id f where
  count := he.count
  acked hor := he.acked (hor.imp_right List.mem_of_mem_erase)
  sent := by
    have hle := (List.erase_sublist (a := p) (l := inFlight)).countP_le (p := IsData id)
    have hsent := he.sent
    omega

lemma Settled.lose (hs : Settled σ net) (p : MagicPacket) :
    Settled σ { net with inFlight := net.inFlight.erase p } where
  sound := { hs.sound with ends := fun id => (hs.sound.ends id).erase p }
  prompt k := ⟨(hs.prompt k).goes, (hs.prompt k).asks⟩

lemma receive_data_eq (net : MagicNet) (id : FlowId) (seq priority : ℕ) :
    net.receive σ (.data id seq priority) =
      ({ net with inFlight := if (net.flows id).finished = false ∧
            σ.sizeInPkt id ≤ add32 (net.flows id).receivedCount 1 then
          net.inFlight ++ [MagicPacket.ack id] else net.inFlight }.modifyFlow id fun f => { f with
        receivedCount := if f.finished then f.receivedCount else add32 f.receivedCount 1
        delivered := f.delivered + 1 }) := by
  cases hdone : (net.flows id).finished with
  | true => simp [receive, receiveData, MagicNet.modifyFlow, hdone]
  | false =>
    by_cases hsize : σ.sizeInPkt id ≤ add32 (net.flows id).receivedCount 1
    · simp [receive, receiveData, MagicNet.modifyFlow, sendPacket, hdone, hsize]
    · simp [receive, receiveData, MagicNet.modifyFlow, hdone, hsize]

lemma Settled.receiveData (hs : Settled σ net) {seq priority : ℕ}
    (hp : .data id seq priority ∈ net.inFlight) :
    Settled σ ({ net with inFlight := net.inFlight.erase (.data id seq priority) }.receive σ
      (.data id seq priority)) := by
  rw [receive_data_eq]
  obtain ⟨inFlight, hinFlight⟩ : ∃ inFlight, inFlight = if (net.flows id).finished = false ∧
      σ.sizeInPkt id ≤ add32 (net.flows id).receivedCount 1 then
        net.inFlight.erase (.data id seq priority) ++ [.ack id]
      else net.inFlight.erase (.data id seq priority) := ⟨_, rfl⟩
  dsimp only
  rw [← hinFlight]
  have hcount : ∀ k, inFlight.countP (IsData k) =
      (net.inFlight.erase (.data id seq priority)).countP (IsData k) := fun k => by
    rw [hinFlight]
    split_ifs
    · rw [List.countP_append, List.countP_singleton]
      simp [IsData]
    · rfl
  have hack : ∀ k, .ack k ∈ inFlight → .ack k ∈ net.inFlight ∨
      (k = id ∧ (net.flows id).finished = false ∧
        σ.sizeInPkt id ≤ add32 (net.flows id).receivedCount 1) := fun k hk => by
    rw [hinFlight] at hk
    split_ifs at hk with hcond
    · rcases List.mem_append.1 hk with hk | hk
      · exact .inl (List.mem_of_mem_erase hk)
      · exact .inr ⟨MagicPacket.ack.inj (List.mem_singleton.1 hk), hcond⟩
    · exact .inl (List.mem_of_mem_erase hk)
  have hothers : ∀ k ≠ id, Ends σ inFlight k (net.flows k) := fun k hk => by
    have hold := hs.sound.ends k
    refine ⟨hold.count, fun hor => hold.acked (hor.imp_right fun hmem => ?_), ?_⟩
    · exact (hack k hmem).resolve_right fun hself => hk hself.1
    · rw [hcount]
      exact (hold.erase _).sent
  have hends : Ends σ inFlight id { net.flows id with
      receivedCount := if (net.flows id).finished then (net.flows id).receivedCount
        else add32 (net.flows id).receivedCount 1
      delivered := (net.flows id).delivered + 1 } := by
    have hold := hs.sound.ends id
    refine ⟨fun hnot => ?_, fun hor => ?_, ?_⟩
    · dsimp only at hnot ⊢
      rw [hnot, if_neg Bool.false_ne_true, hold.count hnot, add32_mod]
    · have hcases : ((net.flows id).finished = true ∨ .ack id ∈ net.inFlight) ∨
          ((net.flows id).finished = false ∧
            σ.sizeInPkt id ≤ add32 (net.flows id).receivedCount 1) := by
        rcases hor with hdone | hmem
        · exact .inl (.inl hdone)
        · exact (hack id hmem).imp .inr (·.2)
      rcases hcases with hold' | ⟨hnot, hsize⟩
      · exact (hold.acked hold').trans (Nat.le_succ _)
      · rw [hold.count hnot, add32_mod] at hsize
        exact hsize.trans (Nat.mod_le ..)
    · have hperm := (List.perm_cons_erase hp).countP_eq (IsData id)
      have hone : IsData id (.data id seq priority) = true := by simp [IsData]
      rw [List.countP_cons_of_pos hone] at hperm
      have hsent := hold.sent
      rw [hcount]
      dsimp only
      omega
  have harr := hs.sound.arrives id
  exact ⟨hs.sound.modifyFlow rfl (fun hdone => hdone) ⟨harr.once, harr.again, harr.first⟩ hothers
    hends (hs.sound.rounds id), fun k => (hs.prompt k).modifyFlow fun hdone => hdone⟩

lemma Settled.receiveAck (hs : Settled σ net) (hp : .ack id ∈ net.inFlight) :
    Settled σ ({ net with inFlight := net.inFlight.erase (.ack id) }.receiveAck id) := by
  have hlose := hs.lose (.ack id)
  unfold MagicNet.receiveAck
  split_ifs with hnot
  · exact hlose
  · obtain ⟨net₁, hnet₁⟩ : ∃ net₁, net₁ =
        { net with inFlight := net.inFlight.erase (.ack id) }.modifyFlow id
          fun f => { f with finished := true } := ⟨_, rfl⟩
    have harr := hs.sound.arrives id
    have hold := hlose.sound.ends id
    have hs₁ : Settled σ net₁ := by
      rw [hnet₁]
      exact ⟨hs.sound.modifyFlow rfl (fun _ => rfl) ⟨harr.once, harr.again, harr.first⟩
        (fun k _ => hlose.sound.ends k) ⟨nofun, fun _ => (hs.sound.ends id).acked (.inr hp),
          hold.sent⟩ (hs.sound.rounds id), fun k => (hs.prompt k).modifyFlow fun _ => rfl⟩
    have hdone : (net₁.flows id).finished = true := by
      rw [hnet₁, modifyFlow_self]
    have hnow : net₁.now = net.now := by rw [hnet₁]; rfl
    rw [← hnet₁, ← hnow]
    refine ⟨{ hs₁.sound with
      tracks := fun k => (hs₁.sound.tracks k).add_ne _ nofun
      arrives := fun k => ?_
      done := fun e he k hkind => ?_
      later := fun e he => ?_ }, fun k => (hs₁.prompt k).mono le_rfl rfl rfl rfl
        (fun _ hdone => hdone) fun e he _ => EventQueue.mem_add.2 (.inl he)⟩
    · have hkind : (net₁.events.add net₁.now (.flowFinished id)).ofKind (.flowArrival k) =
          net₁.events.ofKind (.flowArrival k) := EventQueue.ofKind_add_ne _ _ nofun
      have harr := hs₁.sound.arrives k
      refine ⟨?_, ?_, ?_⟩ <;> unfold addEvent <;> dsimp only <;> rw [hkind]
      · exact harr.once
      · exact harr.again
      · exact harr.first
    · rcases EventQueue.mem_add.1 he with he | rfl
      · exact hs₁.sound.done e he k hkind
      · exact MagicEvent.flowFinished.inj hkind ▸ hdone
    · rcases EventQueue.mem_add.1 he with he | rfl
      · exact hs₁.sound.later e he
      · exact le_rfl

/-! ### The runs -/

lemma settled_init (σ : MagicSpec) : Settled σ (init σ) where
  sound := {
    holds := fun _ => ⟨List.nodup_nil, nofun, nofun⟩
    receives := fun _ => ⟨fun hpos => absurd hpos (lt_irrefl _),
      le_add_of_nonneg_right σ.longest_nonneg⟩
    tracks := fun _ => .empty
    timeout := fun _ hne => absurd rfl hne
    arrives := fun _ => ⟨Nat.zero_le 1, fun hne => absurd rfl hne, fun _ => ⟨rfl, rfl⟩⟩
    ends := fun _ => ⟨fun _ => rfl, nofun, le_rfl⟩
    rounds := fun _ => ⟨le_rfl, le_add_of_nonneg_right σ.longest_nonneg⟩
    done := nofun
    now_nonneg := le_rfl
    later := nofun }
  prompt := fun _ => ⟨fun hne => absurd rfl hne, fun _ _ hmem => by
    obtain ⟨id, hid, -⟩ := hmem
    exact absurd hid (Array.not_mem_empty id)⟩

/-- **A step** that can happen does not fail. -/
lemma Settled.step (hs : Settled σ net) {a : MagicAct} (ha : net.Enabled a) :
    ∃ net', net.step σ a = some net' ∧ Settled σ net' := by
  cases a with
  | arrive now id link =>
    obtain ⟨hnew, hnext, hlink⟩ := ha
    have harr := hs.sound.arrives id
    have hwait := hs.wait hnext
    have hends := hs.sound.ends id
    have harrived : Settled σ ({ net with now := now }.modifyFlow id fun f =>
        { f with arrived := true }) :=
      ⟨hwait.sound.modifyFlow rfl (fun hdone => hdone) ⟨harr.once, harr.again, nofun⟩
        (fun k _ => hs.sound.ends k) ⟨hends.count, hends.acked, hends.sent⟩ (hwait.sound.rounds id),
        fun k => (hwait.prompt k).modifyFlow fun hdone => hdone⟩
    refine harrived.startFlow hlink ?_ ?_ (harr.first hnew).2
    · rw [modifyFlow_self]
      exact (harr.first hnew).1
    · rw [modifyFlow_self]
  | event eid link =>
    obtain ⟨⟨e, events⟩, htake, hnext, hlink⟩ := ha
    obtain ⟨net', hnet', hsettled⟩ := hs.processEvent htake hnext hlink
    exact ⟨net', by rw [MagicNet.step, htake, Option.bind_some, hnet'], hsettled⟩
  | deliver now p =>
    obtain ⟨hmem, hnext⟩ := ha
    have hwait := hs.wait hnext
    refine ⟨_, rfl, ?_⟩
    cases p with
    | data id seq priority => exact hwait.receiveData hmem
    | ack id => exact hwait.receiveAck hmem
  | lose p => exact ⟨_, rfl, hs.lose p⟩

lemma settled_of_reach (hr : Reach (machine σ) net) : Settled σ net := by
  refine hr.inv (settled_init σ) fun {s t a} _ hs hnext => ?_
  obtain ⟨ha, hstep⟩ := Option.ite_none_right_eq_some.1 hnext
  obtain ⟨net', hnet', hsettled⟩ := hs.step ha
  exact Option.some.inj (hnet'.symm.trans hstep) ▸ hsettled

/-- **The code never fails**: in every reachable state, whatever can happen next can be processed:
no assertion fails, and no field is read that was not set. -/
theorem never_fails (hr : Reach (machine σ) net) {a : MagicAct} (ha : net.Enabled a) :
    (net.step σ a).isSome := by
  obtain ⟨net', hnet', -⟩ := (settled_of_reach hr).step ha
  rw [hnet']
  rfl

/-- Two flows of one receiver, of two and three packets. -/
def twoSenders : MagicSpec where
  src id := id
  dst _ := 2
  sizeInPkt id := id + 2
  startTime _ := 1
  mss := 1460
  hdrSize := 40
  rate _ := 10000000000
  reauthLimit := 8
  magicTransSlack := 1
  magicDelayScheduling := false
  magicInflate := true
  rate_pos _ := by norm_num
  magicTransSlack_nonneg := by norm_num

/-- Both flows arrive, and arrive again; the second one waits for the receiver. -/
def secondWaits : List MagicAct :=
  [.arrive 1 0 ⟨none, 0⟩, .arrive 1 1 ⟨none, 0⟩, .event 0 ⟨none, 0⟩, .event 1 ⟨none, 0⟩]

/-- Both send their packets, one after the other, and are acknowledged. -/
def bothDone : List MagicAct :=
  [.arrive 1 0 ⟨none, 0⟩, .arrive 1 1 ⟨none, 0⟩, .event 0 ⟨none, 0⟩,
    .deliver (625001 / 625000) (.data 0 0 1), .event 1 ⟨none, 0⟩, .event 2 ⟨none, 0⟩,
    .deliver (2500007 / 2500000) (.data 0 1460 1), .deliver (2500007 / 2500000) (.ack 0),
    .event 5 ⟨none, 0⟩, .event 3 ⟨none, 0⟩, .deliver (250001 / 250000) (.data 1 0 1),
    .event 4 ⟨none, 0⟩, .event 6 ⟨none, 0⟩, .deliver (2500013 / 2500000) (.data 1 1460 1),
    .event 7 ⟨none, 0⟩, .deliver (156251 / 156250) (.data 1 2920 1),
    .deliver (156251 / 156250) (.ack 1), .event 9 ⟨none, 0⟩, .event 8 ⟨none, 0⟩]

theorem never_fails_secondWaits : ∃ net : MagicNet, net.Enabled (.event 2 ⟨none, 0⟩) ∧
    (net.step twoSenders (.event 2 ⟨none, 0⟩)).isSome := by
  obtain ⟨net, hr, ha⟩ : ∃ net, Reach (machine twoSenders) net ∧
      net.Enabled (.event 2 ⟨none, 0⟩) := exists_reach_of_exec_any secondWaits (by decide +kernel)
  exact ⟨net, ha, never_fails hr ha⟩

lemma Sound.count_held (hs : Sound σ net) (hstarted : (net.flows id).started = true)
    (hnot : (net.flows id).finished = false) (h : HostId) :
    (net.hosts h).held.count id = if h = σ.src id then 1 else 0 := by
  split_ifs with heq
  · exact List.count_eq_one_of_mem (hs.holds h).nodup ((hs.holds h).kept id heq.symm hstarted hnot)
  · exact List.count_eq_zero.2 fun hmem => heq ((hs.holds h).mine id hmem).1.symm

lemma Settled.exists_event (hs : Settled σ net) (hnear : net.now + σ.longest < 999999)
    (hstarted : (net.flows id).started = true) (hnot : (net.flows id).finished = false) :
    ∃ e ∈ net.events.events,
      e.kind = .hostProcessing (σ.src id) ∨ e.kind = .schedule (σ.src id) := by
  have hmem := (hs.sound.holds (σ.src id)).kept id rfl hstarted hnot
  by_cases hnone : (net.hosts (σ.src id)).flowSending = none
  · have hactive : id ∈ (net.hosts (σ.src id)).activeSendingFlows := by
      simpa [MagicHost.held, hnone] using hmem
    obtain ⟨e, he, hkind⟩ := (hs.prompt (σ.src id)).asks hnone hnear ⟨id, hactive, hnot⟩
    exact ⟨e, he, .inr hkind⟩
  · obtain ⟨eid, heid⟩ := Option.ne_none_iff_exists'.1 ((hs.prompt (σ.src id)).goes hnone)
    have htracks := hs.sound.tracks (σ.src id)
    rw [heid] at htracks
    have hpending : eid ∈ net.events.pending (.hostProcessing (σ.src id)) := by
      rw [htracks]
      exact List.mem_singleton_self eid
    obtain ⟨e, he, -⟩ := List.mem_map.1 hpending
    obtain ⟨he, hkind⟩ := List.mem_filter.1 he
    exact ⟨e, he, .inl (of_decide_eq_true hkind)⟩

/-- **No flow is lost and no host stalls**: in every reachable state a flow that is started and not
finished is with its host, once and with no other, and an event of its host is to come, no earlier
than now: the next packet, or the next look at the flows. -/
theorem never_stalls (hr : Reach (machine σ) net) (hnear : net.now + σ.longest < 999999)
    (hstarted : (net.flows id).started = true) (hnot : (net.flows id).finished = false) :
    (∀ h, (net.hosts h).held.count id = if h = σ.src id then 1 else 0) ∧
      ∃ e ∈ net.events.events, net.now ≤ e.time ∧
        (e.kind = .hostProcessing (σ.src id) ∨ e.kind = .schedule (σ.src id)) := by
  have hs := settled_of_reach hr
  obtain ⟨e, he, hkind⟩ := hs.exists_event hnear hstarted hnot
  exact ⟨hs.sound.count_held hstarted hnot, e, he, hs.sound.later e he, hkind⟩

theorem never_stalls_secondWaits : ∃ net : MagicNet, (net.hosts 1).flowSending = none ∧
    (net.hosts 1).held.count 1 = 1 ∧ ∃ e ∈ net.events.events, net.now ≤ e.time ∧
      (e.kind = .hostProcessing 1 ∨ e.kind = .schedule 1) := by
  obtain ⟨net, hr, hnone, hnear, hstarted, hnot⟩ : ∃ net, Reach (machine twoSenders) net ∧
      (net.hosts 1).flowSending = none ∧ net.now + twoSenders.longest < 999999 ∧
      (net.flows 1).started = true ∧ (net.flows 1).finished = false :=
    exists_reach_of_exec_any secondWaits (by decide +kernel)
  have hstalls := never_stalls hr hnear hstarted hnot
  exact ⟨net, hnone, hstalls.1 1, hstalls.2⟩

/-- **What is finished is delivered**: in every reachable state a finished flow has had as many
data packets delivered as it has, all of them sent; and when no event is left, every flow that was
started is finished, whatever the network lost. -/
theorem finished_delivered (hr : Reach (machine σ) net) :
    (∀ id, (net.flows id).finished = true → σ.sizeInPkt id ≤ (net.flows id).delivered) ∧
      (∀ id, (net.flows id).delivered + net.inFlight.countP (IsData id) ≤
        (net.flows id).sendCount) ∧
      (net.now + σ.longest < 999999 → net.events.events = [] →
        ∀ id, (net.flows id).started = true → (net.flows id).finished = true) := by
  have hs := settled_of_reach hr
  refine ⟨fun id hdone => (hs.sound.ends id).acked (.inl hdone), fun id => (hs.sound.ends id).sent,
    fun hnear hempty id hstarted => ?_⟩
  by_contra hnot
  obtain ⟨e, he, -⟩ := hs.exists_event hnear hstarted (by simpa using hnot)
  rw [hempty] at he
  exact List.not_mem_nil he

theorem finished_delivered_bothDone : ∃ net : MagicNet, net.events.events = [] ∧
    ∀ id ∈ ([0, 1] : List FlowId), (net.flows id).finished = true ∧
      id + 2 ≤ (net.flows id).delivered ∧
      (net.flows id).delivered + net.inFlight.countP (IsData id) ≤ (net.flows id).sendCount := by
  obtain ⟨net, hr, hempty, hnear, hstarted⟩ := exists_reach_of_exec_any
    (M := machine twoSenders) (P := fun net => net.events.events.isEmpty = true ∧
      net.now + twoSenders.longest < 999999 ∧
      ∀ id ∈ ([0, 1] : List FlowId), (net.flows id).started = true)
    bothDone (by decide +kernel)
  have hempty := List.isEmpty_iff.1 hempty
  obtain ⟨hdelivered, hsent, hrest⟩ := finished_delivered hr
  refine ⟨net, hempty, fun id hid => ?_⟩
  have hdone := hrest hnear hempty id (hstarted id hid)
  exact ⟨hdone, hdelivered id hdone, hsent id⟩

end MagicNet

end DcSim
