import DcSim.RufHost
import Mathlib.Data.Set.Basic
import Mathlib.Tactic.Positivity
import Mathlib.Tactic.Linarith

/-!
Whether a receiver of RUF with unfinished flows can be left without an event.

While a source is granted, the token event is pending; while none is, or once the end of the grant
is announced, the wakeup event has to be. The announcement arms it, but the wakeup that finds all
flows finished does not arm it again, and neither does the RTS of a long flow that comes while the
grant lasts: the grant ends, and nothing is pending.
-/

namespace DcSim.RufHost

open Runs Word32

variable {σ : RufSpec} {now : Time} {host : RufHost}

/-! ### The flows that wait for tokens -/

variable (host) in
/-- The flows of `src_to_flows` that are not finished at the receiver. -/
def waiting : Set FlowId :=
  {id | id ∈ host.srcToFlows ∧ (host.flows id).finishedAtReceiver = false}

lemma mem_searchLoop {remain : Option ℤ} {tried queue : List FlowId} {turns : ℕ} {id : FlowId}
    (hid : (host.flows id).finishedAtReceiver = false) :
    id ∈ (host.searchLoop σ now remain tried turns queue).2 ↔ id ∈ queue ∨ id ∈ tried := by
  induction turns generalizing remain tried queue with
  | zero => exact List.mem_append
  | succ turns ih =>
    unfold searchLoop
    split
    · next hpop =>
      rw [CustomPriorityQueue.pop_eq_none hpop]
      simp
    · next best rest hpop =>
      have hmem : id ∈ queue ↔ id = best ∨ id ∈ rest :=
        (CustomPriorityQueue.pop_perm hpop).mem_iff.trans List.mem_cons
      -- a flow that is passed over is with the tried ones
      have hpass : (id ∈ rest ∨ id ∈ tried ++ [best]) ↔ id ∈ queue ∨ id ∈ tried := by
        rw [hmem, List.mem_append, List.mem_singleton]
        tauto
      dsimp only
      split_ifs with hfin hred
      · have hne : id ≠ best := fun heq => by
          rw [heq, hfin] at hid
          cases hid
        rw [ih, hmem, or_iff_right hne]
      · rw [ih, hpass]
      · split
        · exact List.mem_append
        · split_ifs
          · exact List.mem_append
          · rw [ih, hpass]
          · exact List.mem_append
          · rw [ih, hpass]

lemma mem_search {remain : Option ℤ} {queue : List FlowId} {id : FlowId}
    (hid : (host.flows id).finishedAtReceiver = false) :
    id ∈ (host.search σ now remain queue).2 ↔ id ∈ queue := by
  rw [search, mem_searchLoop hid]
  simp

@[simp] lemma waiting_getTopUnfinishFlow (s : HostId) :
    (host.getTopUnfinishFlow σ now s).2.waiting = host.waiting := by
  ext id
  refine and_congr_left fun hid => ?_
  have hid : (host.flows id).finishedAtReceiver = false := hid
  change id ∈ _ ++ _ ↔ _
  rw [List.mem_append, mem_search hid]
  simp only [queueOf, List.mem_filter]
  by_cases hs : σ.src id = s <;> simp [hs]

@[simp] lemma waiting_sendListSrcs (nrts : Option (HostId × ℤ)) :
    (host.sendListSrcs σ now nrts).waiting = host.waiting := by
  have hkept : ∀ id, (host.flows id).finishedAtReceiver = false →
      (id ∈ (host.srcs σ).flatMap (fun s => (host.searchSrc σ now nrts s).2) ↔
        id ∈ host.srcToFlows) := by
    intro id hid
    simp only [List.mem_flatMap, srcs, List.mem_dedup, List.mem_map, searchSrc, mem_search hid,
      queueOf, List.mem_filter]
    constructor
    · rintro ⟨-, -, hmem, -⟩
      exact hmem
    · intro hmem
      exact ⟨σ.src id, ⟨id, hmem, rfl⟩, hmem, by simp⟩
  unfold sendListSrcs
  dsimp only
  split_ifs <;> exact Set.ext fun id => and_congr_left (hkept id)

lemma waiting_setFlow_subset {id : FlowId} {f : RufFlow}
    (h : (host.flows id).finishedAtReceiver = true → f.finishedAtReceiver = true) :
    (host.setFlow id f).waiting ⊆ host.waiting := by
  rintro i ⟨hmem, hi⟩
  refine ⟨hmem, ?_⟩
  by_cases hne : i = id
  · subst hne
    have hi : f.finishedAtReceiver = false := by simpa [setFlow] using hi
    by_contra hfin
    exact Bool.false_ne_true (hi.symm.trans (h (by simpa using hfin)))
  · simpa [setFlow, hne] using hi

lemma RufFlow.finishedAtReceiver_receiveShortFlow {id : FlowId} {f f' : RufFlow}
    (h : f.receiveShortFlow σ now id = some f') : f'.finishedAtReceiver = f.finishedAtReceiver := by
  obtain ⟨flow, hflow, rfl⟩ := Option.map_eq_some_iff.1 h
  obtain ⟨-, hflow⟩ := Option.ite_none_left_eq_some.1 hflow
  obtain rfl := Option.some.inj hflow
  rfl

lemma RufFlow.finishedAtReceiver_sendTokenPkt {id : FlowId} {f : RufFlow} {r : RufFlow × RufPacket}
    (h : f.sendTokenPkt σ now id = some r) : r.1.finishedAtReceiver = f.finishedAtReceiver := by
  obtain ⟨seq, -, h⟩ := Option.bind_eq_some_iff.1 h
  obtain ⟨next, -, rfl⟩ := Option.map_eq_some_iff.1 h
  rfl

/-! ### What the operations leave alone -/

structure Keeps (host host' : RufHost) : Prop where
  gosrcInfo : host'.gosrcInfo = host.gosrcInfo
  wakeupEvt : host'.wakeupEvt = host.wakeupEvt
  tokenSendEvt : host'.tokenSendEvt = host.tokenSendEvt
  asserts : host'.asserts = host.asserts
  waiting : host'.waiting ⊆ host.waiting

lemma Keeps.refl (host : RufHost) : Keeps host host := ⟨rfl, rfl, rfl, rfl, subset_rfl⟩

lemma Keeps.trans {a b c : RufHost} (h₁ : Keeps a b) (h₂ : Keeps b c) : Keeps a c :=
  ⟨h₂.gosrcInfo.trans h₁.gosrcInfo, h₂.wakeupEvt.trans h₁.wakeupEvt,
    h₂.tokenSendEvt.trans h₁.tokenSendEvt, h₂.asserts.trans h₁.asserts,
    h₂.waiting.trans h₁.waiting⟩

lemma keeps_setFlow {id : FlowId} {f : RufFlow}
    (h : (host.flows id).finishedAtReceiver = true → f.finishedAtReceiver = true) :
    Keeps host (host.setFlow id f) :=
  ⟨rfl, rfl, rfl, rfl, waiting_setFlow_subset h⟩

lemma Keeps.setHoldOn {host' : RufHost} (h : Keeps host host') (n : ℕ) :
    Keeps host { host' with holdOn := n } :=
  ⟨h.gosrcInfo, h.wakeupEvt, h.tokenSendEvt, h.asserts, h.waiting⟩

lemma keeps_getTopUnfinishFlow (s : HostId) : Keeps host (host.getTopUnfinishFlow σ now s).2 :=
  ⟨rfl, rfl, rfl, rfl, (waiting_getTopUnfinishFlow s).subset⟩

lemma keeps_receiveShortFlow {id : FlowId} {host' : RufHost}
    (h : host.receiveShortFlow σ now id = some host') : Keeps host host' := by
  obtain ⟨f, hf, rfl⟩ := Option.map_eq_some_iff.1 h
  have hk : Keeps host (host.setFlow id f) :=
    keeps_setFlow fun hfin => (RufFlow.finishedAtReceiver_receiveShortFlow hf).trans hfin
  exact hk.setHoldOn _

lemma keeps_relaxWindow (id : FlowId) : Keeps host (host.relaxWindow σ now id).1 := by
  unfold relaxWindow
  dsimp only
  split_ifs
  · exact .refl host
  · exact keeps_setFlow fun h => h
  · exact .refl host

lemma keeps_resetTimeout (id : FlowId) :
    Keeps host (host.setFlow id ((host.flows id).resetTimeout σ id)) := by
  refine keeps_setFlow fun h => ?_
  unfold RufFlow.resetTimeout
  split_ifs <;> exact h

section SendListSrcs

variable (nrts : Option (HostId × ℤ))

lemma gosrcInfo_sendListSrcs : (host.sendListSrcs σ now nrts).gosrcInfo =
    { host.gosrcInfo with sendNrts := nrts.isSome || host.gosrcInfo.sendNrts } := by
  unfold sendListSrcs
  dsimp only
  split_ifs with h
  · rw [Option.isNone_iff_eq_none.1 h.2]
    rfl
  · rfl

@[simp] lemma wakeupEvt_sendListSrcs :
    (host.sendListSrcs σ now nrts).wakeupEvt = host.wakeupEvt := by
  unfold sendListSrcs
  dsimp only
  split_ifs <;> rfl

@[simp] lemma tokenSendEvt_sendListSrcs :
    (host.sendListSrcs σ now nrts).tokenSendEvt = host.tokenSendEvt := by
  unfold sendListSrcs
  dsimp only
  split_ifs <;> rfl

@[simp] lemma asserts_sendListSrcs :
    (host.sendListSrcs σ now nrts).asserts = host.asserts := by
  unfold sendListSrcs
  dsimp only
  split_ifs <;> rfl

end SendListSrcs

lemma keeps_sendListSrcs : Keeps host (host.sendListSrcs σ now none) :=
  ⟨gosrcInfo_sendListSrcs none, wakeupEvt_sendListSrcs none, tokenSendEvt_sendListSrcs none,
    asserts_sendListSrcs none, (waiting_sendListSrcs none).subset⟩

lemma restartTokenEvt_eq :
    ∃ e, host.restartTokenEvt now = { host with tokenSendEvt := some e } := by
  unfold restartTokenEvt
  rcases host with ⟨fl, q, g, w, (_ | ⟨t, (_ | _)⟩), n, l, a⟩
  · exact ⟨_, by simp [scheduleTokenProcEvt, assert]; rfl⟩
  · exact ⟨_, rfl⟩
  · exact ⟨_, by simp [scheduleTokenProcEvt, assert]; rfl⟩

/-! ### The events that are pending -/

structure Ready (host : RufHost) : Prop where
  quiet : host.gosrcInfo.src ≠ none → host.gosrcInfo.sendNrts = false → host.wakeupEvt = none
  wakeup : host.waiting.Nonempty →
    host.gosrcInfo.src = none ∨ host.gosrcInfo.sendNrts = true → host.wakeupEvt ≠ none
  remain : host.gosrcInfo.src ≠ none → 0 < host.gosrcInfo.remainTokens
  asserts : host.asserts = true

structure Armed (host : RufHost) : Prop extends Ready host where
  token : host.gosrcInfo.src ≠ none → host.tokenSendEvt ≠ none

lemma Keeps.ready {host' : RufHost} (hk : Keeps host host') (h : Ready host) : Ready host' := by
  refine ⟨?_, fun hw => ?_, ?_, hk.asserts.trans h.asserts⟩
  · rw [hk.gosrcInfo, hk.wakeupEvt]
    exact h.quiet
  · rw [hk.gosrcInfo, hk.wakeupEvt]
    exact h.wakeup (hw.mono hk.waiting)
  · rw [hk.gosrcInfo]
    exact h.remain

lemma Keeps.armed {host' : RufHost} (hk : Keeps host host') (h : Armed host) : Armed host' := by
  refine ⟨hk.ready h.toReady, ?_⟩
  rw [hk.gosrcInfo, hk.tokenSendEvt]
  exact h.token

lemma Ready.asserted (h : Ready host) {b : Bool} (hb : b = true) : Ready (host.assert b) :=
  ⟨h.quiet, h.wakeup, h.remain, by simp [assert, h.asserts, hb]⟩

lemma Ready.restart (h : Ready host) : Armed (host.restartTokenEvt now) := by
  obtain ⟨e, he⟩ : ∃ e, host.restartTokenEvt now = { host with tokenSendEvt := some e } :=
    restartTokenEvt_eq
  rw [he]
  exact ⟨⟨h.quiet, h.wakeup, h.remain, h.asserts⟩, fun _ => nofun⟩

lemma Ready.schedule (h : Ready host) (hnone : host.tokenSendEvt = none) (time : Time) (b : Bool) :
    Armed (host.scheduleTokenProcEvt now time b) :=
  ⟨⟨h.quiet, h.wakeup, h.remain, by simp [scheduleTokenProcEvt, assert, hnone, h.asserts]⟩,
    fun _ => nofun⟩

lemma armed_of_scheduled (hsrc : host.gosrcInfo.src = none) (hwake : host.wakeupEvt ≠ none)
    (hasserts : host.asserts = true) : Armed host :=
  ⟨⟨fun h => absurd hsrc h, fun _ _ => hwake, fun h => absurd hsrc h, hasserts⟩,
    fun h => absurd hsrc h⟩

/-! ### The token event -/

lemma Ready.endGrant (h : Ready host) : Armed (host.endGrant σ now) := by
  unfold RufHost.endGrant
  cases hsrc : host.gosrcInfo.src with
  | none => exact ⟨h, fun hne => absurd hsrc hne⟩
  | some s =>
    have hne : host.gosrcInfo.src ≠ none := by simp [hsrc]
    by_cases hnrts : host.gosrcInfo.sendNrts = true
    · -- the wakeup event has been there since the end was announced
      dsimp only
      rw [if_pos hnrts]
      exact ⟨⟨fun h => absurd rfl h, fun hw _ => h.wakeup hw (.inr hnrts), fun h => absurd rfl h,
        h.asserts⟩, fun h => absurd rfl h⟩
    · dsimp only
      rw [if_neg hnrts]
      have hquiet := h.quiet hne (by simpa using hnrts)
      refine armed_of_scheduled rfl nofun ?_
      simp [assert, scheduleWakeupEvent, hquiet, h.asserts]

structure Spent (host : RufHost) : Prop where
  quiet : host.gosrcInfo.sendNrts = false → host.wakeupEvt = none
  wakeup : host.waiting.Nonempty → host.gosrcInfo.sendNrts = true → host.wakeupEvt ≠ none
  remain : host.gosrcInfo.src ≠ none → 0 < host.gosrcInfo.remainTokens
  ended : host.gosrcInfo.src = none → host.gosrcInfo.remainTokens ≤ 0
  asserts : host.asserts = true

lemma Ready.spent (h : Ready host) (hsrc : host.gosrcInfo.src ≠ none) : Spent host :=
  ⟨h.quiet hsrc, fun hw hn => h.wakeup hw (.inr hn), h.remain, fun hs => absurd hs hsrc, h.asserts⟩

lemma Spent.useToken (h : Spent host) (hsrc : host.gosrcInfo.src ≠ none) : Spent host.useToken := by
  have hremain := h.remain hsrc
  have hasserts : host.useToken.asserts = true := by
    simp [RufHost.useToken, assert, h.asserts, hremain]
  by_cases hleft : host.gosrcInfo.remainTokens - 1 = 0
  · have hg : host.useToken.gosrcInfo =
        { host.gosrcInfo with remainTokens := host.gosrcInfo.remainTokens - 1 }.reset :=
      if_pos hleft
    refine ⟨fun hn => h.quiet ?_, fun hw hn => h.wakeup hw ?_, fun hne => ?_, fun _ => ?_, hasserts⟩
    · rw [hg] at hn
      exact hn
    · rw [hg] at hn
      exact hn
    · rw [hg] at hne
      exact absurd rfl hne
    · rw [hg]
      exact (by decide : (-1 : ℤ) ≤ 0)
  · have hg : host.useToken.gosrcInfo =
        { host.gosrcInfo with remainTokens := host.gosrcInfo.remainTokens - 1 } :=
      if_neg hleft
    refine ⟨fun hn => h.quiet ?_, fun hw hn => h.wakeup hw ?_, fun _ => ?_, fun heq => ?_, hasserts⟩
    · rw [hg] at hn
      exact hn
    · rw [hg] at hn
      exact hn
    · rw [hg]
      exact (by omega : 0 < host.gosrcInfo.remainTokens - 1)
    · rw [hg] at heq
      exact absurd heq hsrc

lemma Spent.announceEnd (h : Spent host) (id : FlowId) : Ready (host.announceEnd σ now id) := by
  unfold RufHost.announceEnd
  split_ifs with hcond
  · have hquiet := h.quiet hcond.2
    refine ⟨fun _ hn => ?_, fun _ _ => nofun, fun hne => ?_, ?_⟩
    · simp [scheduleWakeupEvent, assert, gosrcInfo_sendListSrcs] at hn
    · simp only [scheduleWakeupEvent, assert, gosrcInfo_sendListSrcs] at hne ⊢
      exact h.remain hne
    · simp [scheduleWakeupEvent, assert, hquiet, h.asserts]
  · refine ⟨fun _ => h.quiet, fun hw hor => h.wakeup hw ?_, h.remain, h.asserts⟩
    rcases hor with hsrc | hn
    · -- no tokens are left, so that the first part of the condition holds
      by_contra hn
      refine hcond ⟨.inr ?_, by simpa using hn⟩
      have hgap : host.gap σ id ≤ 0 := by
        have := h.ended hsrc
        unfold gap
        dsimp only
        split_ifs <;> omega
      calc (host.gap σ id : ℚ) * σ.tokens.fullPktTranDelay
          ≤ 0 := mul_nonpos_of_nonpos_of_nonneg (by exact_mod_cast hgap) σ.tranDelay_nonneg
        _ ≤ _ := add_nonneg σ.ctrlRtt_nonneg σ.epoch_nonneg
    · exact hn

lemma announceEnd_tokenSendEvt (id : FlowId) :
    (host.announceEnd σ now id).tokenSendEvt = host.tokenSendEvt := by
  unfold RufHost.announceEnd
  split_ifs
  · exact tokenSendEvt_sendListSrcs _
  · rfl

lemma Spent.sendToFlow {id : FlowId} {r : RufHost × Bool} (h : Spent host)
    (hsrc : host.gosrcInfo.src ≠ none) (hr : host.sendToFlow σ now id = some r) :
    Spent r.1 ∧ r.1.tokenSendEvt = host.tokenSendEvt := by
  unfold RufHost.sendToFlow at hr
  split_ifs at hr
  · obtain ⟨f, hf, rfl⟩ := Option.map_eq_some_iff.1 hr
    refine ⟨?_, rfl⟩
    have hk : Keeps host (host.setFlow id f.1) :=
      keeps_setFlow fun hfin => (RufFlow.finishedAtReceiver_sendTokenPkt hf).trans hfin
    have hs : Spent ((host.setFlow id f.1).send f.2) :=
      ⟨h.quiet, fun hw => h.wakeup (hw.mono hk.waiting), h.remain, h.ended, h.asserts⟩
    exact hs.useToken hsrc
  · obtain rfl := Option.some.inj hr
    exact ⟨h, rfl⟩

lemma lt_of_relaxWindow {id : FlowId} (h : (host.relaxWindow σ now id).2 < 999999) :
    now < (host.relaxWindow σ now id).2 := by
  unfold relaxWindow at h ⊢
  dsimp only at h ⊢
  split_ifs at h ⊢ with hwin hpast
  · exact absurd h (lt_irrefl _)
  · exact absurd h (lt_irrefl _)
  · rw [min_lt_iff, or_iff_left (lt_irrefl _)] at h
    rw [min_eq_left h.le]
    exact not_le.1 hpast

lemma Ready.sendTokenTo {id : FlowId} {host' : RufHost} (h : Ready host)
    (hsrc : host.gosrcInfo.src ≠ none) (hnone : host.tokenSendEvt = none)
    (hs : host.sendTokenTo σ now id = some host') : Armed host' := by
  obtain ⟨r, hr, rfl⟩ := Option.map_eq_some_iff.1 hs
  have hk : Keeps host
      ((host.setFlow id ((host.flows id).resetTimeout σ id)).relaxWindow σ now id).1 :=
    (keeps_resetTimeout id).trans (keeps_relaxWindow id)
  have hsrc' := hsrc
  rw [← hk.gosrcInfo] at hsrc'
  obtain ⟨hspent, htoken⟩ := ((hk.ready h).spent hsrc').sendToFlow hsrc' hr
  have hready : Ready (r.1.announceEnd σ now id) := hspent.announceEnd id
  have hnone' : (r.1.announceEnd σ now id).tokenSendEvt = none := by
    rw [announceEnd_tokenSendEvt, htoken, hk.tokenSendEvt, hnone]
  dsimp only
  split_ifs with hsent hclose
  · exact hready.schedule hnone' _ _
  · exact (hready.asserted (decide_eq_true (lt_of_relaxWindow hclose))).schedule hnone' _ _
  · exact hready.endGrant

lemma Ready.sendToken {host' : RufHost} (h : Ready host) (hnone : host.tokenSendEvt = none)
    (hs : host.sendToken σ now = some host') : Armed host' := by
  have hassert := h.asserted (Option.isNone_iff_eq_none.2 hnone)
  unfold RufHost.sendToken at hs
  dsimp only at hs
  split_ifs at hs with hhold
  · obtain rfl := Option.some.inj hs
    have hready := ((Keeps.refl _).setHoldOn (host.holdOn - 1)).ready hassert
    exact hready.schedule hnone _ _
  · have hnone₁ : (host.assert host.tokenSendEvt.isNone).tokenSendEvt = none := hnone
    generalize host.assert host.tokenSendEvt.isNone = host₁ at hassert hs hnone₁
    cases hsrc : host₁.gosrcInfo.src with
    | none =>
      rw [hsrc] at hs
      obtain rfl := Option.some.inj hs
      exact ⟨hassert, fun hne => absurd hsrc hne⟩
    | some s =>
      rw [hsrc] at hs
      dsimp only at hs
      have hk : Keeps host₁ (host₁.getTopUnfinishFlow σ now s).2 := keeps_getTopUnfinishFlow s
      split at hs
      · obtain rfl := Option.some.inj hs
        exact (hk.ready hassert).endGrant
      · refine (hk.ready hassert).sendTokenTo ?_ hnone₁ hs
        rw [hk.gosrcInfo, hsrc]
        nofun

/-! ### The other events -/

lemma Armed.wake (h : Armed host) (hwake : host.wakeupEvt ≠ none) :
    Armed (host.cancelWakeup.wakeup σ now) := by
  -- an event that is pending says that there is no grant or its end is announced
  have hover : ¬ (host.gosrcInfo.src ≠ none ∧ host.gosrcInfo.sendNrts = false) :=
    fun hnot => hwake (h.quiet hnot.1 hnot.2)
  have hassert : (host.cancelWakeup.assert host.cancelWakeup.wakeupEvt.isNone).asserts = true := by
    simp [assert, cancelWakeup, h.asserts]
  unfold RufHost.wakeup
  have hk : Keeps (host.cancelWakeup.assert host.cancelWakeup.wakeupEvt.isNone)
      ((host.cancelWakeup.assert host.cancelWakeup.wakeupEvt.isNone).sendListSrcs σ now none) :=
    keeps_sendListSrcs
  generalize (host.cancelWakeup.assert host.cancelWakeup.wakeupEvt.isNone).sendListSrcs σ now none =
    host₁ at hk ⊢
  have hg : host₁.gosrcInfo = host.gosrcInfo := hk.gosrcInfo
  have ht : host₁.tokenSendEvt = host.tokenSendEvt := hk.tokenSendEvt
  have hw : host₁.wakeupEvt = none := hk.wakeupEvt
  have ha : host₁.asserts = true := hk.asserts.trans hassert
  dsimp only
  split_ifs with hempty
  · refine ⟨⟨fun _ _ => hw, fun hne => ?_, ?_, ha⟩, ?_⟩
    · obtain ⟨id, hid, -⟩ := hne
      rw [List.isEmpty_iff.1 hempty] at hid
      cases hid
    · rw [hg]
      exact h.remain
    · rw [hg, ht]
      exact h.token
  · refine ⟨⟨fun hsrc hn => ?_, fun _ _ => nofun, ?_, ?_⟩, ?_⟩
    · exact absurd ⟨hg ▸ hsrc, hg ▸ hn⟩ hover
    · change host₁.gosrcInfo.src ≠ none → 0 < host₁.gosrcInfo.remainTokens
      rw [hg]
      exact h.remain
    · simp [scheduleWakeupEvent, assert, ha, hw]
    · change host₁.gosrcInfo.src ≠ none → host₁.tokenSendEvt ≠ none
      rw [hg, ht]
      exact h.token

lemma Armed.receiveGosrc (h : Armed host) (s : HostId) {maxTokens : ℤ} (hmax : 0 < maxTokens)
    (round : ℤ) : Armed (host.receiveGosrc σ now s maxTokens round) := by
  have hk : Keeps host (host.getTopUnfinishFlow σ now s).2 := keeps_getTopUnfinishFlow s
  have ha : (host.getTopUnfinishFlow σ now s).2.asserts = true := hk.asserts.trans h.asserts
  unfold RufHost.receiveGosrc
  dsimp only
  split
  · refine armed_of_scheduled rfl nofun ?_
    simp [scheduleWakeupEvent, assert, cancelWakeup, ha]
  · exact Ready.restart ⟨fun _ _ => rfl, fun _ hor => by simp at hor, fun _ => hmax, ha⟩

lemma Armed.receiveLongRts (h : Armed host) (id : FlowId)
    (hid : ¬ (host.gosrcInfo.src ≠ none ∧ host.gosrcInfo.sendNrts = true ∧
      host.wakeupEvt = none)) : Armed ((host.pushFlow id).receiveLongRts σ now id) := by
  -- whether or not the token event is restarted
  obtain ⟨host₁, hhost₁, hg, hw, ha, ht⟩ : ∃ host₁ : RufHost,
      (host.pushFlow id).receiveLongRts σ now id = (if host₁.gosrcInfo.src.isNone then
        (host₁.sendListSrcs σ now none).cancelWakeup.scheduleWakeupEvent σ now else host₁) ∧
      host₁.gosrcInfo = host.gosrcInfo ∧ host₁.wakeupEvt = host.wakeupEvt ∧
      host₁.asserts = host.asserts ∧
      (host₁.gosrcInfo.src ≠ none → host₁.tokenSendEvt ≠ none) := by
    refine ⟨_, rfl, ?_⟩
    split_ifs
    · obtain ⟨e, he⟩ : ∃ e, (host.pushFlow id).restartTokenEvt now =
          { host.pushFlow id with tokenSendEvt := some e } := restartTokenEvt_eq
      rw [he]
      exact ⟨rfl, rfl, rfl, fun _ => nofun⟩
    · exact ⟨rfl, rfl, rfl, h.token⟩
  rw [hhost₁]
  split_ifs with hsrc
  · have hsrc : host₁.gosrcInfo.src = none := Option.isNone_iff_eq_none.1 hsrc
    refine armed_of_scheduled ?_ nofun ?_
    · simp [scheduleWakeupEvent, assert, cancelWakeup, gosrcInfo_sendListSrcs, hsrc]
    · simp [scheduleWakeupEvent, assert, cancelWakeup, ha, h.asserts]
  · have hsrc : host.gosrcInfo.src ≠ none := fun heq => hsrc (by rw [hg, heq]; rfl)
    refine ⟨⟨?_, fun _ hor => ?_, ?_, ha.trans h.asserts⟩, ht⟩
    · rw [hg, hw]
      exact h.quiet
    · rw [hg] at hor
      rw [hw]
      exact fun hnone => hid ⟨hsrc, hor.resolve_left hsrc, hnone⟩
    · rw [hg]
      exact h.remain

lemma Armed.receiveShortRts (h : Armed host) {id : FlowId} {host' : RufHost}
    (hs : (host.pushFlow id).receiveShortRts σ now id = some host') : Armed host' := by
  obtain ⟨host₁, hhost₁, rfl⟩ := Option.map_eq_some_iff.1 hs
  have hk := keeps_receiveShortFlow hhost₁
  have hg : host₁.gosrcInfo = host.gosrcInfo := hk.gosrcInfo
  have hw : host₁.wakeupEvt = host.wakeupEvt := hk.wakeupEvt
  have ht : host₁.tokenSendEvt = host.tokenSendEvt := hk.tokenSendEvt
  have ha : host₁.asserts = true := hk.asserts.trans h.asserts
  have htoken : host₁.gosrcInfo.src ≠ none → host₁.tokenSendEvt ≠ none := by
    rw [hg, ht]
    exact h.token
  have hremain : host₁.gosrcInfo.src ≠ none → 0 < host₁.gosrcInfo.remainTokens := by
    rw [hg]
    exact h.remain
  split_ifs with hcond
  · obtain ⟨hnone, hor⟩ := hcond
    refine ⟨⟨fun hsrc hn => ?_, fun _ _ => nofun, hremain, ?_⟩, htoken⟩
    · rcases hor with hor | hor
      · exact absurd (Option.isNone_iff_eq_none.1 hor) hsrc
      · exact absurd hor (ne_true_of_eq_false hn)
    · simp [scheduleWakeupEvent, assert, ha, hnone]
  · refine ⟨⟨?_, fun _ hor hnone => hcond ⟨?_, ?_⟩, hremain, ha⟩, htoken⟩
    · rw [hg, hw]
      exact h.quiet
    · exact Option.isNone_iff_eq_none.2 hnone
    · exact hor.imp_left Option.isNone_iff_eq_none.2

lemma Armed.afterData (h : Armed host) (id : FlowId) : Armed (host.afterData σ now id) := by
  unfold RufHost.afterData
  dsimp only
  split_ifs
  · have hk : Keeps host (host.setFlow id { host.flows id with finishedAtReceiver := true }) :=
      keeps_setFlow fun _ => rfl
    have ha := hk.armed h
    exact ⟨⟨ha.quiet, ha.wakeup, ha.remain, ha.asserts⟩, ha.token⟩
  · exact Ready.restart ((keeps_getTopUnfinishFlow _).ready h.toReady)
  · exact (keeps_getTopUnfinishFlow _).armed h
  · exact h

lemma RufFlow.finishedAtReceiver_receiveData {id : FlowId} {f : RufFlow} (tokenSeq : ℤ) (seq : ℕ) :
    (f.receiveData σ id tokenSeq seq).finishedAtReceiver = f.finishedAtReceiver := by
  unfold RufFlow.receiveData TokenFlow.accept
  dsimp only
  split_ifs <;> rfl

lemma Armed.receiveData (h : Armed host) {id : FlowId} {tokenSeq : ℤ} {seq : ℕ} {host' : RufHost}
    (hd : host.receiveData σ now id tokenSeq seq = some host') : Armed host' := by
  obtain ⟨host₁, hhost₁, rfl⟩ := Option.map_eq_some_iff.1 hd
  have h₁ : Armed host₁ := by
    split_ifs at hhost₁
    · exact Option.some.inj hhost₁ ▸ h
    · exact (keeps_receiveShortFlow hhost₁).armed h
  have hk : Keeps host₁ (host₁.setFlow id ((host₁.flows id).receiveData σ id tokenSeq seq)) :=
    keeps_setFlow fun hfin => (RufFlow.finishedAtReceiver_receiveData tokenSeq seq).trans hfin
  exact (hk.armed h₁).afterData id

/-! ### The runs -/

/-- Every flow of `src_to_flows` that is not finished at the receiver has a wakeup event to come,
or a token event that belongs to a grant. -/
def Served (host : RufHost) : Prop :=
  ∀ id ∈ host.srcToFlows, (host.flows id).finishedAtReceiver = false →
    host.wakeupEvt ≠ none ∨ host.gosrcInfo.src ≠ none ∧ host.tokenSendEvt ≠ none

instance (host : RufHost) : Decidable (Served host) := by unfold Served; infer_instance

variable (σ) in
/-- A grant is for at least one token, and an RTS of a long flow that is not known yet does not
come while a source is granted whose end has been announced and no wakeup event is pending. -/
def Covered (host : RufHost) : RufAct → Prop
  | .rts _ id =>
    (host.flows id).finished = false → (host.flows id).rtsReceived = false →
      σ.tokens.tokenInitial < σ.sizeInPkt id →
      ¬ (host.gosrcInfo.src ≠ none ∧ host.gosrcInfo.sendNrts = true ∧ host.wakeupEvt = none)
  | .goSrc _ _ maxTokens _ => 0 < toInt32 maxTokens
  | _ => True

instance (host : RufHost) (a : RufAct) : Decidable (Covered σ host a) := by
  unfold Covered
  split <;> infer_instance

lemma Armed.served (h : Armed host) : Served host := by
  intro id hid hfin
  by_cases hsrc : host.gosrcInfo.src = none
  · exact .inl (h.wakeup ⟨id, hid, hfin⟩ (.inl hsrc))
  · exact .inr ⟨hsrc, h.token hsrc⟩

lemma armed_init : Armed σ.init := by
  refine ⟨⟨fun h => absurd rfl h, fun hne => ?_, fun h => absurd rfl h, rfl⟩,
    fun h => absurd rfl h⟩
  obtain ⟨id, hid, -⟩ := hne
  cases hid

lemma Armed.receive (h : Armed host) {id : FlowId} {handle : RufHost → Option RufHost}
    {host' : RufHost}
    (hh : (host.flows id).finished = false → handle host = some host' → Armed host')
    (hr : host.receive id handle = some host') : Armed host' := by
  unfold RufHost.receive at hr
  split_ifs at hr with hfin
  · exact Option.some.inj hr ▸ h
  · exact hh (by simpa using hfin) hr

theorem armed_next {host' : RufHost} {a : RufAct} (h : Armed host) (hc : Covered σ host a)
    (hn : (machine σ).next host a = some host') : Armed host' := by
  cases a with
  | rts now id =>
    dsimp only [machine, next] at hn
    refine h.receive (fun hfin hn => ?_) hn
    split_ifs at hn with hrts
    · exact Option.some.inj hn ▸ h
    · unfold receiveRts at hn
      dsimp only at hn
      split_ifs at hn with hlong
      · exact Option.some.inj hn ▸
          h.receiveLongRts id (hc hfin (by simpa using hrts) hlong)
      · exact h.receiveShortRts hn
  | goSrc now s maxTokens round =>
    obtain rfl := Option.some.inj hn
    exact h.receiveGosrc s hc round
  | data now id tokenSeq seq =>
    dsimp only [machine, next] at hn
    exact h.receive (fun _ hd => h.receiveData hd) hn
  | ack id =>
    dsimp only [machine, next] at hn
    refine h.receive (fun _ hack => ?_) hn
    obtain rfl := Option.some.inj hack
    refine Keeps.armed (keeps_setFlow ?_) h
    exact fun hfin => hfin
  | finish id =>
    obtain ⟨r, hr, rfl⟩ := Option.map_eq_some_iff.1 hn
    obtain ⟨-, hr⟩ := Option.ite_none_left_eq_some.1 hr
    obtain rfl := Option.some.inj hr
    refine Keeps.armed (keeps_setFlow ?_) h
    exact fun hfin => hfin
  | tokenEvt =>
    obtain ⟨e, -, hn⟩ := Option.bind_eq_some_iff.1 hn
    refine Ready.sendToken ?_ rfl hn
    exact ⟨h.quiet, h.wakeup, h.remain, h.asserts⟩
  | wakeupEvt =>
    obtain ⟨time, htime, rfl⟩ := Option.map_eq_some_iff.1 hn
    exact h.wake (by rw [htime]; nofun)

/-- **A receiver does not stall** in a run whose grants are for at least one token and in which
the RTS of a long flow never comes after the last wakeup of a grant. -/
theorem served_of_covered (as : List RufAct) (h : Along (machine σ) (Covered σ) σ.init as) :
    Always (machine σ) (fun host => Served host ∧ host.asserts = true) σ.init as :=
  (h.always armed_next armed_init).mono fun _ hs => ⟨hs.served, hs.asserts⟩

/-- A receiver one packet time of which is a second. -/
def secondsSpec (host : HostId) (tokenInitial : ℕ) (src : FlowId → HostId)
    (sizeInPkt : FlowId → ℕ) : RufSpec where
  host := host
  tokens := ⟨0, tokenInitial, 100, 1, 0, 0, 0, 0, 1⟩
  sizeInPkt := sizeInPkt
  src := src
  startTime _ := 0
  deadline _ := 0
  scheduleByDeadline := false
  bdp := 10
  tokenWindow := 10
  tokenWindowTimeout := 10
  tokenResendTimeout := 10
  rufhostIdleTimeout := 23 / 5
  rufControllerEpoch := 1
  tranDelay_nonneg := zero_le_one
  ctrlRtt_nonneg := zero_le_one
  epoch_nonneg := zero_le_one

/-- Three flows of three sources, the second of them short. -/
def threeFlows : RufSpec := secondsSpec 0 2 (fun id => id + 1) fun id => if id = 1 then 2 else 3

/-- The first flow uses its grant while the packets of the short flow hold the grant up. Both
finish, so that the wakeup event at 5.6 s is the last. -/
def lastWakeup : List RufAct :=
  [.rts 0 0, .goSrc 1 1 5 0, .tokenEvt, .tokenEvt, .data (23 / 10) 0 0 0, .tokenEvt,
    .data (33 / 10) 0 1 1, .rts (7 / 2) 1, .tokenEvt, .data (43 / 10) 0 2 2, .data (9 / 2) 1 0 0,
    .tokenEvt, .data (11 / 2) 1 1 1, .wakeupEvt]

/-- The third flow is announced at 5.8 s, before the token event at 6 s ends the grant. -/
theorem not_served_lastWakeup :
    ¬ Always (machine threeFlows) (fun host => Served host ∧ host.asserts = true) threeFlows.init
      (lastWakeup ++ [.rts (29 / 5) 2, .tokenEvt]) :=
  not_always_of_exec_any (by decide +kernel)

/-- The third flow is announced after the grant has ended. -/
theorem served_lastWakeup :
    Always (machine threeFlows) (fun host => Served host ∧ host.asserts = true) threeFlows.init
      (lastWakeup ++ [.tokenEvt, .rts (31 / 5) 2, .goSrc 7 3 5 0, .tokenEvt]) :=
  served_of_covered _ (by decide +kernel)

end DcSim.RufHost
