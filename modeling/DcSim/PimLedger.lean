import DcSim.PimCounter
import Mathlib.Algebra.BigOperators.Group.Multiset.Basic
import Mathlib.Algebra.Order.BigOperators.Group.List

/-!
What the two sides of the matching of PIM enter of their links, and what is on the way.

A receiver enters the links of a sender when it accepts them, and the sender enters those of the
receiver when the ACCEPT arrives and returns what does not fit. ACCEPTs and `GrantsR`s carry links
from one side to the other; what each function of an epoch enters is what it sends or receives.
-/

namespace DcSim

open Word32 Upsert

namespace PimSpec

variable {σ : PimSpec}

/-- What the links of an epoch add up to for one peer. -/
def entered (links : PimEpoch → List PimVlink) (host : PimHost) (e : ℕ) (k : HostId) : ℤ :=
  match host.epochs e with
  | some ep => tally PimVlink.target PimVlink.totalLinks k (links ep)
  | none => 0

/-- An ACCEPT or a `GrantsR`, which carries links from one side to the other. -/
def Moves (p : PimPacket) : Prop := p.kind = .accept ∨ p.kind = .grantsR

instance (p : PimPacket) : Decidable (Moves p) := by unfold Moves; infer_instance

variable (σ) in
/-- The links of an epoch that a packet carries between a sender and a receiver. -/
def share (e : ℕ) (a b : HostId) (p : PimPacket) : ℤ :=
  if Moves p ∧ p.epoch = e ∧ σ.src p.flow = a ∧ σ.dst p.flow = b then p.totalLinks else 0

variable (σ) in
def transit (s : PimNet) (e : ℕ) (a b : HostId) : ℤ := (s.inFlight.map (σ.share e a b)).sum

variable (σ) in
/-- What the receiver has entered is what the sender has entered and what is on the way. -/
def Balanced (s : PimNet) (e : ℕ) (a b : HostId) : Prop :=
  entered PimEpoch.matchSenderLinks (s.hosts b) e a =
    entered PimEpoch.matchReceiverLinks (s.hosts a) e b + σ.transit s e a b

/-- An epoch of a host is over: it does not exist and will not be started. -/
def Gone (host : PimHost) (e : ℕ) : Prop :=
  host.epochs e = none ∧ ∀ n, host.newEpochEvt = some n → e < n

/-- The epochs of a host are those that have been started. -/
def Started (host : PimHost) : Prop :=
  ∀ n, host.newEpochEvt = some n → ∀ i ep, host.epochs i = some ep → i < n

end PimSpec

namespace PimEpoch

variable {σ : PimSpec} {ep : PimEpoch} {p : PimPacket} {e : ℕ} {h : HostId}

structure Ledger (σ : PimSpec) (h : HostId) (ep : PimEpoch) : Prop extends Capacity σ ep where
  grantsDst : ∀ g ∈ ep.grantsQ, σ.dst g.flow = h
  rxNonneg : ∀ l ∈ ep.matchReceiverLinks, 0 ≤ l.totalLinks

lemma Ledger.receiveAcceptPkt (hL : Ledger σ h ep) (hp : σ.Links p.totalLinks) {word : ℤ}
    {r : PimEpoch × List PimPacket} (hr : ep.receiveAcceptPkt σ e word p = some r) :
    Ledger σ h r.1 ∧ ∀ q ∈ r.2, σ.GoodLinks q := by
  obtain ⟨hcap, hgood⟩ := hL.toCapacity.receiveAcceptPkt hp hr
  have hclip := hL.clipped_eq hp
  have hle := hL.rxLe
  obtain ⟨h₁, -, -⟩ := hp
  refine ⟨⟨hcap, ?_, ?_⟩, hgood⟩
  · rw [(receiveAcceptPkt_sender hr).2.2]
    exact hL.grantsDst
  · unfold PimEpoch.receiveAcceptPkt at hr
    dsimp only at hr
    generalize (if ep.Overflows σ p then _ else _) = out at hr
    split_ifs at hr <;> obtain rfl := Option.some.inj hr
    · exact hL.rxNonneg
    · intro l hl
      rcases mem_upsert hl with hl | ⟨l', hl', -, rfl⟩ | rfl
      · exact hL.rxNonneg l hl
      · have := hL.rxNonneg l' hl'
        dsimp only
        omega
      · dsimp only
        omega

lemma Ledger.handleAllGrants (hL : Ledger σ h ep) {order : List PimOffer}
    {r : PimEpoch × List PimPacket} (hr : ep.handleAllGrants σ e order = some r) :
    Ledger σ h r.1 ∧ ∀ q ∈ r.2, σ.GoodLinks q := by
  obtain ⟨hcap, hgood⟩ := hL.toCapacity.handleAllGrants hr
  obtain rfl | ⟨hperm, hne, hr⟩ := handleAllGrants_cases hr
  · exact ⟨hL, by simp⟩
  obtain ⟨⟨ep', a', b', gs, hrecv, heq, hgs⟩, -⟩ :=
    acceptLoop_rule (J := fun x _ _ => x.matchReceiverLinks = ep.matchReceiverLinks)
      (G := fun _ => True) (fun hx _ _ => ⟨hx, trivial⟩) rfl hr
  refine ⟨⟨hcap, ?_, ?_⟩, hgood⟩
  · rw [heq]
    exact fun g hg => hL.grantsDst g (hperm.subset (hgs g hg))
  · rw [heq]
    exact hrecv ▸ hL.rxNonneg

lemma tally_addLinks_self {target : HostId} {total prompt size : ℤ} {ls : List PimVlink}
    (h : (ls.map PimVlink.target).Nodup) :
    tally PimVlink.target PimVlink.totalLinks target (addLinks target total prompt size ls) =
      tally PimVlink.target PimVlink.totalLinks target ls + total := by
  unfold addLinks
  exact tally_upsert_self h (fun _ => rfl) (fun _ => rfl) rfl rfl

lemma tally_addLinks_ne {target k : HostId} {total prompt size : ℤ} {ls : List PimVlink}
    (hne : k ≠ target) :
    tally PimVlink.target PimVlink.totalLinks k (addLinks target total prompt size ls) =
      tally PimVlink.target PimVlink.totalLinks k ls := by
  unfold addLinks
  exact tally_upsert_ne (fun _ => rfl) rfl hne

lemma acceptLoop_tally {order : List PimOffer} {a b : ℤ} {r : PimEpoch × List PimPacket}
    (hnodup : (ep.matchSenderLinks.map PimVlink.target).Nodup)
    (hdst : ∀ g ∈ order, σ.dst g.flow = h) (hr : acceptLoop σ e ep a b order = some r)
    (k : HostId) :
    tally PimVlink.target PimVlink.totalLinks k r.1.matchSenderLinks =
      tally PimVlink.target PimVlink.totalLinks k ep.matchSenderLinks +
        (r.2.map (σ.share e k h)).sum := by
  induction order generalizing ep a b r with
  | nil =>
    obtain rfl := Option.some.inj hr
    simp
  | cons g gs ih =>
    have hdst' := fun g' hg' => hdst g' (List.mem_cons_of_mem g hg')
    have hg := hdst g (List.mem_cons_self ..)
    unfold acceptLoop at hr
    split_ifs at hr with ha hiter hold
    · exact ih hnodup hdst' hr
    · obtain ⟨r', hr', rfl⟩ := Option.map_eq_some_iff.1 hr
      have hrest := ih (nodup_addLinks hnodup) hdst' hr'
      rw [hrest, List.map_cons, List.sum_cons, ← add_assoc]
      refine congrArg (· + _) ?_
      unfold acceptGrant PimSpec.share
      dsimp only
      by_cases hk : σ.src g.flow = k
      · subst hk
        rw [if_pos ⟨.inl rfl, rfl, rfl, hg⟩, tally_addLinks_self hnodup]
      · rw [if_neg (fun hall => hk hall.2.2.1), add_zero, tally_addLinks_ne (Ne.symm hk)]
    · obtain rfl := Option.some.inj hr
      simp

lemma Ledger.handleAllGrants_tally (hL : Ledger σ h ep) {order : List PimOffer}
    {r : PimEpoch × List PimPacket} (hr : ep.handleAllGrants σ e order = some r) :
    (∀ k, tally PimVlink.target PimVlink.totalLinks k r.1.matchSenderLinks =
      tally PimVlink.target PimVlink.totalLinks k ep.matchSenderLinks +
        (r.2.map (σ.share e k h)).sum) ∧
      r.1.matchReceiverLinks = ep.matchReceiverLinks ∧
      ∀ q ∈ r.2, q.kind = .accept ∧ q.epoch = e ∧ σ.dst q.flow = h := by
  obtain rfl | ⟨hperm, hne, hr⟩ := handleAllGrants_cases hr
  · simp
  have hdst : ∀ g ∈ order, σ.dst g.flow = h := fun g hg => hL.grantsDst g (hperm.subset hg)
  obtain ⟨⟨ep', a', b', gs, hrecv, heq, -⟩, hG⟩ :=
    acceptLoop_rule (J := fun x _ _ => x.matchReceiverLinks = ep.matchReceiverLinks)
      (G := fun q => q.kind = .accept ∧ q.epoch = e ∧ σ.dst q.flow = h)
      (fun hx _ hg => ⟨hx, rfl, rfl, hdst _ hg⟩) rfl hr
  refine ⟨acceptLoop_tally hL.txNodup hdst hr, ?_, hG⟩
  rw [heq]
  exact hrecv

lemma Capacity.receiveAcceptPkt_tally (hcap : Capacity σ ep) (hp : σ.Links p.totalLinks)
    (hkind : p.kind = .accept) {word : ℤ} (hword : ep.Overflows σ p → word = ep.clipped σ p)
    {r : PimEpoch × List PimPacket} (hr : ep.receiveAcceptPkt σ p.epoch word p = some r) :
    (∀ k, tally PimVlink.target PimVlink.totalLinks k r.1.matchReceiverLinks +
        (r.2.map (σ.share p.epoch (σ.src p.flow) k)).sum =
      tally PimVlink.target PimVlink.totalLinks k ep.matchReceiverLinks +
        σ.share p.epoch (σ.src p.flow) k p) ∧
      ∀ q ∈ r.2, q.kind = .grantsR ∧ q.flow = p.flow ∧ q.epoch = p.epoch ∧ 0 < q.totalLinks := by
  have hover := hcap.overflows_iff hp
  have hclip := hcap.clipped_eq hp
  have hout : ∀ q ∈ (if ep.Overflows σ p then
      [⟨.grantsR, p.flow, ep.iter, p.epoch, 0, word, ep.clippedPrompt σ p⟩] else [] :
        List PimPacket),
      q.kind = .grantsR ∧ q.flow = p.flow ∧ q.epoch = p.epoch ∧ 0 < q.totalLinks := by
    intro q hq
    split_ifs at hq with ho
    · obtain rfl := List.mem_singleton.1 hq
      have hlt := hover.1 ho
      have heq := hword ho
      exact ⟨rfl, rfl, rfl, by dsimp only; omega⟩
    · exact absurd hq List.not_mem_nil
  have hsum : ∀ k, ((if ep.Overflows σ p then
      [⟨.grantsR, p.flow, ep.iter, p.epoch, 0, word, ep.clippedPrompt σ p⟩] else [] :
        List PimPacket).map (σ.share p.epoch (σ.src p.flow) k)).sum =
      if σ.dst p.flow = k then ep.clipped σ p else 0 := by
    intro k
    split_ifs with ho hk hk
    · simp [PimSpec.share, PimSpec.Moves, hk, hword ho]
    · simp [PimSpec.share, hk]
    · have hnot : ¬ (σ.pimK : ℤ) < ep.numRxLink + p.totalLinks := fun hlt => ho (hover.2 hlt)
      rw [List.map_nil, List.sum_nil, hclip]
      omega
    · rfl
  have hshare : ∀ k, σ.share p.epoch (σ.src p.flow) k p =
      if σ.dst p.flow = k then p.totalLinks else 0 := by
    intro k
    simp [PimSpec.share, PimSpec.Moves, hkind]
  unfold PimEpoch.receiveAcceptPkt at hr
  dsimp only at hr
  generalize (if ep.Overflows σ p then _ else _) = out at hr hout hsum
  split_ifs at hr with h0 hfit <;> obtain rfl := Option.some.inj hr
  · refine ⟨fun k => ?_, hout⟩
    rw [hsum, hshare]
    dsimp only
    split_ifs <;> omega
  · refine ⟨fun k => ?_, hout⟩
    rw [hsum, hshare]
    dsimp only
    by_cases hk : σ.dst p.flow = k
    · rw [if_pos hk, if_pos hk, ← hk, tally_addLinks_self hcap.rxNodup]
      omega
    · rw [if_neg hk, if_neg hk, add_zero, add_zero, tally_addLinks_ne (Ne.symm hk)]

lemma receiveGrantsr_tally (hnodup : (ep.matchSenderLinks.map PimVlink.target).Nodup)
    (hpos : 0 < p.totalLinks)
    (hle : p.totalLinks ≤
      tally PimVlink.target PimVlink.totalLinks (σ.src p.flow) ep.matchSenderLinks)
    {ep' : PimEpoch} (hr : ep.receiveGrantsr σ p = some ep') (k : HostId) :
    tally PimVlink.target PimVlink.totalLinks k ep'.matchSenderLinks +
        (if σ.src p.flow = k then p.totalLinks else 0) =
      tally PimVlink.target PimVlink.totalLinks k ep.matchSenderLinks := by
  unfold receiveGrantsr at hr
  split_ifs at hr with h0 hany
  · omega
  obtain rfl := Option.some.inj hr
  dsimp only
  by_cases hk : σ.src p.flow = k
  · obtain ⟨l, hl, hsrc⟩ := List.mem_map.1 (any_key.1 hany)
    rw [if_pos hk, ← hk, ← hsrc]
    rw [← hsrc, tally_of_mem hnodup hl] at hle
    rw [tally_modifyFirst_self (f := returnLinks p) (fun _ => rfl) hnodup hl,
      tally_of_mem hnodup hl]
    unfold returnLinks
    dsimp only
    rw [if_neg (by omega)]
    omega
  · rw [if_neg hk, add_zero]
    exact tally_modifyFirst_ne (fun _ => rfl) (Ne.symm hk)

lemma receiveReq_links {ep' : PimEpoch} (hr : ep.receiveReq p = some ep') :
    ep'.matchReceiverLinks = ep.matchReceiverLinks ∧
      ep'.matchSenderLinks = ep.matchSenderLinks := by
  unfold receiveReq at hr
  split_ifs at hr <;> obtain rfl := Option.some.inj hr <;> exact ⟨rfl, rfl⟩

lemma receiveGrants_links {ep' : PimEpoch} (hr : ep.receiveGrants p = some ep') :
    ep'.matchReceiverLinks = ep.matchReceiverLinks ∧
      ep'.matchSenderLinks = ep.matchSenderLinks := by
  unfold receiveGrants at hr
  split_ifs at hr <;> obtain rfl := Option.some.inj hr <;> exact ⟨rfl, rfl⟩

lemma receiveAcceptPkt_epoch {word : ℤ} {r : PimEpoch × List PimPacket}
    (hr : ep.receiveAcceptPkt σ e word p = some r) : ∀ q ∈ r.2, q.epoch = e := by
  unfold receiveAcceptPkt at hr
  dsimp only at hr
  split_ifs at hr <;> obtain rfl := Option.some.inj hr <;> simp

lemma receiveGrantsr_receiver {ep' : PimEpoch} (hr : ep.receiveGrantsr σ p = some ep') :
    ep'.matchReceiverLinks = ep.matchReceiverLinks := by
  unfold receiveGrantsr at hr
  split_ifs at hr <;> obtain rfl := Option.some.inj hr <;> rfl

lemma Ledger.tally_nonneg (hL : Ledger σ h ep) (k : HostId) :
    0 ≤ tally PimVlink.target PimVlink.totalLinks k ep.matchReceiverLinks := by
  refine List.sum_nonneg fun x hx => ?_
  obtain ⟨l, hl, rfl⟩ := List.mem_map.1 hx
  split_ifs
  · exact hL.rxNonneg l hl
  · exact le_rfl

end PimEpoch

namespace PimSpec

variable {σ : PimSpec}

theorem keeps_ledger :
    σ.Keeps (fun _ _ _ => True) (PimEpoch.Ledger σ) σ.GoodLinks where
  first := ⟨PimEpoch.capacity_new .., by simp, by simp⟩
  start _ := ⟨PimEpoch.capacity_new .., by simp, by simp⟩
  receive {ep p word r} h hp hkind hr := by
    obtain ⟨hcap, hgood⟩ := keeps_capacity.receive h.toCapacity hp trivial hr
    unfold receive at hr
    split at hr
    · obtain ⟨ep', hep', rfl⟩ := Option.map_eq_some_iff.1 hr
      refine ⟨⟨hcap, ?_, ?_⟩, hgood⟩
      · unfold PimEpoch.receiveReq at hep'
        split_ifs at hep' <;> obtain rfl := Option.some.inj hep' <;> exact h.grantsDst
      · unfold PimEpoch.receiveReq at hep'
        split_ifs at hep' <;> obtain rfl := Option.some.inj hep' <;> exact h.rxNonneg
    · rename_i hkind'
      obtain ⟨ep', hep', rfl⟩ := Option.map_eq_some_iff.1 hr
      unfold PimEpoch.receiveGrants at hep'
      split_ifs at hep' <;> obtain rfl := Option.some.inj hep'
      · exact ⟨h, hgood⟩
      · refine ⟨⟨hcap, fun g hg => ?_, h.rxNonneg⟩, hgood⟩
        rcases List.mem_append.1 hg with hg | hg
        · exact h.grantsDst g hg
        · obtain rfl := List.mem_singleton.1 hg
          simp [target, hkind', PimEpoch.offer]
    · rename_i hkind'
      exact h.receiveAcceptPkt (hp (by simp [hkind'])) hr
    · obtain ⟨ep', hep', rfl⟩ := Option.map_eq_some_iff.1 hr
      unfold PimEpoch.receiveGrantsr at hep'
      split_ifs at hep' <;> obtain rfl := Option.some.inj hep'
      · exact ⟨h, hgood⟩
      · exact ⟨⟨hcap, h.grantsDst, h.rxNonneg⟩, hgood⟩
  grants h hr := h.handleAllGrants hr
  advance h := ⟨h.toCapacity.advanceIter, by simp [PimEpoch.advanceIter], h.rxNonneg⟩
  sort {h ep links} hL hperm :=
    ⟨keeps_capacity.sort (h := h) hL.toCapacity hperm, hL.grantsDst, hL.rxNonneg⟩
  reqs h hout := h.toCapacity.sendAllReq hout
  requests h hr := by
    obtain ⟨hcap, hgood⟩ := h.toCapacity.scheduleSenderIterEvt hr
    obtain rfl | rfl | ⟨-, r', -, rfl⟩ := PimEpoch.scheduleSenderIterEvt_cases hr
    · exact ⟨⟨hcap, h.grantsDst, h.rxNonneg⟩, hgood⟩
    · exact ⟨h, hgood⟩
    · exact ⟨⟨hcap, h.grantsDst, h.rxNonneg⟩, hgood⟩

end PimSpec

end DcSim
