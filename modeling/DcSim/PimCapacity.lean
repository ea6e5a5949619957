import DcSim.PimNet

/-!
The matching of PIM stays within the capacity of a host.

Every request, grant and ACCEPT is for at least one link and for at most as many as there are, and
the counter of the links a host sends on is the sum of its links, whatever is lost or late. The
capacity is checked when an ACCEPT arrives as well as when grants are accepted, so neither counter
exceeds it. With a capacity of `2 ^ 31` or more the number of free links is negative as an `int`,
and nothing is ever asked for.
-/

namespace DcSim

open Runs Word32 Upsert

namespace PimSpec

variable (σ : PimSpec)

/-- A number of links in a request, a grant or an ACCEPT. -/
def Links (n : ℤ) : Prop := 1 ≤ n ∧ n ≤ σ.pimK ∧ σ.pimK < 2147483648

/-- The packets that carry such a number: all but `GrantsR`. -/
def GoodLinks (p : PimPacket) : Prop := p.kind ≠ .grantsR → σ.Links p.totalLinks

variable {σ} {num : ℕ}

lemma avail_le (h : num ≤ σ.pimK) : σ.avail num ≤ σ.pimK - num := by
  have := toInt32_le (sub32 σ.pimK num)
  rw [sub32_eq σ.pimK_lt h] at this
  unfold avail
  rw [sub32_eq σ.pimK_lt h]
  omega

lemma avail_eq (h : num ≤ σ.pimK) (hK : σ.pimK < 2147483648) : σ.avail num = σ.pimK - num := by
  unfold avail
  rw [sub32_eq σ.pimK_lt h, toInt32_eq (by omega)]
  omega

lemma small_of_avail (h : num ≤ σ.pimK) (hnum : 0 < num → σ.pimK < 2147483648)
    (ha : 0 ≤ σ.avail num) (hne : num ≠ σ.pimK) : σ.pimK < 2147483648 := by
  rcases Nat.eq_zero_or_pos num with rfl | hpos
  · unfold avail at ha
    rw [sub32_eq σ.pimK_lt h] at ha
    have := σ.pimK_lt
    unfold toInt32 at ha
    split_ifs at ha <;> omega
  · exact hnum hpos

end PimSpec

namespace PimEpoch

variable {σ : PimSpec} {ep : PimEpoch} {p : PimPacket}

structure Capacity (σ : PimSpec) (ep : PimEpoch) : Prop where
  rxSum : (ep.numRxLink : ℤ) = (ep.matchReceiverLinks.map PimVlink.totalLinks).sum
  rxLe : ep.numRxLink ≤ σ.pimK
  txLe : ep.numTxLink ≤ σ.pimK
  rxNodup : (ep.matchReceiverLinks.map PimVlink.target).Nodup
  txNodup : (ep.matchSenderLinks.map PimVlink.target).Nodup
  reqs : ∀ q ∈ ep.reqQ, σ.Links q.totalLinks
  grants : ∀ g ∈ ep.grantsQ, σ.Links g.totalLinks
  small : 0 < ep.numTxLink → σ.pimK < 2147483648

lemma nodup_addLinks {target : HostId} {total prompt size : ℤ} {ls : List PimVlink}
    (h : (ls.map PimVlink.target).Nodup) :
    ((addLinks target total prompt size ls).map PimVlink.target).Nodup := by
  unfold addLinks
  exact nodup_upsert (fun _ => rfl) rfl h

lemma sum_addLinks {target : HostId} {total prompt size : ℤ} {ls : List PimVlink}
    (h : (ls.map PimVlink.target).Nodup) :
    ((addLinks target total prompt size ls).map PimVlink.totalLinks).sum =
      (ls.map PimVlink.totalLinks).sum + total := by
  unfold addLinks
  exact sum_upsert h (fun _ => rfl) rfl

lemma capacity_new (tx rx : ℕ) :
    Capacity σ { numTxPromptLink := tx, numRxPromptLink := rx } where
  rxSum := rfl
  rxLe := Nat.zero_le _
  txLe := Nat.zero_le _
  rxNodup := List.nodup_nil
  txNodup := List.nodup_nil
  reqs := by simp
  grants := by simp
  small := by simp

lemma Capacity.advanceIter (h : Capacity σ ep) : Capacity σ ep.advanceIter :=
  { h with reqs := by simp [PimEpoch.advanceIter], grants := by simp [PimEpoch.advanceIter] }

lemma Capacity.receiveReq (h : Capacity σ ep) (hp : σ.Links p.totalLinks) {ep' : PimEpoch}
    (hr : ep.receiveReq p = some ep') : Capacity σ ep' := by
  unfold PimEpoch.receiveReq at hr
  split_ifs at hr <;> obtain rfl := Option.some.inj hr
  · exact h
  · refine { h with reqs := fun q hq => ?_ }
    rcases List.mem_append.1 hq with hq | hq
    · exact h.reqs q hq
    · obtain rfl := List.mem_singleton.1 hq
      exact hp

lemma Capacity.receiveGrants (h : Capacity σ ep) (hp : σ.Links p.totalLinks) {ep' : PimEpoch}
    (hr : ep.receiveGrants p = some ep') : Capacity σ ep' := by
  unfold PimEpoch.receiveGrants at hr
  split_ifs at hr <;> obtain rfl := Option.some.inj hr
  · exact h
  · refine { h with grants := fun q hq => ?_ }
    rcases List.mem_append.1 hq with hq | hq
    · exact h.grants q hq
    · obtain rfl := List.mem_singleton.1 hq
      exact hp

lemma Capacity.receiveGrantsr (h : Capacity σ ep) {ep' : PimEpoch}
    (hr : ep.receiveGrantsr σ p = some ep') : Capacity σ ep' := by
  unfold PimEpoch.receiveGrantsr at hr
  split_ifs at hr <;> obtain rfl := Option.some.inj hr
  · exact h
  · refine { h with txNodup := ?_ }
    dsimp only
    rw [keys_modifyFirst (f := returnLinks p) fun _ => rfl]
    exact h.txNodup

/-! ### The arrival of an ACCEPT -/

lemma Capacity.overflows_iff (h : Capacity σ ep) (hp : σ.Links p.totalLinks) :
    ep.Overflows σ p ↔ (σ.pimK : ℤ) < ep.numRxLink + p.totalLinks := by
  obtain ⟨h₁, h₂, h₃⟩ := hp
  have hle := h.rxLe
  have hof := ofInt32_eq (z := ep.numRxLink + p.totalLinks) (by omega) (by omega)
  unfold Overflows
  omega

lemma Capacity.clipped_eq (h : Capacity σ ep) (hp : σ.Links p.totalLinks) :
    ep.clipped σ p = max 0 (ep.numRxLink + p.totalLinks - σ.pimK) := by
  have hover := h.overflows_iff hp
  obtain ⟨h₁, h₂, h₃⟩ := hp
  have hle := h.rxLe
  unfold clipped
  split_ifs with ho
  · have hlt := hover.1 ho
    have hof := ofInt32_eq (z := p.totalLinks + ep.numRxLink - σ.pimK) (by omega) (by omega)
    rw [toInt32_eq (by omega), hof]
    omega
  · rw [hover] at ho
    omega

lemma Capacity.receiveAcceptPkt (h : Capacity σ ep) (hp : σ.Links p.totalLinks) {e : ℕ} {word : ℤ}
    {r : PimEpoch × List PimPacket} (hr : ep.receiveAcceptPkt σ e word p = some r) :
    Capacity σ r.1 ∧ ∀ q ∈ r.2, σ.GoodLinks q := by
  have hclip := h.clipped_eq hp
  obtain ⟨h₁, h₂, h₃⟩ := hp
  have hle := h.rxLe
  have hout : ∀ q ∈ (if ep.Overflows σ p then
      [⟨.grantsR, p.flow, ep.iter, e, 0, word, ep.clippedPrompt σ p⟩] else [] : List PimPacket),
      σ.GoodLinks q := by
    intro q hq hne
    split_ifs at hq
    · obtain rfl := List.mem_singleton.1 hq
      exact absurd rfl hne
    · exact absurd hq List.not_mem_nil
  unfold PimEpoch.receiveAcceptPkt at hr
  dsimp only at hr
  generalize (if ep.Overflows σ p then _ else _) = out at hr hout
  split_ifs at hr with h0 hfit
  · obtain rfl := Option.some.inj hr
    exact ⟨h, hout⟩
  · obtain rfl := Option.some.inj hr
    have hof := ofInt32_eq (z := ep.numRxLink + (p.totalLinks - ep.clipped σ p)) (by omega)
      (by omega)
    refine ⟨{ h with rxSum := ?_, rxLe := hfit, rxNodup := nodup_addLinks h.rxNodup }, hout⟩
    rw [hof, h.rxSum]
    exact (sum_addLinks h.rxNodup).symm

/-! ### The rounds -/

lemma Capacity.acceptGrant (h : Capacity σ ep) (g : PimOffer) {need : ℤ} (prompt : ℤ)
    (hneed : 1 ≤ need) (hle : need ≤ σ.pimK - ep.numTxLink) (hK : σ.pimK < 2147483648) :
    Capacity σ (ep.acceptGrant σ need prompt g) ∧
      ((ep.acceptGrant σ need prompt g).numTxLink : ℤ) = ep.numTxLink + need := by
  have hof := ofInt32_eq (z := ep.numTxLink + need) (by omega) (by omega)
  refine ⟨{ h with txLe := ?_, txNodup := nodup_addLinks h.txNodup, small := fun _ => hK }, hof⟩
  unfold PimEpoch.acceptGrant
  dsimp only
  omega

lemma Capacity.handleAllGrants (h : Capacity σ ep) {e : ℕ} {order : List PimOffer}
    {r : PimEpoch × List PimPacket} (hr : ep.handleAllGrants σ e order = some r) :
    Capacity σ r.1 ∧ ∀ q ∈ r.2, σ.GoodLinks q := by
  obtain rfl | ⟨hperm, hne, hr⟩ := handleAllGrants_cases hr
  · exact ⟨h, by simp⟩
  have hlinks : ∀ g ∈ order, σ.Links g.totalLinks := fun g hg => h.grants g (hperm.subset hg)
  obtain ⟨⟨ep', a', b', gs, ⟨hJ, -⟩, heq, hgs⟩, hG⟩ :=
    acceptLoop_rule (J := fun ep a _ => Capacity σ ep ∧ a ≤ σ.pimK - ep.numTxLink)
      (G := σ.GoodLinks) (fun {ep a b g} ⟨hcap, hle⟩ ha hg => by
        obtain ⟨h₁, h₂, h₃⟩ := hlinks g hg
        have hpos : 1 ≤ min a g.totalLinks := by omega
        obtain ⟨hcap', hnum⟩ := hcap.acceptGrant g (min (min a g.totalLinks) (min b g.promptLinks))
          hpos (by omega) h₃
        exact ⟨⟨hcap', by omega⟩, fun _ => ⟨by dsimp only; omega, by dsimp only; omega, h₃⟩⟩)
      ⟨h, PimSpec.avail_le h.txLe⟩ hr
  refine ⟨?_, hG⟩
  rw [heq]
  exact { hJ with grants := fun g hg => hlinks g (hgs g hg) }

lemma Capacity.scheduleSenderIterEvt (h : Capacity σ ep) {e : ℕ} {order : List PimOffer}
    {r : PimEpoch × List PimPacket} (hr : ep.scheduleSenderIterEvt σ e order = some r) :
    Capacity σ r.1 ∧ ∀ q ∈ r.2, σ.GoodLinks q := by
  obtain rfl | rfl | ⟨hperm, r', hr', rfl⟩ := scheduleSenderIterEvt_cases hr
  · exact ⟨{ h with }, by simp⟩
  · exact ⟨h, by simp⟩
  have hlinks : ∀ q ∈ order, σ.Links q.totalLinks := fun q hq => h.reqs q (hperm.subset hq)
  have hle := PimSpec.avail_le h.rxLe
  obtain ⟨hG, hleft⟩ := grantLoop_rule (J := fun a _ => a ≤ σ.pimK) (G := σ.GoodLinks)
    (fun {a b q} hJ ha hq => by
      obtain ⟨h₁, h₂, h₃⟩ := hlinks q hq
      exact ⟨by omega, fun _ => ⟨by dsimp only; omega, by dsimp only; omega, h₃⟩⟩)
    (by omega) hr'
  exact ⟨{ h with reqs := fun q hq => hlinks q (hleft q hq) }, hG⟩

lemma Capacity.sendAllReq (h : Capacity σ ep) {e : ℕ} {links : List PimVlink}
    {remaining : FlowId → ℤ} {best : List FlowId} {out : List PimPacket}
    (hout : ep.sendAllReq σ e links remaining best = some out) : ∀ q ∈ out, σ.GoodLinks q := by
  refine sendAllReq_rule (fun {f out} hne hf => ?_) hout
  obtain rfl | ⟨n, hn, hprompt, rfl⟩ := sendReq_cases hf
  · simp
  · intro q hq hkind
    obtain rfl := List.mem_singleton.1 hq
    have hK := PimSpec.small_of_avail h.txLe h.small (by omega) hne
    have hav := PimSpec.avail_eq h.txLe hK
    have hlt := h.txLe
    exact ⟨by dsimp only; omega, by dsimp only; omega, hK⟩

end PimEpoch

namespace PimSpec

variable {σ : PimSpec}

/-- **The matching keeps to the capacity.** -/
theorem keeps_capacity :
    σ.Keeps (fun _ _ _ => True) (fun _ => PimEpoch.Capacity σ) σ.GoodLinks where
  first := PimEpoch.capacity_new ..
  start _ := PimEpoch.capacity_new ..
  receive {ep p word r} h hp _ hr := by
    unfold receive at hr
    split at hr
    · rename_i hkind
      obtain ⟨ep', hep', rfl⟩ := Option.map_eq_some_iff.1 hr
      exact ⟨h.receiveReq (hp (by simp [hkind])) hep', by simp⟩
    · rename_i hkind
      obtain ⟨ep', hep', rfl⟩ := Option.map_eq_some_iff.1 hr
      exact ⟨h.receiveGrants (hp (by simp [hkind])) hep', by simp⟩
    · rename_i hkind
      exact h.receiveAcceptPkt (hp (by simp [hkind])) hr
    · obtain ⟨ep', hep', rfl⟩ := Option.map_eq_some_iff.1 hr
      exact ⟨h.receiveGrantsr hep', by simp⟩
  grants h hr := h.handleAllGrants hr
  advance h := h.advanceIter
  sort h hperm := { h with txNodup := (hperm.map _).nodup_iff.2 h.txNodup }
  reqs h hout := h.sendAllReq hout
  requests h hr := h.scheduleSenderIterEvt hr

/-- **PIM matching respects the capacity**: in every reachable state, in each epoch of each host,
the links a host sends on are counted right and are no more than there are, nor are those it
receives on; no peer occurs twice in the links of either kind; and each request, grant and ACCEPT
is for at least one link. -/
theorem matching_within_capacity {s : PimNet} (hs : Reach σ.machine s) :
    (∀ h e ep, (s.hosts h).epochs e = some ep →
      (ep.numRxLink : ℤ) = (ep.matchReceiverLinks.map PimVlink.totalLinks).sum ∧
      ep.numRxLink ≤ σ.pimK ∧ ep.numTxLink ≤ σ.pimK ∧
      (ep.matchReceiverLinks.map PimVlink.target).Nodup ∧
      (ep.matchSenderLinks.map PimVlink.target).Nodup) ∧
    ∀ p ∈ s.inFlight, p.kind ≠ .grantsR → 1 ≤ p.totalLinks := by
  obtain ⟨hepochs, hpackets⟩ := keeps_capacity.reach hs
  refine ⟨fun h e ep hep => ?_, fun p hp hkind => (hpackets p hp hkind).1⟩
  have hcap := hepochs h e ep hep
  exact ⟨hcap.rxSum, hcap.rxLe, hcap.txLe, hcap.rxNodup, hcap.txNodup⟩

/-- With one link, the ACCEPT of flow `2` is sent before that of flow `1` has arrived. -/
def twoAccepts : List PimAct :=
  [.newEpoch 0 false, .newEpoch 1 false, .newEpoch 2 false, .receiverIter 0 0 [] [] [],
    .receiverIter 1 0 [] [] [1], .receiverIter 2 0 [] [] []] ++ handshake 1 1 0 ++
  [.receiverIter 2 0 [] [] [2]] ++ handshake 2 2 0

theorem matching_within_capacity_twoAccepts :
    ∃ s, Reach (ofLinks 1 (by decide)).machine s ∧
      s.inFlight = {oneLink .accept 1 1 0, oneLink .accept 2 2 0} ∧
      (∀ h e ep, (s.hosts h).epochs e = some ep → ep.numRxLink ≤ 1) ∧
      ∀ p ∈ s.inFlight, p.kind ≠ .grantsR → 1 ≤ p.totalLinks := by
  obtain ⟨s, hs, hflight⟩ := exists_reach_of_exec_any (M := (ofLinks 1 (by decide)).machine)
    (P := fun s => s.inFlight = {oneLink .accept 1 1 0, oneLink .accept 2 2 0}) twoAccepts
    (by decide +kernel)
  obtain ⟨hepochs, hpackets⟩ := matching_within_capacity hs
  exact ⟨s, hs, hflight, fun h e ep hep => (hepochs h e ep hep).2.1, hpackets⟩

end PimSpec

end DcSim
