import DcSim.PimCapacity

/-!
The counter of the links that a host of PIM receives on.

The counter goes up with the links of the host when it accepts grants. A `GrantsR` takes links from
the list and leaves the counter as it is, so the two are the same until one arrives; after that the
host asks for less than it could use until the end of the epoch.
-/

namespace DcSim

open Runs Word32 Upsert

namespace PimSpec

variable (σ : PimSpec)

/-- A `GrantsR` carries the links that are returned. -/
def ReturnsClipped (s : PimNet) (a : PimAct) : Prop :=
  σ.Arrivals (fun ep p word => p.kind = .accept ∧ ep.Overflows σ p → word = ep.clipped σ p) s a

instance (s : PimNet) (a : PimAct) : Decidable (σ.ReturnsClipped s a) := by
  unfold ReturnsClipped; infer_instance

/-- No `GrantsR` arrives. -/
def NoReturns (s : PimNet) (a : PimAct) : Prop :=
  σ.Arrivals (fun _ p _ => p.kind ≠ .grantsR) s a

instance (s : PimNet) (a : PimAct) : Decidable (σ.NoReturns s a) := by
  unfold NoReturns; infer_instance

/-- The counter of the links a host receives on is the sum of its links. -/
def TxCounted (s : PimNet) : Prop :=
  ∀ h e ep, (s.hosts h).epochs e = some ep →
    (ep.numTxLink : ℤ) = (ep.matchSenderLinks.map PimVlink.totalLinks).sum

end PimSpec

namespace PimEpoch

variable {σ : PimSpec} {ep : PimEpoch} {p : PimPacket} {e : ℕ}

/-! ### The counter of the receiver -/

structure Counted (σ : PimSpec) (ep : PimEpoch) : Prop extends Capacity σ ep where
  txSum : (ep.numTxLink : ℤ) = (ep.matchSenderLinks.map PimVlink.totalLinks).sum

lemma Counted.handleAllGrants (h : Counted σ ep) {order : List PimOffer}
    {r : PimEpoch × List PimPacket} (hr : ep.handleAllGrants σ e order = some r) :
    Counted σ r.1 ∧ ∀ q ∈ r.2, σ.GoodLinks q := by
  obtain ⟨hcap, hgood⟩ := h.toCapacity.handleAllGrants hr
  obtain rfl | ⟨hperm, hne, hr⟩ := handleAllGrants_cases hr
  · exact ⟨h, by simp⟩
  have hlinks : ∀ g ∈ order, σ.Links g.totalLinks := fun g hg => h.grants g (hperm.subset hg)
  obtain ⟨⟨ep', a', b', gs, ⟨hJ, -⟩, heq, hgs⟩, -⟩ :=
    acceptLoop_rule (J := fun ep a _ => Counted σ ep ∧ a ≤ σ.pimK - ep.numTxLink)
      (G := fun _ => True) (fun {x a b g} ⟨hcount, hle⟩ ha hg => by
        obtain ⟨h₁, h₂, h₃⟩ := hlinks g hg
        have hpos : 1 ≤ min a g.totalLinks := by omega
        obtain ⟨hcap', hnum⟩ := hcount.toCapacity.acceptGrant g
          (min (min a g.totalLinks) (min b g.promptLinks)) hpos (by omega) h₃
        refine ⟨⟨⟨hcap', ?_⟩, by omega⟩, trivial⟩
        rw [hnum, hcount.txSum]
        exact (sum_addLinks hcount.txNodup).symm)
      ⟨h, PimSpec.avail_le h.txLe⟩ hr
  refine ⟨⟨hcap, ?_⟩, hgood⟩
  rw [heq]
  exact hJ.txSum

lemma receiveAcceptPkt_sender {word : ℤ} {r : PimEpoch × List PimPacket}
    (hr : ep.receiveAcceptPkt σ e word p = some r) :
    r.1.numTxLink = ep.numTxLink ∧ r.1.matchSenderLinks = ep.matchSenderLinks ∧
      r.1.grantsQ = ep.grantsQ := by
  unfold PimEpoch.receiveAcceptPkt at hr
  dsimp only at hr
  generalize (if ep.Overflows σ p then _ else _) = out at hr
  split_ifs at hr <;> obtain rfl := Option.some.inj hr <;> exact ⟨rfl, rfl, rfl⟩

end PimEpoch

namespace PimSpec

variable {σ : PimSpec}

/-- **The counter is right as long as no link is returned.** -/
theorem keeps_counted :
    σ.Keeps (fun _ p _ => p.kind ≠ .grantsR) (fun _ => PimEpoch.Counted σ) σ.GoodLinks where
  first := ⟨PimEpoch.capacity_new .., rfl⟩
  start _ := ⟨PimEpoch.capacity_new .., rfl⟩
  receive {ep p word r} h hp hkind hr := by
    obtain ⟨hcap, hgood⟩ := keeps_capacity.receive h.toCapacity hp trivial hr
    refine ⟨⟨hcap, ?_⟩, hgood⟩
    unfold receive at hr
    split at hr
    · obtain ⟨ep', hep', rfl⟩ := Option.map_eq_some_iff.1 hr
      unfold PimEpoch.receiveReq at hep'
      split_ifs at hep' <;> obtain rfl := Option.some.inj hep' <;> exact h.txSum
    · obtain ⟨ep', hep', rfl⟩ := Option.map_eq_some_iff.1 hr
      unfold PimEpoch.receiveGrants at hep'
      split_ifs at hep' <;> obtain rfl := Option.some.inj hep' <;> exact h.txSum
    · obtain ⟨hnum, hlinks, -⟩ := PimEpoch.receiveAcceptPkt_sender hr
      rw [hnum, hlinks]
      exact h.txSum
    · rename_i hkind'
      exact absurd hkind' hkind
  grants h hr := h.handleAllGrants hr
  advance h := ⟨h.toCapacity.advanceIter, h.txSum⟩
  sort {h ep links} hc hperm :=
    ⟨keeps_capacity.sort (h := h) hc.toCapacity hperm, hc.txSum.trans (hperm.map _).sum_eq.symm⟩
  reqs h hout := h.toCapacity.sendAllReq hout
  requests h hr := by
    obtain ⟨hcap, hgood⟩ := h.toCapacity.scheduleSenderIterEvt hr
    refine ⟨⟨hcap, ?_⟩, hgood⟩
    obtain rfl | rfl | ⟨-, r', -, rfl⟩ := PimEpoch.scheduleSenderIterEvt_cases hr
    · exact h.txSum
    · exact h.txSum
    · exact h.txSum

/-- **The links of a receiver are counted right in every state of a run where nothing is
returned.** -/
theorem txCounted_of_noReturns {as : List PimAct}
    (hno : Along σ.machine σ.NoReturns σ.machine.init as) :
    Always σ.machine TxCounted σ.machine.init as :=
  (keeps_counted.always hno).mono fun _ hs h e ep hep => (hs.1 h e ep hep).txSum

theorem txCounted_of_noReturns_twoAccepts :
    Always (ofLinks 1 (by decide)).machine TxCounted (ofLinks 1 (by decide)).machine.init
      twoAccepts :=
  txCounted_of_noReturns (by decide +kernel)

/-- After `twoAccepts` flow `1` gets the link, and that of flow `2` is returned. -/
def lateReturn (word : ℤ) : List PimAct :=
  twoAccepts ++ [.deliver (oneLink .accept 1 1 0) 0, .deliver (oneLink .accept 2 2 0) word,
    .deliver ⟨.grantsR, 2, 3, 0, 0, word, 1⟩ 0]

theorem not_txCounted_lateReturn :
    ¬ ∀ (σ : PimSpec) as, Along σ.machine σ.ReturnsClipped σ.machine.init as →
      Always σ.machine TxCounted σ.machine.init as := by
  intro hall
  have hrun : ∃ s, exec (ofLinks 1 (by decide)).machine (ofLinks 1 (by decide)).machine.init
      (lateReturn 1) = some s ∧ ((s.hosts 2).epochs 0).any fun ep =>
        ep.numTxLink = 1 ∧ (ep.matchSenderLinks.map PimVlink.totalLinks).sum = 0 :=
    exists_exec_of_any (by decide +kernel)
  obtain ⟨s, hs, hP⟩ := hrun
  obtain ⟨ep, hep, hsum⟩ := (Option.any_eq_true _ _).1 hP
  obtain ⟨hnum, hsum⟩ := of_decide_eq_true hsum
  have hcount := ((hall _ (lateReturn 1) (by decide +kernel)).last hs) 2 0 ep hep
  rw [hnum, hsum] at hcount
  exact absurd hcount (by decide)

end PimSpec

end DcSim
