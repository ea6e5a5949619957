import DcSim.PimLedger
import Mathlib.Algebra.Order.BigOperators.Group.Multiset

/-!
The agreement of the two sides of the matching of PIM.

The links that a receiver has entered for a sender are those that the sender has entered for it and
those on the way between them, as long as a `GrantsR` carries what is returned and no ACCEPT or
`GrantsR` of the epoch is dropped. So the two sides agree once no packet of the epoch is in flight.
-/

namespace DcSim

open Runs Upsert

namespace PimSpec

variable {σ : PimSpec}

/-! ### One step -/

section Step

variable {host host' : PimHost} {out : List PimPacket} {e i : ℕ} {h : HostId} {ep : PimEpoch}

lemma entered_some {links : PimEpoch → List PimVlink} (hep : host.epochs e = some ep)
    (k : HostId) :
    entered links host e k = tally PimVlink.target PimVlink.totalLinks k (links ep) := by
  unfold entered
  rw [hep]

lemma entered_congr {links : PimEpoch → List PimVlink} (heq : host'.epochs e = host.epochs e)
    (k : HostId) : entered links host' e k = entered links host e k := by
  unfold entered
  rw [heq]

lemma share_eq_zero {p : PimPacket} (hp : ¬ Moves p ∨ p.epoch ≠ e) (a b : HostId) :
    σ.share e a b p = 0 :=
  if_neg fun hall => hp.elim (fun hne => hne hall.1) fun hne => hne hall.2.1

lemma sum_map_eq_zero {f : PimPacket → ℤ} (hf : ∀ p ∈ out, f p = 0) : (out.map f).sum = 0 := by
  rw [List.map_congr_left hf]
  simp

variable (σ) in
structure HostStep (h : HostId) (e : ℕ) (host host' : PimHost) (out : List PimPacket) :
    Prop where
  gone : Gone host e → Gone host' e
  started : Started host → Started host'
  recv : ¬ Gone host' e → ∀ k, entered PimEpoch.matchReceiverLinks host' e k =
    entered PimEpoch.matchReceiverLinks host e k
  send : ¬ Gone host' e → ∀ k, entered PimEpoch.matchSenderLinks host' e k =
    entered PimEpoch.matchSenderLinks host e k + (out.map (σ.share e k h)).sum
  other : ∀ a b, b ≠ h → (out.map (σ.share e a b)).sum = 0
  returned : ∀ p ∈ out, p.kind = .grantsR → p.epoch = e → 0 < p.totalLinks

lemma gone_setEpoch (hep : host.epochs i = some ep) {ep' : PimEpoch} (hgone : Gone host e) :
    Gone (host.setEpoch i ep') e := by
  have hne : e ≠ i := by
    rintro rfl
    exact nomatch hep.symm.trans hgone.1
  refine ⟨?_, hgone.2⟩
  rw [PimHost.setEpoch_ne _ hne]
  exact hgone.1

lemma started_setEpoch (hep : host.epochs i = some ep) {ep' : PimEpoch}
    (hstarted : Started host) : Started (host.setEpoch i ep') := by
  intro n hn j x hx
  rcases eq_or_ne j i with rfl | hne
  · exact hstarted n hn j ep hep
  · rw [PimHost.setEpoch_ne _ hne] at hx
    exact hstarted n hn j x hx

lemma hostStep_startNewEpoch {n : ℕ} {b : Bool} (hevt : host.newEpochEvt = some n)
    (hhost : host.startNewEpoch n b = some host') : HostStep σ h e host host' [] := by
  -- the new epoch has no links
  have hnew : ∀ {ep' : PimEpoch} (evt : Option ℕ), host.epochs n = none →
      evt = some (n + 1) → ep'.matchReceiverLinks = [] → ep'.matchSenderLinks = [] →
      HostStep σ h e host { host.setEpoch n ep' with newEpochEvt := evt } [] := by
    rintro ep' evt hnone rfl hrecv hsend
    have hlinks : ∀ {links : PimEpoch → List PimVlink}, links ep' = [] → ∀ k,
        entered links { host.setEpoch n ep' with newEpochEvt := some (n + 1) } e k =
          entered links host e k := by
      intro links hl k
      rcases eq_or_ne e n with rfl | hne
      · have hself : ({ host.setEpoch e ep' with newEpochEvt := some (e + 1) } : PimHost).epochs e =
            some ep' := host.setEpoch_self e ep'
        rw [entered_some hself k, hl, entered, hnone]
        rfl
      · exact entered_congr (host.setEpoch_ne hne ep') k
    refine ⟨fun hgone => ⟨?_, ?_⟩, ?_, fun _ => hlinks hrecv, fun _ k => ?_, by simp, by simp⟩
    · exact (host.setEpoch_ne (hgone.2 n hevt).ne ep').trans hgone.1
    · rintro m hm
      obtain rfl : n + 1 = m := Option.some.inj hm
      exact Nat.lt_succ_of_lt (hgone.2 n hevt)
    · intro hstarted m hm j x hx
      obtain rfl : n + 1 = m := Option.some.inj hm
      rcases eq_or_ne j n with rfl | hne
      · exact Nat.lt_succ_self j
      · exact Nat.lt_succ_of_lt (hstarted n hevt j x ((host.setEpoch_ne hne ep').symm.trans hx))
    · rw [hlinks hsend]
      simp
  unfold PimHost.startNewEpoch at hhost
  split_ifs at hhost with h₁ h₂
  · obtain rfl := Option.some.inj hhost
    refine ⟨fun hgone => ⟨hgone.1, by simp⟩, fun _ _ hn => (nomatch hn), fun _ _ => rfl,
      fun _ _ => ?_, by simp, by simp⟩
    simp [entered]
  · obtain rfl := Option.some.inj hhost
    exact hnew _ (by simpa using fun hs => h₁ (.inl hs)) rfl rfl rfl
  · obtain ⟨prev, -, rfl⟩ := Option.map_eq_some_iff.1 hhost
    exact hnew _ (by simpa using fun hs => h₁ (.inl hs)) rfl rfl rfl

lemma hostStep_setEpoch (hep : host.epochs i = some ep) {ep' : PimEpoch}
    (hrecv : ep'.matchReceiverLinks = ep.matchReceiverLinks)
    (hsend : ∀ k, tally PimVlink.target PimVlink.totalLinks k ep'.matchSenderLinks =
      tally PimVlink.target PimVlink.totalLinks k ep.matchSenderLinks +
        (out.map (σ.share i k h)).sum)
    (hout : ∀ p ∈ out, p.kind ≠ .grantsR ∧ (p.kind = .accept → p.epoch = i ∧ σ.dst p.flow = h)) :
    HostStep σ h e host (host.setEpoch i ep') out := by
  have hzero : ∀ p ∈ out, ∀ a b, b ≠ h ∨ e ≠ i → σ.share e a b p = 0 := by
    intro p hp a b hne
    refine if_neg fun ⟨hmoves, hepoch, _, hdst⟩ => ?_
    have haccept := (hout p hp).2 (hmoves.resolve_right (hout p hp).1)
    rcases hne with hne | hne
    · exact hne (hdst.symm.trans haccept.2)
    · exact hne (hepoch.symm.trans haccept.1)
  refine ⟨gone_setEpoch hep, started_setEpoch hep, fun _ k => ?_, fun _ k => ?_,
    fun a b hb => ?_, fun p hp hkind => absurd hkind (hout p hp).1⟩
  · rcases eq_or_ne e i with rfl | hne
    · rw [entered_some (host.setEpoch_self e ep'), entered_some hep, hrecv]
    · exact entered_congr (host.setEpoch_ne hne ep') k
  · rcases eq_or_ne e i with rfl | hne
    · rw [entered_some (host.setEpoch_self e ep'), entered_some hep]
      exact hsend k
    · have hsum := sum_map_eq_zero fun p hp => hzero p hp k h (.inr hne)
      rw [entered_congr (host.setEpoch_ne hne ep') k, hsum, add_zero]
  · exact sum_map_eq_zero fun p hp => hzero p hp a b (.inl hb)

lemma started_endEpoch {ep' : PimEpoch} {links : List PimVlink} (hstarted : Started host)
    (hep : host.epochs i = some ep) : Started (host.endEpoch i ep' links) := by
  intro n hn j x hx
  unfold PimHost.endEpoch at hx
  dsimp only at hx
  split_ifs at hx with hj
  · obtain rfl := hj
    exact hstarted n hn _ ep hep
  · exact hstarted n hn j x hx

lemma hostStep_setEpoch_ne (hep : host.epochs i = some ep) (hne : e ≠ i) {ep' : PimEpoch}
    (hout : ∀ p ∈ out, p.epoch = i) : HostStep σ h e host (host.setEpoch i ep') out := by
  have hzero : ∀ a b, (out.map (σ.share e a b)).sum = 0 := fun a b =>
    sum_map_eq_zero fun p hp => share_eq_zero (.inr fun he => hne (he.symm.trans (hout p hp))) a b
  refine ⟨gone_setEpoch hep, started_setEpoch hep, fun _ k => ?_, fun _ k => ?_,
    fun a b _ => hzero a b, fun p hp _ he => absurd (he.symm.trans (hout p hp)) hne⟩
  · exact entered_congr (host.setEpoch_ne hne ep') k
  · rw [entered_congr (host.setEpoch_ne hne ep') k, hzero, add_zero]

lemma hostStep_endEpoch {ep' : PimEpoch} {links : List PimVlink} (hstarted : Started host)
    (hep : host.epochs i = some ep)
    (hstep : HostStep σ h e host
      (host.setEpoch i { ep' with matchSenderLinks := links, procReceiverIterEvt := false }) out) :
    HostStep σ h e host (host.endEpoch i ep' links) out := by
  rcases eq_or_ne (e + 1) i with rfl | hne
  · have hgone : Gone (host.endEpoch (e + 1) ep' links) e := by
      refine ⟨?_, fun n hn => ?_⟩
      · simp [PimHost.endEpoch]
      · exact Nat.lt_of_succ_lt (hstarted n hn _ ep hep)
    exact ⟨fun _ => hgone, fun _ => started_endEpoch hstarted hep, fun hn => absurd hgone hn,
      fun hn => absurd hgone hn, hstep.other, hstep.returned⟩
  · have hsame : (host.endEpoch i ep' links).epochs e =
        (host.setEpoch i
          { ep' with matchSenderLinks := links, procReceiverIterEvt := false }).epochs e := by
      rcases eq_or_ne e i with rfl | hei
      · simp [PimHost.endEpoch]
      · simp [PimHost.endEpoch, hei, hne]
    have hgone : Gone (host.endEpoch i ep' links) e ↔ Gone (host.setEpoch i
        { ep' with matchSenderLinks := links, procReceiverIterEvt := false }) e := by
      unfold Gone
      rw [hsame]
      rfl
    refine ⟨fun hg => hgone.2 (hstep.gone hg), fun _ => started_endEpoch hstarted hep,
      fun hg k => ?_, fun hg k => ?_, hstep.other, hstep.returned⟩
    · rw [entered_congr hsame]
      exact hstep.recv (fun hs => hg (hgone.2 hs)) k
    · rw [entered_congr hsame]
      exact hstep.send (fun hs => hg (hgone.2 hs)) k

lemma hostStep_scheduleReceiverIterEvt (hstarted : Started host) (hep : host.epochs i = some ep)
    (hL : PimEpoch.Ledger σ h ep) {order : List PimOffer} {links : List PimVlink}
    {remaining : FlowId → ℤ} {best : List FlowId} {r : PimHost × List PimPacket}
    (hr : host.scheduleReceiverIterEvt σ i ep order links remaining best = some r) :
    HostStep σ h e host r.1 r.2 := by
  obtain ⟨r₁, hgrants, hr⟩ := Option.bind_eq_some_iff.1 hr
  obtain ⟨htally, hrecv, haccept⟩ := hL.handleAllGrants_tally hgrants
  dsimp only at hr
  split_ifs at hr with hlimit hlinks
  · obtain rfl := Option.some.inj hr
    refine hostStep_endEpoch hstarted hep
      (hostStep_setEpoch (h := h) hep hrecv (fun k => ?_) fun p hp => ?_)
    · exact (tally_perm hlinks.1).trans (htally k)
    · obtain ⟨hkind, hrest⟩ := haccept p hp
      exact ⟨by simp [hkind], fun _ => hrest⟩
  · obtain ⟨out, hout, rfl⟩ := Option.map_eq_some_iff.1 hr
    have hreq : ∀ p ∈ out, p.kind = .req := by
      refine PimEpoch.sendAllReq_rule (fun {f out} _ hf => ?_) hout
      obtain rfl | ⟨n, -, -, rfl⟩ := PimEpoch.sendReq_cases hf
      · simp
      · simp
    refine hostStep_setEpoch hep hrecv (fun k => ?_) fun p hp => ?_
    · have hzero : (out.map (σ.share i k h)).sum = 0 := by
        refine sum_map_eq_zero fun p hp => if_neg fun hall => ?_
        exact absurd hall.1 (by simp [Moves, hreq p hp])
      rw [List.map_append, List.sum_append, hzero, add_zero]
      exact htally k
    · rcases List.mem_append.1 hp with hp | hp
      · obtain ⟨hkind, hrest⟩ := haccept p hp
        exact ⟨by simp [hkind], fun _ => hrest⟩
      · simp [hreq p hp]

lemma hostStep_scheduleSenderIterEvt (hep : host.epochs i = some ep) {order : List PimOffer}
    {r : PimEpoch × List PimPacket} (hr : ep.scheduleSenderIterEvt σ i order = some r) :
    HostStep σ h e host (host.setEpoch i r.1) r.2 := by
  obtain rfl | rfl | ⟨-, r', hr', rfl⟩ := PimEpoch.scheduleSenderIterEvt_cases hr
  · exact hostStep_setEpoch hep rfl (by simp) (by simp)
  · exact hostStep_setEpoch hep rfl (by simp) (by simp)
  · have hgrants : ∀ p ∈ r'.1, p.kind = .grants :=
      (PimEpoch.grantLoop_rule (J := fun _ _ => True) (fun _ _ _ => ⟨trivial, rfl⟩) trivial hr').1
    refine hostStep_setEpoch hep rfl (fun k => ?_) fun p hp => by simp [hgrants p hp]
    have hzero : (r'.1.map (σ.share i k h)).sum = 0 := by
      refine sum_map_eq_zero fun p hp => if_neg fun hall => ?_
      exact absurd hall.1 (by simp [Moves, hgrants p hp])
    rw [hzero, add_zero]

end Step

/-! ### The packets of the epoch -/

variable (σ) in
/-- Packets of an epoch are not lost, and are delivered while the sender and the receiver of their
flow have the epoch. -/
def Delivered (e : ℕ) (s : PimNet) : PimAct → Prop
  | .deliver p _ => p.epoch = e →
      ((s.hosts (σ.src p.flow)).epochs e).isSome ∧ ((s.hosts (σ.dst p.flow)).epochs e).isSome
  | .lose p => p.epoch ≠ e
  | _ => True

instance (e : ℕ) (s : PimNet) (a : PimAct) : Decidable (σ.Delivered e s a) := by
  unfold Delivered
  split <;> infer_instance

variable (σ) in
/-- ACCEPTs and `GrantsR`s of an epoch arrive before their flow is finished, and a `GrantsR` carries
the links that are returned. -/
def Carried (e : ℕ) (s : PimNet) : PimAct → Prop
  | .deliver p word => p.epoch = e → Moves p → (s.flows p.flow).finished = false ∧
      ∀ ep ∈ (s.hosts (σ.target p)).epochs e,
        p.kind = .accept ∧ ep.Overflows σ p → word = ep.clipped σ p
  | _ => True

instance (e : ℕ) (s : PimNet) (a : PimAct) : Decidable (σ.Carried e s a) := by
  unfold Carried
  split <;> infer_instance

/-- When no packet of an epoch is in flight, a receiver has the links from a sender that the sender
has to it. -/
def Agrees (e : ℕ) (s : PimNet) : Prop :=
  (∀ p ∈ s.inFlight, p.epoch ≠ e) → ∀ a b ep ep', (s.hosts a).epochs e = some ep →
    (s.hosts b).epochs e = some ep' →
    tally PimVlink.target PimVlink.totalLinks a ep'.matchSenderLinks =
      tally PimVlink.target PimVlink.totalLinks b ep.matchReceiverLinks

variable (σ) in
structure Agreed (e : ℕ) (s : PimNet) : Prop where
  all : All (PimEpoch.Ledger σ) σ.GoodLinks s
  started : ∀ h, Started (s.hosts h)
  returned : ∀ p ∈ s.inFlight, p.kind = .grantsR → p.epoch = e → 0 < p.totalLinks
  balanced : ∀ a b, ¬ Gone (s.hosts a) e → ¬ Gone (s.hosts b) e → σ.Balanced s e a b

variable {s t : PimNet} {e : ℕ}

lemma transit_update {h : HostId} {host : PimHost} {out : List PimPacket} (a b : HostId) :
    σ.transit (s.update h host out) e a b =
      σ.transit s e a b + (out.map (σ.share e a b)).sum := by
  simp [transit, PimNet.update]

lemma transit_erase {p : PimPacket} (hp : p ∈ s.inFlight) (a b : HostId) :
    σ.transit s e a b =
      σ.share e a b p + σ.transit { s with inFlight := s.inFlight.erase p } e a b := by
  unfold transit
  rw [← Multiset.sum_cons, ← Multiset.map_cons, Multiset.cons_erase hp]

lemma share_nonneg (hs : σ.Agreed e s) {p : PimPacket} (hp : p ∈ s.inFlight) (a b : HostId) :
    0 ≤ σ.share e a b p := by
  unfold share
  split_ifs with hall
  · rcases hall.1 with hkind | hkind
    · have := (hs.all.2 p hp (by simp [hkind])).1
      omega
    · exact (hs.returned p hp hkind hall.2.1).le
  · exact le_rfl

lemma Agreed.update (hs : σ.Agreed e s) {rest : Multiset PimPacket} (hle : rest ≤ s.inFlight)
    {h : HostId} {host : PimHost} {out : List PimPacket}
    (hall : All (PimEpoch.Ledger σ) σ.GoodLinks ({ s with inFlight := rest }.update h host out))
    (hgone : Gone (s.hosts h) e → Gone host e) (hstarted : Started (s.hosts h) → Started host)
    (hreturned : ∀ p ∈ out, p.kind = .grantsR → p.epoch = e → 0 < p.totalLinks)
    (hbal : ∀ a b, ¬ Gone (({ s with inFlight := rest }.update h host out).hosts a) e →
      ¬ Gone (({ s with inFlight := rest }.update h host out).hosts b) e →
      σ.Balanced s e a b → σ.Balanced ({ s with inFlight := rest }.update h host out) e a b) :
    σ.Agreed e ({ s with inFlight := rest }.update h host out) := by
  have hgone' : ∀ {k}, ¬ Gone (({ s with inFlight := rest }.update h host out).hosts k) e →
      ¬ Gone (s.hosts k) e := by
    intro k hk hg
    rcases eq_or_ne k h with rfl | hne
    · rw [PimNet.update_self] at hk
      exact hk (hgone hg)
    · rw [PimNet.update_ne _ hne] at hk
      exact hk hg
  refine ⟨hall, fun h' => ?_, fun p hp hkind => ?_,
    fun a b ha hb => hbal a b ha hb (hs.balanced a b (hgone' ha) (hgone' hb))⟩
  · rcases eq_or_ne h' h with rfl | hne
    · rw [PimNet.update_self]
      exact hstarted (hs.started h')
    · rw [PimNet.update_ne _ hne]
      exact hs.started h'
  · rcases Multiset.mem_add.1 hp with hp | hp
    · exact hs.returned p (Multiset.mem_of_le hle hp) hkind
    · exact hreturned p (Multiset.mem_coe.1 hp) hkind

lemma Agreed.hostStep (hs : σ.Agreed e s) {h : HostId} {host : PimHost} {out : List PimPacket}
    (hstep : σ.HostStep h e (s.hosts h) host out)
    (hall : All (PimEpoch.Ledger σ) σ.GoodLinks (s.update h host out)) :
    σ.Agreed e (s.update h host out) := by
  refine hs.update le_rfl hall hstep.gone hstep.started hstep.returned fun a b ha hb hbal => ?_
  have hrecv : entered PimEpoch.matchReceiverLinks ((s.update h host out).hosts a) e b =
      entered PimEpoch.matchReceiverLinks (s.hosts a) e b := by
    rcases eq_or_ne a h with rfl | hne
    · rw [PimNet.update_self] at ha ⊢
      exact hstep.recv ha b
    · rw [PimNet.update_ne _ hne]
  have hsend : entered PimEpoch.matchSenderLinks ((s.update h host out).hosts b) e a =
      entered PimEpoch.matchSenderLinks (s.hosts b) e a + (out.map (σ.share e a b)).sum := by
    rcases eq_or_ne b h with rfl | hne
    · rw [PimNet.update_self] at hb ⊢
      exact hstep.send hb a
    · rw [PimNet.update_ne _ hne, hstep.other a b hne, add_zero]
  unfold Balanced at hbal ⊢
  rw [hsend, hbal, hrecv, transit_update, add_assoc]

lemma Agreed.erase (hs : σ.Agreed e s) {p : PimPacket} (hp : p ∈ s.inFlight)
    (hshare : ∀ a b, σ.share e a b p = 0) :
    σ.Agreed e { s with inFlight := s.inFlight.erase p } := by
  have hrest : ∀ {q}, q ∈ s.inFlight.erase p → q ∈ s.inFlight := Multiset.mem_of_mem_erase
  refine ⟨⟨hs.all.1, fun q hq => hs.all.2 q (hrest hq)⟩, hs.started,
    fun q hq => hs.returned q (hrest hq), fun a b ha hb => ?_⟩
  have hbal := hs.balanced a b ha hb
  unfold Balanced at hbal ⊢
  rw [transit_erase hp, hshare, zero_add] at hbal
  exact hbal

lemma share_le_entered (hs : σ.Agreed e s) {p : PimPacket} (hp : p ∈ s.inFlight) {a b : HostId}
    (ha : ¬ Gone (s.hosts a) e) (hb : ¬ Gone (s.hosts b) e) :
    σ.share e a b p ≤ entered PimEpoch.matchSenderLinks (s.hosts b) e a := by
  have hbal := hs.balanced a b ha hb
  have hrest : 0 ≤ σ.transit { s with inFlight := s.inFlight.erase p } e a b := by
    refine Multiset.sum_nonneg fun x hx => ?_
    obtain ⟨q, hq, rfl⟩ := Multiset.mem_map.1 hx
    exact share_nonneg hs (Multiset.mem_of_mem_erase hq) a b
  have hrecv : 0 ≤ entered PimEpoch.matchReceiverLinks (s.hosts a) e b := by
    unfold entered
    split
    · rename_i ep hep
      exact (hs.all.1 a e ep hep).tally_nonneg b
    · exact le_rfl
  unfold Balanced at hbal
  rw [transit_erase hp] at hbal
  omega

section Arrival

variable {p : PimPacket} {word : ℤ} {ep : PimEpoch} {r : PimEpoch × List PimPacket}

lemma entered_arrival {links : PimEpoch → List PimVlink} {h k : HostId} {rest : Multiset PimPacket}
    (a : HostId) :
    entered links
        (({ s with inFlight := rest }.update h ((s.hosts h).setEpoch e r.1) r.2).hosts a) e k =
      if a = h then tally PimVlink.target PimVlink.totalLinks k (links r.1)
      else entered links (s.hosts a) e k := by
  split_ifs with hne
  · subst hne
    rw [PimNet.update_self, entered_some ((s.hosts a).setEpoch_self e r.1)]
  · rw [PimNet.update_ne _ hne]

lemma entered_arrival_eq {links : PimEpoch → List PimVlink} {h k : HostId}
    {rest : Multiset PimPacket} (hep : (s.hosts h).epochs e = some ep)
    (hlinks : links r.1 = links ep) (a : HostId) :
    entered links
        (({ s with inFlight := rest }.update h ((s.hosts h).setEpoch e r.1) r.2).hosts a) e k =
      entered links (s.hosts a) e k := by
  rw [entered_arrival a, hlinks]
  split_ifs with ha
  · rw [ha, entered_some hep]
  · rfl

lemma Agreed.accept (hs : σ.Agreed e s) (hp : p ∈ s.inFlight) (hkind : p.kind = .accept)
    (hepoch : p.epoch = e) (hep : (s.hosts (σ.src p.flow)).epochs e = some ep)
    (hword : ep.Overflows σ p → word = ep.clipped σ p)
    (hr : ep.receiveAcceptPkt σ e word p = some r)
    (hall : All (PimEpoch.Ledger σ) σ.GoodLinks
      ({ s with inFlight := s.inFlight.erase p }.update (σ.src p.flow)
        ((s.hosts (σ.src p.flow)).setEpoch e r.1) r.2)) :
    σ.Agreed e ({ s with inFlight := s.inFlight.erase p }.update (σ.src p.flow)
      ((s.hosts (σ.src p.flow)).setEpoch e r.1) r.2) := by
  subst hepoch
  have hcap := hs.all.1 _ _ ep hep
  obtain ⟨htally, hout⟩ := hcap.toCapacity.receiveAcceptPkt_tally
    (hs.all.2 p hp (by simp [hkind])) hkind hword hr
  have hlinks := (PimEpoch.receiveAcceptPkt_sender hr).2.1
  refine hs.update (Multiset.erase_le ..) hall (gone_setEpoch hep) (started_setEpoch hep)
    (fun q hq _ _ => (hout q hq).2.2.2) fun a b _ _ hbal => ?_
  unfold Balanced at hbal ⊢
  rw [transit_erase hp] at hbal
  rw [entered_arrival_eq hep hlinks b, entered_arrival a, transit_update, hbal]
  split_ifs with ha
  · subst ha
    rw [entered_some hep]
    have hmoved := htally b
    omega
  · have hzero : (r.2.map (σ.share p.epoch a b)).sum = 0 := by
      refine sum_map_eq_zero fun q hq => if_neg fun hall => ha ?_
      rw [← hall.2.2.1, (hout q hq).2.1]
    have hp₀ : σ.share p.epoch a b p = 0 := if_neg fun hall => ha hall.2.2.1.symm
    omega

lemma Agreed.grantsR (hs : σ.Agreed e s) (hp : p ∈ s.inFlight) (hkind : p.kind = .grantsR)
    (hepoch : p.epoch = e) (hsrc : ((s.hosts (σ.src p.flow)).epochs e).isSome)
    (hep : (s.hosts (σ.dst p.flow)).epochs e = some ep) {ep' : PimEpoch}
    (hr : ep.receiveGrantsr σ p = some ep')
    (hall : All (PimEpoch.Ledger σ) σ.GoodLinks
      ({ s with inFlight := s.inFlight.erase p }.update (σ.dst p.flow)
        ((s.hosts (σ.dst p.flow)).setEpoch e ep') [])) :
    σ.Agreed e ({ s with inFlight := s.inFlight.erase p }.update (σ.dst p.flow)
      ((s.hosts (σ.dst p.flow)).setEpoch e ep') []) := by
  subst hepoch
  have hcap := hs.all.1 _ _ ep hep
  have hpos := hs.returned p hp hkind rfl
  have hle := share_le_entered hs hp (a := σ.src p.flow) (b := σ.dst p.flow)
    (fun hg => by simp [hg.1] at hsrc) (fun hg => nomatch hep.symm.trans hg.1)
  rw [entered_some hep, share, if_pos ⟨.inr hkind, rfl, rfl, rfl⟩] at hle
  have htally := PimEpoch.receiveGrantsr_tally hcap.txNodup hpos hle hr
  have hlinks := PimEpoch.receiveGrantsr_receiver hr
  refine hs.update (Multiset.erase_le ..) hall (gone_setEpoch hep) (started_setEpoch hep) (by simp)
    fun a b _ _ hbal => ?_
  unfold Balanced at hbal ⊢
  rw [transit_erase hp] at hbal
  rw [entered_arrival (r := (ep', [])) b, transit_update, List.map_nil, List.sum_nil, add_zero]
  have hmoved := htally a
  split_ifs with hb
  · subst hb
    rw [entered_some hep] at hbal
    rw [entered_arrival_eq (r := (ep', [])) hep hlinks a]
    dsimp only
    have hshare : σ.share p.epoch a (σ.dst p.flow) p =
        if σ.src p.flow = a then p.totalLinks else 0 := by
      simp [share, Moves, hkind]
    omega
  · rw [entered_arrival_eq (r := (ep', [])) hep hlinks a]
    have hp₀ : σ.share p.epoch a b p = 0 := if_neg fun hall => hb hall.2.2.2.symm
    omega

lemma Agreed.receive (hs : σ.Agreed e s) (hp : p ∈ s.inFlight)
    (hep : (s.hosts (σ.target p)).epochs p.epoch = some ep)
    (hboth : p.epoch = e → ((s.hosts (σ.src p.flow)).epochs e).isSome)
    (hword : p.epoch = e → p.kind = .accept → ep.Overflows σ p → word = ep.clipped σ p)
    (hr : σ.receive ep p word = some r)
    (hall : All (PimEpoch.Ledger σ) σ.GoodLinks
      ({ s with inFlight := s.inFlight.erase p }.update (σ.target p)
        ((s.hosts (σ.target p)).setEpoch p.epoch r.1) r.2)) :
    σ.Agreed e ({ s with inFlight := s.inFlight.erase p }.update (σ.target p)
      ((s.hosts (σ.target p)).setEpoch p.epoch r.1) r.2) := by
  unfold PimSpec.receive at hr
  by_cases hepoch : p.epoch = e
  · cases hkind : p.kind with
    | req =>
      rw [hkind] at hr
      obtain ⟨ep', hep', rfl⟩ := Option.map_eq_some_iff.1 hr
      obtain ⟨hrecv, hsend⟩ := PimEpoch.receiveReq_links hep'
      have hs' := hs.erase hp fun a b => share_eq_zero (.inl (by simp [Moves, hkind])) a b
      exact hs'.hostStep (hostStep_setEpoch hep hrecv (by simp [hsend]) (by simp)) hall
    | grants =>
      rw [hkind] at hr
      obtain ⟨ep', hep', rfl⟩ := Option.map_eq_some_iff.1 hr
      obtain ⟨hrecv, hsend⟩ := PimEpoch.receiveGrants_links hep'
      have hs' := hs.erase hp fun a b => share_eq_zero (.inl (by simp [Moves, hkind])) a b
      exact hs'.hostStep (hostStep_setEpoch hep hrecv (by simp [hsend]) (by simp)) hall
    | accept =>
      rw [hkind] at hr
      have htarget : σ.target p = σ.src p.flow := by simp [target, hkind]
      rw [htarget] at hep hall ⊢
      subst hepoch
      exact hs.accept hp hkind rfl hep (hword rfl hkind) hr hall
    | grantsR =>
      rw [hkind] at hr
      obtain ⟨ep', hep', rfl⟩ := Option.map_eq_some_iff.1 hr
      have htarget : σ.target p = σ.dst p.flow := by simp [target, hkind]
      rw [htarget] at hep hall ⊢
      subst hepoch
      exact hs.grantsR hp hkind rfl (hboth rfl) hep hep' hall
  · have hout : ∀ q ∈ r.2, q.epoch = p.epoch := by
      cases hkind : p.kind with
      | accept =>
        rw [hkind] at hr
        exact PimEpoch.receiveAcceptPkt_epoch hr
      | _ =>
        rw [hkind] at hr
        obtain ⟨ep', -, rfl⟩ := Option.map_eq_some_iff.1 hr
        simp
    have hs' := hs.erase hp fun a b => share_eq_zero (.inr hepoch) a b
    exact hs'.hostStep (hostStep_setEpoch_ne hep (Ne.symm hepoch) hout) hall

end Arrival

lemma arrives_ne_none {p : PimPacket} (hmoves : Moves p)
    (hfinished : (s.flows p.flow).finished = false)
    (hsrc : ((s.hosts (σ.src p.flow)).epochs p.epoch).isSome)
    (hdst : ((s.hosts (σ.dst p.flow)).epochs p.epoch).isSome) : σ.arrives s p ≠ none := by
  intro harr
  unfold arrives at harr
  rw [if_neg (by simpa using hfinished)] at harr
  rcases hmoves with hkind | hkind
  · simp only [target, hkind] at harr
    simp [harr] at hsrc
  · simp only [target, hkind] at harr
    simp [harr] at hdst

/-- **What a step keeps**, if the packets of the epoch are delivered and carry what they should. -/
theorem agreed_next {a : PimAct} (hs : σ.Agreed e s) (hD : σ.Delivered e s a ∧ σ.Carried e s a)
    (hn : σ.next s a = some t) : σ.Agreed e t := by
  have hall : All (PimEpoch.Ledger σ) σ.GoodLinks t :=
    keeps_ledger.step hs.all (fun _ _ _ _ _ => trivial) hn
  obtain ⟨hD, hC⟩ := hD
  cases a with
  | newEpoch h b =>
    obtain ⟨i, hi, hn⟩ := Option.bind_eq_some_iff.1 hn
    obtain ⟨host, hhost, rfl⟩ := Option.map_eq_some_iff.1 hn
    exact hs.hostStep (hostStep_startNewEpoch hi hhost) hall
  | receiverIter h i order links best =>
    obtain ⟨ep, hep, hn⟩ := Option.bind_eq_some_iff.1 hn
    split_ifs at hn
    obtain ⟨r, hr, rfl⟩ := Option.map_eq_some_iff.1 hn
    have hstep := hostStep_scheduleReceiverIterEvt (e := e) (hs.started h) hep
      (hs.all.1 h i ep hep) hr
    exact hs.hostStep hstep hall
  | senderIter h i order =>
    obtain ⟨ep, hep, hn⟩ := Option.bind_eq_some_iff.1 hn
    split_ifs at hn
    obtain ⟨r, hr, rfl⟩ := Option.map_eq_some_iff.1 hn
    exact hs.hostStep (hostStep_scheduleSenderIterEvt hep hr) hall
  | deliver p word =>
    simp only [next] at hn
    split_ifs at hn with hp
    cases harr : σ.arrives { s with inFlight := s.inFlight.erase p } p with
    | none =>
      rw [harr] at hn
      obtain rfl := Option.some.inj hn
      refine hs.erase hp (share_eq_zero ?_)
      -- a packet of the epoch that carries links would have arrived
      by_contra hmoves
      push Not at hmoves
      obtain ⟨hmoves, hepoch⟩ := hmoves
      obtain ⟨hsrc, hdst⟩ := hD hepoch
      subst hepoch
      exact arrives_ne_none hmoves (hC rfl hmoves).1 hsrc hdst harr
    | some ep =>
      rw [harr] at hn
      obtain ⟨r, hr, rfl⟩ := Option.map_eq_some_iff.1 hn
      have hep : (s.hosts (σ.target p)).epochs p.epoch = some ep := by
        unfold arrives at harr
        split_ifs at harr
        exact harr
      refine hs.receive hp hep (fun he => (hD he).1) (fun he hkind ho => ?_) hr hall
      subst he
      exact (hC rfl (.inl hkind)).2 ep hep ⟨hkind, ho⟩
  | lose p =>
    simp only [next] at hn
    split_ifs at hn with hp
    obtain rfl := Option.some.inj hn
    exact hs.erase hp (share_eq_zero (.inr hD))
  | flow f state =>
    simp only [next] at hn
    split_ifs at hn
    obtain rfl := Option.some.inj hn
    exact ⟨hall, hs.started, hs.returned, hs.balanced⟩

lemma Agreed.agrees (hs : σ.Agreed e s) : Agrees e s := by
  intro hnone a b ep ep' hep hep'
  have hbal := hs.balanced a b (fun hg => nomatch hep.symm.trans hg.1)
    (fun hg => nomatch hep'.symm.trans hg.1)
  have hzero : σ.transit s e a b = 0 := by
    refine Multiset.sum_eq_zero fun x hx => ?_
    obtain ⟨p, hp, rfl⟩ := Multiset.mem_map.1 hx
    exact share_eq_zero (.inr (hnone p hp)) a b
  unfold Balanced at hbal
  rw [entered_some hep', entered_some hep, hzero, add_zero] at hbal
  exact hbal

lemma agreed_init : σ.Agreed e σ.machine.init := by
  refine ⟨all_init, fun h n _ i ep hep => (nomatch hep), fun p hp => ?_, fun a b _ _ => ?_⟩
  · exact absurd hp (Multiset.notMem_zero p)
  · rfl

/-- **The two sides of the matching agree** in every run where the packets of the epoch are
delivered to both sides, none arrives after its flow is finished, and each `GrantsR` carries what
is returned. -/
theorem agrees_of_carried {as : List PimAct}
    (hrun : Along σ.machine (fun s a => σ.Delivered e s a ∧ σ.Carried e s a) σ.machine.init as) :
    Always σ.machine (Agrees e) σ.machine.init as := by
  have hall : Always σ.machine (σ.Agreed e) σ.machine.init as :=
    hrun.always (fun hs hC hn => agreed_next hs hC hn) agreed_init
  exact hall.mono fun _ hs => hs.agrees

/-- The `GrantsR` carries the link that is returned. -/
theorem agrees_of_carried_lateReturn :
    Always (ofLinks 1 (by decide)).machine (Agrees 0) (ofLinks 1 (by decide)).machine.init
      (lateReturn 1) :=
  agrees_of_carried (by decide +kernel)

/-- The `GrantsR` carries no link. -/
theorem not_agrees_lateReturn :
    ¬ ∀ (σ : PimSpec) e as, Along σ.machine (σ.Delivered e) σ.machine.init as →
      Always σ.machine (Agrees e) σ.machine.init as := by
  intro hall
  have hrun : ∃ s, exec (ofLinks 1 (by decide)).machine (ofLinks 1 (by decide)).machine.init
      (lateReturn 0) = some s ∧ s.inFlight = 0 ∧
        ((s.hosts 0).epochs 0).any (fun ep =>
          tally PimVlink.target PimVlink.totalLinks 2 ep.matchReceiverLinks = 0) ∧
        ((s.hosts 2).epochs 0).any (fun ep =>
          tally PimVlink.target PimVlink.totalLinks 0 ep.matchSenderLinks = 1) :=
    exists_exec_of_any (by decide +kernel)
  obtain ⟨s, hs, hflight, hsend, hrecv⟩ := hrun
  obtain ⟨ep, hep, hsend⟩ := (Option.any_eq_true _ _).1 hsend
  obtain ⟨ep', hep', hrecv⟩ := (Option.any_eq_true _ _).1 hrecv
  have hagrees := (hall _ 0 (lateReturn 0) (by decide +kernel)).last hs
  have heq := hagrees (by simp [hflight]) 0 2 ep ep' hep hep'
  rw [of_decide_eq_true hsend, of_decide_eq_true hrecv] at heq
  exact absurd heq (by decide)

end PimSpec

end DcSim
