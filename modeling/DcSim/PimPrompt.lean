import DcSim.PimCapacity

/-!
The prompt links of the matching of PIM.

A prompt link can be used at once, if the epoch before left it free. The number of prompt links of
the receiving side is checked where grants are accepted, but that of the sending side only where
they are made: an ACCEPT is clipped to the links that are left and not to the prompt links. Grants
made while an ACCEPT is on its way can be for prompt links that it takes, and the prompt links stay
within the capacity exactly as long as each ACCEPT that arrives finds them.
-/

namespace DcSim

open Runs Word32

namespace PimEpoch

variable {σ : PimSpec} {ep : PimEpoch} {p : PimPacket}

/-- The prompt links of an offer or a packet. -/
def Prompt (prompt total : ℤ) : Prop := 0 ≤ prompt ∧ prompt ≤ total

structure PromptCapacity (σ : PimSpec) (ep : PimEpoch) : Prop extends Capacity σ ep where
  txPrompt : ep.numTxPromptLink ≤ σ.pimK
  rxPrompt : ep.numRxPromptLink ≤ σ.pimK
  reqsPrompt : ∀ q ∈ ep.reqQ, Prompt q.promptLinks q.totalLinks
  grantsPrompt : ∀ g ∈ ep.grantsQ, Prompt g.promptLinks g.totalLinks

/-- An ACCEPT finds the prompt links it takes: those it brings, or as many as there are links
left. -/
def FitsPrompt (σ : PimSpec) (ep : PimEpoch) (p : PimPacket) : Prop :=
  min p.promptLinks (σ.pimK - ep.numRxLink) ≤ σ.pimK - ep.numRxPromptLink

instance : Decidable (ep.FitsPrompt σ p) := by unfold FitsPrompt; infer_instance

end PimEpoch

namespace PimSpec

variable (σ : PimSpec)

/-- The prompt links of a packet, and its links. -/
def GoodPrompt (p : PimPacket) : Prop :=
  σ.GoodLinks p ∧ (p.kind ≠ .grantsR → PimEpoch.Prompt p.promptLinks p.totalLinks)

/-- Prompt links stay within the capacity. -/
def PromptWithin (s : PimNet) : Prop :=
  (∀ h e ep, (s.hosts h).epochs e = some ep →
    ep.numTxPromptLink ≤ σ.pimK ∧ ep.numRxPromptLink ≤ σ.pimK) ∧
  ∀ p ∈ s.inFlight, p.kind ≠ .grantsR → 0 ≤ p.promptLinks ∧ p.promptLinks ≤ p.totalLinks

/-- The ACCEPTs that arrive find the prompt links they take. -/
def AcceptsFit (s : PimNet) (a : PimAct) : Prop :=
  σ.Arrivals (fun ep p _ => p.kind = .accept → ep.FitsPrompt σ p) s a

end PimSpec

namespace PimEpoch

variable {σ : PimSpec} {ep : PimEpoch} {p : PimPacket}

lemma PromptCapacity.advanceIter (h : PromptCapacity σ ep) : PromptCapacity σ ep.advanceIter :=
  { h.toCapacity.advanceIter, h with
    reqsPrompt := by simp [PimEpoch.advanceIter]
    grantsPrompt := by simp [PimEpoch.advanceIter] }

lemma PromptCapacity.receiveReq (h : PromptCapacity σ ep) (hp : σ.Links p.totalLinks)
    (hprompt : Prompt p.promptLinks p.totalLinks) {ep' : PimEpoch}
    (hr : ep.receiveReq p = some ep') : PromptCapacity σ ep' := by
  have hcap := h.toCapacity.receiveReq hp hr
  unfold PimEpoch.receiveReq at hr
  split_ifs at hr <;> obtain rfl := Option.some.inj hr
  · exact h
  · refine { hcap, h with reqsPrompt := fun q hq => ?_ }
    rcases List.mem_append.1 hq with hq | hq
    · exact h.reqsPrompt q hq
    · obtain rfl := List.mem_singleton.1 hq
      exact hprompt

lemma PromptCapacity.receiveGrants (h : PromptCapacity σ ep) (hp : σ.Links p.totalLinks)
    (hprompt : Prompt p.promptLinks p.totalLinks) {ep' : PimEpoch}
    (hr : ep.receiveGrants p = some ep') : PromptCapacity σ ep' := by
  have hcap := h.toCapacity.receiveGrants hp hr
  unfold PimEpoch.receiveGrants at hr
  split_ifs at hr <;> obtain rfl := Option.some.inj hr
  · exact h
  · refine { hcap, h with grantsPrompt := fun q hq => ?_ }
    rcases List.mem_append.1 hq with hq | hq
    · exact h.grantsPrompt q hq
    · obtain rfl := List.mem_singleton.1 hq
      exact hprompt

lemma PromptCapacity.receiveGrantsr (h : PromptCapacity σ ep) {ep' : PimEpoch}
    (hr : ep.receiveGrantsr σ p = some ep') : PromptCapacity σ ep' := by
  have hcap := h.toCapacity.receiveGrantsr hr
  unfold PimEpoch.receiveGrantsr at hr
  split_ifs at hr <;> obtain rfl := Option.some.inj hr
  · exact h
  · exact { hcap, h with }

lemma Capacity.prompt_eq (h : Capacity σ ep) (hp : σ.Links p.totalLinks)
    (hprompt : Prompt p.promptLinks p.totalLinks) :
    p.promptLinks - ep.clippedPrompt σ p = min p.promptLinks (σ.pimK - ep.numRxLink) := by
  have hover := h.overflows_iff hp
  have hclip := h.clipped_eq hp
  obtain ⟨h₁, h₂⟩ := hprompt
  unfold clippedPrompt
  rw [hclip]
  split_ifs with hc
  · have hlt := hover.1 hc.1
    have := hc.2
    omega
  · by_cases hlt : (σ.pimK : ℤ) < ep.numRxLink + p.totalLinks
    · have hle : ¬ p.totalLinks - max 0 (ep.numRxLink + p.totalLinks - σ.pimK) < p.promptLinks :=
        fun hlt' => hc ⟨hover.2 hlt, hlt'⟩
      omega
    · omega

lemma Capacity.receiveAcceptPkt_prompt (h : Capacity σ ep) (hp : σ.Links p.totalLinks)
    (hprompt : Prompt p.promptLinks p.totalLinks) (hrx : ep.numRxPromptLink ≤ σ.pimK) {e : ℕ}
    {word : ℤ} {r : PimEpoch × List PimPacket}
    (hr : ep.receiveAcceptPkt σ e word p = some r) :
    (r.1.numRxPromptLink : ℤ) =
        ep.numRxPromptLink + min p.promptLinks (σ.pimK - ep.numRxLink) ∧
      r.1.numTxPromptLink = ep.numTxPromptLink ∧ r.1.reqQ = ep.reqQ ∧
      r.1.grantsQ = ep.grantsQ ∧ ∀ q ∈ r.2, q.kind = .grantsR := by
  have hclip := h.clipped_eq hp
  have heq := h.prompt_eq hp hprompt
  have hle := h.rxLe
  obtain ⟨h₁, -, hK⟩ := hp
  have h₀ := hprompt.1
  have hout : ∀ q ∈ (if ep.Overflows σ p then
      [⟨.grantsR, p.flow, ep.iter, e, 0, word, ep.clippedPrompt σ p⟩] else [] : List PimPacket),
      q.kind = .grantsR := by
    intro q hq
    split_ifs at hq
    · obtain rfl := List.mem_singleton.1 hq
      rfl
    · exact absurd hq List.not_mem_nil
  unfold PimEpoch.receiveAcceptPkt at hr
  dsimp only at hr
  generalize (if ep.Overflows σ p then _ else _) = out at hr hout
  split_ifs at hr with h0 hfit <;> obtain rfl := Option.some.inj hr
  · refine ⟨?_, rfl, rfl, rfl, hout⟩
    rw [hclip] at h0
    dsimp only
    omega
  · refine ⟨?_, rfl, rfl, rfl, hout⟩
    dsimp only
    rw [heq]
    exact ofInt32_eq (by omega) (by omega)

lemma PromptCapacity.receiveAcceptPkt (h : PromptCapacity σ ep) (hp : σ.Links p.totalLinks)
    (hprompt : Prompt p.promptLinks p.totalLinks) (hfit : ep.FitsPrompt σ p) {e : ℕ} {word : ℤ}
    {r : PimEpoch × List PimPacket} (hr : ep.receiveAcceptPkt σ e word p = some r) :
    PromptCapacity σ r.1 ∧ ∀ q ∈ r.2, σ.GoodPrompt q := by
  obtain ⟨hcap, hgood⟩ := h.toCapacity.receiveAcceptPkt hp hr
  obtain ⟨hrx, htx, hreqs, hgrants, hkind⟩ :=
    h.toCapacity.receiveAcceptPkt_prompt hp hprompt h.rxPrompt hr
  unfold FitsPrompt at hfit
  have hrxLe : r.1.numRxPromptLink ≤ σ.pimK := by omega
  refine ⟨⟨hcap, ?_, hrxLe, ?_, ?_⟩, fun q hq => ?_⟩
  · rw [htx]
    exact h.txPrompt
  · rw [hreqs]
    exact h.reqsPrompt
  · rw [hgrants]
    exact h.grantsPrompt
  · exact ⟨hgood q hq, fun hne => absurd (hkind q hq) hne⟩

/-! ### The rounds -/

lemma PromptCapacity.handleAllGrants (h : PromptCapacity σ ep) {e : ℕ} {order : List PimOffer}
    {r : PimEpoch × List PimPacket} (hr : ep.handleAllGrants σ e order = some r) :
    PromptCapacity σ r.1 ∧ ∀ q ∈ r.2, σ.GoodPrompt q := by
  obtain ⟨hcap, hgood⟩ := h.toCapacity.handleAllGrants hr
  obtain rfl | ⟨hperm, hne, hr⟩ := handleAllGrants_cases hr
  · exact ⟨h, by simp⟩
  have hlinks : ∀ g ∈ order, σ.Links g.totalLinks := fun g hg => h.grants g (hperm.subset hg)
  have hprompt : ∀ g ∈ order, Prompt g.promptLinks g.totalLinks :=
    fun g hg => h.grantsPrompt g (hperm.subset hg)
  have hsmall : ∀ g ∈ order, σ.pimK < 2147483648 := fun g hg => (hlinks g hg).2.2
  have hb₀ : order ≠ [] → σ.avail ep.numTxPromptLink = σ.pimK - ep.numTxPromptLink := by
    intro hne
    obtain ⟨g, hg⟩ := List.exists_mem_of_ne_nil order hne
    exact PimSpec.avail_eq h.txPrompt (hsmall g hg)
  -- the prompt links that are left are what the counter leaves of the capacity
  obtain ⟨⟨ep', a', b', gs, ⟨htx, -, hrx, hreqs⟩, heq, hgs⟩, hG⟩ :=
    acceptLoop_rule (J := fun x a b => x.numTxPromptLink ≤ σ.pimK ∧
        (order ≠ [] → b = σ.pimK - x.numTxPromptLink) ∧
        x.numRxPromptLink = ep.numRxPromptLink ∧ x.reqQ = ep.reqQ)
      (G := fun q => Prompt q.promptLinks q.totalLinks)
      (fun {x a b g} ⟨htx, hb, hrx, hreqs⟩ ha hg => by
        obtain ⟨h₁, h₂, h₃⟩ := hlinks g hg
        obtain ⟨h₄, h₅⟩ := hprompt g hg
        have hb := hb (List.ne_nil_of_mem hg)
        have hof := ofInt32_eq (z := x.numTxPromptLink +
          min (min a g.totalLinks) (min b g.promptLinks)) (by omega) (by omega)
        unfold acceptGrant
        exact ⟨⟨by dsimp only; omega, fun _ => by dsimp only; omega, hrx, hreqs⟩,
          by dsimp only; omega, by dsimp only; omega⟩)
      ⟨h.txPrompt, hb₀, rfl, rfl⟩ hr
  refine ⟨⟨hcap, ?_, ?_, ?_, ?_⟩, fun q hq => ⟨hgood q hq, fun _ => hG q hq⟩⟩
  · rw [heq]
    exact htx
  · rw [heq]
    exact hrx ▸ h.rxPrompt
  · rw [heq]
    exact hreqs ▸ h.reqsPrompt
  · rw [heq]
    exact fun g hg => hprompt g (hgs g hg)

lemma PromptCapacity.scheduleSenderIterEvt (h : PromptCapacity σ ep) {e : ℕ}
    {order : List PimOffer} {r : PimEpoch × List PimPacket}
    (hr : ep.scheduleSenderIterEvt σ e order = some r) :
    PromptCapacity σ r.1 ∧ ∀ q ∈ r.2, σ.GoodPrompt q := by
  obtain ⟨hcap, hgood⟩ := h.toCapacity.scheduleSenderIterEvt hr
  obtain rfl | rfl | ⟨hperm, r', hr', rfl⟩ := scheduleSenderIterEvt_cases hr
  · exact ⟨{ hcap, h with }, by simp⟩
  · exact ⟨h, by simp⟩
  have hlinks : ∀ q ∈ order, σ.Links q.totalLinks := fun q hq => h.reqs q (hperm.subset hq)
  have hprompt : ∀ q ∈ order, Prompt q.promptLinks q.totalLinks :=
    fun q hq => h.reqsPrompt q (hperm.subset hq)
  have hb₀ : order ≠ [] → 0 ≤ σ.avail ep.numRxPromptLink := by
    intro hne
    obtain ⟨q, hq⟩ := List.exists_mem_of_ne_nil order hne
    have hav := PimSpec.avail_eq h.rxPrompt (hlinks q hq).2.2
    have hle := h.rxPrompt
    omega
  obtain ⟨hG, hleft⟩ := grantLoop_rule (J := fun _ b => order ≠ [] → 0 ≤ b)
    (G := fun q => Prompt q.promptLinks q.totalLinks)
    (fun {a b q} hb ha hq => by
      obtain ⟨h₁, h₂, h₃⟩ := hlinks q hq
      obtain ⟨h₄, h₅⟩ := hprompt q hq
      have hb := hb (List.ne_nil_of_mem hq)
      exact ⟨fun _ => by omega, by dsimp only; omega, by dsimp only; omega⟩)
    hb₀ hr'
  exact ⟨{ hcap, h with reqsPrompt := fun q hq => hprompt q (hleft q hq) },
    fun q hq => ⟨hgood q hq, fun _ => hG q hq⟩⟩

lemma PromptCapacity.sendAllReq (h : PromptCapacity σ ep) {e : ℕ} {links : List PimVlink}
    {remaining : FlowId → ℤ} {best : List FlowId} {out : List PimPacket}
    (hout : ep.sendAllReq σ e links remaining best = some out) : ∀ q ∈ out, σ.GoodPrompt q := by
  have hgood := h.toCapacity.sendAllReq hout
  have hprompt : ∀ q ∈ out, Prompt q.promptLinks q.totalLinks := by
    refine sendAllReq_rule (fun {f out} hne hf => ?_) hout
    obtain rfl | ⟨n, hn, hprompt, rfl⟩ := sendReq_cases hf
    · simp
    · intro q hq
      obtain rfl := List.mem_singleton.1 hq
      exact ⟨hprompt, min_le_left ..⟩
  exact fun q hq => ⟨hgood q hq, fun _ => hprompt q hq⟩

end PimEpoch

namespace PimSpec

variable {σ : PimSpec}

/-- **The matching keeps the prompt links within the capacity**, as long as the ACCEPTs fit. -/
theorem keeps_promptCapacity :
    σ.Keeps (fun ep p _ => p.kind = .accept → ep.FitsPrompt σ p)
      (fun _ => PimEpoch.PromptCapacity σ) σ.GoodPrompt where
  first := ⟨PimEpoch.capacity_new .., Nat.zero_le _, Nat.zero_le _, by simp, by simp⟩
  start h := ⟨PimEpoch.capacity_new .., h.txLe, h.rxLe, by simp, by simp⟩
  receive {ep p word r} h hp hfit hr := by
    unfold receive at hr
    split at hr
    · rename_i hkind
      obtain ⟨ep', hep', rfl⟩ := Option.map_eq_some_iff.1 hr
      have hne : p.kind ≠ .grantsR := by simp [hkind]
      exact ⟨h.receiveReq (hp.1 hne) (hp.2 hne) hep', by simp⟩
    · rename_i hkind
      obtain ⟨ep', hep', rfl⟩ := Option.map_eq_some_iff.1 hr
      have hne : p.kind ≠ .grantsR := by simp [hkind]
      exact ⟨h.receiveGrants (hp.1 hne) (hp.2 hne) hep', by simp⟩
    · rename_i hkind
      have hne : p.kind ≠ .grantsR := by simp [hkind]
      exact h.receiveAcceptPkt (hp.1 hne) (hp.2 hne) (hfit hkind) hr
    · obtain ⟨ep', hep', rfl⟩ := Option.map_eq_some_iff.1 hr
      exact ⟨h.receiveGrantsr hep', by simp⟩
  grants h hr := h.handleAllGrants hr
  advance h := h.advanceIter
  sort h hperm :=
    { h with txNodup := (hperm.map _).nodup_iff.2 h.txNodup }
  reqs h hout := h.sendAllReq hout
  requests h hr := h.scheduleSenderIterEvt hr

lemma not_promptWithin {s t : PimNet} {a : PimAct}
    (hs : All (fun _ => PimEpoch.PromptCapacity σ) σ.GoodPrompt s) (hfit : ¬ σ.AcceptsFit s a)
    (hn : σ.next s a = some t) : ¬ σ.PromptWithin t := by
  unfold AcceptsFit Arrivals at hfit
  push Not at hfit
  obtain ⟨p, word, ep, rfl, harr, hkind, hfit⟩ := hfit
  simp only [next] at hn
  split_ifs at hn with hp
  have harr' : σ.arrives { s with inFlight := s.inFlight.erase p } p = some ep := harr
  rw [harr'] at hn
  obtain ⟨r, hr, rfl⟩ := Option.map_eq_some_iff.1 hn
  have hep : (s.hosts (σ.target p)).epochs p.epoch = some ep := by
    unfold arrives at harr
    split_ifs at harr
    exact harr
  have hcap := hs.1 _ _ ep hep
  have hgood := hs.2 p hp
  have hne : p.kind ≠ .grantsR := by simp [hkind]
  simp only [receive, hkind] at hr
  have hrx := (hcap.toCapacity.receiveAcceptPkt_prompt (hgood.1 hne) (hgood.2 hne) hcap.rxPrompt
    hr).1
  intro hwithin
  have hle := (hwithin.1 (σ.target p) p.epoch r.1 (by simp)).2
  unfold PimEpoch.FitsPrompt at hfit
  omega

/-- **Prompt links stay within the capacity in a run exactly when each ACCEPT that arrives finds
the prompt links it takes.** -/
theorem promptWithin_iff (as : List PimAct) :
    Always σ.machine σ.PromptWithin σ.machine.init as ↔
      Along σ.machine σ.AcceptsFit σ.machine.init as :=
  always_iff_along (J := All (fun _ => PimEpoch.PromptCapacity σ) σ.GoodPrompt)
    (fun {_} hs => ⟨fun h e ep hep => ⟨(hs.1 h e ep hep).txPrompt, (hs.1 h e ep hep).rxPrompt⟩,
      fun p hp hne => (hs.2 p hp).2 hne⟩)
    (fun hs hC hn => keeps_promptCapacity.step hs hC hn)
    (fun hs hC hn => not_promptWithin hs hC hn) as all_init

/-- The first epoch gives one link; in the second the ACCEPT of flow `2` arrives after the grant
for flow `3`. -/
def lateAccept : List PimAct :=
  [.newEpoch 0 false, .newEpoch 1 false, .newEpoch 2 false, .newEpoch 3 false,
    .receiverIter 0 0 [] [] [], .receiverIter 1 0 [] [] [1]] ++ handshake 1 1 0 ++
  [.deliver (oneLink .accept 1 1 0) 0,
    .newEpoch 0 false, .newEpoch 1 false, .newEpoch 2 false, .newEpoch 3 false,
    .receiverIter 0 1 [] [] [], .receiverIter 2 1 [] [] [2], .receiverIter 3 1 [] [] []] ++
  handshake 2 1 1 ++ [.receiverIter 3 1 [] [] [3]] ++ handshake 3 2 1 ++
  [.deliver (oneLink .accept 2 1 1) 0, .deliver (oneLink .accept 3 2 1) 0]

theorem not_promptWithin_lateAccept :
    ¬ ∀ (σ : PimSpec) as, Always σ.machine σ.PromptWithin σ.machine.init as := by
  intro hall
  have hrun : ∃ s, exec (ofLinks 2 (by decide)).machine (ofLinks 2 (by decide)).machine.init
      lateAccept = some s ∧ ((s.hosts 0).epochs 1).any (fun ep => ep.numRxPromptLink = 3) :=
    exists_exec_of_any (by decide +kernel)
  obtain ⟨s, hs, hP⟩ := hrun
  obtain ⟨ep, hep, hrx⟩ := (Option.any_eq_true _ _).1 hP
  have hle := (((hall _ lateAccept).last hs).1 0 1 ep hep).2
  rw [of_decide_eq_true hrx] at hle
  exact absurd hle (by decide)

end PimSpec

end DcSim
