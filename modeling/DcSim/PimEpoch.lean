import DcSim.Packet
import DcSim.Upsert
import DcSim.Word32
import Mathlib.Data.Rat.Floor

/-!
The matching of PIM: `PimEpoch`.

In each epoch a host is matched to senders and receivers in rounds of a handshake. As a receiver it
asks for links by `PIMREQ`, a sender answers by `PIMGrants`, and the receiver takes links by
`AcceptPkt`; a sender that gets more links than it has returns the excess by `GrantsR`. The
counters are unsigned 32-bit numbers and the fields of packets and links are `int`s; an addition of
the two wraps like an unsigned one.

A handler that fails an assertion has no result. The order in which the grants and the requests of
a round are taken, at random or sorted, is given from outside, and so is the word that a `GrantsR`
carries: its constructor assigns `total_links` to itself and leaves it as it was allocated.
-/

namespace DcSim

open Word32 Upsert

structure PimSpec where
  pimK : ℕ
  pimIterLimit : ℕ
  pimSelectMinIters : ℕ
  pimLinkPkts : ℤ
  src : FlowId → HostId
  dst : FlowId → HostId
  sizeInPkt : FlowId → ℕ
  startTime : FlowId → Time
  pimK_lt : pimK < 4294967296
  pimLinkPkts_pos : 1 ≤ pimLinkPkts

structure PimVlink where
  target : HostId
  totalLinks : ℤ
  promptLinks : ℤ
  shortestFlowSize : ℤ := 0
  deriving DecidableEq

inductive PimKind | req | grants | accept | grantsR
  deriving DecidableEq

structure PimPacket where
  kind : PimKind
  flow : FlowId
  iter : ℕ
  epoch : ℕ
  remainingSz : ℤ := 0
  totalLinks : ℤ
  promptLinks : ℤ
  deriving DecidableEq

structure PimOffer where
  iter : ℕ
  flow : FlowId
  remainingSz : ℤ
  totalLinks : ℤ
  promptLinks : ℤ
  deriving DecidableEq

structure PimEpoch where
  -- Of the two pending events only whether there is one.
  iter : ℕ := 0
  matchReceiverLinks : List PimVlink := []
  matchSenderLinks : List PimVlink := []
  numTxLink : ℕ := 0
  numTxPromptLink : ℕ
  numRxLink : ℕ := 0
  numRxPromptLink : ℕ
  procSenderIterEvt : Bool := true
  procReceiverIterEvt : Bool := true
  grantsQ : List PimOffer := []
  reqQ : List PimOffer := []
  deriving DecidableEq

/-- `params.pim_k - num`, as an `int`. -/
def PimSpec.avail (σ : PimSpec) (num : ℕ) : ℤ := toInt32 (sub32 σ.pimK num)

/-- The comparison of two offers, by size and then by start. -/
def PimSpec.Before (σ : PimSpec) (a b : PimOffer) : Prop :=
  a.remainingSz < b.remainingSz ∨
    a.remainingSz = b.remainingSz ∧ σ.startTime a.flow < σ.startTime b.flow

instance (σ : PimSpec) (a b : PimOffer) : Decidable (σ.Before a b) := by
  unfold PimSpec.Before; infer_instance

namespace PimEpoch

variable (σ : PimSpec) (e : ℕ) (ep : PimEpoch)

def advanceIter : PimEpoch := { ep with iter := ep.iter + 1, reqQ := [], grantsQ := [] }

def offer (p : PimPacket) : PimOffer :=
  ⟨p.iter, p.flow, p.remainingSz, p.totalLinks, p.promptLinks⟩

def receiveReq (p : PimPacket) : Option PimEpoch :=
  if p.iter < ep.iter then some ep
  else if p.iter = ep.iter then some { ep with reqQ := ep.reqQ ++ [offer p] } else none

def receiveGrants (p : PimPacket) : Option PimEpoch :=
  if p.iter < ep.iter then some ep
  else if p.iter = ep.iter then some { ep with grantsQ := ep.grantsQ ++ [offer p] } else none

/-- The links of `receive_grantsr`. -/
def returnLinks (p : PimPacket) (l : PimVlink) : PimVlink :=
  { l with
    totalLinks := if l.totalLinks < p.totalLinks then 0 else l.totalLinks - p.totalLinks
    promptLinks := if l.promptLinks < p.promptLinks then 0 else l.promptLinks - p.promptLinks }

/-- `receive_grantsr`: the first link to the sender is reduced. -/
def receiveGrantsr (p : PimPacket) : Option PimEpoch :=
  if p.totalLinks = 0 then some ep
  else if ep.matchSenderLinks.any (·.target = σ.src p.flow) then
    some { ep with
      matchSenderLinks :=
        modifyFirst PimVlink.target (σ.src p.flow) (returnLinks p) ep.matchSenderLinks }
  else none

/-- An ACCEPT brings more links than there are. -/
def Overflows (p : PimPacket) : Prop := σ.pimK < ofInt32 (ep.numRxLink + p.totalLinks)

instance (p : PimPacket) : Decidable (ep.Overflows σ p) := by unfold Overflows; infer_instance

/-- `diff` of `receive_accept_pkt`, the links that are returned. -/
def clipped (p : PimPacket) : ℤ :=
  if ep.Overflows σ p then toInt32 (ofInt32 (p.totalLinks + ep.numRxLink - σ.pimK)) else 0

/-- `prompt_diff` of `receive_accept_pkt`. -/
def clippedPrompt (p : PimPacket) : ℤ :=
  if ep.Overflows σ p ∧ p.totalLinks - ep.clipped σ p < p.promptLinks then
    p.promptLinks - (p.totalLinks - ep.clipped σ p)
  else 0

/-- More links with a host, and the size of the flow they are for if the link is new. -/
def addLinks (target : HostId) (total prompt size : ℤ) (ls : List PimVlink) : List PimVlink :=
  upsert PimVlink.target target
    (fun l => { l with
      totalLinks := l.totalLinks + total, promptLinks := l.promptLinks + prompt })
    ⟨target, total, prompt, size⟩ ls

/-- `receive_accept_pkt`; `word` is what the `GrantsR` carries. -/
def receiveAcceptPkt (word : ℤ) (p : PimPacket) : Option (PimEpoch × List PimPacket) :=
  let total := p.totalLinks - ep.clipped σ p
  let prompt := p.promptLinks - ep.clippedPrompt σ p
  let out : List PimPacket :=
    if ep.Overflows σ p then
      [⟨.grantsR, p.flow, ep.iter, e, 0, word, ep.clippedPrompt σ p⟩]
    else []
  if total = 0 then some (ep, out)
  else
    let ep := { ep with
      matchReceiverLinks := addLinks (σ.dst p.flow) total prompt 0 ep.matchReceiverLinks
      numRxLink := ofInt32 (ep.numRxLink + total)
      numRxPromptLink := ofInt32 (ep.numRxPromptLink + prompt) }
    if ep.numRxLink ≤ σ.pimK then some (ep, out) else none

/-- The request for the best flow of a source; `hostLinks` are the links of the epoch before. -/
def sendReq (hostLinks : List PimVlink) (remaining : FlowId → ℤ) (f : FlowId) :
    Option (List PimPacket) :=
  let grantSize := tally PimVlink.target PimVlink.totalLinks (σ.src f) hostLinks +
    tally PimVlink.target PimVlink.totalLinks (σ.src f) ep.matchSenderLinks
  if grantSize * σ.pimLinkPkts < remaining f then
    let need := min (⌈(remaining f / σ.pimLinkPkts : ℚ)⌉ - grantSize) (σ.avail ep.numTxLink)
    let prompt := min need (σ.avail ep.numTxPromptLink)
    if 0 ≤ prompt then some [⟨.req, f, ep.iter, e, remaining f, need, prompt⟩] else none
  else some []

/-- The requests for the best flows of the sources. -/
def sendReqs (hostLinks : List PimVlink) (remaining : FlowId → ℤ) :
    List FlowId → Option (List PimPacket)
  | [] => some []
  | f :: fs =>
    (ep.sendReq σ e hostLinks remaining f).bind fun out =>
      (sendReqs hostLinks remaining fs).map (out ++ ·)

def sendAllReq (hostLinks : List PimVlink) (remaining : FlowId → ℤ) (best : List FlowId) :
    Option (List PimPacket) :=
  if ep.numTxLink = σ.pimK then some [] else ep.sendReqs σ e hostLinks remaining best

/-- The grants of the requests, taken in order while there are links. -/
def grantLoop : ℤ → ℤ → List PimOffer → Option (List PimPacket × List PimOffer)
  | _, _, [] => some ([], [])
  | avail, availPrompt, q :: qs =>
    if 0 < avail then
      if q.iter ≠ ep.iter then
        if q.iter < ep.iter then grantLoop avail availPrompt qs else none
      else
        let need := min avail q.totalLinks
        let prompt := min (min need q.promptLinks) availPrompt
        (grantLoop (avail - need) (availPrompt - prompt) qs).map fun r =>
          (⟨.grants, q.flow, ep.iter, e, q.remainingSz, need, prompt⟩ :: r.1, r.2)
    else some ([], q :: qs)

/-- The order of a queue, sorted in the first iterations. -/
def Order (q order : List PimOffer) : Prop :=
  order.Perm q ∧ (0 < σ.pimSelectMinIters ∧ ep.iter ≤ σ.pimSelectMinIters →
    order.Pairwise fun a b => ¬ σ.Before b a)

instance (q order : List PimOffer) : Decidable (ep.Order σ q order) := by
  unfold Order; infer_instance

def handleAllReq (order : List PimOffer) : Option (PimEpoch × List PimPacket) :=
  if ep.numRxLink = σ.pimK ∨ ep.reqQ = [] then some (ep, [])
  else if ep.Order σ ep.reqQ order then
    (ep.grantLoop e (σ.avail ep.numRxLink) (σ.avail ep.numRxPromptLink) order).map fun r =>
      ({ ep with reqQ := r.2 }, r.1)
  else none

def acceptGrant (need prompt : ℤ) (g : PimOffer) : PimEpoch :=
  { ep with
    matchSenderLinks := addLinks (σ.src g.flow) need prompt g.remainingSz ep.matchSenderLinks
    numTxLink := ofInt32 (ep.numTxLink + need)
    numTxPromptLink := ofInt32 (ep.numTxPromptLink + prompt) }

/-- The acceptance of grants, taken in order while there are links. -/
def acceptLoop : PimEpoch → ℤ → ℤ → List PimOffer → Option (PimEpoch × List PimPacket)
  | ep, _, _, [] => some ({ ep with grantsQ := [] }, [])
  | ep, avail, availPrompt, g :: gs =>
    if 0 < avail then
      if g.iter ≠ ep.iter then
        if g.iter < ep.iter then acceptLoop ep avail availPrompt gs else none
      else
        let need := min avail g.totalLinks
        let prompt := min need (min availPrompt g.promptLinks)
        (acceptLoop (ep.acceptGrant σ need prompt g) (avail - need) (availPrompt - prompt) gs).map
          fun r => (r.1, ⟨.accept, g.flow, ep.iter, e, 0, need, prompt⟩ :: r.2)
    else some ({ ep with grantsQ := g :: gs }, [])

def handleAllGrants (order : List PimOffer) : Option (PimEpoch × List PimPacket) :=
  if ep.numTxLink = σ.pimK ∨ ep.grantsQ = [] then some (ep, [])
  else if ep.Order σ ep.grantsQ order then
    acceptLoop σ e ep (σ.avail ep.numTxLink) (σ.avail ep.numTxPromptLink) order
  else none

def scheduleSenderIterEvt (order : List PimOffer) : Option (PimEpoch × List PimPacket) :=
  if σ.pimIterLimit < ep.iter then some ({ ep with procSenderIterEvt := false }, [])
  else ep.handleAllReq σ e order

/-! ### What the functions do -/

variable {σ e ep}

/-- **The rule of the loop over the requests**: what holds of the links that are left is kept by
each grant. -/
theorem grantLoop_rule {J : ℤ → ℤ → Prop} {G : PimPacket → Prop} {order : List PimOffer}
    {a b : ℤ} {r : List PimPacket × List PimOffer}
    (hstep : ∀ {a b q}, J a b → 0 < a → q ∈ order →
      J (a - min a q.totalLinks) (b - min (min (min a q.totalLinks) q.promptLinks) b) ∧
        G ⟨.grants, q.flow, ep.iter, e, q.remainingSz, min a q.totalLinks,
          min (min (min a q.totalLinks) q.promptLinks) b⟩)
    (hJ : J a b) (hr : ep.grantLoop e a b order = some r) :
    (∀ p ∈ r.1, G p) ∧ ∀ q ∈ r.2, q ∈ order := by
  induction order generalizing a b r with
  | nil =>
    obtain rfl := Option.some.inj hr
    simp
  | cons q qs ih =>
    have hstep' := fun {a b q'} (hJ : J a b) (ha : 0 < a) (hq' : q' ∈ qs) =>
      hstep hJ ha (List.mem_cons_of_mem q hq')
    unfold grantLoop at hr
    split_ifs at hr with ha hiter hold
    · obtain ⟨hG, hleft⟩ := ih hstep' hJ hr
      exact ⟨hG, fun x hx => List.mem_cons_of_mem q (hleft x hx)⟩
    · obtain ⟨r', hr', rfl⟩ := Option.map_eq_some_iff.1 hr
      obtain ⟨hJ', hq⟩ := hstep hJ ha (List.mem_cons_self ..)
      obtain ⟨hG, hleft⟩ := ih hstep' hJ' hr'
      exact ⟨List.forall_mem_cons.2 ⟨hq, hG⟩, fun x hx => List.mem_cons_of_mem q (hleft x hx)⟩
    · obtain rfl := Option.some.inj hr
      simp

/-- **The rule of the loop over the grants**: what holds of the epoch and the links that are left
is kept by each grant that is accepted. -/
theorem acceptLoop_rule {J : PimEpoch → ℤ → ℤ → Prop} {G : PimPacket → Prop}
    {order : List PimOffer} {a b : ℤ} {r : PimEpoch × List PimPacket}
    (hstep : ∀ {ep a b g}, J ep a b → 0 < a → g ∈ order →
      J (ep.acceptGrant σ (min a g.totalLinks) (min (min a g.totalLinks) (min b g.promptLinks)) g)
          (a - min a g.totalLinks) (b - min (min a g.totalLinks) (min b g.promptLinks)) ∧
        G ⟨.accept, g.flow, ep.iter, e, 0, min a g.totalLinks,
          min (min a g.totalLinks) (min b g.promptLinks)⟩)
    (hJ : J ep a b) (hr : acceptLoop σ e ep a b order = some r) :
    (∃ ep' a' b' gs, J ep' a' b' ∧ r.1 = { ep' with grantsQ := gs } ∧ ∀ g ∈ gs, g ∈ order) ∧
      ∀ p ∈ r.2, G p := by
  induction order generalizing ep a b r with
  | nil =>
    obtain rfl := Option.some.inj hr
    exact ⟨⟨ep, a, b, [], hJ, rfl, by simp⟩, by simp⟩
  | cons g gs ih =>
    have hstep' := fun {ep a b g'} (hJ : J ep a b) (ha : 0 < a) (hg' : g' ∈ gs) =>
      hstep hJ ha (List.mem_cons_of_mem g hg')
    unfold acceptLoop at hr
    split_ifs at hr with ha hiter hold
    · obtain ⟨⟨ep', a', b', left, hJ', hr', hleft⟩, hG⟩ := ih hstep' hJ hr
      exact ⟨⟨ep', a', b', left, hJ', hr', fun x hx => List.mem_cons_of_mem g (hleft x hx)⟩, hG⟩
    · obtain ⟨r', hr', rfl⟩ := Option.map_eq_some_iff.1 hr
      obtain ⟨hJ₁, hg⟩ := hstep hJ ha (List.mem_cons_self ..)
      obtain ⟨⟨ep', a', b', left, hJ', heq, hleft⟩, hG⟩ := ih hstep' hJ₁ hr'
      exact ⟨⟨ep', a', b', left, hJ', heq, fun x hx => List.mem_cons_of_mem g (hleft x hx)⟩,
        List.forall_mem_cons.2 ⟨hg, hG⟩⟩
    · obtain rfl := Option.some.inj hr
      exact ⟨⟨ep, a, b, g :: gs, hJ, rfl, fun x hx => hx⟩, by simp⟩

lemma handleAllGrants_cases {order : List PimOffer} {r : PimEpoch × List PimPacket}
    (h : ep.handleAllGrants σ e order = some r) :
    r = (ep, []) ∨ order.Perm ep.grantsQ ∧ ep.numTxLink ≠ σ.pimK ∧
      acceptLoop σ e ep (σ.avail ep.numTxLink) (σ.avail ep.numTxPromptLink) order = some r := by
  unfold handleAllGrants at h
  split_ifs at h with h₁ h₂
  · exact .inl (Option.some.inj h).symm
  · exact .inr ⟨h₂.1, fun hk => h₁ (.inl hk), h⟩

lemma scheduleSenderIterEvt_cases {order : List PimOffer} {r : PimEpoch × List PimPacket}
    (h : ep.scheduleSenderIterEvt σ e order = some r) :
    r = ({ ep with procSenderIterEvt := false }, []) ∨ r = (ep, []) ∨
      order.Perm ep.reqQ ∧ ∃ r', ep.grantLoop e (σ.avail ep.numRxLink)
        (σ.avail ep.numRxPromptLink) order = some r' ∧ r = ({ ep with reqQ := r'.2 }, r'.1) := by
  unfold scheduleSenderIterEvt handleAllReq at h
  split_ifs at h with h₁ h₂ h₃
  · exact .inl (Option.some.inj h).symm
  · exact .inr (.inl (Option.some.inj h).symm)
  · obtain ⟨r', hr', rfl⟩ := Option.map_eq_some_iff.1 h
    exact .inr (.inr ⟨h₃.1, r', hr', rfl⟩)

lemma sendReq_cases {links : List PimVlink} {remaining : FlowId → ℤ} {f : FlowId}
    {out : List PimPacket} (h : ep.sendReq σ e links remaining f = some out) :
    out = [] ∨ ∃ n : ℤ, 1 ≤ n ∧ 0 ≤ min (min n (σ.avail ep.numTxLink))
        (σ.avail ep.numTxPromptLink) ∧
      out = [⟨.req, f, ep.iter, e, remaining f, min n (σ.avail ep.numTxLink),
        min (min n (σ.avail ep.numTxLink)) (σ.avail ep.numTxPromptLink)⟩] := by
  unfold sendReq at h
  dsimp only at h
  generalize tally PimVlink.target PimVlink.totalLinks (σ.src f) links +
    tally PimVlink.target PimVlink.totalLinks (σ.src f) ep.matchSenderLinks = grantSize at h
  split_ifs at h with hsize hprompt
  · obtain rfl := Option.some.inj h
    have hpos : (0 : ℚ) < σ.pimLinkPkts := by
      have := σ.pimLinkPkts_pos
      exact_mod_cast this
    have hceil : grantSize < ⌈(remaining f / σ.pimLinkPkts : ℚ)⌉ := by
      rw [Int.lt_ceil, lt_div_iff₀ hpos]
      exact_mod_cast hsize
    exact .inr ⟨_, by omega, hprompt, rfl⟩
  · exact .inl (Option.some.inj h).symm

lemma sendAllReq_rule {G : PimPacket → Prop} {links : List PimVlink} {remaining : FlowId → ℤ}
    {best : List FlowId} {out : List PimPacket}
    (hG : ∀ {f out}, ep.numTxLink ≠ σ.pimK → ep.sendReq σ e links remaining f = some out →
      ∀ p ∈ out, G p)
    (h : ep.sendAllReq σ e links remaining best = some out) : ∀ p ∈ out, G p := by
  unfold sendAllReq at h
  split_ifs at h with hk
  · obtain rfl := Option.some.inj h
    simp
  · induction best generalizing out with
    | nil =>
      obtain rfl := Option.some.inj h
      simp
    | cons f fs ih =>
      obtain ⟨out₁, h₁, h⟩ := Option.bind_eq_some_iff.1 h
      obtain ⟨out₂, h₂, rfl⟩ := Option.map_eq_some_iff.1 h
      intro p hp
      rcases List.mem_append.1 hp with hp | hp
      · exact hG hk h₁ p hp
      · exact ih h₂ p hp

end PimEpoch

end DcSim
