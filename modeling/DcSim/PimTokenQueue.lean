import DcSim.CustomPriorityQueue
import DcSim.Packet
import Mathlib.Data.Finset.Max
import Mathlib.Data.Multiset.AddSub
import Mathlib.Data.Prod.Lex

/-!
The tokens that wait at the host of a PIM sender.

`PimTokenComparator` takes a token for better than another only if it has both a lower priority
number and fewer packets that remain; a tie in one of them is never broken. So which token is on top
depends on the order in which they were pushed.
-/

namespace DcSim

structure PimToken where
  timeout : Time
  seqNum : ℤ
  dataSeqNum : ℤ
  flow : ℕ
  priority : ℤ
  deriving DecidableEq

structure PimSender where
  sizeInPkt : ℕ
  remainingPktsAtSender : ℤ
  startTime : Time

structure PimTokenPacket where
  ttl : Time
  remainingSz : ℤ
  tokenSeqNum : ℤ
  dataSeqNum : ℤ
  flow : ℕ
  priority : ℤ

structure PimTokenHost where
  flows : ℕ → PimSender
  tokenQ : List PimToken

namespace PimTokenHost

variable (flows : ℕ → PimSender) (now : Time)

/-- `PimTokenComparator` -/
def tokenComparator (a b : PimToken) : Bool :=
  if b.priority ≤ a.priority then true
  else if (flows b.flow).remainingPktsAtSender ≤ (flows a.flow).remainingPktsAtSender then true
  else if (flows a.flow).remainingPktsAtSender = (flows b.flow).remainingPktsAtSender then
    decide ((flows b.flow).startTime < (flows a.flow).startTime)
  else false

/-- `assign_init_token`, of a flow that is started -/
def assignInitToken (tokenInitial : ℕ) (id : ℕ) (h : PimTokenHost) : PimTokenHost :=
  let n := if (h.flows id).sizeInPkt ≤ tokenInitial then (h.flows id).sizeInPkt else 0
  { h with tokenQ := h.tokenQ ++ (List.range n).map fun i : ℕ =>
      ⟨now + 100000000, i, i, id, 1⟩ }

def receiveToken (p : PimTokenPacket) (h : PimTokenHost) : PimTokenHost where
  flows := Function.update h.flows p.flow
    { h.flows p.flow with remainingPktsAtSender := p.remainingSz }
  tokenQ := h.tokenQ ++ [⟨p.ttl, p.tokenSeqNum, p.dataSeqNum, p.flow, p.priority⟩]

/-- The loop of `send`, for at most so many turns: the tokens it takes from the top, and those it
leaves. All tokens taken but the last are too late, and the last is used unless it is, too. -/
def sendLoop : ℕ → List PimToken → List PimToken × List PimToken
  | 0, q => ([], q)
  | turns + 1, q =>
    match CustomPriorityQueue.pop (tokenComparator flows) q with
    | none => ([], q)
    | some (t, rest) =>
      if t.timeout < now then
        let r := sendLoop turns rest
        (t :: r.1, r.2)
      else ([t], rest)

/-- `send`, when the queue of the host is not busy -/
def send (h : PimTokenHost) : List PimToken × PimTokenHost :=
  let r := sendLoop h.flows now h.tokenQ.length h.tokenQ
  (r.1, { h with tokenQ := r.2 })

/-! ### The comparison -/

variable {flows : ℕ → PimSender} {now : Time} {q : List PimToken} {m : Multiset PimToken}
  {t u : PimToken}

/-- The order of service: the priority number, then the packets that remain, then the start. -/
def tokenKey (flows : ℕ → PimSender) (t : PimToken) : ℤ ×ₗ ℤ ×ₗ Time :=
  toLex (t.priority,
    toLex ((flows t.flow).remainingPktsAtSender, (flows t.flow).startTime))

/-- Both the priority number and the packets that remain are lower. -/
def LowerInBoth (flows : ℕ → PimSender) (t u : PimToken) : Prop :=
  t.priority < u.priority ∧
    (flows t.flow).remainingPktsAtSender < (flows u.flow).remainingPktsAtSender

/-- **The comparison of the code.** -/
lemma tokenComparator_eq_false_iff : tokenComparator flows t u = false ↔ LowerInBoth flows t u := by
  unfold tokenComparator LowerInBoth
  split_ifs with hprio hrem heq
  · exact iff_of_false nofun fun h => absurd h.1 (not_lt.mpr hprio)
  · exact iff_of_false nofun fun h => absurd h.2 (not_lt.mpr hrem)
  · exact absurd heq.ge hrem
  · exact iff_of_true rfl ⟨not_le.mp hprio, not_le.mp hrem⟩

lemma lowerInBoth_congr {t' : PimToken} (h : tokenKey flows t = tokenKey flows t') :
    (LowerInBoth flows t u ↔ LowerInBoth flows t' u) ∧
      (LowerInBoth flows u t ↔ LowerInBoth flows u t') := by
  obtain ⟨hprio, hrest⟩ := Prod.mk.inj (toLex.injective h)
  obtain ⟨hrem, -⟩ := Prod.mk.inj (toLex.injective hrest)
  unfold LowerInBoth
  rw [hprio, hrem]
  exact ⟨Iff.rfl, Iff.rfl⟩

lemma LowerInBoth.lt (h : LowerInBoth flows t u) : tokenKey flows t < tokenKey flows u :=
  Prod.Lex.toLex_lt_toLex.mpr (.inl h.1)

/-! ### What `send` takes -/

lemma send_head {h : PimTokenHost} {ts : List PimToken} (hsend : (h.send now).1 = t :: ts) :
    ∃ x xs, h.tokenQ = x :: xs ∧
      t = (CustomPriorityQueue.search (tokenComparator h.flows) [] x [] xs).1 := by
  unfold send at hsend
  cases hq : h.tokenQ with
  | nil =>
    rw [hq] at hsend
    exact absurd hsend (by simp [sendLoop])
  | cons x xs =>
    rw [hq] at hsend
    refine ⟨x, xs, rfl, ?_⟩
    dsimp only [List.length_cons, sendLoop, CustomPriorityQueue.pop] at hsend
    split_ifs at hsend
    · exact (List.cons.inj hsend).1.symm
    · exact (List.cons.inj hsend).1.symm

lemma exists_send (now : Time) {h : PimTokenHost} (hne : h.tokenQ ≠ []) :
    ∃ t ts, (h.send now).1 = t :: ts := by
  obtain ⟨x, xs, hq⟩ := List.exists_cons_of_ne_nil hne
  unfold send
  rw [hq]
  dsimp only [List.length_cons, sendLoop, CustomPriorityQueue.pop]
  split_ifs
  · exact ⟨_, _, rfl⟩
  · exact ⟨_, _, rfl⟩

lemma send_least {h : PimTokenHost} {b : PimToken} {ts : List PimToken} (hb : b ∈ h.tokenQ)
    (hall : ∀ u ∈ h.tokenQ,
      tokenKey h.flows u = tokenKey h.flows b ∨ LowerInBoth h.flows b u)
    (hsend : (h.send now).1 = t :: ts) : tokenKey h.flows t = tokenKey h.flows b := by
  obtain ⟨x, xs, hq, rfl⟩ := send_head hsend
  rw [hq] at hb hall
  refine CustomPriorityQueue.search_found (K := fun u => tokenKey h.flows u = tokenKey h.flows b)
    (fun c y hy hc hbetter => ?_) (fun c hc hnot y hy hK => ?_) ⟨b, hb, rfl⟩
  · have hlower := tokenComparator_eq_false_iff.mp hbetter
    rcases hall y (List.mem_cons_of_mem x hy) with hK | hhigher
    · exact hK
    · exact absurd (hlower.lt.trans (hc.trans_lt hhigher.lt)) (lt_irrefl _)
  · rcases hall c hc with hK' | hlower
    · exact absurd hK' hnot
    · exact tokenComparator_eq_false_iff.mpr ((lowerInBoth_congr hK).1.mpr hlower)

lemma exists_not_least (now : Time) {b : PimToken} (hb : b ∈ m) (hu : u ∈ m)
    (hne : tokenKey flows u ≠ tokenKey flows b)
    (hnot : ¬ LowerInBoth flows b u) :
    ∃ q : List PimToken, (q : Multiset PimToken) = m ∧ ∀ t ts,
      (({ flows := flows, tokenQ := q } : PimTokenHost).send now).1 = t :: ts →
      tokenKey flows t ≠ tokenKey flows b := by
  obtain ⟨m', rfl⟩ := Multiset.exists_cons_of_mem hu
  obtain ⟨l, rfl⟩ := Quot.exists_rep m'
  let K : PimToken → Bool := fun v => tokenKey flows v = tokenKey flows b
  refine ⟨u :: (l.filter K ++ l.filter fun v => !K v), ?_, fun t ts hsend => ?_⟩
  · have hperm := (List.filter_append_perm K l).cons u
    exact Multiset.coe_eq_coe.mpr hperm
  · obtain ⟨x, xs, hq, rfl⟩ := send_head hsend
    obtain ⟨rfl, rfl⟩ := List.cons.inj hq
    -- the tokens of the first place come right behind
    rw [CustomPriorityQueue.search_append fun v hv => ?_]
    · refine CustomPriorityQueue.search_kept (K := fun v => tokenKey flows v ≠ tokenKey flows b)
        (fun c v hv _ _ => ?_) hne
      simpa [K] using (List.mem_filter.mp hv).2
    · have hK : tokenKey flows v = tokenKey flows b := by
        simpa [K] using (List.mem_filter.mp hv).2
      refine Bool.eq_true_of_not_eq_false fun hbetter => hnot ?_
      exact (lowerInBoth_congr hK).1.mp (tokenComparator_eq_false_iff.mp hbetter)

/-- **When the order of pushing does not matter**: whatever it is, `send` takes a token of the first
place, exactly if the tokens of that place are lower in both than each of the others. -/
theorem send_takes_least_iff (flows : ℕ → PimSender) (now : Time) (m : Multiset PimToken) :
    (∀ q : List PimToken, (q : Multiset PimToken) = m → ∀ t ts,
      (({ flows := flows, tokenQ := q } : PimTokenHost).send now).1 = t :: ts →
      ∀ u ∈ m, tokenKey flows t ≤ tokenKey flows u) ↔
    ∀ b ∈ m, (∀ u ∈ m, tokenKey flows b ≤ tokenKey flows u) →
      ∀ u ∈ m, tokenKey flows u = tokenKey flows b ∨ LowerInBoth flows b u := by
  constructor
  · intro hleast b hb hfirst u hu
    by_contra hnot
    rw [not_or] at hnot
    obtain ⟨q, hq, hsend⟩ := exists_not_least now hb hu hnot.1 hnot.2
    have hne : q ≠ [] := by
      rintro rfl
      rw [← hq] at hb
      exact absurd hb (Multiset.notMem_zero b)
    obtain ⟨t, ts, htake⟩ :=
      exists_send now (h := { flows := flows, tokenQ := q }) hne
    have hle := hleast q hq t ts htake b hb
    have hmem : t ∈ m := by
      obtain ⟨x, xs, rfl, rfl⟩ := send_head htake
      have hperm := CustomPriorityQueue.search_perm (tokenComparator flows) [] x [] xs
      rw [← hq]
      exact hperm.mem_iff.mpr List.mem_cons_self
    exact hsend t ts htake (le_antisymm hle (hfirst t hmem))
  · rintro hall q rfl t ts htake u hu
    obtain ⟨b, hb, hfirst⟩ := Finset.exists_min_image q.toFinset (tokenKey flows)
      ⟨u, List.mem_toFinset.mpr hu⟩
    have hb := List.mem_toFinset.mp hb
    have hfirst : ∀ v ∈ q, tokenKey flows b ≤ tokenKey flows v := fun v hv =>
      hfirst v (List.mem_toFinset.mpr hv)
    have hsame := send_least (h := { flows := flows, tokenQ := q }) hb (hall b hb hfirst) htake
    exact hsame ▸ hfirst u hu

/-- A flow whose last packet remains, and one of five packets. -/
def lastAndFive (id : ℕ) : PimSender := if id = 0 then ⟨9, 9, 0⟩ else ⟨5, 5, 1⟩

/-- **A token of the first place is passed over**: a token of priority 2 for the last packet of a
flow comes, and then a flow of five packets starts, whose tokens have priority 1. -/
theorem send_takes_the_second :
    let h := (({ flows := lastAndFive, tokenQ := [] } : PimTokenHost).receiveToken
      ⟨100, 1, 8, 8, 0, 2⟩).assignInitToken 1 8 1
    ∃ t, (h.send 1).1 = [t] ∧ 1 ≤ t.timeout ∧ ∃ u ∈ h.tokenQ, u.priority < t.priority :=
  ⟨⟨100, 8, 8, 0, 2⟩, by decide +kernel, by decide +kernel, ⟨1 + 100000000, 0, 0, 1, 1⟩,
    by decide +kernel, by decide⟩

end PimTokenHost

end DcSim
