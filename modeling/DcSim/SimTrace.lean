import DcSim.SnsWork
import DcSim.TokenBucket

/-!
The SIMs an SNS link lets go.

A link is watched: which SIMs are put apart, which are let go and when, and when its
`FillTokenBucketEvent`s come. What it does is a token bucket with room for two tokens. The first
packet begins the one chain of fills, each of which makes the next one `tokenTime` later.
-/

namespace DcSim

open Runs TokenBucket

namespace SnsQueue

variable (K : SnsQueueSpec) (Q : SnsQueue)

/-- The SIM that is put apart when a packet comes. -/
def acceptedSim (p : Packet) : Option Packet :=
  if p.snsType = .sim ∧ (Q.simPackets.length : ℤ) < K.simQueueSize ∧ p.size ≠ 4294967295 then some p
  else none

/-- The SIM that a `SnsQueueProcessingEvent` lets go. -/
def releasedSim : Option Packet := if Q.freeTokens < 1 then none else Q.simPackets.head?

end SnsQueue

structure SimTrace where
  link : SnsLink
  accepted : List Packet
  released : List (Packet × Time)
  filled : List Time

namespace SimTrace

variable (K : SnsQueueSpec)

def init : SimTrace := ⟨.init, [], [], []⟩

def seeArrival (x : SimTrace) (p : Packet) : SimTrace :=
  { x with accepted := x.accepted ++ (x.link.queue.acceptedSim K p).toList }

def seeEvent (x : SimTrace) (e : QueuedEvent Time QueueEvent) : SimTrace :=
  match e.kind with
  | .queueProcessing => x
  | .snsQueueProcessing =>
    { x with released := x.released ++ x.link.queue.releasedSim.toList.map (·, e.time) }
  | .fillTokenBucket => { x with filled := x.filled ++ [e.time] }

/-- What is seen of a step of the link. -/
def see (x : SimTrace) : SnsLinkAct → SimTrace
  | .arrive _ p => x.seeArrival K p
  | .process id => (x.link.queue.events.take? id).elim x fun r => x.seeEvent r.1

def next (x : SimTrace) (a : SnsLinkAct) : Option SimTrace :=
  (SnsLink.next K x.link a).map fun s => { x.see K a with link := s }

def machine : Machine SimTrace SnsLinkAct := ⟨init, next K⟩

def bucket (x : SimTrace) : Bucket Time :=
  ⟨x.link.now, x.link.queue.freeTokens, x.released.map (·.2), x.filled⟩

end SimTrace

namespace SnsQueue

variable {K : SnsQueueSpec} {Q R : SnsQueue} {now : Time} {p : Packet}

/-! ### What the steps do to the bucket -/

structure BucketArrival (K : SnsQueueSpec) (Q : SnsQueue) (p : Packet) (R : SnsQueue) : Prop where
  freeTokens : R.freeTokens = Q.freeTokens
  simPackets : R.simPackets = Q.simPackets ++ (Q.acceptedSim K p).toList
  fills : R.tokenBucketRun = Q.tokenBucketRun ∧ R.fills = Q.fills ∨
    Q.tokenBucketRun = false ∧ R.tokenBucketRun = true ∧ ∃ f, R.fills = Q.fills ++ [f]

lemma bucketArrival_enque : BucketArrival K Q p (Q.enque K now p) := by
  have hstart : (Q.startTokenBucket K now).freeTokens = Q.freeTokens ∧
      (Q.startTokenBucket K now).simPackets = Q.simPackets ∧
      ((Q.startTokenBucket K now).tokenBucketRun = Q.tokenBucketRun ∧
          (Q.startTokenBucket K now).fills = Q.fills ∨
        Q.tokenBucketRun = false ∧ (Q.startTokenBucket K now).tokenBucketRun = true ∧
          ∃ f, (Q.startTokenBucket K now).fills = Q.fills ++ [f]) := by
    unfold startTokenBucket
    split_ifs with h
    · exact ⟨rfl, rfl, .inr ⟨h.2, rfl, _, fills_addFill _⟩⟩
    · exact ⟨rfl, rfl, .inl ⟨rfl, rfl⟩⟩
  obtain ⟨htokens, hsims, hfills⟩ := hstart
  unfold SnsQueue.enque
  dsimp only
  split_ifs with hsim
  · have hnone : Q.acceptedSim K p = none := if_neg fun h => hsim h.1
    have hsame : SameBucket (Q.startTokenBucket K now)
        ((Q.startTokenBucket K now).queueEnque K p) := .queueEnque
    refine ⟨hsame.freeTokens.trans htokens, ?_, ?_⟩
    · rw [hsame.simPackets, hsims, hnone, Option.toList_none, List.append_nil]
    · rwa [hsame.tokenBucketRun, hsame.fills]
  · have hsim : p.snsType = .sim := not_not.1 hsim
    unfold enqueSim
    rw [hsims]
    split_ifs with hroom
    · have hsome : Q.acceptedSim K p = some p := if_pos ⟨hsim, hroom⟩
      refine ⟨htokens, ?_, ?_⟩
      · rw [hsome]
        rfl
      · rw [fills_addWakeup]
        exact hfills
    · have hnone : Q.acceptedSim K p = none := if_neg fun h => hroom h.2
      refine ⟨htokens, ?_, hfills⟩
      rw [hnone, hsims, Option.toList_none, List.append_nil]

lemma bucketArrival_packetQueuing : BucketArrival K Q p (Q.packetQueuing K now p) := by
  unfold packetQueuing
  dsimp only
  split_ifs
  · exact bucketArrival_enque
  · have hsame : SameBucket Q { Q.newQueueProcEvent now with busy := true } :=
      (SameBucket.newQueueProcEvent now).trans ⟨rfl, rfl, rfl, rfl, rfl⟩
    have harrival : BucketArrival K { Q.newQueueProcEvent now with busy := true } p
        (({ Q.newQueueProcEvent now with busy := true } : SnsQueue).enque K now p) :=
      bucketArrival_enque
    refine ⟨harrival.freeTokens, harrival.simPackets, ?_⟩
    rw [← hsame.fills, ← hsame.tokenBucketRun]
    exact harrival.fills

lemma snsQueueProcessing_bucket (K : SnsQueueSpec) (Q : SnsQueue) (now : Time) :
    (Q.releasedSim = none ∧ Q.snsQueueProcessing K now = Q) ∨
    ∃ p sims, Q.releasedSim = some p ∧ Q.simPackets = p :: sims ∧ 1 ≤ Q.freeTokens ∧
      SameBucket { Q with freeTokens := Q.freeTokens - 1, simPackets := sims }
        (Q.snsQueueProcessing K now) := by
  unfold SnsQueue.snsQueueProcessing
  split
  case h_1 hsims => exact .inl ⟨by simp [releasedSim, hsims], rfl⟩
  case h_2 p sims hsims =>
    dsimp only
    split_ifs with htokens hnone
    · exact .inl ⟨if_pos htokens, rfl⟩
    all_goals
      have hreleased : Q.releasedSim = some p := (if_neg htokens).trans (by rw [hsims]; rfl)
    · exact .inr ⟨p, sims, hreleased, hsims, not_lt.1 htokens,
        SameBucket.queueEnque.trans (.newQueueProcEvent _)⟩
    · exact .inr ⟨p, sims, hreleased, hsims, not_lt.1 htokens, .queueEnque⟩

lemma fillTokenBucket_bucket (K : SnsQueueSpec) (now : Time) (hQ : Q.freeTokens ≤ 2) :
    (Q.fillTokenBucket K now).freeTokens ≤ Q.freeTokens + 1 ∧
      (Q.fillTokenBucket K now).freeTokens ≤ 2 ∧
      (Q.fillTokenBucket K now).simPackets = Q.simPackets ∧
      (Q.fillTokenBucket K now).tokenBucketRun = Q.tokenBucketRun ∧
      (Q.fillTokenBucket K now).fills =
        Q.fills ++ [⟨Q.events.count, now + K.tokenTime, .fillTokenBucket⟩] := by
  have htoken : Q.addToken.freeTokens ≤ Q.freeTokens + 1 ∧ Q.addToken.freeTokens ≤ 2 ∧
      Q.addToken.simPackets = Q.simPackets ∧ Q.addToken.tokenBucketRun = Q.tokenBucketRun ∧
      Q.addToken.events = Q.events := by
    unfold addToken
    split_ifs with h
    · exact ⟨le_rfl, h, rfl, rfl, rfl⟩
    · exact ⟨Nat.le_succ _, hQ, rfl, rfl, rfl⟩
  obtain ⟨hle, hcap, hsims, hrun, hevents⟩ := htoken
  have hfills : (Q.addToken.addEvent (now + K.tokenTime) .fillTokenBucket).fills =
      Q.fills ++ [⟨Q.events.count, now + K.tokenTime, .fillTokenBucket⟩] := by
    rw [fills_addFill, fills, fills, hevents]
  unfold SnsQueue.fillTokenBucket
  dsimp only
  split_ifs
  · exact ⟨hle, hcap, hsims, hrun, by rw [fills_addWakeup, hfills]⟩
  · exact ⟨hle, hcap, hsims, hrun, hfills⟩

end SnsQueue

namespace SimTrace

variable {K : SnsQueueSpec} {x y : SimTrace} {a : SnsLinkAct}

structure Seen (x y : SimTrace) (accepted : List Packet) (released : List (Packet × Time))
    (filled : List Time) : Prop where
  accepted : y.accepted = x.accepted ++ accepted
  released : y.released = x.released ++ released
  filled : y.filled = x.filled ++ filled

structure SameChain (Q R : SnsQueue) : Prop where
  tokenBucketRun : R.tokenBucketRun = Q.tokenBucketRun
  fills : R.fills = Q.fills

structure Releases (Q : SnsQueue) (p : Packet) (R : SnsQueue) : Prop extends SameChain Q R where
  simPackets : Q.simPackets = p :: R.simPackets
  token : 1 ≤ Q.freeTokens
  freeTokens : R.freeTokens = Q.freeTokens - 1

structure Fills (K : SnsQueueSpec) (now : Time) (Q R : SnsQueue) : Prop where
  tokenBucketRun : R.tokenBucketRun = Q.tokenBucketRun
  fills : Q.fills.length ≤ 1 → (∃ f, Q.fills = [f] ∧ f.time = now) ∧
    ∃ id, R.fills = [⟨id, now + K.tokenTime, .fillTokenBucket⟩]
  simPackets : R.simPackets = Q.simPackets
  freeTokens : R.freeTokens ≤ Q.freeTokens + 1
  freeTokens_le : R.freeTokens ≤ 2

/-- **What a step does** to the bucket: a packet comes, a SIM is let go, a token is filled in, or
nothing of these. -/
theorem next_cases (htokens : x.link.queue.freeTokens ≤ 2) (hn : next K x a = some y) :
    x.link.now ≤ y.link.now ∧
    ((∃ p, SnsQueue.BucketArrival K x.link.queue p y.link.queue ∧
        Seen x y (x.link.queue.acceptedSim K p).toList [] []) ∨
      (∃ p, Releases x.link.queue p y.link.queue ∧ Seen x y [] [(p, y.link.now)] []) ∨
      (Fills K y.link.now x.link.queue y.link.queue ∧ Seen x y [] [] [y.link.now]) ∨
      (SameChain x.link.queue y.link.queue ∧
        y.link.queue.simPackets = x.link.queue.simPackets ∧
        y.link.queue.freeTokens = x.link.queue.freeTokens ∧ Seen x y [] [] [])) := by
  have hkeep : ∀ {ps : List Packet}, ps = ps ++ [] := (List.append_nil _).symm
  have hkeep' : ∀ {ts : List Time}, ts = ts ++ [] := (List.append_nil _).symm
  have hkeep'' : ∀ {rs : List (Packet × Time)}, rs = rs ++ [] := (List.append_nil _).symm
  obtain ⟨s, hs, rfl⟩ := Option.map_eq_some_iff.1 hn
  rcases SnsLink.next_cases hs with ⟨time, p, rfl, -, hdue, rfl⟩ | ⟨id, e, q, rfl, hq, hdue, rfl⟩
  · exact ⟨hdue.1, .inl ⟨p, SnsQueue.bucketArrival_packetQueuing, rfl, hkeep'', hkeep'⟩⟩
  · refine ⟨hdue.1, .inr ?_⟩
    have hsee : x.see K (.process id) = x.seeEvent e := by simp [see, hq]
    rw [hsee]
    unfold seeEvent SnsLink.processed
    cases hk : e.kind with
    | queueProcessing =>
      have hserved : SnsQueue.SameBucket { x.link.queue with events := q }
          (({ x.link.queue with events := q } : SnsQueue).queueProcessing K e.time).1 :=
        .queueProcessing
      have hsame := ((SnsQueue.SameBucket.take? hq hk).trans hserved).trans
        (.destroyQueueProcEvent id)
      exact .inr (.inr ⟨⟨hsame.tokenBucketRun, hsame.fills⟩, hsame.simPackets, hsame.freeTokens,
        hkeep, hkeep'', hkeep'⟩)
    | snsQueueProcessing =>
      have hfills : ({ x.link.queue with events := q } : SnsQueue).fills = x.link.queue.fills :=
        EventQueue.ofKind_take?_ne hq (by simp [hk])
      rcases SnsQueue.snsQueueProcessing_bucket K { x.link.queue with events := q } e.time with
        ⟨hnone, hr⟩ | ⟨p, sims, hsome, hsims, htoken, hsame⟩
      · have hnone : x.link.queue.releasedSim = none := hnone
        have hprocess : ({ x.link.queue with events := q } : SnsQueue).process K e.time id
            .snsQueueProcessing = ({ x.link.queue with events := q }, none) :=
          congrArg (·, none) hr
        rw [hprocess, hnone]
        exact .inr (.inr ⟨⟨rfl, hfills⟩, rfl, rfl, hkeep, rfl, hkeep'⟩)
      · have hsome : x.link.queue.releasedSim = some p := hsome
        have hsims' : x.link.queue.simPackets = p :: (SnsQueue.snsQueueProcessing K
            { x.link.queue with events := q } e.time).simPackets := by
          rw [hsame.simPackets]
          exact hsims
        refine .inl ⟨p, ⟨⟨hsame.tokenBucketRun, hsame.fills.trans hfills⟩, hsims', htoken,
          hsame.freeTokens⟩, hkeep, ?_, hkeep'⟩
        simp only [hsome]
        rfl
    | fillTokenBucket =>
      have hfill : ({ x.link.queue with events := q } : SnsQueue).freeTokens ≤ 2 := htokens
      obtain ⟨hle, hcap, hsims, hrun, hfills⟩ := SnsQueue.fillTokenBucket_bucket K e.time hfill
      refine .inr (.inl ⟨⟨hrun, fun hone => ?_, hsims, hle, hcap⟩, hkeep, hkeep'', rfl⟩)
      obtain ⟨hfill, hnone⟩ := EventQueue.ofKind_take? hq (hk.symm ▸ hone)
      rw [hk] at hfill hnone
      have hnone : ({ x.link.queue with events := q } : SnsQueue).fills = [] := hnone
      exact ⟨⟨e, hfill, rfl⟩, _, hfills.trans (by rw [hnone]; rfl)⟩

lemma exists_seen (htokens : x.link.queue.freeTokens ≤ 2) (hn : next K x a = some y) :
    ∃ acc rel fil, Seen x y acc rel fil := by
  obtain ⟨-, ⟨p, -, hseen⟩ | ⟨p, -, hseen⟩ | ⟨-, hseen⟩ | ⟨-, -, -, hseen⟩⟩ :=
    next_cases htokens hn <;> exact ⟨_, _, _, hseen⟩

/-! ### The token bucket of the link -/

structure Chained (K : SnsQueueSpec) (x : SimTrace) : Prop where
  off : x.link.queue.tokenBucketRun = false → x.link.queue.fills = [] ∧ x.filled = []
  one : x.link.queue.fills.length ≤ 1
  later : ∀ f ∈ x.link.queue.fills, ∀ t ∈ x.filled, t + K.tokenTime ≤ f.time
  spaced : Spaced K.tokenTime x.filled

lemma Chained.same (h : Chained K x) (hsame : SameChain x.link.queue y.link.queue)
    (hfilled : y.filled = x.filled) : Chained K y where
  off := by
    rw [hsame.tokenBucketRun, hsame.fills, hfilled]
    exact h.off
  one := hsame.fills ▸ h.one
  later := by
    rw [hsame.fills, hfilled]
    exact h.later
  spaced := hfilled ▸ h.spaced

lemma Chained.start (h : Chained K x) (hoff : x.link.queue.tokenBucketRun = false)
    (hon : y.link.queue.tokenBucketRun = true) {f : QueuedEvent Time QueueEvent}
    (hfills : y.link.queue.fills = x.link.queue.fills ++ [f]) (hfilled : y.filled = x.filled) :
    Chained K y := by
  obtain ⟨hnone, hnot⟩ := h.off hoff
  rw [hnone] at hfills
  rw [hnot] at hfilled
  refine ⟨fun hoff' => absurd (hon.symm.trans hoff') (by decide), by simp [hfills], ?_, ?_⟩
  · rw [hfilled]
    exact fun _ _ => nofun
  · rw [hfilled]
    exact .nil

lemma Chained.fill (h : Chained K x) (hK : 0 < K.tokenTime)
    (hfills : Fills K y.link.now x.link.queue y.link.queue)
    (hfilled : y.filled = x.filled ++ [y.link.now]) : Chained K y := by
  obtain ⟨⟨f, hf, hnow⟩, id, hnext⟩ := hfills.fills h.one
  have hlater : ∀ t ∈ x.filled, t + K.tokenTime ≤ y.link.now := fun t ht =>
    hnow ▸ h.later f (hf ▸ List.mem_singleton_self f) t ht
  refine ⟨fun hoff => ?_, by simp [hnext], fun g hg t ht => ?_, hfilled ▸ h.spaced.append hlater⟩
  · have hnone := (h.off (hfills.tokenBucketRun.symm.trans hoff)).1
    simp [hf] at hnone
  · rw [hnext] at hg
    rw [hfilled] at ht
    obtain rfl := List.mem_singleton.1 hg
    dsimp only
    rcases List.mem_append.1 ht with ht | ht
    · exact (hlater t ht).trans (by linarith)
    · rw [List.mem_singleton.1 ht]

lemma Chained.next (h : Chained K x) (hK : 0 < K.tokenTime) (htokens : x.link.queue.freeTokens ≤ 2)
    (hn : next K x a = some y) : Chained K y := by
  obtain ⟨-, ⟨p, harrival, hseen⟩ | ⟨p, hreleases, hseen⟩ | ⟨hfills, hseen⟩ |
    ⟨hsame, -, -, hseen⟩⟩ := next_cases htokens hn
  · have hfilled : y.filled = x.filled := hseen.filled.trans (List.append_nil _)
    obtain ⟨hrun, hfills⟩ | ⟨hoff, hon, f, hfills⟩ := harrival.fills
    · exact h.same ⟨hrun, hfills⟩ hfilled
    · exact h.start hoff hon hfills hfilled
  · exact h.same hreleases.toSameChain (hseen.filled.trans (List.append_nil _))
  · exact h.fill hK hfills hseen.filled
  · exact h.same hsame (hseen.filled.trans (List.append_nil _))

structure Watched (x : SimTrace) : Prop where
  fifo : x.accepted = x.released.map (·.1) ++ x.link.queue.simPackets
  conforms : Conforms 2 x.bucket

lemma watched_init : Watched init :=
  ⟨rfl, Nat.zero_le _, nofun, fun _ _ => by simp [bucket, init, SnsLink.init, SnsQueue.init]⟩

lemma Watched.step (h : Watched x) (hn : next K x a = some y) : Step 2 x.bucket y.bucket := by
  have htokens : x.link.queue.freeTokens ≤ 2 := h.conforms.tokens_le
  obtain ⟨hnow, hcases⟩ := next_cases htokens hn
  have hwait : y.link.queue.freeTokens = x.link.queue.freeTokens → ∀ {acc}, Seen x y acc [] [] →
      Step 2 x.bucket y.bucket := by
    intro heq acc hseen
    have hy : y.bucket = { x.bucket with now := y.link.now } := by
      simp [bucket, heq, hseen.released, hseen.filled]
    rw [hy]
    exact .wait hnow
  obtain ⟨p, harrival, hseen⟩ | ⟨p, hreleases, hseen⟩ | ⟨hfills, hseen⟩ | ⟨-, -, heq, hseen⟩ :=
    hcases
  · exact hwait harrival.freeTokens hseen
  · have hy : y.bucket = ⟨y.link.now, x.bucket.tokens - 1, x.bucket.released ++ [y.link.now],
        x.bucket.filled⟩ := by
      simp [bucket, hreleases.freeTokens, hseen.released, hseen.filled]
    rw [hy]
    exact .release hnow hreleases.token
  · have hy : y.bucket = ⟨y.link.now, y.link.queue.freeTokens, x.bucket.released,
        x.bucket.filled ++ [y.link.now]⟩ := by
      simp [bucket, hseen.released, hseen.filled]
    rw [hy]
    exact .fill hnow hfills.freeTokens hfills.freeTokens_le
  · exact hwait heq hseen

lemma Watched.next (h : Watched x) (hn : next K x a = some y) : Watched y := by
  refine ⟨?_, h.conforms.step (h.step hn)⟩
  have htokens : x.link.queue.freeTokens ≤ 2 := h.conforms.tokens_le
  obtain ⟨-, ⟨p, harrival, hseen⟩ | ⟨p, hreleases, hseen⟩ | ⟨hfills, hseen⟩ |
    ⟨-, hsims, -, hseen⟩⟩ := next_cases htokens hn
  · rw [hseen.accepted, hseen.released, harrival.simPackets, h.fifo, List.append_nil,
      List.append_assoc]
  · rw [hseen.accepted, hseen.released, h.fifo, hreleases.simPackets]
    simp
  · rw [hseen.accepted, hseen.released, hfills.simPackets, h.fifo, List.append_nil,
      List.append_nil]
  · rw [hseen.accepted, hseen.released, hsims, h.fifo, List.append_nil, List.append_nil]

lemma Watched.of_reach (hx : Reach (machine K) x) : Watched x :=
  hx.inv (I := Watched) watched_init fun _ h hn => h.next hn

lemma Chained.of_reach (hK : 0 < K.tokenTime) (hx : Reach (machine K) x) : Chained K x := by
  have hinit : Chained K init := ⟨fun _ => ⟨rfl, rfl⟩, Nat.zero_le _, nofun, .nil⟩
  exact hx.inv (I := Chained K) hinit fun hr h hn =>
    h.next hK (Watched.of_reach hr).conforms.tokens_le hn

lemma steps (hx : Reach (machine K) x) {as : List SnsLinkAct}
    (hrun : exec (machine K) x as = some y) :
    Relation.ReflTransGen (Step 2) x.bucket y.bucket ∧ ∃ acc rel fil, Seen x y acc rel fil := by
  induction as generalizing x with
  | nil =>
    obtain rfl : x = y := by simpa using hrun
    exact ⟨.refl, [], [], [], by simp, by simp, by simp⟩
  | cons a as ih =>
    obtain ⟨z, hz, hrun⟩ := Option.bind_eq_some_iff.1 hrun
    have hwatched := Watched.of_reach hx
    obtain ⟨hsteps, hseen⟩ := ih (hx.step hz) hrun
    obtain ⟨acc, rel, fil, hfirst⟩ := exists_seen hwatched.conforms.tokens_le hz
    obtain ⟨acc', rel', fil', hrest⟩ := hseen
    exact ⟨.head (hwatched.step hz) hsteps, acc ++ acc', rel ++ rel', fil ++ fil',
      by rw [hrest.accepted, hfirst.accepted, List.append_assoc],
      by rw [hrest.released, hfirst.released, List.append_assoc],
      by rw [hrest.filled, hfirst.filled, List.append_assoc]⟩

/-- **A link lets SIMs go as a token bucket** of two tokens: in the order in which they were put
apart, between two moments at most two more than there are fills, and in a window of time at most
three more than it has room for the time between two fills. -/
theorem sims_conform (hx : Reach (machine K) x) {as : List SnsLinkAct}
    (hrun : exec (machine K) x as = some y) :
    y.accepted = y.released.map (·.1) ++ y.link.queue.simPackets ∧
    (∃ released filled, y.released = x.released ++ released ∧ y.filled = x.filled ++ filled ∧
      released.length ≤ 2 + filled.length) ∧
    (0 < K.tokenTime → ∀ a L : Time, 0 ≤ L →
      (within a (a + L) (y.released.map (·.2)) : ℚ) ≤ 3 + L / K.tokenTime) := by
  have hy : Reach (machine K) y := hx.of_exec hrun
  have hwatched := Watched.of_reach hy
  refine ⟨hwatched.fifo, ?_, fun hK a L hL => ?_⟩
  · obtain ⟨hsteps, acc, rel, fil, hseen⟩ := steps hx hrun
    have htokens : x.bucket.tokens ≤ 2 := (Watched.of_reach hx).conforms.tokens_le
    obtain ⟨rel', fil', hrel, hfil, hle⟩ := released_le hsteps
    have hrel : (y.released.map (·.2)).length = (x.released.map (·.2) ++ rel').length :=
      congrArg List.length hrel
    have hfil : y.filled.length = (x.filled ++ fil').length := congrArg List.length hfil
    rw [hseen.released] at hrel
    rw [hseen.filled] at hfil
    simp only [List.length_map, List.length_append] at hrel hfil
    exact ⟨rel, fil, hseen.released, hseen.filled, by omega⟩
  · have hwindow := hwatched.conforms.within_le (Chained.of_reach hK hy).spaced hK a hL
    have hcap : ((2 : ℕ) : ℚ) + 1 = 3 := by norm_num
    rwa [hcap] at hwindow

theorem sims_conform_overlappingRun : ∃ y : SimTrace,
    exec (machine SnsLink.exampleQueue) init SnsLink.overlappingRun = some y ∧
      y.released.length = 1 ∧ y.accepted = y.released.map (·.1) ++ y.link.queue.simPackets ∧
      ∀ a L : Time, 0 ≤ L → (within a (a + L) (y.released.map (·.2)) : ℚ) ≤
        3 + L / SnsLink.exampleQueue.tokenTime := by
  have hrun : (exec (machine SnsLink.exampleQueue) init SnsLink.overlappingRun).any
      (fun y => y.released.length = 1) = true := by
    decide +kernel
  obtain ⟨y, hy, hone⟩ := exists_exec_of_any hrun
  obtain ⟨hfifo, -, hwindow⟩ := sims_conform Reach.init hy
  exact ⟨y, hy, hone, hfifo, hwindow (by decide +kernel)⟩

end SimTrace

end DcSim
