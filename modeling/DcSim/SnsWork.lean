import DcSim.SnsLink

/-!
An SNS link does not stand idle.

A SIM that finds a token needs a `SnsQueueProcessingEvent` to come. There is one for each SIM that
was put apart, and each is used up whether or not it finds a token, so the SIMs that found none
are left to the token bucket, which wakes the queue with its first token only. The second token
comes too late to matter: by then the first one has been taken, or no SIM is left over.

The other packets need a `QueueProcessingEvent`. The last one ends without a successor if
`bytes_in_queue` is `0`, and a `uint32_t` may be `0` while packets wait.
-/

namespace DcSim

open Runs

namespace SnsQueue

variable {K : SnsQueueSpec} {Q R : SnsQueue} {now : Time} {p : Packet}

/-- The pending `SnsQueueProcessingEvent`s. -/
def wakeups (Q : SnsQueue) : List (QueuedEvent Time QueueEvent) :=
  Q.events.ofKind .snsQueueProcessing

/-- The pending `FillTokenBucketEvent`s. -/
def fills (Q : SnsQueue) : List (QueuedEvent Time QueueEvent) := Q.events.ofKind .fillTokenBucket

@[simp] lemma freeTokens_addEvent (time : Time) (e : QueueEvent) :
    (Q.addEvent time e).freeTokens = Q.freeTokens := rfl

@[simp] lemma wakeups_addWakeup (time : Time) : (Q.addEvent time .snsQueueProcessing).wakeups =
    Q.wakeups ++ [⟨Q.events.count, time, .snsQueueProcessing⟩] :=
  EventQueue.ofKind_add _ _ _

@[simp] lemma fills_addWakeup (time : Time) :
    (Q.addEvent time .snsQueueProcessing).fills = Q.fills :=
  EventQueue.ofKind_add_ne _ _ (by decide)

@[simp] lemma wakeups_addFill (time : Time) :
    (Q.addEvent time .fillTokenBucket).wakeups = Q.wakeups :=
  EventQueue.ofKind_add_ne _ _ (by decide)

@[simp] lemma fills_addFill (time : Time) : (Q.addEvent time .fillTokenBucket).fills =
    Q.fills ++ [⟨Q.events.count, time, .fillTokenBucket⟩] :=
  EventQueue.ofKind_add _ _ _

/-- Each SIM for which there may be a token has an event that will let it go, or the first token
has one that comes before the second. -/
def Woken (Q : SnsQueue) : Prop :=
  1 ≤ Q.freeTokens → Q.simPackets.length ≤ Q.wakeups.length ∨
    Q.freeTokens = 1 ∧ ∃ e ∈ Q.wakeups, ∀ f ∈ Q.fills, e.time < f.time

structure Bucket (Q : SnsQueue) : Prop where
  off : Q.tokenBucketRun = false → Q.freeTokens = 0 ∧ Q.fills = []
  on : Q.tokenBucketRun = true → Q.fills.length = 1
  woken : Q.Woken

/-- A `QueueProcessingEvent` is pending, or there is nothing to do and the queue knows it. -/
def Serving (Q : SnsQueue) : Prop :=
  Q.services ≠ [] ∨ Q.busy = false ∧ Q.queueProcEvent = none ∧ Q.packets = []

/-! ### The token bucket -/

structure SameBucket (Q R : SnsQueue) : Prop where
  tokenBucketRun : R.tokenBucketRun = Q.tokenBucketRun
  freeTokens : R.freeTokens = Q.freeTokens
  simPackets : R.simPackets = Q.simPackets
  wakeups : R.wakeups = Q.wakeups
  fills : R.fills = Q.fills

lemma SameBucket.trans {S : SnsQueue} (h : SameBucket Q R) (h' : SameBucket R S) :
    SameBucket Q S :=
  ⟨h'.tokenBucketRun.trans h.tokenBucketRun, h'.freeTokens.trans h.freeTokens,
    h'.simPackets.trans h.simPackets, h'.wakeups.trans h.wakeups, h'.fills.trans h.fills⟩

lemma SameBucket.bucket (h : SameBucket Q R) (hQ : Bucket Q) : Bucket R where
  off hoff := by
    rw [h.freeTokens, h.fills]
    exact hQ.off (h.tokenBucketRun.symm.trans hoff)
  on hon := by
    rw [h.fills]
    exact hQ.on (h.tokenBucketRun.symm.trans hon)
  woken := by
    unfold Woken
    rw [h.freeTokens, h.simPackets, h.wakeups, h.fills]
    exact hQ.woken

lemma SameBucket.newQueueProcEvent (time : Time) : SameBucket Q (Q.newQueueProcEvent time) :=
  ⟨rfl, rfl, rfl, EventQueue.ofKind_add_ne _ _ (by decide),
    EventQueue.ofKind_add_ne _ _ (by decide)⟩

lemma SameBucket.queueEnque : SameBucket Q (Q.queueEnque K p) := by
  unfold SnsQueue.queueEnque
  split_ifs <;> exact ⟨rfl, rfl, rfl, rfl, rfl⟩

lemma SameBucket.take? {id : ℕ} {e : QueuedEvent Time QueueEvent}
    {q : EventQueue Time QueueEvent} (hq : Q.events.take? id = some (e, q))
    (he : e.kind = .queueProcessing) : SameBucket Q { Q with events := q } :=
  ⟨rfl, rfl, rfl, EventQueue.ofKind_take?_ne hq (by simp [he]),
    EventQueue.ofKind_take?_ne hq (by simp [he])⟩

lemma SameBucket.queueProcessing : SameBucket Q (Q.queueProcessing K now).1 := by
  unfold SnsQueue.queueProcessing
  split
  case h_1 p R hdeque =>
    have hR : SameBucket Q R := by
      unfold deque at hdeque
      split_ifs at hdeque
      obtain ⟨⟨p, ps⟩, -, h⟩ := Option.map_eq_some_iff.mp hdeque
      obtain ⟨rfl, rfl⟩ := Prod.mk.inj h
      exact ⟨rfl, rfl, rfl, rfl, rfl⟩
    exact hR.trans ((SameBucket.newQueueProcEvent _).trans ⟨rfl, rfl, rfl, rfl, rfl⟩)
  case h_2 => exact ⟨rfl, rfl, rfl, rfl, rfl⟩

lemma SameBucket.destroyQueueProcEvent (id : ℕ) : SameBucket Q (Q.destroyQueueProcEvent id) := by
  unfold SnsQueue.destroyQueueProcEvent
  split_ifs <;> exact ⟨rfl, rfl, rfl, rfl, rfl⟩

lemma Bucket.startTokenBucket (hQ : Bucket Q) : Bucket (Q.startTokenBucket K now) := by
  unfold SnsQueue.startTokenBucket
  split_ifs with h
  · obtain ⟨htokens, hfills⟩ := hQ.off h.2
    refine ⟨nofun, fun _ => ?_, fun htoken => ?_⟩
    · have hone : (Q.addEvent (now + infinitesimalTime) .fillTokenBucket).fills.length = 1 := by
        simp [hfills]
      exact hone
    · exact absurd htoken (by simp [addEvent, htokens])
  · exact hQ

lemma Bucket.enqueSim (hQ : Bucket Q) : Bucket (Q.enqueSim K now p) := by
  unfold SnsQueue.enqueSim
  split_ifs
  · refine ⟨fun hoff => ?_, fun hon => ?_, fun htoken => ?_⟩
    · rw [fills_addWakeup]
      exact hQ.off hoff
    · rw [fills_addWakeup]
      exact hQ.on hon
    · rw [wakeups_addWakeup, fills_addWakeup]
      refine (hQ.woken htoken).imp (fun hle => ?_) fun ⟨hone, e, he, hlt⟩ =>
        ⟨hone, e, List.mem_append_left _ he, hlt⟩
      have hle : Q.simPackets.length ≤ Q.wakeups.length := hle
      simpa [addEvent, wakeups] using hle
  · exact hQ

lemma Bucket.enque (hQ : Bucket Q) : Bucket (Q.enque K now p) := by
  unfold SnsQueue.enque
  dsimp only
  split_ifs
  · exact SameBucket.queueEnque.bucket hQ.startTokenBucket
  · exact hQ.startTokenBucket.enqueSim

lemma Bucket.packetQueuing (hQ : Bucket Q) : Bucket (Q.packetQueuing K now p) := by
  unfold SnsQueue.packetQueuing
  dsimp only
  split_ifs
  · exact hQ.enque
  · have hstart : SameBucket Q { Q.newQueueProcEvent now with busy := true } :=
      (SameBucket.newQueueProcEvent now).trans ⟨rfl, rfl, rfl, rfl, rfl⟩
    exact (hstart.bucket hQ).enque

section Take

variable {id : ℕ} {e : QueuedEvent Time QueueEvent} {q : EventQueue Time QueueEvent}

lemma Bucket.snsQueueProcessing (hQ : Bucket Q) (hq : Q.events.take? id = some (e, q))
    (he : e.kind = .snsQueueProcessing) :
    Bucket (({ Q with events := q } : SnsQueue).snsQueueProcessing K now) := by
  have hfills : ({ Q with events := q } : SnsQueue).fills = Q.fills :=
    EventQueue.ofKind_take?_ne hq (by simp [he])
  have hwakeups : ({ Q with events := q } : SnsQueue).wakeups.length + 1 = Q.wakeups.length := by
    obtain ⟨l, r, h, h'⟩ := EventQueue.ofKind_take?_self hq
    rw [he] at h h'
    unfold wakeups
    rw [h, h']
    simp only [List.length_append, List.length_cons]
    omega
  have hoff : Q.tokenBucketRun = false → Q.freeTokens = 0 ∧
      ({ Q with events := q } : SnsQueue).fills = [] := hfills ▸ hQ.off
  have hon : Q.tokenBucketRun = true → ({ Q with events := q } : SnsQueue).fills.length = 1 :=
    hfills ▸ hQ.on
  unfold SnsQueue.snsQueueProcessing
  dsimp only
  split
  case h_1 hsims => exact ⟨hoff, hon, fun _ => .inl (by simp [hsims])⟩
  case h_2 p sims hsims =>
    split_ifs with htokens hnone
    · exact ⟨hoff, hon, fun h => absurd h (not_le.2 htokens)⟩
    all_goals
      -- a token and a SIM go together with the event
      have hrelease : Bucket { Q with
          events := q, freeTokens := Q.freeTokens - 1, simPackets := sims } := by
        refine ⟨fun h => absurd (hoff h).1 (by omega), hon, fun htoken => ?_⟩
        have htoken : 1 ≤ Q.freeTokens - 1 := htoken
        refine (hQ.woken (by omega)).imp (fun hle => ?_) fun h => absurd h.1 (by omega)
        rw [hsims, List.length_cons, ← hwakeups] at hle
        exact Nat.le_of_succ_le_succ hle
    · exact (SameBucket.queueEnque.trans (.newQueueProcEvent _)).bucket hrelease
    · exact SameBucket.queueEnque.bucket hrelease

lemma addToken_cases (Q : SnsQueue) : ∃ n, Q.addToken = { Q with freeTokens := n } ∧
    (Q.freeTokens = 0 ∧ n = 1 ∨ 1 ≤ Q.freeTokens ∧ 2 ≤ n) := by
  unfold addToken
  split_ifs with hlt
  · exact ⟨_, rfl, by omega⟩
  · exact ⟨_, rfl, .inr (by omega)⟩

lemma Bucket.fillTokenBucket (hQ : Bucket Q) (hK : infinitesimalTime < K.tokenTime)
    (hq : Q.events.take? id = some (e, q)) (he : e.kind = .fillTokenBucket)
    (hdue : Q.events.NoneBefore e.time) :
    Bucket (({ Q with events := q } : SnsQueue).fillTokenBucket K e.time) := by
  have hwakeups : ({ Q with events := q } : SnsQueue).wakeups = Q.wakeups :=
    EventQueue.ofKind_take?_ne hq (by simp [he])
  obtain ⟨l, r, hfills, hleft⟩ := EventQueue.ofKind_take?_self hq
  rw [he] at hfills hleft
  have hfills : Q.fills = l ++ e :: r := hfills
  have hrun : Q.tokenBucketRun = true := by
    by_contra hoff
    have hnil := (hQ.off (Bool.not_eq_true _ ▸ hoff)).2
    simp [hfills] at hnil
  have hnil : ({ Q with events := q } : SnsQueue).fills = [] := by
    have hone := hQ.on hrun
    rw [hfills, List.length_append, List.length_cons] at hone
    refine hleft.trans (List.eq_nil_of_length_eq_zero ?_)
    rw [List.length_append]
    omega
  have hno : ¬ ∃ w ∈ Q.wakeups, ∀ f ∈ Q.fills, w.time < f.time := by
    rintro ⟨w, hw, hlt⟩
    have hmem : w ∈ Q.events.events := List.mem_of_mem_filter hw
    exact absurd (hlt e (by simp [hfills])) (not_lt.2 (hdue w hmem))
  obtain ⟨n, hn, htokens⟩ := addToken_cases { Q with events := q }
  have hrun' : ({ Q with events := q, freeTokens := n } : SnsQueue).tokenBucketRun ≠ false := by
    simp [hrun]
  have hfills' : ({ Q with events := q, freeTokens := n } : SnsQueue).fills = [] := hnil
  unfold SnsQueue.fillTokenBucket
  rw [hn]
  dsimp only
  rcases htokens with ⟨-, rfl⟩ | ⟨hone, htwo⟩
  · rw [freeTokens_addEvent, if_pos rfl]
    refine ⟨fun hoff => absurd hoff hrun', fun _ => ?_, fun _ => .inr ⟨rfl, ?_⟩⟩
    · rw [fills_addWakeup, fills_addFill, hfills']
      rfl
    · rw [wakeups_addWakeup, fills_addWakeup, fills_addFill, hfills']
      refine ⟨_, List.mem_append_right _ (List.mem_singleton_self _), fun f hf => ?_⟩
      obtain rfl := List.mem_singleton.1 hf
      exact (Rat.add_lt_add_left).2 hK
  · have htwo' : n ≠ 1 := by omega
    rw [freeTokens_addEvent, if_neg htwo']
    refine ⟨fun hoff => absurd hoff hrun', fun _ => ?_, fun _ => .inl ?_⟩
    · rw [fills_addFill, hfills']
      rfl
    · rw [wakeups_addFill]
      exact hwakeups ▸ (hQ.woken hone).resolve_right fun h => hno h.2

end Take

/-! ### The server -/

lemma services_packetQueuing (hQ : Serving Q) : (Q.packetQueuing K now p).services ≠ [] := by
  unfold SnsQueue.packetQueuing
  dsimp only
  split_ifs with hbusy
  · rw [SameServer.enque.services]
    exact hQ.resolve_right fun h => absurd hbusy (by simp [h.1])
  · rw [SameServer.enque.services]
    have hnew : (Q.newQueueProcEvent now).services ≠ [] := by simp
    exact hnew

lemma Serving.destroyQueueProcEvent (hQ : Serving Q) (id : ℕ) :
    Serving (Q.destroyQueueProcEvent id) := by
  unfold SnsQueue.destroyQueueProcEvent
  split_ifs with h
  · exact .inl (hQ.resolve_right fun hidle => nomatch h.symm.trans hidle.2.1)
  · exact hQ

lemma serving_queueProcessing (hc : Counted Q)
    (hsees : Q.packets ≠ [] → Q.bytesInQueue = 0 → Q.services ≠ []) :
    Serving (Q.queueProcessing K now).1 := by
  unfold SnsQueue.queueProcessing
  split
  case h_1 p R hdeque =>
    have hnew : ∀ time, (R.newQueueProcEvent time).services ≠ [] := by simp
    exact .inl (hnew _)
  case h_2 hdeque =>
    by_cases hp : Q.packets = []
    · exact .inr ⟨rfl, rfl, hp⟩
    · exact .inl (hsees hp (hc.deque_eq_none_iff.1 hdeque))

lemma Serving.snsQueueProcessing (hQ : Serving Q) : Serving (Q.snsQueueProcessing K now) := by
  rcases snsQueueProcessing_cases K Q now with ⟨-, hr⟩ | ⟨-, -, hsome, hr⟩ | ⟨-, -, -, R, t, -, hr⟩
  · rwa [hr]
  · refine .inl (hr.services ▸ hQ.resolve_right fun h => hsome h.2.1)
  · exact .inl (by simp [hr])

lemma Serving.fillTokenBucket (hQ : Serving Q) : Serving (Q.fillTokenBucket K now) := by
  have hpackets : (Q.fillTokenBucket K now).packets = Q.packets := by
    unfold SnsQueue.fillTokenBucket addToken addEvent
    dsimp only
    split_ifs <;> rfl
  have hsame : SameServer Q (Q.fillTokenBucket K now) := .fillTokenBucket
  unfold Serving
  rwa [hsame.services, hsame.busy, hsame.queueProcEvent, hpackets]

/-! ### Whether the token bucket runs -/

lemma tokenBucketRun_startTokenBucket :
    (Q.startTokenBucket K now).tokenBucketRun = (Q.tokenBucketRun || K.snsFlow) := by
  unfold SnsQueue.startTokenBucket
  split_ifs with h
  · simp [h.1]
  · rcases hrun : Q.tokenBucketRun <;> simp_all

lemma tokenBucketRun_enque :
    (Q.enque K now p).tokenBucketRun = (Q.tokenBucketRun || K.snsFlow) := by
  unfold SnsQueue.enque SnsQueue.enqueSim
  dsimp only
  split_ifs
  · exact SameBucket.queueEnque.tokenBucketRun.trans tokenBucketRun_startTokenBucket
  · exact tokenBucketRun_startTokenBucket
  · exact tokenBucketRun_startTokenBucket

lemma tokenBucketRun_packetQueuing :
    (Q.packetQueuing K now p).tokenBucketRun = (Q.tokenBucketRun || K.snsFlow) := by
  unfold SnsQueue.packetQueuing
  dsimp only
  split_ifs <;> exact tokenBucketRun_enque

lemma tokenBucketRun_process (id : ℕ) (e : QueueEvent) :
    (Q.process K now id e).1.tokenBucketRun = Q.tokenBucketRun := by
  cases e with
  | queueProcessing =>
    exact (SameBucket.queueProcessing.trans (.destroyQueueProcEvent id)).tokenBucketRun
  | snsQueueProcessing =>
    simp only [process, SnsQueue.snsQueueProcessing]
    split
    · rfl
    · split_ifs <;> first | rfl | exact SameBucket.queueEnque.tokenBucketRun
  | fillTokenBucket =>
    simp only [process, SnsQueue.fillTokenBucket, addToken]
    split_ifs <;> rfl

end SnsQueue

def SnsLinkAct.isArrive : SnsLinkAct → Bool
  | .arrive .. => true
  | .process _ => false

namespace SnsLink

variable {K : SnsQueueSpec} {s t : SnsLink} {a : SnsLinkAct}

/-- SIMs for which there are tokens, and other packets, are waited for by an event. -/
def WorkConserving (s : SnsLink) : Prop :=
  (s.queue.simPackets ≠ [] → 1 ≤ s.queue.freeTokens → s.queue.wakeups ≠ []) ∧
    (s.queue.packets ≠ [] → s.queue.services ≠ [])

/-- The last `QueueProcessingEvent` does not come while `bytes_in_queue` is `0` and packets wait. -/
def SeesPackets (s : SnsLink) : SnsLinkAct → Prop
  | .process id => ∀ r ∈ s.queue.events.take? id, r.1.kind = .queueProcessing →
      s.queue.packets ≠ [] → s.queue.bytesInQueue = 0 → r.2.ofKind .queueProcessing ≠ []
  | .arrive .. => True

instance (s : SnsLink) : ∀ a, Decidable (s.SeesPackets a)
  | .process id => inferInstanceAs (Decidable (∀ r ∈ s.queue.events.take? id, _))
  | .arrive .. => .isTrue trivial

structure Working (s : SnsLink) : Prop where
  bucket : s.queue.Bucket
  serving : s.queue.Serving
  counted : s.queue.Counted

lemma Working.workConserving (h : Working s) : s.WorkConserving := by
  refine ⟨fun hsims htoken hnone => ?_, fun hp => h.serving.resolve_right fun hidle => hp hidle.2.2⟩
  rcases h.bucket.woken htoken with hle | ⟨-, e, he, -⟩
  · rw [hnone] at hle
    exact hsims (List.eq_nil_of_length_eq_zero (Nat.le_zero.1 hle))
  · rw [hnone] at he
    exact nomatch he

lemma Working.next (hs : Working s) (hK : infinitesimalTime < K.tokenTime) (hC : s.SeesPackets a)
    (h : next K s a = some t) : Working t := by
  have hcounted := counted_next hs.counted h
  rcases next_cases h with ⟨time, p, rfl, -, -, rfl⟩ | ⟨id, e, q, rfl, hq, hdue, rfl⟩
  · exact ⟨hs.bucket.packetQueuing, .inl (SnsQueue.services_packetQueuing hs.serving), hcounted⟩
  · have hserver : ∀ {kind}, e.kind = kind → kind ≠ .queueProcessing →
        SnsQueue.Serving { s.queue with events := q } := by
      rintro kind rfl hne
      have hsame := SnsQueue.SameServer.take? hq hne
      unfold SnsQueue.Serving
      rw [hsame.services]
      exact hs.serving
    unfold processed at hcounted ⊢
    cases hk : e.kind with
    | queueProcessing =>
      rw [hk] at hcounted
      have hsame := SnsQueue.SameBucket.take? hq hk
      refine ⟨?_, ?_, hcounted⟩
      · exact ((hsame.trans .queueProcessing).trans (.destroyQueueProcEvent id)).bucket hs.bucket
      · have hsees : SnsQueue.Serving
            (({ s.queue with events := q } : SnsQueue).queueProcessing K e.time).1 :=
          SnsQueue.serving_queueProcessing ⟨hs.counted.bytes, hs.counted.size, hs.counted.simSize⟩
            fun hp hb => hC (e, q) hq hk hp hb
        exact hsees.destroyQueueProcEvent id
    | snsQueueProcessing =>
      rw [hk] at hcounted
      exact ⟨hs.bucket.snsQueueProcessing hq hk, (hserver hk (by decide)).snsQueueProcessing,
        hcounted⟩
    | fillTokenBucket =>
      rw [hk] at hcounted
      exact ⟨hs.bucket.fillTokenBucket hK hq hk hdue.2, (hserver hk (by decide)).fillTokenBucket,
        hcounted⟩

lemma not_workConserving_next (hC : ¬ s.SeesPackets a)
    (h : SnsLink.next K s a = some t) : ¬ t.WorkConserving := by
  rcases next_cases h with ⟨time, p, rfl, -, -, rfl⟩ | ⟨id, e, q, rfl, hq, -, rfl⟩
  · exact absurd trivial hC
  · simp only [SeesPackets, hq, Option.mem_some_iff, forall_eq'] at hC
    push Not at hC
    obtain ⟨hk, hpackets, hbytes, hlast⟩ := hC
    have hdeque : ({ s.queue with events := q } : SnsQueue).deque = none := by
      unfold SnsQueue.deque
      exact if_neg (by simp [hbytes])
    refine fun hP => hP.2 ?_ ?_
    · unfold processed
      simp only [hk, SnsQueue.process, SnsQueue.queueProcessing, hdeque,
        SnsQueue.destroyQueueProcEvent, reduceCtorEq, if_false]
      exact hpackets
    · unfold processed
      simp only [hk, SnsQueue.process, SnsQueue.queueProcessing, hdeque,
        SnsQueue.destroyQueueProcEvent, reduceCtorEq, if_false]
      exact hlast

lemma tokenBucketRun_next (h : next K s a = some t) :
    t.queue.tokenBucketRun = (s.queue.tokenBucketRun || K.snsFlow && a.isArrive) := by
  rcases next_cases h with ⟨time, p, rfl, -, -, rfl⟩ | ⟨id, e, q, rfl, -, -, rfl⟩
  · rw [SnsLinkAct.isArrive, Bool.and_true]
    exact SnsQueue.tokenBucketRun_packetQueuing
  · rw [SnsLinkAct.isArrive, Bool.and_false, Bool.or_false]
    exact SnsQueue.tokenBucketRun_process id e.kind

lemma tokenBucketRun_exec {as : List SnsLinkAct} (h : exec (machine K) s as = some t) :
    t.queue.tokenBucketRun =
      (s.queue.tokenBucketRun || K.snsFlow && as.any SnsLinkAct.isArrive) := by
  induction as generalizing s with
  | nil =>
    obtain rfl : s = t := by simpa using h
    simp
  | cons a as ih =>
    obtain ⟨u, hu, h⟩ := Option.bind_eq_some_iff.mp h
    rw [ih h, tokenBucketRun_next hu, List.any_cons, Bool.and_or_distrib_left, Bool.or_assoc]

/-- A run that keeps at work: in each of its states the SIMs with tokens and the other packets have
an event coming, and the token bucket of an SNS queue has its one from the first arrival on. -/
def KeepsWorking (K : SnsQueueSpec) (as : List SnsLinkAct) : Prop :=
  ∀ bs, bs <+: as → ∀ s, exec (machine K) init bs = some s → s.WorkConserving ∧
    s.queue.fills.length = if K.snsFlow && bs.any SnsLinkAct.isArrive then 1 else 0

/-- **The queue of an SNS link is never left idle** as long as no last `QueueProcessingEvent` comes
while packets wait that `bytes_in_queue` does not show. -/
theorem keepsWorking_iff_seesPackets (hK : infinitesimalTime < K.tokenTime)
    (as : List SnsLinkAct) : KeepsWorking K as ↔ Along (machine K) SeesPackets init as := by
  have hinit : Working init :=
    ⟨⟨fun _ => ⟨rfl, rfl⟩, nofun, nofun⟩, .inr ⟨rfl, rfl, rfl⟩, ⟨rfl, nofun, nofun⟩⟩
  constructor
  · intro h
    refine (always_iff_along (M := machine K) (J := Working) Working.workConserving
      (fun hs hC ht => hs.next hK hC ht) (fun _ hC ht => not_workConserving_next hC ht) as
      hinit).1 ?_
    exact always_iff_prefix.2 fun bs hbs s hs => (h bs hbs s hs).1
  · intro h bs hbs s hs
    have hworking : Working s := always_iff_prefix.1
      (h.always (M := machine K) (fun hs hC ht => Working.next hs hK hC ht) hinit) bs hbs s hs
    refine ⟨hworking.workConserving, ?_⟩
    have hrun : s.queue.tokenBucketRun = (K.snsFlow && bs.any SnsLinkAct.isArrive) :=
      tokenBucketRun_exec hs
    rw [← hrun]
    split_ifs with hon
    · exact hworking.bucket.on hon
    · rw [(hworking.bucket.off (Bool.not_eq_true _ ▸ hon)).2]
      rfl

/-- The run with two services at once keeps at work. -/
theorem keepsWorking_overlappingRun : KeepsWorking exampleQueue overlappingRun :=
  (keepsWorking_iff_seesPackets (by decide +kernel) _).2 (by decide +kernel)

/-- A queue for headers of 2 GiB, with a `queue_size` of `-1`. -/
def hugeQueue : SnsQueueSpec :=
  { exampleQueue with
    params := { exampleQueue.params with hdrSize := 2147483648, hdrSize_lt := by decide }
    limitBytes := 4294967295 }

/-- Two SIM_ACKs arrive, and `bytes_in_queue` is `0`. -/
def unseenRun : List SnsLinkAct :=
  [.arrive 1 (snsPacket hugeQueue.params .simAck 1 0 0 0 hugeQueue.params.hdrSize 0 1 (-1) 0),
    .arrive 1 (snsPacket hugeQueue.params .simAck 1 0 0 0 hugeQueue.params.hdrSize 0 1 (-1) 1),
    .process 0]

/-- Both packets wait, and no `QueueProcessingEvent` is pending. -/
theorem not_keepsWorking_unseenRun :
    infinitesimalTime < hugeQueue.tokenTime ∧ ¬ KeepsWorking hugeQueue unseenRun := by
  refine ⟨by decide +kernel, fun h => ?_⟩
  have hrun : (exec (machine hugeQueue) init unseenRun).any (fun s =>
      s.queue.packets.length = 2 ∧ s.queue.services.length = 0) = true := by
    decide +kernel
  obtain ⟨s, hs, hpackets, hnone⟩ := exists_exec_of_any hrun
  refine (h unseenRun (List.prefix_refl _) s hs).1.2 ?_ (List.eq_nil_of_length_eq_zero hnone)
  exact List.ne_nil_of_length_eq_add_one hpackets

end SnsLink

end DcSim
