import Consignment.Consumer.Session

/-! Every step of a session uses something up: an error in the script of the store, an item that
waits, or the session itself. -/
namespace Consignment

namespace Broker

def isLive (i : Nat) (b : Broker) : Bool := b.subscriptions[i]?.any (·.live)

def waiting (i : Nat) (b : Broker) : Nat := (b.subscriptions[i]?.map (·.queue.length)).getD 0

theorem not_live_of_ended {i : Nat} {b c : Broker} (h : b.receive i = (.ended, c)) :
    b.isLive i = false := by
  unfold receive at h
  unfold isLive
  cases hs : b.subscriptions[i]? with
  | none => rfl
  | some s =>
    simp only [hs, Subscription.receive] at h
    cases hq : s.queue with
    | nil => cases hl : s.live <;> simp_all
    | cons x xs => simp [hq] at h

theorem receive_item {i : Nat} {b c : Broker} {x : Except ChannelError Delivery}
    (h : b.receive i = (.item x, c)) :
    c.isLive i = b.isLive i ∧ c.waiting i < b.waiting i ∧
      c.subscribeFailures = b.subscribeFailures := by
  unfold receive at h
  cases hs : b.subscriptions[i]? with
  | none => simp [hs] at h
  | some s =>
    obtain ⟨hi, hs'⟩ := List.getElem?_eq_some_iff.1 hs
    simp only [hs, Subscription.receive] at h
    cases hq : s.queue with
    | nil => cases hl : s.live <;> simp [hq, hl] at h
    | cons y ys =>
      simp only [hq, Prod.mk.injEq, Received.item.injEq] at h
      obtain ⟨-, rfl⟩ := h
      simp [isLive, waiting, hi, hs', hq]

end Broker

namespace Session

def pending (s : Session) (site : Site) : Nat :=
  site.broker.waiting s.subscription +
    match s.phase with
    | .retrying _ _ _ => 1
    | .listening => 0
    | .finished => 0

theorem settle_frame (d : Delivery) (r : Except ConsumeError Reconciliation) (s : Session)
    (site : Site) :
    (s.settle d r site).1.subscription = s.subscription ∧
    (s.settle d r site).2.broker.subscriptions = site.broker.subscriptions ∧
    (s.settle d r site).2.broker.subscribeFailures = site.broker.subscribeFailures ∧
    (s.settle d r site).2.store = site.store := by
  unfold settle
  split
  · simp [Site.acknowledge, Broker.acknowledge]
  split <;> simp [Site.acknowledge, Broker.acknowledge]

theorem settle_phase {d : Delivery} {r : Except ConsumeError Reconciliation} {s : Session}
    {site : Site} (h : ∀ e, r = .error e → e.isTransient = false) :
    (s.settle d r site).1.phase = .listening := by
  unfold settle
  split
  · rfl
  · next e => simp [h e rfl]

theorem attempt_progress (p : Policy) (d : Delivery) (failed : Nat) (s : Session) (site : Site) :
    (s.attempt p d failed site).1.subscription = s.subscription ∧
    (s.attempt p d failed site).2.broker.subscriptions = site.broker.subscriptions ∧
    (s.attempt p d failed site).2.broker.subscribeFailures = site.broker.subscribeFailures ∧
    (s.attempt p d failed site).2.store.failures.length ≤ site.store.failures.length ∧
    ((s.attempt p d failed site).2.store.failures.length < site.store.failures.length ∨
      (s.attempt p d failed site).1.phase = .listening) := by
  have hle := Store.consume_le d.payload site.store
  unfold attempt Site.consume
  cases hn : p.next ConsumeError.isTransient failed (site.store.consume d.payload).1 with
  | again wait =>
    obtain ⟨e, hr, ht⟩ := Policy.retryable_of_next hn
    simpa [hn] using ⟨hle, Store.consume_lt hr ht⟩
  | stop answer =>
    have hf := settle_frame d (site.store.consume d.payload).1 s
      { site with store := (site.store.consume d.payload).2 }
    simp only [hn, hf, true_and]
    refine ⟨hle, ?_⟩
    by_cases ht : ∃ e, (site.store.consume d.payload).1 = .error e ∧ e.isTransient
    · obtain ⟨e, hr, ht⟩ := ht
      exact .inl (Store.consume_lt hr ht)
    · exact .inr (settle_phase fun e hr => by simpa using fun h => ht ⟨e, hr, h⟩)

structure Progress (s : Session) (site : Site) (s' : Session) (site' : Site) : Prop where
  subscription : s'.subscription = s.subscription
  subscribeFailures : site'.broker.subscribeFailures = site.broker.subscribeFailures
  live : site'.broker.isLive s.subscription = site.broker.isLive s.subscription
  failures : site'.store.failures.length ≤ site.store.failures.length
  goesOn : s.phase ≠ .finished
  used : site'.store.failures.length < site.store.failures.length ∨
    (s'.phase = .finished ∧
      (s'.summary.shutdownRequested ∨ site.broker.isLive s.subscription = false)) ∨
    (s'.phase ≠ .finished ∧ s'.pending site' < s.pending site)

theorem isLive_congr {b c : Broker} (h : b.subscriptions = c.subscriptions) (i : Nat) :
    b.isLive i = c.isLive i := by simp [Broker.isLive, h]

theorem waiting_congr {b c : Broker} (h : b.subscriptions = c.subscriptions) (i : Nat) :
    b.waiting i = c.waiting i := by simp [Broker.waiting, h]

theorem step?_progress {p : Policy} {signalled signalFirst : Bool} {s s' : Session}
    {site site' : Site} (h : s.step? p signalled signalFirst site = some (s', site')) :
    Progress s site s' site' := by
  have down (h : s.phase ≠ .finished) : Progress s site s.shutDown site :=
    ⟨rfl, rfl, rfl, Nat.le_refl _, h, .inr (.inl ⟨rfl, .inl rfl⟩)⟩
  unfold step? at h
  cases hp : s.phase with
  | finished => simp [hp] at h
  | retrying d failed due =>
    have hgoes : s.phase ≠ .finished := by simp [hp]
    simp only [hp] at h
    split at h
    · have ha := attempt_progress p d failed s site
      obtain ⟨rfl, rfl⟩ := Prod.ext_iff.1 (Option.some.inj h)
      refine ⟨ha.1, ha.2.2.1, isLive_congr ha.2.1 _, ha.2.2.2.1, hgoes, ?_⟩
      rcases ha.2.2.2.2 with hlt | hl
      · exact .inl hlt
      · refine .inr (.inr ⟨by simp [hl], ?_⟩)
        simp [pending, hl, hp, ha.1, waiting_congr ha.2.1]
    · simp at h
  | listening =>
    have hgoes : s.phase ≠ .finished := by simp [hp]
    simp only [hp] at h
    split at h
    · split at h
      · obtain ⟨rfl, rfl⟩ := Prod.ext_iff.1 (Option.some.inj h)
        exact down hgoes
      · simp at h
    · next hr =>
      split at h
      · obtain ⟨rfl, rfl⟩ := Prod.ext_iff.1 (Option.some.inj h)
        exact down hgoes
      · obtain ⟨rfl, rfl⟩ := Prod.ext_iff.1 (Option.some.inj h)
        exact ⟨rfl, rfl, rfl, Nat.le_refl _, hgoes,
          .inr (.inl ⟨rfl, .inr (Broker.not_live_of_ended hr)⟩)⟩
    · next hr =>
      split at h
      · obtain ⟨rfl, rfl⟩ := Prod.ext_iff.1 (Option.some.inj h)
        exact down hgoes
      · obtain ⟨rfl, rfl⟩ := Prod.ext_iff.1 (Option.some.inj h)
        have hi := Broker.receive_item hr
        refine ⟨rfl, hi.2.2, hi.1, Nat.le_refl _, hgoes, .inr (.inr ⟨by simp [countError, hp], ?_⟩)⟩
        simpa [pending, hp, countError] using hi.2.1
    · next d broker hr =>
      split at h
      · obtain ⟨rfl, rfl⟩ := Prod.ext_iff.1 (Option.some.inj h)
        exact down hgoes
      · have hi := Broker.receive_item hr
        have ha := attempt_progress p d 0 s { site with broker }
        obtain ⟨rfl, rfl⟩ := Prod.ext_iff.1 (Option.some.inj h)
        refine ⟨ha.1, ha.2.2.1.trans hi.2.2, (isLive_congr ha.2.1 _).trans hi.1, ha.2.2.2.1, hgoes,
          ?_⟩
        rcases ha.2.2.2.2 with hlt | hl
        · exact .inl hlt
        · refine .inr (.inr ⟨by simp [hl], ?_⟩)
          simpa [pending, hl, hp, ha.1, waiting_congr ha.2.1] using hi.2.1

end Session
end Consignment
