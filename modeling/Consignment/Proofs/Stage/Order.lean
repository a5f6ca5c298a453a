import Consignment.Proofs.Stage.Stride

/-! Deliveries are done with in the order of the log, none left out and none twice. Offsets count
the messages of a topic, a committed offset counts those of them that are done with, and so whatever
a worker has in hand or before it is what the log holds behind the last acknowledgement. -/
namespace Consignment

/-! ## The broker -/

namespace Broker

def servedOn (topics : List String) (b : Broker) : List Delivery :=
  b.log.filter fun d => topics.contains d.topic

structure Settled (topics : List String) (done : List Delivery) (b : Broker) : Prop where
  numbered : Numbered b.log
  next : ∀ topic, b.nextOffset topic = (countOn topic b.log : Int)
  acks : b.acks = done.map Delivery.place
  committed : ∀ topic ∈ topics, b.committedOffset topic = (countOn topic done : Int)
  done : done <+: b.servedOn topics

namespace Settled
variable {topics : List String} {done : List Delivery} {b c : Broker}

theorem empty (topics : List String) : Settled topics [] Broker.empty :=
  ⟨Numbered.nil, fun _ => rfl, rfl, fun _ _ => rfl, List.nil_prefix⟩

theorem counted (h : b.Settled topics done) : b.Counted := ⟨h.numbered, h.next⟩

theorem congr (h : b.Settled topics done) (hlog : c.log = b.log) (hoffsets : c.offsets = b.offsets)
    (hacks : c.acks = b.acks) (hcommitted : c.committed = b.committed) : c.Settled topics done := by
  have hcounted := h.counted.congr hlog hoffsets
  refine ⟨hcounted.numbered, hcounted.next, by rw [hacks]; exact h.acks, ?_, ?_⟩
  · intro topic ht
    rw [committedOffset, hcommitted]
    exact h.committed topic ht
  · rw [servedOn, hlog]
    exact h.done

theorem served_numbered (h : b.Settled topics done) : Numbered (b.servedOn topics) :=
  h.numbered.filter topics

theorem served_eq (h : b.Settled topics done) :
    b.servedOn topics = done ++ b.backlog topics := by
  obtain ⟨rest, hrest⟩ := h.done
  have hnumbered : Numbered (done ++ rest) := hrest ▸ h.served_numbered
  have hmem : ∀ d ∈ done ++ rest, d.topic ∈ topics := by
    intro d hd
    rw [hrest] at hd
    simpa using (List.mem_filter.1 hd).2
  have hbacklog : b.backlog topics =
      (b.servedOn topics).filter fun d => b.committedOffset d.topic ≤ d.offset := by
    rw [backlog, servedOn, List.filter_filter]
    congr 1
    funext d
    rw [Bool.and_comm]
  have hdone : (done.filter fun d => b.committedOffset d.topic ≤ d.offset) = [] := by
    apply List.filter_eq_nil_iff.2
    intro d hd
    have hlt := hnumbered.lt_of_mem hd
    rw [← h.committed d.topic (hmem d (by simp [hd]))] at hlt
    simpa using hlt
  have hkept : (rest.filter fun d => b.committedOffset d.topic ≤ d.offset) = rest := by
    apply List.filter_eq_self.2
    intro d hd
    have hle := hnumbered.le_of_mem hd
    rw [← h.committed d.topic (hmem d (by simp [hd]))] at hle
    simpa using hle
  rw [hbacklog, ← hrest, List.filter_append, hdone, hkept]
  rfl

theorem mem_done_iff (h : b.Settled topics done) {d : Delivery} (hd : d ∈ b.servedOn topics) :
    d ∈ done ↔ d.offset < b.committedOffset d.topic := by
  have hnumbered : Numbered (done ++ b.backlog topics) := h.served_eq ▸ h.served_numbered
  have htopic : d.topic ∈ topics := by simpa using (List.mem_filter.1 hd).2
  rw [h.committed d.topic htopic]
  refine ⟨fun hdone => hnumbered.lt_of_mem hdone, fun hlt => ?_⟩
  rw [h.served_eq] at hd
  rcases List.mem_append.1 hd with hdone | hback
  · exact hdone
  · have hle := hnumbered.le_of_mem hback
    omega

theorem servedOn_accept (topics : List String) (topic key : String) (payload : Bytes)
    (b : Broker) : (b.accept topic key payload).servedOn topics = b.servedOn topics ++
      if topics.contains topic then [⟨topic, some key, payload, 0, b.nextOffset topic⟩]
      else [] := by
  simp only [servedOn, accept, List.filter_append]
  cases hc : topics.contains topic <;> simp_all

theorem accept (h : b.Settled topics done) (topic key : String) (payload : Bytes) :
    (b.accept topic key payload).Settled topics done := by
  have hcounted := h.counted.accept topic key payload
  refine ⟨hcounted.numbered, hcounted.next, h.acks, h.committed, ?_⟩
  rw [servedOn_accept]
  exact h.done.trans (List.prefix_append _ _)

theorem acknowledge (h : b.Settled topics done) {d : Delivery} {rest : List Delivery}
    (hd : b.servedOn topics = done ++ d :: rest) :
    (b.acknowledge d.topic d.offset).Settled topics (done ++ [d]) := by
  have hoffset := h.served_numbered done d rest hd
  have hserved : d ∈ b.servedOn topics := by simp [hd]
  have htopic : d.topic ∈ topics := by simpa using (List.mem_filter.1 hserved).2
  refine ⟨h.numbered, h.next, by simp [Broker.acknowledge, h.acks, Delivery.place], ?_, ?_⟩
  · intro topic ht
    rw [committedOffset_acknowledge, h.committed topic ht]
    simp only [countOn_append, countOn_cons, countOn_nil]
    by_cases heq : d.topic = topic
    · subst heq
      simp only [if_true, hoffset]
      omega
    · simp only [if_neg heq]
      omega
  · change done ++ [d] <+: b.servedOn topics
    rw [hd]
    exact ⟨rest, by simp⟩

end Settled
end Broker

/-! ## Sessions -/

namespace Subscription

theorem deliveries_offerOn (topic : String) (d : Delivery) (s : Subscription) :
    (s.offerOn topic d).deliveries =
      s.deliveries ++ if s.topics.contains topic && s.live then [d] else [] := by
  unfold offerOn offer
  cases ht : s.topics.contains topic <;> cases hl : s.live <;>
    simp [deliveries, Except.toOption]

theorem deliveries_offer_error (e : ChannelError) (s : Subscription) :
    (s.offer (.error e)).deliveries = s.deliveries := by
  unfold offer
  cases hl : s.live with
  | false => simp
  | true =>
    simp only [deliveries, if_true, List.filterMap_append]
    exact List.append_nil _

end Subscription

/-- What the session has in hand and before it goes on in the log where `done` ends. As long as the
subscription is live, it goes on to the end. -/
structure Follows (topics : List String) (done : List Delivery) (b : Broker) (x : Session)
    (sub : Subscription) : Prop where
  found : b.subscriptions[x.subscription]? = some sub
  opened : sub.topics = topics
  ahead : done ++ x.inHand ++ sub.deliveries <+: b.servedOn topics
  live : sub.live = true → done ++ x.inHand ++ sub.deliveries = b.servedOn topics

def Session.InOrder (topics : List String) (done : List Delivery) (b : Broker)
    (x : Session) : Prop :=
  x.phase ≠ .finished → ∃ sub, Follows topics done b x sub

namespace Session.InOrder
variable {topics : List String} {done : List Delivery} {b c : Broker} {x : Session}

theorem congr (h : x.InOrder topics done b)
    (hsub : ∀ sub, b.subscriptions[x.subscription]? = some sub →
      c.subscriptions[x.subscription]? = some sub)
    (hlog : c.log = b.log) : x.InOrder topics done c := by
  intro hgoes
  obtain ⟨sub, hfound, htopics, hahead, hlive⟩ := h hgoes
  refine ⟨sub, hsub sub hfound, htopics, ?_, ?_⟩
  · rw [Broker.servedOn, hlog]; exact hahead
  · rw [Broker.servedOn, hlog]; exact hlive

theorem map (h : x.InOrder topics done b) {f : Subscription → Subscription}
    (hsubs : c.subscriptions = b.subscriptions.map f) (hlog : c.log = b.log)
    (htopics : ∀ s, (f s).topics = s.topics) (hqueue : ∀ s, (f s).deliveries = s.deliveries)
    (hlive : ∀ s, (f s).live = true → s.live = true) : x.InOrder topics done c := by
  intro hgoes
  obtain ⟨sub, hsub⟩ := h hgoes
  refine ⟨f sub, ?_, (htopics sub).trans hsub.opened, ?_, ?_⟩
  · rw [hsubs, List.getElem?_map, hsub.found]; rfl
  · rw [hqueue, Broker.servedOn, hlog]; exact hsub.ahead
  · intro hl
    rw [hqueue, Broker.servedOn, hlog]
    exact hsub.live (hlive sub hl)

theorem accept (h : x.InOrder topics done b) (topic key : String) (payload : Bytes) :
    x.InOrder topics done (b.accept topic key payload) := by
  intro hgoes
  obtain ⟨sub, hsub⟩ := h hgoes
  have hfound : (b.accept topic key payload).subscriptions[x.subscription]? =
      some (sub.offerOn topic ⟨topic, some key, payload, 0, b.nextOffset topic⟩) := by
    simp [Broker.accept, List.getElem?_map, hsub.found]
  refine ⟨_, hfound, by simp [hsub.opened], ?_, ?_⟩
  · rw [Subscription.deliveries_offerOn, Broker.Settled.servedOn_accept, hsub.opened]
    cases hl : sub.live with
    | false =>
      simp only [Bool.and_false, Bool.false_eq_true, if_false, List.append_nil]
      exact hsub.ahead.trans (List.prefix_append _ _)
    | true =>
      refine ⟨[], ?_⟩
      rw [List.append_nil, Bool.and_true, ← hsub.live hl, List.append_assoc (done ++ x.inHand)]
  · intro hl
    rw [Subscription.live_offerOn] at hl
    rw [Subscription.deliveries_offerOn, Broker.Settled.servedOn_accept, hsub.opened, hl,
      Bool.and_true, ← hsub.live hl, List.append_assoc (done ++ x.inHand)]

theorem stride {site site' : Site} {x' : Session} {handling : Option Handling}
    (h : x.InOrder topics done site.broker) (hx : x.phase ≠ .finished)
    (hs : Stride handling x site x' site') :
    x'.InOrder topics (done ++ handling.toList.map Handling.delivery) site'.broker := by
  intro hgoes
  obtain ⟨sub, hsub⟩ := h hx
  obtain ⟨sub', hfound, htopics, hlive, hahead⟩ := hs.stream sub hsub.found
  have hserved : site'.broker.servedOn topics = site.broker.servedOn topics := by
    obtain ⟨subs, hbroker⟩ := hs.broker
    rw [hbroker]
    cases handling <;> rfl
  have hsame : done ++ handling.toList.map Handling.delivery ++ x'.inHand ++ sub'.deliveries =
      done ++ x.inHand ++ sub.deliveries := by
    rw [List.append_assoc done x.inHand, hahead hgoes]
    simp
  refine ⟨sub', by rw [hs.subscription]; exact hfound, htopics.trans hsub.opened, ?_, ?_⟩
  · rw [hsame, hserved]
    exact hsub.ahead
  · intro hl
    rw [hsame, hserved]
    exact hsub.live (hlive ▸ hl)

end Session.InOrder

theorem Broker.Settled.stride {topics : List String} {done : List Delivery} {x x' : Session}
    {site site' : Site} {handling : Option Handling} (h : site.broker.Settled topics done)
    (hin : x.InOrder topics done site.broker) (hx : x.phase ≠ .finished)
    (hs : Session.Stride handling x site x' site') :
    site'.broker.Settled topics (done ++ handling.toList.map Handling.delivery) := by
  obtain ⟨subs, hbroker⟩ := hs.broker
  cases handling with
  | none =>
    rw [hbroker]
    simp only [Option.toList_none, List.map_nil, List.append_nil]
    exact h.congr rfl rfl rfl rfl
  | some g =>
    obtain ⟨sub, hsub⟩ := hin hx
    obtain ⟨sub', -, -, -, hahead⟩ := hs.stream sub hsub.found
    obtain ⟨tail, htail⟩ := hsub.ahead
    have hnext : site.broker.servedOn topics =
        done ++ g.delivery :: (x'.inHand ++ sub'.deliveries ++ tail) := by
      rw [← htail, List.append_assoc done x.inHand, hahead (hs.goesOn rfl)]
      simp
    rw [hbroker]
    exact (h.acknowledge hnext).congr rfl rfl rfl rfl

/-! ## Workers -/

namespace Worker

theorem isStopped_of_step? {signalFirst : Bool} {w : Worker} {site : Site} {next : Worker × Site}
    (h : w.step? signalFirst site = some next) : w.isStopped = false := by
  unfold step? at h
  unfold isStopped
  cases hp : w.phase with
  | stopped => simp [hp] at h
  | subscribing => rfl
  | waiting due => rfl
  | consuming x => rfl

theorem inOrder_subscribe {topics : List String} {done : List Delivery} {b c : Broker} {i : Nat}
    (h : b.Settled topics done) (hsub : b.subscribe topics = (.ok i, c)) :
    c.Settled topics done ∧ (Session.start i).InOrder topics done c := by
  unfold Broker.subscribe at hsub
  cases hf : b.subscribeFailures with
  | cons e es => simp [hf] at hsub
  | nil =>
    simp only [hf, Prod.mk.injEq, Except.ok.injEq] at hsub
    obtain ⟨rfl, rfl⟩ := hsub
    refine ⟨h.congr rfl rfl rfl rfl, fun _ => ?_⟩
    have hqueue : (⟨topics, (b.backlog topics).map .ok, true⟩ : Subscription).deliveries =
        b.backlog topics := by
      simp [Subscription.deliveries, List.filterMap_map, Function.comp_def, Except.toOption]
    have hserved : done ++ b.backlog topics = b.servedOn topics := h.served_eq.symm
    refine ⟨⟨topics, (b.backlog topics).map .ok, true⟩, by simp [Session.start], rfl, ?_, ?_⟩
    · rw [hqueue]
      exact ⟨[], by simpa [Session.start, Session.inHand, Broker.servedOn] using hserved⟩
    · intro _
      rw [hqueue]
      simpa [Session.start, Session.inHand, Broker.servedOn] using hserved

theorem settled_subscribe_error {topics opened : List String} {done : List Delivery} {b c : Broker}
    {e : ChannelError} (h : b.Settled topics done) (hsub : b.subscribe opened = (.error e, c)) :
    c.Settled topics done := by
  unfold Broker.subscribe at hsub
  cases hf : b.subscribeFailures with
  | nil => simp [hf] at hsub
  | cons f fs =>
    simp only [hf, Prod.mk.injEq] at hsub
    rw [← hsub.2]
    exact h.congr rfl rfl rfl rfl

theorem inOrder_step? {topics : List String} {done : List Delivery} {signalFirst : Bool}
    {w w' : Worker} {site site' : Site} (hw : w.topics = topics)
    (h : site.broker.Settled topics done)
    (hin : ∀ x, w.phase = .consuming x → x.InOrder topics done site.broker)
    (hstep : w.step? signalFirst site = some (w', site')) :
    let done' := done ++ (w.handling? signalFirst site).toList.map Handling.delivery
    w'.topics = topics ∧ site'.broker.Settled topics done' ∧
      ∀ x, w'.phase = .consuming x → x.InOrder topics done' site'.broker := by
  cases move_of_step? hstep with
  | stops hp hs =>
    simp only [handling?_of_resting hp, Option.toList_none, List.map_nil, List.append_nil]
    exact ⟨hw, h, fun x hx => by cases hx⟩
  | wakes hp =>
    have hrests : ∀ x, w.phase ≠ .consuming x := by simp [hp]
    simp only [handling?_of_resting hrests, Option.toList_none, List.map_nil, List.append_nil]
    exact ⟨hw, h, fun x hx => by cases hx⟩
  | opens hp hb =>
    have hrests : ∀ x, w.phase ≠ .consuming x := by simp [hp]
    simp only [handling?_of_resting hrests, Option.toList_none, List.map_nil, List.append_nil]
    obtain ⟨hset, hstart⟩ := inOrder_subscribe h (hw ▸ hb)
    refine ⟨hw, hset, ?_⟩
    intro x hx
    obtain rfl := Phase.consuming.inj hx
    exact hstart
  | fails hp hb =>
    have hrests : ∀ x, w.phase ≠ .consuming x := by simp [hp]
    simp only [handling?_of_resting hrests, Option.toList_none, List.map_nil, List.append_nil]
    exact ⟨hw, settled_subscribe_error h hb, fun x hx => by cases hx⟩
  | leaves hp hfinished =>
    simp only [handling?_of_consuming hp, Session.handling?_of_finished hfinished,
      Option.toList_none, List.map_nil, List.append_nil]
    refine ⟨?_, h.congr rfl rfl rfl rfl, ?_⟩
    · unfold leave
      split <;> exact hw
    · intro y hy
      unfold leave at hy
      split at hy <;> cases hy
  | consumes hp hgoes hsession =>
    have hx := hin _ hp
    have hstride := Session.step?_stride hsession
    simp only [handling?_of_consuming hp]
    refine ⟨hw, h.stride hx hgoes hstride, ?_⟩
    intro y hy
    obtain rfl := Phase.consuming.inj hy
    exact hx.stride hgoes hstride

end Worker

/-! ## Stages -/

/-- The deliveries `done` are done with, at most one worker is at work, and it goes on where they
end. -/
structure Stage.Orderly (topics : Topics) (done : List Delivery) (s : Stage) : Prop where
  settled : s.site.broker.Settled topics.consumed done
  alone : ∀ {i j : Nat} {v w : Worker}, s.workers[i]? = some v → s.workers[j]? = some w →
    v.isStopped = false → w.isStopped = false → i = j
  employed : ∀ w ∈ s.workers, w.topics = topics.consumed
  inOrder : ∀ w ∈ s.workers, ∀ x, w.phase = .consuming x →
    x.InOrder topics.consumed done s.site.broker

namespace Stage.Orderly
variable {topics : Topics} {done : List Delivery} {s : Stage}

theorem fresh (topics : Topics) (store : Store) (sink : Sink) :
    Orderly topics [] ⟨.fresh store sink, []⟩ :=
  ⟨.empty _, by simp, by simp, by simp⟩

theorem onBroker (h : s.Orderly topics done) {f : Broker → Broker}
    (hset : (f s.site.broker).Settled topics.consumed done)
    (hin : ∀ w ∈ s.workers, ∀ x, w.phase = .consuming x →
      x.InOrder topics.consumed done s.site.broker →
      x.InOrder topics.consumed done (f s.site.broker)) :
    (s.onBroker f).Orderly topics done :=
  ⟨hset, h.alone, h.employed, fun w hw x hx => hin w hw x hx (h.inOrder w hw x hx)⟩

theorem onBroker_congr (h : s.Orderly topics done) {f : Broker → Broker}
    (hlog : (f s.site.broker).log = s.site.broker.log)
    (hoffsets : (f s.site.broker).offsets = s.site.broker.offsets)
    (hacks : (f s.site.broker).acks = s.site.broker.acks)
    (hcommitted : (f s.site.broker).committed = s.site.broker.committed)
    (hsubs : ∀ w ∈ s.workers, ∀ x, w.phase = .consuming x → ∀ sub,
      s.site.broker.subscriptions[x.subscription]? = some sub →
      (f s.site.broker).subscriptions[x.subscription]? = some sub) :
    (s.onBroker f).Orderly topics done := by
  apply h.onBroker
  · exact h.settled.congr hlog hoffsets hacks hcommitted
  · intro w hw x hp hx
    exact hx.congr (hsubs w hw x hp) hlog

theorem publish (h : s.Orderly topics done) (topic key : String) (payload : Bytes) :
    (s.after topics (.publish topic key payload)).Orderly topics done := by
  simp only [after]
  cases hf : s.site.broker.publishFailures with
  | cons e es => apply h.onBroker_congr <;> simp [Broker.publish, hf]
  | nil =>
    apply h.onBroker
    · simp only [Broker.publish, hf]
      apply Broker.Settled.accept
      exact h.settled.congr rfl rfl rfl rfl
    · intro w _ x _ hx
      simp only [Broker.publish, hf]
      apply Session.InOrder.accept
      exact hx.congr (fun _ hsub => hsub) rfl

theorem watch (h : s.Orderly topics done) (opened : List String) :
    (s.after topics (.watch opened)).Orderly topics done := by
  simp only [after]
  cases hf : s.site.broker.subscribeFailures with
  | cons e es => apply h.onBroker_congr <;> simp [Broker.subscribe, hf]
  | nil =>
    apply h.onBroker_congr
    case hsubs =>
      intro w _ x _ sub hsub
      obtain ⟨hlt, -⟩ := List.getElem?_eq_some_iff.1 hsub
      simp only [Broker.subscribe, hf]
      rw [List.getElem?_append_left hlt]
      exact hsub
    all_goals simp [Broker.subscribe, hf]

theorem ne_of_not_attended {i : Nat} (hi : s.isAttended i = false) {w : Worker}
    (hw : w ∈ s.workers) {x : Session} (hx : w.phase = .consuming x) : i ≠ x.subscription := by
  intro heq
  have hany : s.isAttended i = true := by
    apply List.any_eq_true.2
    exact ⟨w, hw, by simp [Worker.attended?, hx, heq]⟩
  rw [hi] at hany
  cases hany

theorem look (h : s.Orderly topics done) (i : Nat) :
    (s.after topics (.look i)).Orderly topics done := by
  cases hi : s.isAttended i with
  | true => simpa [after, hi] using h
  | false =>
    simp only [after, hi, Bool.false_eq_true, if_false]
    cases hs : s.site.broker.subscriptions[i]? with
    | none => apply h.onBroker_congr <;> simp [Broker.receive, hs]
    | some sub =>
      apply h.onBroker_congr
      case hsubs =>
        intro w hw x hp sub' hsub'
        simp only [Broker.receive, hs]
        rw [List.getElem?_set_ne (ne_of_not_attended hi hw hp)]
        exact hsub'
      all_goals simp [Broker.receive, hs]

theorem leave (h : s.Orderly topics done) (i : Nat) :
    (s.after topics (.leave i)).Orderly topics done := by
  cases hi : s.isAttended i with
  | true => simpa [after, hi] using h
  | false =>
    simp only [after, hi, Bool.false_eq_true, if_false]
    apply h.onBroker_congr rfl rfl rfl rfl
    intro w hw x hp sub hsub
    have hne := ne_of_not_attended hi hw hp
    simp [Broker.drop, hne, hsub]

theorem hire (h : s.Orderly topics done) (delay : Span) (storeRetry : Policy) :
    (s.after topics (.hire delay storeRetry)).Orderly topics done := by
  simp only [after]
  split
  · next hall =>
    have hstopped : ∀ w ∈ s.workers, w.isStopped = true := by simpa using hall
    have hlast : ∀ {i : Nat} {w : Worker},
        (s.workers ++ [Worker.start topics delay storeRetry])[i]? = some w →
        w.isStopped = false → i = s.workers.length := by
      intro i w hi hw
      rcases Nat.lt_trichotomy i s.workers.length with hlt | heq | hgt
      · rw [List.getElem?_append_left hlt] at hi
        rw [hstopped w (List.mem_of_getElem? hi)] at hw
        cases hw
      · exact heq
      · rw [List.getElem?_append_right (by omega), List.getElem?_eq_none (by simp; omega)] at hi
        cases hi
    refine ⟨h.settled, ?_, ?_, ?_⟩
    · intro i j v w hi hj hv hw
      rw [hlast hi hv, hlast hj hw]
    · intro w hw
      rcases List.mem_append.1 hw with hw | hw
      · exact h.employed w hw
      · obtain rfl : w = _ := by simpa using hw
        rfl
    · intro w hw x hx
      rcases List.mem_append.1 hw with hw | hw
      · exact h.inOrder w hw x hx
      · obtain rfl : w = _ := by simpa using hw
        simp [Worker.start] at hx
  · exact h

theorem signal (h : s.Orderly topics done) (i : Nat) :
    (s.after topics (.signal i)).Orderly topics done := by
  have hold : ∀ {j : Nat} {w : Worker}, (s.workers.modify i .signal)[j]? = some w →
      ∃ v, s.workers[j]? = some v ∧ w.phase = v.phase ∧ w.topics = v.topics := by
    intro j w hj
    rw [List.getElem?_modify] at hj
    obtain ⟨v, hv, rfl⟩ := Option.map_eq_some_iff.1 hj
    refine ⟨v, hv, ?_, ?_⟩ <;> split <;> rfl
  refine ⟨h.settled, ?_, ?_, ?_⟩
  · intro j k v w hj hk hv hw
    obtain ⟨v', hv', hphase, -⟩ := hold hj
    obtain ⟨w', hw', hphase', -⟩ := hold hk
    refine h.alone hv' hw' ?_ ?_
    · simpa [Worker.isStopped, hphase] using hv
    · simpa [Worker.isStopped, hphase'] using hw
  · intro w hw
    obtain ⟨j, hj⟩ := List.mem_iff_getElem?.1 hw
    obtain ⟨v, hv, -, htopics⟩ := hold hj
    rw [htopics]
    exact h.employed v (List.mem_of_getElem? hv)
  · intro w hw x hx
    obtain ⟨j, hj⟩ := List.mem_iff_getElem?.1 hw
    obtain ⟨v, hv, hphase, -⟩ := hold hj
    exact h.inOrder v (List.mem_of_getElem? hv) x (hphase ▸ hx)

theorem work (h : s.Orderly topics done) (i : Nat) (signalFirst : Bool) :
    (s.after topics (.work i signalFirst)).Orderly topics
      (done ++ (s.handling? (.work i signalFirst)).toList.map Handling.delivery) := by
  cases hi : s.workers[i]? with
  | none => simpa [after, Stage.handling?, hi] using h
  | some w =>
    have hw : w ∈ s.workers := List.mem_of_getElem? hi
    cases hstep : w.step? signalFirst s.site with
    | none =>
      have hnone := Worker.handling?_of_idle hstep
      simpa [after, Stage.handling?, hi, hstep, hnone] using h
    | some next =>
      obtain ⟨w', site'⟩ := next
      obtain ⟨htopics, hsettled, hin⟩ :=
        Worker.inOrder_step? (h.employed w hw) h.settled (h.inOrder w hw) hstep
      have hactive : w.isStopped = false := Worker.isStopped_of_step? hstep
      have hold : ∀ {j : Nat} {v : Worker}, (s.workers.set i w')[j]? = some v →
          v.isStopped = false → i = j ∧ v = w' := by
        intro j v hj hv
        by_cases hij : i = j
        · subst hij
          rw [List.getElem?_set_self (List.getElem?_eq_some_iff.1 hi).1] at hj
          exact ⟨rfl, (Option.some.inj hj).symm⟩
        · rw [List.getElem?_set_ne hij] at hj
          exact absurd (h.alone hi hj hactive hv) hij
      simp only [after, Stage.handling?, hi, hstep]
      refine ⟨hsettled, ?_, ?_, ?_⟩
      · intro j k v u hj hk hv hu
        rw [← (hold hj hv).1, ← (hold hk hu).1]
      · intro v hv
        rcases List.mem_or_eq_of_mem_set hv with hv | rfl
        · exact h.employed v hv
        · exact htopics
      · intro v hv x hx
        obtain ⟨j, hj⟩ := List.mem_iff_getElem?.1 hv
        obtain ⟨-, rfl⟩ := hold hj (by simp [Worker.isStopped, hx])
        exact hin x hx

theorem transportError (h : s.Orderly topics done) (error : ChannelError) :
    (s.after topics (.transportError error)).Orderly topics done := by
  apply h.onBroker
  · exact h.settled.congr rfl rfl rfl rfl
  · intro w _ x _ hx
    exact hx.map rfl rfl (by simp) (Subscription.deliveries_offer_error error) (by simp)

theorem close (h : s.Orderly topics done) : (s.after topics .close).Orderly topics done := by
  apply h.onBroker
  · exact h.settled.congr rfl rfl rfl rfl
  · intro w _ x _ hx
    exact hx.map rfl rfl (fun _ => rfl) (fun _ => rfl) (fun _ hl => by cases hl)

theorem of_unhandled {e : Event} (he : s.handling? e = none)
    (h : (s.after topics e).Orderly topics done) :
    (s.after topics e).Orderly topics
      (done ++ (s.handling? e).toList.map Handling.delivery) := by
  rwa [he, Option.toList_none, List.map_nil, List.append_nil]

theorem after (h : s.Orderly topics done) (e : Event) :
    (s.after topics e).Orderly topics
      (done ++ (s.handling? e).toList.map Handling.delivery) := by
  cases e with
  | work i signalFirst => exact h.work i signalFirst
  | publish topic key payload => exact of_unhandled rfl (h.publish topic key payload)
  | watch opened => exact of_unhandled rfl (h.watch opened)
  | look i => exact of_unhandled rfl (h.look i)
  | leave i => exact of_unhandled rfl (h.leave i)
  | hire delay storeRetry => exact of_unhandled rfl (h.hire delay storeRetry)
  | signal i => exact of_unhandled rfl (h.signal i)
  | transportError error => exact of_unhandled rfl (h.transportError error)
  | close => exact of_unhandled rfl h.close
  | failStore errors => exact of_unhandled rfl ⟨h.settled, h.alone, h.employed, h.inOrder⟩
  | pass ms => exact of_unhandled rfl ⟨h.settled, h.alone, h.employed, h.inOrder⟩
  | failPublish errors =>
    exact of_unhandled rfl (h.onBroker_congr rfl rfl rfl rfl fun _ _ _ _ _ hsub => hsub)
  | failSubscribe error =>
    exact of_unhandled rfl (h.onBroker_congr rfl rfl rfl rfl fun _ _ _ _ _ hsub => hsub)

theorem afterAll (h : s.Orderly topics done) (es : List Event) :
    (s.afterAll topics es).Orderly topics
      (done ++ (s.handlings topics es).map Handling.delivery) := by
  have hstep : ∀ (hs : List Handling) (s : Stage), ∀ e ∈ es,
      s.Orderly topics (done ++ hs.map Handling.delivery) →
      (s.after topics e).Orderly topics
        (done ++ (hs ++ (s.handling? e).toList).map Handling.delivery) := by
    intro hs s e _ h
    rw [List.map_append, ← List.append_assoc]
    exact h.after e
  have hstart : s.Orderly topics (done ++ ([] : List Handling).map Handling.delivery) := by
    rwa [List.map_nil, List.append_nil]
  have hrun := Stage.afterAll_induction hstep hstart
  rwa [List.nil_append] at hrun

end Stage.Orderly

theorem Stage.consumed_of_mem_handlings {topics : Topics} {h : Handling} {s : Stage}
    {es : List Event} (hh : h ∈ s.handlings topics es) :
    ConsumeError.unsettled h.outcome = false ∧ ∃ front e back, es = front ++ e :: back ∧
      (s.afterAll topics front).site.store.consume h.delivery.payload =
        (h.outcome, (s.afterAll topics (front ++ [e])).site.store) := by
  obtain ⟨front, e, back, rfl, he⟩ := Stage.exists_of_mem_handlings hh
  have hno : ∀ errors, e ≠ .failStore errors := by
    intro errors hfail
    subst hfail
    cases he
  obtain ⟨hsettled, hstore, -⟩ := ((s.afterAll topics front).after_consumed topics hno).settled h he
  refine ⟨hsettled, front, e, back, rfl, ?_⟩
  rw [Stage.afterAll_append]
  exact hstore

/-- At every moment the acknowledgements are those of the log, as far as it is consumed, from its
start and in its order. What is below a committed offset was consumed, and the next subscription
starts with all the rest. -/
theorem Stage.acknowledged_once_in_order (topics : Topics) (store : Store) (sink : Sink)
    (es : List Event) :
    let start : Stage := ⟨.fresh store sink, []⟩
    let b := (start.afterAll topics es).site.broker
    let handled := start.handlings topics es
    let done := handled.map Handling.delivery
    let served := b.servedOn topics.consumed
    b.acks <+: served.map Delivery.place ∧ b.acks.Nodup ∧
    b.acks = done.map Delivery.place ∧ done <+: served ∧
    (∀ h ∈ handled, ConsumeError.unsettled h.outcome = false ∧
      ∃ front e back, es = front ++ e :: back ∧
        (start.afterAll topics front).site.store.consume h.delivery.payload =
          (h.outcome, (start.afterAll topics (front ++ [e])).site.store)) ∧
    (∀ d ∈ served, d.offset < b.committedOffset d.topic ↔ d ∈ done) ∧
    ∀ i c, b.subscribe topics.consumed = (.ok i, c) →
      c.subscriptions[i]? = some ⟨topics.consumed, (served.drop done.length).map .ok, true⟩ := by
  intro start b handled done served
  have hsettled : b.Settled topics.consumed done :=
    ((Orderly.fresh topics store sink).afterAll es).settled
  have hserved : served = done ++ b.backlog topics.consumed := hsettled.served_eq
  have hacks : b.acks = done.map Delivery.place := hsettled.acks
  have hfront : b.acks <+: served.map Delivery.place := by
    rw [hacks]
    exact hsettled.done.map _
  refine ⟨hfront, ?_, hacks, hsettled.done, ?_, ?_, ?_⟩
  · exact hfront.sublist.nodup hsettled.served_numbered.nodup_place
  · intro h hh
    exact consumed_of_mem_handlings hh
  · intro d hd
    exact (hsettled.mem_done_iff hd).symm
  · intro i c hsub
    have hbacklog : served.drop done.length = b.backlog topics.consumed := by
      rw [hserved, List.drop_left]
    rw [hbacklog]
    unfold Broker.subscribe at hsub
    cases hf : b.subscribeFailures with
    | cons e es => simp [hf] at hsub
    | nil =>
      simp only [hf, Prod.mk.injEq, Except.ok.injEq] at hsub
      obtain ⟨rfl, rfl⟩ := hsub
      simp

end Consignment
