import Consignment.Proofs.Stage.Move

/-! One step of a session, seen from outside: it either is done with a delivery, which is then
acknowledged and leaves the store as consuming it does, or it changes nothing but what waits in its
subscription and the script of the store. -/
namespace Consignment

def DeadLetter.of? (d : Delivery) (outcome : Except ConsumeError Reconciliation) :
    Option DeadLetter :=
  match outcome with
  | .ok _ => none
  | .error e => e.letterReason.map fun reason => ⟨d, reason, e.message⟩

def Handling.letter? (h : Handling) : Option DeadLetter := DeadLetter.of? h.delivery h.outcome

def Subscription.deliveries (s : Subscription) : List Delivery :=
  s.queue.filterMap Except.toOption

def Broker.acknowledged (b : Broker) : Option Handling → Broker
  | none => b
  | some h => b.acknowledge h.delivery.topic h.delivery.offset

namespace Policy

theorem next_of_settled (p : Policy) (failed : Nat) {r : Except ConsumeError Reconciliation}
    (h : ConsumeError.unsettled r = false) :
    ∃ answer, p.next ConsumeError.isTransient failed r = .stop answer := by
  cases r with
  | ok a => exact ⟨_, rfl⟩
  | error e =>
    refine ⟨.error (.aborted (failed + 1) e), ?_⟩
    have he : e.isTransient = false := h
    simp [next, he]

end Policy

namespace Site

theorem conclude_sink (d : Delivery) {r : Except ConsumeError Reconciliation}
    (h : ConsumeError.unsettled r = false) (s : Site) :
    (s.conclude d r).sink = ((DeadLetter.of? d r).elim s.sink s.sink.record) := by
  cases r with
  | ok a => rfl
  | error e =>
    have he : e.isTransient = false := h
    cases e <;> simp_all [conclude, DeadLetter.of?, ConsumeError.letterReason, bury, increment,
      ConsumeError.isTransient]

theorem conclude_sink_of_unsettled (d : Delivery) {r : Except ConsumeError Reconciliation}
    (h : ConsumeError.unsettled r = true) (s : Site) : (s.conclude d r).sink = s.sink := by
  cases r with
  | ok a => cases h
  | error e =>
    have he : e.isTransient = true := h
    cases e <;> simp_all [conclude, increment, ConsumeError.isTransient]

end Site

/-- What a step that was the end of the delivery in `handling` did to the store and the sink. -/
structure Site.Consumed (handling : Option Handling) (site site' : Site) : Prop where
  settled : ∀ h, handling = some h → ConsumeError.unsettled h.outcome = false ∧
    site.store.consume h.delivery.payload = (h.outcome, site'.store) ∧
    site'.sink = h.letter?.elim site.sink site.sink.record
  unsettled : handling = none → site'.sink = site.sink ∧ (site'.store = site.store ∨
    ∃ payload, ConsumeError.unsettled (site.store.consume payload).1 = true ∧
      site'.store = (site.store.consume payload).2)

theorem Site.Consumed.none {site site' : Site} (hsink : site'.sink = site.sink)
    (hstore : site'.store = site.store) : site.Consumed none site' :=
  ⟨by simp, fun _ => ⟨hsink, .inl hstore⟩⟩

namespace Session

def inHand (x : Session) : List Delivery :=
  match x.phase with
  | .retrying d _ _ => [d]
  | .listening => []
  | .finished => []

/-- What a session did to a site in one step that was the end of the delivery in `handling`. -/
structure Stride (handling : Option Handling) (x : Session) (site : Site) (x' : Session)
    (site' : Site) : Prop where
  subscription : x'.subscription = x.subscription
  broker : ∃ subs, site'.broker = { site.broker.acknowledged handling with subscriptions := subs }
  stream : ∀ sub, site.broker.subscriptions[x.subscription]? = some sub →
    ∃ sub', site'.broker.subscriptions[x.subscription]? = some sub' ∧ sub'.topics = sub.topics ∧
      sub'.live = sub.live ∧ (x'.phase ≠ .finished → x.inHand ++ sub.deliveries =
        handling.toList.map Handling.delivery ++ x'.inHand ++ sub'.deliveries)
  goesOn : handling.isSome → x'.phase ≠ .finished
  consumed : site.Consumed handling site'

theorem verdict?_of_settled {d : Delivery} {site : Site}
    (h : ConsumeError.unsettled (site.store.consume d.payload).1 = false) :
    site.verdict? d = some ⟨d, (site.store.consume d.payload).1⟩ := by
  simp [Site.verdict?, h]

theorem verdict?_of_unsettled {d : Delivery} {site : Site}
    (h : ConsumeError.unsettled (site.store.consume d.payload).1 = true) :
    site.verdict? d = none := by
  simp [Site.verdict?, h]

theorem settle_of_settled {d : Delivery} {r : Except ConsumeError Reconciliation}
    (h : ConsumeError.unsettled r = false) (x : Session) (site : Site) :
    x.settle d r site = ({ x with phase := .listening, summary := x.summary.record r },
      (site.conclude d r).acknowledge d) := by
  cases r with
  | ok a => rfl
  | error e =>
    have he : e.isTransient = false := h
    simp [settle, he]

theorem settle_of_unsettled {d : Delivery} {r : Except ConsumeError Reconciliation}
    (h : ConsumeError.unsettled r = true) (x : Session) (site : Site) :
    x.settle d r site =
      ({ x with phase := .finished, summary := { x.summary with storeUnavailable := true } },
        site.conclude d r) := by
  cases r with
  | ok a => cases h
  | error e =>
    have he : e.isTransient = true := h
    simp [settle, he]

theorem attempt_of_unsettled (p : Policy) (d : Delivery) (failed : Nat) (x : Session) {site : Site}
    (h : ConsumeError.unsettled (site.store.consume d.payload).1 = true) :
    (x.attempt p d failed site).1.subscription = x.subscription ∧
    ((x.attempt p d failed site).1.phase ≠ .finished →
      (x.attempt p d failed site).1.inHand = [d]) ∧
    (x.attempt p d failed site).2.broker = site.broker ∧
    (x.attempt p d failed site).2.sink = site.sink ∧
    (x.attempt p d failed site).2.store = (site.store.consume d.payload).2 := by
  unfold attempt Site.consume
  cases hn : p.next ConsumeError.isTransient failed (site.store.consume d.payload).1 with
  | again wait => simp [hn, inHand]
  | stop answer =>
    simp only [hn]
    cases hr : (site.store.consume d.payload).1 with
    | ok a => simp [hr, ConsumeError.unsettled] at h
    | error e =>
      have he : e.isTransient = true := by simpa [hr, ConsumeError.unsettled] using h
      rw [hr] at h
      simp [settle, he, Site.conclude_sink_of_unsettled d h]

theorem attempt_of_settled (p : Policy) (d : Delivery) (failed : Nat) (x : Session) {site : Site}
    (h : ConsumeError.unsettled (site.store.consume d.payload).1 = false) :
    x.attempt p d failed site = x.settle d (site.store.consume d.payload).1
      { site with store := (site.store.consume d.payload).2 } := by
  obtain ⟨answer, hn⟩ := p.next_of_settled failed h
  simp [attempt, Site.consume, hn]

theorem attempt_stride (p : Policy) (failed : Nat) {d : Delivery} {x : Session} {site : Site}
    {b : Broker} (hb : ∃ subs, b = { site.broker with subscriptions := subs })
    (hd : ∀ sub, site.broker.subscriptions[x.subscription]? = some sub →
      ∃ sub', b.subscriptions[x.subscription]? = some sub' ∧ sub'.topics = sub.topics ∧
        sub'.live = sub.live ∧ x.inHand ++ sub.deliveries = d :: sub'.deliveries) :
    Stride (({ site with broker := b } : Site).verdict? d) x site
      (x.attempt p d failed { site with broker := b }).1
      (x.attempt p d failed { site with broker := b }).2 := by
  obtain ⟨subs, rfl⟩ := hb
  generalize hsite : ({ site with broker := { site.broker with subscriptions := subs } } : Site)
    = taken at *
  have hstore : taken.store = site.store := by rw [← hsite]
  have hsink : taken.sink = site.sink := by rw [← hsite]
  have hbroker : taken.broker = { site.broker with subscriptions := subs } := by rw [← hsite]
  cases hu : ConsumeError.unsettled (taken.store.consume d.payload).1 with
  | true =>
    rw [verdict?_of_unsettled hu]
    obtain ⟨h1, h2, h3, h4, h5⟩ := attempt_of_unsettled p d failed x hu
    refine ⟨h1, ⟨subs, h3.trans hbroker⟩, ?_, by simp,
      ⟨by simp, fun _ => ⟨h4.trans hsink, .inr ?_⟩⟩⟩
    · intro sub hsub
      obtain ⟨sub', hsub', htopics, hlive, hahead⟩ := hd sub hsub
      refine ⟨sub', by rw [h3, hbroker]; exact hsub', htopics, hlive, ?_⟩
      intro hgoes
      rw [h2 hgoes, hahead]
      rfl
    · exact ⟨d.payload, by rw [← hstore]; exact hu, by rw [← hstore]; exact h5⟩
  | false =>
    rw [verdict?_of_settled hu, attempt_of_settled p d failed x hu, settle_of_settled hu]
    refine ⟨rfl, ⟨subs, ?_⟩, ?_, by simp, ⟨?_, by simp⟩⟩
    · simp only [Site.acknowledge, Site.conclude_broker, hbroker]
      rfl
    · intro sub hsub
      obtain ⟨sub', hsub', htopics, hlive, hahead⟩ := hd sub hsub
      refine ⟨sub', ?_, htopics, hlive, fun _ => by rw [hahead]; rfl⟩
      simpa [Site.acknowledge, Broker.acknowledge, hbroker] using hsub'
    · intro h hh
      obtain rfl := Option.some.inj hh
      refine ⟨hu, ?_, ?_⟩
      · simp [Site.acknowledge, ← hstore]
      · simp only [Site.acknowledge, Handling.letter?]
        rw [Site.conclude_sink d hu, ← hsink]

theorem Stride.over {x x' : Session} {site : Site} (hs : x'.subscription = x.subscription)
    (hx : x'.phase = .finished) : Stride none x site x' site := by
  refine ⟨hs, ⟨site.broker.subscriptions, rfl⟩, ?_, by simp, .none rfl rfl⟩
  intro sub hsub
  exact ⟨sub, hsub, rfl, rfl, fun hgoes => absurd hx hgoes⟩

theorem receive_stream {b c : Broker} {i : Nat} {item : Except ChannelError Delivery}
    (h : b.receive i = (.item item, c)) :
    (∃ subs, c = { b with subscriptions := subs }) ∧
    ∀ sub, b.subscriptions[i]? = some sub → ∃ sub', c.subscriptions[i]? = some sub' ∧
      sub'.topics = sub.topics ∧ sub'.live = sub.live ∧
      sub.deliveries = item.toOption.toList ++ sub'.deliveries := by
  unfold Broker.receive at h
  cases hs : b.subscriptions[i]? with
  | none => simp [hs] at h
  | some sub =>
    obtain ⟨hi, -⟩ := List.getElem?_eq_some_iff.1 hs
    simp only [hs, Subscription.receive] at h
    cases hq : sub.queue with
    | nil => cases hl : sub.live <;> simp [hq, hl] at h
    | cons y ys =>
      simp only [hq, Prod.mk.injEq, Received.item.injEq] at h
      obtain ⟨rfl, rfl⟩ := h
      refine ⟨⟨_, rfl⟩, ?_⟩
      intro sub₁ hsub₁
      obtain rfl := Option.some.inj hsub₁
      refine ⟨{ sub with queue := ys }, by simp [hi], rfl, rfl, ?_⟩
      rw [Subscription.deliveries, hq]
      cases y <;> rfl

theorem step?_stride {p : Policy} {signalled signalFirst : Bool} {x x' : Session}
    {site site' : Site} (h : x.step? p signalled signalFirst site = some (x', site')) :
    Stride (x.handling? signalled signalFirst site) x site x' site' := by
  unfold handling?
  cases move_of_step? h with
  | @retries d failed due hx hdue =>
    have htaken : x.taken? signalled signalFirst site = some d := by
      simp only [taken?, hx, if_pos hdue]
    rw [htaken]
    refine attempt_stride p failed ⟨site.broker.subscriptions, rfl⟩ ?_
    intro sub hsub
    exact ⟨sub, hsub, rfl, rfl, by simp [inHand, hx]⟩
  | @takes d b hx hs hr =>
    have htaken : x.taken? signalled signalFirst site = some d := by
      simp only [taken?, hx, hs, hr, Received.delivery?]
      rfl
    obtain ⟨hb, hstream⟩ := receive_stream hr
    rw [htaken]
    refine attempt_stride p 0 hb ?_
    intro sub hsub
    obtain ⟨sub', hsub', htopics, hlive, hqueue⟩ := hstream sub hsub
    refine ⟨sub', hsub', htopics, hlive, ?_⟩
    rw [hqueue]
    simp [inHand, hx, Except.toOption]
  | misses hx hs hr =>
    have htaken : x.taken? signalled signalFirst site = none := by
      simp only [taken?, hx, hs, hr, Received.delivery?]
      rfl
    obtain ⟨hb, hstream⟩ := receive_stream hr
    rw [htaken]
    refine ⟨rfl, hb, ?_, by simp, .none rfl rfl⟩
    intro sub hsub
    obtain ⟨sub', hsub', htopics, hlive, hqueue⟩ := hstream sub hsub
    refine ⟨sub', hsub', htopics, hlive, fun _ => ?_⟩
    rw [hqueue]
    simp [inHand, hx, countError, Except.toOption]
  | ends hx hr =>
    have htaken : x.taken? signalled signalFirst site = none := by
      simp [taken?, hx, hr, Received.delivery?]
    rw [htaken]
    exact .over rfl rfl
  | stops hx hs hr =>
    have htaken : x.taken? signalled signalFirst site = none := by
      rcases hr with hfirst | hpending
      · simp [taken?, hx, hs, hfirst]
      · simp [taken?, hx, hpending, Received.delivery?]
    rw [htaken]
    exact .over rfl rfl

end Session

theorem Worker.step?_consumed {signalFirst : Bool} {w w' : Worker} {site site' : Site}
    (h : w.step? signalFirst site = some (w', site')) :
    site.Consumed (w.handling? signalFirst site) site' := by
  cases move_of_step? h with
  | stops hw hs =>
    rw [handling?_of_resting hw]
    exact .none rfl rfl
  | wakes hw =>
    rw [handling?_of_resting (by simp [hw])]
    exact .none rfl rfl
  | opens hw hb =>
    rw [handling?_of_resting (by simp [hw])]
    exact .none rfl rfl
  | fails hw hb =>
    rw [handling?_of_resting (by simp [hw])]
    exact .none rfl rfl
  | leaves hw hx =>
    rw [handling?_of_consuming hw, Session.handling?_of_finished hx]
    exact .none rfl rfl
  | consumes hw hx hstep =>
    rw [handling?_of_consuming hw]
    exact (Session.step?_stride hstep).consumed

theorem Stage.after_consumed (topics : Topics) (s : Stage) {e : Event}
    (he : ∀ errors, e ≠ .failStore errors) :
    s.site.Consumed (s.handling? e) (s.after topics e).site := by
  cases e with
  | failStore errors => exact absurd rfl (he errors)
  | work i signalFirst =>
    cases hi : s.workers[i]? with
    | none => simpa [after, Stage.handling?, hi] using Site.Consumed.none rfl rfl
    | some w =>
      cases hstep : w.step? signalFirst s.site with
      | none =>
        simpa [after, Stage.handling?, hi, hstep, Worker.handling?_of_idle hstep]
          using Site.Consumed.none rfl rfl
      | some next => simpa [after, Stage.handling?, hi, hstep] using Worker.step?_consumed hstep
  | hire delay storeRetry =>
    have hsame : (s.after topics (.hire delay storeRetry)).site = s.site := by
      simp only [after]
      split <;> rfl
    rw [hsame]
    exact .none rfl rfl
  | look i =>
    simp only [after]
    split <;> exact .none rfl rfl
  | leave i =>
    simp only [after]
    split <;> exact .none rfl rfl
  | _ => exact .none rfl rfl

end Consignment
