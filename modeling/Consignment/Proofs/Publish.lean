import Consignment.Producer
import Consignment.Proofs.Retry
import Consignment.Proofs.Stage.Order

/-! Publishing while nobody is at work. Every call comes to an answer, and the log grows by exactly
the shipments of those that were answered with a key, in the order of the calls. -/
namespace Consignment

namespace Stage

theorem sleepUntil_alone {s : Stage} (h : s.workers = []) (t : Nat) :
    s.sleepUntil t = s.onSite (·.await t) := by
  have hturn : s.turn = s := by
    obtain ⟨site, workers⟩ := s
    obtain rfl : workers = [] := h
    rfl
  have hdue : s.turn.due? = none := by
    rw [hturn, due?, h]
    rfl
  rw [sleepUntil]
  split
  · next ht =>
    have hclock : max s.site.clock t = s.site.clock := Nat.max_eq_left ht
    simp only [onSite, Site.await, hclock]
  · rw [hturn] at hdue ⊢
    rw [hdue]

/-- What publishing changes: the deliveries `accepted` join the log, and of the rest only the clock,
the counters and what the broker is to answer. -/
structure Offered (s : Stage) (accepted : List Delivery) (s' : Stage) : Prop where
  workers : s'.workers = []
  store : s'.site.store = s.site.store
  sink : s'.site.sink = s.site.sink
  log : s'.site.broker.log = s.site.broker.log ++ accepted
  settled : ∀ {topics : List String} {done : List Delivery},
    s.site.broker.Settled topics done → s'.site.broker.Settled topics done

namespace Offered

theorem refl {s : Stage} (h : s.workers = []) : Offered s [] s :=
  ⟨h, rfl, rfl, (List.append_nil _).symm, fun hset => hset⟩

theorem trans {s t u : Stage} {ds es : List Delivery} (h : Offered s ds t) (g : Offered t es u) :
    Offered s (ds ++ es) u := by
  refine ⟨g.workers, g.store.trans h.store, g.sink.trans h.sink, ?_, ?_⟩
  · rw [g.log, h.log, List.append_assoc]
  · intro topics done hset
    exact g.settled (h.settled hset)

theorem idle {s s' : Stage} (h : s.workers = []) (hworkers : s'.workers = s.workers)
    (hstore : s'.site.store = s.site.store) (hsink : s'.site.sink = s.site.sink)
    (hbroker : s'.site.broker = s.site.broker) : Offered s [] s' := by
  refine ⟨hworkers.trans h, hstore, hsink, ?_, ?_⟩
  · rw [hbroker, List.append_nil]
  · intro topics done hset
    rwa [hbroker]

end Offered
end Stage

namespace Producer

theorem attempt_offered (topic key : String) (payload : Bytes) (n : Nat) {s : Stage}
    (h : s.workers = []) :
    let next := attempt topic key payload (n, s)
    ((∃ e, next.1 = .error e) ∧ s.Offered [] next.2.2) ∨
      (next.1 = .ok () ∧ ∃ d : Delivery, d.topic = topic ∧ d.payload = payload ∧
        s.Offered [d] next.2.2) := by
  intro next
  simp only [next, attempt, Broker.publish]
  cases hf : s.site.broker.publishFailures with
  | cons e es =>
    refine .inl ⟨⟨e, rfl⟩, h, rfl, rfl, (List.append_nil _).symm, ?_⟩
    intro topics done hset
    exact hset.congr rfl rfl rfl rfl
  | nil =>
    refine .inr ⟨rfl, ⟨topic, some key, payload, 0, s.site.broker.nextOffset topic⟩, rfl, rfl,
      h, rfl, rfl, rfl, ?_⟩
    intro topics done hset
    apply Broker.Settled.accept
    exact hset.congr rfl rfl rfl rfl

theorem pause_offered (wait : Span) (n : Nat) {s : Stage} (h : s.workers = []) :
    ∃ s', pause none wait (n, s) = .ok (n, s') ∧ s.Offered [] s' := by
  refine ⟨_, rfl, ?_⟩
  rw [Stage.sleepUntil_alone h]
  exact .idle h rfl rfl rfl rfl

theorem conclude_offered (topic : String) (calls : Nat) (published : Bool) {s : Stage}
    (h : s.workers = []) : s.Offered [] (conclude topic calls published s) := by
  unfold conclude
  split <;> exact .idle h rfl rfl rfl rfl

def Answered (topic key : String) (payload : Bytes) (s : Stage)
    (answer : Except ProduceError String) (s' : Stage) : Prop :=
  (answer = .ok key ∧ ∃ d : Delivery, d.topic = topic ∧ d.payload = payload ∧ s.Offered [d] s') ∨
    ((∃ e, answer = .error e) ∧ s.Offered [] s')

theorem publish_answered (p : Producer) (topic key : String) (payload : Bytes) {s : Stage}
    (h : s.workers = []) :
    ∃ answer s', p.publish none topic key payload s = .ok (answer, s') ∧
      Answered topic key payload s answer s' := by
  have hpauses : ∀ wait (t : Nat × Stage), ∃ u, pause none wait t = .ok u :=
    fun wait t => ⟨_, rfl⟩
  obtain ⟨answer, ⟨calls, t⟩, hloop⟩ : ∃ answer t,
      p.policy.loop ChannelError.isTransient (attempt topic key payload) (pause none) 0 (0, s) =
        .ok (answer, t) := p.policy.loop_answers hpauses 0 (0, s)
  have hagain : ∀ (u : Nat × Stage) (e : ChannelError) (v : Nat × Stage) (wait : Span)
      (w : Nat × Stage), s.Offered [] u.2 → attempt topic key payload u = (.error e, v) →
      pause none wait v = .ok w → s.Offered [] w.2 := by
    intro u e v wait w hu ha hw
    rcases attempt_offered topic key payload u.1 hu.workers with ⟨-, hv⟩ | ⟨hok, -⟩
    · rw [ha] at hv
      obtain ⟨x, hx, hwait⟩ := pause_offered wait v.1 hv.workers
      obtain rfl : (v.1, x) = w := Except.ok.inj (hx.symm.trans hw)
      exact (hu.trans hv).trans hwait
    · rw [ha] at hok
      cases hok
  obtain ⟨u, result, n, hu, ha, hnext⟩ :=
    p.policy.loop_last hagain (Stage.Offered.refl h) hloop
  have hlast := attempt_offered topic key payload u.1 hu.workers
  rw [ha] at hlast
  unfold publish
  rw [hloop]
  rcases Policy.answer_of_next hnext with ⟨a, rfl, rfl⟩ | ⟨e, g, rfl, rfl⟩
  · rcases hlast with ⟨⟨e, he⟩, -⟩ | ⟨-, d, htopic, hpayload, hd⟩
    · cases he
    · refine ⟨_, _, rfl, .inl ⟨rfl, d, htopic, hpayload, ?_⟩⟩
      exact (hu.trans hd).trans (conclude_offered topic calls true hd.workers)
  · rcases hlast with ⟨-, ht⟩ | ⟨hok, -⟩
    · refine ⟨_, _, rfl, .inr ⟨⟨_, rfl⟩, ?_⟩⟩
      exact (hu.trans ht).trans (conclude_offered topic calls false ht.workers)
    · cases hok

end Producer

structure Call where
  sync : Bool
  shipment : Shipment

namespace Producer

def call (p : Producer) (c : Call) (s : Stage) :
    Except Stage (Except ProduceError String × Stage) :=
  if c.sync then p.produceSync none c.shipment s else p.produce none c.shipment s

def callAll (p : Producer) : List Call → Stage →
    Except Stage (List (Except ProduceError String) × Stage)
  | [], s => .ok ([], s)
  | c :: cs, s =>
    match p.call c s with
    | .error cut => .error cut
    | .ok (answer, s) =>
      match p.callAll cs s with
      | .error cut => .error cut
      | .ok (answers, s) => .ok (answer :: answers, s)

/-- The shipments of the calls that were answered with a key. -/
def published : List Call → List (Except ProduceError String) → List Shipment
  | c :: cs, .ok _ :: answers => c.shipment :: published cs answers
  | _ :: cs, .error _ :: answers => published cs answers
  | [], _ => []
  | _ :: _, [] => []

theorem call_answered (p : Producer) (c : Call) {s : Stage} (h : s.workers = []) :
    ∃ answer s', p.call c s = .ok (answer, s') ∧
      ((∃ key, answer = .ok key) ∧ (∃ d : Delivery, d.topic ∈ p.topics.consumed ∧
          d.payload = c.shipment.write ∧ s.Offered [d] s') ∨
        (∃ e, answer = .error e) ∧ s.Offered [] s') := by
  have hpublish : ∀ {topic key : String}, topic ∈ p.topics.consumed →
      ∃ answer s', p.publish none topic key c.shipment.write s = .ok (answer, s') ∧
      ((∃ key, answer = .ok key) ∧ (∃ d : Delivery, d.topic ∈ p.topics.consumed ∧
          d.payload = c.shipment.write ∧ s.Offered [d] s') ∨
        (∃ e, answer = .error e) ∧ s.Offered [] s') := by
    intro topic key htopic
    obtain ⟨answer, s', hp, ⟨hkey, d, rfl, hpayload, hd⟩ | herror⟩ :=
      p.publish_answered topic key c.shipment.write h
    · exact ⟨answer, s', hp, .inl ⟨⟨key, hkey⟩, d, htopic, hpayload, hd⟩⟩
    · exact ⟨answer, s', hp, .inr herror⟩
  unfold call
  split
  · unfold produceSync
    split
    · exact ⟨_, s, rfl, .inr ⟨⟨_, rfl⟩, .refl h⟩⟩
    · exact hpublish (by simp [Topics.consumed])
  · unfold produce
    split
    · exact ⟨_, s, rfl, .inr ⟨⟨_, rfl⟩, .refl h⟩⟩
    · exact hpublish (by simp [Topics.consumed])

theorem callAll_answered (p : Producer) (calls : List Call) {s : Stage} (h : s.workers = []) :
    ∃ answers s' ds, p.callAll calls s = .ok (answers, s') ∧ answers.length = calls.length ∧
      s.Offered ds s' ∧ (∀ d ∈ ds, d.topic ∈ p.topics.consumed) ∧
      ds.map Delivery.payload = (published calls answers).map Shipment.write := by
  induction calls generalizing s with
  | nil => exact ⟨[], s, [], rfl, rfl, .refl h, by simp, rfl⟩
  | cons c cs ih =>
    obtain ⟨answer, t, hcall, hanswer⟩ := p.call_answered c h
    have ht : t.workers = [] := by
      rcases hanswer with ⟨-, d, -, -, hd⟩ | ⟨-, hnone⟩
      · exact hd.workers
      · exact hnone.workers
    obtain ⟨answers, u, ds, hall, hlength, hds, htopics, hpayloads⟩ := ih ht
    have hcalls : p.callAll (c :: cs) s = .ok (answer :: answers, u) := by
      simp [callAll, hcall, hall]
    rcases hanswer with ⟨⟨key, rfl⟩, d, htopic, hpayload, hd⟩ | ⟨⟨e, rfl⟩, hnone⟩
    · refine ⟨_, u, d :: ds, hcalls, by simp [hlength], hd.trans hds, ?_, ?_⟩
      · intro d' hd'
        rcases List.mem_cons.1 hd' with rfl | hd'
        · exact htopic
        · exact htopics d' hd'
      · simp [published, hpayload, hpayloads]
    · exact ⟨_, u, ds, hcalls, by simp [hlength], hnone.trans hds, htopics, hpayloads⟩

end Producer
end Consignment
