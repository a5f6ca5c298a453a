import Consignment.Proofs.Lookup
import Consignment.Proofs.Stage.Order

/-! What failures of the store that pass leave behind: nothing. Records and letters are those of
consuming what was acknowledged, once each and in that order, in a store that never fails. -/
namespace Consignment

namespace Broker

def acknowledgedDeliveries (b : Broker) : List Delivery :=
  b.acks.filterMap fun place => b.log.find? (·.place = place)

end Broker

namespace Store

/-- The deliveries one after the other, an attempt each, with the letters about them. -/
def consumeAll : List Delivery → Store → Store × List DeadLetter
  | [], s => (s, [])
  | d :: ds, s =>
    let (outcome, s) := s.consume d.payload
    let (s, letters) := consumeAll ds s
    (s, (DeadLetter.of? d outcome).toList ++ letters)

theorem consumeAll_append (ds es : List Delivery) (s : Store) :
    s.consumeAll (ds ++ es) = (((s.consumeAll ds).1.consumeAll es).1,
      (s.consumeAll ds).2 ++ ((s.consumeAll ds).1.consumeAll es).2) := by
  induction ds generalizing s with
  | nil => rfl
  | cons d ds ih =>
    simp only [List.cons_append, consumeAll, ih, List.append_assoc]

theorem reason_of_consumeAll (ds : List Delivery) {s : Store} (hs : s.failures = []) :
    (s.consumeAll ds).1.failures = [] ∧ ∀ l ∈ (s.consumeAll ds).2, l.reason ≠ .store := by
  induction ds generalizing s with
  | nil => exact ⟨hs, by simp [consumeAll]⟩
  | cons d ds ih =>
    simp only [consumeAll]
    rcases consume_cases d.payload s with ⟨e, rest, hf, -⟩ | ⟨e, he, hc, -⟩ |
      ⟨incoming, id, status, record, done, -, -, -, -, hc⟩
    · simp [hs] at hf
    · obtain ⟨hquiet, hreason⟩ := ih hs
      rw [hc]
      refine ⟨hquiet, ?_⟩
      intro l hl
      rcases List.mem_append.1 hl with hl | hl
      · cases e with
        | store e => cases he
        | malformed reason =>
          obtain rfl := List.mem_singleton.1 hl
          exact LetterReason.noConfusion
        | invalid error =>
          obtain rfl := List.mem_singleton.1 hl
          exact LetterReason.noConfusion
        | illegal id stored incoming => cases hl
      · exact hreason l hl
    · rw [hc]
      exact ih hs

end Store

theorem Broker.Settled.acknowledgedDeliveries {topics : List String} {done : List Delivery}
    {b : Broker} (h : b.Settled topics done) : b.acknowledgedDeliveries = done := by
  rw [Broker.acknowledgedDeliveries, h.acks]
  apply filterMap_find?_of_nodup h.numbered.nodup_place
  intro d hd
  exact (List.mem_filter.1 (h.done.subset hd)).1

/-- The store and the sink are what consuming the deliveries of `done` once leaves behind. -/
structure Stage.Replayed (store : Store) (letters : List DeadLetter) (done : List Delivery)
    (s : Stage) : Prop where
  script : ∀ e ∈ s.site.store.failures, e.isTransient = true
  stored : s.site.store.atRest = (store.atRest.consumeAll done).1
  buried : s.site.sink = .keeping (letters ++ (store.atRest.consumeAll done).2)

namespace Stage.Replayed
variable {store : Store} {letters : List DeadLetter} {done : List Delivery} {s : Stage}

theorem step (h : s.Replayed store letters done) {handling : Option Handling} {s' : Stage}
    (hc : s.site.Consumed handling s'.site) :
    s'.Replayed store letters (done ++ handling.toList.map Handling.delivery) := by
  cases handling with
  | none =>
    obtain ⟨hsink, hstore⟩ := hc.unsettled rfl
    rw [Option.toList_none, List.map_nil, List.append_nil]
    rcases hstore with hstore | ⟨payload, hu, hstore⟩
    · refine ⟨?_, ?_, by rw [hsink]; exact h.buried⟩
      · rw [hstore]
        exact h.script
      · rw [hstore]
        exact h.stored
    · obtain ⟨e, hscript, hrest⟩ := Store.consume_of_unsettled hu
      refine ⟨?_, ?_, by rw [hsink]; exact h.buried⟩
      · intro f hf
        apply h.script
        rw [hscript, ← hstore]
        exact List.mem_cons_of_mem _ hf
      · rw [hstore, hrest]
        exact h.stored
  | some g =>
    obtain ⟨hu, hconsume, hsink⟩ := hc.settled g rfl
    have hsettled : ConsumeError.unsettled (s.site.store.consume g.delivery.payload).1 = false := by
      rw [hconsume]
      exact hu
    obtain ⟨hclean, hscript⟩ := Store.consume_of_settled h.script hsettled
    rw [hconsume] at hclean hscript
    have hone : s.site.store.atRest.consumeAll [g.delivery] =
        (s'.site.store.atRest, g.letter?.toList) := by
      simp [Store.consumeAll, hclean, Handling.letter?]
    have hall : store.atRest.consumeAll (done ++ [g.delivery]) =
        (s'.site.store.atRest, (store.atRest.consumeAll done).2 ++ g.letter?.toList) := by
      rw [Store.consumeAll_append, ← h.stored, hone]
    rw [Option.toList_some, List.map_singleton]
    refine ⟨?_, by rw [hall], ?_⟩
    · intro e he
      rw [hscript] at he
      exact h.script e he
    · rw [hall, hsink, h.buried]
      cases g.letter? <;> simp [Sink.record]

theorem failStore (h : s.Replayed store letters done) {topics : Topics} {errors : List StoreError}
    (herrors : ∀ e ∈ errors, e.isTransient = true) :
    (s.after topics (.failStore errors)).Replayed store letters done := by
  refine ⟨?_, h.stored, h.buried⟩
  intro e he
  rcases List.mem_append.1 he with he | he
  · exact h.script e he
  · exact herrors e he

theorem afterAll (h : s.Replayed store letters done) {topics : Topics} {es : List Event}
    (hes : ∀ errors, .failStore errors ∈ es → ∀ e ∈ errors, e.isTransient = true) :
    (s.afterAll topics es).Replayed store letters
      (done ++ (s.handlings topics es).map Handling.delivery) := by
  have hstep : ∀ (hs : List Handling) (s : Stage), ∀ e ∈ es,
      s.Replayed store letters (done ++ hs.map Handling.delivery) →
      (s.after topics e).Replayed store letters
        (done ++ (hs ++ (s.handling? e).toList).map Handling.delivery) := by
    intro hs s e he h
    rw [List.map_append, ← List.append_assoc]
    by_cases hfail : ∃ errors, e = .failStore errors
    · obtain ⟨errors, rfl⟩ := hfail
      simpa [Stage.handling?] using h.failStore (hes errors he)
    · exact h.step (s.after_consumed topics fun errors heq => hfail ⟨errors, heq⟩)
  have hstart : s.Replayed store letters (done ++ ([] : List Handling).map Handling.delivery) := by
    rwa [List.map_nil, List.append_nil]
  have hrun := Stage.afterAll_induction hstep hstart
  rwa [List.nil_append] at hrun

theorem start {s : Stage} (hstore : s.site.store = store)
    (hscript : ∀ e ∈ store.failures, e.isTransient = true)
    (hsink : s.site.sink = .keeping letters) :
    s.Replayed store letters [] := by
  subst hstore
  refine ⟨hscript, rfl, ?_⟩
  rw [hsink, Store.consumeAll, List.append_nil]

end Stage.Replayed

/-- A store that recovers from every error of its script shows none of them. -/
theorem Stage.outages_leave_no_trace (topics : Topics) (store : Store) (letters : List DeadLetter)
    (es : List Event) (hstore : ∀ e ∈ store.failures, e.isTransient = true)
    (hes : ∀ errors, .failStore errors ∈ es → ∀ e ∈ errors, e.isTransient = true) :
    let s := (⟨.fresh store (.keeping letters), []⟩ : Stage).afterAll topics es
    let consumed := s.site.broker.acknowledgedDeliveries
    let clean := store.atRest.consumeAll consumed
    s.site.broker.acks = consumed.map Delivery.place ∧
    s.site.store.records = clean.1.records ∧ s.site.store.writes = clean.1.writes ∧
    s.site.sink = .keeping (letters ++ clean.2) ∧ ∀ l ∈ clean.2, l.reason ≠ .store := by
  intro s consumed clean
  have hsettled := ((Orderly.fresh topics store (.keeping letters)).afterAll es).settled
  have hconsumed : consumed = _ := hsettled.acknowledgedDeliveries
  have hstart : (⟨.fresh store (.keeping letters), []⟩ : Stage).Replayed store letters [] :=
    .start rfl hstore rfl
  have hrun : s.Replayed store letters _ := hstart.afterAll hes
  rw [← hconsumed] at hrun
  refine ⟨?_, ?_, ?_, hrun.buried, ?_⟩
  · rw [hconsumed]
    exact hsettled.acks
  · rw [← Store.records_atRest, hrun.stored]
  · rw [← Store.writes_atRest, hrun.stored]
  · exact (Store.reason_of_consumeAll consumed rfl).2

def Event.outage : List Event :=
  let payload := "\x7b\"id\":\"S1\",\"status\":\"SENT\"\x7d".toUTF8.toList
  [.failStore [.database "down"], .publish "SHIPMENT" "S1" payload,
    .hire .zero ⟨1, .zero, .zero, 1⟩, .work 0 false, .work 0 false, .work 0 false, .work 0 false,
    .work 0 false, .work 0 false]

theorem Stage.outages_leave_no_trace_redelivered :
    let s := (⟨.fresh .empty (.keeping []), []⟩ : Stage).afterAll .standard Event.outage
    let clean := Store.empty.atRest.consumeAll s.site.broker.acknowledgedDeliveries
    s.site.broker.acks = [("SHIPMENT", 0)] ∧ s.site.store.writes = 1 ∧
      s.site.store.records = clean.1.records ∧ s.site.sink = .keeping ([] ++ clean.2) := by
  have hes : ∀ errors, .failStore errors ∈ Event.outage → ∀ e ∈ errors, e.isTransient = true := by
    simp [Event.outage, StoreError.isTransient]
  obtain ⟨-, hrecords, -, hsink, -⟩ :=
    outages_leave_no_trace .standard .empty [] Event.outage (by simp [Store.empty]) hes
  exact ⟨by decide +kernel, by decide +kernel, hrecords, hsink⟩

end Consignment
