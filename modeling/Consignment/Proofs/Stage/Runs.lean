import Consignment.Proofs.Retry
import Consignment.Proofs.Stage.Stride
import Consignment.Proofs.Store.Lifecycle

/-! Whatever consumes, once or with retries, alone or among workers, does to the store what attempts
at a desk do. -/
namespace Consignment

namespace Store

/-- Attempts at a desk, none of them left half done, lead from one store to the other. -/
def Reaches (s t : Store) : Prop := ∃ es, (⟨s, []⟩ : Desk).afterAll es = ⟨t, []⟩

namespace Reaches

theorem refl (s : Store) : Reaches s s := ⟨[], rfl⟩

theorem trans {s t u : Store} (h : Reaches s t) (g : Reaches t u) : Reaches s u := by
  obtain ⟨es, hes⟩ := h
  obtain ⟨fs, hfs⟩ := g
  refine ⟨es ++ fs, ?_⟩
  rw [Desk.afterAll_append, hes, hfs]

theorem fail (errors : List StoreError) (s : Store) : Reaches s (s.fail errors) :=
  ⟨[.fail errors], rfl⟩

theorem consume (payload : Bytes) (s : Store) : Reaches s (s.consume payload).2 := by
  unfold Store.consume
  cases ha : Shipment.admitted payload with
  | error e => exact refl s
  | ok incoming =>
    simp only [reconcile_eq]
    rcases hd : s.consider incoming with ⟨answer, t⟩
    cases answer with
    | error e => exact ⟨[.read payload], by simp [Desk.after, ha, hd, Desk.isBusy]⟩
    | ok draft =>
      obtain ⟨record, done⟩ := draft
      have hread : (⟨s, []⟩ : Desk).after (.read payload) = ⟨t, [(record, done)]⟩ := by
        simp [Desk.after, ha, hd, Desk.isBusy]
      obtain ⟨id, hid⟩ : ∃ id, record.id = some id := by
        rcases consider_cases incoming s with ⟨e, -, h⟩ | ⟨id, status, ht, ⟨e, rest, -, h⟩ | ⟨-, h⟩⟩
        · rw [hd] at h
          cases h
        · rw [hd] at h
          cases h
        · rw [hd] at h
          exact ⟨id, Shipment.id_of_settle ht (congrArg Prod.fst h).symm⟩
      refine ⟨[.read payload, .write id], ?_⟩
      rw [Desk.afterAll_cons, hread]
      simp [Desk.after, Desk.draft?, hid]

end Reaches
end Store

theorem Site.Consumed.reaches {handling : Option Handling} {site site' : Site}
    (h : site.Consumed handling site') : site.store.Reaches site'.store := by
  cases handling with
  | none =>
    rcases (h.unsettled rfl).2 with hsame | ⟨payload, -, hstore⟩
    · rw [hsame]
      exact .refl _
    · rw [hstore]
      exact .consume payload _
  | some g =>
    obtain ⟨-, hconsume, -⟩ := h.settled g rfl
    have hreach := Store.Reaches.consume g.delivery.payload site.store
    rw [hconsume] at hreach
    exact hreach

namespace Session

theorem attempt_reaches (p : Policy) (d : Delivery) (failed : Nat) (x : Session) (site : Site) :
    site.store.Reaches (x.attempt p d failed site).2.store := by
  cases hu : ConsumeError.unsettled (site.store.consume d.payload).1 with
  | true =>
    obtain ⟨-, -, -, -, hstore⟩ := attempt_of_unsettled p d failed x hu
    rw [hstore]
    exact .consume d.payload _
  | false =>
    rw [attempt_of_settled p d failed x hu, settle_of_settled hu]
    simp only [Site.acknowledge, Site.conclude_store]
    exact .consume d.payload _

theorem advance_reaches (p : Policy) (signalled signalFirst : Bool) (x : Session) (site : Site) :
    site.store.Reaches (x.advance p signalled signalFirst site).2.store := by
  fun_induction advance p signalled signalFirst x site with
  | case1 => exact .refl _
  | case2 x site x' site' hstep ih => exact (step?_stride hstep).consumed.reaches.trans ih

end Session

theorem Site.passive_reaches : Passive fun site site' => site.store.Reaches site'.store :=
  ⟨fun _ => .refl _, .trans, fun hstep => (Worker.step?_consumed hstep).reaches, fun _ _ => .refl _⟩

namespace Stage

theorem sleepUntil_reaches (t : Nat) (s : Stage) :
    s.site.store.Reaches (s.sleepUntil t).site.store :=
  Site.passive_reaches.sleepUntil t s

theorem attemptAt_reaches (due : Nat) (p : Policy) (d : Delivery) (failed : Nat) (x : Session)
    (s : Stage) : s.site.store.Reaches (s.attemptAt due p d failed x).2.site.store :=
  (sleepUntil_reaches due s).trans (Session.attempt_reaches p d failed x _)

theorem drain_reaches (p : Policy) (signalAt : Nat) (x : Session) (s : Stage) :
    s.site.store.Reaches (drain p signalAt x s).2.site.store := by
  fun_induction drain p signalAt x s with
  | case1 x s now h => exact Session.advance_reaches ..
  | case2 x s now h =>
    have hnow : s.site.store.Reaches now.2.store := Session.advance_reaches ..
    exact hnow.trans (sleepUntil_reaches signalAt { s with site := now.2 })
  | case3 x s now d failed due h next ih =>
    have hnow : s.site.store.Reaches now.2.store := Session.advance_reaches ..
    have hnext : now.2.store.Reaches next.2.site.store :=
      attemptAt_reaches due p d failed now.1 { s with site := now.2 }
    exact (hnow.trans hnext).trans ih

theorem outlast_reaches (w : Worker) (s : Stage) :
    s.site.store.Reaches (outlast w s).site.store := by
  fun_induction outlast w s with
  | case1 w s now h => exact Site.passive_reaches.advance true w s.site
  | case2 w s now x d failed due h next ih =>
    have hnow : s.site.store.Reaches now.2.store := Site.passive_reaches.advance true w s.site
    have hnext : now.2.store.Reaches next.2.site.store :=
      attemptAt_reaches due w.storeRetry d failed x { s with site := now.2 }
    exact (hnow.trans hnext).trans ih

theorem dismiss_reaches (s : Stage) : s.site.store.Reaches s.dismiss.site.store := by
  unfold dismiss
  split
  · exact .refl _
  · next w _ => exact outlast_reaches w.signal { s with workers := s.workers.dropLast }

theorem handle_reaches (p : Policy) (d : Delivery) (s : Stage) :
    s.site.store.Reaches (s.handle p d).2.site.store := by
  unfold handle
  simp only [onSite, Site.conclude_store]
  refine p.run_induction (P := fun t : Stage => s.site.store.Reaches t.site.store) ?_ ?_ (.refl _)
  · intro t ht
    exact ht.trans (.consume d.payload t.site.store)
  · intro wait t ht
    exact ht.trans (sleepUntil_reaches _ t)

theorem after_reaches (topics : Topics) (s : Stage) (e : Event) :
    s.site.store.Reaches (s.after topics e).site.store := by
  by_cases hfail : ∃ errors, e = .failStore errors
  · obtain ⟨errors, rfl⟩ := hfail
    exact .fail errors _
  · exact (s.after_consumed topics fun errors heq => hfail ⟨errors, heq⟩).reaches

end Stage

/-- The life of a store. Records stay under their own ids and change by writes alone; a write starts
a shipment, gives it its first status or moves it on as the lifecycle allows; statuses never go
back, what is rolled back stays as it is, and no shipment is written more than five times. All ways
to consume are such runs. -/
theorem Store.lifecycle :
    (∀ (shipments : List Shipment) (es : List Desk.Event),
      let start : Desk := ⟨.ofShipments shipments, []⟩
      let store := (start.afterAll es).store
      let changes := start.changes es
      (∀ id record, store.records.get? id = some record → record.id = some id) ∧
      store.records = changes.foldl (fun r c => r.put c.id c.after) start.store.records ∧
      store.writes = changes.length ∧
      (∀ c ∈ changes, c.after.id = some c.id ∧
        (c.before = none ∨ (∃ stored, c.before = some stored ∧ stored.status = none) ∨
          ∃ stored current status, c.before = some stored ∧ stored.status = some current ∧
            c.after.status = some status ∧ current.mayBecome status = true)) ∧
      (∀ front back, es = front ++ back →
        let earlier := (start.afterAll front).store
        (∀ id current, earlier.statusOf id = some current →
          ∃ next, store.statusOf id = some next ∧ current.rank ≤ next.rank) ∧
        ∀ id record, earlier.records.get? id = some record → record.status = some .rollback →
          store.records.get? id = some record) ∧
      ∀ id, changes.countP (·.id = id) ≤ 5) ∧
    (∀ (errors : List StoreError) (s : Store), s.Reaches (s.fail errors)) ∧
    (∀ (payload : Bytes) (s : Store), s.Reaches (s.consume payload).2) ∧
    (∀ (p : Policy) (d : Delivery) (s : Stage),
      s.site.store.Reaches (s.handle p d).2.site.store) ∧
    (∀ (p : Policy) (signalAt : Nat) (x : Session) (s : Stage),
      s.site.store.Reaches (s.drain p signalAt x).2.site.store) ∧
    (∀ s : Stage, s.site.store.Reaches s.dismiss.site.store) ∧
    ∀ (topics : Topics) (es : List Event) (s : Stage),
      s.site.store.Reaches (s.afterAll topics es).site.store := by
  refine ⟨?_, Reaches.fail, Reaches.consume, Stage.handle_reaches, Stage.drain_reaches,
    Stage.dismiss_reaches, ?_⟩
  · intro shipments es start store changes
    have hstart : start.Sound := .ofShipments shipments
    have hrun := hstart.ran es
    refine ⟨hrun.sound.keyed, hrun.records, ?_, ?_, ?_, ?_⟩
    · rw [hrun.writes]
      exact Nat.zero_add _
    · intro c hc
      obtain ⟨hid, status, hstatus, hmay⟩ := hrun.each c hc
      refine ⟨hid, ?_⟩
      cases hb : c.before with
      | none => exact .inl rfl
      | some stored =>
        right
        cases hs : stored.status with
        | none => exact .inl ⟨stored, rfl, hs⟩
        | some current =>
          exact .inr ⟨stored, current, status, rfl, hs, hstatus, hmay stored current hb hs⟩
    · intro front back hes earlier
      subst hes
      have hback := (hstart.ran front).sound.ran back
      rw [← Desk.afterAll_append] at hback
      exact ⟨hback.onward.status, hback.onward.frozen⟩
    · intro id
      have hfew : changes.countP (·.id = id) + _ ≤ _ := hrun.few id
      have hle := Status.writesLeft_le (start.store.statusOf id)
      omega
  · intro topics es s
    induction es generalizing s with
    | nil => exact .refl _
    | cons e es ih => exact (Stage.after_reaches topics s e).trans (ih _)

end Consignment
