import Consignment.Proofs.Publish
import Consignment.Proofs.Retry.Unrolled
import Consignment.Proofs.Store.Sequence
import Consignment.Samples

/-! A delivery handled while the store fails as its script says and nobody else is at work. Every
attempt uses up one error of the script, until one of them lasts, the policy allows no more or there
is none left. -/
namespace Consignment

/-- How long the first `n` waits of the policy last, one after the other. -/
def Policy.slept (p : Policy) : Nat → Nat
  | 0 => 0
  | n + 1 => slept p n + (p.delay n).ticks

namespace Store

theorem consume_of_failures {payload : Bytes} {incoming : Shipment}
    (h : Shipment.admitted payload = .ok incoming) {s : Store} {e : StoreError}
    {rest : List StoreError} (hs : s.failures = e :: rest) :
    s.consume payload = (.error (.store e), { s with failures := rest }) := by
  obtain ⟨id, status, htarget⟩ := Shipment.target_of_admitted h
  simp [consume, h, reconcile, htarget, find, hs]

theorem consume_of_admitted {payload : Bytes} {incoming : Shipment}
    (h : Shipment.admitted payload = .ok incoming) {s : Store} (hs : s.failures = []) :
    (∃ done, (s.consume payload).1 = .ok done) ∨
      ∃ id stored status, (s.consume payload).1 = .error (.illegal id stored status) := by
  obtain ⟨id, status, htarget⟩ := Shipment.target_of_admitted h
  have hintent : Shipment.intent payload = .ok (incoming, id, status) := by
    simp [Shipment.intent, h, htarget]
  rw [consume_of_intent hintent hs]
  cases hsettle : incoming.settle id status (s.records.get? id) with
  | error e =>
    obtain ⟨current, rfl⟩ := Shipment.settle_error hsettle
    exact .inr ⟨id, current, status, rfl⟩
  | ok next => exact .inl ⟨next.2, rfl⟩

end Store

namespace Stage

def attempt (d : Delivery) (s : Stage) : Except ConsumeError Reconciliation × Stage :=
  let (result, site) := s.site.consume d.payload
  (result, { s with site })

theorem attempt_eq (d : Delivery) (s : Stage) :
    s.attempt d = ((s.site.store.consume d.payload).1,
      { s with site := { s.site with store := (s.site.store.consume d.payload).2 } }) := by
  rw [attempt, Site.consume]

theorem handle_eq (p : Policy) (d : Delivery) (s : Stage) :
    s.handle p d =
      let last := p.run ConsumeError.isTransient (attempt d) sleep s
      let outcome := last.1.mapError GaveUp.error
      (outcome, last.2.onSite (·.conclude d outcome)) := rfl

theorem sleep_alone (site : Site) (wait : Span) :
    sleep wait ⟨site, []⟩ = ⟨{ site with clock := site.clock + wait.ticks }, []⟩ := by
  have hlater : max site.clock (site.clock + wait.ticks) = site.clock + wait.ticks :=
    Nat.max_eq_right (Nat.le_add_right ..)
  rw [sleep, sleepUntil_alone rfl]
  simp only [onSite, Site.await, hlater]

end Stage

namespace Site

/-- The site once `n` attempts failed on errors of the script, and the policy's wait after each was
over. -/
def outlasted (p : Policy) (n : Nat) (s : Site) : Site :=
  { s with
    clock := s.clock + p.slept n
    store := { s.store with failures := s.store.failures.drop n } }

end Site

namespace Stage
variable {d : Delivery} {incoming : Shipment} {p : Policy} {site : Site}

theorem attempt_of_failures (h : Shipment.admitted d.payload = .ok incoming) (n : Nat)
    {e : StoreError} {more : List StoreError} (hs : site.store.failures.drop n = e :: more) :
    attempt d ⟨site.outlasted p n, []⟩ = (.error (.store e),
      ⟨{ site.outlasted p n with store := { site.store with failures := more } }, []⟩) := by
  have hconsume := Store.consume_of_failures h (s := (site.outlasted p n).store) hs
  rw [attempt_eq]
  simp only [hconsume]
  rfl

theorem unrolled_outage (h : Shipment.admitted d.payload = .ok incoming) (p : Policy) {n : Nat}
    (hn : n ≤ site.store.failures.length) :
    p.unrolled (attempt d) sleep ⟨site, []⟩ n = ⟨site.outlasted p n, []⟩ := by
  induction n with
  | zero => rfl
  | succ n ih =>
    have hdrop := List.drop_eq_getElem_cons (Nat.lt_of_succ_le hn)
    rw [Policy.unrolled, ih (Nat.le_of_succ_le hn), attempt_of_failures h n hdrop, sleep_alone]
    simp only [Site.outlasted, Policy.slept, Nat.add_assoc]

variable {outages : List String} {rest : List StoreError}

theorem outages_le (hq : site.store.failures = outages.map .database ++ rest) :
    outages.length ≤ site.store.failures.length := by
  rw [hq, List.length_append, List.length_map]
  exact Nat.le_add_right ..

theorem drop_failures (hq : site.store.failures = outages.map .database ++ rest) {n : Nat}
    (hn : n < outages.length) :
    site.store.failures.drop n = .database outages[n] :: site.store.failures.drop (n + 1) := by
  have hlength : n < site.store.failures.length := by have := outages_le hq; omega
  have hmapped : n < (outages.map StoreError.database).length := by simpa using hn
  rw [List.drop_eq_getElem_cons hlength]
  congr 1
  simp only [hq, List.getElem_append_left hmapped, List.getElem_map]

theorem drop_outages (hq : site.store.failures = outages.map .database ++ rest) :
    site.store.failures.drop outages.length = rest := by
  rw [hq, List.drop_left' (List.length_map ..)]

theorem attempt_of_recovery (hq : site.store.failures = outages.map .database ++ []) :
    attempt d ⟨site.outlasted p outages.length, []⟩ = ((site.store.atRest.consume d.payload).1,
      ⟨{ site.outlasted p outages.length with store := (site.store.atRest.consume d.payload).2 },
        []⟩) := by
  have hstore : (site.outlasted p outages.length).store = site.store.atRest := by
    simp only [Site.outlasted, drop_outages hq, Store.atRest]
  rw [attempt_eq]
  simp only [hstore]

theorem final_after_outages (h : Shipment.admitted d.payload = .ok incoming)
    (hq : site.store.failures = outages.map .database ++ rest)
    (hrest : ∀ reason, rest.head? ≠ some (.database reason)) :
    Policy.Final ConsumeError.isTransient (attempt d ⟨site.outlasted p outages.length, []⟩).1 := by
  cases rest with
  | nil =>
    rw [attempt_of_recovery hq]
    rcases Store.consume_of_admitted h (s := site.store.atRest) rfl with
      ⟨done, hdone⟩ | ⟨id, stored, status, hdone⟩
    · intro e he
      rw [hdone] at he
      cases he
    · intro e he
      rw [hdone] at he
      cases he
      rfl
  | cons f more =>
    rw [attempt_of_failures h _ (drop_outages hq)]
    intro e he
    cases he
    cases f with
    | database reason => exact absurd rfl (hrest reason)
    | corrupt id reason => rfl
    | missingId => rfl

theorem handle_eq_rounds (h : Shipment.admitted d.payload = .ok incoming) (p : Policy)
    (hq : site.store.failures = outages.map .database ++ rest)
    (hrest : ∀ reason, rest.head? ≠ some (.database reason)) :
    let last := attempt d
      (p.unrolled (attempt d) sleep ⟨site, []⟩ (min outages.length (p.attempts - 1)))
    handle p d ⟨site, []⟩ = (last.1, last.2.onSite (·.conclude d last.1)) := by
  intro last
  let results i := (attempt d (p.unrolled (attempt d) sleep ⟨site, []⟩ i)).1
  have hlength := outages_le hq
  have hpos := p.attempts_pos
  have hagain : ∀ i < min outages.length (p.attempts - 1),
      p.next ConsumeError.isTransient i (results i) = .again (p.delay i) := by
    intro i hi
    simp only [results]
    rw [unrolled_outage h p (by omega), attempt_of_failures h i (drop_failures hq (by omega))]
    exact Policy.next_again rfl (by omega)
  have hlast : min outages.length (p.attempts - 1) + 1 ∈
      p.lastCalls ConsumeError.isTransient results := by
    rcases Nat.le_total (p.attempts - 1) outages.length with hle | hle
    · exact .inl (by omega)
    · rw [Nat.min_eq_left hle]
      refine .inr ⟨outages.length, rfl, ?_⟩
      simp only [results]
      rw [unrolled_outage h p hlength]
      exact final_after_outages h hq hrest
  rw [handle_eq, Policy.run_eq_unrolled hagain (Policy.next_of_mem hlast)]
  simp only [Policy.mapError_verdict]
  rfl

theorem handle_of_outage (h : Shipment.admitted d.payload = .ok incoming)
    (hq : site.store.failures = outages.map .database ++ rest)
    (hrest : ∀ reason, rest.head? ≠ some (.database reason)) {n : Nat} (hn : n < outages.length)
    (hmost : p.attempts = n + 1) :
    handle p d ⟨site, []⟩ = (.error (.store (.database outages[n])), ⟨{ site with
      clock := site.clock + p.slept n
      store := { site.store with failures := site.store.failures.drop (n + 1) }
      tally := site.tally.add (.storeUnavailable d.topic) 1 }, []⟩) := by
  have hlength : n ≤ site.store.failures.length := by have := outages_le hq; omega
  have hrounds : min outages.length (p.attempts - 1) = n := by omega
  rw [handle_eq_rounds h p hq hrest, hrounds, unrolled_outage h p hlength,
    attempt_of_failures h n (drop_failures hq hn)]
  rfl

theorem handle_of_lasting (h : Shipment.admitted d.payload = .ok incoming) {e : StoreError}
    {more : List StoreError} (hq : site.store.failures = outages.map .database ++ e :: more)
    (he : e.isTransient = false) (hmost : outages.length < p.attempts) :
    handle p d ⟨site, []⟩ = (.error (.store e), ⟨{ site with
      clock := site.clock + p.slept outages.length
      store := { site.store with failures := more }
      tally := site.tally.add (.deadLettered "store") 1
      sink := site.sink.record ⟨d, .store, e.message⟩ }, []⟩) := by
  have hrest : ∀ reason, (e :: more).head? ≠ some (.database reason) := by
    rintro reason ⟨⟩
    cases he
  have hlength := outages_le hq
  have hrounds : min outages.length (p.attempts - 1) = outages.length := by omega
  rw [handle_eq_rounds h p hq hrest, hrounds, unrolled_outage h p hlength,
    attempt_of_failures h _ (drop_outages hq)]
  simp only [onSite, Site.conclude, ConsumeError.isTransient, he, ConsumeError.letterReason,
    Site.bury, Site.increment, Bool.false_eq_true, if_false]
  rfl

theorem handle_of_recovery (h : Shipment.admitted d.payload = .ok incoming)
    (hq : site.store.failures = outages.map .database ++ []) (hmost : outages.length < p.attempts) :
    let alone := site.store.atRest.consume d.payload
    handle p d ⟨site, []⟩ = (alone.1, ⟨{ site with
      clock := site.clock + p.slept outages.length
      store := alone.2
      tally := site.tally.add
        (if alone.1.isOk then .reconciled d.topic else .rejected d.topic) 1 }, []⟩) := by
  intro alone
  have hlength := outages_le hq
  have hrounds : min outages.length (p.attempts - 1) = outages.length := by omega
  rw [handle_eq_rounds h p hq (by simp), hrounds, unrolled_outage h p hlength,
    attempt_of_recovery hq]
  rcases Store.consume_of_admitted h (s := site.store.atRest) rfl with
    ⟨done, hdone⟩ | ⟨id, stored, status, hdone⟩
  · simp only [alone, hdone]
    rfl
  · simp only [alone, hdone]
    rfl

/-- What handling a delivery comes to, by what stands in the script of the store: so many outages,
and then something else or nothing. The policy may give up before the outages are over; an error
that lasts makes a dead letter of the delivery; and else the delivery is consumed as if nothing had
ever failed. In each case handling is so many rounds of an attempt and the wait after it, and one
attempt more. -/
theorem handle_by_script {d : Delivery} {incoming : Shipment}
    (h : Shipment.admitted d.payload = .ok incoming) (p : Policy) {site : Site}
    {outages : List String} {rest : List StoreError}
    (hq : site.store.failures = outages.map .database ++ rest)
    (hrest : ∀ reason, rest.head? ≠ some (.database reason)) :
    let most := max 1 p.maxAttempts
    let handled := handle p d ⟨site, []⟩
    (most ≤ outages.length → ∃ e, site.store.failures[most - 1]? = some e ∧
      handled.1 = .error (.store e) ∧
      handled.2 = ⟨{ site with
        clock := site.clock + p.slept (most - 1)
        store := { site.store with failures := site.store.failures.drop most }
        tally := site.tally.add (.storeUnavailable d.topic) 1 }, []⟩) ∧
    (outages.length < most → ∀ e, rest.head? = some e →
      handled.1 = .error (.store e) ∧
      handled.2 = ⟨{ site with
        clock := site.clock + p.slept outages.length
        store := { site.store with failures := site.store.failures.drop (outages.length + 1) }
        tally := site.tally.add (.deadLettered "store") 1
        sink := site.sink.record ⟨d, .store, e.message⟩ }, []⟩) ∧
    (outages.length < most → rest = [] →
      let alone := site.store.atRest.consume d.payload
      handled.1 = alone.1 ∧
      handled.2 = ⟨{ site with
        clock := site.clock + p.slept outages.length
        store := alone.2
        tally := site.tally.add
          (if alone.1.isOk then .reconciled d.topic else .rejected d.topic) 1 }, []⟩) ∧
    let last := attempt d
      (p.unrolled (attempt d) sleep ⟨site, []⟩ (min outages.length (most - 1)))
    handled = (last.1, last.2.onSite (·.conclude d last.1)) := by
  intro most handled
  have hmost : most = p.attempts := Nat.max_comm ..
  have hpos := p.attempts_pos
  rw [hmost]
  refine ⟨?_, ?_, ?_, handle_eq_rounds h p hq hrest⟩
  · intro hlong
    obtain ⟨n, hn⟩ : ∃ n, p.attempts = n + 1 := Nat.exists_eq_add_one.2 hpos
    have hdown : n < outages.length := by omega
    have hhandled := handle_of_outage h hq hrest hdown hn
    have hanswer : site.store.failures[n]? = some (.database outages[n]) := by
      rw [hq, List.getElem?_append_left (by simpa using hdown), List.getElem?_map,
        List.getElem?_eq_getElem hdown, Option.map_some]
    rw [hn]
    exact ⟨_, hanswer, congrArg Prod.fst hhandled, congrArg Prod.snd hhandled⟩
  · intro hfew e he
    obtain ⟨more, rfl⟩ := List.head?_eq_some_iff.1 he
    have hlasts : e.isTransient = false := by
      cases e with
      | database reason => exact absurd he (hrest reason)
      | corrupt id reason => rfl
      | missingId => rfl
    have hdrop : site.store.failures.drop (outages.length + 1) = more := by
      rw [← List.drop_drop, drop_outages hq]
      rfl
    have hhandled := handle_of_lasting h hq hlasts hfew
    rw [hdrop]
    exact ⟨congrArg Prod.fst hhandled, congrArg Prod.snd hhandled⟩
  · intro hfew hnone
    rw [hnone] at hq
    have hhandled := handle_of_recovery h hq hfew
    exact ⟨congrArg Prod.fst hhandled, congrArg Prod.snd hhandled⟩

/-- An outage that a policy without retries does not outlast, one that ends in an error that lasts,
and one that ends. -/
theorem handle_by_script_each_way :
    let d : Delivery := ⟨"SHIPMENT", none, (Shipment.sample "A" .sent).write, 0, 0⟩
    let once : Policy := { Policy.standard with maxAttempts := 0 }
    let handled (p : Policy) (failures : List StoreError) :=
      handle p d ⟨.fresh { Store.empty with failures } (.keeping []), []⟩
    Shipment.admitted d.payload = .ok (.sample "A" .sent) ∧
    (handled once [.database "down", .missingId]).1 = .error (.store (.database "down")) ∧
    (handled once [.database "down", .missingId]).2.site.store.failures = [.missingId] ∧
    (handled .standard [.database "down", .missingId]).1 = .error (.store .missingId) ∧
    (handled .standard [.database "down", .missingId]).2.site.sink.letters =
      [⟨d, .store, "Shipment has no id"⟩] ∧
    (handled .standard [.database "down"]).1 = .ok (.created "A" .sent) ∧
    (handled .standard [.database "down"]).2.site.clock = 1000 := by
  intro d once handled
  have hadmitted : Shipment.admitted d.payload = .ok (.sample "A" .sent) := by decide +kernel
  have hmissing : ∀ reason, [StoreError.missingId].head? ≠ some (.database reason) := by simp
  have hnone : ∀ reason, ([] : List StoreError).head? ≠ some (.database reason) := by simp
  let site (failures : List StoreError) : Site := .fresh { Store.empty with failures } (.keeping [])
  have hlong : (site [.database "down", .missingId]).store.failures =
      ["down"].map .database ++ [.missingId] := rfl
  have hshort : (site [.database "down"]).store.failures = ["down"].map .database ++ [] := rfl
  obtain ⟨hdown, -, -, -⟩ := handle_by_script hadmitted once hlong hmissing
  obtain ⟨-, hlasting, -, -⟩ := handle_by_script hadmitted .standard hlong hmissing
  obtain ⟨-, -, hback, -⟩ := handle_by_script hadmitted .standard hshort hnone
  obtain ⟨e, he, hdown, hsite⟩ := hdown (by decide)
  obtain ⟨hlasting, hletter⟩ := hlasting (by decide) .missingId rfl
  obtain ⟨hback, hclock⟩ := hback (by decide) rfl
  obtain rfl : .database "down" = e := Option.some.inj he
  have hcreated : ((site [.database "down"]).store.atRest.consume d.payload).1 =
      .ok (.created "A" .sent) := by decide +kernel
  exact ⟨hadmitted, hdown, congrArg (·.site.store.failures) hsite, hlasting,
    congrArg (·.site.sink.letters) hletter, hback.trans hcreated, congrArg (·.site.clock) hclock⟩

end Stage
end Consignment
