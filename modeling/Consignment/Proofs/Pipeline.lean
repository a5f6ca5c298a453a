import Consignment.Proofs.Admission
import Consignment.Proofs.Document
import Consignment.Proofs.Producer
import Consignment.Proofs.Publish
import Consignment.Proofs.Stage.Progress
import Consignment.Proofs.Stage.Replay
import Consignment.Proofs.Stage.Silent
import Consignment.Samples

/-! From the producer to the store. What is published is read as it was written, so that all that
can still go wrong with it is said by the rules and the lifecycle. -/
namespace Consignment

namespace Shipment

def isAdmissible (s : Shipment) : Bool :=
  (schema.checkMany s ["id", "status"] true).isOk && (schema.checkDeclared s).isOk

/-- The records once such a shipment is reconciled: one that is not known is put down, one that may
follow goes over what is known, and any other changes nothing. -/
def reconciledInto (records : Register Shipment) (s : Shipment) : Register Shipment :=
  match s.id, s.status with
  | some id, some status =>
    match records.get? id with
    | none => records.put id s
    | some stored =>
      if stored.status.all (·.mayBecome status) then records.put id (stored.overlay s) else records
  | some _, none => records
  | none, _ => records

theorem admitted_write (s : Shipment) :
    (s.isAdmissible = true ∧ admitted s.write = .ok s ∧ ∃ id status, s.target = .ok (id, status)) ∨
      (s.isAdmissible = false ∧ ∃ e, admitted s.write = .error (.invalid e)) := by
  unfold isAdmissible admitted
  rw [ofDocument_write]
  cases hmany : schema.checkMany s ["id", "status"] true with
  | error e => exact .inr ⟨rfl, e, by simp [hmany]⟩
  | ok u =>
    cases hdeclared : schema.checkDeclared s with
    | error e => exact .inr ⟨rfl, e, by simp [hmany, hdeclared]⟩
    | ok v => exact .inl ⟨rfl, by simp [hmany, hdeclared], target_of_checkMany hmany⟩

theorem reconciledInto_eq {records : Register Shipment} {s : Shipment} {id : String}
    {status : Status} (h : s.target = .ok (id, status)) :
    s.reconciledInto records = match s.settle id status (records.get? id) with
      | .ok (record, _) => records.put id record
      | .error _ => records := by
  obtain ⟨hid, hstatus⟩ := target_ok h
  simp only [reconciledInto, hid, hstatus, settle]
  cases records.get? id with
  | none => rfl
  | some stored =>
    cases hs : stored.status with
    | none => simp [hs]
    | some current => cases hm : current.mayBecome status <;> simp [hs, hm]

end Shipment

namespace Store

theorem consume_write {s : Store} (hs : s.failures = []) (x : Shipment) (d : Delivery) :
    (s.consume x.write).2.failures = [] ∧
    (x.isAdmissible = true ∧ (s.consume x.write).2.records = x.reconciledInto s.records ∧
        DeadLetter.of? d (s.consume x.write).1 = none ∨
      x.isAdmissible = false ∧ (s.consume x.write).2.records = s.records ∧
        ∃ message, DeadLetter.of? d (s.consume x.write).1 = some ⟨d, .validation, message⟩) := by
  unfold consume
  rcases x.admitted_write with ⟨hok, hadmitted, id, status, ht⟩ | ⟨hbad, e, hadmitted⟩
  · rw [hadmitted]
    simp only [reconcile_eq]
    rcases consider_cases x s with ⟨e, ht', -⟩ | ⟨id', status', ht', ⟨e, rest, hf, -⟩ | ⟨-, hc⟩⟩
    · rw [ht] at ht'
      cases ht'
    · rw [hs] at hf
      cases hf
    · rw [ht] at ht'
      cases ht'
      rw [hc, Shipment.reconciledInto_eq ht]
      cases hsettle : x.settle id status (s.records.get? id) with
      | error e =>
        obtain ⟨current, rfl⟩ := Shipment.settle_error hsettle
        exact ⟨hs, .inl ⟨hok, rfl, rfl⟩⟩
      | ok next =>
        obtain ⟨record, done⟩ := next
        rcases commit_cases (Shipment.id_of_settle ht hsettle) done s with
          ⟨e, rest, hf, -⟩ | ⟨-, hcommit⟩
        · rw [hs] at hf
          cases hf
        · simp [hcommit, hs, hok, DeadLetter.of?]
  · rw [hadmitted]
    exact ⟨hs, .inr ⟨hbad, rfl, e.message, rfl⟩⟩

theorem consumeAll_written {xs : List Shipment} {ds : List Delivery}
    (h : ds.map Delivery.payload = xs.map Shipment.write) {s : Store} (hs : s.failures = []) :
    (s.consumeAll ds).1.records =
        (xs.filter (·.isAdmissible)).foldl Shipment.reconciledInto s.records ∧
      (s.consumeAll ds).2.map (fun l => (l.delivery.payload, l.reason)) =
        (xs.filter (!·.isAdmissible)).map fun x => (x.write, .validation) := by
  induction ds generalizing xs s with
  | nil =>
    obtain rfl : xs = [] := List.map_eq_nil_iff.1 h.symm
    exact ⟨rfl, rfl⟩
  | cons d ds ih =>
    cases xs with
    | nil => cases h
    | cons x xs =>
      obtain ⟨hpayload, hrest⟩ := List.cons.inj h
      obtain ⟨hquiet, hx⟩ := consume_write hs x d
      obtain ⟨hrecords, hletters⟩ := ih hrest hquiet
      simp only [consumeAll, hpayload]
      rcases hx with ⟨hok, hone, hletter⟩ | ⟨hbad, hone, message, hletter⟩
      · rw [hletter]
        simp [hrecords, hletters, hone, hok]
      · rw [hletter]
        simp [hrecords, hletters, hone, hbad, hpayload]

end Store

namespace Stage

theorem after_log (topics : Topics) (s : Stage) {e : Event} (he : e.isPublish = false) :
    (s.after topics e).site.broker.log = s.site.broker.log := by
  by_cases hscript : ∃ errors, e = .failPublish errors
  · obtain ⟨errors, rfl⟩ := hscript
    rfl
  · exact (s.after_silent topics he fun errors heq => hscript ⟨errors, heq⟩).log

theorem afterAll_log (topics : Topics) (s : Stage) {es : List Event}
    (hes : ∀ e ∈ es, e.isPublish = false) :
    (s.afterAll topics es).site.broker.log = s.site.broker.log := by
  induction es generalizing s with
  | nil => rfl
  | cons e es ih =>
    rw [afterAll_cons, ih _ fun f hf => hes f (by simp [hf]), after_log topics s (hes e (by simp))]

end Stage

/-- What producers publish and workers consume. Every call comes to an answer. Once the log is done
with, which workers always can bring about, the records are those of reconciling, in the order of
the calls, the shipments that were published and break no rule; about each of the others that were
published there is one letter, and no letter has any other reason than a broken rule. -/
theorem Producer.published_shipments_arrive (p : Producer) (calls : List Call)
    (refusals : List ChannelError) (store : Store) (es : List Event)
    (hstore : ∀ e ∈ store.failures, e.isTransient = true)
    (hpublish : ∀ e ∈ es, e.isPublish = false)
    (hfail : ∀ errors, .failStore errors ∈ es → ∀ e ∈ errors, e.isTransient = true) :
    let start := (⟨.fresh store (.keeping []), []⟩ : Stage).after p.topics (.failPublish refusals)
    ∃ answers produced, p.callAll calls start = .ok (answers, produced) ∧
      answers.length = calls.length ∧
      let shipments := published calls answers
      let s := produced.afterAll p.topics es
      (s.site.broker.backlog p.topics.consumed = [] →
        s.site.store.records =
            (shipments.filter (·.isAdmissible)).foldl Shipment.reconciledInto store.records ∧
          s.site.sink.letters.map (fun l => (l.delivery.payload, l.reason)) =
            (shipments.filter (!·.isAdmissible)).map fun x => (x.write, .validation)) ∧
      (∀ l ∈ s.site.sink.letters, l.reason = .validation) ∧
      ∃ fs, (∀ e ∈ fs, e.isWork = true) ∧
        (s.afterAll p.topics fs).site.broker.backlog p.topics.consumed = [] := by
  intro start
  obtain ⟨answers, produced, ds, hcalls, hlength, hoffered, htopics, hpayloads⟩ :=
    p.callAll_answered calls (s := start) rfl
  refine ⟨answers, produced, hcalls, hlength, ?_⟩
  intro shipments s
  have hfresh : start.site.broker.Settled p.topics.consumed [] :=
    (Broker.Settled.empty _).congr rfl rfl rfl rfl
  have hstart : produced.Orderly p.topics [] := by
    have hnobody := hoffered.workers
    exact ⟨hoffered.settled hfresh, by simp [hnobody], by simp [hnobody], by simp [hnobody]⟩
  have hsettled := (hstart.afterAll es).settled
  have hreplayed : produced.Replayed store [] [] := .start hoffered.store hstore hoffered.sink
  have hrun : s.Replayed store [] _ := hreplayed.afterAll hfail
  rw [List.nil_append] at hsettled hrun
  generalize (produced.handlings p.topics es).map Handling.delivery = done at hsettled hrun
  have hserved : s.site.broker.servedOn p.topics.consumed = ds := by
    have hlog : s.site.broker.log = ds := by
      rw [Stage.afterAll_log p.topics produced hpublish, hoffered.log]
      rfl
    rw [Broker.servedOn, hlog]
    apply List.filter_eq_self.2
    intro d hd
    simpa using htopics d hd
  have hdone := hsettled.served_eq
  rw [hserved] at hdone
  refine ⟨?_, ?_, (hstart.afterAll es).drains⟩
  · intro hbacklog
    rw [hbacklog, List.append_nil] at hdone
    subst hdone
    obtain ⟨hrecords, hletters⟩ := Store.consumeAll_written hpayloads (s := store.atRest) rfl
    refine ⟨?_, ?_⟩
    · rw [← Store.records_atRest, hrun.stored]
      exact hrecords
    · rw [hrun.buried]
      exact hletters
  · intro l hl
    have hstarts : done.map Delivery.payload =
        (shipments.take done.length).map Shipment.write := by
      rw [List.map_take, ← hpayloads, ← List.map_take, hdone, List.take_left]
    obtain ⟨-, hletters⟩ := Store.consumeAll_written hstarts (s := store.atRest) rfl
    rw [hrun.buried, List.nil_append] at hl
    have hmem := List.mem_map_of_mem (f := fun l : DeadLetter => (l.delivery.payload, l.reason)) hl
    simp only [Sink.letters, hletters] at hmem
    obtain ⟨x, -, hx⟩ := List.mem_map.1 hmem
    exact (congrArg Prod.snd hx).symm

/-- The change of a status, and a shipment that lacks its status, while broker and store fail. Both
are published; the one is stored, and about the other there is a letter. -/
theorem Producer.published_shipments_arrive_through_failures :
    let p : Producer := ⟨.standard, .standard, fun _ => ""⟩
    let sent := Shipment.sample "S1" .sent
    let lacking := { sent with status := none }
    let calls : List Call := [⟨true, sent⟩, ⟨false, lacking⟩]
    let refusals : List ChannelError := [.connectionFailed "down"]
    let es : List Event := [.failStore [.database "down"], .hire .zero .standard, .work 0 false]
    let start := (⟨.fresh .empty (.keeping []), []⟩ : Stage).after p.topics (.failPublish refusals)
    ∃ key key' produced fs, p.callAll calls start = .ok ([.ok key, .ok key'], produced) ∧
      (∀ e ∈ fs, e.isWork = true) ∧
      let s := produced.afterAll p.topics (es ++ fs)
      s.site.broker.backlog p.topics.consumed = [] ∧
        s.site.store.records = (∅ : Register Shipment).put "S1" sent ∧
        s.site.sink.letters.map (fun l => (l.delivery.payload, l.reason)) =
          [(lacking.write, .validation)] := by
  intro p sent lacking calls refusals es start
  have hsent : sent.isAdmissible = true := by decide +kernel
  have hlacking : lacking.isAdmissible = false := by decide +kernel
  obtain ⟨key, hkey⟩ : ∃ key, (Request.status sent).key "" = .ok key :=
    exists_ok (by decide +kernel)
  obtain ⟨key', hkey'⟩ : ∃ key, (Request.full lacking).key "" = .ok key :=
    exists_ok (by decide +kernel)
  obtain ⟨t, ht, hused⟩ := p.request_accepted (s := start) hkey (by decide) (by decide)
  obtain ⟨u, hu, -⟩ := p.request_accepted (s := t) hkey' (by simp [hused]) (by rw [hused]; decide)
  have hcalls : p.callAll calls start = .ok ([.ok key, .ok key'], u) := by
    have hone : p.call ⟨true, sent⟩ start = .ok (.ok key, t) := ht
    have htwo : p.call ⟨false, lacking⟩ t = .ok (.ok key', u) := hu
    simp [callAll, calls, hone, htwo]
  have hstore : ∀ e ∈ Store.empty.failures, e.isTransient = true := by simp [Store.empty]
  have hpublish : ∀ e ∈ es, e.isPublish = false := by simp [es, Event.isPublish]
  have hfail : ∀ errors, .failStore errors ∈ es → ∀ e ∈ errors, e.isTransient = true := by
    simp [es, StoreError.isTransient]
  -- what drains the log is known once the events before it are, so the theorem is used twice
  obtain ⟨answers, produced, hanswers, -, -, -, fs, hwork, hdrained⟩ :=
    p.published_shipments_arrive calls refusals .empty es hstore hpublish hfail
  cases hcalls.symm.trans hanswers
  rw [← Stage.afterAll_append] at hdrained
  have hpublish' : ∀ e ∈ es ++ fs, e.isPublish = false := by
    refine List.forall_mem_append.2 ⟨hpublish, fun e he => ?_⟩
    exact Event.isPublish_of_isWork (hwork e he)
  have hfail' : ∀ errors, .failStore errors ∈ es ++ fs → ∀ e ∈ errors, e.isTransient = true := by
    intro errors he
    rcases List.mem_append.1 he with he | he
    · exact hfail errors he
    · cases hwork _ he
  obtain ⟨answers, produced, hanswers, -, harrived, -⟩ :=
    p.published_shipments_arrive calls refusals .empty (es ++ fs) hstore hpublish' hfail'
  cases hcalls.symm.trans hanswers
  obtain ⟨hrecords, hletters⟩ := harrived hdrained
  have hshipments : published calls [.ok key, .ok key'] = [sent, lacking] := rfl
  refine ⟨key, key', u, fs, hcalls, hwork, hdrained, hrecords.trans ?_, hletters.trans ?_⟩
  · rw [hshipments, List.filter_cons_of_pos hsent, List.filter_cons_of_neg (by simp [hlacking])]
    rfl
  · simp [hshipments, hsent, hlacking]

end Consignment
