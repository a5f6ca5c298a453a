import Consignment.Proofs.Store.Sequence
import Consignment.Samples

/-! Shipments do not meet. What is stored of one is the fold of what was accepted of it, and neither
that nor any answer depends on the payloads about others, however they are mixed. -/
namespace Consignment

namespace Shipment

/-- Whether a shipment may come after one that stands so, or after nothing. -/
def follows (last : Option Status) (s : Shipment) : Bool :=
  s.status.any fun next => last.all (·.mayBecome next)

/-- The shipments that are accepted one after the other: each that may follow the one accepted
before. -/
def accepted (last : Option Status) : List Shipment → List Shipment
  | [] => []
  | s :: rest => if s.follows last then s :: accepted s.status rest else accepted last rest

/-- Each of the shipments over those before it, from the first one on. -/
def overlaid : List Shipment → Option Shipment
  | [] => none
  | s :: rest => some (rest.foldl overlay s)

/-- What the payloads about a shipment say of it, as far as it breaks no rule. -/
def candidates (id : String) (payloads : List Bytes) : List Shipment :=
  (payloads.filter (subject? · = some id)).filterMap fun payload => (admitted payload).toOption

theorem foldl_merged (accepted : List Shipment) :
    accepted.foldl (fun found s => some (s.merged found)) none = overlaid accepted := by
  have hsome : ∀ (rest : List Shipment) (s : Shipment),
      rest.foldl (fun found s => some (s.merged found)) (some s) = some (rest.foldl overlay s) := by
    intro rest
    induction rest with
    | nil => exact fun s => rfl
    | cons next rest ih => exact fun s => ih (s.overlay next)
  cases accepted with
  | nil => rfl
  | cons s rest => exact hsome rest s

theorem candidates_cons (id : String) (payload : Bytes) (rest : List Bytes) :
    candidates id (payload :: rest) =
      (if subject? payload = some id then (admitted payload).toOption.toList else [])
        ++ candidates id rest := by
  unfold candidates
  by_cases h : subject? payload = some id
  · rw [List.filter_cons_of_pos (by simpa using h), if_pos h]
    cases hadmitted : admitted payload <;> simp [hadmitted, Except.toOption]
  · rw [List.filter_cons_of_neg (by simpa using h), if_neg h]
    rfl

theorem candidates_of_intent {payload : Bytes} {incoming : Shipment} {named : String}
    {status : Status} (h : intent payload = .ok (incoming, named, status)) (id : String)
    (rest : List Bytes) :
    candidates id (payload :: rest) =
      if named = id then incoming :: candidates id rest else candidates id rest := by
  rw [candidates_cons, subject?_of_intent h, (intent_ok h).1]
  by_cases heq : named = id <;> simp [heq, Except.toOption]

/-- An admitted shipment without an intent names no status, so that it follows on nothing. -/
theorem accepted_of_intent_error {id : String} {payload : Bytes} {e : ConsumeError}
    (h : intent payload = .error e) (last : Option Status) (rest : List Bytes) :
    accepted last (candidates id (payload :: rest)) = accepted last (candidates id rest) := by
  rw [candidates_cons]
  split
  · next hsubject =>
    cases hadmitted : admitted payload with
    | error e => rfl
    | ok s =>
      have hid : s.id = some id := by
        rw [subject?, ofDocument_of_admitted hadmitted] at hsubject
        exact hsubject
      have hstatus : s.status = none := by
        cases hs : s.status with
        | none => rfl
        | some status => simp [intent, hadmitted, target, hid, hs] at h
      simp [Except.toOption, accepted, follows, hstatus]
  · rfl

end Shipment

namespace Store
variable {s t : Store}

def reconciled (id : String) (s : Store) (payloads : List Bytes) : List Shipment :=
  ((payloads.zip (s.answers payloads)).filter fun x =>
    x.2.isOk && Shipment.subject? x.1 = some id).filterMap fun x =>
      (Shipment.ofDocument x.1).toOption

/-! ## One shipment -/

theorem reconciled_of_error {payload : Bytes} {e : ConsumeError}
    (h : s.consume payload = (.error e, s)) (id : String) (rest : List Bytes) :
    s.reconciled id (payload :: rest) = s.reconciled id rest := by
  simp [reconciled, answers, h, Except.isOk, Except.toBool]

theorem reconciled_of_ok {payload : Bytes} {incoming : Shipment} {named : String} {status : Status}
    {done : Reconciliation} (hintent : Shipment.intent payload = .ok (incoming, named, status))
    (h : s.consume payload = (.ok done, t)) (id : String) (rest : List Bytes) :
    s.reconciled id (payload :: rest) =
      if named = id then incoming :: t.reconciled id rest else t.reconciled id rest := by
  have hsubject := Shipment.subject?_of_intent hintent
  have hdoc := Shipment.ofDocument_of_admitted (Shipment.intent_ok hintent).1
  by_cases heq : named = id <;>
    simp [reconciled, answers, h, hsubject, hdoc, heq, Except.isOk, Except.toBool,
      Except.toOption]

theorem get?_afterEach (id : String) (payloads : List Bytes) (hs : s.failures = []) :
    (s.afterEach payloads).records.get? id =
      (s.reconciled id payloads).foldl (fun found x => some (x.merged found))
        (s.records.get? id) := by
  induction payloads generalizing s with
  | nil => rfl
  | cons payload rest ih =>
    have hrest := ih (failures_consume payload hs)
    rw [afterEach_cons, hrest]
    rcases refuses_or_writes payload hs with ⟨e, h⟩ |
      ⟨incoming, named, status, done, hintent, -, h⟩
    · rw [reconciled_of_error h, h]
    · rw [reconciled_of_ok hintent h, h]
      by_cases heq : named = id
      · subst heq
        simp [get?_written]
      · simp [get?_written, heq]

theorem reconciled_eq (id : String) (payloads : List Bytes) (hs : s.failures = []) :
    s.reconciled id payloads =
      Shipment.accepted (s.statusOf id) (Shipment.candidates id payloads) := by
  induction payloads generalizing s with
  | nil => rfl
  | cons payload rest ih =>
    have hrest := ih (failures_consume payload hs)
    rcases consume_rest_cases payload hs with ⟨e, hintent, h⟩ |
      ⟨incoming, named, status, current, hintent, hcurrent, hmay, h⟩ |
      ⟨incoming, named, status, done, hintent, hmay, h⟩
    · rw [h] at hrest
      rw [reconciled_of_error h, hrest, Shipment.accepted_of_intent_error hintent]
    · -- refused: for its own shipment it is a candidate that may not follow
      rw [h] at hrest
      rw [reconciled_of_error h, hrest, Shipment.candidates_of_intent hintent]
      by_cases heq : named = id
      · subst heq
        have hnot : incoming.follows (s.statusOf named) = false := by
          simp [Shipment.follows, Shipment.status_of_intent hintent, hcurrent, hmay]
        simp [Shipment.accepted, hnot]
      · simp [heq]
    · -- written: its status is the one that the next candidate has to follow
      have hstatus := Shipment.status_of_intent hintent
      rw [h] at hrest
      rw [reconciled_of_ok hintent h, hrest, Shipment.candidates_of_intent hintent]
      by_cases heq : named = id
      · subst heq
        have hfollows : incoming.follows (s.statusOf named) = true := by
          cases hcurrent : s.statusOf named with
          | none => simp [Shipment.follows, hstatus]
          | some current => simp [Shipment.follows, hstatus, hmay current hcurrent]
        have hnext : (s.written named (incoming.merged (s.records.get? named))).statusOf named =
            some status := by
          simp [statusOf_written, Shipment.status_merged hstatus]
        simp [Shipment.accepted, hfollows, hnext, hstatus]
      · simp [statusOf_written, heq]

/-! ## One shipment among others -/

theorem get?_consume_of_ne {id : String} {payload : Bytes} (hs : s.failures = [])
    (h : Shipment.subject? payload ≠ some id) :
    (s.consume payload).2.records.get? id = s.records.get? id := by
  rcases refuses_or_writes payload hs with ⟨e, hc⟩ |
    ⟨incoming, named, status, done, hintent, -, hc⟩
  · rw [hc]
  · have hne : named ≠ id := by
      rintro rfl
      exact h (Shipment.subject?_of_intent hintent)
    rw [hc]
    simp [get?_written, hne]

theorem consume_congr {id : String} {payload : Bytes} (hs : s.failures = []) (ht : t.failures = [])
    (h : Shipment.subject? payload = some id) (hst : s.records.get? id = t.records.get? id) :
    (s.consume payload).1 = (t.consume payload).1 ∧
      (s.consume payload).2.records.get? id = (t.consume payload).2.records.get? id := by
  cases hintent : Shipment.intent payload with
  | error e =>
    rw [consume_of_intent_error hintent s, consume_of_intent_error hintent t]
    exact ⟨rfl, hst⟩
  | ok intent =>
    obtain ⟨incoming, named, status⟩ := intent
    have hid : named = id := by
      rw [Shipment.subject?_of_intent hintent] at h
      exact Option.some.inj h
    subst hid
    rw [consume_of_intent hintent hs, consume_of_intent hintent ht, hst]
    cases incoming.settle named status (t.records.get? named) with
    | error e => exact ⟨rfl, hst⟩
    | ok next => simp [get?_written]

theorem afterEach_filter (id : String) (payloads : List Bytes) (hs : s.failures = [])
    (ht : t.failures = []) (hst : s.records.get? id = t.records.get? id) :
    let own := payloads.filter (Shipment.subject? · = some id)
    (payloads.zip (s.answers payloads)).filter (Shipment.subject? ·.1 = some id) =
        own.zip (t.answers own) ∧
      (s.afterEach payloads).records.get? id = (t.afterEach own).records.get? id := by
  induction payloads generalizing s t with
  | nil => exact ⟨rfl, hst⟩
  | cons payload rest ih =>
    by_cases h : Shipment.subject? payload = some id
    · obtain ⟨hanswer, hget⟩ := consume_congr hs ht h hst
      obtain ⟨hanswers, hafter⟩ :=
        ih (failures_consume payload hs) (failures_consume payload ht) hget
      refine ⟨?_, by simpa [h] using hafter⟩
      simp only [answers, List.zip_cons_cons]
      rw [List.filter_cons_of_pos (by simpa using h), List.filter_cons_of_pos (by simpa using h),
        hanswers, hanswer]
      rfl
    · have hget := (get?_consume_of_ne hs h).trans hst
      obtain ⟨hanswers, hafter⟩ := ih (failures_consume payload hs) ht hget
      refine ⟨?_, by simpa [h] using hafter⟩
      simp only [answers, List.zip_cons_cons]
      rw [List.filter_cons_of_neg (by simpa using h), List.filter_cons_of_neg (by simpa using h),
        hanswers]

theorem zip_answers_of_no_subject (payloads : List Bytes) (s : Store) :
    (payloads.zip (s.answers payloads)).filter (Shipment.subject? ·.1 = none) =
      (payloads.filter (Shipment.subject? · = none)).map fun payload =>
        (payload, (empty.consume payload).1) := by
  induction payloads generalizing s with
  | nil => rfl
  | cons payload rest ih =>
    simp only [answers, List.zip_cons_cons]
    by_cases h : Shipment.subject? payload = none
    · obtain ⟨e, hintent⟩ := Shipment.intent_of_no_subject h
      rw [List.filter_cons_of_pos (by simpa using h), List.filter_cons_of_pos (by simpa using h),
        ih, List.map_cons, consume_of_intent_error hintent s, consume_of_intent_error hintent empty]
    · rw [List.filter_cons_of_neg (by simpa using h), List.filter_cons_of_neg (by simpa using h),
        ih]

end Store

theorem perm_of_classes {α κ : Type} [DecidableEq κ] (f : α → κ) {xs ys : List α}
    (h : ∀ k, (xs.filter (f · = k)).Perm (ys.filter (f · = k))) : xs.Perm ys := by
  classical
  refine List.perm_iff_count.2 fun x => ?_
  calc xs.count x = (xs.filter (f · = f x)).count x := (List.count_filter (by simp)).symm
    _ = (ys.filter (f · = f x)).count x := (h (f x)).count_eq x
    _ = ys.count x := List.count_filter (by simp)

namespace Store

theorem interleaved {s : Store} {payloads others : List Bytes} (hs : s.failures = [])
    (hperm : others.Perm payloads)
    (horder : ∀ id, others.filter (Shipment.subject? · = some id) =
      payloads.filter (Shipment.subject? · = some id)) :
    s.afterEach others = s.afterEach payloads ∧
    (others.zip (s.answers others)).Perm (payloads.zip (s.answers payloads)) ∧
    ∀ id, (others.zip (s.answers others)).filter (Shipment.subject? ·.1 = some id) =
      (payloads.zip (s.answers payloads)).filter (Shipment.subject? ·.1 = some id) := by
  have hown : ∀ id, (others.zip (s.answers others)).filter (Shipment.subject? ·.1 = some id) =
      (payloads.zip (s.answers payloads)).filter (Shipment.subject? ·.1 = some id) := by
    intro id
    rw [(afterEach_filter id others hs hs rfl).1, (afterEach_filter id payloads hs hs rfl).1,
      horder id]
  -- the payloads about no shipment keep no order among themselves, so the answers are only permuted
  have hanswers : (others.zip (s.answers others)).Perm (payloads.zip (s.answers payloads)) := by
    apply perm_of_classes fun x => Shipment.subject? x.1
    intro subject
    cases subject with
    | some id => rw [hown id]
    | none =>
      rw [zip_answers_of_no_subject, zip_answers_of_no_subject]
      exact (hperm.filter _).map _
  refine ⟨?_, hanswers, hown⟩
  have hrecords : (s.afterEach others).records = (s.afterEach payloads).records := by
    apply Register.ext
    intro id
    rw [(afterEach_filter id others hs hs rfl).2, (afterEach_filter id payloads hs hs rfl).2,
      horder id]
  have hwrites : (s.afterEach others).writes = (s.afterEach payloads).writes := by
    rw [writes_afterEach others hs, writes_afterEach payloads hs, hanswers.countP_eq]
  have hfailures : (s.afterEach others).failures = (s.afterEach payloads).failures := by
    rw [failures_afterEach others hs, failures_afterEach payloads hs]
  exact Store.ext hrecords hfailures hwrites

/-- What happens to a shipment is up to the payloads about it. They come to what they would come to
alone, and their record is the fold of those that were accepted, each by the one before; so the
payloads about others may come at any moment between them. -/
theorem each_shipment_on_its_own (payloads : List Bytes) :
    let s := empty.afterEach payloads
    let answered := payloads.zip (empty.answers payloads)
    (∀ id,
      let own := payloads.filter (Shipment.subject? · = some id)
      s.records.get? id = Shipment.overlaid (empty.reconciled id payloads) ∧
      empty.reconciled id payloads = Shipment.accepted none (Shipment.candidates id payloads) ∧
      s.records.get? id = (empty.afterEach own).records.get? id ∧
      answered.filter (Shipment.subject? ·.1 = some id) = own.zip (empty.answers own)) ∧
    ∀ others : List Bytes, others.Perm payloads →
      (∀ id, others.filter (Shipment.subject? · = some id) =
        payloads.filter (Shipment.subject? · = some id)) →
      empty.afterEach others = s ∧
      (others.zip (empty.answers others)).Perm answered ∧
      ∀ id, (others.zip (empty.answers others)).filter (Shipment.subject? ·.1 = some id) =
        answered.filter (Shipment.subject? ·.1 = some id) := by
  intro s answered
  have hempty : empty.failures = [] := rfl
  refine ⟨?_, fun others hperm horder => interleaved hempty hperm horder⟩
  intro id own
  obtain ⟨hanswers, hget⟩ := afterEach_filter id payloads hempty hempty rfl
  refine ⟨?_, reconciled_eq id payloads hempty, hget, hanswers⟩
  rw [get?_afterEach id payloads hempty, ← Shipment.foldl_merged]
  rfl

/-- Two shipments and a payload that is no document, mixed in two ways. -/
theorem each_shipment_on_its_own_mixed :
    let planned := (Shipment.sample "A" .planned).write
    let sent := (Shipment.sample "A" .sent).write
    let other := (Shipment.sample "B" .sent).write
    let payloads := [planned, other, [], sent]
    let others := [other, planned, sent, []]
    others.Perm payloads ∧ empty.afterEach others = empty.afterEach payloads ∧
      (empty.afterEach payloads).writes = 3 := by
  intro planned sent other payloads others
  have hplanned : Shipment.subject? planned = some "A" := by decide +kernel
  have hsent : Shipment.subject? sent = some "A" := by decide +kernel
  have hother : Shipment.subject? other = some "B" := by decide +kernel
  have hnone : Shipment.subject? [] = none := by decide +kernel
  have hperm : others.Perm payloads := by decide +kernel
  have horder : ∀ id, others.filter (Shipment.subject? · = some id) =
      payloads.filter (Shipment.subject? · = some id) := by
    intro id
    by_cases hid : id = "A"
    · subst hid
      simp [others, payloads, hplanned, hsent, hother, hnone]
    · have hid' : "A" ≠ id := Ne.symm hid
      simp [others, payloads, List.filter_cons, hplanned, hsent, hother, hnone, hid']
  obtain ⟨hstore, -⟩ := (each_shipment_on_its_own payloads).2 others hperm horder
  exact ⟨hperm, hstore, by decide +kernel⟩

end Store
end Consignment
