import Consignment.Proofs.Store.PerShipment

/-! Payloads that are consumed at the same time, each with a read and later a write. Where no two of
them are about one shipment, no order of the reads and writes can be told from one payload after the
other, in whatever order. -/
namespace Consignment

/-- How far the consumption of a payload has come. What was drafted is still to be written. -/
inductive Race.Phase
  | begun
  | drafted (record : Shipment) (done : Reconciliation)
  | answered (answer : Except ConsumeError Reconciliation)

structure Race.Runner where
  payload : Bytes
  phase : Race.Phase

structure Race where
  store : Store
  runners : List Race.Runner

namespace Race

def Phase.ofRead : Except ConsumeError (Shipment × Reconciliation) → Phase
  | .error e => .answered (.error e)
  | .ok (record, done) => .drafted record done

/-- The runner goes on up to the answer of the store, to its read or to its write. -/
def Runner.advance (x : Runner) (s : Store) : Runner × Store :=
  match x.phase with
  | .begun =>
    match Shipment.admitted x.payload with
    | .error e => ({ x with phase := .answered (.error e) }, s)
    | .ok incoming =>
      let read := s.consider incoming
      ({ x with phase := .ofRead read.1 }, read.2)
  | .drafted record done =>
    let written := s.commit record done
    ({ x with phase := .answered written.1 }, written.2)
  | .answered _ => (x, s)

def Phase.isAnswered : Phase → Bool
  | .begun => false
  | .drafted _ _ => false
  | .answered _ => true

def start (s : Store) (payloads : List Bytes) : Race := ⟨s, payloads.map (⟨·, .begun⟩)⟩

def after (r : Race) (i : Nat) : Race :=
  match r.runners[i]? with
  | none => r
  | some x => ⟨(x.advance r.store).2, r.runners.set i (x.advance r.store).1⟩

def afterAll (r : Race) (schedule : List Nat) : Race := schedule.foldl after r

def payloads (r : Race) : List Bytes := r.runners.map (·.payload)

@[simp] theorem payloads_start (s : Store) (ps : List Bytes) : (start s ps).payloads = ps := by
  simp [payloads, start, Function.comp_def]

def settled (r : Race) : List Bytes := (r.runners.filter (·.phase.isAnswered)).map (·.payload)

theorem payload_advance (x : Runner) (s : Store) : (x.advance s).1.payload = x.payload := by
  obtain ⟨payload, phase⟩ := x
  cases phase with
  | answered answer => rfl
  | drafted record done => rfl
  | begun =>
    simp only [Runner.advance]
    cases Shipment.admitted payload <;> rfl

theorem settled_sublist (r : Race) : r.settled.Sublist r.payloads := List.filter_sublist.map _

theorem advance_alone (payload : Bytes) (s : Store) :
    let read := (Runner.mk payload .begun).advance s
    read.1.advance read.2 =
      (⟨payload, .answered (s.consume payload).1⟩, (s.consume payload).2) := by
  simp only [Runner.advance, Store.consume]
  cases Shipment.admitted payload with
  | error e => rfl
  | ok incoming =>
    simp only [Store.reconcile_eq]
    rcases s.consider incoming with ⟨answer, t⟩
    cases answer <;> rfl

variable {s : Store}

theorem advance_cases (x : Runner) (hs : s.failures = []) :
    (x.phase.isAnswered = true ∧ x.advance s = (x, s)) ∨
    (x.phase = .begun ∧ ∃ e, s.consume x.payload = (.error e, s) ∧
      x.advance s = (⟨x.payload, .answered (.error e)⟩, s)) ∨
    (x.phase = .begun ∧ ∃ incoming id status record done,
      Shipment.intent x.payload = .ok (incoming, id, status) ∧
      incoming.settle id status (s.records.get? id) = .ok (record, done) ∧
      x.advance s = (⟨x.payload, .drafted record done⟩, s)) ∨
    ∃ record done, x.phase = .drafted record done ∧
      x.advance s =
        (⟨x.payload, .answered (s.commit record done).1⟩, (s.commit record done).2) := by
  obtain ⟨payload, phase⟩ := x
  cases phase with
  | answered answer => exact .inl ⟨rfl, rfl⟩
  | drafted record done => exact .inr (.inr (.inr ⟨record, done, rfl, rfl⟩))
  | begun =>
    cases hadmitted : Shipment.admitted payload with
    | error e =>
      refine .inr (.inl ⟨rfl, e, ?_, ?_⟩)
      · simp [Store.consume, hadmitted]
      · simp [Runner.advance, hadmitted]
    | ok incoming =>
      rcases Store.consider_cases incoming s with
        ⟨e, ht, hc⟩ | ⟨id, status, ht, ⟨e, rest, hfailures, -⟩ | ⟨-, hc⟩⟩
      · refine .inr (.inl ⟨rfl, e, ?_, ?_⟩)
        · simp [Store.consume, hadmitted, Store.reconcile_eq, hc]
        · simp [Runner.advance, hadmitted, hc, Phase.ofRead]
      · rw [hs] at hfailures
        cases hfailures
      · cases hsettle : incoming.settle id status (s.records.get? id) with
        | error e =>
          rw [hsettle] at hc
          refine .inr (.inl ⟨rfl, e, ?_, ?_⟩)
          · simp [Store.consume, hadmitted, Store.reconcile_eq, hc]
          · simp [Runner.advance, hadmitted, hc, Phase.ofRead]
        | ok draft =>
          obtain ⟨record, done⟩ := draft
          rw [hsettle] at hc
          refine .inr (.inr (.inl ⟨rfl, incoming, id, status, record, done, ?_, hsettle, ?_⟩))
          · simp [Shipment.intent, hadmitted, ht]
          · simp [Runner.advance, hadmitted, hc, Phase.ofRead]

theorem after_cases (r : Race) (i : Nat) :
    r.after i = r ∨ ∃ front x back, r.runners = front ++ x :: back ∧
      r.after i = ⟨(x.advance r.store).2, front ++ (x.advance r.store).1 :: back⟩ := by
  unfold after
  cases hx : r.runners[i]? with
  | none => exact .inl rfl
  | some x =>
    obtain ⟨hi, hget⟩ := List.getElem?_eq_some_iff.1 hx
    refine .inr ⟨r.runners.take i, x, r.runners.drop (i + 1), ?_, ?_⟩
    · rw [← hget, List.getElem_cons_drop, List.take_append_drop]
    · simp only [List.set_eq_take_append_cons_drop, if_pos hi]

end Race

/-! ## Payloads about different shipments -/

def Shipment.Apart (payloads : List Bytes) : Prop :=
  payloads.Pairwise fun p q => ∀ id, subject? p = some id → subject? q ≠ some id

namespace Shipment

theorem Apart.perm {payloads others : List Bytes} (h : Apart payloads)
    (hperm : others.Perm payloads) : Apart others :=
  hperm.symm.pairwise h fun hpq id hq hp => hpq id hp hq

/-- There is at most one payload about a shipment, so a permutation cannot move it. -/
theorem Apart.filter_eq {payloads others : List Bytes} (h : Apart payloads)
    (hperm : others.Perm payloads) (id : String) :
    others.filter (subject? · = some id) = payloads.filter (subject? · = some id) := by
  have hown := h.filter (subject? · = some id)
  have hmem : ∀ p ∈ payloads.filter (subject? · = some id), subject? p = some id :=
    fun p hp => by simpa using (List.mem_filter.1 hp).2
  have hp := hperm.filter (subject? · = some id)
  generalize payloads.filter (subject? · = some id) = own at hown hmem hp
  match own with
  | [] => exact hp.eq_nil
  | [p] => exact hp.eq_singleton
  | p :: q :: rest =>
    exact absurd (hmem q (by simp)) (List.rel_of_pairwise_cons hown (by simp) id (hmem p (by simp)))

end Shipment

namespace Store
variable {s t : Store}

theorem answer_congr {payload : Bytes} (hs : s.failures = []) (ht : t.failures = [])
    (h : ∀ id, Shipment.subject? payload = some id → s.records.get? id = t.records.get? id) :
    (s.consume payload).1 = (t.consume payload).1 := by
  cases hsubject : Shipment.subject? payload with
  | some id => exact (consume_congr hs ht hsubject (h id hsubject)).1
  | none =>
    obtain ⟨e, hintent⟩ := Shipment.intent_of_no_subject hsubject
    rw [consume_of_intent_error hintent, consume_of_intent_error hintent]

theorem get?_afterEach_of_ne {id : String} {payloads : List Bytes} (hs : s.failures = [])
    (h : ∀ payload ∈ payloads, Shipment.subject? payload ≠ some id) :
    (s.afterEach payloads).records.get? id = s.records.get? id := by
  have hown : payloads.filter (Shipment.subject? · = some id) = [] := by simpa using h
  simpa [hown, afterEach] using (afterEach_filter id payloads hs hs rfl).2

theorem afterEach_perm {payloads others : List Bytes} (hs : s.failures = [])
    (h : Shipment.Apart payloads) (hperm : others.Perm payloads) :
    s.afterEach others = s.afterEach payloads :=
  (interleaved hs hperm (h.filter_eq hperm)).1

theorem answers_of_apart {payloads : List Bytes} (hs : s.failures = [])
    (h : Shipment.Apart payloads) :
    s.answers payloads = payloads.map fun payload => (s.consume payload).1 := by
  induction payloads generalizing s with
  | nil => rfl
  | cons payload rest ih =>
    obtain ⟨hapart, hrest⟩ := List.pairwise_cons.1 h
    have hconsumed := failures_consume payload hs
    rw [answers, ih hconsumed hrest, List.map_cons]
    congr 1
    refine List.map_congr_left fun other hother => answer_congr hconsumed hs fun id hid => ?_
    exact get?_consume_of_ne hs fun heq => hapart other hother id heq hid

end Store

namespace Race

/-- The race could have come from `s` with the answered payloads one after the other. What is
drafted is what is written once nothing else is, and the answers are those that `s` gives. -/
structure Serial (s : Store) (r : Race) : Prop where
  store : r.store = s.afterEach r.settled
  drafted : ∀ x ∈ r.runners, ∀ record done, x.phase = .drafted record done →
    ∃ incoming id status, Shipment.intent x.payload = .ok (incoming, id, status) ∧
      incoming.settle id status (s.records.get? id) = .ok (record, done)
  answered : ∀ x ∈ r.runners, ∀ answer, x.phase = .answered answer →
    answer = (s.consume x.payload).1

namespace Serial
variable {s : Store} {r : Race}

theorem start (s : Store) (payloads : List Bytes) : Serial s (Race.start s payloads) := by
  have hbegun : ∀ x ∈ (Race.start s payloads).runners, x.phase = .begun := by
    intro x hx
    obtain ⟨payload, -, rfl⟩ := List.mem_map.1 hx
    rfl
  refine ⟨?_, ?_, ?_⟩
  · have hnone : (Race.start s payloads).settled = [] := by
      simp only [settled, List.map_eq_nil_iff, List.filter_eq_nil_iff]
      intro x hx
      simp [hbegun x hx, Phase.isAnswered]
    rw [hnone]
    rfl
  · intro x hx record done h
    rw [hbegun x hx] at h
    cases h
  · intro x hx answer h
    rw [hbegun x hx] at h
    cases h

theorem failures (h : Serial s r) (hs : s.failures = []) : r.store.failures = [] := by
  rw [h.store]
  exact Store.failures_afterEach _ hs

variable {front back : List Runner} {x : Runner}

theorem settled_eq (hr : r.runners = front ++ x :: back) (hx : x.phase.isAnswered = false) :
    r.settled = (front.filter (·.phase.isAnswered)).map (·.payload) ++
      (back.filter (·.phase.isAnswered)).map (·.payload) := by
  simp [settled, hr, hx]

theorem mem_moved {moved : Runner} (hr : r.runners = front ++ x :: back) :
    ∀ y ∈ front ++ moved :: back, y = moved ∨ y ∈ r.runners := by
  intro y hy
  rw [hr]
  simp only [List.mem_append, List.mem_cons] at hy ⊢
  rcases hy with hy | rfl | hy
  · exact .inr (.inl hy)
  · exact .inl rfl
  · exact .inr (.inr (.inr hy))

theorem untouched (h : Serial s r) (hs : s.failures = []) (hapart : Shipment.Apart r.payloads)
    (hr : r.runners = front ++ x :: back) (hx : x.phase.isAnswered = false) {id : String}
    (hid : Shipment.subject? x.payload = some id) :
    r.store.records.get? id = s.records.get? id := by
  rw [h.store]
  refine Store.get?_afterEach_of_ne hs fun payload hpayload heq => ?_
  rw [settled_eq hr hx, ← List.map_append] at hpayload
  obtain ⟨y, hy, rfl⟩ := List.mem_map.1 hpayload
  have hothers : y ∈ front ++ back := by
    rcases List.mem_append.1 hy with hy | hy
    · exact List.mem_append_left _ (List.mem_filter.1 hy).1
    · exact List.mem_append_right _ (List.mem_filter.1 hy).1
  have hfirst : (x.payload :: (front ++ back).map (·.payload)).Perm r.payloads := by
    simp only [Race.payloads, hr]
    exact (List.perm_middle.map Runner.payload).symm
  exact List.rel_of_pairwise_cons (hapart.perm hfirst) (List.mem_map_of_mem hothers) id hid heq

theorem settle (h : Serial s r) (hs : s.failures = []) (hapart : Shipment.Apart r.payloads)
    (hr : r.runners = front ++ x :: back) (hx : x.phase.isAnswered = false)
    {answer : Except ConsumeError Reconciliation} {t : Store}
    (hconsume : r.store.consume x.payload = (answer, t)) :
    Serial s ⟨t, front ++ ⟨x.payload, .answered answer⟩ :: back⟩ := by
  have hothers : ∀ y ∈ front ++ (⟨x.payload, .answered answer⟩ : Runner) :: back,
      y = ⟨x.payload, .answered answer⟩ ∨ y ∈ r.runners := mem_moved hr
  refine ⟨?_, ?_, ?_⟩
  · -- the payload joins those before it as the last one, which its place among them does not change
    have hperm : (settled ⟨t, front ++ ⟨x.payload, .answered answer⟩ :: back⟩).Perm
        (r.settled ++ [x.payload]) := by
      rw [settled_eq hr hx]
      simp only [settled, List.filter_append, List.filter_cons, Phase.isAnswered, if_true,
        List.map_append, List.map_cons]
      exact List.perm_middle.trans (List.perm_append_singleton _ _).symm
    have hsame : payloads ⟨t, front ++ ⟨x.payload, .answered answer⟩ :: back⟩ = r.payloads := by
      simp [payloads, hr]
    have hall := (hsame ▸ hapart).sublist (settled_sublist _)
    rw [← Store.afterEach_perm hs hall hperm.symm, Store.afterEach_append, ← h.store]
    exact (congrArg Prod.snd hconsume).symm
  · intro y hy record done hphase
    rcases hothers y hy with rfl | hy
    · cases hphase
    · exact h.drafted y hy record done hphase
  · intro y hy other hphase
    rcases hothers y hy with rfl | hy
    · cases hphase
      have hnow : (r.store.consume x.payload).1 = (s.consume x.payload).1 :=
        Store.answer_congr (h.failures hs) hs fun id hid => h.untouched hs hapart hr hx hid
      rwa [hconsume] at hnow
    · exact h.answered y hy other hphase

theorem draft (h : Serial s r) (hs : s.failures = []) (hapart : Shipment.Apart r.payloads)
    (hr : r.runners = front ++ x :: back) (hx : x.phase.isAnswered = false)
    {incoming record : Shipment} {id : String} {status : Status} {done : Reconciliation}
    (hintent : Shipment.intent x.payload = .ok (incoming, id, status))
    (hsettle : incoming.settle id status (r.store.records.get? id) = .ok (record, done)) :
    Serial s ⟨r.store, front ++ ⟨x.payload, .drafted record done⟩ :: back⟩ := by
  have hothers : ∀ y ∈ front ++ (⟨x.payload, .drafted record done⟩ : Runner) :: back,
      y = ⟨x.payload, .drafted record done⟩ ∨ y ∈ r.runners := mem_moved hr
  refine ⟨?_, ?_, ?_⟩
  · rw [h.store, settled_eq hr hx]
    simp [settled, Phase.isAnswered]
  · intro y hy other last hphase
    rcases hothers y hy with rfl | hy
    · cases hphase
      rw [h.untouched hs hapart hr hx (Shipment.subject?_of_intent hintent)] at hsettle
      exact ⟨incoming, id, status, hintent, hsettle⟩
    · exact h.drafted y hy other last hphase
  · intro y hy answer hphase
    rcases hothers y hy with rfl | hy
    · cases hphase
    · exact h.answered y hy answer hphase

theorem consume_drafted (h : Serial s r) (hs : s.failures = []) (hapart : Shipment.Apart r.payloads)
    (hr : r.runners = front ++ x :: back) {record : Shipment} {done : Reconciliation}
    (hx : x.phase = .drafted record done) :
    r.store.consume x.payload = r.store.commit record done := by
  have hmem : x ∈ r.runners := by simp [hr]
  have hphase : x.phase.isAnswered = false := by rw [hx]; rfl
  obtain ⟨incoming, id, status, hintent, hsettle⟩ := h.drafted x hmem record done hx
  rw [Store.consume_of_intent hintent (h.failures hs),
    h.untouched hs hapart hr hphase (Shipment.subject?_of_intent hintent), hsettle]
  have hid := Shipment.id_of_settle (Shipment.intent_ok hintent).2 hsettle
  rcases Store.commit_cases hid done r.store with ⟨e, rest, hfailures, -⟩ | ⟨-, hcommit⟩
  · rw [h.failures hs] at hfailures
    cases hfailures
  · rw [hcommit]
    rfl

theorem after (h : Serial s r) (hs : s.failures = []) (hapart : Shipment.Apart r.payloads)
    (i : Nat) : Serial s (r.after i) := by
  rcases r.after_cases i with hsame | ⟨front, x, back, hr, hafter⟩
  · rwa [hsame]
  rw [hafter]
  rcases advance_cases x (h.failures hs) with ⟨-, hx⟩ | ⟨hphase, e, hconsume, hx⟩ |
    ⟨hphase, incoming, id, status, record, done, hintent, hsettle, hx⟩ |
    ⟨record, done, hphase, hx⟩
  · rw [hx, ← hr]
    exact h
  · rw [hx]
    exact h.settle hs hapart hr (by rw [hphase]; rfl) hconsume
  · rw [hx]
    exact h.draft hs hapart hr (by rw [hphase]; rfl) hintent hsettle
  · rw [hx]
    exact h.settle hs hapart hr (by rw [hphase]; rfl) (h.consume_drafted hs hapart hr hphase)

end Serial

theorem payloads_after (r : Race) (i : Nat) : (r.after i).payloads = r.payloads := by
  rcases r.after_cases i with hsame | ⟨front, x, back, hr, hafter⟩
  · rw [hsame]
  · simp [payloads, hafter, hr, payload_advance]

theorem payloads_afterAll (r : Race) (schedule : List Nat) :
    (r.afterAll schedule).payloads = r.payloads := by
  induction schedule generalizing r with
  | nil => rfl
  | cons i schedule ih => exact (ih (r.after i)).trans (r.payloads_after i)

theorem Serial.afterAll {s : Store} {r : Race} (h : Serial s r) (hs : s.failures = [])
    (hapart : Shipment.Apart r.payloads) (schedule : List Nat) :
    Serial s (r.afterAll schedule) := by
  induction schedule generalizing r with
  | nil => exact h
  | cons i schedule ih => exact ih (h.after hs hapart i) (r.payloads_after i ▸ hapart)

/-! ## Every runner arrives -/

def Phase.left : Phase → Nat
  | .begun => 2
  | .drafted _ _ => 1
  | .answered _ => 0

theorem left_advance (x : Runner) (s : Store) : (x.advance s).1.phase.left ≤ x.phase.left - 1 := by
  obtain ⟨payload, phase⟩ := x
  cases phase with
  | answered answer => exact Nat.le_refl _
  | drafted record done => exact Nat.le_refl _
  | begun =>
    simp only [Runner.advance]
    cases Shipment.admitted payload with
    | error e => exact Nat.zero_le _
    | ok incoming =>
      cases hread : (s.consider incoming).1 with
      | error e => simp [hread, Phase.ofRead, Phase.left]
      | ok draft => simp [hread, Phase.ofRead, Phase.left]

theorem left_after (r : Race) (i j : Nat) {x : Runner} (hx : r.runners[j]? = some x) :
    ∃ y, (r.after i).runners[j]? = some y ∧
      y.phase.left ≤ x.phase.left - if i = j then 1 else 0 := by
  unfold Race.after
  by_cases hij : i = j
  · subst hij
    obtain ⟨hi, -⟩ := List.getElem?_eq_some_iff.1 hx
    simp only [hx]
    exact ⟨_, List.getElem?_set_self hi, by simpa using left_advance x r.store⟩
  · cases hget : r.runners[i]? with
    | none => exact ⟨x, hx, Nat.le_of_eq (by simp [hij])⟩
    | some other => exact ⟨x, by simpa [List.getElem?_set_ne hij] using hx, by simp [hij]⟩

theorem left_afterAll (r : Race) (schedule : List Nat) (j : Nat) {x : Runner}
    (hx : r.runners[j]? = some x) :
    ∃ y, (r.afterAll schedule).runners[j]? = some y ∧
      y.phase.left ≤ x.phase.left - schedule.count j := by
  induction schedule generalizing r x with
  | nil => exact ⟨x, hx, Nat.le_refl _⟩
  | cons i schedule ih =>
    obtain ⟨y, hy, hleft⟩ := r.left_after i j hx
    obtain ⟨z, hz, hrest⟩ := ih (r.after i) hy
    refine ⟨z, hz, ?_⟩
    rw [List.count_cons]
    by_cases hij : i = j <;> simp [hij] at hleft ⊢ <;> omega

theorem settled_of_turns (s : Store) {payloads : List Bytes} {schedule : List Nat}
    (h : ∀ i < payloads.length, 2 ≤ schedule.count i) :
    ((start s payloads).afterAll schedule).settled = payloads := by
  have hpayloads : ((start s payloads).afterAll schedule).payloads = payloads := by
    rw [payloads_afterAll, payloads_start]
  have hanswered : ∀ x ∈ ((start s payloads).afterAll schedule).runners,
      x.phase.isAnswered = true := by
    intro x hx
    obtain ⟨j, hj⟩ := List.mem_iff_getElem?.1 hx
    obtain ⟨hlt, -⟩ := List.getElem?_eq_some_iff.1 hj
    have hlength := congrArg List.length hpayloads
    rw [Race.payloads, List.length_map] at hlength
    rw [hlength] at hlt
    have hstart : (start s payloads).runners[j]? = some ⟨payloads[j], .begun⟩ := by
      simp [start, hlt]
    obtain ⟨y, hy, hleft⟩ := left_afterAll (start s payloads) schedule j hstart
    obtain rfl : y = x := Option.some.inj (hy.symm.trans hj)
    have hturns := h j hlt
    have hbegun : Phase.begun.left = 2 := rfl
    have hnone : y.phase.left = 0 := by
      simp only [hbegun] at hleft
      omega
    cases hphase : y.phase <;> simp [hphase, Phase.left, Phase.isAnswered] at hnone ⊢
  rw [settled, List.filter_eq_self.2 hanswered]
  exact hpayloads

end Race

namespace Store

/-- Payloads about different shipments may be consumed at the same time. However their reads and
writes are mixed, at every moment the store is the one that those which are answered leave in any
order, one after the other, and each is answered as in any such order; two turns for each are enough
that all are. A payload that has its two turns at once is consumed as it is alone. -/
theorem races_are_serial {s : Store} {payloads : List Bytes} (hs : s.failures = [])
    (hapart : Shipment.Apart payloads) (schedule : List Nat) :
    let r := (Race.start s payloads).afterAll schedule
    r.payloads = payloads ∧
    (∀ x ∈ r.runners, ∀ answer, x.phase = .answered answer → answer = (s.consume x.payload).1) ∧
    (∀ others, others.Perm r.settled → r.store = s.afterEach others ∧
      s.answers others = others.map fun payload => (s.consume payload).1) ∧
    ((∀ i < payloads.length, 2 ≤ schedule.count i) → r.settled = payloads) ∧
    ∀ (payload : Bytes) (t : Store), let read := (Race.Runner.mk payload .begun).advance t
      read.1.advance read.2 =
        (⟨payload, .answered (t.consume payload).1⟩, (t.consume payload).2) := by
  intro r
  have hstart : (Race.start s payloads).payloads = payloads := Race.payloads_start s payloads
  have hpayloads : r.payloads = payloads := (Race.payloads_afterAll _ schedule).trans hstart
  have hserial : Race.Serial s r :=
    (Race.Serial.start s payloads).afterAll hs (hstart.symm ▸ hapart) schedule
  have hsettled : Shipment.Apart r.settled := (hpayloads.symm ▸ hapart).sublist r.settled_sublist
  refine ⟨hpayloads, hserial.answered, fun others hperm => ⟨?_, ?_⟩, Race.settled_of_turns s,
    Race.advance_alone⟩
  · rw [hserial.store, afterEach_perm hs hsettled hperm]
  · exact answers_of_apart hs (hsettled.perm hperm)

/-- Both read before either writes, and a third that is no document is answered between. -/
theorem races_are_serial_read_read_write_write :
    let planned := (Shipment.sample "A" .planned).write
    let sent := (Shipment.sample "B" .sent).write
    let r := (Race.start empty [planned, sent, []]).afterAll [0, 1, 2, 1, 0, 2]
    r.store = empty.afterEach [planned, sent, []] ∧
      r.store = empty.afterEach [[], sent, planned] ∧ r.store.writes = 2 := by
  intro planned sent r
  have hplanned : Shipment.subject? planned = some "A" := by decide +kernel
  have hsent : Shipment.subject? sent = some "B" := by decide +kernel
  have hnone : Shipment.subject? [] = none := by decide +kernel
  have hapart : Shipment.Apart [planned, sent, []] := by
    simp [Shipment.Apart, hplanned, hsent, hnone]
  have hempty : empty.failures = [] := rfl
  obtain ⟨-, -, hstore, hturns, -⟩ := races_are_serial hempty hapart [0, 1, 2, 1, 0, 2]
  have hall : r.settled = [planned, sent, []] := hturns (by decide)
  have hforth : [planned, sent, []].Perm r.settled := .of_eq hall.symm
  have hback : [[], sent, planned].Perm r.settled :=
    (List.reverse_perm [planned, sent, []]).trans hforth
  refine ⟨(hstore _ hforth).1, (hstore _ hback).1, ?_⟩
  rw [(hstore _ hforth).1]
  decide +kernel

end Store
end Consignment
