import Consignment.Proofs.Store.Attempt

/-! Many attempts at one store, each a read and later a write, in any order. Only attempts at the
same shipment wait for one another. -/
namespace Consignment

structure Change where
  id : String
  before : Option Shipment
  after : Shipment
deriving DecidableEq

/-- Attempts whose read is done wait in `drafts` with what they are to write. -/
structure Desk where
  store : Store
  drafts : List (Shipment × Reconciliation)
deriving DecidableEq

inductive Desk.Event
  | fail (errors : List StoreError)
  | read (payload : Bytes)
  | write (id : String)
deriving DecidableEq

namespace Desk

def draft? (id : String) (d : Desk) : Option (Shipment × Reconciliation) :=
  d.drafts.find? (·.1.id = some id)

def isBusy (id : Option String) (d : Desk) : Bool := d.drafts.any (·.1.id = id)

def after (d : Desk) : Event → Desk
  | .fail errors => { d with store := d.store.fail errors }
  | .read payload =>
    match Shipment.admitted payload with
    | .error _ => d
    | .ok incoming =>
      if d.isBusy incoming.id then d
      else match d.store.consider incoming with
        | (.error _, store) => { d with store }
        | (.ok draft, store) => ⟨store, d.drafts ++ [draft]⟩
  | .write id =>
    match d.draft? id with
    | none => d
    | some (record, done) =>
      ⟨(d.store.commit record done).2, d.drafts.filter (·.1.id ≠ some id)⟩

def change? (d : Desk) : Event → Option Change
  | .fail _ => none
  | .read _ => none
  | .write id =>
    match d.draft? id with
    | none => none
    | some (record, done) =>
      match (d.store.commit record done).1 with
      | .error _ => none
      | .ok _ => some ⟨id, d.store.records.get? id, record⟩

def afterAll (d : Desk) (es : List Event) : Desk := es.foldl after d

def changes : Desk → List Event → List Change
  | _, [] => []
  | d, e :: es => (d.change? e).toList ++ changes (d.after e) es

@[simp] theorem afterAll_nil (d : Desk) : d.afterAll [] = d := rfl

@[simp] theorem afterAll_cons (d : Desk) (e : Event) (es : List Event) :
    d.afterAll (e :: es) = (d.after e).afterAll es := rfl

theorem afterAll_append (d : Desk) (es fs : List Event) :
    d.afterAll (es ++ fs) = (d.afterAll es).afterAll fs := List.foldl_append

end Desk

namespace Store

def Keyed (s : Store) : Prop := ∀ id record, s.records.get? id = some record → record.id = some id

theorem get?_ofList_mem {es : List (String × Shipment)} {r : Register Shipment} {id : String}
    {record : Shipment}
    (h : (es.foldl (fun r e => r.put e.1 e.2) r).get? id = some record) :
    (id, record) ∈ es ∨ r.get? id = some record := by
  induction es generalizing r with
  | nil => exact .inr h
  | cons e es ih =>
    rcases ih h with hmem | hget
    · exact .inl (List.mem_cons_of_mem _ hmem)
    · rw [Register.get?_put] at hget
      by_cases he : e.1 = id
      · rw [if_pos he] at hget
        obtain rfl := Option.some.inj hget
        subst he
        exact .inl (by simp)
      · rw [if_neg he] at hget
        exact .inr hget

theorem keyed_ofShipments (shipments : List Shipment) : (ofShipments shipments).Keyed := by
  intro id record h
  rcases get?_ofList_mem h with hmem | hget
  · obtain ⟨s, -, hs⟩ := List.mem_filterMap.1 hmem
    obtain ⟨other, hid, heq⟩ := Option.map_eq_some_iff.1 hs
    obtain ⟨rfl, rfl⟩ := Prod.mk.inj heq
    exact hid
  · cases hget

end Store

namespace Shipment

/-- The record has a status, and it is one that the status of what was there may become. -/
def Succeeds (record : Shipment) (before : Option Shipment) : Prop :=
  ∃ status, record.status = some status ∧
    ∀ stored current, before = some stored → stored.status = some current →
      current.mayBecome status = true

theorem succeeds_of_settle {incoming record : Shipment} {id : String} {status : Status}
    {found : Option Shipment} {done : Reconciliation} (ht : incoming.target = .ok (id, status))
    (h : incoming.settle id status found = .ok (record, done)) : record.Succeeds found := by
  refine ⟨status, status_of_settle ht h, ?_⟩
  intro stored current hstored hcurrent
  rcases settle_ok h with ⟨hnone, -⟩ | ⟨other, hfound, -, hmay⟩
  · rw [hnone] at hstored
    cases hstored
  · rw [hfound] at hstored
    obtain rfl := Option.some.inj hstored
    exact hmay current hcurrent

end Shipment

namespace Desk

/-- Records are kept under their own ids, and every draft follows on what is stored now, whatever
was written since it was read. -/
structure Sound (d : Desk) : Prop where
  keyed : d.store.Keyed
  drafted : ∀ x ∈ d.drafts, ∃ id, x.1.id = some id ∧ x.1.Succeeds (d.store.records.get? id)
  single : d.drafts.Pairwise (·.1.id ≠ ·.1.id)

namespace Sound
variable {d : Desk}

theorem ofShipments (shipments : List Shipment) : Sound ⟨.ofShipments shipments, []⟩ :=
  ⟨Store.keyed_ofShipments shipments, by simp, .nil⟩

theorem congr (h : d.Sound) {store : Store} (hr : store.records = d.store.records) :
    Sound { d with store } := by
  refine ⟨?_, ?_, h.single⟩
  · intro id record hget
    rw [hr] at hget
    exact h.keyed id record hget
  · intro x hx
    rw [hr]
    exact h.drafted x hx

theorem draft (h : d.Sound) {record : Shipment} {id : String} (done : Reconciliation)
    (hid : record.id = some id) (hbusy : d.isBusy record.id = false)
    (hs : record.Succeeds (d.store.records.get? id)) :
    Sound ⟨d.store, d.drafts ++ [(record, done)]⟩ := by
  refine ⟨h.keyed, ?_, ?_⟩
  · intro x hx
    rcases List.mem_append.1 hx with hx | hx
    · exact h.drafted x hx
    · obtain rfl := List.mem_singleton.1 hx
      exact ⟨id, hid, hs⟩
  · apply List.pairwise_append.2
    refine ⟨h.single, by simp, ?_⟩
    intro x hx y hy heq
    obtain rfl := List.mem_singleton.1 hy
    have hany : d.isBusy record.id = true := List.any_eq_true.2 ⟨x, hx, by simpa using heq⟩
    rw [hbusy] at hany
    cases hany

theorem drop (h : d.Sound) (id : String) :
    Sound ⟨d.store, d.drafts.filter (·.1.id ≠ some id)⟩ := by
  refine ⟨h.keyed, ?_, h.single.filter _⟩
  intro x hx
  exact h.drafted x (List.mem_filter.1 hx).1

theorem put (h : d.Sound) {record : Shipment} {id : String} (hid : record.id = some id)
    {store : Store} (hr : store.records = d.store.records.put id record) :
    Sound ⟨store, d.drafts.filter (·.1.id ≠ some id)⟩ := by
  refine ⟨?_, ?_, h.single.filter _⟩
  · intro other found hget
    rw [hr, Register.get?_put] at hget
    by_cases heq : id = other
    · rw [if_pos heq] at hget
      obtain rfl := Option.some.inj hget
      exact heq ▸ hid
    · rw [if_neg heq] at hget
      exact h.keyed other found hget
  · intro x hx
    obtain ⟨hmem, hne⟩ := List.mem_filter.1 hx
    obtain ⟨other, hother, hs⟩ := h.drafted x hmem
    have heq : id ≠ other := by
      intro heq
      simp [hother, heq] at hne
    refine ⟨other, hother, ?_⟩
    rw [hr, Register.get?_put, if_neg heq]
    exact hs

end Sound

theorem draft?_eq {d : Desk} {id : String} {x : Shipment × Reconciliation}
    (h : d.draft? id = some x) : x ∈ d.drafts ∧ x.1.id = some id := by
  refine ⟨List.mem_of_find?_eq_some h, ?_⟩
  simpa using List.find?_some h

theorem read_cases (d : Desk) (payload : Bytes) :
    (∃ store, store.records = d.store.records ∧ store.writes = d.store.writes ∧
      d.after (.read payload) = { d with store }) ∨
    ∃ incoming id status record done, Shipment.admitted payload = .ok incoming ∧
      d.isBusy incoming.id = false ∧ incoming.target = .ok (id, status) ∧
      incoming.settle id status (d.store.records.get? id) = .ok (record, done) ∧
      d.after (.read payload) = ⟨d.store, d.drafts ++ [(record, done)]⟩ := by
  simp only [Desk.after]
  cases Shipment.admitted payload with
  | error e => exact .inl ⟨d.store, rfl, rfl, rfl⟩
  | ok incoming =>
    cases hbusy : d.isBusy incoming.id with
    | true => exact .inl ⟨d.store, rfl, rfl, by simp [hbusy]⟩
    | false =>
      simp only [hbusy, Bool.false_eq_true, if_false]
      rcases Store.consider_cases incoming d.store with
        ⟨e, -, hd⟩ | ⟨id, status, ht, ⟨e, rest, -, hd⟩ | ⟨-, hd⟩⟩
      · rw [hd]
        exact .inl ⟨d.store, rfl, rfl, rfl⟩
      · rw [hd]
        exact .inl ⟨{ d.store with failures := rest }, rfl, rfl, rfl⟩
      · rw [hd]
        cases hs : incoming.settle id status (d.store.records.get? id) with
        | error e => exact .inl ⟨d.store, rfl, rfl, rfl⟩
        | ok draft => exact .inr ⟨incoming, id, status, draft.1, draft.2, rfl, hbusy, ht, hs, rfl⟩

theorem write_cases (d : Desk) (id : String) :
    (d.change? (.write id) = none ∧ d.after (.write id) = d) ∨
    ∃ record done, (record, done) ∈ d.drafts ∧ record.id = some id ∧
      ((d.change? (.write id) = none ∧ ∃ store, store.records = d.store.records ∧
        store.writes = d.store.writes ∧
        d.after (.write id) = ⟨store, d.drafts.filter (·.1.id ≠ some id)⟩) ∨
      (d.change? (.write id) = some ⟨id, d.store.records.get? id, record⟩ ∧
        d.after (.write id) =
          ⟨{ d.store with records := d.store.records.put id record, writes := d.store.writes + 1 },
            d.drafts.filter (·.1.id ≠ some id)⟩)) := by
  cases hdraft : d.draft? id with
  | none => exact .inl ⟨by rw [change?, hdraft], by rw [Desk.after, hdraft]⟩
  | some x =>
    obtain ⟨record, done⟩ := x
    obtain ⟨hmem, hid⟩ := draft?_eq hdraft
    refine .inr ⟨record, done, hmem, hid, ?_⟩
    simp only [change?, Desk.after, hdraft]
    rcases Store.commit_cases hid done d.store with ⟨e, rest, -, hc⟩ | ⟨-, hc⟩
    · rw [hc]
      exact .inl ⟨rfl, { d.store with failures := rest }, rfl, rfl, rfl⟩
    · rw [hc]
      exact .inr ⟨rfl, rfl⟩

structure Stepped (d : Desk) (change : Option Change) (d' : Desk) : Prop where
  sound : d'.Sound
  kept : change = none → d'.store.records = d.store.records ∧ d'.store.writes = d.store.writes
  wrote : ∀ c, change = some c → c.after.id = some c.id ∧ c.after.Succeeds c.before ∧
    c.before = d.store.records.get? c.id ∧
    d'.store.records = d.store.records.put c.id c.after ∧ d'.store.writes = d.store.writes + 1

theorem Sound.after {d : Desk} (h : d.Sound) (e : Event) : Stepped d (d.change? e) (d.after e) := by
  cases e with
  | fail errors => exact ⟨h.congr rfl, fun _ => ⟨rfl, rfl⟩, by simp [change?]⟩
  | read payload =>
    rcases d.read_cases payload with ⟨store, hr, hw, ha⟩ |
      ⟨incoming, id, status, record, done, -, hbusy, ht, hs, ha⟩
    · rw [ha]
      exact ⟨h.congr hr, fun _ => ⟨hr, hw⟩, by simp [change?]⟩
    · rw [ha]
      have hid := Shipment.id_of_settle ht hs
      have hfree : d.isBusy record.id = false := by
        rw [hid, ← (Shipment.target_ok ht).1]
        exact hbusy
      have hdraft := h.draft done hid hfree (Shipment.succeeds_of_settle ht hs)
      exact ⟨hdraft, fun _ => ⟨rfl, rfl⟩, by simp [change?]⟩
  | write id =>
    rcases d.write_cases id with ⟨hc, ha⟩ | ⟨record, done, hmem, hid, hwrite⟩
    · rw [hc, ha]
      exact ⟨h, fun _ => ⟨rfl, rfl⟩, by simp⟩
    · rcases hwrite with ⟨hc, store, hr, hw, ha⟩ | ⟨hc, ha⟩
      · rw [hc, ha]
        exact ⟨(h.drop id).congr hr, fun _ => ⟨hr, hw⟩, by simp⟩
      · rw [hc, ha]
        obtain ⟨other, hother, hsucceeds⟩ := h.drafted _ hmem
        obtain rfl : id = other := Option.some.inj (hid.symm.trans hother)
        refine ⟨h.put hid rfl, by simp, ?_⟩
        intro c hc
        obtain rfl := Option.some.inj hc
        exact ⟨hid, hsucceeds, rfl, rfl, rfl⟩

end Desk
end Consignment
