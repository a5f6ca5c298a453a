import Mathlib.Data.List.ReduceOption
import Consignment.Proofs.Demands
import Consignment.Samples

/-! A shipment in front of any store, whatever it keeps and however it fails. The gate stands before
the first call: what it refuses is refused by all stores alike, and none of them is asked. -/
namespace Consignment

structure Backend (σ : Type) where
  find : String → σ → Except StoreError (Option Shipment) × σ
  upsert : Shipment → σ → Except StoreError Unit × σ

inductive Backend.Call
  | find (id : String)
  | upsert (record : Shipment)
deriving DecidableEq

namespace Backend
variable {σ : Type} (b : Backend σ)

/-- `Store.reconcile` with the two calls left open. -/
def reconcile (incoming : Shipment) (x : σ) : Except ConsumeError Reconciliation × σ :=
  match incoming.target with
  | .error e => (.error e, x)
  | .ok (id, status) =>
    match b.find id x with
    | (.error e, x) => (.error (.store e), x)
    | (.ok found, x) =>
      match incoming.settle id status found with
      | .error e => (.error e, x)
      | .ok (record, done) =>
        match b.upsert record x with
        | (.error e, x) => (.error (.store e), x)
        | (.ok (), x) => (.ok done, x)

def consume (payload : Bytes) (x : σ) : Except ConsumeError Reconciliation × σ :=
  match Shipment.admitted payload with
  | .error e => (.error e, x)
  | .ok s => b.reconcile s x

variable {b} {x y : σ} {incoming record : Shipment} {id : String} {status : Status}
  {found : Option Shipment} {done : Reconciliation}

theorem reconcile_of_refused {e : ConsumeError} (h : incoming.target = .error e) :
    b.reconcile incoming x = (.error e, x) := by
  simp only [reconcile, h]

theorem reconcile_of_find_error {e : StoreError} (h : incoming.target = .ok (id, status))
    (hf : b.find id x = (.error e, y)) : b.reconcile incoming x = (.error (.store e), y) := by
  simp only [reconcile, h, hf]

theorem reconcile_of_settle_error {e : ConsumeError} (h : incoming.target = .ok (id, status))
    (hf : b.find id x = (.ok found, y)) (hs : incoming.settle id status found = .error e) :
    b.reconcile incoming x = (.error e, y) := by
  simp only [reconcile, h, hf, hs]

theorem reconcile_of_settle (h : incoming.target = .ok (id, status))
    (hf : b.find id x = (.ok found, y))
    (hs : incoming.settle id status found = .ok (record, done)) :
    b.reconcile incoming x = match b.upsert record y with
      | (.error e, z) => (.error (.store e), z)
      | (.ok (), z) => (.ok done, z) := by
  simp only [reconcile, h, hf, hs]

theorem reconcile_map {τ : Type} {c : Backend τ} {g : σ → τ}
    (hfind : ∀ id x, c.find id (g x) = ((b.find id x).1, g (b.find id x).2))
    (hupsert : ∀ record x, c.upsert record (g x) = ((b.upsert record x).1, g (b.upsert record x).2))
    (incoming : Shipment) (x : σ) :
    c.reconcile incoming (g x) = ((b.reconcile incoming x).1, g (b.reconcile incoming x).2) := by
  cases ht : incoming.target with
  | error e => rw [reconcile_of_refused ht, reconcile_of_refused ht]
  | ok target =>
    obtain ⟨id, status⟩ := target
    have hc := hfind id x
    rcases hb : b.find id x with ⟨_ | found, y⟩ <;> rw [hb] at hc
    · rw [reconcile_of_find_error ht hc, reconcile_of_find_error ht hb]
    · cases hs : incoming.settle id status found with
      | error e => rw [reconcile_of_settle_error ht hc hs, reconcile_of_settle_error ht hb hs]
      | ok next =>
        obtain ⟨record, done⟩ := next
        rw [reconcile_of_settle ht hc hs, reconcile_of_settle ht hb hs, hupsert]
        rcases b.upsert record y with ⟨_ | _, z⟩ <;> rfl

theorem reconcile_of_find {P : σ → Prop} (ht : incoming.target = .ok (id, status))
    (hfind : P (b.find id x).2) (hupsert : ∀ record y, P y → P (b.upsert record y).2) :
    P (b.reconcile incoming x).2 := by
  rcases hf : b.find id x with ⟨_ | found, y⟩ <;> rw [hf] at hfind
  · rw [reconcile_of_find_error ht hf]
    exact hfind
  · cases hs : incoming.settle id status found with
    | error e =>
      rw [reconcile_of_settle_error ht hf hs]
      exact hfind
    | ok next =>
      obtain ⟨record, done⟩ := next
      have hwritten := hupsert record y hfind
      rw [reconcile_of_settle ht hf hs]
      rcases hu : b.upsert record y with ⟨_ | _, z⟩ <;> rw [hu] at hwritten <;> exact hwritten

def memory : Backend Store := ⟨Store.find, Store.upsert⟩

theorem memory_reconcile (incoming : Shipment) (s : Store) :
    memory.reconcile incoming s = s.reconcile incoming := by
  unfold reconcile Store.reconcile
  cases incoming.target with
  | error e => rfl
  | ok target =>
    obtain ⟨id, status⟩ := target
    simp only [memory]
    rcases s.find id with ⟨_ | found, t⟩
    · rfl
    · simp only
      cases incoming.settle id status found with
      | error e => rfl
      | ok next =>
        obtain ⟨record, done⟩ := next
        simp only
        rcases t.upsert record with ⟨_ | _, u⟩ <;> rfl

theorem memory_consume (payload : Bytes) (s : Store) :
    memory.consume payload s = s.consume payload := by
  unfold consume Store.consume
  cases Shipment.admitted payload with
  | error e => rfl
  | ok incoming => exact memory_reconcile incoming s

/-! ## What is asked of a store -/

variable (b) in
/-- The same store, which writes down what it is asked. -/
def logged : Backend (σ × List Call) where
  find id x := ((b.find id x.1).1, (b.find id x.1).2, x.2 ++ [.find id])
  upsert record x := ((b.upsert record x.1).1, (b.upsert record x.1).2, x.2 ++ [.upsert record])

variable (b) in
def calls (payload : Bytes) (x : σ) : List Call := (b.logged.consume payload (x, [])).2.2

theorem logged_consume (payload : Bytes) (x : σ) :
    b.logged.consume payload (x, []) =
      ((b.consume payload x).1, (b.consume payload x).2, b.calls payload x) := by
  have herase : b.consume payload x = ((b.logged.consume payload (x, [])).1,
      (b.logged.consume payload (x, [])).2.1) := by
    unfold consume
    cases Shipment.admitted payload with
    | error e => rfl
    | ok incoming =>
      exact reconcile_map (b := b.logged) (g := Prod.fst) (fun _ _ => rfl) (fun _ _ => rfl) _
        (x, [])
  rw [herase, calls]

theorem calls_of_admitted {payload : Bytes} (h : Shipment.admitted payload = .ok incoming) :
    b.calls payload x ≠ [] := by
  obtain ⟨id, status, ht⟩ := Shipment.target_of_admitted h
  rw [calls, consume, h]
  have hkeep := reconcile_of_find (b := b.logged) (x := (x, [])) (P := fun y => y.2 ≠ []) ht
  exact hkeep (by simp [logged]) (by simp [logged])

theorem consume_of_not_admitted {payload : Bytes} {e : ConsumeError}
    (h : Shipment.admitted payload = .error e) : b.consume payload x = (.error e, x) := by
  rw [consume, h]

theorem calls_ne_nil_iff {payload : Bytes} (h : Shipment.ofDocument payload = .ok incoming) :
    b.calls payload x ≠ [] ↔ incoming.Acceptable := by
  have hadmitted := Shipment.admitted_of_document h
  rw [← Shipment.gate_eq_ok_iff]
  cases hgate : incoming.gate with
  | ok u =>
    rw [hgate] at hadmitted
    exact iff_of_true (calls_of_admitted hadmitted) rfl
  | error e =>
    rw [hgate] at hadmitted
    rw [calls, consume_of_not_admitted hadmitted]
    simp

/-- A document reaches the store if and only if it meets all demands. If it does not, the first that
it does not meet is named, and no store is asked anything. The store in memory is one of these
stores, and what is asked of any is what it writes down, which changes nothing else. -/
theorem gate_of_document {payload : Bytes} {incoming : Shipment}
    (h : Shipment.ofDocument payload = .ok incoming) :
    (∀ (σ : Type) (b : Backend σ) (x : σ), b.calls payload x ≠ [] ↔ incoming.Acceptable) ∧
    (¬ incoming.Acceptable → ∃ f ∈ Shipment.schema.fields, incoming.FirstFault f.name ∧
      let refusal : ConsumeError := .invalid (.invalid f.name (f.complaint incoming))
      (∀ (σ : Type) (b : Backend σ) (x : σ), b.consume payload x = (.error refusal, x)) ∧
      ∀ s : Store, s.consume payload = (.error refusal, s)) ∧
    (∀ (σ : Type) (b : Backend σ) (x : σ), b.logged.consume payload (x, []) =
      ((b.consume payload x).1, (b.consume payload x).2, b.calls payload x)) ∧
    ∀ s : Store, memory.consume payload s = s.consume payload := by
  refine ⟨fun σ b x => calls_ne_nil_iff h, fun hnot => ?_, fun σ b => logged_consume payload,
    memory_consume payload⟩
  have hadmitted := Shipment.admitted_of_document h
  cases hgate : incoming.gate with
  | ok u => exact absurd (Shipment.gate_eq_ok_iff.1 hgate) hnot
  | error e =>
    obtain ⟨f, hf, rfl, hfirst⟩ := Shipment.firstFault_of_gate hgate
    rw [hgate] at hadmitted
    have hrefused : ∀ {σ : Type} (b : Backend σ) (x : σ),
        b.consume payload x = (.error (.invalid (.invalid f.name (f.complaint incoming))), x) :=
      fun b x => consume_of_not_admitted hadmitted
    refine ⟨f, hf, hfirst, fun σ b x => hrefused b x, fun s => ?_⟩
    rw [← memory_consume]
    exact hrefused memory s

/-- An empty origin may pass and a blank one may not, which is found before the line without
units. -/
theorem gate_of_document_each_way :
    let good := { Shipment.sample "A" .sent with
      origin := some "", attributes := .ofList [("note", none)] }
    let bad := { Shipment.sample "A" .sent with
      origin := some "\u3000", lines := [⟨some "SKU-1", some 0⟩] }
    Shipment.ofDocument good.write = .ok good ∧ good.Acceptable ∧
      (∀ s : Store, memory.calls good.write s ≠ []) ∧
    Shipment.ofDocument bad.write = .ok bad ∧ bad.FirstFault "origin" ∧
      ∀ s : Store, s.consume bad.write =
        (.error (.invalid (.invalid "origin" "must not be blank")), s) := by
  intro good bad
  have hgood : Shipment.ofDocument good.write = .ok good := by decide +kernel
  have hbad : Shipment.ofDocument bad.write = .ok bad := by decide +kernel
  obtain ⟨hreaches, -⟩ := gate_of_document hgood
  obtain ⟨hstops, hrefused, -⟩ := gate_of_document hbad
  have hacceptable : good.Acceptable := (hreaches Store memory .empty).1 (by decide +kernel)
  have hnot : ¬ bad.Acceptable := by
    rw [← hstops Store memory .empty]
    decide +kernel
  obtain ⟨f, -, hfirst, -, hall⟩ := hrefused hnot
  have hanswer : (Store.empty.consume bad.write).1 =
      .error (.invalid (.invalid "origin" "must not be blank")) := by decide +kernel
  rw [hall Store.empty] at hanswer
  simp only [Except.error.injEq, ConsumeError.invalid.injEq, CheckError.invalid.injEq] at hanswer
  obtain ⟨hname, hdetail⟩ := hanswer
  rw [hname] at hfirst
  rw [hname, hdetail] at hall
  exact ⟨hgood, hacceptable, fun s => (hreaches Store memory s).2 hacceptable, hbad, hfirst, hall⟩

end Backend
end Consignment
