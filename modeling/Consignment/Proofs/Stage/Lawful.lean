import Consignment.Proofs.Stage.Runs
import Consignment.Proofs.Store.Lawful
import Consignment.Samples

/-! Operations on a store whose records break no rule, one after the other. Nobody judges a record
when it is written, and still none that breaks a rule ever is. -/
namespace Consignment.Stage

/-- A payload is consumed once, a delivery is handled with all the attempts that its policy
allows. -/
inductive Operation
  | fail (errors : List StoreError)
  | consume (payload : Bytes)
  | handle (p : Policy) (d : Delivery)

def perform (s : Stage) : Operation → Stage
  | .fail errors => s.onSite fun site => { site with store := site.store.fail errors }
  | .consume payload => s.onSite fun site => (site.consume payload).2
  | .handle p d => (s.handle p d).2

def performAll (s : Stage) (ops : List Operation) : Stage := ops.foldl perform s

theorem perform_reaches (s : Stage) (op : Operation) :
    s.site.store.Reaches (s.perform op).site.store := by
  cases op with
  | fail errors => exact .fail errors _
  | consume payload => exact .consume payload _
  | handle p d => exact handle_reaches p d s

theorem performAll_reaches (s : Stage) (ops : List Operation) :
    s.site.store.Reaches (s.performAll ops).site.store := by
  induction ops generalizing s with
  | nil => exact .refl _
  | cons op ops ih => exact (s.perform_reaches op).trans (ih _)

/-- From a store in which every record is kept under its own id and breaks no rule, no run leads to
a store in which one does, and every record that is written on the way has a status and an id that
can stand as a key. Runs are attempts at a desk, in any order and with any failures, and all that is
consumed or handled is such a run. -/
theorem records_stay_lawful {store : Store} (h : store.Lawful) :
    let desk : Desk := ⟨store, []⟩
    (∀ es, (desk.afterAll es).store.Lawful ∧
      (desk.afterAll es).store.records =
        (desk.changes es).foldl (fun r c => r.put c.id c.after) store.records ∧
      (desk.afterAll es).store.writes = store.writes + (desk.changes es).length ∧
      ∀ c ∈ desk.changes es, c.after.Identified ∧ c.after.Passes) ∧
    ∀ (s : Stage) (ops : List Operation), s.site.store = store →
      (s.performAll ops).site.store.Lawful ∧
        ∃ es, desk.afterAll es = ⟨(s.performAll ops).site.store, []⟩ := by
  intro desk
  have hrun : ∀ es, (desk.afterAll es).Lawful ∧ ∀ c ∈ desk.changes es, c.after.Good :=
    fun es => Desk.Lawful.afterAll ⟨h, by simp [desk]⟩ es
  refine ⟨?_, ?_⟩
  · intro es
    have hsound : desk.Sound := ⟨h.keyed, by simp [desk], .nil⟩
    have hran := hsound.ran es
    exact ⟨(hrun es).1.store, hran.records, hran.writes, (hrun es).2⟩
  · intro s ops hs
    obtain ⟨es, hes⟩ := s.performAll_reaches ops
    rw [hs] at hes
    have hlast := (hrun es).1.store
    rw [hes] at hlast
    exact ⟨hlast, es, hes⟩

/-- A planned shipment without an origin is sent from one, after a failure and a document that has
blanks for an origin. -/
theorem records_stay_lawful_sent :
    let planned := { Shipment.sample "A" .planned with origin := some "" }
    let blank := { Shipment.sample "A" .sent with origin := some " " }
    let sent := (Shipment.sample "A" .sent).write
    let s : Stage := ⟨.fresh (.ofShipments [planned]) .absent, []⟩
    let t := s.performAll [.fail [.database "down"], .consume sent, .consume blank.write,
      .consume sent]
    s.site.store.Lawful ∧ t.site.store.Lawful ∧ t.site.store.writes = 1 ∧
      t.site.store.statusOf "A" = some .sent := by
  intro planned blank sent s t
  have hlawful : s.site.store.Lawful := by
    apply Store.Lawful.ofShipments
    intro x hx
    obtain rfl := List.mem_singleton.1 hx
    exact (by decide +kernel : planned.Passes)
  obtain ⟨ht, -⟩ := (records_stay_lawful hlawful).2 s _ rfl
  exact ⟨hlawful, ht, by decide +kernel⟩

end Consignment.Stage
