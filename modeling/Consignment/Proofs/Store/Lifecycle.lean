import Consignment.Proofs.Store.Desk

/-! What a store goes through. Every write moves one shipment on in its lifecycle, which has five
stations, so that no shipment is written more often. -/
namespace Consignment

namespace Status

theorem rank_le (s : Status) : s.rank ≤ 4 := by
  cases s <;> decide

def writesLeft : Option Status → Nat
  | none => 5
  | some s => 4 - s.rank

theorem writesLeft_le (s : Option Status) : writesLeft s ≤ 5 := by
  cases s with
  | none => exact Nat.le_refl _
  | some s =>
    simp only [writesLeft]
    omega

end Status

theorem Shipment.Succeeds.writesLeft_lt {record : Shipment} {before : Option Shipment}
    (h : record.Succeeds before) :
    Status.writesLeft record.status < Status.writesLeft (before.bind (·.status)) := by
  obtain ⟨status, hstatus, hmay⟩ := h
  rw [hstatus]
  cases hb : before.bind (·.status) with
  | none =>
    simp only [Status.writesLeft]
    omega
  | some current =>
    obtain ⟨stored, hstored, hcurrent⟩ := Option.bind_eq_some_iff.1 hb
    have hlt := Status.rank_lt_of_mayBecome (hmay stored current hstored hcurrent)
    have hle := status.rank_le
    simp only [Status.writesLeft]
    omega

namespace Store

structure Onward (s t : Store) : Prop where
  status : ∀ id current, s.statusOf id = some current →
    ∃ next, t.statusOf id = some next ∧ current.rank ≤ next.rank
  frozen : ∀ id record, s.records.get? id = some record → record.status = some .rollback →
    t.records.get? id = some record

namespace Onward

theorem of_records {s t : Store} (h : t.records = s.records) : Onward s t := by
  refine ⟨?_, ?_⟩
  · intro id current hcurrent
    refine ⟨current, ?_, Nat.le_refl _⟩
    rw [statusOf, h]
    exact hcurrent
  · intro id record hget _
    rw [h]
    exact hget

theorem trans {s t u : Store} (h : Onward s t) (g : Onward t u) : Onward s u := by
  refine ⟨?_, ?_⟩
  · intro id current hcurrent
    obtain ⟨next, hnext, hle⟩ := h.status id current hcurrent
    obtain ⟨last, hlast, hle'⟩ := g.status id next hnext
    exact ⟨last, hlast, Nat.le_trans hle hle'⟩
  · intro id record hget hstatus
    exact g.frozen id record (h.frozen id record hget hstatus) hstatus

theorem put {s t : Store} {id : String} {record : Shipment}
    (hs : record.Succeeds (s.records.get? id)) (ht : t.records = s.records.put id record) :
    Onward s t := by
  obtain ⟨status, hstatus, hmay⟩ := hs
  refine ⟨?_, ?_⟩
  · intro other current hcurrent
    rw [statusOf, ht, Register.get?_put]
    by_cases heq : id = other
    · subst heq
      obtain ⟨stored, hstored, hbefore⟩ := Option.bind_eq_some_iff.1 hcurrent
      have hlt := Status.rank_lt_of_mayBecome (hmay stored current hstored hbefore)
      exact ⟨status, by simpa using hstatus, Nat.le_of_lt hlt⟩
    · rw [if_neg heq]
      exact ⟨current, hcurrent, Nat.le_refl _⟩
  · intro other stored hget hrollback
    rw [ht, Register.get?_put]
    by_cases heq : id = other
    · subst heq
      have hnever := hmay stored .rollback hget hrollback
      cases hnever
    · rw [if_neg heq]
      exact hget

end Onward
end Store

namespace Desk

structure Ran (d : Desk) (changes : List Change) (d' : Desk) : Prop where
  sound : d'.Sound
  records : d'.store.records = changes.foldl (fun r c => r.put c.id c.after) d.store.records
  writes : d'.store.writes = d.store.writes + changes.length
  each : ∀ c ∈ changes, c.after.id = some c.id ∧ c.after.Succeeds c.before
  onward : Store.Onward d.store d'.store
  few : ∀ id, changes.countP (·.id = id) + Status.writesLeft (d'.store.statusOf id) ≤
    Status.writesLeft (d.store.statusOf id)

theorem Ran.none {d d' : Desk} (hd : d'.Sound) (hr : d'.store.records = d.store.records)
    (hw : d'.store.writes = d.store.writes) : Ran d [] d' := by
  refine ⟨hd, hr, hw, by simp, .of_records hr, ?_⟩
  intro id
  simp [Store.statusOf, hr]

theorem Ran.one {d d' : Desk} {c : Change} (h : Stepped d (some c) d') : Ran d [c] d' := by
  obtain ⟨hid, hs, hbefore, hr, hw⟩ := h.wrote c rfl
  refine ⟨h.sound, hr, hw, ?_, .put (hbefore ▸ hs) hr, ?_⟩
  · intro e he
    obtain rfl := List.mem_singleton.1 he
    exact ⟨hid, hs⟩
  · intro id
    rw [Store.statusOf, hr, Register.get?_put]
    by_cases heq : c.id = id
    · subst heq
      have hlt := hs.writesLeft_lt
      rw [hbefore] at hlt
      simp only [Store.statusOf, List.countP_singleton, decide_true, if_true, Option.bind_some]
      omega
    · simp [Store.statusOf, heq]

theorem Ran.trans {d d' d'' : Desk} {cs es : List Change} (h : Ran d cs d') (g : Ran d' es d'') :
    Ran d (cs ++ es) d'' := by
  refine ⟨g.sound, ?_, ?_, ?_, h.onward.trans g.onward, ?_⟩
  · rw [g.records, h.records, List.foldl_append]
  · rw [g.writes, h.writes, List.length_append]
    omega
  · intro c hc
    rcases List.mem_append.1 hc with hc | hc
    · exact h.each c hc
    · exact g.each c hc
  · intro id
    have hfirst := h.few id
    have hthen := g.few id
    rw [List.countP_append]
    omega

theorem Sound.ran {d : Desk} (h : d.Sound) (es : List Event) :
    Ran d (d.changes es) (d.afterAll es) := by
  induction es generalizing d with
  | nil => exact .none h rfl rfl
  | cons e es ih =>
    have hstep := h.after e
    simp only [changes, afterAll_cons]
    apply Ran.trans _ (ih hstep.sound)
    cases hc : d.change? e with
    | none =>
      obtain ⟨hr, hw⟩ := hstep.kept hc
      exact .none hstep.sound hr hw
    | some c => exact .one (hc ▸ hstep)

end Desk
end Consignment
