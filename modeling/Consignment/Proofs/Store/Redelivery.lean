import Mathlib.Data.List.ReduceOption
import Consignment.Proofs.Store.Sequence
import Consignment.Samples

/-! Payloads that come again. One that was reconciled is refused from then on, whatever comes in
between; one that was refused may be judged by a later status, and then it may be accepted. -/
namespace Consignment

namespace Status

theorem mayBecome_of_rank_le {current status : Status} (h : status.rank ≤ current.rank) :
    current.mayBecome status = false := by
  cases hmay : current.mayBecome status with
  | false => rfl
  | true =>
    have hlt := rank_lt_of_mayBecome hmay
    omega

/-- A shipment may go on to what was refused before it went on itself only if it was to be delivered
from the start. -/
theorem refused_again_iff {before now status : Status} (hrefused : before.mayBecome status = false)
    (hle : before.rank ≤ now.rank) :
    now.mayBecome status = false ↔
      (before = .planned ∧ status = .delivered → now ≠ .initiated ∧ now ≠ .sent) := by
  cases before <;> cases now <;> cases status <;> revert hrefused hle <;> decide

end Status

namespace Store
variable {s t : Store} {payload : Bytes}

theorem onward_consume (payload : Bytes) (hs : s.failures = []) :
    Onward s (s.consume payload).2 := by
  rcases refuses_or_writes payload hs with ⟨e, h⟩ |
    ⟨incoming, id, status, done, hintent, hmay, h⟩
  · rw [h]
    exact .of_records rfl
  · have hstatus := Shipment.status_of_intent hintent
    rw [h]
    refine .put ⟨status, Shipment.status_merged hstatus _, ?_⟩ rfl
    intro stored current hstored hcurrent
    exact hmay current (by simp [statusOf, hstored, hcurrent])

theorem onward_afterEach (payloads : List Bytes) (hs : s.failures = []) :
    Onward s (s.afterEach payloads) := by
  induction payloads generalizing s with
  | nil => exact .of_records rfl
  | cons payload rest ih =>
    exact (onward_consume payload hs).trans (ih (failures_consume payload hs))

/-! ## What was reconciled -/

/-- The shipment that the payload is about stands where the payload would bring it, or further
on. -/
def Overtakes (s : Store) (payload : Bytes) : Prop :=
  ∃ incoming id status current, Shipment.intent payload = .ok (incoming, id, status) ∧
    s.statusOf id = some current ∧ status.rank ≤ current.rank

theorem overtakes_of_consume {done : Reconciliation} (hs : s.failures = [])
    (h : (s.consume payload).1 = .ok done) : (s.consume payload).2.Overtakes payload := by
  rcases refuses_or_writes payload hs with ⟨e, hc⟩ | ⟨incoming, id, status, _, hintent, -, hc⟩
  · rw [hc] at h
    cases h
  · have hstatus := Shipment.status_of_intent hintent
    refine ⟨incoming, id, status, status, hintent, ?_, Nat.le_refl _⟩
    rw [hc]
    simp [statusOf_written, Shipment.status_merged hstatus]

theorem Overtakes.onward (h : s.Overtakes payload) (hon : Onward s t) : t.Overtakes payload := by
  obtain ⟨incoming, id, status, current, hintent, hcurrent, hle⟩ := h
  obtain ⟨next, hnext, hle'⟩ := hon.status id current hcurrent
  exact ⟨incoming, id, status, next, hintent, hnext, Nat.le_trans hle hle'⟩

theorem Overtakes.refused (h : s.Overtakes payload) (hs : s.failures = []) :
    ∃ id stored incoming, s.consume payload = (.error (.illegal id stored incoming), s) := by
  obtain ⟨incoming, id, status, current, hintent, hcurrent, hle⟩ := h
  rcases consume_rest_cases payload hs with ⟨e, herror, -⟩ | ⟨_, id, status, stored, -, -, -, hc⟩ |
    ⟨_, _, _, _, hother, hmay, -⟩
  · rw [hintent] at herror
    cases herror
  · exact ⟨id, stored, status, hc⟩
  · rw [hintent] at hother
    cases hother
    have hnot := Status.mayBecome_of_rank_le hle
    rw [hmay current hcurrent] at hnot
    cases hnot

/-- Among the deliveries, where `none` is `payload` once more, those that come again are refused,
and nothing else shows that they came. -/
structure Traceless (payload : Bytes) (s : Store) (deliveries : List (Option Bytes)) : Prop where
  refused : ∀ x ∈ deliveries.zip (s.answers (deliveries.map (·.getD payload))), x.1 = none →
    ∃ id stored incoming, x.2 = .error (.illegal id stored incoming)
  others : (deliveries.zip (s.answers (deliveries.map (·.getD payload)))).filterMap
      (fun x => x.1.map (·, x.2)) =
    deliveries.reduceOption.zip (s.answers deliveries.reduceOption)
  store : s.afterEach (deliveries.map (·.getD payload)) = s.afterEach deliveries.reduceOption

namespace Traceless
variable {deliveries : List (Option Bytes)}

theorem nil : Traceless payload s [] := ⟨by simp [answers], rfl, rfl⟩

theorem other (p : Bytes) (h : Traceless payload (s.consume p).2 deliveries) :
    Traceless payload s (some p :: deliveries) := by
  refine ⟨?_, ?_, by simpa using h.store⟩
  · intro x hx hnone
    rcases List.mem_cons.1 hx with rfl | hx
    · cases hnone
    · exact h.refused x hx hnone
  · simpa [answers] using h.others

theorem again (hp : ∃ id stored incoming,
      s.consume payload = (.error (.illegal id stored incoming), s))
    (h : Traceless payload s deliveries) : Traceless payload s (none :: deliveries) := by
  obtain ⟨id, stored, incoming, hp⟩ := hp
  refine ⟨?_, ?_, by simpa [hp] using h.store⟩
  · intro x hx hnone
    simp only [List.map_cons, Option.getD_none, answers, hp, List.zip_cons_cons] at hx
    rcases List.mem_cons.1 hx with rfl | hx
    · exact ⟨id, stored, incoming, rfl⟩
    · exact h.refused x hx hnone
  · simpa [answers, hp] using h.others

theorem of_overtakes (hs : s.failures = []) (h : s.Overtakes payload) :
    Traceless payload s deliveries := by
  induction deliveries generalizing s with
  | nil => exact nil
  | cons delivery rest ih =>
    cases delivery with
    | none => exact again (h.refused hs) (ih hs h)
    | some p => exact other p (ih (failures_consume p hs) (h.onward (onward_consume p hs)))

end Traceless

/-- A payload that was reconciled is so at most once, however often it comes again. -/
theorem reconciled_at_most_once {store : Store} {front : List Bytes} {payload : Bytes}
    {done : Reconciliation} (tail : List (Option Bytes))
    (h : ((store.atRest.afterEach front).consume payload).1 = .ok done) :
    Traceless payload store.atRest (front.map some ++ some payload :: tail) := by
  have hrest : store.atRest.failures = [] := rfl
  generalize store.atRest = s at h hrest
  induction front generalizing s with
  | nil =>
    exact .other payload
      (.of_overtakes (failures_consume payload hrest) (overtakes_of_consume hrest h))
  | cons p front ih => exact .other p (ih _ h (failures_consume p hrest))

/-- Sent, and told so again before and after it was delivered. -/
theorem reconciled_at_most_once_on_the_way :
    let planned := (Shipment.sample "A" .planned).write
    let sent := (Shipment.sample "A" .sent).write
    let delivered := (Shipment.sample "A" .delivered).write
    ((empty.atRest.afterEach [planned]).consume sent).1 = .ok (.updated "A" (some .planned) .sent) ∧
      empty.atRest.afterEach [planned, sent, sent, delivered, sent] =
        empty.atRest.afterEach [planned, sent, delivered] := by
  intro planned sent delivered
  have hsent : ((empty.atRest.afterEach [planned]).consume sent).1 =
      .ok (.updated "A" (some .planned) .sent) := by decide +kernel
  exact ⟨hsent, (reconciled_at_most_once [none, some delivered, none] hsent).store⟩

/-! ## What was refused -/

theorem refuses_iff {incoming : Shipment} {id : String} {status : Status}
    (h : Shipment.intent payload = .ok (incoming, id, status)) (hs : s.failures = []) :
    s.Refuses payload ↔ ∃ current, s.statusOf id = some current ∧
      current.mayBecome status = false := by
  rcases consume_rest_cases payload hs with ⟨e, herror, -⟩ |
    ⟨_, _, _, current, hother, hcurrent, hmay, hc⟩ | ⟨_, _, _, _, hother, hmay, hc⟩
  · rw [h] at herror
    cases herror
  · rw [h] at hother
    cases hother
    exact iff_of_true ⟨_, hc⟩ ⟨current, hcurrent, hmay⟩
  · rw [h] at hother
    cases hother
    refine iff_of_false ?_ ?_
    · rintro ⟨e, he⟩
      rw [hc] at he
      cases he
    · rintro ⟨current, hcurrent, hnot⟩
      rw [hmay current hcurrent] at hnot
      cases hnot

/-- A payload that comes again later is refused, unless it was refused before because the shipment
was not yet on its way, and now it is. -/
theorem refuses_again_iff (ht : t.failures = []) (hs : s.failures = [])
    (hon : Onward (t.consume payload).2 s) :
    s.Refuses payload ↔ ∀ id, (t.consume payload).1 = .error (.illegal id .planned .delivered) →
      s.statusOf id ≠ some .initiated ∧ s.statusOf id ≠ some .sent := by
  rcases consume_rest_cases payload ht with ⟨e, hintent, hc⟩ |
    ⟨incoming, id, status, before, hintent, hbefore, hmay, hc⟩ |
    ⟨incoming, id, status, done, hintent, -, hc⟩
  · refine iff_of_true ⟨e, consume_of_intent_error hintent s⟩ ?_
    intro id hillegal
    rw [hc] at hillegal
    exact absurd (Except.error.inj hillegal) (Shipment.intent_not_illegal hintent _ _ _)
  · rw [hc] at hon
    obtain ⟨now, hnow, hle⟩ := hon.status id before hbefore
    have hagain := Status.refused_again_iff hmay hle
    rw [refuses_iff hintent hs, hc]
    constructor
    · rintro ⟨current, hcurrent, hnot⟩ other hillegal
      obtain rfl := Option.some.inj (hnow.symm.trans hcurrent)
      cases hillegal
      simpa [hnow] using hagain.1 hnot ⟨rfl, rfl⟩
    · intro hnever
      refine ⟨now, hnow, hagain.2 ?_⟩
      rintro ⟨rfl, rfl⟩
      simpa [hnow] using hnever id rfl
  · -- it was reconciled then, and its shipment did not go back
    have hover := (overtakes_of_consume ht (by rw [hc])).onward hon
    obtain ⟨_, _, _, hrefused⟩ := hover.refused hs
    refine iff_of_true ⟨_, hrefused⟩ ?_
    intro id hillegal
    rw [hc] at hillegal
    cases hillegal

theorem afterEach_of_refuses {payloads : List Bytes} (h : ∀ p ∈ payloads, s.Refuses p) :
    s.afterEach payloads = s := by
  induction payloads with
  | nil => rfl
  | cons payload rest ih =>
    obtain ⟨⟨e, he⟩, hrest⟩ := List.forall_mem_cons.1 h
    rw [afterEach_cons, he]
    exact ih hrest

theorem writes_afterEach_eq_iff {payloads : List Bytes} (hs : s.failures = []) :
    (s.afterEach payloads).writes = s.writes ↔ ∀ p ∈ payloads, s.Refuses p := by
  refine ⟨?_, fun h => by rw [afterEach_of_refuses h]⟩
  intro h
  induction payloads with
  | nil => simp
  | cons payload rest ih =>
    rw [afterEach_cons] at h
    rcases refuses_or_writes payload hs with ⟨e, hc⟩ | ⟨incoming, id, status, done, -, -, hc⟩
    · rw [hc] at h
      exact List.forall_mem_cons.2 ⟨⟨e, hc⟩, ih h⟩
    · have hrest := writes_afterEach rest (failures_consume payload hs)
      rw [hc] at h hrest
      simp only [written] at h hrest
      omega

/-- To redeliver the last payloads changes nothing, unless one of them was refused as the step of a
shipment from PLANNED to DELIVERED and the shipment is now in between. -/
theorem replay_harmless_iff (store : Store) (a b : List Bytes) :
    let start := store.atRest.afterEach a
    let s := store.atRest.afterEach (a ++ b)
    (s.afterEach b).records = s.records ∧ (s.afterEach b).writes = s.writes ↔
      ∀ id, .error (.illegal id .planned .delivered) ∈ start.answers b →
        s.statusOf id ≠ some .initiated ∧ s.statusOf id ≠ some .sent := by
  intro start s
  have hstart : start.failures = [] := failures_afterEach a rfl
  have hs : s.failures = [] := failures_afterEach (a ++ b) rfl
  have hrefused : (s.afterEach b).records = s.records ∧ (s.afterEach b).writes = s.writes ↔
      ∀ p ∈ b, s.Refuses p := by
    refine ⟨fun h => (writes_afterEach_eq_iff hs).1 h.2, fun h => ?_⟩
    rw [afterEach_of_refuses h]
    exact ⟨rfl, rfl⟩
  have heach : ∀ front p back, b = front ++ p :: back →
      (s.Refuses p ↔ ∀ id,
        ((start.afterEach front).consume p).1 = .error (.illegal id .planned .delivered) →
          s.statusOf id ≠ some .initiated ∧ s.statusOf id ≠ some .sent) := by
    intro front p back hb
    have hfront := failures_afterEach front hstart
    -- the payloads after `p` only moved shipments on, so `s` compares with the store that
    -- judged `p`
    apply refuses_again_iff hfront hs
    have hsplit : s = ((start.afterEach front).consume p).2.afterEach back := by
      simp [s, start, hb, afterEach_append]
    rw [hsplit]
    exact onward_afterEach back (failures_consume p hfront)
  rw [hrefused]
  constructor
  · intro h id hmem
    obtain ⟨front, p, back, hb, hanswer⟩ := mem_answers.1 hmem
    exact (heach front p back hb).1 (h p (by simp [hb])) id hanswer
  · intro h p hp
    obtain ⟨front, back, hb⟩ := List.append_of_mem hp
    exact (heach front p back hb).2 fun id hanswer =>
      h id (mem_answers.2 ⟨front, p, back, hb, hanswer⟩)

/-- Refused while the shipment was planned, accepted when the same payloads come once more. -/
theorem replay_delivers :
    let planned := (Shipment.sample "A" .planned).write
    let sent := (Shipment.sample "A" .sent).write
    let delivered := (Shipment.sample "A" .delivered).write
    let s := empty.afterEach ([planned] ++ [delivered, sent])
    s.statusOf "A" = some .sent ∧ (s.afterEach [delivered, sent]).statusOf "A" = some .delivered ∧
      (s.afterEach [delivered, sent]).records ≠ s.records ∧
      s.writes = 2 ∧ (s.afterEach [delivered, sent]).writes = 3 := by
  decide +kernel

end Store
end Consignment
