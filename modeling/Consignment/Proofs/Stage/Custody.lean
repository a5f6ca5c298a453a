import Consignment.Proofs.Stage.Stride
import Consignment.Proofs.Store.Sequence

/-! What becomes of deliveries that are acknowledged. One that can never be processed is handed to
the sink, once, and is acknowledged whatever the sink answers. -/
namespace Consignment

namespace Sink

def kept : List Bool → List DeadLetter → List DeadLetter
  | [], letters => letters
  | _ :: _, [] => []
  | true :: answers, letter :: letters => letter :: kept answers letters
  | false :: answers, _ :: letters => kept answers letters

def recordAll (letters : List DeadLetter) (s : Sink) : Sink :=
  letters.foldl (fun sink letter => sink.record letter) s

theorem recordAll_append (front back : List DeadLetter) (s : Sink) :
    s.recordAll (front ++ back) = (s.recordAll front).recordAll back := List.foldl_append

theorem recordAll_faltering (handed : List DeadLetter) (answers : List Bool)
    (letters : List DeadLetter) :
    (Sink.faltering answers letters).recordAll handed =
      .faltering (answers.drop handed.length) (letters ++ kept answers handed) := by
  induction handed generalizing answers letters with
  | nil => cases answers <;> simp [recordAll, kept]
  | cons letter rest ih =>
    have hstep : ∀ s : Sink, s.recordAll (letter :: rest) = (s.record letter).recordAll rest :=
      fun _ => rfl
    rw [hstep]
    cases answers with
    | nil => simp [record, ih, kept]
    | cons answer answers => cases answer <;> simp [record, ih, kept]

end Sink

namespace Broker

theorem acks_publish (now : Nat) (topic key : String) (payload : Bytes) (b : Broker) :
    (b.publish now topic key payload).2.acks = b.acks := by
  unfold publish
  split <;> rfl

theorem acks_subscribe (topics : List String) (b : Broker) :
    (b.subscribe topics).2.acks = b.acks := by
  unfold subscribe
  split <;> rfl

theorem acks_receive (i : Nat) (b : Broker) : (b.receive i).2.acks = b.acks := by
  unfold receive
  split <;> rfl

theorem acks_acknowledged (b : Broker) (handling : Option Handling) :
    (b.acknowledged handling).acks = b.acks ++ handling.toList.map (·.delivery.place) := by
  cases handling with
  | none => simp [acknowledged]
  | some h => rfl

end Broker

theorem Worker.step?_acks {signalFirst : Bool} {w w' : Worker} {site site' : Site}
    (h : w.step? signalFirst site = some (w', site')) :
    site'.broker.acks =
      site.broker.acks ++ (w.handling? signalFirst site).toList.map (·.delivery.place) := by
  have hsubscribe := Broker.acks_subscribe w.topics site.broker
  cases move_of_step? h with
  | stops hw hs => simp [handling?_of_resting hw]
  | wakes hw => simp [handling?_of_resting (w := w) (by simp [hw])]
  | opens hw hb =>
    rw [hb] at hsubscribe
    simpa [handling?_of_resting (w := w) (by simp [hw])] using hsubscribe
  | fails hw hb =>
    rw [hb] at hsubscribe
    simpa [handling?_of_resting (w := w) (by simp [hw])] using hsubscribe
  | leaves hw hx =>
    rw [handling?_of_consuming hw, Session.handling?_of_finished hx]
    exact (List.append_nil _).symm
  | consumes hw hx hstep =>
    obtain ⟨subs, hbroker⟩ := (Session.step?_stride hstep).broker
    rw [handling?_of_consuming hw, hbroker]
    exact Broker.acks_acknowledged ..

namespace Stage

theorem after_acks (topics : Topics) (s : Stage) (e : Event) :
    (s.after topics e).site.broker.acks =
      s.site.broker.acks ++ (s.handling? e).toList.map (·.delivery.place) := by
  cases e with
  | work i signalFirst =>
    cases hi : s.workers[i]? with
    | none => simp [after, handling?, hi]
    | some w =>
      cases hstep : w.step? signalFirst s.site with
      | none => simp [after, handling?, hi, hstep, Worker.handling?_of_idle hstep]
      | some next => simpa [after, handling?, hi, hstep] using Worker.step?_acks hstep
  | publish topic key payload => exact (Broker.acks_publish ..).trans (List.append_nil _).symm
  | watch opened => exact (Broker.acks_subscribe ..).trans (List.append_nil _).symm
  | look i =>
    simp only [after]
    split
    · exact (List.append_nil _).symm
    · exact (Broker.acks_receive ..).trans (List.append_nil _).symm
  | leave i =>
    simp only [after]
    split <;> exact (List.append_nil _).symm
  | hire delay storeRetry =>
    simp only [after]
    split <;> exact (List.append_nil _).symm
  | _ => exact (List.append_nil _).symm

theorem after_sink (topics : Topics) (s : Stage) (e : Event) :
    (s.after topics e).site.sink =
      s.site.sink.recordAll ((s.handling? e).toList.filterMap Handling.letter?) := by
  by_cases hfail : ∃ errors, e = .failStore errors
  · obtain ⟨errors, rfl⟩ := hfail
    rfl
  · have hconsumed := s.after_consumed topics fun errors heq => hfail ⟨errors, heq⟩
    cases hh : s.handling? e with
    | none => exact (hconsumed.unsettled hh).1
    | some h =>
      obtain ⟨-, -, hsink⟩ := hconsumed.settled h hh
      rw [hsink]
      cases hl : h.letter? <;> simp [hl, Sink.recordAll]

/-- All that was done with since the acknowledgements and the sink were these is acknowledged, and
what had to be was handed to the sink. -/
structure Accounted (acks : List (String × Int)) (sink : Sink) (handled : List Handling)
    (s : Stage) : Prop where
  acks : s.site.broker.acks = acks ++ handled.map (·.delivery.place)
  sink : s.site.sink = sink.recordAll (handled.filterMap Handling.letter?)

namespace Accounted
variable {acks : List (String × Int)} {sink : Sink} {handled : List Handling} {s : Stage}

theorem start (s : Stage) : s.Accounted s.site.broker.acks s.site.sink [] :=
  ⟨(List.append_nil _).symm, rfl⟩

theorem after (h : s.Accounted acks sink handled) (topics : Topics) (e : Event) :
    (s.after topics e).Accounted acks sink (handled ++ (s.handling? e).toList) := by
  refine ⟨?_, ?_⟩
  · rw [after_acks, h.acks, List.map_append, List.append_assoc]
  · rw [after_sink, h.sink, List.filterMap_append, Sink.recordAll_append]

theorem afterAll (topics : Topics) (s : Stage) (es : List Event) :
    (s.afterAll topics es).Accounted s.site.broker.acks s.site.sink (s.handlings topics es) :=
  afterAll_induction (fun _ _ e _ h => h.after topics e) (start s)

end Accounted
end Stage

/-- What became of a delivery that is done with, by what the site was before and is after. In
`buried` it is up to the sink whether there is anything left of it. -/
inductive Handling.Fate (h : Handling) (before after : Site) : Prop
  | stored {incoming : Shipment} {id : String} {status : Status} {done : Reconciliation}
      (hintent : Shipment.intent h.delivery.payload = .ok (incoming, id, status))
      (houtcome : h.outcome = .ok done)
      (hrecord : after.store.records.get? id =
        some (incoming.merged (before.store.records.get? id)))
  | rejected {incoming : Shipment} {id : String} {status current : Status}
      (hintent : Shipment.intent h.delivery.payload = .ok (incoming, id, status))
      (hcurrent : before.store.statusOf id = some current)
      (houtcome : h.outcome = .error (.illegal id current status))
      (hstore : after.store = before.store)
  | buried {e : ConsumeError} {reason : LetterReason} (houtcome : h.outcome = .error e)
      (hreason : e.letterReason = some reason)
      (hsink : after.sink = before.sink.record ⟨h.delivery, reason, e.message⟩)

theorem Site.Consumed.fate {h : Handling} {before after : Site}
    (hconsumed : before.Consumed (some h) after) : h.Fate before after := by
  obtain ⟨d, outcome⟩ := h
  obtain ⟨hsettled, hconsume, hsink⟩ := hconsumed.settled _ rfl
  -- what is no rejection and cannot be tried again leaves a letter
  have hburied : ∀ e reason, outcome = .error e → e.letterReason = some reason →
      Handling.Fate ⟨d, outcome⟩ before after := by
    rintro e reason rfl hreason
    refine .buried rfl hreason ?_
    simpa [Handling.letter?, DeadLetter.of?, hreason] using hsink
  rcases Store.consume_cases d.payload before.store with ⟨e, rest, -, hc⟩ | ⟨e, he, hc, hrest⟩ |
    ⟨incoming, id, status, record, done, hadmitted, -, htarget, hsettle, hc⟩
  · -- the store failed, and it was no failure that passes
    obtain ⟨rfl, -⟩ := Prod.mk.inj (hc.symm.trans hconsume)
    have hlasts : e.isTransient = false := hsettled
    exact hburied _ .store rfl (by simp [ConsumeError.letterReason, hlasts])
  · obtain ⟨rfl, hstore⟩ := Prod.mk.inj (hc.symm.trans hconsume)
    cases e with
    | malformed reason => exact hburied _ .deserialization rfl rfl
    | invalid error => exact hburied _ .validation rfl rfl
    | store error => cases he
    | illegal id current status =>
      obtain ⟨incoming, hintent, hcurrent⟩ :=
        Store.intent_of_illegal (s := before.store.atRest) rfl (congrArg Prod.fst hrest)
      exact .rejected hintent hcurrent rfl hstore.symm
  · obtain ⟨rfl, hstore⟩ := Prod.mk.inj (hc.symm.trans hconsume)
    have hintent : Shipment.intent d.payload = .ok (incoming, id, status) := by
      simp [Shipment.intent, hadmitted, htarget]
    refine .stored hintent rfl ?_
    rw [← hstore, Shipment.merged_of_settle hsettle]
    simp

/-- Every delivery that was acknowledged was done with at some moment, and at that moment it was
stored, rejected by the lifecycle or handed to the sink. The sink is handed each of the latter once
and keeps those that it did not fail on; of the others nothing is left. -/
theorem Stage.acknowledged_accounted_for (topics : Topics) (site : Site) (workers : List Worker)
    (answers : List Bool) (letters : List DeadLetter) (es : List Event) :
    let start : Stage := ⟨{ site with sink := .faltering answers letters }, workers⟩
    let s := start.afterAll topics es
    let handled := start.handlings topics es
    let handed := handled.filterMap Handling.letter?
    s.site.broker.acks = site.broker.acks ++ handled.map (·.delivery.place) ∧
    (∀ h ∈ handled, ∃ front e back, es = front ++ e :: back ∧
      (start.afterAll topics front).handling? e = some h ∧
      h.Fate (start.afterAll topics front).site (start.afterAll topics (front ++ [e])).site) ∧
    s.site.sink =
      .faltering (answers.drop handed.length) (letters ++ Sink.kept answers handed) := by
  intro start s handled handed
  have haccounted : s.Accounted site.broker.acks (.faltering answers letters) handled :=
    .afterAll topics start es
  refine ⟨haccounted.acks, ?_,
    haccounted.sink.trans (Sink.recordAll_faltering handed answers letters)⟩
  intro h hh
  obtain ⟨front, e, back, hes, hhandling⟩ := exists_of_mem_handlings hh
  refine ⟨front, e, back, hes, hhandling, ?_⟩
  have he : ∀ errors, e ≠ .failStore errors := by
    rintro errors rfl
    cases hhandling
  have hconsumed := (start.afterAll topics front).after_consumed topics he
  rw [hhandling] at hconsumed
  rw [afterAll_append]
  exact hconsumed.fate

/-- A payload that is no document, and a sink that fails on the letter about it. -/
theorem Stage.letter_lost :
    let start : Stage := ⟨.fresh .empty (.faltering [false] []), []⟩
    let es : List Event := [.publish "SHIPMENT" "K" [], .hire .zero .standard, .work 0 false,
      .work 0 false]
    let s := start.afterAll .standard es
    s.site.broker.acks = [("SHIPMENT", 0)] ∧ s.site.store = .empty ∧ s.site.sink.letters = [] ∧
      (start.handlings .standard es).map Handling.letter? =
        [some ⟨⟨"SHIPMENT", some "K", [], 0, 0⟩, .deserialization,
          "Failed to deserialize shipment: EOF while parsing a value at line 1 column 0"⟩] := by
  decide +kernel

end Consignment
