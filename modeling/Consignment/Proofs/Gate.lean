import Consignment.Proofs.Deadline
import Consignment.Proofs.Demands

/-! What is asked of a request before anything is published, field by field and without a word about
the rules that decide it. Whatever meets it is tried at least once; of whatever does not, the first
field that falls short is named, and nothing happens. -/
namespace Consignment

/-- What is asked of a field. It is missing if it is null or the empty text. -/
structure Ask where
  field : String
  Missing : Prop
  Met : Prop

def Ask.text (field : String) (value : Option String) (Fits : String → Prop) : Ask :=
  ⟨field, value = none ∨ value = some "", ∃ t, value = some t ∧ Fits t⟩

namespace Request

def asks : Request → List Ask
  | .full s => [.text "id" s.id fun t => Text.Legible t ∧ t.length ≤ 64]
  | .status s =>
    [.text "id" s.id fun t => Text.Legible t ∧ t.length ≤ 64,
     ⟨"status", s.status = none, ∃ status, s.status = some status⟩]
  | .transaction t =>
    [.text "purpose" t.purpose fun t => Text.Legible t ∧ t.length ≤ 255,
     ⟨"flow", t.flow = none, ∃ flow, t.flow = some flow⟩,
     ⟨"amount", t.amount = none, ∃ n, t.amount = some n ∧ 0 < n⟩,
     .text "currency" t.currency fun t => t.length = 3 ∧ ∀ c ∈ t.toList, Text.isLowercase c = false,
     .text "beneficiary" t.beneficiary Text.Legible,
     .text "provider" t.provider Text.Legible]

def Acceptable (r : Request) : Prop := ∀ a ∈ r.asks, a.Met

def FirstUnmet (r : Request) (a : Ask) : Prop :=
  ∃ front back, r.asks = front ++ a :: back ∧ (∀ b ∈ front, b.Met) ∧ ¬ a.Met

end Request

/-! ## What the rules say -/

namespace Constraint

/-- How a message begins that does not say that something is missing. -/
def openings : List String := ["must ", "length ", "size "]

theorem opening_of_check {c : Constraint} {v : Value} {message : String}
    (h : c.check v = some message) (hc : c ≠ .required) :
    ∃ opening ∈ openings, ∃ rest, message = opening ++ rest := by
  have hflag : ∀ {broken : Bool} {text : String},
      (if broken = true then some text else none) = some message → message = text := by
    intro broken text hb
    cases broken <;> simp_all
  unfold check at h
  split at h
  · exact absurd rfl hc
  · exact ⟨"must ", by decide, "not be blank", hflag h⟩
  · exact ⟨"length ", by decide, _,
      (hflag h).trans (@String.append_assoc "length " "must be at most " _)⟩
  · exact ⟨"size ", by decide, _,
      (hflag h).trans (@String.append_assoc "size " "must be at most " _)⟩
  · exact ⟨"size ", by decide, _,
      (hflag h).trans (@String.append_assoc "size " "must be at most " _)⟩
  · next min max t =>
    refine ⟨"length ", by decide, s!"must be between {min} and {max}", (hflag h).trans ?_⟩
    change "length " ++ "must be between " ++ toString min ++ " and " ++ toString max =
      "length " ++ ("must be between " ++ toString min ++ " and " ++ toString max)
    simp only [String.append_assoc]
  · exact ⟨"must ", by decide, "be greater than 0", hflag h⟩
  · exact ⟨"must ", by decide, "be uppercase", hflag h⟩
  · exact ⟨"must ", by decide, "not contain null elements", hflag h⟩
  · exact ⟨"must ", by decide, "not contain null elements", hflag h⟩
  · cases h

theorem opening_ne {opening : String} (h : opening ∈ openings) (rest : String) :
    opening ++ rest ≠ "is required" := by
  intro heq
  have hhead := congrArg (fun t => t.toList.head?) heq
  simp only [openings, List.mem_cons, List.not_mem_nil, or_false] at h
  rcases h with rfl | rfl | rfl <;> simp at hhead

theorem intercalate_checkAll_ne {cs : List Constraint} (hcs : .required ∉ cs) (v : Value) :
    "; ".intercalate (checkAll cs v) ≠ "is required" := by
  cases hall : checkAll cs v with
  | nil => decide
  | cons message messages =>
    have hmem : message ∈ checkAll cs v := by simp [hall]
    obtain ⟨c, hc, hcheck⟩ := List.mem_filterMap.1 hmem
    obtain ⟨opening, hopening, rest, rfl⟩ :=
      opening_of_check hcheck fun heq => hcs (heq ▸ hc)
    rw [String.intercalate_cons_append]
    exact opening_ne hopening _

end Constraint

/-- The check succeeds if what is asked is met. Else it names the field, and says that it is
required if and only if it is missing. -/
structure Ask.Decides (a : Ask) (result : Except CheckError Unit) : Prop where
  ok_iff : result = .ok () ↔ a.Met
  error : ∀ e, result = .error e →
    ∃ detail, e = .invalid a.field detail ∧ (detail = "is required" ↔ a.Missing)

section Fields
variable {α : Type} {s : Schema α} {object : α} {f : FieldRule α}

theorem decides_of_field {a : Ask} (hf : s.field? a.field = .ok f)
    (hmissing : (f.value object).isAbsent = true ↔ a.Missing) (hnot : a.Missing → ¬ a.Met)
    (hfree : .required ∉ f.rule.constraints)
    (hplain : f.rule.violations (f.value object) =
      Constraint.checkAll f.rule.constraints (f.value object))
    (hmet : ¬ a.Missing →
      (Constraint.checkAll f.rule.constraints (f.value object) = [] ↔ a.Met)) :
    a.Decides (s.check object a.field true) := by
  have hname := (Schema.field?_ok hf).2
  refine ⟨?_, ?_⟩
  · rw [Schema.check_eq_ok_iff hf, FieldRule.accepts, hplain]
    by_cases ha : a.Missing
    · simp [hmissing.2 ha, hnot ha]
    · simp [mt hmissing.1 ha, ← hmet ha]
  · intro e he
    refine ⟨f.complaint object, by rw [Schema.check_eq_error hf he, hname], ?_⟩
    rw [FieldRule.complaint, hplain, ← hmissing]
    cases (f.value object).isAbsent with
    | true => simp
    | false => simpa using Constraint.intercalate_checkAll_ne hfree _

theorem decides_text {field : String} {value : Option String} {Fits : String → Prop}
    (hf : s.field? field = .ok f) (hv : f.value object = .ofText value)
    (hfree : .required ∉ f.rule.constraints) (hempty : ¬ Fits "")
    (hfits : ∀ t, Constraint.checkAll f.rule.constraints (.text t) = [] ↔ Fits t) :
    (Ask.text field value Fits).Decides (s.check object field true) := by
  refine decides_of_field (a := .text field value Fits) hf ?_ ?_ hfree ?_ ?_
  · rw [hv]
    cases value <;> simp [Ask.text, Value.ofText, Value.isAbsent]
  · rintro (rfl | rfl) <;> simp [Ask.text, hempty]
  · rw [hv]
    cases value <;> rfl
  · rw [hv]
    cases value with
    | none => simp [Ask.text]
    | some t => simp [Ask.text, Value.ofText, hfits]

theorem decides_name {β : Type} {field : String} {value : Option β} (name : β → String)
    (hf : s.field? field = .ok f) (hv : f.value object = .ofText (value.map name))
    (hc : f.rule.constraints = []) (hname : ∀ b, name b ≠ "") :
    (Ask.mk field (value = none) (∃ b, value = some b)).Decides (s.check object field true) := by
  refine decides_of_field (a := ⟨field, _, _⟩) hf ?_ ?_ (by simp [hc]) ?_ ?_
  · rw [hv]
    cases value <;> simp [Value.ofText, Value.isAbsent, hname]
  · rintro rfl
    simp
  · rw [hv]
    cases value <;> rfl
  · rw [hc]
    cases value <;> simp [Constraint.checkAll]

theorem decides_positive {field : String} {value : Option Int64} (hf : s.field? field = .ok f)
    (hv : f.value object = .ofInteger value) (hc : f.rule.constraints = [.positive]) :
    (Ask.mk field (value = none) (∃ n, value = some n ∧ 0 < n)).Decides
      (s.check object field true) := by
  refine decides_of_field (a := ⟨field, _, _⟩) hf ?_ ?_ (by simp [hc]) ?_ ?_
  · rw [hv]
    cases value <;> simp [Value.ofInteger, Value.isAbsent]
  · rintro rfl
    simp
  · rw [hv]
    cases value <;> rfl
  · rw [hv, hc]
    cases value <;> simp [Value.ofInteger, Constraint.checkAll, Constraint.check]

end Fields

namespace Request

def check : Request → String → Except CheckError Unit
  | .full s => fun field => Shipment.schema.check s field true
  | .status s => fun field => Shipment.schema.check s field true
  | .transaction t => fun field => Transaction.schema.check t field true

theorem decides_id (s : Shipment) :
    (Ask.text "id" s.id fun t => Text.Legible t ∧ t.length ≤ 64).Decides
      (Shipment.schema.check s "id" true) := by
  refine decides_text Shipment.field?_id rfl (by decide) (by simp [Text.Legible]) fun t => ?_
  simp [Constraint.checkAll, Constraint.check, Text.legible_iff]

section Transactions
variable (t : Transaction)

theorem decides_purpose :
    (Ask.text "purpose" t.purpose fun t => Text.Legible t ∧ t.length ≤ 255).Decides
      (Transaction.schema.check t "purpose" true) := by
  refine decides_text (f := ⟨⟨"purpose", [.notBlank, .maxLength 255], []⟩, _⟩) rfl rfl (by decide)
    (by simp [Text.Legible]) fun t => ?_
  simp [Constraint.checkAll, Constraint.check, Text.legible_iff]

theorem decides_currency :
    (Ask.text "currency" t.currency fun t =>
      t.length = 3 ∧ ∀ c ∈ t.toList, Text.isLowercase c = false).Decides
      (Transaction.schema.check t "currency" true) := by
  refine decides_text (f := ⟨⟨"currency", [.length 3 3, .uppercase], []⟩, _⟩) rfl rfl (by decide)
    (by simp) fun t => ?_
  simp [Constraint.checkAll, Constraint.check]

theorem decides_legible {field : String} {value : Option String}
    {f : FieldRule Transaction} (hf : Transaction.schema.field? field = .ok f)
    (hv : f.value t = .ofText value) (hc : f.rule.constraints = [.notBlank]) :
    (Ask.text field value Text.Legible).Decides (Transaction.schema.check t field true) := by
  refine decides_text hf hv (by simp [hc]) (by simp [Text.Legible]) fun t => ?_
  simp [hc, Constraint.checkAll, Constraint.check, Text.legible_iff]

end Transactions

theorem decides (r : Request) : ∀ a ∈ r.asks, a.Decides (r.check a.field) := by
  cases r with
  | full s =>
    rw [asks, List.forall_mem_singleton]
    exact decides_id s
  | status s =>
    rw [asks, List.forall_mem_cons, List.forall_mem_singleton]
    exact ⟨decides_id s,
      decides_name Status.name Shipment.field?_status rfl rfl fun s => by cases s <;> decide⟩
  | transaction t =>
    simp only [asks, check, List.forall_mem_cons]
    exact ⟨decides_purpose t, decides_name Flow.name rfl rfl rfl fun f => by cases f <;> decide,
      decides_positive rfl rfl rfl, decides_currency t, decides_legible t rfl rfl rfl,
      decides_legible t rfl rfl rfl, by simp⟩

def gate (r : Request) : Except CheckError Unit := r.asks.forM fun a => r.check a.field

theorem gate_eq_ok_iff {r : Request} : r.gate = .ok () ↔ r.Acceptable := by
  rw [gate, forM_eq_ok]
  exact forall₂_congr fun a ha => (r.decides a ha).ok_iff

theorem firstUnmet_of_gate {r : Request} {e : CheckError} (h : r.gate = .error e) :
    ∃ a detail, r.FirstUnmet a ∧ e = .invalid a.field detail ∧
      (detail = "is required" ↔ a.Missing) := by
  obtain ⟨front, a, back, hsplit, hfront, ha⟩ := exists_of_forM_error h
  have hdecides : ∀ b ∈ front ++ a :: back, b.Decides (r.check b.field) :=
    fun b hb => r.decides b (hsplit ▸ hb)
  have hfirst := hdecides a (by simp)
  obtain ⟨detail, he, hdetail⟩ := hfirst.error e ha
  refine ⟨a, detail, ⟨front, back, hsplit, ?_, ?_⟩, he, hdetail⟩
  · intro b hb
    exact (hdecides b (by simp [hb])).ok_iff.1 (hfront b hb)
  · rw [← hfirst.ok_iff, ha]
    simp

theorem key_of_gate_error {r : Request} {e : CheckError} (h : r.gate = .error e)
    (random : String) : r.key random = .error e := by
  cases r with
  | full s =>
    have hmany : Shipment.schema.checkMany s ["id"] true = .error e := h
    rw [key, Shipment.publishKey, hmany]
  | status s =>
    have hmany : Shipment.schema.checkMany s ["id", "status"] true = .error e := h
    rw [key, Shipment.publishKey, hmany]
  | transaction t =>
    have hmany : Transaction.schema.checkMany t Transaction.required true = .error e := h
    rw [key, hmany]

theorem publishKey_of_checkMany {s : Shipment} {id : String} (hid : s.id = some id)
    {fields : List String} (h : Shipment.schema.checkMany s fields true = .ok ()) :
    s.publishKey fields = .ok (messageKey id) := by
  rw [Shipment.publishKey, h, hid]

theorem key_of_gate_ok {r : Request} (h : r.gate = .ok ()) (random : String) :
    ∃ key, r.key random = .ok key := by
  have hmet := gate_eq_ok_iff.1 h
  cases r with
  | full s =>
    obtain ⟨id, hid, -⟩ := hmet _ (.head _)
    exact ⟨_, publishKey_of_checkMany hid h⟩
  | status s =>
    obtain ⟨id, hid, -⟩ := hmet _ (.head _)
    exact ⟨_, publishKey_of_checkMany hid h⟩
  | transaction t =>
    have hmany : Transaction.schema.checkMany t Transaction.required true = .ok () := h
    exact ⟨random, by rw [key, hmany]⟩

end Request

/-! ## The attempts of a call -/

namespace Producer

def behind : Except Stage (Except ProduceError String × Stage) → Stage
  | .error cut => cut
  | .ok (_, s) => s

/-- The attempts made between the two stages, all at one message. -/
structure Made (topic key : String) (payload : Bytes) (s u : Stage) (made : List Attempt) :
    Prop where
  attempts : u.site.broker.attempts = s.site.broker.attempts ++ made
  same : ∀ a ∈ made, a.topic = topic ∧ a.key = key ∧ a.payload = payload

namespace Made
variable {topic key : String} {payload : Bytes} {s u v : Stage} {made : List Attempt}

theorem congr (h : Made topic key payload s u made)
    (hv : v.site.broker.attempts = u.site.broker.attempts) : Made topic key payload s v made :=
  ⟨hv.trans h.attempts, h.same⟩

theorem attempt {u : Nat × Stage} (h : Made topic key payload s u.2 made) :
    ∃ made, made ≠ [] ∧ Made topic key payload s (attempt topic key payload u).2.2 made := by
  have hmade := attempt_attempts topic key payload u
  rw [h.attempts, List.append_assoc] at hmade
  refine ⟨_, ?_, hmade, List.forall_mem_append.2 ⟨h.same, ?_⟩⟩
  · simp
  · simp

end Made

theorem attempts_of_pause {deadline : Option Nat} {wait : Span} {u : Nat × Stage} {cut : Stage}
    (h : pause deadline wait u = .error cut) :
    cut.site.broker.attempts = u.2.site.broker.attempts := by
  unfold pause at h
  split at h
  · cases h
  · simp only at h
    split at h
    · cases h
      exact (Stage.sleepUntil_silent _ _).attempts
    · cases h

theorem publish_attempted (p : Producer) (deadline : Option Nat) (topic key : String)
    (payload : Bytes) (s : Stage) : ∃ made, made ≠ [] ∧
      Made topic key payload s (behind (p.publish deadline topic key payload s)) made := by
  have hagain : ∀ (n : Nat) (u : Nat × Stage) (e : ChannelError) (v : Nat × Stage) (wait : Span)
      (w : Nat × Stage), (∃ made, Made topic key payload s u.2 made) → n + 1 < p.policy.attempts →
      e.isTransient = true → attempt topic key payload u = (.error e, v) →
      pause deadline wait v = .ok w → ∃ made, Made topic key payload s w.2 made := by
    rintro n u e v wait w ⟨made, hu⟩ - - ha hw
    obtain ⟨made, -, hmade⟩ := hu.attempt
    rw [ha] at hmade
    exact ⟨made, hmade.congr (pause_silent hw).2.attempts⟩
  have hstart : ∃ made, Made topic key payload s ((0, s) : Nat × Stage).2 made :=
    ⟨[], by simp, by simp⟩
  obtain ⟨u, n, ⟨before, hu⟩, hend⟩ := p.policy.loop_ends hagain hstart
  obtain ⟨made, hne, hmade⟩ := hu.attempt
  refine ⟨made, hne, ?_⟩
  unfold publish
  rcases hend with ⟨answer, -, hloop⟩ | ⟨wait, cut, -, hcut, hloop⟩
  · rw [hloop]
    cases answer <;> exact hmade.congr (congrArg Broker.attempts (conclude_broker ..))
  · rw [hloop]
    exact hmade.congr (attempts_of_pause hcut)

/-- Of a request that meets all that is asked of it, and of no other, at least one attempt is made
to publish it. Else the first field that falls short is named, as required if and only if it is
missing, and nothing happens. No other fields are looked at. -/
theorem attempted_iff_acceptable (p : Producer) (deadline : Option Nat) (r : Request) (s : Stage) :
    let after := behind (p.request deadline r s)
    (s.site.broker.attempts.length < after.site.broker.attempts.length ↔ r.Acceptable) ∧
    (r.Acceptable → ∃ key made, made ≠ [] ∧ Made (r.topic p.topics) key r.payload s after made) ∧
    (¬ r.Acceptable → ∃ a detail, r.FirstUnmet a ∧
      p.request deadline r s = .ok (.error (.invalid (.invalid a.field detail)), s) ∧
      (detail = "is required" ↔ a.Missing)) ∧
    (∀ x : Shipment, ∀ random, (Request.full x).key random =
      (Request.full { Shipment.blank with id := x.id }).key random) ∧
    (∀ x : Shipment, ∀ random, (Request.status x).key random =
      (Request.status { Shipment.blank with id := x.id, status := x.status }).key random) ∧
    ∀ t : Transaction, ∀ random, (Request.transaction t).key random =
      (Request.transaction { t with id := none, createdAt := none }).key random := by
  intro after
  have hreached : r.Acceptable →
      ∃ key made, made ≠ [] ∧ Made (r.topic p.topics) key r.payload s after made := by
    intro h
    obtain ⟨key, hkey⟩ :=
      Request.key_of_gate_ok (Request.gate_eq_ok_iff.2 h) (p.randomKey s.site.drawn)
    obtain ⟨made, hne, hmade⟩ :=
      p.publish_attempted deadline (r.topic p.topics) key r.payload (r.draw s)
    have hrequest : after =
        behind (p.publish deadline (r.topic p.topics) key r.payload (r.draw s)) := by
      simp only [after, request_eq, hkey]
    refine ⟨key, made, hne, ?_, hmade.same⟩
    rw [hrequest, hmade.attempts, (r.draw_silent s).attempts]
  have hrefused : ¬ r.Acceptable → ∃ a detail, r.FirstUnmet a ∧
      p.request deadline r s = .ok (.error (.invalid (.invalid a.field detail)), s) ∧
      (detail = "is required" ↔ a.Missing) := by
    intro h
    cases hgate : r.gate with
    | ok u => exact absurd (Request.gate_eq_ok_iff.1 hgate) h
    | error e =>
      obtain ⟨a, detail, hfirst, rfl, hdetail⟩ := Request.firstUnmet_of_gate hgate
      refine ⟨a, detail, hfirst, ?_, hdetail⟩
      rw [request_eq, Request.key_of_gate_error hgate]
  refine ⟨⟨?_, ?_⟩, hreached, hrefused, fun _ _ => rfl, fun _ _ => rfl, fun _ _ => rfl⟩
  · intro hmore
    by_contra h
    obtain ⟨a, detail, -, hanswer, -⟩ := hrefused h
    rw [show after = s from congrArg behind hanswer] at hmore
    exact Nat.lt_irrefl _ hmore
  · intro h
    obtain ⟨key, made, hne, hmade⟩ := hreached h
    rw [hmade.attempts, List.length_append]
    exact Nat.lt_add_of_pos_right (List.length_pos_iff.2 hne)

/-- A shipment with nothing but an id is tried. Of a transaction with small letters in its currency
and without a provider, the currency is named, and not as missing. -/
theorem attempted_iff_acceptable_each_way :
    let p : Producer := ⟨.standard, .standard, fun _ => ""⟩
    let s : Stage := ⟨.fresh .empty .absent, []⟩
    let good := Request.full { Shipment.blank with id := some "S-1" }
    let bad := Request.transaction
      ⟨some " ", some "rent", some .outbound, some 1, some "euR", some "landlord", none, none⟩
    (good.Acceptable ∧ ∃ key made, made ≠ [] ∧
      Made "SHIPMENT" key good.payload s (behind (p.request none good s)) made) ∧
    ¬ bad.Acceptable ∧ ∃ a, bad.FirstUnmet a ∧ a.field = "currency" ∧ ¬ a.Missing := by
  intro p s good bad
  have hgood : good.Acceptable := Request.gate_eq_ok_iff.1 (by decide +kernel)
  have hgate : bad.gate = .error (.invalid "currency" "must be uppercase") := by decide +kernel
  have hbad : ¬ bad.Acceptable := by
    rw [← Request.gate_eq_ok_iff, hgate]
    simp
  obtain ⟨a, detail, hfirst, hanswer, hdetail⟩ := (p.attempted_iff_acceptable none bad s).2.2.1 hbad
  rw [request_eq, Request.key_of_gate_error hgate] at hanswer
  simp only [Except.ok.injEq, Prod.mk.injEq, Except.error.injEq, ProduceError.invalid.injEq,
    CheckError.invalid.injEq, and_true] at hanswer
  refine ⟨⟨hgood, (p.attempted_iff_acceptable none good s).2.1 hgood⟩, hbad, a, hfirst,
    hanswer.1.symm, ?_⟩
  rw [← hdetail, ← hanswer.2]
  decide

end Producer
end Consignment
