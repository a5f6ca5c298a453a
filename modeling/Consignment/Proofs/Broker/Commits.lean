import Consignment.Proofs.Broker.Exchange
import Consignment.Proofs.Broker.Offsets

/-! How far commits may go. A commit lags behind the log as long as what is acknowledged is still in
it, and then a new message is served by every subscription opened after it. A delivery that outlives
its log can be acknowledged too, and takes the commit beyond a log that began anew. -/
namespace Consignment

namespace Broker

theorem committedOffset_congr {b c : Broker} (h : c.committed = b.committed) {topic : String} :
    c.committedOffset topic = b.committedOffset topic :=
  congrArg (Register.getD · topic 0) h

structure Marked (b : Broker) : Prop where
  noted : ∀ a ∈ b.acks, 0 ≤ a.2 ∧ a.2 < b.committedOffset a.1
  cause : ∀ topic, b.committedOffset topic = 0 ∨
    ∃ offset, (topic, offset) ∈ b.acks ∧ b.committedOffset topic = offset + 1

namespace Marked
variable {b c : Broker}

theorem empty : Broker.empty.Marked := ⟨by simp [Broker.empty], fun _ => .inl rfl⟩

theorem congr (h : b.Marked) (hacks : c.acks = b.acks) (hcommitted : c.committed = b.committed) :
    c.Marked := by
  refine ⟨?_, ?_⟩
  · intro a ha
    rw [committedOffset_congr hcommitted]
    exact h.noted a (hacks ▸ ha)
  · intro topic
    rw [committedOffset_congr hcommitted, hacks]
    exact h.cause topic

theorem acknowledge (h : b.Marked) (topic : String) {offset : Int} (hoffset : 0 ≤ offset) :
    (b.acknowledge topic offset).Marked := by
  refine ⟨?_, ?_⟩
  · intro a ha
    rw [committedOffset_acknowledge]
    rcases List.mem_append.1 ha with ha | ha
    · have hnoted := h.noted a ha
      split <;> omega
    · obtain rfl : a = (topic, offset) := by simpa using ha
      simp only [if_true]
      omega
  · intro other
    rw [committedOffset_acknowledge]
    have hcause := h.cause other
    by_cases ht : topic = other
    · subst ht
      simp only [if_true, Broker.acknowledge, List.mem_append]
      rcases Int.le_total (b.committedOffset topic) (offset + 1) with hle | hle
      · exact .inr ⟨offset, by simp, by omega⟩
      · rw [Int.max_eq_left hle]
        refine hcause.imp_right ?_
        rintro ⟨o, ho, heq⟩
        exact ⟨o, .inl ho, heq⟩
    · simp only [if_neg ht, Broker.acknowledge, List.mem_append]
      refine hcause.imp_right ?_
      rintro ⟨o, ho, heq⟩
      exact ⟨o, .inl ho, heq⟩

theorem committed_le_iff (h : b.Marked) {n : Int} (hn : 0 ≤ n) (topic : String) :
    b.committedOffset topic ≤ n ↔ ∀ a ∈ b.acks, a.1 = topic → a.2 < n := by
  constructor
  · rintro hle a ha rfl
    have hnoted := h.noted a ha
    omega
  · intro hall
    rcases h.cause topic with hzero | ⟨offset, hmem, heq⟩
    · omega
    · have hlt := hall _ hmem rfl
      omega

end Marked
end Broker

namespace Exchange

inductive Effect (x : Exchange) : Op → Broker → Prop
  | accepts {now : Nat} {topic key : String} {payload : Bytes} {c : Broker}
    (hscript : x.broker.publishFailures = [])
    (hlog : c.log = (x.broker.accept topic key payload).log)
    (hoffsets : c.offsets = (x.broker.accept topic key payload).offsets)
    (hacks : c.acks = x.broker.acks) (hcommitted : c.committed = x.broker.committed) :
    Effect x (.publish now topic key payload) c
  | notes {k : Nat} {d : Delivery} (hd : x.handed[k]? = some d) :
    Effect x (.acknowledge k) (x.broker.acknowledge d.topic d.offset)
  | clears : Effect x .clear x.broker.clear
  | passes {op : Op} {c : Broker} (hlog : c.log = x.broker.log)
    (hoffsets : c.offsets = x.broker.offsets) (hacks : c.acks = x.broker.acks)
    (hcommitted : c.committed = x.broker.committed) : Effect x op c

theorem effect (x : Exchange) (op : Op) : Effect x op (x.after op).broker := by
  cases op with
  | publish now topic key payload =>
    simp only [after, onBroker, Broker.publish]
    split
    · exact .passes rfl rfl rfl rfl
    · next hscript => exact .accepts hscript rfl rfl rfl rfl
  | acknowledge k =>
    simp only [after]
    split
    · exact .passes rfl rfl rfl rfl
    · next hd => exact .notes hd
  | clear => exact .clears
  | subscribe topics =>
    simp only [after, onBroker, Broker.subscribe]
    split <;> exact .passes rfl rfl rfl rfl
  | receive i =>
    simp only [after, Broker.receive]
    split <;> exact .passes rfl rfl rfl rfl
  | _ => exact .passes rfl rfl rfl rfl

/-! ## What is under way -/

/-- All deliveries that wait in a subscription or were handed out. -/
structure Carries (P : Delivery → Prop) (x : Exchange) : Prop where
  waiting : ∀ sub ∈ x.broker.subscriptions, ∀ d, .ok d ∈ sub.queue → P d
  handed : ∀ d ∈ x.handed, P d

namespace Carries
variable {P Q : Delivery → Prop} {x : Exchange}

theorem mono (h : x.Carries P) (hPQ : ∀ d, P d → Q d) : x.Carries Q :=
  ⟨fun sub hsub d hd => hPQ d (h.waiting sub hsub d hd), fun d hd => hPQ d (h.handed d hd)⟩

theorem map (h : x.Carries P) {c : Broker} {f : Subscription → Subscription}
    (hsubs : c.subscriptions = x.broker.subscriptions.map f)
    (hf : ∀ sub d, .ok d ∈ (f sub).queue → .ok d ∈ sub.queue ∨ P d) :
    Carries P ⟨c, x.handed⟩ := by
  refine ⟨?_, h.handed⟩
  intro sub hsub d hd
  rw [hsubs] at hsub
  obtain ⟨old, hold, rfl⟩ := List.mem_map.1 hsub
  exact (hf old d hd).elim (h.waiting old hold d) id

theorem receive (h : x.Carries P) (i : Nat) : (x.after (.receive i)).Carries P := by
  simp only [after, Broker.receive]
  cases hs : x.broker.subscriptions[i]? with
  | none => simpa [Received.item?] using h
  | some sub =>
    have hsub := List.mem_of_getElem? hs
    -- what is received was waiting, and what waits then was waiting before
    have hitem : ∀ d, .ok d ∈ sub.receive.1.item? → .ok d ∈ sub.queue := by
      intro d hd
      unfold Subscription.receive at hd
      split at hd
      · next hq => simp_all [Received.item?]
      · split at hd <;> cases hd
    have hrest : ∀ d, .ok d ∈ sub.receive.2.queue → .ok d ∈ sub.queue := by
      intro d hd
      unfold Subscription.receive at hd
      split at hd
      · next hq =>
        rw [hq]
        exact List.mem_cons_of_mem _ hd
      · exact hd
    refine ⟨?_, ?_⟩
    · intro other hother d hd
      rcases List.mem_or_eq_of_mem_set hother with hmem | rfl
      · exact h.waiting other hmem d hd
      · exact h.waiting sub hsub d (hrest d hd)
    · intro d hd
      rcases List.mem_append.1 hd with hd | hd
      · exact h.handed d hd
      · obtain ⟨item, hi, hok⟩ := Option.bind_eq_some_iff.1 (Option.mem_toList.1 hd)
        cases item with
        | error e => cases hok
        | ok d' =>
          obtain rfl := Option.some.inj hok
          exact h.waiting sub hsub d' (hitem d' hi)

theorem after (h : x.Carries P) (hlog : ∀ d ∈ x.broker.log, P d) (op : Op)
    (hnew : ∀ d ∈ x.accepted op, P d) : (x.after op).Carries P := by
  cases op with
  | publish now topic key payload =>
    cases hscript : x.broker.publishFailures with
    | cons e es =>
      simp only [Exchange.after, onBroker, Broker.publish, hscript]
      exact ⟨h.waiting, h.handed⟩
    | nil =>
      rw [accepted_publish x now topic key payload hscript] at hnew
      refine h.map (f := (·.offerOn topic ⟨topic, some key, payload, 0,
        x.broker.nextOffset topic⟩)) (by simp [Broker.publish, hscript, Broker.accept,
          Broker.nextOffset]) ?_
      intro sub d hd
      unfold Subscription.offerOn Subscription.offer at hd
      split at hd
      · split at hd
        · refine (List.mem_append.1 hd).imp_right fun hd => hnew d ?_
          simpa using hd
        · exact .inl hd
      · exact .inl hd
  | subscribe topics =>
    simp only [Exchange.after, onBroker, Broker.subscribe]
    split
    · exact ⟨h.waiting, h.handed⟩
    · refine ⟨?_, h.handed⟩
      intro sub hsub d hd
      rcases List.mem_append.1 hsub with hsub | hsub
      · exact h.waiting sub hsub d hd
      · obtain rfl := List.mem_singleton.1 hsub
        obtain ⟨d', hd', heq⟩ := List.mem_map.1 hd
        obtain rfl := Except.ok.inj heq
        exact hlog d' (List.mem_filter.1 hd').1
  | receive i => exact h.receive i
  | acknowledge k =>
    simp only [Exchange.after]
    split
    · exact h
    · exact ⟨h.waiting, h.handed⟩
  | transportError error =>
    refine h.map (f := (·.offer (.error error))) rfl ?_
    intro sub d hd
    unfold Subscription.offer at hd
    split at hd
    · exact .inl (by simpa using hd)
    · exact .inl hd
  | close => exact h.map (f := .close) rfl fun sub d hd => .inl hd
  | drop i =>
    refine ⟨?_, h.handed⟩
    intro sub hsub d hd
    obtain ⟨j, hj⟩ := List.mem_iff_getElem?.1 hsub
    simp only [Exchange.after, onBroker, Broker.drop, List.getElem?_modify] at hj
    obtain ⟨old, hold, rfl⟩ := Option.map_eq_some_iff.1 hj
    split at hd
    · cases hd
    · exact h.waiting old (List.mem_of_getElem? hold) d hd
  | _ => exact ⟨h.waiting, h.handed⟩

end Carries

/-! ## Runs -/

structure Sound (x : Exchange) : Prop where
  counted : x.broker.Counted
  marked : x.broker.Marked
  carried : x.Carries (0 ≤ ·.offset)

/-- What was acknowledged is still in the log. -/
def Retained (x : Exchange) : Prop :=
  ∀ a ∈ x.broker.acks, a ∈ x.broker.log.map Delivery.place

/-- No delivery is acknowledged but those the log holds at that time. -/
def Timely : Exchange → List Op → Prop
  | _, [] => True
  | x, op :: ops =>
    (∀ d ∈ x.acknowledged? op, d.place ∈ x.broker.log.map Delivery.place) ∧ Timely (x.after op) ops

namespace Effect
variable {x : Exchange} {op : Op} {c : Broker}

theorem counted (h : Effect x op c) (hx : x.broker.Counted) : c.Counted := by
  cases h with
  | accepts hscript hlog hoffsets _ _ => exact (hx.accept ..).congr hlog hoffsets
  | notes hd => exact hx.congr rfl rfl
  | clears => exact Broker.Counted.empty.congr rfl rfl
  | passes hlog hoffsets _ _ => exact hx.congr hlog hoffsets

theorem marked (h : Effect x op c) (hx : x.broker.Marked) (hhanded : ∀ d ∈ x.handed, 0 ≤ d.offset) :
    c.Marked := by
  cases h with
  | accepts _ _ _ hacks hcommitted => exact hx.congr hacks hcommitted
  | notes hd => exact hx.acknowledge _ (hhanded _ (List.mem_of_getElem? hd))
  | clears => exact Broker.Marked.empty.congr rfl rfl
  | passes _ _ hacks hcommitted => exact hx.congr hacks hcommitted

theorem log_subset (h : Effect x op c) (hop : op ≠ .clear) : x.broker.log ⊆ c.log := by
  cases h with
  | accepts _ hlog _ _ _ =>
    rw [hlog]
    exact List.subset_append_left _ _
  | notes hd => exact List.Subset.refl _
  | clears => exact absurd rfl hop
  | passes hlog _ _ _ => exact hlog ▸ List.Subset.refl _

theorem committedOffset_le (h : Effect x op c) (hop : op ≠ .clear) (topic : String) :
    x.broker.committedOffset topic ≤ c.committedOffset topic := by
  cases h with
  | accepts _ _ _ _ hcommitted => exact Int.le_of_eq (Broker.committedOffset_congr hcommitted).symm
  | notes hd =>
    rw [Broker.committedOffset_acknowledge]
    split
    · exact Int.le_max_left ..
    · exact Int.le_refl _
  | clears => exact absurd rfl hop
  | passes _ _ _ hcommitted => exact Int.le_of_eq (Broker.committedOffset_congr hcommitted).symm

theorem retained (h : Effect x op c) (hx : x.Retained)
    (htimely : ∀ d ∈ x.acknowledged? op, d.place ∈ x.broker.log.map Delivery.place) :
    ∀ a ∈ c.acks, a ∈ c.log.map Delivery.place := by
  intro a ha
  cases h with
  | accepts _ hlog _ hacks _ =>
    rw [hlog]
    exact List.map_subset _ (List.subset_append_left _ _) (hx a (hacks ▸ ha))
  | notes hd =>
    rcases List.mem_append.1 ha with ha | ha
    · exact hx a ha
    · obtain rfl := List.mem_singleton.1 ha
      exact htimely _ hd
  | clears => cases ha
  | passes hlog _ hacks _ =>
    rw [hlog]
    exact hx a (hacks ▸ ha)

end Effect

namespace Sound
variable {x : Exchange}

theorem empty : Exchange.empty.Sound :=
  ⟨.empty, .empty, by simp [Exchange.empty, Broker.empty], by simp [Exchange.empty]⟩

theorem after (h : x.Sound) (op : Op) : (x.after op).Sound := by
  have hnonneg : ∀ {b : Broker}, b.Counted → ∀ d ∈ b.log, 0 ≤ d.offset := by
    intro b hb d hd
    exact (hb.numbered.mem_place_iff.1 (List.mem_map_of_mem (f := Delivery.place) hd)).1
  have hcounted := (effect x op).counted h.counted
  refine ⟨hcounted, (effect x op).marked h.marked h.carried.handed, ?_⟩
  exact h.carried.after (hnonneg h.counted) op
    fun d hd => hnonneg hcounted d (List.mem_of_mem_drop hd)

theorem afterAll (h : x.Sound) (ops : List Op) : (x.afterAll ops).Sound := by
  induction ops generalizing x with
  | nil => exact h
  | cons op ops ih => exact ih (h.after op)

theorem committed_le_next_iff (h : x.Sound) (topic : String) :
    x.broker.committedOffset topic ≤ x.broker.nextOffset topic ↔
      ∀ a ∈ x.broker.acks, a.1 = topic → a ∈ x.broker.log.map Delivery.place := by
  have hnext : 0 ≤ x.broker.nextOffset topic := by
    rw [h.counted.next]
    omega
  rw [h.marked.committed_le_iff hnext]
  constructor
  · rintro hall ⟨_, offset⟩ ha rfl
    exact (h.counted.lt_next_iff (h.marked.noted _ ha).1).1 (hall _ ha rfl)
  · rintro hall ⟨_, offset⟩ ha rfl
    exact (h.counted.lt_next_iff (h.marked.noted _ ha).1).2 (hall _ ha rfl)

end Sound

theorem afterAll_of_after {R : Broker → Broker → Prop} (hrefl : ∀ b, R b b)
    (htrans : ∀ {a b c}, R a b → R b c → R a c)
    (hstep : ∀ (x : Exchange) {op : Op}, op ≠ .clear → R x.broker (x.after op).broker)
    (x : Exchange) {ops : List Op} (hops : .clear ∉ ops) : R x.broker (x.afterAll ops).broker := by
  induction ops generalizing x with
  | nil => exact hrefl _
  | cons op ops ih =>
    obtain ⟨hop, hops⟩ := List.ne_and_not_mem_of_not_mem_cons hops
    exact htrans (hstep x hop.symm) (ih (x.after op) hops)

theorem log_subset_afterAll (x : Exchange) {ops : List Op} (hops : .clear ∉ ops) :
    x.broker.log ⊆ (x.afterAll ops).broker.log :=
  afterAll_of_after (R := fun b c => b.log ⊆ c.log) (fun _ => List.Subset.refl _) List.Subset.trans
    (fun x _ hop => (effect x _).log_subset hop) x hops

theorem committedOffset_le_afterAll (x : Exchange) {ops : List Op} (hops : .clear ∉ ops)
    (topic : String) :
    x.broker.committedOffset topic ≤ (x.afterAll ops).broker.committedOffset topic :=
  afterAll_of_after (R := fun b c => b.committedOffset topic ≤ c.committedOffset topic)
    (fun _ => Int.le_refl _) Int.le_trans
    (fun x _ hop => (effect x _).committedOffset_le hop topic) x hops

theorem Retained.afterAll {x : Exchange} (h : x.Retained) {ops : List Op} (hops : x.Timely ops) :
    (x.afterAll ops).Retained := by
  induction ops generalizing x with
  | nil => exact h
  | cons op ops ih => exact ih ((effect x op).retained h hops.1) hops.2

theorem timely_of_carries {x : Exchange} (h : x.Carries (·.place ∈ x.broker.log.map Delivery.place))
    {ops : List Op} (hops : .clear ∉ ops) : x.Timely ops := by
  induction ops generalizing x with
  | nil => trivial
  | cons op ops ih =>
    obtain ⟨hop, hops⟩ := List.ne_and_not_mem_of_not_mem_cons hops
    refine ⟨?_, ih ?_ hops⟩
    · intro d hd
      cases op with
      | acknowledge k => exact h.handed d (List.mem_of_getElem? hd)
      | _ => cases hd
    · have hsub := List.map_subset Delivery.place ((effect x op).log_subset hop.symm)
      exact (h.mono fun d hd => hsub hd).after
        (fun d hd => hsub (List.mem_map_of_mem hd)) op
        fun d hd => List.mem_map_of_mem (List.mem_of_mem_drop hd)

/-- Commits stay behind the log as long as no delivery outlives the log it is from, and an accepted
message is served to later subscriptions unless its offset or a later one was acknowledged. -/
theorem commits_within_log (ops : List Op) :
    let x := empty.afterAll ops
    (∀ topic, x.broker.committedOffset topic ≤ x.broker.nextOffset topic ↔
      ∀ a ∈ x.broker.acks, a.1 = topic → a ∈ x.broker.log.map Delivery.place) ∧
    (empty.Timely ops → ∀ topic, x.broker.committedOffset topic ≤ x.broker.nextOffset topic) ∧
    (.clear ∉ ops → empty.Timely ops) ∧
    ∀ now topic key payload topics later, x.broker.publishFailures = [] → topic ∈ topics →
      .clear ∉ later →
      let d : Delivery := ⟨topic, some key, payload, 0, x.broker.nextOffset topic⟩
      let y := (x.after (.publish now topic key payload)).afterAll later
      (d ∈ y.broker.backlog topics ↔ ∀ a ∈ y.broker.acks, a.1 = topic → a.2 < d.offset) := by
  intro x
  have hx : x.Sound := Sound.empty.afterAll ops
  refine ⟨hx.committed_le_next_iff, ?_, ?_, ?_⟩
  · intro htimely topic
    have hretained : x.Retained :=
      Retained.afterAll (by simp [Retained, empty, Broker.empty]) htimely
    exact (hx.committed_le_next_iff topic).2 fun a ha _ => hretained a ha
  · exact timely_of_carries ⟨by simp [empty, Broker.empty], by simp [empty]⟩
  · intro now topic key payload topics later hscript htopic hlater d y
    have hy : y.Sound := (hx.after _).afterAll later
    have hlog : d ∈ y.broker.log := by
      refine log_subset_afterAll _ hlater ?_
      simp [after, onBroker, Broker.publish, hscript, Broker.accept, Broker.nextOffset, d]
    have hd : 0 ≤ d.offset := by
      simp only [d, hx.counted.next]
      omega
    rw [← hy.marked.committed_le_iff hd]
    simp [Broker.backlog, hlog, d, htopic]

/-- A delivery that is acknowledged after its log was forgotten commits an offset that was not given
out again, and the message that gets it is withheld. -/
theorem late_acknowledgement_runs_ahead :
    let x := empty.afterAll
      [.publish 0 "A" "K" [1], .subscribe ["A"], .receive 0, .clear, .acknowledge 0]
    let y := x.afterAll [.publish 0 "A" "K" [2], .subscribe ["A"]]
    ¬ x.broker.committedOffset "A" ≤ x.broker.nextOffset "A" ∧
      y.broker.log = [⟨"A", some "K", [2], 0, 0⟩] ∧
      y.broker.subscriptions[1]? = some ⟨["A"], [], true⟩ := by
  refine ⟨by decide +kernel, rfl, rfl⟩

end Exchange
end Consignment
