import Mathlib.Data.List.DropRight
import Consignment.Proofs.Broker.Commits

/-! What a broker keeps record of: every call since it was last cleared, what it accepted of them,
and the errors it has yet to answer with. -/
namespace Consignment

def Delivery.message (d : Delivery) : String × Option String × Bytes := (d.topic, d.key, d.payload)

namespace Attempt

def message (a : Attempt) : String × Option String × Bytes := (a.topic, some a.key, a.payload)

def op (a : Attempt) : Exchange.Op := .publish a.time a.topic a.key a.payload

def accepted (a : Attempt) : Bool := a.error.isNone

end Attempt

namespace Broker
variable (now : Nat) (topic key : String) (payload : Bytes) (b : Broker)

theorem answer_publish : (b.publish now topic key payload).1 =
    b.publishFailures.head?.elim (.ok ()) .error := by
  unfold publish
  split <;> simp [*]

theorem attempts_publish : (b.publish now topic key payload).2.attempts =
    b.attempts ++ [⟨topic, key, payload, now, b.publishFailures.head?⟩] := by
  unfold publish
  split <;> simp [accept, *]

theorem publishFailures_publish : (b.publish now topic key payload).2.publishFailures =
    b.publishFailures.tail := by
  unfold publish
  split <;> simp [accept, *]

theorem log_publish : (b.publish now topic key payload).2.log.map Delivery.message =
    b.log.map Delivery.message ++
      if b.publishFailures = [] then [(topic, some key, payload)] else [] := by
  unfold publish
  split <;> simp [accept, Delivery.message, *]

end Broker

namespace Exchange

namespace Op

def failNext (times : Nat) (error : ChannelError) : Op := .failPublish (List.replicate times error)

def isPublish : Op → Bool
  | .publish .. => true
  | _ => false

/-- The errors that later calls are to be answered with. -/
def scripted : Op → List ChannelError
  | .failPublish errors => errors
  | _ => []

/-- What was done since the last clear. -/
def recent (ops : List Op) : List Op := ops.rtakeWhile (· ≠ .clear)

end Op

/-- What the record says of the operations since the last clear. -/
structure Recorded (recent : List Op) (b : Broker) : Prop where
  calls : b.attempts.map Attempt.op = recent.filter Op.isPublish
  log : b.log.map Delivery.message = (b.attempts.filter Attempt.accepted).map Attempt.message
  script : b.attempts.filterMap (·.error) ++ b.publishFailures = recent.flatMap Op.scripted

namespace Recorded
variable {recent : List Op} {b c : Broker} {x : Exchange}

theorem clear (b : Broker) : Recorded [] b.clear := ⟨rfl, rfl, rfl⟩

theorem publish (h : Recorded recent b) (now : Nat) (topic key : String) (payload : Bytes) :
    Recorded (recent ++ [.publish now topic key payload]) (b.publish now topic key payload).2 := by
  refine ⟨?_, ?_, ?_⟩
  · rw [b.attempts_publish, List.map_append, h.calls, List.filter_append]
    rfl
  · rw [b.attempts_publish, b.log_publish, h.log, List.filter_append, List.map_append]
    cases b.publishFailures <;> rfl
  -- the first error of the script is recorded with this call, and gone from what is left of it
  · rw [b.attempts_publish, b.publishFailures_publish, List.filterMap_append, List.flatMap_append,
      ← h.script]
    cases b.publishFailures <;> simp [Op.scripted]

theorem failPublish (h : Recorded recent b) (errors : List ChannelError) :
    Recorded (recent ++ [.failPublish errors]) (b.failPublish errors) := by
  refine ⟨?_, h.log, ?_⟩
  · rw [List.filter_append, ← h.calls]
    exact (List.append_nil _).symm
  · rw [List.flatMap_append, ← h.script, List.append_assoc]
    simp [Op.scripted, Broker.failPublish]

theorem pass (h : Recorded recent b) {op : Op} (hop : op.isPublish = false)
    (hscripted : op.scripted = []) (hattempts : c.attempts = b.attempts) (hlog : c.log = b.log)
    (hfailures : c.publishFailures = b.publishFailures) : Recorded (recent ++ [op]) c := by
  refine ⟨?_, ?_, ?_⟩
  · simp [hattempts, h.calls, hop]
  · rw [hattempts, hlog, h.log]
  · simp [hattempts, hfailures, h.script, hscripted]

theorem after (h : Recorded recent x.broker) {op : Op} (hop : op ≠ .clear) :
    Recorded (recent ++ [op]) (x.after op).broker := by
  cases op with
  | publish now topic key payload => exact h.publish now topic key payload
  | failPublish errors => exact h.failPublish errors
  | clear => exact absurd rfl hop
  | subscribe topics =>
    simp only [Exchange.after, onBroker, Broker.subscribe]
    split <;> exact h.pass rfl rfl rfl rfl rfl
  | receive i =>
    simp only [Exchange.after, Broker.receive]
    split <;> exact h.pass rfl rfl rfl rfl rfl
  | acknowledge k =>
    simp only [Exchange.after]
    split <;> exact h.pass rfl rfl rfl rfl rfl
  | _ => exact h.pass rfl rfl rfl rfl rfl

theorem afterAll (ops : List Op) :
    Recorded (Op.recent ops) (Exchange.empty.afterAll ops).broker := by
  induction ops using List.reverseRecOn with
  | nil => exact clear .empty
  | append_singleton ops op ih =>
    rw [afterAll_append, Op.recent]
    by_cases hop : op = .clear
    · subst hop
      rw [List.rtakeWhile_concat_neg _ _ _ (by simp)]
      exact clear _
    · rw [List.rtakeWhile_concat_pos _ _ _ (by simpa using hop)]
      exact ih.after hop

theorem next_failure (h : Recorded recent b) : b.publishFailures.head? =
    (recent.flatMap Op.scripted)[(b.attempts.filterMap (·.error)).length]? := by
  rw [← h.script, List.getElem?_append_right (Nat.le_refl _), Nat.sub_self, List.head?_eq_getElem?]

end Recorded

/-- Whatever was done to a broker, its log holds the calls since the last clear that were not
answered with an error, each topic numbered from 0 without a gap. Errors are answered in the order
in which they were scripted, one to a call. Acknowledging never takes a commit back. -/
theorem record_complete (ops : List Op) :
    let x := empty.afterAll ops
    let b := x.broker
    let script := (Op.recent ops).flatMap Op.scripted
    let answered := b.attempts.filterMap (·.error)
    b.attempts.map Attempt.op = (Op.recent ops).filter Op.isPublish ∧
    b.log.map Delivery.message = (b.attempts.filter Attempt.accepted).map Attempt.message ∧
    (∀ topic, ∃ n : Nat, b.nextOffset topic = n ∧
      (b.publishedTo topic).map (·.offset) = (List.range n).map Int.ofNat) ∧
    answered ++ b.publishFailures = script ∧
    (∀ now topic key payload, let e := script[answered.length]?
      (b.publish now topic key payload).1 = e.elim (.ok ()) .error ∧
      (b.publish now topic key payload).2.attempts =
        b.attempts ++ [⟨topic, key, payload, now, e⟩]) ∧
    ∀ later topic, .clear ∉ later →
      b.committedOffset topic ≤ (x.afterAll later).broker.committedOffset topic := by
  intro x b script answered
  have h : Recorded (Op.recent ops) b := .afterAll ops
  have hcounted : b.Counted := (Sound.empty.afterAll ops).counted
  refine ⟨h.calls, h.log, ?_, h.script, ?_, ?_⟩
  · intro topic
    exact ⟨_, hcounted.next topic, hcounted.numbered.offsets_of_topic topic⟩
  · intro now topic key payload
    rw [b.answer_publish, b.attempts_publish, h.next_failure]
    exact ⟨rfl, rfl⟩
  · intro later topic hlater
    exact committedOffset_le_afterAll x hlater topic

/-- Two scripts for three calls, of which a fourth is accepted, on a topic with a log before. Both
deliveries of the fifth are acknowledged, the later one first. -/
theorem record_complete_after_a_clear :
    let down := ChannelError.transport "down"
    let late := ChannelError.timeout "A"
    let ops := [.failNext 2 late, .publish 0 "A" "K" [1], .clear, .subscribe ["A"],
      .failNext 2 down, .failPublish [late], .publish 1 "A" "K" [2], .publish 2 "B" "K" [3],
      .close, .publish 3 "A" "K" [4], .publish 4 "A" "K" [5], .subscribe ["A"],
      .publish 5 "A" "K" [6]]
    let later := [.receive 1, .receive 1, .acknowledge 1, .acknowledge 0, .acknowledge 0]
    let x := empty.afterAll ops
    .clear ∉ later ∧
      x.broker.attempts.map (·.error) = [some down, some down, some late, none, none] ∧
      x.broker.log.map Delivery.place = [("A", 0), ("A", 1)] ∧
      (x.afterAll later).broker.acks = [("A", 1), ("A", 0), ("A", 0)] ∧
      x.broker.committedOffset "A" ≤ (x.afterAll later).broker.committedOffset "A" := by
  intro down late ops later x
  have hlater : .clear ∉ later := by decide +kernel
  exact ⟨hlater, by decide +kernel, by decide +kernel, by decide +kernel,
    (record_complete ops).2.2.2.2.2 later "A" hlater⟩

end Exchange
end Consignment
