import Consignment.Rehearsal
import Consignment.Proofs.Producer
import Consignment.Proofs.Stage.Handle
import Consignment.Proofs.Worker.OnStage

/-! Calls to the producer that are given up at a deadline, which is the first tick of the clock not
before its time. Up to then they do what they would have done without one, at the same times; what
they would have done later never happens, and nothing but their attempts is left of them. -/
namespace Consignment

/-! ## Time -/

theorem Worker.advance_clock (signalFirst : Bool) (w : Worker) (site : Site) :
    (w.advance signalFirst site).2.clock = site.clock := by
  fun_induction Worker.advance signalFirst w site with
  | case1 => rfl
  | case2 w site w' site' hstep ih => exact ih.trans (Worker.keeps_of_step? hstep).1

namespace Stage

theorem turns_clock (ws : List Worker) (site : Site) : (turns ws site).2.clock = site.clock := by
  induction ws generalizing site with
  | nil => rfl
  | cons w ws ih => exact (ih _).trans (w.advance_clock true site)

theorem sleepUntil_clock (t : Nat) (s : Stage) :
    (s.sleepUntil t).site.clock = max s.site.clock t := by
  have hturn : ∀ s : Stage, s.turn.site.clock = s.site.clock := fun s => turns_clock _ _
  fun_induction sleepUntil t s with
  | case1 s h => exact (Nat.max_eq_left h).symm
  | case2 s => exact congrArg (max · t) (hturn s)
  | case3 s h due hdue hless ih =>
    rw [ih]
    simp only [onSite, Site.await, hturn]
    omega
  | case4 s => exact congrArg (max · t) (hturn s)

theorem after_attempts (topics : Topics) (s : Stage) {e : Event} (he : e.isPublish = false) :
    (s.after topics e).site.broker.attempts = s.site.broker.attempts := by
  by_cases hscript : ∃ errors, e = .failPublish errors
  · obtain ⟨errors, rfl⟩ := hscript
    rfl
  · exact (s.after_silent topics he fun errors heq => hscript ⟨errors, heq⟩).attempts

theorem afterAll_attempts (topics : Topics) (s : Stage) {es : List Event}
    (hes : ∀ e ∈ es, e.isPublish = false) :
    (s.afterAll topics es).site.broker.attempts = s.site.broker.attempts := by
  induction es generalizing s with
  | nil => rfl
  | cons e es ih =>
    obtain ⟨he, hes⟩ := List.forall_mem_cons.1 hes
    exact (ih (s.after topics e) hes).trans (after_attempts topics s he)

end Stage

/-! ## Loops that are cut -/

namespace Policy
variable {σ κ ε α : Type} {p : Policy} {retryable : ε → Bool} {attempt : σ → Except ε α × σ}
  {s : σ}

theorem loop_of_cut {failed : Nat} {pause : Span → σ → Except κ σ} {wait : Span} {cut : κ}
    (h : p.next retryable failed (attempt s).1 = .again wait)
    (hpause : pause wait (attempt s).2 = .error cut) :
    p.loop retryable attempt pause failed s = .error cut := by
  rw [loop]
  rcases ha : attempt s with ⟨result, u⟩
  rw [ha] at h hpause
  simp only
  split
  · next hnext =>
    rw [h] at hnext
    cases hnext
  · next hnext =>
    rw [h] at hnext
    cases hnext
    rw [hpause]

theorem loop_eq_unrolled_of_pause {pause : Span → σ → σ} {pause' : Span → σ → Except κ σ} (n : Nat)
    (hagain : ∀ i < n, p.next retryable i (attempt (p.unrolled attempt pause s i)).1 =
      .again (p.delay i))
    (hpause : ∀ i < n, pause' (p.delay i) (attempt (p.unrolled attempt pause s i)).2 =
      .ok (p.unrolled attempt pause s (i + 1))) :
    p.loop retryable attempt pause' 0 s =
      p.loop retryable attempt pause' n (p.unrolled attempt pause s n) := by
  induction n with
  | zero => rfl
  | succ n ih =>
    rw [ih (fun i hi => hagain i (Nat.lt_succ_of_lt hi))
      fun i hi => hpause i (Nat.lt_succ_of_lt hi)]
    exact loop_of_again (hagain n (Nat.lt_succ_self n)) (hpause n (Nat.lt_succ_self n))

theorem slept_mono (p : Policy) {m n : Nat} (h : m ≤ n) : p.slept m ≤ p.slept n := by
  induction h with
  | refl => exact Nat.le_refl _
  | step _ ih => exact ih.trans (Nat.le_add_right ..)

theorem exists_slept_le_lt (p : Policy) {n d : Nat} (h : d < p.slept n) :
    ∃ k < n, p.slept k ≤ d ∧ d < p.slept (k + 1) := by
  induction n with
  | zero => cases h
  | succ n ih =>
    by_cases hbefore : d < p.slept n
    · obtain ⟨k, hk, hcrossed⟩ := ih hbefore
      exact ⟨k, Nat.lt_succ_of_lt hk, hcrossed⟩
    · exact ⟨n, Nat.lt_succ_self n, Nat.le_of_not_lt hbefore, h⟩

end Policy

namespace Producer

/-! ## The attempts of a call -/

def rest (wait : Span) (u : Nat × Stage) : Nat × Stage :=
  (u.1, u.2.sleepUntil (u.2.site.clock + wait.ticks))

section Pause
variable {wait : Span} {u : Nat × Stage}

theorem pause_of_le {deadline : Option Nat}
    (h : ∀ t ∈ deadline, u.2.site.clock + wait.ticks ≤ t) :
    pause deadline wait u = .ok (rest wait u) := by
  cases deadline with
  | none => rfl
  | some t => simp only [pause, if_neg (Nat.not_lt_of_le (h t rfl)), rest]

theorem pause_of_lt {t : Nat} (h : t < u.2.site.clock + wait.ticks) :
    pause (some t) wait u = .error (u.2.sleepUntil t) := by
  simp only [pause, if_pos h]

end Pause

def refusal? : Except ChannelError Unit → Option ChannelError
  | .ok () => none
  | .error e => some e

theorem attempt_attempts (topic key : String) (payload : Bytes) (u : Nat × Stage) :
    (attempt topic key payload u).2.2.site.broker.attempts = u.2.site.broker.attempts ++
      [⟨topic, key, payload, u.2.site.clock, refusal? (attempt topic key payload u).1⟩] := by
  simp only [attempt, Broker.publish]
  cases u.2.site.broker.publishFailures with
  | nil => rfl
  | cons e es => rfl

/-- No message was accepted between the two stages and no call counted; nor was anything else, where
nobody is at work. -/
structure Unconcluded (s u : Stage) : Prop where
  log : u.site.broker.log = s.site.broker.log
  offsets : u.site.broker.offsets = s.site.broker.offsets
  tally : ∀ c : Counter, c.isPublishing = true → u.site.tally.count c = s.site.tally.count c
  alone : s.workers = [] → u.workers = [] ∧ u.site.tally = s.site.tally

namespace Unconcluded
variable {s u : Stage}

theorem refl (s : Stage) : Unconcluded s s := ⟨rfl, rfl, fun _ _ => rfl, fun h => ⟨h, rfl⟩⟩

theorem sleepUntil (h : Unconcluded s u) (t : Nat) : Unconcluded s (u.sleepUntil t) where
  log := (u.sleepUntil_silent t).log.trans h.log
  offsets := (u.sleepUntil_silent t).offsets.trans h.offsets
  tally c hc := ((u.sleepUntil_silent t).tally c hc).trans (h.tally c hc)
  alone hs := by
    obtain ⟨hworkers, htally⟩ := h.alone hs
    rw [Stage.sleepUntil_alone hworkers]
    exact ⟨hworkers, htally⟩

theorem refused {topic key : String} {payload : Bytes} {u : Nat × Stage} {e : ChannelError}
    (h : Unconcluded s u.2) (he : (attempt topic key payload u).1 = .error e) :
    Unconcluded s (attempt topic key payload u).2.2 := by
  simp only [attempt, Broker.publish] at he ⊢
  cases hscript : u.2.site.broker.publishFailures with
  | nil =>
    simp only [hscript] at he
    cases he
  | cons f fs => exact ⟨h.log, h.offsets, h.tally, h.alone⟩

end Unconcluded

section Call
variable (p : Policy) (topic key : String) (payload : Bytes) (s : Stage)

/-- The call at its attempt number `n`, counted from 0, if there is one and no deadline before
it. -/
def reached (n : Nat) : Nat × Stage := p.unrolled (attempt topic key payload) rest (0, s) n

def answered (n : Nat) : Except ChannelError Unit :=
  (attempt topic key payload (reached p topic key payload s n)).1

def attempted (n : Nat) : Nat × Stage :=
  (attempt topic key payload (reached p topic key payload s n)).2

def record (n : Nat) : Attempt :=
  ⟨topic, key, payload, s.site.clock + p.slept n, refusal? (answered p topic key payload s n)⟩

def records (n : Nat) : List Attempt := (List.range n).map (record p topic key payload s)

theorem reached_succ (n : Nat) : reached p topic key payload s (n + 1) =
    rest (p.delay n) (attempted p topic key payload s n) := rfl

theorem reached_clock (n : Nat) :
    (reached p topic key payload s n).2.site.clock = s.site.clock + p.slept n := by
  induction n with
  | zero => rfl
  | succ n ih =>
    have hattempted : (attempted p topic key payload s n).2.site.clock =
        s.site.clock + p.slept n := ih
    rw [reached_succ, rest, Stage.sleepUntil_clock, hattempted,
      Nat.max_eq_right (Nat.le_add_right ..), Nat.add_assoc]
    rfl

theorem attempted_clock (n : Nat) :
    (attempted p topic key payload s n).2.site.clock = s.site.clock + p.slept n :=
  reached_clock p topic key payload s n

theorem attempted_attempts (n : Nat) : (attempted p topic key payload s n).2.site.broker.attempts =
    s.site.broker.attempts ++ records p topic key payload s (n + 1) := by
  have hone : ∀ n, (attempted p topic key payload s n).2.site.broker.attempts =
      (reached p topic key payload s n).2.site.broker.attempts ++
        [record p topic key payload s n] := by
    intro n
    rw [record, ← reached_clock p topic key payload s n]
    exact attempt_attempts topic key payload _
  have hnext : ∀ n, records p topic key payload s (n + 1) =
      records p topic key payload s n ++ [record p topic key payload s n] := by
    intro n
    rw [records, List.range_succ, List.map_append]
    rfl
  rw [hone, hnext, ← List.append_assoc]
  congr 1
  induction n with
  | zero => simp [reached, Policy.unrolled, records]
  | succ n ih =>
    rw [hnext, ← List.append_assoc, ← ih, ← hone]
    exact (Stage.sleepUntil_silent _ _).attempts

theorem reached_script (n : Nat) : (reached p topic key payload s n).2.site.broker.publishFailures =
    s.site.broker.publishFailures.drop n := by
  induction n with
  | zero => rfl
  | succ n ih =>
    have hattempt : (attempted p topic key payload s n).2.site.broker.publishFailures =
        (reached p topic key payload s n).2.site.broker.publishFailures.tail := by
      simp only [attempted, attempt, Broker.publish]
      cases (reached p topic key payload s n).2.site.broker.publishFailures <;> rfl
    rw [reached_succ, rest, (Stage.sleepUntil_silent _ _).script, hattempt, ih, List.tail_drop]

theorem answered_eq (n : Nat) : answered p topic key payload s n =
    match s.site.broker.publishFailures[n]? with
    | none => .ok ()
    | some e => .error e := by
  rw [← List.head?_drop, ← reached_script]
  simp only [answered, attempt, Broker.publish]
  cases (reached p topic key payload s n).2.site.broker.publishFailures <;> rfl

theorem unconcluded_of_reached {n : Nat} (h : Unconcluded s (reached p topic key payload s n).2)
    (he : ∃ e, answered p topic key payload s n = .error e) :
    Unconcluded s (attempted p topic key payload s n).2 := by
  obtain ⟨e, he⟩ := he
  exact h.refused he

theorem unconcluded_attempted {n : Nat}
    (h : ∀ i ≤ n, ∃ e, answered p topic key payload s i = .error e) :
    Unconcluded s (attempted p topic key payload s n).2 := by
  induction n with
  | zero => exact unconcluded_of_reached p topic key payload s (.refl s) (h 0 (Nat.le_refl 0))
  | succ n ih =>
    have hbefore := ih fun i hi => h i (Nat.le_succ_of_le hi)
    apply unconcluded_of_reached p topic key payload s _ (h (n + 1) (Nat.le_refl _))
    rw [reached_succ]
    exact hbefore.sleepUntil _

variable {p topic key payload s}

theorem filter_records_of_le {n d : Nat} (h : p.slept n ≤ d) :
    (records p topic key payload s (n + 1)).filter (·.time ≤ s.site.clock + d) =
      records p topic key payload s (n + 1) := by
  refine List.filter_eq_self.2 fun a ha => decide_eq_true ?_
  obtain ⟨i, hi, rfl⟩ := List.mem_map.1 ha
  have hslept := p.slept_mono (Nat.le_of_lt_succ (List.mem_range.1 hi))
  exact Nat.add_le_add_left (hslept.trans h) _

theorem filter_records {n k d : Nat} (hk : k < n) (hle : p.slept k ≤ d)
    (hlt : d < p.slept (k + 1)) :
    (records p topic key payload s (n + 1)).filter (·.time ≤ s.site.clock + d) =
      records p topic key payload s (k + 1) := by
  obtain ⟨more, rfl⟩ := Nat.exists_eq_add_of_le hk.le
  have hnone : (((List.range more).map (k + 1 + ·)).map (record p topic key payload s)).filter
      (·.time ≤ s.site.clock + d) = [] := by
    refine List.filter_eq_nil_iff.2 fun a ha => ?_
    obtain ⟨i, hi, rfl⟩ := List.mem_map.1 ha
    obtain ⟨j, -, rfl⟩ := List.mem_map.1 hi
    have hlater := hlt.trans_le (p.slept_mono (Nat.le_add_right (k + 1) j))
    exact fun hearly => Nat.not_le_of_lt (Nat.add_lt_add_left hlater _) (of_decide_eq_true hearly)
  have hsplit : records p topic key payload s (k + more + 1) =
      records p topic key payload s (k + 1) ++
      ((List.range more).map (k + 1 + ·)).map (record p topic key payload s) := by
    rw [records, Nat.add_right_comm, List.range_add, List.map_append, records]
  rw [hsplit, List.filter_append, filter_records_of_le hle, hnone, List.append_nil]

end Call

/-! ## The whole call -/

theorem produce_eq (p : Producer) {x : Shipment} {key : String}
    (hkey : x.publishKey ["id"] = .ok key) (deadline : Option Nat) (s : Stage) :
    p.produce deadline x s = p.publish deadline p.topics.shipment key x.write s := by
  simp only [produce, hkey]

section Whole
variable {p : Producer} {topic key : String} {payload : Bytes} {s : Stage} {n : Nat}

theorem loop_reached {deadline : Option Nat}
    (hagain : ∀ i < n, p.policy.next ChannelError.isTransient i
      (answered p.policy topic key payload s i) = .again (p.policy.delay i))
    (htime : ∀ t ∈ deadline, s.site.clock + p.policy.slept n ≤ t) :
    p.policy.loop ChannelError.isTransient (attempt topic key payload) (pause deadline) 0 (0, s) =
      p.policy.loop ChannelError.isTransient (attempt topic key payload) (pause deadline) n
        (reached p.policy topic key payload s n) := by
  refine Policy.loop_eq_unrolled_of_pause n hagain fun i hi => pause_of_le fun t ht => ?_
  have hwake : (attempted p.policy topic key payload s i).2.site.clock + (p.policy.delay i).ticks =
      s.site.clock + p.policy.slept (i + 1) := by
    rw [attempted_clock, Nat.add_assoc]
    rfl
  have hslept := p.policy.slept_mono (Nat.succ_le_of_lt hi)
  exact hwake.trans_le ((Nat.add_le_add_left hslept _).trans (htime t ht))

theorem publish_of_le {deadline : Option Nat} {answer : Except (GaveUp ChannelError) Unit}
    (hagain : ∀ i < n, p.policy.next ChannelError.isTransient i
      (answered p.policy topic key payload s i) = .again (p.policy.delay i))
    (hstop : p.policy.next ChannelError.isTransient n (answered p.policy topic key payload s n) =
      .stop answer)
    (htime : ∀ t ∈ deadline, s.site.clock + p.policy.slept n ≤ t) :
    p.publish deadline topic key payload s =
      .ok ((answer.mapError (describe topic key)).map fun _ => key,
        conclude topic (attempted p.policy topic key payload s n).1 answer.isOk
          (attempted p.policy topic key payload s n).2) := by
  have hloop := (loop_reached hagain htime).trans (Policy.loop_of_stop hstop)
  unfold publish
  rw [hloop]
  cases answer with
  | ok a => rfl
  | error e => rfl

theorem publish_of_lt {k d : Nat}
    (hagain : ∀ i ≤ k, p.policy.next ChannelError.isTransient i
      (answered p.policy topic key payload s i) = .again (p.policy.delay i))
    (hle : p.policy.slept k ≤ d) (hlt : d < p.policy.slept (k + 1)) :
    p.publish (some (s.site.clock + d)) topic key payload s =
      .error ((attempted p.policy topic key payload s k).2.sleepUntil (s.site.clock + d)) := by
  have hcut : pause (some (s.site.clock + d)) (p.policy.delay k)
      (attempted p.policy topic key payload s k) =
      .error ((attempted p.policy topic key payload s k).2.sleepUntil (s.site.clock + d)) := by
    apply pause_of_lt
    rw [attempted_clock, Nat.add_assoc]
    exact Nat.add_lt_add_left hlt _
  have htime : ∀ t ∈ some (s.site.clock + d), s.site.clock + p.policy.slept k ≤ t := by
    simpa using hle
  have hloop := loop_reached (fun i hi => hagain i hi.le) htime
  unfold publish
  rw [hloop, Policy.loop_of_cut (hagain k (Nat.le_refl k)) hcut]

theorem exists_cut {k d : Nat}
    (hagain : ∀ i ≤ k, p.policy.next ChannelError.isTransient i
      (answered p.policy topic key payload s i) = .again (p.policy.delay i))
    (hle : p.policy.slept k ≤ d) (hlt : d < p.policy.slept (k + 1)) :
    ∃ cut, p.publish (some (s.site.clock + d)) topic key payload s = .error cut ∧
      cut.site.clock = s.site.clock + d ∧
      cut.site.broker.attempts =
        s.site.broker.attempts ++ records p.policy topic key payload s (k + 1) ∧
      Unconcluded s cut := by
  have hrefused : ∀ i ≤ k, ∃ e, answered p.policy topic key payload s i = .error e := by
    intro i hi
    obtain ⟨e, he, -⟩ := Policy.retryable_of_next (hagain i hi)
    exact ⟨e, he⟩
  have hunconcluded := unconcluded_attempted p.policy topic key payload s hrefused
  refine ⟨_, publish_of_lt hagain hle hlt, ?_, ?_, hunconcluded.sleepUntil _⟩
  · rw [Stage.sleepUntil_clock, attempted_clock]
    exact Nat.max_eq_right (Nat.add_le_add_left hle _)
  · rw [(Stage.sleepUntil_silent _ _).attempts, attempted_attempts]

end Whole

theorem map_verdict_cases (topic key : String) (calls : Nat) (result : Except ChannelError Unit) :
    let answer := ((Policy.verdict ChannelError.isTransient calls result).mapError
      (describe topic key)).map fun _ => key
    answer = .ok key ∨ ∃ e, answer = .error (.rejected topic key calls e) ∨
      answer = .error (.exhausted topic key calls e) := by
  intro answer
  cases result with
  | ok a => exact .inl rfl
  | error e =>
    refine .inr ⟨e, ?_⟩
    by_cases he : e.isTransient = true
    · exact .inr (by simp only [answer, Policy.verdict, if_pos he]; rfl)
    · exact .inl (by simp only [answer, Policy.verdict, if_neg he]; rfl)

/-! ## A call that is refused once -/

/-- A producer with a single retry, after this wait, on a stage where the first attempt is
refused. -/
def refusedOnce (wait : Span) : Rehearsal where
  stage :=
    (⟨.fresh .empty .absent, []⟩ : Stage).after .standard (.failPublish [.timeout "SHIPMENT"])
  producer := ⟨.standard, ⟨2, wait, wait, 1.0⟩, fun _ => ""⟩
  storeRetry := .standard
  streams := []
  held := []

section Once
variable {wait : Span} {x : Shipment} {key : String}

theorem refusedOnce_slept (wait : Span) :
    (refusedOnce wait).producer.policy.slept 1 = wait.ticks := by
  have hmin : min wait wait = wait := if_pos (Nat.le_refl wait.nanos)
  have hdelay : (refusedOnce wait).producer.policy.delay 0 = wait := by
    rw [Policy.delay, if_pos rfl]
    exact hmin
  rw [Policy.slept, hdelay, Policy.slept, Nat.zero_add]

theorem refusedOnce_again (wait : Span) (topic key : String) (payload : Bytes) :
    ∀ i < 1, (refusedOnce wait).producer.policy.next ChannelError.isTransient i
      (answered (refusedOnce wait).producer.policy topic key payload (refusedOnce wait).stage i) =
        .again ((refusedOnce wait).producer.policy.delay i) := by
  intro i hi
  obtain rfl := Nat.lt_one_iff.1 hi
  rfl

theorem refusedOnce_stop (wait : Span) (topic key : String) (payload : Bytes) :
    (refusedOnce wait).producer.policy.next ChannelError.isTransient 1
      (answered (refusedOnce wait).producer.policy topic key payload (refusedOnce wait).stage 1) =
        .stop (.ok ()) := by
  rw [answered_eq]
  rfl

theorem produce_refusedOnce_of_le (wait : Span) (deadline : Option Span)
    (hkey : x.publishKey ["id"] = .ok key) (h : ∀ d ∈ deadline, wait.ticks ≤ d.ceilMillis) :
    ∃ u, (refusedOnce wait).producer.produce ((refusedOnce wait).deadlineAfter deadline) x
        (refusedOnce wait).stage = .ok (.ok key, u) ∧
      u.site.broker.attempts.map (·.time) = [0, wait.ticks] := by
  have hstart : (refusedOnce wait).stage.site.clock = 0 := rfl
  have hnone : (refusedOnce wait).stage.site.broker.attempts = [] := rfl
  refine ⟨_, (produce_eq _ hkey _ _).trans (publish_of_le (refusedOnce_again wait _ _ _)
    (refusedOnce_stop wait _ _ _) ?_), ?_⟩
  · intro t ht
    obtain ⟨d, hd, rfl⟩ := Option.map_eq_some_iff.1 ht
    rw [refusedOnce_slept]
    exact Nat.add_le_add_left (h d hd) _
  · have hrange : List.range (1 + 1) = [0, 1] := rfl
    have hfirst : (refusedOnce wait).producer.policy.slept 0 = 0 := rfl
    rw [conclude_broker, attempted_attempts, hnone, List.nil_append, records, hrange]
    simp only [List.map_cons, List.map_nil, record, hstart, hfirst, refusedOnce_slept, Nat.zero_add]

theorem produce_refusedOnce_of_lt (wait d : Span) (hkey : x.publishKey ["id"] = .ok key)
    (h : d.ceilMillis < wait.ticks) :
    ∃ cut, (refusedOnce wait).producer.produce ((refusedOnce wait).deadlineAfter (some d)) x
        (refusedOnce wait).stage = .error cut ∧
      cut.site.clock = d.ceilMillis := by
  obtain ⟨cut, hpublish, hclock, -⟩ := exists_cut
    (fun i hi => refusedOnce_again wait "SHIPMENT" key x.write i (Nat.lt_succ_of_le hi))
    (Nat.zero_le _) ((refusedOnce_slept wait).symm ▸ h)
  exact ⟨cut, (produce_eq _ hkey _ _).trans hpublish, hclock.trans (Nat.zero_add _)⟩

end Once

/-- A call with a deadline makes the attempts that it would make without one, at the same times, as
far as they come by the tick at which the deadline falls due. If they all do it is answered as if
there were none. Else it ends at that tick, with nothing accepted and nothing counted, and no
attempt follows. -/
theorem produce_within_deadline (r : Rehearsal) {x : Shipment} {key : String}
    (hkey : x.publishKey ["id"] = .ok key) :
    let p := r.producer
    let s := r.stage
    ∃ answer u made last, p.produce none x s = .ok (answer, u) ∧
      (answer = .ok key ∨ ∃ e, answer = .error (.rejected p.topics.shipment key made.length e) ∨
        answer = .error (.exhausted p.topics.shipment key made.length e)) ∧
      u.site.broker.attempts = s.site.broker.attempts ++ made ∧ made.getLast? = some last ∧
      (∀ a ∈ made, a.topic = p.topics.shipment ∧ a.key = key ∧ a.payload = x.write) ∧
      made.map (·.time) = (List.range made.length).map (s.site.clock + p.policy.slept ·) ∧
      ∀ d : Span, ∃ tick, d.nanos ≤ tick * 1000000 ∧ tick * 1000000 < d.nanos + 1000000 ∧
        (last.time ≤ s.site.clock + tick →
          p.produce (r.deadlineAfter (some d)) x s = .ok (answer, u) ∧
          made.filter (·.time ≤ s.site.clock + tick) = made) ∧
        (s.site.clock + tick < last.time →
          ∃ cut, p.produce (r.deadlineAfter (some d)) x s = .error cut ∧
            cut.site.clock = s.site.clock + tick ∧
            cut.site.broker.attempts =
              s.site.broker.attempts ++ made.filter (·.time ≤ s.site.clock + tick) ∧
            Unconcluded s cut ∧
            ∀ topics es, (∀ e ∈ es, e.isPublish = false) →
              (cut.afterAll topics es).site.broker.attempts = cut.site.broker.attempts) := by
  intro p s
  have hproduce := p.produce_eq hkey
  obtain ⟨n, hn⟩ := p.policy.exists_isLeast_lastCalls ChannelError.isTransient
    (answered p.policy p.topics.shipment key x.write s)
  have hagain : ∀ i < n, _ := fun i hi => Policy.next_of_lt hn hi
  have hstop := Policy.next_of_mem hn.1
  have hlength : (records p.policy p.topics.shipment key x.write s (n + 1)).length = n + 1 := by
    simp [records]
  refine ⟨_, _, records p.policy p.topics.shipment key x.write s (n + 1),
    record p.policy p.topics.shipment key x.write s n,
    (hproduce none s).trans (publish_of_le hagain hstop (by simp)), ?_, ?_, ?_, ?_, ?_, ?_⟩
  · rw [hlength]
    exact map_verdict_cases ..
  · rw [conclude_broker, attempted_attempts]
  · simp [records, List.range_succ]
  · intro a ha
    obtain ⟨i, -, rfl⟩ := List.mem_map.1 ha
    exact ⟨rfl, rfl, rfl⟩
  · simp [records, record]
  intro d
  have hdue : r.deadlineAfter (some d) = some (s.site.clock + d.ceilMillis) := rfl
  rw [hdue]
  refine ⟨d.ceilMillis, d.le_ceilMillis, d.ceilMillis_lt, fun hmade => ?_, fun hcut => ?_⟩
  · have hslept : p.policy.slept n ≤ d.ceilMillis := Nat.le_of_add_le_add_left hmade
    rw [hproduce]
    exact ⟨publish_of_le hagain hstop (by simpa using hslept), filter_records_of_le hslept⟩
  · obtain ⟨k, hk, hle, hlt⟩ := p.policy.exists_slept_le_lt (Nat.lt_of_add_lt_add_left hcut)
    obtain ⟨cut, hpublish, hclock, hattempts, hunconcluded⟩ :=
      exists_cut (fun i hi => hagain i (Nat.lt_of_le_of_lt hi hk)) hle hlt
    refine ⟨cut, (hproduce _ _).trans hpublish, hclock, ?_, hunconcluded, ?_⟩
    · rw [hattempts, filter_records hk hle hlt]
    · intro topics es hes
      exact cut.afterAll_attempts topics hes

/-- The retry comes after a second. A deadline half a millisecond before that is as good as none,
one that is a millisecond before leaves the first attempt alone. -/
theorem produce_within_deadline_refused :
    let x := Shipment.sample "S1" .sent
    let r := refusedOnce (.ofMillis 1000)
    let late : Span := ⟨999500000, by decide⟩
    ∃ key, x.publishKey ["id"] = .ok key ∧
      (∃ u, r.producer.produce none x r.stage = .ok (.ok key, u) ∧
        r.producer.produce (r.deadlineAfter (some late)) x r.stage = .ok (.ok key, u)) ∧
      ∃ cut, r.producer.produce (r.deadlineAfter (some (.ofMillis 999))) x r.stage = .error cut ∧
        cut.site.clock = 999 ∧ cut.site.broker.attempts.map (·.time) = [0] ∧
        cut.site.broker.log = [] ∧ cut.site.tally = .empty := by
  intro x r late
  obtain ⟨key, hkey⟩ : ∃ key, x.publishKey ["id"] = .ok key := exists_ok (by decide +kernel)
  obtain ⟨v, hv, htimes⟩ := produce_refusedOnce_of_le (.ofMillis 1000) none hkey (by simp)
  obtain ⟨answer, u, made, last, hanswer, -, hattempts, hlast, -, -, hdeadline⟩ :=
    produce_within_deadline r hkey
  obtain ⟨rfl, rfl⟩ : answer = .ok key ∧ u = v := by
    cases hanswer.symm.trans hv
    exact ⟨rfl, rfl⟩
  have hslept : made.map (·.time) = [0, 1000] := by
    rw [hattempts] at htimes
    exact htimes.trans (by decide)
  obtain ⟨a, more, rfl, ha, hmore⟩ := List.map_eq_cons_iff.1 hslept
  obtain ⟨b, none, rfl, hb, hnone⟩ := List.map_eq_cons_iff.1 hmore
  obtain rfl := List.map_eq_nil_iff.1 hnone
  obtain rfl : b = last := Option.some.inj hlast
  have hstart : r.stage.site.clock = 0 := rfl
  have hfirst : r.stage.site.broker.attempts = [] := rfl
  refine ⟨key, hkey, ⟨u, hanswer, ?_⟩, ?_⟩
  · obtain ⟨tick, hle, -, hmade, -⟩ := hdeadline late
    have hlate : late.nanos = 999500000 := rfl
    exact (hmade (by omega)).1
  · obtain ⟨tick, hle, hlt, -, hcut⟩ := hdeadline (.ofMillis 999)
    have hearly : (Span.ofMillis 999).nanos = 999000000 := rfl
    obtain rfl : tick = 999 := by omega
    obtain ⟨cut, hcut, hclock, hattempts, hunconcluded, -⟩ := hcut (by omega)
    refine ⟨cut, hcut, hclock, ?_, hunconcluded.log, (hunconcluded.alone rfl).2⟩
    simp [hattempts, hfirst, hstart, ha, hb]

/-- No tick falls between two milliseconds. With a deadline of half a millisecond a retry after one
is made all the same, and one after five is given up at one. A wait of more than thirty years is cut
to that, so that a retry may be made by a deadline before which the policy does not allow it. -/
theorem attempts_after_deadline :
    let x := Shipment.sample "S1" .sent
    let call (wait deadline : Span) := (refusedOnce wait).producer.produce
      ((refusedOnce wait).deadlineAfter (some deadline)) x (refusedOnce wait).stage
    let half : Span := ⟨500000, by decide⟩
    let years : Span := .ofMillis 946080000001
    ∃ key, x.publishKey ["id"] = .ok key ∧
      (∃ u, call (.ofMillis 1) half = .ok (.ok key, u) ∧
        ∃ a ∈ u.site.broker.attempts, half.nanos < a.time * 1000000) ∧
      (∃ cut, call (.ofMillis 5) half = .error cut ∧ half.nanos < cut.site.clock * 1000000) ∧
      ∃ u, call (.ofMillis 1000000000000) years = .ok (.ok key, u) ∧
        years.nanos < (Span.ofMillis 1000000000000).nanos ∧
        u.site.broker.attempts.map (·.time) = [0, 946080000000] := by
  intro x call half years
  obtain ⟨key, hkey⟩ : ∃ key, x.publishKey ["id"] = .ok key := exists_ok (by decide +kernel)
  refine ⟨key, hkey, ?_, ?_, ?_⟩
  · obtain ⟨u, hanswer, htimes⟩ :=
      produce_refusedOnce_of_le (.ofMillis 1) (some half) hkey (by decide)
    obtain ⟨a, ha, htime⟩ : ∃ a ∈ u.site.broker.attempts, a.time = 1 :=
      List.mem_map.1 (htimes ▸ by decide)
    exact ⟨u, hanswer, a, ha, by rw [htime]; decide⟩
  · obtain ⟨cut, hcut, hclock⟩ := produce_refusedOnce_of_lt (.ofMillis 5) half hkey (by decide)
    exact ⟨cut, hcut, by rw [hclock]; decide⟩
  · obtain ⟨u, hanswer, htimes⟩ :=
      produce_refusedOnce_of_le (.ofMillis 1000000000000) (some years) hkey (by decide)
    exact ⟨u, hanswer, by decide +kernel, htimes.trans (by decide +kernel)⟩

end Producer
end Consignment
