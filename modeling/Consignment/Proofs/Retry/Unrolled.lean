import Mathlib.Order.Nat
import Consignment.Proofs.Retry

/-! The loop of retries as the list of what it does: so many calls, with the wait of the policy
between one and the next. How many they are is decided by the results alone. -/
namespace Consignment.Policy
variable {σ κ ε α : Type} {p : Policy} {retryable : ε → Bool}

/-! ## One turn -/

section Turn
variable {failed : Nat}

theorem next_again {e : ε} (he : retryable e = true) (h : failed + 1 < p.attempts) :
    p.next retryable failed (.error e : Except ε α) = .again (p.delay failed) := by
  have hmore : ¬ p.attempts ≤ failed + 1 := Nat.not_le_of_lt h
  simp [next, he, hmore]

theorem next_aborted {e : ε} (he : retryable e = false) :
    p.next retryable failed (.error e : Except ε α) =
      .stop (.error (.aborted (failed + 1) e)) := by
  simp [next, he]

theorem next_exhausted {e : ε} (he : retryable e = true) (h : p.attempts ≤ failed + 1) :
    p.next retryable failed (.error e : Except ε α) =
      .stop (.error (.exhausted (failed + 1) e)) := by
  simp [next, he, h]

variable {attempt : σ → Except ε α × σ} {pause : Span → σ → Except κ σ} {s t : σ}

theorem loop_of_stop {answer : Except (GaveUp ε) α}
    (h : p.next retryable failed (attempt s).1 = .stop answer) :
    p.loop retryable attempt pause failed s = .ok (answer, (attempt s).2) := by
  rw [loop]
  rcases ha : attempt s with ⟨result, t⟩
  rw [ha] at h
  simp only
  split
  · next hnext =>
    rw [h] at hnext
    cases hnext
    rfl
  · next hnext =>
    rw [h] at hnext
    cases hnext

theorem loop_of_again {wait : Span} (h : p.next retryable failed (attempt s).1 = .again wait)
    (hpause : pause wait (attempt s).2 = .ok t) :
    p.loop retryable attempt pause failed s =
      p.loop retryable attempt pause (failed + 1) t := by
  rw [loop]
  rcases ha : attempt s with ⟨result, u⟩
  rw [ha] at h hpause
  simp only
  split
  · next hnext =>
    rw [h] at hnext
    cases hnext
  · next hnext =>
    rw [h] at hnext
    cases hnext
    rw [hpause]

end Turn

/-! ## All of them -/

section Unrolled
variable {attempt : σ → Except ε α × σ} {pause : Span → σ → σ} {s : σ}

/-- Where `n` attempts lead from `s`, each with the wait after it. -/
def unrolled (p : Policy) (attempt : σ → Except ε α × σ) (pause : Span → σ → σ) (s : σ) : Nat → σ
  | 0 => s
  | n + 1 => pause (p.delay n) (attempt (unrolled p attempt pause s n)).2

theorem loop_eq_unrolled (κ : Type) (failed : Nat)
    (h : ∀ i < failed, p.next retryable i (attempt (p.unrolled attempt pause s i)).1 =
      .again (p.delay i)) :
    p.loop retryable attempt (fun wait s => (.ok (pause wait s) : Except κ σ)) 0 s =
      p.loop retryable attempt (fun wait s => .ok (pause wait s)) failed
        (p.unrolled attempt pause s failed) := by
  induction failed with
  | zero => rfl
  | succ failed ih =>
    rw [ih fun i hi => h i (Nat.lt_succ_of_lt hi)]
    exact loop_of_again (h failed (Nat.lt_succ_self failed)) rfl

theorem run_eq_unrolled {n : Nat} {answer : Except (GaveUp ε) α}
    (hagain : ∀ i < n, p.next retryable i (attempt (p.unrolled attempt pause s i)).1 =
      .again (p.delay i))
    (hstop : p.next retryable n (attempt (p.unrolled attempt pause s n)).1 = .stop answer) :
    p.run retryable attempt pause s = (answer, (attempt (p.unrolled attempt pause s n)).2) := by
  have hloop := loop_eq_unrolled Empty n hagain
  rw [loop_of_stop hstop] at hloop
  simp only [run, hloop]

end Unrolled

/-! ## How many -/

/-- A result that is not worth another attempt, however many are left. -/
def Final (retryable : ε → Bool) (result : Except ε α) : Prop :=
  ∀ e, result = .error e → retryable e = false

theorem not_final {result : Except ε α} (h : ¬ Final retryable result) :
    ∃ e, result = .error e ∧ retryable e = true := by
  simp only [Final, not_forall, Bool.not_eq_false] at h
  obtain ⟨e, he, hretryable⟩ := h
  exact ⟨e, he, hretryable⟩

/-- The calls after which the loop must end, counted from 1: those with a final result, and the last
one that the policy allows. -/
def lastCalls (p : Policy) (retryable : ε → Bool) (results : Nat → Except ε α) : Set Nat :=
  {k | k = p.attempts ∨ ∃ i, k = i + 1 ∧ Final retryable (results i)}

variable {results : Nat → Except ε α}

theorem exists_isLeast_lastCalls (p : Policy) (retryable : ε → Bool) (results : Nat → Except ε α) :
    ∃ n, IsLeast (p.lastCalls retryable results) (n + 1) := by
  classical
  have hsome : ∃ k, k ∈ p.lastCalls retryable results := ⟨p.attempts, .inl rfl⟩
  have hleast := Nat.isLeast_find hsome
  cases hfind : Nat.find hsome with
  | zero =>
    rw [hfind] at hleast
    rcases hleast.1 with h | ⟨i, h, -⟩
    · exact absurd h.symm (Nat.ne_of_gt p.attempts_pos)
    · cases h
  | succ n =>
    rw [hfind] at hleast
    exact ⟨n, hleast⟩

theorem next_of_lt {n i : Nat} (h : IsLeast (p.lastCalls retryable results) (n + 1)) (hi : i < n) :
    p.next retryable i (results i) = .again (p.delay i) := by
  have hfew : n + 1 ≤ p.attempts := h.2 (.inl rfl)
  have hgoes : ¬ Final retryable (results i) := by
    intro hfinal
    have hle : n + 1 ≤ i + 1 := h.2 (.inr ⟨i, rfl, hfinal⟩)
    omega
  obtain ⟨e, he, hretryable⟩ := not_final hgoes
  rw [he]
  exact next_again hretryable (by omega)

def verdict (retryable : ε → Bool) (calls : Nat) : Except ε α → Except (GaveUp ε) α
  | .ok a => .ok a
  | .error e => .error (if retryable e then .exhausted calls e else .aborted calls e)

theorem mapError_verdict (retryable : ε → Bool) (calls : Nat) (result : Except ε α) :
    (verdict retryable calls result).mapError GaveUp.error = result := by
  cases result with
  | ok a => rfl
  | error e => cases he : retryable e <;> simp [verdict, he, Except.mapError, GaveUp.error]

theorem calls_of_retryable {n : Nat} {e : ε} (h : n + 1 ∈ p.lastCalls retryable results)
    (hresult : results n = .error e) (he : retryable e = true) : n + 1 = p.attempts := by
  rcases h with hall | ⟨i, hi, hfinal⟩
  · exact hall
  · obtain rfl : n = i := Nat.succ.inj hi
    rw [hfinal e hresult] at he
    cases he

theorem next_of_mem {n : Nat} (h : n + 1 ∈ p.lastCalls retryable results) :
    p.next retryable n (results n) = .stop (verdict retryable (n + 1) (results n)) := by
  cases hresult : results n with
  | ok a => rfl
  | error e =>
    cases he : retryable e with
    | false => simp [next_aborted he, verdict, he]
    | true =>
      have hall := calls_of_retryable h hresult he
      simp [next_exhausted he (Nat.le_of_eq hall.symm), verdict, he]

theorem run_unrolled (p : Policy) (retryable : ε → Bool) (attempt : σ → Except ε α × σ)
    (pause : Span → σ → σ) (s : σ) :
    let results i := (attempt (p.unrolled attempt pause s i)).1
    ∃ n, IsLeast (p.lastCalls retryable results) (n + 1) ∧
      p.run retryable attempt pause s =
        (verdict retryable (n + 1) (results n), (attempt (p.unrolled attempt pause s n)).2) := by
  intro results
  obtain ⟨n, hn⟩ := p.exists_isLeast_lastCalls retryable results
  have hagain : ∀ i < n, p.next retryable i (results i) = .again (p.delay i) :=
    fun i hi => next_of_lt hn hi
  exact ⟨n, hn, run_eq_unrolled hagain (next_of_mem hn.1)⟩

/-! ## Scripts without an end -/

structure Trial (ε α : Type) where
  result : Except ε α
  takes : Nat

inductive Mark
  | called (time : Nat)
  | waited (wait : Span)
deriving DecidableEq

structure Course where
  clock : Nat
  calls : Nat
  marks : List Mark
deriving DecidableEq

namespace Course

def begin (clock : Nat) : Course := ⟨clock, 0, []⟩

def attempt (script : Nat → Trial ε α) (c : Course) : Except ε α × Course :=
  ((script c.calls).result,
    ⟨c.clock + (script c.calls).takes, c.calls + 1, c.marks ++ [.called c.clock]⟩)

def pause (wait : Span) (c : Course) : Course :=
  ⟨c.clock + wait.ticks, c.calls, c.marks ++ [.waited wait]⟩

end Course

/-- When call number `n` is made, counted from 0, if there is one. -/
def callTime (p : Policy) (script : Nat → Trial ε α) (start : Nat) : Nat → Nat
  | 0 => start
  | n + 1 => callTime p script start n + (script n).takes + (p.delay n).ticks

def marksBefore (p : Policy) (script : Nat → Trial ε α) (start n : Nat) : List Mark :=
  (List.range n).flatMap fun i => [.called (p.callTime script start i), .waited (p.delay i)]

theorem unrolled_course (p : Policy) (script : Nat → Trial ε α) (start n : Nat) :
    p.unrolled (Course.attempt script) Course.pause (.begin start) n =
      ⟨p.callTime script start n, n, p.marksBefore script start n⟩ := by
  induction n with
  | zero => rfl
  | succ n ih =>
    simp only [unrolled, ih, Course.attempt, Course.pause, callTime, marksBefore, List.range_succ,
      List.flatMap_append, List.flatMap_singleton, List.append_assoc, List.cons_append,
      List.nil_append]

/-- The loop calls until a result is final or the policy allows no more, waits as the policy says
between one call and the next, and answers with the last result. The decisions of which it consists
end with that call. -/
theorem calls_until_final (p : Policy) (retryable : ε → Bool) (script : Nat → Trial ε α)
    (start : Nat) :
    let most := Nat.max 1 p.maxAttempts
    let run := p.run retryable (Course.attempt script) Course.pause (.begin start)
    ∃ n, IsLeast {k | k = most ∨ ∃ i, k = i + 1 ∧ Final retryable (script i).result} (n + 1) ∧
      run.2.calls = n + 1 ∧
      run.2.marks = (List.range n).flatMap
        (fun i => [.called (p.callTime script start i), .waited (p.delay i)]) ++
          [.called (p.callTime script start n)] ∧
      (match (script n).result with
        | .ok a => run.1 = .ok a
        | .error e =>
          if retryable e then n + 1 = most ∧ run.1 = .error (.exhausted most e)
          else run.1 = .error (.aborted (n + 1) e)) ∧
      (∀ i < n, p.next retryable i (script i).result = .again (p.delay i)) ∧
      p.next retryable n (script n).result = .stop run.1 := by
  intro most run
  have hmost : most = p.attempts := Nat.max_comm ..
  have hresults : ∀ i, (Course.attempt script
      (p.unrolled (Course.attempt script) Course.pause (.begin start) i)).1 =
        (script i).result := by
    intro i
    rw [unrolled_course]
    rfl
  obtain ⟨n, hn, hrun⟩ :=
    p.run_unrolled retryable (Course.attempt script) Course.pause (.begin start)
  simp only [hresults] at hn hrun
  have hanswer : run.1 = verdict retryable (n + 1) (script n).result := congrArg Prod.fst hrun
  have hcourse : run.2 = (Course.attempt script
      ⟨p.callTime script start n, n, p.marksBefore script start n⟩).2 := by
    rw [← unrolled_course]
    exact congrArg Prod.snd hrun
  refine ⟨n, hmost ▸ hn, ?_, ?_, ?_, fun i hi => next_of_lt hn hi, ?_⟩
  · rw [hcourse]
    rfl
  · rw [hcourse]
    rfl
  · rw [hanswer]
    cases hresult : (script n).result with
    | ok a => rfl
    | error e =>
      cases he : retryable e with
      | false => simp [verdict, he]
      | true =>
        have hall := calls_of_retryable hn.1 hresult he
        simp [verdict, he, hmost, hall]
  · rw [hanswer]
    exact next_of_mem hn.1

end Consignment.Policy
