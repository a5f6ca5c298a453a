import Consignment.Proofs.Retry.Unrolled
import Mathlib.Algebra.BigOperators.Intervals
import Mathlib.Algebra.Order.BigOperators.Group.Finset

/-! The worst case of a policy is the sum of all waits between the attempts it allows. No loop asks
for more, and one that is exhausted asks for just that. -/
namespace Consignment.Policy
variable {ε α : Type}

/-! ## The sum of the waits -/

theorem delay_le_max (p : Policy) (retry : Nat) : (p.delay retry).nanos ≤ p.max.nanos := by
  unfold delay
  split
  · rw [Span.nanos_min]
    exact Nat.min_le_right ..
  · rw [Span.nanos_min]
    exact Nat.min_le_right ..

def waits (p : Policy) (count : Nat) : Nat := ∑ retry ∈ Finset.range count, (p.delay retry).nanos

theorem waits_mono (p : Policy) {m n : Nat} (h : m ≤ n) : p.waits m ≤ p.waits n :=
  Finset.sum_le_sum_of_subset (Finset.range_subset_range.2 h)

theorem waits_le (p : Policy) (count : Nat) : p.waits count ≤ count * p.max.nanos := by
  have hsum := Finset.sum_le_card_nsmul (Finset.range count) _ _ fun retry _ => p.delay_le_max retry
  rwa [Finset.card_range] at hsum

theorem sum_delay_succ (p : Policy) (retry count : Nat) :
    ∑ i ∈ Finset.range (count + 1), (p.delay (retry + i)).nanos =
      (p.delay retry).nanos + ∑ i ∈ Finset.range count, (p.delay (retry + 1 + i)).nanos := by
  rw [Finset.sum_range_succ', Nat.add_comm]
  congr 1
  exact Finset.sum_congr rfl fun i _ => by rw [Nat.add_comm i 1, Nat.add_assoc]

theorem totalFrom_eq (p : Policy) (sum : Span) (retry count : Nat) :
    p.totalFrom sum retry count =
      Span.ofNanos? (sum.nanos + ∑ i ∈ Finset.range count, (p.delay (retry + i)).nanos) := by
  induction count generalizing sum retry with
  | zero => simp [totalFrom, Span.ofNanos?, sum.bounded]
  | succ count ih =>
    rw [sum_delay_succ, totalFrom, Span.add?]
    by_cases hfits : sum.nanos + (p.delay retry).nanos < 0x10000000000000000 * 1000000000
    · rw [Span.ofNanos?, dif_pos hfits]
      simp only [ih, Nat.add_assoc]
    · have hless : sum.nanos + (p.delay retry).nanos ≤ sum.nanos + ((p.delay retry).nanos +
          ∑ i ∈ Finset.range count, (p.delay (retry + 1 + i)).nanos) := by omega
      rw [Span.ofNanos?, dif_neg hfits, Span.ofNanos?, dif_neg fun h => hfits (hless.trans_lt h)]

theorem worstCase_eq (p : Policy) : p.worstCase = Span.ofNanos? (p.waits (p.attempts - 1)) := by
  have hsum := p.totalFrom_eq .zero 0 (p.attempts - 1)
  simp only [Nat.zero_add] at hsum
  rw [worstCase, hsum, waits, show Span.zero.nanos = 0 from rfl, Nat.zero_add]

/-! ## What the loop asks for -/

def Mark.requested : Mark → Nat
  | .called _ => 0
  | .waited wait => wait.nanos

def requested (marks : List Mark) : Nat := (marks.map Mark.requested).sum

theorem requested_append (marks more : List Mark) :
    requested (marks ++ more) = requested marks + requested more := by
  rw [requested, List.map_append, List.sum_append]
  rfl

theorem requested_marksBefore (p : Policy) (script : Nat → Trial ε α) (start n : Nat) :
    requested (p.marksBefore script start n) = p.waits n := by
  induction n with
  | zero => rfl
  | succ n ih =>
    have hmarks : p.marksBefore script start (n + 1) = p.marksBefore script start n ++
        [.called (p.callTime script start n), .waited (p.delay n)] := by
      rw [marksBefore, List.range_succ, List.flatMap_append, List.flatMap_singleton]
      rfl
    rw [hmarks, requested_append, ih, waits, waits, Finset.sum_range_succ]
    simp [requested, Mark.requested]

theorem run_course (p : Policy) (retryable : ε → Bool) (script : Nat → Trial ε α) (start : Nat) :
    ∃ n, IsLeast (p.lastCalls retryable fun i => (script i).result) (n + 1) ∧
      p.run retryable (Course.attempt script) Course.pause (.begin start) =
        (verdict retryable (n + 1) (script n).result,
          ⟨p.callTime script start n + (script n).takes, n + 1,
            p.marksBefore script start n ++ [.called (p.callTime script start n)]⟩) := by
  have hrun := p.run_unrolled retryable (Course.attempt script) Course.pause (.begin start)
  simp only [unrolled_course] at hrun
  exact hrun

theorem error_of_verdict_exhausted {retryable : ε → Bool} {calls : Nat} {result : Except ε α}
    {k : Nat} {e : ε} (h : verdict retryable calls result = .error (.exhausted k e)) :
    result = .error e ∧ retryable e = true := by
  unfold verdict at h
  split at h
  · cases h
  · split at h
    · next hretryable =>
      cases h
      exact ⟨rfl, hretryable⟩
    · cases h

/-- The worst case is the exact sum of all waits between attempts, if that is a span, and else none.
It is what an exhausted loop asks for, and no loop asks for more. -/
theorem worstCase_tight (p : Policy) (retryable : ε → Bool) (script : Nat → Trial ε α)
    (start : Nat) :
    let most := Nat.max 1 p.maxAttempts
    let total := ∑ retry ∈ Finset.range (most - 1), (p.delay retry).nanos
    let run := p.run retryable (Course.attempt script) Course.pause (.begin start)
    requested run.2.marks ≤ total ∧
    ((∃ calls e, run.1 = .error (.exhausted calls e)) → requested run.2.marks = total) ∧
    total ≤ (most - 1) * p.max.nanos ∧
    p.worstCase.map Span.nanos =
      if total < 0x10000000000000000 * 1000000000 then some total else none := by
  intro most total run
  have hmost : most = p.attempts := Nat.max_comm ..
  have htotal : total = p.waits (p.attempts - 1) := by rw [← hmost]; rfl
  obtain ⟨n, hn, hrun⟩ := p.run_course retryable script start
  have hrequested : requested run.2.marks = p.waits n := by
    rw [show run.2 = _ from congrArg Prod.snd hrun, requested_append, requested_marksBefore]
    rfl
  have hcalls : n + 1 ≤ p.attempts := hn.2 (.inl rfl)
  refine ⟨?_, ?_, ?_, ?_⟩
  · rw [hrequested, htotal]
    exact p.waits_mono (by omega)
  · rintro ⟨calls, e, hexhausted⟩
    have hanswer : run.1 = _ := congrArg Prod.fst hrun
    obtain ⟨hresult, hretryable⟩ := error_of_verdict_exhausted (hanswer.symm.trans hexhausted)
    have hall := calls_of_retryable hn.1 hresult hretryable
    rw [hrequested, htotal, ← hall, Nat.add_sub_cancel]
  · rw [htotal, hmost]
    exact p.waits_le _
  · rw [worstCase_eq, ← htotal, Span.ofNanos?]
    split
    · rfl
    · rfl

end Consignment.Policy
