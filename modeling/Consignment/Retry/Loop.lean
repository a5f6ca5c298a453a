import Consignment.Retry.Policy

/-! Repeating an operation that may fail. The policy decides after every attempt; the loop only
follows it, so that whoever cannot wait in a loop asks the policy itself. -/
namespace Consignment

inductive GaveUp (ε : Type)
  | exhausted (attempts : Nat) (error : ε)
  | aborted (attempts : Nat) (error : ε)
deriving DecidableEq

namespace GaveUp
variable {ε : Type}

def error : GaveUp ε → ε
  | .exhausted _ e => e
  | .aborted _ e => e

def attempts : GaveUp ε → Nat
  | .exhausted n _ => n
  | .aborted n _ => n

def message (describe : ε → String) : GaveUp ε → String
  | .exhausted n e => s!"gave up after {n} attempts: " ++ describe e
  | .aborted n e => s!"attempt {n} failed permanently: " ++ describe e

end GaveUp

inductive Policy.Next (ε α : Type)
  | stop (answer : Except (GaveUp ε) α)
  | again (after : Span)

namespace Policy
variable {σ κ ε α : Type}

/-- After `failed` failures and the result of one more attempt. An error that no retry can mend is
final at once, also on the last attempt. -/
def next (p : Policy) (retryable : ε → Bool) (failed : Nat) : Except ε α → Next ε α
  | .ok a => .stop (.ok a)
  | .error e =>
    if !retryable e then .stop (.error (.aborted (failed + 1) e))
    else if p.attempts ≤ failed + 1 then .stop (.error (.exhausted (failed + 1) e))
    else .again (p.delay failed)

theorem lt_attempts_of_next {p : Policy} {retryable : ε → Bool} {failed : Nat} {r : Except ε α}
    {d : Span} (h : p.next retryable failed r = .again d) : failed + 1 < p.attempts := by
  unfold next at h
  split at h
  · simp at h
  split at h
  · simp at h
  split at h
  · simp at h
  · omega

theorem retryable_of_next {p : Policy} {retryable : ε → Bool} {failed : Nat} {r : Except ε α}
    {d : Span} (h : p.next retryable failed r = .again d) : ∃ e, r = .error e ∧ retryable e := by
  unfold next at h
  split at h
  · simp at h
  · next e =>
    refine ⟨e, rfl, ?_⟩
    cases hr : retryable e
    · simp [hr] at h
    · rfl

/-- Attempts from a state in which `failed` of them were in vain. A pause may be cut short, which
ends everything with what the cut says. -/
def loop (p : Policy) (retryable : ε → Bool) (attempt : σ → Except ε α × σ)
    (pause : Span → σ → Except κ σ) (failed : Nat) (s : σ) :
    Except κ (Except (GaveUp ε) α × σ) :=
  let (result, s) := attempt s
  match _h : p.next retryable failed result with
  | .stop answer => .ok (answer, s)
  | .again d =>
    match pause d s with
    | .error cut => .error cut
    | .ok s => loop p retryable attempt pause (failed + 1) s
termination_by p.attempts - failed
decreasing_by have := lt_attempts_of_next _h; omega

def run (p : Policy) (retryable : ε → Bool) (attempt : σ → Except ε α × σ)
    (pause : Span → σ → σ) (s : σ) : Except (GaveUp ε) α × σ :=
  match p.loop retryable attempt (fun d s => (.ok (pause d s) : Except Empty σ)) 0 s with
  | .ok answer => answer

end Policy
end Consignment
