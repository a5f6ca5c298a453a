import Consignment.Retry.Loop
import Consignment.Text.Search

/-! Retries of an operation whose results are written down beforehand. -/
namespace Consignment

structure Script.Entry (α : Type) where
  result : Except String α
  takes : Span

/-- The last entry is repeated for ever. -/
structure Script (α : Type) where
  current : Script.Entry α
  later : List (Script.Entry α)

namespace Script
variable {α : Type}

structure State (α : Type) where
  clock : Nat
  script : Script α
  calls : List Nat

def attempt (s : State α) : Except String α × State α :=
  let e := s.script.current
  let script := match s.script.later with
    | [] => s.script
    | next :: later => ⟨next, later⟩
  (e.result, ⟨s.clock + e.takes.ticks, script, s.calls ++ [s.clock]⟩)

def pause (d : Span) (s : State α) : State α := { s with clock := s.clock + d.ticks }

/-- Without a word every error is worth a retry, with one those that mention it. -/
def run (script : Script α) (p : Policy) (word : Option String) :
    Except (GaveUp String) α × List Nat :=
  let retryable (e : String) := match word with
    | none => true
    | some w => Text.mentions e w
  let (answer, s) := p.run retryable attempt pause ⟨0, script, []⟩
  (answer, s.calls)

end Script
end Consignment
