import Consignment.Register

/-! Counters, each named for what it counts and under which label. -/
namespace Consignment

inductive Counter
  | published (topic : String)
  | publishRetries (topic : String)
  | publishFailed (topic : String)
  | reconciled (topic : String)
  | rejected (topic : String)
  | storeUnavailable (topic : String)
  | deadLettered (reason : String)
deriving DecidableEq

namespace Counter

def kind : Counter → String
  | .published _ => "published"
  | .publishRetries _ => "publish_retries"
  | .publishFailed _ => "publish_failed"
  | .reconciled _ => "reconciled"
  | .rejected _ => "rejected"
  | .storeUnavailable _ => "store_unavailable"
  | .deadLettered _ => "dead_lettered"

def label : Counter → String
  | .published t => "topic=" ++ t
  | .publishRetries t => "topic=" ++ t
  | .publishFailed t => "topic=" ++ t
  | .reconciled t => "topic=" ++ t
  | .rejected t => "topic=" ++ t
  | .storeUnavailable t => "topic=" ++ t
  | .deadLettered r => "reason=" ++ r

def name (c : Counter) : String :=
  "shipment_sync." ++ c.kind ++ "\x7b" ++ c.label ++ "\x7d"

end Counter

/-- A counter that was never incremented is not in it. -/
structure Tally where
  counts : List (Counter × Nat)
deriving DecidableEq

namespace Tally

def empty : Tally := ⟨[]⟩

def countIn (c : Counter) : List (Counter × Nat) → Nat
  | [] => 0
  | e :: es => if e.1 = c then e.2 else countIn c es

def addIn (c : Counter) (n : Nat) : List (Counter × Nat) → List (Counter × Nat)
  | [] => [(c, n)]
  | e :: es => if e.1 = c then (c, e.2 + n) :: es else e :: addIn c n es

theorem countIn_addIn (c d : Counter) (n : Nat) (es : List (Counter × Nat)) :
    countIn d (addIn c n es) = countIn d es + if c = d then n else 0 := by
  induction es with
  | nil => simp [addIn, countIn]
  | cons e es ih => grind [addIn, countIn]

def count (t : Tally) (c : Counter) : Nat := countIn c t.counts

def add (c : Counter) (n : Nat) (t : Tally) : Tally := ⟨addIn c n t.counts⟩

@[simp] theorem count_empty (c : Counter) : empty.count c = 0 := rfl

theorem count_add (t : Tally) (c d : Counter) (n : Nat) :
    (t.add c n).count d = t.count d + if c = d then n else 0 := countIn_addIn c d n t.counts

end Tally
end Consignment
