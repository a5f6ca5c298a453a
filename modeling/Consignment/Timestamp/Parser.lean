import Consignment.Text.Blank
import Consignment.Timestamp.Basic

/-! Reading timestamps: date, `T` or a blank, time of day, offset. White space may stand before
every part, a year with a sign may be long, and the other numbers may lack a leading zero. -/
namespace Consignment.Timestamp

abbrev Parsed (α : Type) := Except Fault (α × List Char)

def value (ds : List Char) : Nat := ds.foldl (fun n d => 10 * n + (d.toNat - 0x30)) 0

def someDigits (s ds : List Char) : Parsed Nat :=
  if s = [] then .error .tooShort
  else if ds = [] then .error .invalid
  else .ok (value ds, s.drop ds.length)

def digits (width : Nat) (s : List Char) : Parsed Nat :=
  someDigits s ((s.take width).takeWhile Char.isDigit)

def allDigits (s : List Char) : Parsed Nat := someDigits s (s.takeWhile Char.isDigit)

def readYear (s : List Char) : Parsed Int :=
  let long (sign : Int) (s : List Char) : Parsed Int :=
    match allDigits s with
    | .error e => .error e
    | .ok (n, rest) =>
      if -0x80000000 ≤ sign * n ∧ sign * n < 0x80000000 then .ok (sign * n, rest)
      else .error .outOfRange
  match Text.trimLeft s with
  | '-' :: s => long (-1) s
  | '+' :: s => long 1 s
  | s => (digits 4 s).map fun p => ((p.1 : Int), p.2)

def readNumber (low high : Nat) (s : List Char) : Parsed Nat :=
  match digits 2 (Text.trimLeft s) with
  | .error e => .error e
  | .ok (n, rest) => if low ≤ n ∧ n ≤ high then .ok (n, rest) else .error .outOfRange

def mark (c : Char) (s : List Char) : Except Fault (List Char) :=
  match Text.trimLeft s with
  | [] => .error .tooShort
  | d :: s => if d = c then .ok s else .error .invalid

def separator : List Char → Except Fault (List Char)
  | [] => .error .tooShort
  | c :: s => if c = 'T' ∨ c = 't' ∨ c = ' ' then .ok s else .error .invalid

/-- Nine digits count, more are passed over. -/
def readFraction (s : List Char) : Parsed Nat :=
  match s with
  | '.' :: s =>
    let ds := s.takeWhile Char.isDigit
    (someDigits s ds).map fun p => (value (ds.take 9) * Nat.pow 10 (9 - ds.length), p.2)
  | s => .ok (0, s)

/-- Two digits, or the fault of what stands there. A single character counts as short only if it is
one octet long. -/
def pair (low : Char → Bool) : List Char → Parsed Nat
  | [] => .error .tooShort
  | [c] => .error (if c.utf8Size < 2 then .tooShort else .invalid)
  | a :: b :: s =>
    if !(a.isDigit && b.isDigit) then .error .invalid
    else if low a then .ok (value [a, b], s)
    else .error .outOfRange

def isZulu (s : List Char) : Bool := String.ofList ((s.take 3).map Char.toLower) = "utc"

def readOffset (s : List Char) : Parsed Int :=
  let s := Text.trimLeft s
  let behind (sign : Int) (s : List Char) : Parsed Int :=
    match pair (fun _ => true) s with
    | .error e => .error e
    | .ok (hours, s) =>
      match pair (· ≤ '5') (s.dropWhile fun c => c = ':' || Text.isBlank c) with
      | .error e => .error e
      | .ok (minutes, s) => .ok (sign * (hours * 60 + minutes), s)
  if isZulu s then .ok (0, s.drop 3)
  else match s with
    | [] => .error .tooShort
    | c :: s =>
      if c = 'Z' ∨ c = 'z' then .ok (0, s)
      else if c = '+' then behind 1 s
      else if c = '-' ∨ c = '\u2212' then behind (-1) s
      else .error .invalid

def readDate (s : List Char) : Except Fault (Date × List Char) := do
  let (y, s) ← readYear s
  let (m, s) ← readNumber 1 12 (← mark '-' s)
  let (d, s) ← readNumber 1 31 (← mark '-' s)
  return (⟨y, m, d⟩, s)

def readClock (s : List Char) : Except Fault (Clock × List Char) := do
  let (h, s) ← readNumber 0 23 s
  let (m, s) ← readNumber 0 59 (← mark ':' s)
  let (sec, s) ← readNumber 0 60 (← mark ':' s)
  let (n, s) ← readFraction s
  return (⟨h, m, sec, n⟩, s)

/-- The moment that the parts name, if it exists both where it was written and in UTC. -/
def assemble (d : Date) (c : Clock) (offset : Int) : Except Fault Timestamp :=
  if !d.exists ∨ offset ≤ -1440 ∨ 1440 ≤ offset then .error .outOfRange
  else
    let (d, c) := shifted d c offset
    if h : d.exists && c.exists then .ok ⟨d, c, h⟩ else .error .impossible

def parse (t : String) : Except Fault Timestamp := do
  let (d, s) ← readDate t.toList
  let (c, s) ← readClock (← separator s)
  let (o, s) ← readOffset s
  if Text.trimLeft s = [] then assemble d c o else .error .trailing

end Consignment.Timestamp
