import Consignment.Json.Numeral
import Consignment.Json.Text

/-! Passing over a value that nobody asks for. Its form is checked to any depth, its content not. -/
namespace Consignment.Json

def isBlank (b : UInt8) : Bool := b = 0x20 || b = 0x0a || b = 0x09 || b = 0x0d

def skipBlank (s : Bytes) : Bytes := s.dropWhile isBlank

def word : Bytes → Bytes → Except Fault Bytes
  | [], s => .ok s
  | _ :: _, [] => refuse .endInValue []
  | l :: ls, c :: s => if c = l then word ls s else refuse .expectedWord s

def ull : Bytes := [0x75, 0x6c, 0x6c]
def rue : Bytes := [0x72, 0x75, 0x65]
def alse : Bytes := [0x61, 0x6c, 0x73, 0x65]

inductive Frame
  | list
  | object
deriving DecidableEq, Repr

def Frame.endIn : Frame → Cause
  | .list => .endInList
  | .object => .endInObject

def Frame.expectedEnd : Frame → Cause
  | .list => .expectedListEnd
  | .object => .expectedObjectEnd

def Frame.closing : Frame → UInt8
  | .list => 0x5d
  | .object => 0x7d

def Frame.opened? (c : UInt8) : Option Frame :=
  if c = 0x5b then some .list else if c = 0x7b then some .object else none

def passScalar : Bytes → Except Fault Bytes
  | [] => refuse .endInValue []
  | c :: s =>
    if c = 0x6e then word ull s
    else if c = 0x74 then word rue s
    else if c = 0x66 then word alse s
    else if c = 0x22 then passText s
    else if c = 0x2d ∨ isDigit c then (numeral .invalidNumber (c :: s)).map (·.2)
    else refuseNext .expectedValue (c :: s)

def passColon (s : Bytes) : Except Fault Bytes :=
  match skipBlank s with
  | [] => refuse .endInObject []
  | c :: s => if c = 0x3a then .ok s else refuseNext .expectedColon (c :: s)

def passName (f : Frame) (s : Bytes) : Except Fault Bytes :=
  match f with
  | .list => .ok s
  | .object =>
    match skipBlank s with
    | [] => refuse .endInObject []
    | c :: s =>
      if c = 0x22 then
        match passText s with
        | .error e => .error e
        | .ok s => passColon s
      else refuseNext .keyMustBeText (c :: s)

theorem length_skipBlank_le (s : Bytes) : (skipBlank s).length ≤ s.length :=
  length_dropWhile_le isBlank s

theorem word_takes {w s rest : Bytes} (h : word w s = .ok rest) : rest.length ≤ s.length := by
  fun_induction word w s <;> grind [refuse]

theorem passScalar_takes {s rest : Bytes} (h : passScalar s = .ok rest) :
    rest.length < s.length := by
  unfold passScalar at h
  split at h
  · simp at h
  repeat' split at h
  · have := word_takes h; simp only [List.length_cons]; omega
  · have := word_takes h; simp only [List.length_cons]; omega
  · have := word_takes h; simp only [List.length_cons]; omega
  · have := passText_takes h; simp only [List.length_cons]; omega
  · obtain ⟨⟨n, r⟩, hn, rfl⟩ := map_eq_ok.1 h
    exact numeral_takes hn
  · simp at h

theorem passColon_takes {s rest : Bytes} (h : passColon s = .ok rest) :
    rest.length < s.length := by
  have := length_skipBlank_le s
  unfold passColon at h
  grind [refuse, refuseNext]

theorem passName_takes {f : Frame} {s rest : Bytes} (h : passName f s = .ok rest) :
    rest.length ≤ s.length := by
  have h0 := length_skipBlank_le s
  unfold passName at h
  split at h
  · simp_all
  split at h
  · simp at h
  next hc =>
  rw [hc] at h0
  simp only [List.length_cons] at h0
  repeat' split at h
  · simp at h
  · next ht =>
    have := passText_takes ht
    have := passColon_takes h
    omega
  · simp at h

mutual

/-- A value inside the frames that are open around it, and all that is left of them. -/
def passValue (frames : List Frame) (s : Bytes) : Except Fault Bytes :=
  match _h : skipBlank s with
  | [] => refuse .endInValue []
  | c :: r =>
    match Frame.opened? c with
    | none =>
      match _hs : passScalar (c :: r) with
      | .error e => .error e
      | .ok rest => passRest frames rest
    | some f =>
      match _hr : skipBlank r with
      | [] => refuse f.endIn []
      | d :: r' =>
        if d = f.closing then passRest frames r'
        else
          match _hn : passName f (d :: r') with
          | .error e => .error e
          | .ok rest => passValue (f :: frames) rest
termination_by s.length
decreasing_by
  all_goals
    have h0 := length_skipBlank_le s
    rw [_h] at h0
  · have := passScalar_takes _hs; omega
  · have h1 := length_skipBlank_le r
    rw [_hr] at h1
    simp only [List.length_cons] at *; omega
  · have h1 := length_skipBlank_le r
    rw [_hr] at h1
    have := passName_takes _hn
    simp only [List.length_cons] at *; omega

/-- What is left of the open frames behind a value: more values and the closing marks. -/
def passRest (frames : List Frame) (s : Bytes) : Except Fault Bytes :=
  match frames with
  | [] => .ok s
  | f :: fs =>
    match _h : skipBlank s with
    | [] => refuse f.endIn []
    | c :: r =>
      if c = 0x2c then
        match _hn : passName f r with
        | .error e => .error e
        | .ok rest => passValue (f :: fs) rest
      else if c = f.closing then passRest fs r
      else refuseNext f.expectedEnd (c :: r)
termination_by s.length
decreasing_by
  all_goals
    have h0 := length_skipBlank_le s
    rw [_h] at h0
    simp only [List.length_cons] at h0
  · have := passName_takes _hn; omega
  · omega

end

theorem passRest_takes_of (n : Nat) : ∀ (frames : List Frame) (s rest : Bytes), s.length ≤ n →
    (passValue frames s = .ok rest → rest.length < s.length) ∧
    (passRest frames s = .ok rest → rest.length ≤ s.length) := by
  induction n with
  | zero =>
    intro frames s rest hs
    obtain rfl : s = [] := by simpa using hs
    refine ⟨fun h => ?_, fun h => ?_⟩
    · unfold passValue at h; simp [skipBlank] at h
    · unfold passRest at h
      cases frames with
      | nil => simp_all
      | cons f fs => simp [skipBlank] at h
  | succ n ih =>
    intro frames s rest hs
    have h0 := length_skipBlank_le s
    refine ⟨fun h => ?_, fun h => ?_⟩
    · unfold passValue at h
      split at h
      · simp at h
      next c r hc =>
      rw [hc] at h0
      simp only [List.length_cons] at h0
      split at h
      · split at h
        · simp at h
        · next hs' =>
          have h1 := passScalar_takes hs'
          simp only [List.length_cons] at h1
          have := (ih frames _ rest (by omega)).2 h
          omega
      · split at h
        · simp at h
        next hd =>
        have h1 := length_skipBlank_le r
        rw [hd] at h1
        simp only [List.length_cons] at h1
        split at h
        · have := (ih frames _ rest (by omega)).2 h
          omega
        · split at h
          · simp at h
          next hn =>
          have h2 := passName_takes hn
          simp only [List.length_cons] at h2
          have := (ih _ _ rest (by omega)).1 h
          omega
    · unfold passRest at h
      split at h
      · simp_all
      split at h
      · simp at h
      next hc =>
      rw [hc] at h0
      simp only [List.length_cons] at h0
      split at h
      · split at h
        · simp at h
        next hn =>
        have h1 := passName_takes hn
        have := (ih _ _ rest (by omega)).1 h
        omega
      · split at h
        · have := (ih _ _ rest (by omega)).2 h
          omega
        · simp at h

def pass (s : Bytes) : Except Fault Bytes := passValue [] s

theorem pass_takes {s rest : Bytes} (h : pass s = .ok rest) : rest.length < s.length :=
  (passRest_takes_of s.length [] s rest (Nat.le_refl _)).1 h

end Consignment.Json
