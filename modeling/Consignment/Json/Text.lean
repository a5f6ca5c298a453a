import Consignment.Json.Fault

/-! Text between quotes. Reading decodes it; passing over it checks the escapes only, because text
under a name that nobody asks for is never decoded. -/
namespace Consignment.Json

def hexValue? (b : UInt8) : Option Nat :=
  if 0x30 ≤ b ∧ b ≤ 0x39 then some (b.toNat - 0x30)
  else if 0x41 ≤ b ∧ b ≤ 0x46 then some (b.toNat - 0x37)
  else if 0x61 ≤ b ∧ b ≤ 0x66 then some (b.toNat - 0x57)
  else none

def codeUnit? (a b c d : UInt8) : Option Nat := do
  return ((← hexValue? a) * 16 + (← hexValue? b)) * 256 + (← hexValue? c) * 16 + (← hexValue? d)

def isLeading (u : Nat) : Bool := 0xd800 ≤ u && u ≤ 0xdbff

def isTrailing (u : Nat) : Bool := 0xdc00 ≤ u && u ≤ 0xdfff

def octetsOf (n : Nat) : Bytes := Text.utf8 (Char.ofNat n).toString

def shorthand? (e : UInt8) : Option UInt8 :=
  if e = 0x22 ∨ e = 0x5c ∨ e = 0x2f then some e
  else if e = 0x62 then some 0x08
  else if e = 0x66 then some 0x0c
  else if e = 0x6e then some 0x0a
  else if e = 0x72 then some 0x0d
  else if e = 0x74 then some 0x09
  else none

/-- From behind `\u` of a leading surrogate: the trailing one must be escaped next to it. -/
def trailing (lead : Nat) : Bytes → Except Fault (Bytes × Bytes)
  | [] => refuse .endInText []
  | e :: s =>
    if e ≠ 0x5c then refuse .unfinishedPair s
    else match s with
      | [] => refuse .endInText []
      | e :: s =>
        if e ≠ 0x75 then refuse .unfinishedPair s
        else match s with
          | a :: b :: c :: d :: s =>
            match codeUnit? a b c d with
            | none => refuse .invalidEscape s
            | some u =>
              if isTrailing u then
                .ok (octetsOf (0x10000 + (lead - 0xd800) * 0x400 + (u - 0xdc00)), s)
              else refuse .loneSurrogate s
          | _ => refuse .endInText []

def escape : Bytes → Except Fault (Bytes × Bytes)
  | [] => refuse .endInText []
  | e :: s =>
    if e ≠ 0x75 then
      match shorthand? e with
      | some b => .ok ([b], s)
      | none => refuse .invalidEscape s
    else match s with
      | a :: b :: c :: d :: s =>
        match codeUnit? a b c d with
        | none => refuse .invalidEscape s
        | some u =>
          if isTrailing u then refuse .loneSurrogate s
          else if isLeading u then trailing u s
          else .ok (octetsOf u, s)
      | _ => refuse .endInText []

/-- From behind the backslash, with an eye on the form of the escape only. -/
def passEscape : Bytes → Except Fault Bytes
  | [] => refuse .endInText []
  | e :: s =>
    if e ≠ 0x75 then
      if (shorthand? e).isSome then .ok s else refuse .invalidEscape s
    else match s with
      | a :: b :: c :: d :: s =>
        if (codeUnit? a b c d).isSome then .ok s else refuse .invalidEscape s
      | _ => refuse .endInText []

theorem trailing_takes {u : Nat} {s t rest : Bytes} (h : trailing u s = .ok (t, rest)) :
    rest.length < s.length := by
  unfold trailing at h
  repeat' split at h
  all_goals first
    | (obtain ⟨rfl, rfl⟩ := by simpa using h
       simp only [List.length_cons]; omega)
    | simp at h

theorem escape_takes {s t rest : Bytes} (h : escape s = .ok (t, rest)) :
    rest.length < s.length := by
  unfold escape at h
  repeat' split at h
  all_goals first
    | (simp only [List.length_cons]; have := trailing_takes h; omega)
    | (obtain ⟨rfl, rfl⟩ := by simpa using h
       simp only [List.length_cons]; omega)
    | simp at h

theorem passEscape_takes {s rest : Bytes} (h : passEscape s = .ok rest) :
    rest.length < s.length := by
  unfold passEscape at h
  repeat' split at h
  all_goals first
    | (obtain rfl := by simpa using h
       simp only [List.length_cons]; omega)
    | simp at h

def spelled : Bytes → Except Fault (Bytes × Bytes)
  | [] => refuse .endInText []
  | c :: s =>
    if c = 0x22 then .ok ([], s)
    else if c < 0x20 then refuse .controlCharacter s
    else if c = 0x5c then
      match _h : escape s with
      | .error f => .error f
      | .ok (t, rest) => (spelled rest).map fun p => (t ++ p.1, p.2)
    else (spelled s).map fun p => (c :: p.1, p.2)
termination_by s => s.length
decreasing_by
  · have := escape_takes _h; simp only [List.length_cons]; omega
  · simp

/-- The text from behind its opening quote, and what follows the closing one. Octets that spell no
text are a fault as far before the end of the closing quote as octets are spelled from the first
that is none on, however many were written for them. -/
def text (s : Bytes) : Except Fault (String × Bytes) :=
  match spelled s with
  | .error f => .error f
  | .ok (octets, rest) =>
    match Text.ofUtf8? octets with
    | some t => .ok (t, rest)
    | none =>
      let left := rest.length + (octets.length - Text.textualPrefix octets)
      refuse .invalidUnicode (s.drop (s.length - left))

def passText : Bytes → Except Fault Bytes
  | [] => refuse .endInText []
  | c :: s =>
    if c = 0x22 then .ok s
    else if c < 0x20 then refuse .controlCharacter (c :: s)
    else if c = 0x5c then
      match _h : passEscape s with
      | .error f => .error f
      | .ok rest => passText rest
    else passText s
termination_by s => s.length
decreasing_by
  · have := passEscape_takes _h; simp only [List.length_cons]; omega
  · simp

theorem spelled_takes {s t rest : Bytes} (h : spelled s = .ok (t, rest)) :
    rest.length < s.length := by
  fun_induction spelled s generalizing t with
  | case1 => simp at h
  | case2 => simp_all
  | case3 => simp at h
  | case4 => simp at h
  | case5 =>
    rename_i ih
    obtain ⟨⟨_, _⟩, hp, hr⟩ := map_eq_ok.1 h
    cases hr
    have := escape_takes ‹escape _ = .ok _›
    have := ih hp
    simp only [List.length_cons] at *; omega
  | case6 =>
    rename_i ih
    obtain ⟨⟨_, _⟩, hp, hr⟩ := map_eq_ok.1 h
    cases hr
    have := ih hp
    simp only [List.length_cons] at *; omega

theorem text_takes {s rest : Bytes} {t : String} (h : text s = .ok (t, rest)) :
    rest.length < s.length := by
  unfold text at h
  split at h
  · simp at h
  · next hs =>
    have := spelled_takes hs
    split at h
    · simp_all
    · simp at h

theorem passText_takes {s rest : Bytes} (h : passText s = .ok rest) : rest.length < s.length := by
  fun_induction passText s with
  | case1 => simp at h
  | case2 => simp_all
  | case3 => simp at h
  | case4 => simp at h
  | case5 =>
    rename_i ih
    have := passEscape_takes ‹passEscape _ = .ok _›
    have := ih h
    simp only [List.length_cons]; omega
  | case6 =>
    rename_i ih
    have := ih h
    simp only [List.length_cons]; omega

end Consignment.Json
