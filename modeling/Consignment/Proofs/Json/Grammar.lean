import Consignment.Json.Pass

/-! The grammar of documents, on octets: blanks, texts between quotes, numerals, and values with all
that they hold. It says how a text and a numeral are written, not what they mean. -/
namespace Consignment.Json

def Blanks (b : Bytes) : Prop := ∀ c ∈ b, c = 0x20 ∨ c = 0x0a ∨ c = 0x09 ∨ c = 0x0d

def IsHexDigit (c : UInt8) : Prop :=
  (0x30 ≤ c ∧ c ≤ 0x39) ∨ (0x41 ≤ c ∧ c ≤ 0x46) ∨ (0x61 ≤ c ∧ c ≤ 0x66)

def shorthands : Bytes := [0x22, 0x5c, 0x2f, 0x62, 0x66, 0x6e, 0x72, 0x74]

inductive IsQuoted : Bytes → Prop
  | nothing : IsQuoted []
  | plain {c : UInt8} {t : Bytes} : ¬ c < 0x20 → c ≠ 0x22 → c ≠ 0x5c → IsQuoted t →
    IsQuoted (c :: t)
  | short {e : UInt8} {t : Bytes} : e ∈ shorthands → IsQuoted t → IsQuoted (0x5c :: e :: t)
  | unit {a b c d : UInt8} {t : Bytes} : (∀ x ∈ [a, b, c, d], IsHexDigit x) → IsQuoted t →
    IsQuoted (0x5c :: 0x75 :: a :: b :: c :: d :: t)

inductive IsText : Bytes → Prop
  | mk {t : Bytes} : IsQuoted t → IsText (0x22 :: (t ++ [0x22]))

def Digits (ds : Bytes) : Prop := ds ≠ [] ∧ ∀ d ∈ ds, 0x30 ≤ d ∧ d ≤ 0x39

/-- No digit follows a zero. -/
inductive IsWhole : Bytes → Prop
  | zero : IsWhole [0x30]
  | digits {d : UInt8} {ds : Bytes} : d ≠ 0x30 → Digits (d :: ds) → IsWhole (d :: ds)

inductive IsPart : Bytes → Prop
  | nothing : IsPart []
  | digits {ds : Bytes} : Digits ds → IsPart (0x2e :: ds)

inductive IsExponent : Bytes → Prop
  | nothing : IsExponent []
  | digits {e : UInt8} {sign ds : Bytes} : e = 0x65 ∨ e = 0x45 →
    sign = [] ∨ sign = [0x2b] ∨ sign = [0x2d] → Digits ds → IsExponent (e :: (sign ++ ds))

inductive IsNumeral : Bytes → Prop
  | mk {sign whole part exponent : Bytes} : sign = [] ∨ sign = [0x2d] → IsWhole whole →
    IsPart part → IsExponent exponent → IsNumeral (sign ++ (whole ++ (part ++ exponent)))

def Frame.enclose : Frame → Bytes → Bytes
  | .list, s => 0x5b :: (s ++ [0x5d])
  | .object, s => 0x7b :: (s ++ [0x7d])

inductive IsLabel : Frame → Bytes → Prop
  | nothing : IsLabel .list []
  | name {b t b' : Bytes} : Blanks b → IsText t → Blanks b' →
    IsLabel .object (b ++ (t ++ (b' ++ [0x3a])))

mutual

inductive IsValue : Bytes → Prop
  | null : IsValue [0x6e, 0x75, 0x6c, 0x6c]
  | yes : IsValue [0x74, 0x72, 0x75, 0x65]
  | no : IsValue [0x66, 0x61, 0x6c, 0x73, 0x65]
  | numeral {s : Bytes} : IsNumeral s → IsValue s
  | text {s : Bytes} : IsText s → IsValue s
  | empty {b : Bytes} (f : Frame) : Blanks b → IsValue (f.enclose b)
  | filled {i : Bytes} {is : List Bytes} (f : Frame) : (∀ j ∈ i :: is, IsItem f j) →
    IsValue (f.enclose (i ++ is.flatMap (0x2c :: ·)))

inductive IsItem : Frame → Bytes → Prop
  | mk {f : Frame} {label b v b' : Bytes} : IsLabel f label → Blanks b → IsValue v → Blanks b' →
    IsItem f (label ++ (b ++ (v ++ b')))

end

/-- The octets are a list or an object with these items. -/
inductive Holds (f : Frame) : List Bytes → Bytes → Prop
  | nothing {b : Bytes} : Blanks b → Holds f [] (f.enclose b)
  | items {i : Bytes} {is : List Bytes} : (∀ j ∈ i :: is, IsItem f j) →
    Holds f (i :: is) (f.enclose (i ++ is.flatMap (0x2c :: ·)))

theorem Holds.isValue {f : Frame} {is : List Bytes} {v : Bytes} (h : Holds f is v) : IsValue v := by
  cases h with
  | nothing hb => exact .empty f hb
  | items h => exact .filled f h

/-! ## What is left of an open frame -/

def Frame.opening : Frame → UInt8
  | .list => 0x5b
  | .object => 0x7b

theorem Frame.enclose_eq (f : Frame) (s : Bytes) :
    f.enclose s = f.opening :: (s ++ [f.closing]) := by
  cases f <;> rfl

theorem Blanks.nil : Blanks [] := by
  intro c hc
  cases hc

theorem Blanks.append {b b' : Bytes} (h : Blanks b) (h' : Blanks b') : Blanks (b ++ b') := by
  intro c hc
  rcases List.mem_append.1 hc with hc | hc
  · exact h c hc
  · exact h' c hc

/-- From `s` to `rest`, the frame with its items comes to its end. `first` says that nothing stands
in it before `s`, otherwise `s` is where an item ends. -/
def Inside (first : Bool) (f : Frame) (is : List Bytes) (s rest : Bytes) : Prop :=
  match first with
  | true => ∃ v, Holds f is v ∧ f.opening :: s = v ++ rest
  | false => ∃ b, Blanks b ∧ (∀ j ∈ is, IsItem f j) ∧
    s = b ++ (is.flatMap (0x2c :: ·) ++ f.closing :: rest)

/-- Where the next item starts: behind a comma, unless it is the first. -/
def Enters (first : Bool) (s t : Bytes) : Prop :=
  match first with
  | true => s = t
  | false => ∃ b, Blanks b ∧ s = b ++ 0x2c :: t

def Takes (s rest : Bytes) : Prop := ∃ b v, Blanks b ∧ IsValue v ∧ s = b ++ (v ++ rest)

theorem IsValue.takes {v : Bytes} (h : IsValue v) (rest : Bytes) : Takes (v ++ rest) rest :=
  ⟨[], v, .nil, h, rfl⟩

theorem Takes.behind {s rest b : Bytes} (h : Takes s rest) (hb : Blanks b) :
    Takes (b ++ s) rest := by
  obtain ⟨b', v, hb', hv, rfl⟩ := h
  exact ⟨b ++ b', v, hb.append hb', hv, by simp⟩

theorem IsLabel.behind {f : Frame} {label b s rest : Bytes} (hl : IsLabel f label) (hb : Blanks b)
    (h : Takes s rest) : ∃ label' s', IsLabel f label' ∧ Takes s' rest ∧
      b ++ (label ++ s) = label' ++ s' := by
  cases hl with
  | nothing => exact ⟨[], b ++ s, .nothing, h.behind hb, rfl⟩
  | name hb' ht hb'' => exact ⟨_, s, .name (hb.append hb') ht hb'', h, by simp⟩

namespace Inside
variable {f : Frame} {is : List Bytes} {s t rest : Bytes}

theorem takes (h : Inside true f is s rest) : Takes (f.opening :: s) rest := by
  obtain ⟨v, hv, heq⟩ := h
  rw [heq]
  exact hv.isValue.takes rest

theorem close {b : Bytes} (first : Bool) (hb : Blanks b) :
    Inside first f [] (b ++ f.closing :: rest) rest := by
  cases first with
  | true => exact ⟨f.enclose b, .nothing hb, by simp [Frame.enclose_eq]⟩
  | false => exact ⟨b, hb, by simp, by simp⟩

theorem cons {u : Bytes} (h : Inside false f is u rest) :
    ∃ b, Blanks b ∧ ∀ first s w, IsItem f (w ++ b) → Enters first s (w ++ u) →
      Inside first f ((w ++ b) :: is) s rest := by
  obtain ⟨b, hb, his, rfl⟩ := h
  refine ⟨b, hb, fun first s w hitem hs => ?_⟩
  have hall : ∀ j ∈ (w ++ b) :: is, IsItem f j := List.forall_mem_cons.2 ⟨hitem, his⟩
  cases first with
  | true =>
    obtain rfl : s = _ := hs
    refine ⟨_, .items hall, ?_⟩
    simp [Frame.enclose_eq]
  | false =>
    obtain ⟨b', hb', rfl⟩ := hs
    exact ⟨b', hb', hall, by simp⟩

theorem item {label : Bytes} (first : Bool) (hl : IsLabel f label)
    (hs : Enters first s (label ++ t)) {u : Bytes} (ht : Takes t u) (h : Inside false f is u rest) :
    ∃ j, Inside first f (j :: is) s rest := by
  obtain ⟨b, v, hb, hv, rfl⟩ := ht
  obtain ⟨b', hb', hcons⟩ := h.cons
  have hitem : IsItem f ((label ++ (b ++ v)) ++ b') := by
    simpa using IsItem.mk hl hb hv hb'
  exact ⟨_, hcons first s _ hitem (by simpa using hs)⟩

theorem itemBehind {b label : Bytes} (first : Bool) (hb : Blanks b) (hl : IsLabel f label)
    (hs : Enters first s (b ++ (label ++ t))) {u : Bytes} (ht : Takes t u)
    (h : Inside false f is u rest) : ∃ j, Inside first f (j :: is) s rest := by
  obtain ⟨label', t', hl', ht', heq⟩ := hl.behind hb ht
  rw [heq] at hs
  exact item first hl' hs ht' h

theorem behind {b : Bytes} (hb : Blanks b) (h : Inside false f is s rest) :
    Inside false f is (b ++ s) rest := by
  obtain ⟨b', hb', his, rfl⟩ := h
  exact ⟨b ++ b', hb.append hb', his, by simp⟩

theorem stop {first : Bool} (h : Inside first f [] s rest) :
    ∃ b, Blanks b ∧ s = b ++ f.closing :: rest := by
  cases first with
  | true =>
    obtain ⟨v, hv, heq⟩ := h
    cases hv with
    | @nothing b hb =>
      refine ⟨b, hb, ?_⟩
      simpa [Frame.enclose_eq] using heq
  | false =>
    obtain ⟨b, hb, -, rfl⟩ := h
    exact ⟨b, hb, rfl⟩

theorem uncons {first : Bool} {i : Bytes} (h : Inside first f (i :: is) s rest) :
    IsItem f i ∧ Enters first s (i ++ (is.flatMap (0x2c :: ·) ++ f.closing :: rest)) ∧
      Inside false f is (is.flatMap (0x2c :: ·) ++ f.closing :: rest) rest := by
  cases first with
  | true =>
    obtain ⟨v, hv, heq⟩ := h
    cases hv with
    | items hall =>
      obtain ⟨hi, his⟩ := List.forall_mem_cons.1 hall
      refine ⟨hi, ?_, [], .nil, his, rfl⟩
      simpa [Frame.enclose_eq, Enters] using heq
  | false =>
    obtain ⟨b, hb, hall, rfl⟩ := h
    obtain ⟨hi, his⟩ := List.forall_mem_cons.1 hall
    exact ⟨hi, ⟨b, hb, by simp⟩, [], .nil, his, rfl⟩

end Inside
end Consignment.Json
