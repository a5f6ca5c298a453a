import Consignment.Proofs.Number.Decimal
import Consignment.Proofs.Text
import Consignment.Settings

/-! What the text of a setting says, in terms of its form alone, and the forms in which a value may
be written. -/
namespace Consignment.Settings

/-! ## Numerals -/

/-- An optional plus and at least one decimal digit. -/
def Numeral (cs : List Char) (n : Nat) : Prop :=
  ∃ digits, (cs = digits ∨ cs = '+' :: digits) ∧ digits ≠ [] ∧
    (∀ c ∈ digits, c.isDigit = true) ∧ Nat.ofDigitChars 10 digits 0 = n

section Numerals
variable {cs : List Char} {s : String} {bound n : Nat}

theorem digits?_eq_some_iff : digits? cs = some n ↔
    cs ≠ [] ∧ (∀ c ∈ cs, c.isDigit = true) ∧ Nat.ofDigitChars 10 cs 0 = n := by
  have hfold : cs.foldl (fun n c => 10 * n + (c.toNat - 0x30)) 0 = Nat.ofDigitChars 10 cs 0 := rfl
  rw [digits?, hfold]
  simp [and_assoc]

theorem numeral_plus_iff : Numeral ('+' :: cs) n ↔ digits? cs = some n := by
  rw [digits?_eq_some_iff]
  constructor
  · rintro ⟨digits, rfl | hplus, hne, hdigits, hvalue⟩
    · exact absurd (hdigits '+' (by simp)) (by decide)
    · cases hplus
      exact ⟨hne, hdigits, hvalue⟩
  · exact fun h => ⟨cs, .inr rfl, h⟩

theorem numeral_iff (hplus : ∀ ds, cs ≠ '+' :: ds) : Numeral cs n ↔ digits? cs = some n := by
  rw [digits?_eq_some_iff]
  constructor
  · rintro ⟨digits, rfl | heq, h⟩
    · exact h
    · exact absurd heq (hplus digits)
  · exact fun h => ⟨cs, .inl rfl, h⟩

theorem count?_eq_some_iff :
    count? bound s = some n ↔ Numeral (Text.trim s.toList) n ∧ n < bound := by
  unfold count?
  rw [Option.filter_eq_some_iff, decide_eq_true_eq]
  refine and_congr_left' ?_
  split
  · next cs heq => rw [heq, numeral_plus_iff]
  · next cs hplus => rw [numeral_iff fun ds heq => hplus ds heq]

theorem map_toNat_word? (s : String) : (word? s).map UInt64.toNat = count? (2 ^ 64) s := by
  rw [word?, Option.map_map]
  show (count? (2 ^ 64) s).map _ = _
  cases h : count? (2 ^ 64) s with
  | none => rfl
  | some n => exact congrArg some (Nat.mod_eq_of_lt (count?_eq_some_iff.1 h).2)

theorem growth?_eq_some_iff {x : Float} : growth? s = some x ↔
    Number.float? (Text.trim s.toList) = some x ∧ x.isFinite = true ∧ 1.0 ≤ x := by
  rw [growth?, Option.filter_eq_some_iff, Bool.and_eq_true, decide_eq_true_eq]

end Numerals

/-! ## Values -/

inductive Entry
  | text (s : String)
  | count (n : Nat)
  | factor (x : Float)

inductive Kind
  | text (default : String)
  | count (bound default : Nat)
  | factor (default : Float)

/-- Blanks around a number say nothing. -/
def Entry.SaidBy : Entry → String → Prop
  | .text s, t => t = s
  | .count n, t => Numeral (Text.trim t.toList) n
  | .factor x, t => Number.float? (Text.trim t.toList) = some x

namespace Kind

def default : Kind → Entry
  | .text s => .text s
  | .count _ n => .count n
  | .factor x => .factor x

def Admits : Kind → Entry → Prop
  | .text _, .text _ => True
  | .count bound _, .count n => n < bound
  | .factor _, .factor x => x.isFinite = true ∧ 1.0 ≤ x
  | _, _ => False

def read? : Kind → String → Option Entry
  | .text _, t => some (.text t)
  | .count bound _, t => (count? bound t).map .count
  | .factor _, t => (growth? t).map .factor

def value (k : Kind) (text : Option String) : Entry := (text.bind k.read?).getD k.default

variable {k : Kind} {e : Entry} {t : String}

theorem read?_eq_some_iff : k.read? t = some e ↔ k.Admits e ∧ e.SaidBy t := by
  cases k <;> cases e <;>
    simp [read?, Admits, Entry.SaidBy, count?_eq_some_iff, growth?_eq_some_iff, and_comm]

theorem value_of_saidBy (hadmits : k.Admits e) (h : e.SaidBy t) : k.value (some t) = e := by
  rw [value, Option.bind_some, read?_eq_some_iff.2 ⟨hadmits, h⟩, Option.getD_some]

theorem value_of_nothing_said {text : Option String}
    (h : ∀ t, text = some t → ∀ e, k.Admits e → ¬ e.SaidBy t) : k.value text = k.default := by
  have hnone : text.bind k.read? = none := by
    rw [Option.bind_eq_none_iff]
    intro t ht
    rw [Option.eq_none_iff_forall_ne_some]
    intro e hread
    obtain ⟨hadmits, hsaid⟩ := read?_eq_some_iff.1 hread
    exact h t ht e hadmits hsaid
  rw [value, hnone, Option.getD_none]

theorem admits_value (hdefault : k.Admits k.default) (text : Option String) :
    k.Admits (k.value text) := by
  cases h : text.bind k.read? with
  | none => rwa [value, h]
  | some e =>
    obtain ⟨t, -, hread⟩ := Option.bind_eq_some_iff.1 h
    rw [value, h]
    exact (read?_eq_some_iff.1 hread).1

end Kind

/-! ## Forms -/

namespace Entry

/-- Texts are written as they are. Counts may have zeros in front of their digits, a plus in front
of these and blanks around all of it. Factors may have every form of a float. -/
inductive Written : Entry → String → Prop
  | text (s : String) : Written (.text s) s
  | count {before after sign : List Char} (hbefore : ∀ c ∈ before, Text.isBlank c = true)
      (hsign : sign = [] ∨ sign = ['+']) (zeros n : Nat)
      (hafter : ∀ c ∈ after, Text.isBlank c = true) :
      Written (.count n) (String.ofList
        (before ++ (sign ++ (List.replicate zeros '0' ++ Nat.toDigits 10 n)) ++ after))
  | factor {x : Float} {t : String} (h : Number.float? (Text.trim t.toList) = some x) :
      Written (.factor x) t

theorem Written.saidBy {e : Entry} {t : String} (h : Written e t) : e.SaidBy t := by
  cases h with
  | text => rfl
  | count hbefore hsign zeros n hafter =>
    rename_i before after sign
    have hdigits : List.replicate zeros '0' ++ Nat.toDigits 10 n ≠ [] :=
      List.append_ne_nil_of_right_ne_nil _ Nat.toDigits_ne_nil
    have hsolid : ∀ c ∈ sign ++ (List.replicate zeros '0' ++ Nat.toDigits 10 n),
        Text.isBlank c = false := by
      intro c hc
      rcases List.mem_append.1 hc with hc | hc
      · rcases hsign with rfl | rfl
        · cases hc
        · rw [List.mem_singleton.1 hc]
          decide
      · exact Text.isBlank_of_isDigit (Text.isDigit_of_mem_zeros_digits hc)
    show Numeral (Text.trim (String.toList (String.ofList _))) n
    rw [String.toList_ofList, Text.trim_surrounded hbefore
      (List.append_ne_nil_of_right_ne_nil _ hdigits) hsolid hafter]
    refine ⟨_, ?_, hdigits, fun c hc => Text.isDigit_of_mem_zeros_digits hc,
      Text.ofDigitChars_zeros_digits⟩
    rcases hsign with rfl | rfl
    · exact .inl rfl
    · exact .inr rfl
  | factor h => exact h

theorem written_factor {x : Float} (hfinite : x.isFinite = true) (hone : 1.0 ≤ x) :
    Written (.factor x) (String.ofList (Number.written x)) := by
  have hsolid : ∀ c ∈ Number.written x, Text.isBlank c = false := by
    intro c hc
    rcases List.mem_append.1 hc with hc | hc
    · exact Text.isBlank_of_isDigit (Nat.isDigit_of_mem_toDigits (by decide) (by decide) hc)
    · have hexponent : ("e-52".toList.all fun c => !Text.isBlank c) = true := by decide
      simpa using List.all_eq_true.1 hexponent c hc
  have hne : Number.written x ≠ [] := List.append_ne_nil_of_left_ne_nil Nat.toDigits_ne_nil _
  refine .factor ?_
  rw [String.toList_ofList, Text.trim_of_solid hne hsolid]
  exact Number.float?_written hfinite hone

theorem exists_written {k : Kind} {e : Entry} (h : k.Admits e) : ∃ t, Written e t := by
  cases e with
  | text s => exact ⟨s, .text s⟩
  | count n =>
    exact ⟨_, .count (List.forall_mem_nil _) (.inl rfl) 0 n (List.forall_mem_nil _)⟩
  | factor x =>
    cases k with
    | text | count => cases h
    | factor => exact ⟨_, written_factor h.1 h.2⟩

end Entry
end Consignment.Settings
