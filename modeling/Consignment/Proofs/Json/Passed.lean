import Consignment.Proofs.Json.Grammar

/-! Whatever is passed over is written as the grammar says, whether or not anyone reads it. Texts
and numerals come first, then the values that hold others, whose frames are closed in turn. -/
namespace Consignment.Json

theorem mem_takeWhile {p : UInt8 → Bool} {s : Bytes} {c : UInt8} (h : c ∈ s.takeWhile p) :
    p c = true := List.all_eq_true.1 List.all_takeWhile c h

theorem skipBlank_form {s t : Bytes} (h : skipBlank s = t) : ∃ b, Blanks b ∧ s = b ++ t := by
  refine ⟨s.takeWhile isBlank, fun c hc => ?_, ?_⟩
  · simpa [isBlank, or_assoc] using mem_takeWhile hc
  rw [← h]
  exact List.takeWhile_append_dropWhile.symm

theorem word_form {w s rest : Bytes} (h : word w s = .ok rest) : s = w ++ rest := by
  fun_induction word w s with
  | case1 s => simpa using h
  | case2 => cases h
  | case3 l ls s ih => simp [← ih h]
  | case4 => cases h

/-! ## Texts -/

theorem isHexDigit_of {c : UInt8} (h : (hexValue? c).isSome) : IsHexDigit c := by
  unfold hexValue? at h
  split at h
  · next hdigit => exact .inl hdigit
  split at h
  · next hupper => exact .inr (.inl hupper)
  split at h
  · next hlower => exact .inr (.inr hlower)
  · cases h

theorem isHexDigit_of_codeUnit {a b c d : UInt8} (h : (codeUnit? a b c d).isSome) :
    ∀ x ∈ [a, b, c, d], IsHexDigit x := by
  have hall : (hexValue? a).isSome ∧ (hexValue? b).isSome ∧ (hexValue? c).isSome ∧
      (hexValue? d).isSome := by
    cases ha : hexValue? a <;> cases hb : hexValue? b <;> cases hc : hexValue? c <;>
      cases hd : hexValue? d <;> simp_all [codeUnit?]
  obtain ⟨ha, hb, hc, hd⟩ := hall
  simp only [List.forall_mem_cons]
  exact ⟨isHexDigit_of ha, isHexDigit_of hb, isHexDigit_of hc, isHexDigit_of hd, by simp⟩

theorem mem_shorthands {e : UInt8} (h : (shorthand? e).isSome) : e ∈ shorthands := by
  unfold shorthand? at h
  simp only [shorthands, List.mem_cons]
  grind

theorem trailing_form {lead : Nat} {s t rest : Bytes} (h : trailing lead s = .ok (t, rest)) :
    ∃ a b c d, (∀ x ∈ [a, b, c, d], IsHexDigit x) ∧
      s = 0x5c :: 0x75 :: a :: b :: c :: d :: rest := by
  unfold trailing at h
  split at h
  · simp at h
  split at h
  · simp at h
  next hslash =>
  split at h
  · simp at h
  split at h
  · simp at h
  next hu =>
  rw [Decidable.of_not_not hslash, Decidable.of_not_not hu]
  repeat' split at h
  · simp at h
  · next a b c d _ _ u hunit _ =>
    simp only [Except.ok.injEq, Prod.mk.injEq] at h
    exact ⟨a, b, c, d, isHexDigit_of_codeUnit (Option.isSome_of_eq_some hunit), by rw [h.2]⟩
  · simp at h
  · simp at h

theorem escape_form {s t rest : Bytes} (h : escape s = .ok (t, rest)) :
    ∃ e, s = e ++ rest ∧ ∀ q, IsQuoted q → IsQuoted (0x5c :: (e ++ q)) := by
  unfold escape at h
  repeat' split at h
  all_goals try cases h
  · next e _ _ b hshort =>
    exact ⟨[e], rfl, fun q hq => .short (mem_shorthands (Option.isSome_of_eq_some hshort)) hq⟩
  · next e hu _ a b c d s _ u hunit _ _ =>
    rw [Decidable.of_not_not hu]
    obtain ⟨a', b', c', d', htrail, rfl⟩ := trailing_form h
    refine ⟨[0x75, a, b, c, d, 0x5c, 0x75, a', b', c', d'], rfl, ?_⟩
    intro q hq
    exact .unit (isHexDigit_of_codeUnit (Option.isSome_of_eq_some hunit)) (.unit htrail hq)
  · next e hu _ a b c d _ u hunit _ _ =>
    rw [Decidable.of_not_not hu]
    have hhex := isHexDigit_of_codeUnit (Option.isSome_of_eq_some hunit)
    exact ⟨[0x75, a, b, c, d], rfl, fun q hq => .unit hhex hq⟩

theorem passEscape_form {s rest : Bytes} (h : passEscape s = .ok rest) :
    ∃ e, s = e ++ rest ∧ ∀ q, IsQuoted q → IsQuoted (0x5c :: (e ++ q)) := by
  unfold passEscape at h
  repeat' split at h
  all_goals cases h
  · next e _ hshort => exact ⟨[e], rfl, fun q hq => .short (mem_shorthands hshort) hq⟩
  · next e hu _ a b c d hunit =>
    rw [Decidable.of_not_not hu]
    exact ⟨[0x75, a, b, c, d], rfl, fun q hq => .unit (isHexDigit_of_codeUnit hunit) hq⟩

theorem spelled_form {s t rest : Bytes} (h : spelled s = .ok (t, rest)) :
    ∃ q, IsQuoted q ∧ s = q ++ 0x22 :: rest := by
  fun_induction spelled s generalizing t with
  | case1 => cases h
  | case2 =>
    cases h
    exact ⟨[], .nothing, rfl⟩
  | case3 => cases h
  | case4 => cases h
  | case5 s u after hesc hquote hcontrol ih =>
    obtain ⟨⟨_, _⟩, hp, he⟩ := map_eq_ok.1 h
    cases he
    obtain ⟨e, rfl, hq⟩ := escape_form hesc
    obtain ⟨q, hquoted, rfl⟩ := ih hp
    exact ⟨_, hq q hquoted, by simp⟩
  | case6 c s hquote hcontrol hslash ih =>
    obtain ⟨⟨_, _⟩, hp, he⟩ := map_eq_ok.1 h
    cases he
    obtain ⟨q, hquoted, rfl⟩ := ih hp
    exact ⟨_, .plain hcontrol hquote hslash hquoted, rfl⟩

theorem passText_form {s rest : Bytes} (h : passText s = .ok rest) :
    ∃ q, IsQuoted q ∧ s = q ++ 0x22 :: rest := by
  fun_induction passText s with
  | case1 => cases h
  | case2 =>
    cases h
    exact ⟨[], .nothing, rfl⟩
  | case3 => cases h
  | case4 => cases h
  | case5 s after hesc hquote hcontrol ih =>
    obtain ⟨e, rfl, hq⟩ := passEscape_form hesc
    obtain ⟨q, hquoted, rfl⟩ := ih h
    exact ⟨_, hq q hquoted, by simp⟩
  | case6 c s hquote hcontrol hslash ih =>
    obtain ⟨q, hquoted, rfl⟩ := ih h
    exact ⟨_, .plain hcontrol hquote hslash hquoted, rfl⟩

theorem isText_of {s rest : Bytes} (h : ∃ q, IsQuoted q ∧ s = q ++ 0x22 :: rest) :
    ∃ t, IsText t ∧ 0x22 :: s = t ++ rest := by
  obtain ⟨q, hq, rfl⟩ := h
  exact ⟨_, .mk hq, by simp⟩

theorem text_form {s rest : Bytes} {a : String} (h : text s = .ok (a, rest)) :
    ∃ t, IsText t ∧ 0x22 :: s = t ++ rest := by
  unfold text at h
  split at h
  · cases h
  · next hs =>
    split at h <;> cases h
    exact isText_of (spelled_form hs)

/-! ## Numerals -/

theorem isDigit_takeWhile {s : Bytes} {d : UInt8} (h : d ∈ s.takeWhile isDigit) :
    0x30 ≤ d ∧ d ≤ 0x39 := by
  simpa [isDigit] using mem_takeWhile h

theorem digits_cons {d : UInt8} (hd : isDigit d = true) (s : Bytes) :
    Digits (d :: s.takeWhile isDigit) := by
  refine ⟨by simp, ?_⟩
  exact List.forall_mem_cons.2 ⟨by simpa [isDigit] using hd, fun _ => isDigit_takeWhile⟩

theorem wholeDigits_form {atEnd : Cause} {s ds rest : Bytes}
    (h : wholeDigits atEnd s = .ok (ds, rest)) : ∃ v, IsWhole v ∧ s = v ++ rest := by
  unfold wholeDigits at h
  repeat' split at h
  all_goals cases h
  · next hzero _ => exact ⟨[0x30], .zero, by simp [hzero]⟩
  · next c s hzero hdigit => exact ⟨_, .digits hzero (digits_cons hdigit s), by simp⟩

theorem partDigits_form {atEnd : Cause} {s ds rest : Bytes}
    (h : partDigits atEnd s = .ok (ds, rest)) : ∃ v, IsPart v ∧ s = v ++ rest := by
  unfold partDigits at h
  repeat' split at h
  all_goals cases h
  · exact ⟨[], .nothing, rfl⟩
  · exact ⟨[], .nothing, rfl⟩
  · next hpoint _ hsome =>
    refine ⟨_, .digits ⟨hsome, fun _ => isDigit_takeWhile⟩, ?_⟩
    simp [Decidable.of_not_not hpoint]

theorem exponentDigits_form {atEnd : Cause} {negative : Bool} {s rest : Bytes}
    {e : Option (Bool × Bytes)} (h : exponentDigits atEnd negative s = .ok (e, rest)) :
    ∃ ds, Digits ds ∧ s = ds ++ rest := by
  unfold exponentDigits at h
  repeat' split at h
  all_goals cases h
  next c s hdigit => exact ⟨_, digits_cons hdigit s, by simp⟩

theorem exponentPart_form {atEnd : Cause} {s rest : Bytes} {e : Option (Bool × Bytes)}
    (h : exponentPart atEnd s = .ok (e, rest)) : ∃ v, IsExponent v ∧ s = v ++ rest := by
  unfold exponentPart at h
  split at h
  · cases h
    exact ⟨[], .nothing, rfl⟩
  split at h
  · cases h
    exact ⟨[], .nothing, rfl⟩
  next c s hc =>
  have hmark : c = 0x65 ∨ c = 0x45 := by
    by_cases hlower : c = 0x65
    · exact .inl hlower
    · exact .inr (Decidable.of_not_not fun hupper => hc ⟨hlower, hupper⟩)
  split at h
  · cases h
  split at h
  · next hminus =>
    obtain ⟨ds, hds, rfl⟩ := exponentDigits_form h
    exact ⟨_, .digits hmark (.inr (.inr rfl)) hds, by simp [hminus]⟩
  split at h
  · next hplus =>
    obtain ⟨ds, hds, rfl⟩ := exponentDigits_form h
    exact ⟨_, .digits hmark (.inr (.inl rfl)) hds, by simp [hplus]⟩
  · obtain ⟨ds, hds, heq⟩ := exponentDigits_form h
    exact ⟨_, .digits hmark (.inl rfl) hds, by simp [heq]⟩

theorem numeral_form {atEnd : Cause} {s rest : Bytes} {n : Numeral}
    (h : numeral atEnd s = .ok (n, rest)) : ∃ v, IsNumeral v ∧ s = v ++ rest := by
  unfold numeral at h
  simp only at h
  split at h
  · cases h
  next s₁ hwhole =>
  split at h
  · cases h
  next s₂ hpart =>
  split at h
  · cases h
  next s₃ hexponent =>
  cases h
  obtain ⟨whole, hw, hs⟩ := wholeDigits_form hwhole
  obtain ⟨part, hp, rfl⟩ := partDigits_form hpart
  obtain ⟨exponent, he, rfl⟩ := exponentPart_form hexponent
  have hsign : ∃ sign, (sign = [] ∨ sign = [0x2d]) ∧
      s = sign ++ (whole ++ (part ++ (exponent ++ rest))) := by
    split at hs
    · next hminus =>
      obtain ⟨tail, rfl⟩ := List.head?_eq_some_iff.1 hminus
      exact ⟨[0x2d], .inr rfl, by rw [← hs]; rfl⟩
    · exact ⟨[], .inl rfl, hs⟩
  obtain ⟨sign, hsigned, rfl⟩ := hsign
  exact ⟨_, .mk hsigned hw hp he, by simp⟩

/-! ## Values passed over -/

theorem passScalar_form {s rest : Bytes} (h : passScalar s = .ok rest) : Takes s rest := by
  unfold passScalar at h
  split at h
  · cases h
  split at h
  · next hc =>
    rw [hc, word_form h]
    exact IsValue.null.takes rest
  split at h
  · next hc =>
    rw [hc, word_form h]
    exact IsValue.yes.takes rest
  split at h
  · next hc =>
    rw [hc, word_form h]
    exact IsValue.no.takes rest
  split at h
  · next hc =>
    obtain ⟨t, ht, heq⟩ := isText_of (passText_form h)
    rw [hc, heq]
    exact (IsValue.text ht).takes rest
  split at h
  · obtain ⟨⟨n, _⟩, hn, rfl⟩ := map_eq_ok.1 h
    obtain ⟨v, hv, heq⟩ := numeral_form hn
    rw [heq]
    exact (IsValue.numeral hv).takes _
  · cases h

theorem passColon_form {s rest : Bytes} (h : passColon s = .ok rest) :
    ∃ b, Blanks b ∧ s = b ++ 0x3a :: rest := by
  unfold passColon at h
  split at h
  · cases h
  next hs =>
  split at h <;> cases h
  next hc =>
  obtain ⟨b, hb, rfl⟩ := skipBlank_form hs
  exact ⟨b, hb, by rw [hc]⟩

theorem passName_form {f : Frame} {s rest : Bytes} (h : passName f s = .ok rest) :
    ∃ label, IsLabel f label ∧ s = label ++ rest := by
  unfold passName at h
  split at h
  · cases h
    exact ⟨[], .nothing, rfl⟩
  split at h
  · cases h
  next hs =>
  split at h
  · next hc =>
    split at h
    · cases h
    next hname =>
    obtain ⟨b, hb, rfl⟩ := skipBlank_form hs
    obtain ⟨t, ht, heq⟩ := isText_of (passText_form hname)
    obtain ⟨b', hb', rfl⟩ := passColon_form h
    exact ⟨_, .name hb ht hb', by simp [hc, heq]⟩
  · cases h

theorem opened_form {c : UInt8} {f : Frame} (h : Frame.opened? c = some f) : c = f.opening := by
  unfold Frame.opened? at h
  repeat' split at h
  all_goals cases h
  all_goals assumption

/-- What the open frames still demand, from the inmost on. -/
def Closes : List Frame → Bytes → Bytes → Prop
  | [], s, rest => s = rest
  | f :: fs, s, rest => ∃ is t, Inside false f is s t ∧ Closes fs t rest

def Formed (s : Bytes) : Prop := ∀ frames rest,
  (passValue frames s = .ok rest → ∃ t, Takes s t ∧ Closes frames t rest) ∧
  (passRest frames s = .ok rest → Closes frames s rest)

theorem passValue_form_of {s : Bytes} (ih : ∀ t : Bytes, t.length < s.length → Formed t)
    {frames : List Frame} {rest : Bytes} (h : passValue frames s = .ok rest) :
    ∃ t, Takes s t ∧ Closes frames t rest := by
  have h0 := length_skipBlank_le s
  unfold passValue at h
  split at h
  · cases h
  next c r hs =>
  rw [hs, List.length_cons] at h0
  obtain ⟨b, hb, rfl⟩ := skipBlank_form hs
  split at h
  · split at h
    · cases h
    next after hscalar =>
    have hlt := passScalar_takes hscalar
    rw [List.length_cons] at hlt
    exact ⟨after, (passScalar_form hscalar).behind hb, (ih after (by omega) frames rest).2 h⟩
  next f hopened =>
  have h1 := length_skipBlank_le r
  obtain rfl := opened_form hopened
  split at h
  · cases h
  next d after hr =>
  rw [hr, List.length_cons] at h1
  obtain ⟨b', hb', rfl⟩ := skipBlank_form hr
  split at h
  · next hclosing =>
    subst hclosing
    have hinside : Inside true f [] (b' ++ f.closing :: after) after := .close true hb'
    exact ⟨after, hinside.takes.behind hb, (ih after (by omega) frames rest).2 h⟩
  · split at h
    · cases h
    next inner hname =>
    have hle := passName_takes hname
    rw [List.length_cons] at hle
    obtain ⟨label, hl, heq⟩ := passName_form hname
    obtain ⟨t, ht, is, u, hinside, hcloses⟩ := (ih inner (by omega) (f :: frames) rest).1 h
    rw [heq]
    obtain ⟨j, hj⟩ := hinside.itemBehind true hb' hl rfl ht
    exact ⟨u, hj.takes.behind hb, hcloses⟩

theorem passRest_form_of {s : Bytes} (ih : ∀ t : Bytes, t.length < s.length → Formed t)
    {frames : List Frame} {rest : Bytes} (h : passRest frames s = .ok rest) :
    Closes frames s rest := by
  unfold passRest at h
  cases frames with
  | nil =>
    cases h
    rfl
  | cons f fs =>
    simp only at h
    have h0 := length_skipBlank_le s
    split at h
    · cases h
    next c r hs =>
    rw [hs, List.length_cons] at h0
    obtain ⟨b, hb, rfl⟩ := skipBlank_form hs
    split at h
    · next hcomma =>
      subst hcomma
      split at h
      · cases h
      next inner hname =>
      have hle := passName_takes hname
      obtain ⟨label, hl, rfl⟩ := passName_form hname
      obtain ⟨t, ht, is, u, hinside, hcloses⟩ := (ih inner (by omega) (f :: fs) rest).1 h
      obtain ⟨j, hj⟩ := hinside.item false hl ⟨b, hb, rfl⟩ ht
      exact ⟨j :: is, u, hj, hcloses⟩
    · split at h
      · next hclosing =>
        subst hclosing
        exact ⟨[], r, .close false hb, (ih r (by omega) fs rest).2 h⟩
      · cases h

theorem formed (s : Bytes) : Formed s := by
  induction hn : s.length using Nat.strongRecOn generalizing s with
  | ind n ih =>
    have hless : ∀ t : Bytes, t.length < s.length → Formed t :=
      fun t ht => ih t.length (hn ▸ ht) t rfl
    exact fun frames rest => ⟨passValue_form_of hless, passRest_form_of hless⟩

theorem pass_form {s rest : Bytes} (h : pass s = .ok rest) : Takes s rest := by
  obtain ⟨t, ht, rfl⟩ := (formed s [] rest).1 h
  exact ht

end Consignment.Json
