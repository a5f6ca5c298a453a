import Consignment.Proofs.Json.Accepted
import Consignment.Proofs.Json.Scalar

/-! Whatever the grammar allows is passed over to its end and no further. So a document is made of
its items in one way only. -/
namespace Consignment.Json

def isMark (c : UInt8) : Bool := c = 0x65 || c = 0x45

def Apart (s : Bytes) : Prop := Avoids (fun c => isDigit c || c = 0x2e || isMark c) s

/-! ## Blanks and words -/

theorem isBlank_of {b : Bytes} (h : Blanks b) : ∀ c ∈ b, isBlank c = true := by
  intro c hc
  simpa [isBlank, or_assoc] using h c hc

theorem skipBlank_behind {b : Bytes} (h : Blanks b) (s : Bytes) :
    skipBlank (b ++ s) = skipBlank s := by
  rw [skipBlank, List.dropWhile_append_of_pos (isBlank_of h)]
  rfl

theorem skipBlank_stop {b : Bytes} (h : Blanks b) {c : UInt8} (hc : isBlank c = false) (s : Bytes) :
    skipBlank (b ++ c :: s) = c :: s := by
  rw [skipBlank_behind h, skipBlank_cons hc]

theorem not_blank_of_skipBlank {s r : Bytes} {c : UInt8} (h : skipBlank s = c :: r) :
    isBlank c = false := by
  have hhead := List.head?_dropWhile_not isBlank s
  rw [skipBlank] at h
  simpa [h] using hhead

theorem word_complete (w rest : Bytes) : word w (w ++ rest) = .ok rest := by
  induction w with
  | nil => rfl
  | cons c w ih => simpa [word] using ih

/-! ## Texts -/

theorem hexValue?_isSome {c : UInt8} (h : IsHexDigit c) : (hexValue? c).isSome := by
  unfold hexValue?
  split
  · rfl
  split
  · rfl
  split
  · rfl
  next hdigit hupper hlower => exact (h.elim hdigit (Or.elim · hupper hlower)).elim

theorem codeUnit?_isSome {a b c d : UInt8} (h : ∀ x ∈ [a, b, c, d], IsHexDigit x) :
    (codeUnit? a b c d).isSome := by
  obtain ⟨u, hu⟩ := Option.isSome_iff_exists.1 (hexValue?_isSome (h a (by simp)))
  obtain ⟨v, hv⟩ := Option.isSome_iff_exists.1 (hexValue?_isSome (h b (by simp)))
  obtain ⟨w, hw⟩ := Option.isSome_iff_exists.1 (hexValue?_isSome (h c (by simp)))
  obtain ⟨x, hx⟩ := Option.isSome_iff_exists.1 (hexValue?_isSome (h d (by simp)))
  simp [codeUnit?, hu, hv, hw, hx]

theorem passText_escaped {e : UInt8} {s rest : Bytes} (h : passEscape (e :: s) = .ok rest) :
    passText (0x5c :: e :: s) = passText rest := by
  rw [passText]
  simp only [show ¬ (0x5c : UInt8) = 0x22 by decide, show ¬ (0x5c : UInt8) < 0x20 by decide,
    if_false, if_true]
  split <;> simp_all

theorem passText_complete {q : Bytes} (h : IsQuoted q) (rest : Bytes) :
    passText (q ++ 0x22 :: rest) = .ok rest := by
  induction h with
  | nothing => simp [passText]
  | plain hcontrol hquote hslash _ ih =>
    rw [List.cons_append, passText]
    simpa [hcontrol, hquote, hslash] using ih
  | @short e t he _ ih =>
    have hall : ∀ e ∈ shorthands, e ≠ 0x75 ∧ (shorthand? e).isSome := by decide +kernel
    obtain ⟨hne, hshort⟩ := hall e he
    have hescape : passEscape (e :: (t ++ 0x22 :: rest)) = .ok (t ++ 0x22 :: rest) := by
      simp [passEscape, hne, hshort]
    rw [List.cons_append, List.cons_append, passText_escaped hescape]
    exact ih
  | @unit a b c d t hhex _ ih =>
    have hescape : passEscape (0x75 :: a :: b :: c :: d :: (t ++ 0x22 :: rest)) =
        .ok (t ++ 0x22 :: rest) := by simp [passEscape, codeUnit?_isSome hhex]
    simp only [List.cons_append]
    rw [passText_escaped hescape]
    exact ih

/-! ## Numerals -/

theorem isDigit_of {ds : Bytes} (h : Digits ds) : ∀ d ∈ ds, isDigit d = true := by
  intro d hd
  simpa [isDigit] using h.2 d hd

theorem wholeDigits_complete (atEnd : Cause) {w : Bytes} (hw : IsWhole w) {rest : Bytes}
    (h : Avoids isDigit rest) : wholeDigits atEnd (w ++ rest) = .ok (w, rest) := by
  cases hw with
  | zero => simp [wholeDigits, head_not_digit h]
  | @digits d ds hne hds =>
    have hdigits := isDigit_of hds
    have hmore : ∀ e ∈ ds, isDigit e = true := fun e he => hdigits e (by simp [he])
    obtain ⟨htake, hdrop⟩ := takeWhile_digits hmore h
    simp [wholeDigits, hne, hdigits d (by simp), htake, hdrop]

theorem partDigits_complete (atEnd : Cause) {p : Bytes} (hp : IsPart p) {rest : Bytes}
    (h : Avoids (fun c => isDigit c || c = 0x2e) rest) :
    partDigits atEnd (p ++ rest) = .ok (p.tail, rest) := by
  cases hp with
  | nothing =>
    cases rest with
    | nil => rfl
    | cons c rest =>
      have hc : c ≠ 0x2e := by
        rintro rfl
        cases h _ rfl
      simp [partDigits, hc]
  | @digits ds hds =>
    have hrest : Avoids isDigit rest := fun c hc => (Bool.or_eq_false_iff.1 (h c hc)).1
    obtain ⟨htake, hdrop⟩ := takeWhile_digits (isDigit_of hds) hrest
    simp [partDigits, htake, hdrop, hds.1]

theorem exponentDigits_complete (atEnd : Cause) (negative : Bool) {ds : Bytes} (hds : Digits ds)
    {rest : Bytes} (h : Avoids isDigit rest) :
    exponentDigits atEnd negative (ds ++ rest) = .ok (some (negative, ds), rest) := by
  have hdigits := isDigit_of hds
  cases ds with
  | nil => exact absurd rfl hds.1
  | cons d ds =>
    have hmore : ∀ e ∈ ds, isDigit e = true := fun e he => hdigits e (by simp [he])
    obtain ⟨htake, hdrop⟩ := takeWhile_digits hmore h
    simp [exponentDigits, hdigits d (by simp), htake, hdrop]

theorem exponentPart_complete (atEnd : Cause) {e : Bytes} (he : IsExponent e) :
    ∃ x, ∀ rest, Apart rest → exponentPart atEnd (e ++ rest) = .ok (x, rest) := by
  cases he with
  | nothing =>
    refine ⟨none, fun rest h => ?_⟩
    cases rest with
    | nil => rfl
    | cons c rest =>
      have hc := h c rfl
      simp only [isMark, Bool.or_eq_false_iff, decide_eq_false_iff_not] at hc
      simp [exponentPart, hc.2]
  | @digits mark sign ds hmark hsign hds =>
    have hrest : ∀ rest, Apart rest → Avoids isDigit rest := by
      intro rest h c hc
      exact (Bool.or_eq_false_iff.1 (Bool.or_eq_false_iff.1 (h c hc)).1).1
    have hstart : ¬ (mark ≠ 0x65 ∧ mark ≠ 0x45) := by
      rintro ⟨h1, h2⟩
      exact hmark.elim h1 h2
    rcases hsign with rfl | rfl | rfl
    · refine ⟨some (false, ds), fun rest h => ?_⟩
      obtain ⟨d, ds', hcons⟩ := List.exists_cons_of_ne_nil hds.1
      have hd := isDigit_of hds d (by simp [hcons])
      have hminus : d ≠ 0x2d := by
        rintro rfl
        cases hd
      have hplus : d ≠ 0x2b := by
        rintro rfl
        cases hd
      have hdigits := exponentDigits_complete atEnd false hds (hrest rest h)
      rw [hcons] at hdigits ⊢
      simpa [exponentPart, hstart, hminus, hplus] using hdigits
    · refine ⟨some (false, ds), fun rest h => ?_⟩
      simpa [exponentPart, hstart] using exponentDigits_complete atEnd false hds (hrest rest h)
    · refine ⟨some (true, ds), fun rest h => ?_⟩
      simpa [exponentPart, hstart] using exponentDigits_complete atEnd true hds (hrest rest h)

theorem IsExponent.avoids {e rest : Bytes} (h : IsExponent e) (hrest : Apart rest) :
    Avoids (fun c => isDigit c || c = 0x2e) (e ++ rest) := by
  cases h with
  | nothing => exact fun c hc => (Bool.or_eq_false_iff.1 (hrest c hc)).1
  | digits hmark => rcases hmark with rfl | rfl <;> exact avoids_cons (by decide) _

theorem IsPart.avoids {p rest : Bytes} (h : IsPart p)
    (hrest : Avoids (fun c => isDigit c || c = 0x2e) rest) : Avoids isDigit (p ++ rest) := by
  cases h with
  | nothing => exact fun c hc => (Bool.or_eq_false_iff.1 (hrest c hc)).1
  | digits => exact avoids_cons (by decide) _

theorem numeral_complete (atEnd : Cause) {v : Bytes} (h : IsNumeral v) :
    ∃ n, ∀ rest, Apart rest → numeral atEnd (v ++ rest) = .ok (n, rest) := by
  obtain ⟨hsign, hwhole, hpart, hexponent⟩ := h
  rename_i sign whole part exponent
  obtain ⟨x, hx⟩ := exponentPart_complete atEnd hexponent
  refine ⟨⟨sign = [0x2d], whole, part.tail, x⟩, fun rest hrest => ?_⟩
  have havoids := hexponent.avoids hrest
  have hw := wholeDigits_complete atEnd hwhole (hpart.avoids havoids)
  have hp := partDigits_complete atEnd hpart havoids
  rcases hsign with rfl | rfl
  · have hhead : (whole ++ (part ++ (exponent ++ rest))).head? ≠ some 0x2d := by
      cases hwhole with
      | zero => simp
      | @digits d ds _ hds =>
        have hd := isDigit_of hds d (by simp)
        rintro heq
        obtain rfl : d = 0x2d := by simpa using heq
        cases hd
    simp only [List.nil_append, List.append_assoc, numeral, hhead, if_false, decide_false,
      hw, hp, hx rest hrest]
    simp
  · simp [numeral, hw, hp, hx rest hrest]

/-! ## Values -/

theorem passScalar_text {t : Bytes} (h : IsText t) (rest : Bytes) :
    passScalar (t ++ rest) = .ok rest := by
  obtain ⟨hq⟩ := h
  simpa [passScalar] using passText_complete hq rest

theorem IsNumeral.starts {v : Bytes} (h : IsNumeral v) :
    ∃ c cs, v = c :: cs ∧ (c = 0x2d ∨ isDigit c = true) := by
  obtain ⟨hsign, hwhole, -, -⟩ := h
  rcases hsign with rfl | rfl
  · cases hwhole with
    | zero => exact ⟨0x30, _, rfl, .inr rfl⟩
    | digits _ hds => exact ⟨_, _, rfl, .inr (isDigit_of hds _ (by simp))⟩
  · exact ⟨0x2d, _, rfl, .inl rfl⟩

theorem passScalar_numeral {v rest : Bytes} (h : IsNumeral v) (hrest : Apart rest) :
    passScalar (v ++ rest) = .ok rest := by
  obtain ⟨n, hn⟩ := numeral_complete .invalidNumber h
  have hread := hn rest hrest
  obtain ⟨c, cs, rfl, hstart⟩ := h.starts
  have hne : ∀ d : UInt8, d = 0x6e ∨ d = 0x74 ∨ d = 0x66 ∨ d = 0x22 → c ≠ d := by
    rintro d hd rfl
    rcases hd with rfl | rfl | rfl | rfl <;> rcases hstart with hc | hc <;> cases hc
  rw [List.cons_append] at hread ⊢
  rw [passScalar, if_neg (hne _ (by simp)), if_neg (hne _ (by simp)), if_neg (hne _ (by simp)),
    if_neg (hne _ (by simp)), if_pos hstart, hread]
  rfl

theorem passColon_complete {b : Bytes} (h : Blanks b) (rest : Bytes) :
    passColon (b ++ 0x3a :: rest) = .ok rest := by
  rw [passColon, skipBlank_stop h (by decide)]
  rfl

theorem passName_complete {f : Frame} {label : Bytes} (h : IsLabel f label) (rest : Bytes) :
    passName f (label ++ rest) = .ok rest := by
  cases h with
  | nothing => rfl
  | @name b t b' hb ht hb' =>
    obtain ⟨hq⟩ := ht
    have hcolon := passColon_complete hb' rest
    have htext := passText_complete hq (b' ++ 0x3a :: rest)
    simp only [List.append_assoc, List.cons_append, List.nil_append] at htext ⊢
    rw [passName, skipBlank_stop hb (by decide)]
    simp [htext, hcolon]

theorem IsValue.starts {v : Bytes} (h : IsValue v) :
    ∃ c cs, v = c :: cs ∧ isBlank c = false ∧ c ≠ 0x5d := by
  cases h with
  | null => exact ⟨_, _, rfl, by decide, by decide⟩
  | yes => exact ⟨_, _, rfl, by decide, by decide⟩
  | no => exact ⟨_, _, rfl, by decide, by decide⟩
  | numeral hv =>
    obtain ⟨c, cs, rfl, rfl | hdigit⟩ := hv.starts
    · exact ⟨_, _, rfl, by decide, by decide⟩
    · refine ⟨_, _, rfl, not_blank_of_isDigit hdigit, ?_⟩
      rintro rfl
      cases hdigit
  | text ht =>
    cases ht
    exact ⟨_, _, rfl, by decide, by decide⟩
  | empty f => cases f <;> exact ⟨_, _, rfl, by decide, by decide⟩
  | filled f => cases f <;> exact ⟨_, _, rfl, by decide, by decide⟩

theorem IsLabel.enter {f : Frame} {label b v : Bytes} (hl : IsLabel f label) (hb : Blanks b)
    (hv : IsValue v) (rest : Bytes) :
    ∃ d r b', skipBlank (label ++ (b ++ (v ++ rest))) = d :: r ∧ isBlank d = false ∧
      d ≠ f.closing ∧ Blanks b' ∧ passName f (d :: r) = .ok (b' ++ (v ++ rest)) := by
  cases hl with
  | nothing =>
    obtain ⟨c, cs, rfl, hblank, hne⟩ := hv.starts
    exact ⟨c, cs ++ rest, [], skipBlank_stop hb hblank _, hblank, hne, .nil, rfl⟩
  | @name b₁ t b₂ hb₁ ht hb₂ =>
    have hname := passName_complete (.name .nil ht hb₂) (b ++ (v ++ rest))
    obtain ⟨hq⟩ := ht
    refine ⟨0x22, _, b, ?_, by decide, by decide, hb, hname⟩
    simp [skipBlank_stop hb₁ (show isBlank 0x22 = false by decide)]

section Steps
variable {frames fs : List Frame} {f : Frame} {c d : UInt8} {s r t rest : Bytes}

theorem passValue_scalar (hs : skipBlank s = c :: r) (hc : Frame.opened? c = none)
    (hpass : passScalar (c :: r) = .ok rest) : passValue frames s = passRest frames rest := by
  rw [passValue]
  split
  · simp_all
  · split
    · split <;> simp_all
    · simp_all

theorem passValue_empty (hs : skipBlank s = f.opening :: r) (hr : skipBlank r = f.closing :: t) :
    passValue frames s = passRest frames t := by
  have hopened : Frame.opened? f.opening = some f := by cases f <;> rfl
  rw [passValue]
  split
  · simp_all
  · next hs' =>
    obtain ⟨rfl, rfl⟩ := List.cons.inj (hs.symm.trans hs')
    split
    · simp_all
    · next hf =>
      obtain rfl := Option.some.inj (hopened.symm.trans hf)
      split <;> simp_all

theorem passValue_filled (hs : skipBlank s = f.opening :: r) (hr : skipBlank r = d :: t)
    (hd : d ≠ f.closing) (hname : passName f (d :: t) = .ok rest) :
    passValue frames s = passValue (f :: frames) rest := by
  have hopened : Frame.opened? f.opening = some f := by cases f <;> rfl
  rw [passValue]
  split
  · simp_all
  · next hs' =>
    obtain ⟨rfl, rfl⟩ := List.cons.inj (hs.symm.trans hs')
    split
    · simp_all
    · next hf =>
      obtain rfl := Option.some.inj (hopened.symm.trans hf)
      split
      · simp_all
      · next hr' =>
        obtain ⟨rfl, rfl⟩ := List.cons.inj (hr.symm.trans hr')
        rw [if_neg hd]
        split <;> simp_all

theorem passRest_comma (hs : skipBlank s = 0x2c :: r) (hname : passName f r = .ok rest) :
    passRest (f :: fs) s = passValue (f :: fs) rest := by
  rw [passRest]
  split
  · simp_all
  · next hs' =>
    obtain ⟨rfl, rfl⟩ := List.cons.inj (hs.symm.trans hs')
    rw [if_pos rfl]
    split <;> simp_all

theorem passRest_close (hs : skipBlank s = f.closing :: r) :
    passRest (f :: fs) s = passRest fs r := by
  have hcomma : f.closing ≠ 0x2c := by cases f <;> decide
  rw [passRest]
  split
  · simp_all
  · next hs' =>
    obtain ⟨rfl, rfl⟩ := List.cons.inj (hs.symm.trans hs')
    rw [if_neg hcomma, if_pos rfl]

end Steps

def Passes (v : Bytes) : Prop := ∀ frames b rest, Blanks b → Apart rest →
  passValue frames (b ++ (v ++ rest)) = passRest frames rest

theorem Passes.of_scalar {v : Bytes} (hv : IsValue v)
    (hopen : ∀ c cs, v = c :: cs → Frame.opened? c = none)
    (h : ∀ rest, Apart rest → passScalar (v ++ rest) = .ok rest) : Passes v := by
  intro frames b rest hb hrest
  obtain ⟨c, cs, rfl, hblank, -⟩ := hv.starts
  exact passValue_scalar (skipBlank_stop hb hblank _) (hopen c cs rfl) (h rest hrest)

theorem Apart.behind {b s : Bytes} (hb : Blanks b) (h : Apart s) : Apart (b ++ s) := by
  cases b with
  | nil => exact h
  | cons c b =>
    rw [List.cons_append]
    rcases hb c (by simp) with rfl | rfl | rfl | rfl <;> exact avoids_cons (by decide) _

theorem Blanks.apart {b : Bytes} (h : Blanks b) : Apart b := by
  simpa using Apart.behind h (avoids_nil _)

theorem Frame.not_blank_opening (f : Frame) : isBlank f.opening = false := by
  cases f <;> decide

theorem Frame.closing_facts (f : Frame) :
    isBlank f.closing = false ∧ ∀ s, Apart (f.closing :: s) := by
  cases f <;> exact ⟨by decide, avoids_cons (by decide)⟩

theorem apart_items (f : Frame) (is : List Bytes) (rest : Bytes) :
    Apart (is.flatMap (0x2c :: ·) ++ f.closing :: rest) := by
  cases is with
  | nil => exact f.closing_facts.2 rest
  | cons i is => exact avoids_cons (by decide) _

theorem Inside.apart {f : Frame} {is : List Bytes} {s rest : Bytes}
    (h : Inside false f is s rest) : Apart s := by
  obtain ⟨b, hb, -, rfl⟩ := h
  exact (apart_items f is rest).behind hb

def ItemPasses (f : Frame) (i : Bytes) : Prop :=
  ∃ label b v b', IsLabel f label ∧ Blanks b ∧ IsValue v ∧ Passes v ∧ Blanks b' ∧
    i = label ++ (b ++ (v ++ b'))

theorem passRest_items {f : Frame} {is : List Bytes} (h : ∀ i ∈ is, ItemPasses f i)
    (fs : List Frame) {b : Bytes} (hb : Blanks b) (rest : Bytes) :
    passRest (f :: fs) (b ++ (is.flatMap (0x2c :: ·) ++ f.closing :: rest)) = passRest fs rest := by
  induction is generalizing b with
  | nil => exact passRest_close (skipBlank_stop hb f.closing_facts.1 rest)
  | cons i is ih =>
    obtain ⟨⟨label, b₁, v, b₂, hl, hb₁, hv, hpasses, hb₂, rfl⟩, his⟩ := List.forall_mem_cons.1 h
    have hmore : Apart (b₂ ++ (is.flatMap (0x2c :: ·) ++ f.closing :: rest)) :=
      (apart_items f is rest).behind hb₂
    have hname := passName_complete hl
      (b₁ ++ (v ++ (b₂ ++ (is.flatMap (0x2c :: ·) ++ f.closing :: rest))))
    have hcomma : passRest (f :: fs) _ = passValue (f :: fs) _ :=
      passRest_comma (skipBlank_stop hb (show isBlank 0x2c = false by decide) _) hname
    simp only [List.flatMap_cons, List.cons_append, List.append_assoc] at hcomma ⊢
    rw [hcomma, hpasses (f :: fs) b₁ _ hb₁ hmore]
    exact ih his hb₂

theorem passes_of_items {f : Frame} {i : Bytes} {is : List Bytes}
    (h : ∀ j ∈ i :: is, ItemPasses f j) : Passes (f.enclose (i ++ is.flatMap (0x2c :: ·))) := by
  intro frames b rest hb hrest
  obtain ⟨⟨label, b₁, v, b₂, hl, hb₁, hv, hpasses, hb₂, rfl⟩, his⟩ := List.forall_mem_cons.1 h
  obtain ⟨d, r, b', hd, -, hne, hb', hname⟩ := hl.enter hb₁ hv
    (b₂ ++ (is.flatMap (0x2c :: ·) ++ f.closing :: rest))
  have hmore : Apart (b₂ ++ (is.flatMap (0x2c :: ·) ++ f.closing :: rest)) :=
    (apart_items f is rest).behind hb₂
  have hfilled : passValue frames _ = passValue (f :: frames) _ :=
    passValue_filled (skipBlank_stop hb f.not_blank_opening _) hd hne hname
  simp only [Frame.enclose_eq, List.cons_append, List.append_assoc, List.nil_append] at hfilled ⊢
  rw [hfilled, hpasses (f :: frames) b' _ hb' hmore]
  exact passRest_items his frames hb₂ rest

theorem passes_of_empty (f : Frame) {b : Bytes} (h : Blanks b) : Passes (f.enclose b) := by
  intro frames b' rest hb' _
  have hempty : passValue frames _ = passRest frames _ :=
    passValue_empty (skipBlank_stop hb' f.not_blank_opening _)
      (skipBlank_stop h f.closing_facts.1 rest)
  simp only [Frame.enclose_eq, List.cons_append, List.append_assoc, List.nil_append]
  exact hempty

theorem length_le_of_mem {i : Bytes} {is : List Bytes} {j : Bytes} (h : j ∈ i :: is) :
    j.length ≤ (i ++ is.flatMap (0x2c :: ·)).length := by
  rcases List.mem_cons.1 h with rfl | hj
  · simp
  · have hsub : (0x2c :: j).Sublist (is.flatMap (0x2c :: ·)) :=
      List.sublist_flatten_of_mem (List.mem_map_of_mem hj)
    have hle := hsub.length_le
    rw [List.length_cons] at hle
    rw [List.length_append]
    omega

theorem IsValue.passes {v : Bytes} (h : IsValue v) : Passes v := by
  induction hn : v.length using Nat.strongRecOn generalizing v with
  | ind n ih =>
    cases h with
    | null => exact .of_scalar .null (by rintro _ _ ⟨⟩; decide) fun rest _ => word_complete ull rest
    | yes => exact .of_scalar .yes (by rintro _ _ ⟨⟩; decide) fun rest _ => word_complete rue rest
    | no => exact .of_scalar .no (by rintro _ _ ⟨⟩; decide) fun rest _ => word_complete alse rest
    | numeral hv =>
      refine .of_scalar (.numeral hv) ?_ fun rest => passScalar_numeral hv
      rintro c cs rfl
      obtain ⟨d, ds, heq, hstart⟩ := hv.starts
      obtain ⟨rfl, -⟩ := List.cons.inj heq
      unfold Frame.opened?
      rcases hstart with rfl | hdigit
      · decide
      · rw [if_neg, if_neg] <;> rintro rfl <;> cases hdigit
    | text ht =>
      refine .of_scalar (.text ht) ?_ fun rest _ => passScalar_text ht rest
      rintro c cs rfl
      cases ht
      decide
    | empty f hb => exact passes_of_empty f hb
    | filled f hitems =>
      refine passes_of_items fun j hj => ?_
      have hle := length_le_of_mem hj
      obtain ⟨hl, hb, hv, hb'⟩ := hitems j hj
      refine ⟨_, _, _, _, hl, hb, hv, ih _ ?_ hv rfl, hb', rfl⟩
      rw [← hn, Frame.enclose_eq]
      simp only [List.length_append, List.length_cons, List.length_nil] at hle ⊢
      omega

theorem pass_iff {s rest : Bytes} (h : Apart rest) : pass s = .ok rest ↔ Takes s rest := by
  refine ⟨pass_form, ?_⟩
  rintro ⟨b, v, hb, hv, rfl⟩
  rw [pass, hv.passes [] b rest hb h, passRest]

/-! ## Items -/

def Follows (s : Bytes) : Prop := Apart s ∧ skipBlank s = s

theorem follows_items (f : Frame) (is : List Bytes) (rest : Bytes) :
    Follows (is.flatMap (0x2c :: ·) ++ f.closing :: rest) := by
  refine ⟨apart_items f is rest, ?_⟩
  cases is with
  | nil => exact skipBlank_cons f.closing_facts.1 rest
  | cons i is => exact skipBlank_cons (by decide) _

theorem IsItem.scan {f : Frame} {i r : Bytes} (h : IsItem f i) (hr : Follows r) :
    ∃ s t, passName f (i ++ r) = .ok s ∧ pass s = .ok t ∧ skipBlank t = r := by
  obtain ⟨hl, hb, hv, hb'⟩ := h
  rename_i label b v b'
  refine ⟨b ++ (v ++ (b' ++ r)), b' ++ r, ?_, ?_, ?_⟩
  · simpa using passName_complete hl (b ++ (v ++ (b' ++ r)))
  · exact (pass_iff (hr.1.behind hb')).2 ((hv.takes _).behind hb)
  · rw [skipBlank_behind hb', hr.2]

theorem IsItem.unique {f : Frame} {i j r t : Bytes} (hi : IsItem f i) (hj : IsItem f j)
    (hr : Follows r) (ht : Follows t) (h : i ++ r = j ++ t) : i = j ∧ r = t := by
  obtain ⟨s, u, hname, hpass, rfl⟩ := hi.scan hr
  obtain ⟨s', u', hname', hpass', rfl⟩ := hj.scan ht
  rw [h, hname'] at hname
  obtain rfl := Except.ok.inj hname
  obtain rfl := Except.ok.inj (hpass.symm.trans hpass')
  exact ⟨List.append_cancel_right h, rfl⟩

theorem items_unique {f : Frame} {is js : List Bytes} (his : ∀ i ∈ is, IsItem f i)
    (hjs : ∀ j ∈ js, IsItem f j) {r t : Bytes}
    (h : is.flatMap (0x2c :: ·) ++ f.closing :: r = js.flatMap (0x2c :: ·) ++ f.closing :: t) :
    is = js := by
  have hcomma : f.closing ≠ 0x2c := by cases f <;> decide
  induction is generalizing js with
  | nil =>
    cases js with
    | nil => rfl
    | cons j js => exact absurd (List.cons.inj h).1 hcomma
  | cons i is ih =>
    cases js with
    | nil => exact absurd (List.cons.inj h).1.symm hcomma
    | cons j js =>
      obtain ⟨hi, his'⟩ := List.forall_mem_cons.1 his
      obtain ⟨hj, hjs'⟩ := List.forall_mem_cons.1 hjs
      simp only [List.flatMap_cons, List.cons_append, List.append_assoc, List.cons.injEq,
        true_and] at h
      obtain ⟨rfl, hrest⟩ := hi.unique hj (follows_items f is r) (follows_items f js t) h
      rw [ih his' hjs' hrest]

theorem IsItem.ne_closing {f : Frame} {i : Bytes} (h : IsItem f i) {b : Bytes} (hb : Blanks b)
    (r t : Bytes) : i ++ r ≠ b ++ f.closing :: t := by
  intro heq
  obtain ⟨hl, hb₁, hv, -⟩ := h
  rename_i label b₁ v b₂
  obtain ⟨d, u, -, hd, -, hne, -⟩ := hl.enter hb₁ hv (b₂ ++ r)
  rw [show label ++ (b₁ ++ (v ++ (b₂ ++ r))) = label ++ (b₁ ++ (v ++ b₂)) ++ r by simp, heq,
    skipBlank_stop hb f.closing_facts.1] at hd
  exact hne (List.cons.inj hd).1.symm

theorem Holds.unique {f : Frame} {is js : List Bytes} {v w r t : Bytes} (hv : Holds f is v)
    (hw : Holds f js w) (h : v ++ r = w ++ t) : is = js := by
  cases hv with
  | nothing hb =>
    cases hw with
    | nothing => rfl
    | items hjs =>
      simp only [Frame.enclose_eq, List.cons_append, List.append_assoc, List.cons.injEq,
        true_and, List.nil_append] at h
      exact absurd h.symm ((List.forall_mem_cons.1 hjs).1.ne_closing hb _ _)
  | @items i is his =>
    cases hw with
    | nothing hb =>
      simp only [Frame.enclose_eq, List.cons_append, List.append_assoc, List.cons.injEq,
        true_and, List.nil_append] at h
      exact absurd h ((List.forall_mem_cons.1 his).1.ne_closing hb _ _)
    | @items j js hjs =>
      obtain ⟨hi, his'⟩ := List.forall_mem_cons.1 his
      obtain ⟨hj, hjs'⟩ := List.forall_mem_cons.1 hjs
      simp only [Frame.enclose_eq, List.cons_append, List.append_assoc, List.cons.injEq,
        true_and, List.nil_append] at h
      obtain ⟨rfl, hrest⟩ := hi.unique hj (follows_items f is _) (follows_items f js _) h
      rw [items_unique his' hjs' hrest]

theorem Holds.starts {f : Frame} {is : List Bytes} {v : Bytes} (h : Holds f is v) :
    ∃ cs, v = f.opening :: cs := by
  cases h <;> exact ⟨_, Frame.enclose_eq f _⟩

theorem IsDocument.unique {f g : Frame} {is js : List Bytes} {doc : Bytes}
    (h : IsDocument f is doc) (h' : IsDocument g js doc) : f = g ∧ is = js := by
  obtain ⟨b, v, b', hb, hv, -, rfl⟩ := h
  obtain ⟨c, w, c', hc, hw, -, heq⟩ := h'
  obtain ⟨vs, rfl⟩ := hv.starts
  obtain ⟨ws, rfl⟩ := hw.starts
  have hskip := congrArg skipBlank heq
  rw [List.cons_append, List.cons_append, skipBlank_stop hb f.not_blank_opening,
    skipBlank_stop hc g.not_blank_opening] at hskip
  have hframe : f.opening = g.opening := (List.cons.inj hskip).1
  obtain rfl : f = g := by
    cases f <;> cases g <;> first | rfl | cases hframe
  exact ⟨rfl, hv.unique hw hskip⟩

end Consignment.Json
