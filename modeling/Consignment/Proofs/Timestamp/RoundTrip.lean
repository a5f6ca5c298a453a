import Mathlib.Algebra.Group.Nat.Defs
import Consignment.Proofs.Text
import Consignment.Timestamp.Parser

/-! A written timestamp is read as the moment it was written for. -/
namespace Consignment.Timestamp

/-! ## Numbers -/

def figures (width n : Nat) : List Char :=
  List.replicate (width - (Nat.toDigits 10 n).length) '0' ++ Nat.toDigits 10 n

theorem toList_padded (width n : Nat) : (padded width n).toList = figures width n := by
  simp [padded, figures, ← String.length_toList]

theorem isDigit_of_mem_figures {width n : Nat} {c : Char} (h : c ∈ figures width n) :
    c.isDigit = true := Text.isDigit_of_mem_zeros_digits h

theorem length_figures {width n : Nat} (hw : 0 < width) (hn : n < 10 ^ width) :
    (figures width n).length = width := by
  have hle := (Nat.length_toDigits_le_iff (n := n) (by decide : 1 < 10) hw).2 hn
  simp only [figures, List.length_append, List.length_replicate]
  omega

theorem figures_ne_nil (width n : Nat) : figures width n ≠ [] := by
  intro h
  exact Nat.toDigits_ne_nil (List.append_eq_nil_iff.1 h).2

theorem value_figures (width n : Nat) : value (figures width n) = n :=
  Text.ofDigitChars_zeros_digits

theorem trimLeft_figures (width n : Nat) (s : List Char) :
    Text.trimLeft (figures width n ++ s) = figures width n ++ s := by
  apply Text.trimLeft_append_of_solid (figures_ne_nil width n)
  intro c hc
  exact Text.isBlank_of_isDigit (isDigit_of_mem_figures hc)

theorem someDigits_figures (width n : Nat) (s : List Char) :
    someDigits (figures width n ++ s) (figures width n) = .ok (n, s) := by
  have hne := figures_ne_nil width n
  rw [someDigits, if_neg (by simp [hne]), if_neg hne, value_figures, List.drop_left]

theorem digits_figures {width n : Nat} (hw : 0 < width) (hn : n < 10 ^ width) (s : List Char) :
    digits width (figures width n ++ s) = .ok (n, s) := by
  have hlength := length_figures hw hn
  have htake : (figures width n ++ s).take width = figures width n := by
    rw [List.take_append_of_le_length (by omega), List.take_of_length_le (by omega)]
  have hall : (figures width n).takeWhile Char.isDigit = figures width n := by
    rw [← List.append_nil (figures width n),
      List.takeWhile_append_of_pos fun c hc => isDigit_of_mem_figures hc]
    rfl
  rw [digits, htake, hall, someDigits_figures]

theorem takeWhile_figures (width n : Nat) {c : Char} (hc : c.isDigit = false) (s : List Char) :
    (figures width n ++ c :: s).takeWhile Char.isDigit = figures width n := by
  rw [List.takeWhile_append_of_pos fun d hd => isDigit_of_mem_figures hd]
  simp [hc]

theorem allDigits_figures (width n : Nat) {c : Char} (hc : c.isDigit = false) (s : List Char) :
    allDigits (figures width n ++ c :: s) = .ok (n, c :: s) := by
  rw [allDigits, takeWhile_figures width n hc, someDigits_figures]

theorem readNumber_figures {low high n : Nat} (hlow : low ≤ n) (hhigh : n ≤ high)
    (hn : n < 100) (s : List Char) : readNumber low high (figures 2 n ++ s) = .ok (n, s) := by
  rw [readNumber, trimLeft_figures, digits_figures (by decide) hn]
  simp [hlow, hhigh]

theorem mark_cons {c : Char} (h : Text.isBlank c = false) (s : List Char) :
    mark c (c :: s) = .ok s := by
  simp [mark, Text.trimLeft_cons h]

/-! ## Parts -/

theorem readYear_yearText {year : Int} (hlow : Calendar.firstYear ≤ year)
    (hhigh : year ≤ Calendar.lastYear) (s : List Char) :
    readYear ((yearText year).toList ++ '-' :: s) = .ok (year, '-' :: s) := by
  simp only [Calendar.firstYear, Calendar.lastYear] at hlow hhigh
  unfold yearText
  split
  · next h =>
    have hsmall : year.toNat < 10 ^ 4 := by omega
    rw [toList_padded, readYear, trimLeft_figures]
    have hdigits := digits_figures (by decide) hsmall ('-' :: s)
    cases hf : figures 4 year.toNat with
    | nil => exact absurd hf (figures_ne_nil 4 year.toNat)
    | cons c cs =>
      have hmem : c ∈ figures 4 year.toNat := by simp [hf]
      have hc := isDigit_of_mem_figures hmem
      rw [hf] at hdigits
      have hminus : c ≠ '-' := by
        rintro rfl
        cases hc
      have hplus : c ≠ '+' := by
        rintro rfl
        cases hc
      simp only [List.cons_append] at hdigits ⊢
      simp [hdigits, hminus, hplus, Except.map]
      omega
  · next h =>
    have hall := allDigits_figures 4 year.natAbs (show '-'.isDigit = false by decide) s
    by_cases hneg : year < 0
    · have hblank : Text.isBlank '-' = false := by decide
      have hrange : -0x80000000 ≤ (-1 : Int) * year.natAbs ∧
          (-1 : Int) * year.natAbs < 0x80000000 := by omega
      rw [if_pos hneg, String.toList_append, toList_padded]
      simp only [readYear, show "-".toList = ['-'] by decide, List.cons_append, List.nil_append,
        Text.trimLeft_cons hblank, hall, if_pos hrange]
      congr 2
      omega
    · have hblank : Text.isBlank '+' = false := by decide
      have hrange : -0x80000000 ≤ (1 : Int) * year.natAbs ∧
          (1 : Int) * year.natAbs < 0x80000000 := by omega
      rw [if_neg hneg, String.toList_append, toList_padded]
      simp only [readYear, show "+".toList = ['+'] by decide, List.cons_append, List.nil_append,
        Text.trimLeft_cons hblank, hall, if_pos hrange]
      congr 2
      omega

theorem readFraction_figures {width n : Nat} (hw : 0 < width) (hmax : width ≤ 9)
    (hn : n < 10 ^ width) (s : List Char) :
    readFraction ('.' :: (figures width n ++ 'Z' :: s)) = .ok (n * 10 ^ (9 - width), 'Z' :: s) := by
  have hlength := length_figures hw hn
  simp only [readFraction, takeWhile_figures width n (show 'Z'.isDigit = false by decide),
    someDigits_figures, Except.map, hlength]
  rw [List.take_of_length_le (by omega), value_figures]
  rfl

theorem readFraction_fractionText {nanosecond : Nat} (h : nanosecond < 1000000000) (s : List Char) :
    readFraction ((fractionText nanosecond).toList ++ 'Z' :: s) = .ok (nanosecond, 'Z' :: s) := by
  have hpoint : ∀ width n, ("." ++ padded width n).toList = '.' :: figures width n := by
    intro width n
    rw [String.toList_append, toList_padded]
    rfl
  unfold fractionText
  split
  · next hzero =>
    subst hzero
    rfl
  split
  · next hmillis =>
    rw [hpoint, List.cons_append, readFraction_figures (by decide) (by decide) (by omega)]
    congr 2
    omega
  split
  · next hmicros =>
    rw [hpoint, List.cons_append, readFraction_figures (by decide) (by decide) (by omega)]
    congr 2
    omega
  · rw [hpoint, List.cons_append, readFraction_figures (by decide) (by decide) (by omega)]
    congr 2
    omega

theorem shifted_zero {d : Date} {c : Clock} (hhour : c.hour < 24) (hminute : c.minute < 60) :
    shifted d c 0 = (d, c) := by
  have hlow : ¬ (c.hour * 60 + c.minute - 0 : Int) < 0 := by omega
  have hhigh : ¬ (1440 : Int) ≤ c.hour * 60 + c.minute - 0 := by omega
  have hnat : (c.hour * 60 + c.minute - 0 : Int).toNat = c.hour * 60 + c.minute := by omega
  have hhours : (c.hour * 60 + c.minute) / 60 = c.hour := by omega
  have hminutes : (c.hour * 60 + c.minute) % 60 = c.minute := by omega
  simp only [shifted, if_neg hlow, if_neg hhigh, hnat, hhours, hminutes]

theorem assemble_utc (t : Timestamp) : assemble t.date t.clock 0 = .ok t := by
  obtain ⟨hdate, hclock⟩ := Bool.and_eq_true_iff.1 t.valid
  have hbounds := hclock
  simp only [Clock.exists, Bool.and_eq_true, decide_eq_true_eq] at hbounds
  have hshifted : shifted t.date t.clock 0 = (t.date, t.clock) :=
    shifted_zero (by omega) (by omega)
  simp [assemble, hdate, hshifted, hclock]

/-! ## The whole -/

theorem toList_text (t : Timestamp) : t.text.toList =
    (yearText t.date.year).toList ++ '-' :: (figures 2 t.date.month ++ '-' ::
      (figures 2 t.date.day ++ 'T' :: (figures 2 t.clock.hour ++ ':' ::
        (figures 2 t.clock.minute ++ ':' :: (figures 2 t.clock.second ++
          ((fractionText t.clock.nanosecond).toList ++ ['Z'])))))) := by
  simp [text, toList_padded]

theorem readDate_text {d : Date} (h : d.exists = true) (s : List Char) :
    readDate ((yearText d.year).toList ++ '-' :: (figures 2 d.month ++ '-' ::
      (figures 2 d.day ++ s))) = .ok (d, s) := by
  simp only [Date.exists, Bool.and_eq_true, decide_eq_true_eq] at h
  obtain ⟨⟨⟨⟨⟨hlow, hhigh⟩, hmonth⟩, hmonth'⟩, hday⟩, hday'⟩ := h
  have hdays : Calendar.daysIn d.year d.month ≤ 31 := by
    unfold Calendar.daysIn
    repeat' split
    all_goals omega
  have hyear := readYear_yearText hlow hhigh (figures 2 d.month ++ '-' :: (figures 2 d.day ++ s))
  have hmark := mark_cons (show Text.isBlank '-' = false by decide)
  have hmonths := readNumber_figures hmonth hmonth' (by omega) ('-' :: (figures 2 d.day ++ s))
  have hdays := readNumber_figures hday (show d.day ≤ 31 by omega) (by omega) s
  simp only [readDate, hyear, hmark, hmonths, hdays, bind, Except.bind, pure, Except.pure]

theorem readClock_text {c : Clock} (h : c.exists = true) (s : List Char) :
    readClock (figures 2 c.hour ++ ':' :: (figures 2 c.minute ++ ':' :: (figures 2 c.second ++
      ((fractionText c.nanosecond).toList ++ 'Z' :: s)))) = .ok (c, 'Z' :: s) := by
  simp only [Clock.exists, Bool.and_eq_true, decide_eq_true_eq] at h
  obtain ⟨⟨⟨hhour, hminute⟩, hsecond⟩, hnano⟩ := h
  have hmark := mark_cons (show Text.isBlank ':' = false by decide)
  have hhours := readNumber_figures (Nat.zero_le c.hour) (show c.hour ≤ 23 by omega) (by omega)
  have hminutes :=
    readNumber_figures (Nat.zero_le c.minute) (show c.minute ≤ 59 by omega) (by omega)
  have hseconds := readNumber_figures (Nat.zero_le c.second) hsecond (by omega)
  have hfraction := readFraction_fractionText hnano s
  simp only [readClock, hhours, hmark, hminutes, hseconds, hfraction, bind, Except.bind, pure,
    Except.pure]

theorem parse_text (t : Timestamp) : parse t.text = .ok t := by
  obtain ⟨hdate, hclock⟩ := Bool.and_eq_true_iff.1 t.valid
  have hreadDate := readDate_text hdate
  have hreadClock := readClock_text hclock []
  have hseparator : ∀ s, separator ('T' :: s) = .ok s := fun s => rfl
  have hzulu : isZulu ['Z'] = false := by decide
  have hoffset : readOffset ['Z'] = .ok (0, []) := by
    simp [readOffset, Text.trimLeft_cons (show Text.isBlank 'Z' = false by decide), hzulu]
  have htrim : Text.trimLeft [] = [] := rfl
  simp only [parse, toList_text, hreadDate, hreadClock, hseparator, hoffset, htrim, if_true,
    assemble_utc, bind, Except.bind]

end Consignment.Timestamp
