import Consignment.Text.Blank

/-! Digits, and the blanks around them: the value of a numeral with zeros in front, and what
trimming leaves of a text. -/
namespace Consignment.Text

/-! ## Digits -/

section Digits
variable {zeros n : Nat}

theorem isDigit_of_mem_zeros_digits {c : Char}
    (h : c ∈ List.replicate zeros '0' ++ Nat.toDigits 10 n) : c.isDigit = true := by
  rcases List.mem_append.1 h with hc | hc
  · rw [List.eq_of_mem_replicate hc]
    rfl
  · exact Nat.isDigit_of_mem_toDigits (by decide) (by decide) hc

theorem ofDigitChars_zeros_digits :
    Nat.ofDigitChars 10 (List.replicate zeros '0' ++ Nat.toDigits 10 n) 0 = n := by
  rw [Nat.ofDigitChars_append, Nat.ofDigitChars_replicate_zero, Nat.mul_zero,
    Nat.ofDigitChars_ten_toDigits]

end Digits

/-! ## Blanks -/

variable {cs : List Char}

theorem isBlank_of_isDigit {c : Char} (h : c.isDigit = true) : isBlank c = false := by
  simp only [Char.isDigit, Bool.and_eq_true, decide_eq_true_eq, UInt32.le_iff_toNat_le] at h
  have hlow : 48 ≤ c.toNat := h.1
  have hhigh : c.toNat ≤ 57 := h.2
  simp [isBlank, tabulated, blankRuns, Run.covers]
  omega

theorem trimLeft_cons {c : Char} (h : isBlank c = false) (s : List Char) :
    trimLeft (c :: s) = c :: s := by
  simp [trimLeft, h]

theorem trimLeft_append_of_blank (h : ∀ c ∈ cs, isBlank c = true) (s : List Char) :
    trimLeft (cs ++ s) = trimLeft s := List.dropWhile_append_of_pos h

theorem trimLeft_append_of_solid (hne : cs ≠ []) (h : ∀ c ∈ cs, isBlank c = false)
    (s : List Char) : trimLeft (cs ++ s) = cs ++ s := by
  obtain ⟨c, cs, rfl⟩ := List.exists_cons_of_ne_nil hne
  exact trimLeft_cons (h c (by simp)) _

theorem trim_surrounded {before after : List Char} (hbefore : ∀ c ∈ before, isBlank c = true)
    (hne : cs ≠ []) (h : ∀ c ∈ cs, isBlank c = false) (hafter : ∀ c ∈ after, isBlank c = true) :
    trim (before ++ cs ++ after) = cs := by
  have hfront : trimLeft (before ++ cs ++ after) = cs ++ after := by
    rw [List.append_assoc, trimLeft_append_of_blank hbefore, trimLeft_append_of_solid hne h]
  have hback : trimLeft (cs ++ after).reverse = cs.reverse := by
    have hsolid := trimLeft_append_of_solid (List.reverse_ne_nil_iff.2 hne)
      (fun c hc => h c (List.mem_reverse.1 hc)) []
    rw [List.append_nil] at hsolid
    rw [List.reverse_append,
      trimLeft_append_of_blank fun c hc => hafter c (List.mem_reverse.1 hc), hsolid]
  rw [trim, hfront, hback, List.reverse_reverse]

theorem trim_of_solid (hne : cs ≠ []) (h : ∀ c ∈ cs, isBlank c = false) : trim cs = cs := by
  have htrim := trim_surrounded (List.forall_mem_nil _) hne h (List.forall_mem_nil _)
  rwa [List.nil_append, List.append_nil] at htrim

end Consignment.Text
