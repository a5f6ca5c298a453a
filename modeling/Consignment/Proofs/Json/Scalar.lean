import Consignment.Json.Reader
import Consignment.Json.Writer

/-! Texts and integers are read as they were written. -/
namespace Consignment.Json

/-! ## Texts -/

theorem octetsOf_control (n : Nat) (h : n < 32) : octetsOf n = [UInt8.ofNat n] := by
  have hall : ∀ n < 32, octetsOf n = [UInt8.ofNat n] := by decide +kernel
  exact hall n h

theorem codeUnit?_control (n : Nat) (h : n < 32) :
    let b := UInt8.ofNat n
    codeUnit? 0x30 0x30 (0x30 + b / 16) (if b % 16 < 10 then 0x30 + b % 16 else 0x57 + b % 16) =
      some n := by
  have hall : ∀ n < 32, codeUnit? 0x30 0x30 (0x30 + UInt8.ofNat n / 16)
      (if UInt8.ofNat n % 16 < 10 then 0x30 + UInt8.ofNat n % 16
        else 0x57 + UInt8.ofNat n % 16) = some n := by decide +kernel
  exact hall n h

theorem escape_control {b : UInt8} (h : b < 0x20) (s : Bytes) :
    escape (0x75 :: 0x30 :: 0x30 :: (0x30 + b / 16) ::
      (if b % 16 < 10 then 0x30 + b % 16 else 0x57 + b % 16) :: s) = .ok ([b], s) := by
  have hn : b.toNat < 32 := by simpa [UInt8.lt_iff_toNat_lt] using h
  have hb : UInt8.ofNat b.toNat = b := UInt8.ofNat_toNat
  have hcode := codeUnit?_control b.toNat hn
  have hoctets := octetsOf_control b.toNat hn
  rw [hb] at hcode hoctets
  have htrailing : isTrailing b.toNat = false := by
    simp only [isTrailing, Bool.and_eq_false_iff, decide_eq_false_iff_not]
    omega
  have hleading : isLeading b.toNat = false := by
    simp only [isLeading, Bool.and_eq_false_iff, decide_eq_false_iff_not]
    omega
  simp [escape, hcode, htrailing, hleading, hoctets]

theorem escape_shorthand {e b : UInt8} (he : e ≠ 0x75) (hb : shorthand? e = some b) (s : Bytes) :
    escape (e :: s) = .ok ([b], s) := by
  simp [escape, he, hb]

theorem spelled_escaped {t s rest : Bytes} (h : escape s = .ok (t, rest)) :
    spelled (0x5c :: s) = (spelled rest).map fun p => (t ++ p.1, p.2) := by
  rw [spelled]
  simp only [show ¬ (0x5c : UInt8) = 0x22 by decide, show ¬ (0x5c : UInt8) < 0x20 by decide,
    if_false, if_true]
  split
  · next f hf =>
    rw [h] at hf
    cases hf
  · next t' rest' hok =>
    rw [h] at hok
    obtain ⟨rfl, rfl⟩ := Prod.mk.inj (Except.ok.inj hok)
    rfl

theorem spelled_writeOctet (b : UInt8) (s : Bytes) :
    spelled (writeOctet b ++ s) = (spelled s).map fun p => (b :: p.1, p.2) := by
  unfold writeOctet
  split
  · next h =>
    subst h
    exact spelled_escaped (escape_shorthand (by decide) (by decide) s)
  split
  · next h =>
    subst h
    exact spelled_escaped (escape_shorthand (by decide) (by decide) s)
  split
  · next h =>
    subst h
    exact spelled_escaped (escape_shorthand (by decide) (by decide) s)
  split
  · next h =>
    subst h
    exact spelled_escaped (escape_shorthand (by decide) (by decide) s)
  split
  · next h =>
    subst h
    exact spelled_escaped (escape_shorthand (by decide) (by decide) s)
  split
  · next h =>
    subst h
    exact spelled_escaped (escape_shorthand (by decide) (by decide) s)
  split
  · next h =>
    subst h
    exact spelled_escaped (escape_shorthand (by decide) (by decide) s)
  split
  · next h => exact spelled_escaped (escape_control h s)
  · next h1 h2 _ _ _ _ _ h3 =>
    rw [List.singleton_append, spelled]
    simp [h1, h2, h3]

theorem spelled_flatMap (bs rest : Bytes) :
    spelled (bs.flatMap writeOctet ++ 0x22 :: rest) = .ok (bs, rest) := by
  induction bs with
  | nil => simp [spelled]
  | cons b bs ih =>
    rw [List.flatMap_cons, List.append_assoc, spelled_writeOctet, ih]
    rfl

theorem text_writeText (t : String) (rest : Bytes) :
    text ((Text.utf8 t).flatMap writeOctet ++ 0x22 :: rest) = .ok (t, rest) := by
  simp [text, spelled_flatMap]

theorem writeText_append (t : String) (rest : Bytes) :
    writeText t ++ rest = 0x22 :: ((Text.utf8 t).flatMap writeOctet ++ 0x22 :: rest) := by
  simp [writeText]

/-! ## Integers -/

theorem utf8_ofList (cs : List Char) :
    Text.utf8 (String.ofList cs) = cs.flatMap String.utf8EncodeChar := by
  simp [Text.utf8, List.utf8Encode]

theorem utf8_append (s t : String) : Text.utf8 (s ++ t) = Text.utf8 s ++ Text.utf8 t := by
  simp [Text.utf8]

def decimal (n : Nat) : Bytes := (Nat.toDigits 10 n).map fun c => c.val.toUInt8

theorem utf8EncodeChar_digit {c : Char} (h : c.isDigit = true) :
    String.utf8EncodeChar c = [c.val.toUInt8] := by
  apply String.utf8EncodeChar_eq_singleton
  simp only [Char.isDigit, Bool.and_eq_true, decide_eq_true_eq] at h
  rw [Char.utf8Size_eq_one_iff]
  exact UInt32.le_trans h.2 (by decide)

theorem flatMap_digits {cs : List Char} (h : ∀ c ∈ cs, c.isDigit = true) :
    cs.flatMap String.utf8EncodeChar = cs.map fun c => c.val.toUInt8 := by
  induction cs with
  | nil => rfl
  | cons c cs ih =>
    rw [List.flatMap_cons, utf8EncodeChar_digit (h c (by simp)), ih fun d hd => h d (by simp [hd])]
    rfl

theorem utf8_repr (n : Nat) : Text.utf8 (Nat.repr n) = decimal n := by
  rw [Nat.repr_eq_ofList_toDigits, utf8_ofList]
  apply flatMap_digits
  intro c hc
  exact Nat.isDigit_of_mem_toDigits (by decide) (by decide) hc

theorem writeInteger_eq (n : Int64) : writeInteger n =
    if n.toInt < 0 then 0x2d :: decimal n.toInt.natAbs else decimal n.toInt.natAbs := by
  unfold writeInteger Int.repr
  cases n.toInt with
  | ofNat m => simp [utf8_repr]
  | negSucc m =>
    have hsign : Text.utf8 "-" = [0x2d] := by decide +kernel
    simp [utf8_repr, utf8_append, hsign]

theorem digitValue_octet {c : Char} (h : c.isDigit = true) :
    isDigit c.val.toUInt8 = true ∧ digitValue c.val.toUInt8 = c.toNat - '0'.toNat := by
  simp only [Char.isDigit, Bool.and_eq_true, decide_eq_true_eq, UInt32.le_iff_toNat_le] at h
  have hlow : 48 ≤ c.toNat := h.1
  have hhigh : c.toNat ≤ 57 := h.2
  have hoctet : c.val.toUInt8.toNat = c.toNat := by
    rw [UInt32.toNat_toUInt8]
    exact Nat.mod_eq_of_lt (by change c.toNat < 256; omega)
  simp only [isDigit, digitValue, Bool.and_eq_true, decide_eq_true_eq, UInt8.le_iff_toNat_le,
    hoctet]
  exact ⟨⟨hlow, hhigh⟩, rfl⟩

theorem isDigit_of_mem_decimal {n : Nat} {b : UInt8} (h : b ∈ decimal n) : isDigit b = true := by
  obtain ⟨c, hc, rfl⟩ := List.mem_map.1 h
  exact (digitValue_octet (Nat.isDigit_of_mem_toDigits (by decide) (by decide) hc)).1

def continued (n : Nat) (ds : Bytes) : Nat := ds.foldl (fun n d => 10 * n + digitValue d) n

theorem continued_octets {cs : List Char} (h : ∀ c ∈ cs, c.isDigit = true) (n : Nat) :
    continued n (cs.map fun c => c.val.toUInt8) = Nat.ofDigitChars 10 cs n := by
  induction cs generalizing n with
  | nil => simp [continued]
  | cons c cs ih =>
    rw [Nat.ofDigitChars_cons, ← ih fun d hd => h d (by simp [hd]),
      ← (digitValue_octet (h c (by simp))).2]
    rfl

theorem continued_decimal (n : Nat) : continued 0 (decimal n) = n := by
  rw [decimal, continued_octets, Nat.ofDigitChars_ten_toDigits]
  intro c hc
  exact Nat.isDigit_of_mem_toDigits (by decide) (by decide) hc

theorem le_continued (n : Nat) (ds : Bytes) : n ≤ continued n ds := by
  induction ds generalizing n with
  | nil => exact Nat.le_refl _
  | cons d ds ih =>
    have hrest := ih (10 * n + digitValue d)
    simp only [continued, List.foldl_cons] at hrest ⊢
    omega

theorem absorb_eq {n : Nat} {ds : Bytes} (h : continued n ds < 0x10000000000000000) :
    absorb n ds = (continued n ds, ds.length) := by
  induction ds generalizing n with
  | nil => rfl
  | cons d ds ih =>
    have hrest : continued (10 * n + digitValue d) ds < 0x10000000000000000 := h
    have hle := le_continued (10 * n + digitValue d) ds
    rw [absorb, if_pos (by omega), ih hrest]
    rfl

theorem decimal_cases (n : Nat) :
    decimal n = [0x30] ∨ ∃ d ds, decimal n = d :: ds ∧ d ≠ 0x30 ∧ isDigit d = true := by
  induction n using Nat.strongRecOn with
  | ind n ih =>
    by_cases hn : n < 10
    · have hall : ∀ n < 10, decimal n = [0x30] ∨
          ((decimal n).head?.any fun d => d ≠ 0x30 && isDigit d) = true := by decide +kernel
      rcases hall n hn with hzero | hhead
      · exact .inl hzero
      · right
        cases hd : decimal n with
        | nil => simp [hd] at hhead
        | cons d ds =>
          simp only [hd, List.head?_cons, Option.any_some, Bool.and_eq_true, decide_eq_true_eq]
            at hhead
          exact ⟨d, ds, rfl, hhead.1, hhead.2⟩
    · have hsplit : decimal n = decimal (n / 10) ++ decimal (n % 10) := by
        unfold decimal
        rw [← List.map_append, Nat.toDigits_append_toDigits (by omega) (by omega) (by omega)]
        congr 2
        omega
      rcases ih (n / 10) (by omega) with hzero | ⟨d, ds, hd, hne, hdigit⟩
      · have hvalue := continued_decimal (n / 10)
        rw [hzero] at hvalue
        have : continued 0 [0x30] = 0 := by decide
        omega
      · exact .inr ⟨d, ds ++ decimal (n % 10), by rw [hsplit, hd]; rfl, hne, hdigit⟩

def Avoids (p : UInt8 → Bool) (s : Bytes) : Prop := ∀ c, s.head? = some c → p c = false

theorem avoids_nil (p : UInt8 → Bool) : Avoids p [] := by
  intro c hc
  cases hc

theorem avoids_cons {p : UInt8 → Bool} {c : UInt8} (h : p c = false) (s : Bytes) :
    Avoids p (c :: s) := by
  intro d hd
  obtain rfl := Option.some.inj hd
  exact h

theorem takeWhile_digits {ds rest : Bytes} (hds : ∀ d ∈ ds, isDigit d = true)
    (h : Avoids isDigit rest) :
    (ds ++ rest).takeWhile isDigit = ds ∧ (ds ++ rest).dropWhile isDigit = rest := by
  rw [List.takeWhile_append_of_pos hds, List.dropWhile_append_of_pos hds]
  cases rest with
  | nil => simp
  | cons c rest => simp [h c rfl]

theorem head_not_digit {s : Bytes} (h : Avoids isDigit s) :
    (s.head?.map isDigit).getD false = false := by
  cases s with
  | nil => rfl
  | cons c s => exact h c rfl

def Delimited (s : Bytes) : Prop := ∀ c, s.head? = some c → c = 0x2c ∨ c = 0x5d ∨ c = 0x7d

theorem Delimited.avoids {s : Bytes} (h : Delimited s) {p : UInt8 → Bool}
    (hp : p 0x2c = false ∧ p 0x5d = false ∧ p 0x7d = false) : Avoids p s := by
  intro c hc
  rcases h c hc with rfl | rfl | rfl
  · exact hp.1
  · exact hp.2.1
  · exact hp.2.2

theorem wholeDigits_decimal (n : Nat) {rest : Bytes} (h : Delimited rest) :
    wholeDigits .endInValue (decimal n ++ rest) = .ok (decimal n, rest) := by
  have havoids : Avoids isDigit rest := h.avoids (by decide)
  rcases decimal_cases n with hzero | ⟨d, ds, hd, hne, hdigit⟩
  · rw [hzero]
    simp [wholeDigits, head_not_digit havoids]
  · have hds : ∀ e ∈ ds, isDigit e = true := by
      intro e he
      exact isDigit_of_mem_decimal (by rw [hd]; simp [he])
    obtain ⟨htake, hdrop⟩ := takeWhile_digits hds havoids
    rw [hd]
    simp [wholeDigits, hne, hdigit, htake, hdrop]

theorem numeral_decimal (negative : Bool) (n : Nat) {rest : Bytes} (h : Delimited rest) :
    numeral .endInValue ((if negative then [0x2d] else []) ++ decimal n ++ rest) =
      .ok (⟨negative, decimal n, [], none⟩, rest) := by
  have hpart : partDigits .endInValue rest = .ok ([], rest) := by
    cases rest with
    | nil => rfl
    | cons c rest => rcases h c rfl with rfl | rfl | rfl <;> rfl
  have hexponent : exponentPart .endInValue rest = .ok (none, rest) := by
    cases rest with
    | nil => rfl
    | cons c rest => rcases h c rfl with rfl | rfl | rfl <;> rfl
  have hwhole := wholeDigits_decimal n h
  cases negative with
  | true => simp [numeral, hwhole, hpart, hexponent]
  | false =>
    have hsign : (decimal n ++ rest).head? ≠ some 0x2d := by
      rcases decimal_cases n with hzero | ⟨d, ds, hd, -, hdigit⟩
      · simp [hzero]
      · rw [hd]
        intro heq
        obtain rfl : d = 0x2d := by simpa using heq
        cases hdigit
    simp only [Bool.false_eq_true, if_false, List.nil_append, numeral, hsign, hwhole, hpart,
      hexponent, decide_false]

theorem value_decimal {negative : Bool} {n : Nat}
    (h : if negative then 0 < n ∧ n ≤ 0x8000000000000000 else n < 0x8000000000000000)
    (rest : Bytes) : Numeral.value ⟨negative, decimal n, [], none⟩ rest =
      .ok (.integer (if negative then -n else n)) := by
  have hlt : continued 0 (decimal n) < 0x10000000000000000 := by
    rw [continued_decimal]
    cases negative <;> simp at h <;> omega
  cases negative with
  | true => simp_all [Numeral.value, absorb_eq hlt, continued_decimal]
  | false => simp [Numeral.value, absorb_eq hlt, continued_decimal]

theorem not_blank_of_isDigit {c : UInt8} (h : isDigit c = true) : isBlank c = false := by
  simp only [isBlank, Bool.or_eq_false_iff, decide_eq_false_iff_not]
  refine ⟨⟨⟨?_, ?_⟩, ?_⟩, ?_⟩ <;> rintro rfl <;> cases h

theorem writeInteger_starts (n : Int64) :
    ∃ c cs, writeInteger n = c :: cs ∧ (c = 0x2d ∨ isDigit c = true) := by
  rw [writeInteger_eq]
  split
  · exact ⟨0x2d, _, rfl, .inl rfl⟩
  · rcases decimal_cases n.toInt.natAbs with hzero | ⟨d, ds, hd, -, hdigit⟩
    · exact ⟨0x30, [], hzero, .inr rfl⟩
    · exact ⟨d, ds, hd, .inr hdigit⟩

theorem skipBlank_cons {c : UInt8} (h : isBlank c = false) (s : Bytes) :
    skipBlank (c :: s) = c :: s := by
  simp [skipBlank, h]

theorem startingValue_cons {α : Type} {c : UInt8} (h : isBlank c = false) (s : Bytes)
    (k : UInt8 → Bytes → Except Fault α) : startingValue (c :: s) k = k c s := by
  rw [startingValue, skipBlank_cons h]

theorem readInteger_writeInteger (n : Int64) {rest : Bytes} (h : Delimited rest) :
    readInteger (writeInteger n ++ rest) = .ok (n, rest) := by
  have hlow : -0x8000000000000000 ≤ n.toInt := n.le_toInt
  have hhigh : n.toInt < 0x8000000000000000 := n.toInt_lt
  let negative : Bool := n.toInt < 0
  have hwritten : writeInteger n =
      (if negative then [0x2d] else []) ++ decimal n.toInt.natAbs := by
    rw [writeInteger_eq]
    by_cases hn : n.toInt < 0 <;> simp [negative, hn]
  have hvalue : (if negative then -(n.toInt.natAbs : Int) else n.toInt.natAbs) = n.toInt := by
    by_cases hn : n.toInt < 0
    · rw [if_pos (decide_eq_true hn)]
      omega
    · rw [if_neg (by simpa [negative] using hn)]
      omega
  have hbound : if negative then 0 < n.toInt.natAbs ∧ n.toInt.natAbs ≤ 0x8000000000000000
      else n.toInt.natAbs < 0x8000000000000000 := by
    by_cases hn : n.toInt < 0
    · rw [if_pos (decide_eq_true hn)]
      omega
    · rw [if_neg (by simpa [negative] using hn)]
      omega
  have hnumeral := numeral_decimal negative n.toInt.natAbs h
  have hmeant := value_decimal hbound rest
  rw [← hwritten] at hnumeral
  rw [hvalue] at hmeant
  obtain ⟨c, cs, hc, hstart⟩ := writeInteger_starts n
  have hblank : isBlank c = false := by
    rcases hstart with rfl | hdigit
    · rfl
    · exact not_blank_of_isDigit hdigit
  rw [hc, List.cons_append] at hnumeral ⊢
  rw [readInteger, startingValue_cons hblank, if_pos hstart]
  simp only [hnumeral, hmeant, hhigh, if_true, Int64.ofInt_toInt]

end Consignment.Json
