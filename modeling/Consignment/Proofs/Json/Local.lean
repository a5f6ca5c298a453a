import Consignment.Proofs.Json.RoundTrip
import Consignment.Proofs.Json.Unambiguous

/-! Whatever is read at one place of a document is read alike at any other: nothing depends on what
stands behind it, as long as that does not go on with a numeral. -/
namespace Consignment.Json

/-! ## Texts -/

theorem trailing_local {lead : Nat} {s x rest : Bytes} (h : trailing lead s = .ok (x, rest)) :
    ∃ u, s = u ++ rest ∧ ∀ t, trailing lead (u ++ t) = .ok (x, t) := by
  obtain ⟨a, b, c, d, -, rfl⟩ := trailing_form h
  refine ⟨[0x5c, 0x75, a, b, c, d], rfl, fun t => ?_⟩
  simp only [trailing, List.cons_append, List.nil_append, ne_eq, not_true_eq_false, if_false]
    at h ⊢
  split at h
  · cases h
  split at h
  · next htrailing =>
    simp only [Except.ok.injEq, Prod.mk.injEq] at h
    simp [htrailing, h.1]
  · simp at h

theorem escape_local {s x rest : Bytes} (h : escape s = .ok (x, rest)) :
    ∃ u, s = u ++ rest ∧ ∀ t, escape (u ++ t) = .ok (x, t) := by
  unfold escape at h
  repeat' split at h
  all_goals try cases h
  · next e hne _ b hshort => exact ⟨[e], rfl, fun t => by simp [escape, hne, hshort]⟩
  · next e hu _ a b c d s _ u hunit hnot hleading =>
    obtain ⟨v, rfl, hv⟩ := trailing_local h
    rw [Decidable.of_not_not hu]
    refine ⟨0x75 :: a :: b :: c :: d :: v, rfl, fun t => ?_⟩
    simp [escape, hunit, hnot, hleading, hv]
  · next e hu _ a b c d _ u hunit hnot hleading =>
    rw [Decidable.of_not_not hu]
    refine ⟨[0x75, a, b, c, d], rfl, fun t => ?_⟩
    simp [escape, hunit, hnot, hleading]

theorem spelled_local {s x rest : Bytes} (h : spelled s = .ok (x, rest)) :
    ∃ u, s = u ++ rest ∧ ∀ t, spelled (u ++ t) = .ok (x, t) := by
  fun_induction spelled s generalizing x with
  | case1 => cases h
  | case2 =>
    cases h
    exact ⟨[0x22], rfl, fun t => by simp [spelled]⟩
  | case3 => cases h
  | case4 => cases h
  | case5 s y after hesc hquote hcontrol ih =>
    obtain ⟨⟨_, _⟩, hp, he⟩ := map_eq_ok.1 h
    cases he
    obtain ⟨v, rfl, hv⟩ := escape_local hesc
    obtain ⟨w, rfl, hw⟩ := ih hp
    refine ⟨0x5c :: (v ++ w), by simp, fun t => ?_⟩
    rw [List.cons_append, List.append_assoc, spelled_escaped (hv (w ++ t)), hw]
    rfl
  | case6 c s hquote hcontrol hslash ih =>
    obtain ⟨⟨_, _⟩, hp, he⟩ := map_eq_ok.1 h
    cases he
    obtain ⟨w, rfl, hw⟩ := ih hp
    refine ⟨c :: w, rfl, fun t => ?_⟩
    rw [List.cons_append, spelled]
    simp [hquote, hcontrol, hslash, hw, Except.map]

theorem text_local {s rest : Bytes} {a : String} (h : text s = .ok (a, rest)) :
    ∃ u, s = u ++ rest ∧ ∀ t, text (u ++ t) = .ok (a, t) := by
  unfold text at h
  split at h
  · cases h
  · next hs =>
    split at h <;> cases h
    next hoctets =>
    obtain ⟨u, rfl, hu⟩ := spelled_local hs
    exact ⟨u, rfl, fun t => by simp [text, hu, hoctets]⟩

/-! ## Marks -/

theorem skipBlank_local {s r : Bytes} {c : UInt8} (h : skipBlank s = c :: r) :
    ∃ b, s = b ++ c :: r ∧ ∀ t, skipBlank (b ++ c :: t) = c :: t := by
  obtain ⟨b, hb, rfl⟩ := skipBlank_form h
  exact ⟨b, rfl, skipBlank_stop hb (not_blank_of_skipBlank h)⟩

theorem passColon_local {s rest : Bytes} (h : passColon s = .ok rest) :
    ∃ u, s = u ++ rest ∧ ∀ t, passColon (u ++ t) = .ok t := by
  obtain ⟨b, hb, rfl⟩ := passColon_form h
  exact ⟨b ++ [0x3a], by simp, fun t => by simpa using passColon_complete hb t⟩

theorem endList_complete {b : Bytes} (h : Blanks b) (t : Bytes) :
    endList (b ++ 0x5d :: t) = .ok t := by
  rw [endList, skipBlank_stop h (by decide)]
  rfl

theorem endObject_complete {b : Bytes} (h : Blanks b) (t : Bytes) :
    endObject (b ++ 0x7d :: t) = .ok t := by
  rw [endObject, skipBlank_stop h (by decide)]
  rfl

theorem nextElement_end {b : Bytes} (h : Blanks b) (first : Bool) (t : Bytes) :
    nextElement first (b ++ 0x5d :: t) = .ok (false, 0x5d :: t) := by
  rw [nextElement, skipBlank_stop h (by decide)]
  rfl

theorem nextElement_local {first : Bool} {s rest : Bytes}
    (h : nextElement first s = .ok (true, rest)) :
    ∃ u, s = u ++ rest ∧ ∀ t, t.head? = rest.head? →
      (first = false → Apart (u ++ t)) ∧ nextElement first (u ++ t) = .ok (true, t) := by
  unfold nextElement at h
  split at h
  · cases h
  next c r hs =>
  obtain ⟨b, hb, rfl⟩ := skipBlank_form hs
  split at h
  · cases h
  next hclosing =>
  have hblank := not_blank_of_skipBlank hs
  split at h
  · next hfirst =>
    cases h
    refine ⟨b, rfl, fun t ht => ?_⟩
    obtain ⟨t, rfl⟩ := List.head?_eq_some_iff.1 ht
    refine ⟨by simp [hfirst], ?_⟩
    simp [nextElement, skipBlank_stop hb hblank, hclosing, hfirst]
  split at h
  · next hfirst hcomma =>
    subst hcomma
    split at h
    · cases h
    next d r hr =>
    split at h <;> cases h
    next hd =>
    obtain ⟨b', hb', rfl⟩ := skipBlank_form hr
    have hdblank := not_blank_of_skipBlank hr
    refine ⟨b ++ 0x2c :: b', by simp, fun t ht => ?_⟩
    obtain ⟨t, rfl⟩ := List.head?_eq_some_iff.1 ht
    rw [List.append_assoc, List.cons_append]
    refine ⟨fun _ => .behind hb (avoids_cons (by decide) _), ?_⟩
    simp [nextElement, skipBlank_stop hb hblank, skipBlank_stop hb' hdblank, hd, hfirst]
  · cases h

theorem nextName_end {b : Bytes} (h : Blanks b) (first : Bool) (t : Bytes) :
    nextName first (b ++ 0x7d :: t) = .ok (none, 0x7d :: t) := by
  rw [nextName, skipBlank_stop h (by decide)]
  rfl

theorem nextName_enters {first : Bool} {s t rest : Bytes} {name : String} (hs : Enters first s t)
    (h : nextName true t = .ok (some name, rest)) : nextName first s = .ok (some name, rest) := by
  cases first with
  | true =>
    obtain rfl : s = t := hs
    exact h
  | false =>
    obtain ⟨b, hb, rfl⟩ := hs
    rw [nextName, skipBlank_stop hb (by decide)]
    unfold nextName at h
    simp only at h ⊢
    split at h
    · cases h
    next c r ht =>
    split at h
    · cases h
    rw [if_pos trivial] at h
    split at h
    · next hquote => simpa [ht, hquote] using h
    · cases h

theorem nextName_split {first : Bool} {s rest : Bytes} {name : String}
    (h : nextName first s = .ok (some name, rest)) :
    ∃ u, Enters first s (u ++ rest) ∧ ∀ t, nextName true (u ++ t) = .ok (some name, t) := by
  have hfront : ∀ {b r : Bytes}, Blanks b →
      (text r).map (fun p => (some p.1, p.2)) = .ok (some name, rest) →
      ∃ u, b ++ 0x22 :: r = u ++ rest ∧ ∀ t, nextName true (u ++ t) = .ok (some name, t) := by
    intro b r hb hr
    obtain ⟨p, hp, he⟩ := map_eq_ok.1 hr
    cases he
    obtain ⟨u, rfl, hu⟩ := text_local hp
    refine ⟨b ++ 0x22 :: u, by simp, fun t => ?_⟩
    rw [List.append_assoc, List.cons_append, nextName, skipBlank_stop hb (by decide)]
    simp [hu, Except.map]
  unfold nextName at h
  simp only at h
  split at h
  · cases h
  next hs =>
  obtain ⟨b, hb, rfl⟩ := skipBlank_form hs
  split at h
  · cases h
  split at h
  · next hfirst =>
    split at h
    · next hquote =>
      subst hquote
      rw [hfirst]
      exact hfront hb h
    · cases h
  next hfirst =>
  rw [Bool.not_eq_true] at hfirst
  split at h
  · next hcomma =>
    split at h
    · cases h
    next hr =>
    obtain ⟨b', hb', rfl⟩ := skipBlank_form hr
    split at h
    · next hquote =>
      subst hquote
      obtain ⟨u, hu, hlocal⟩ := hfront hb' h
      rw [hfirst, hcomma]
      exact ⟨u, ⟨b, hb, by rw [hu]⟩, hlocal⟩
    · split at h <;> cases h
  · cases h

theorem Enters.apart {s t : Bytes} (h : Enters false s t) : Apart s := by
  obtain ⟨b, hb, rfl⟩ := h
  exact .behind hb (avoids_cons (by decide) _)

theorem label_split {first : Bool} {s mid rest : Bytes} {name : String}
    (h : nextName first s = .ok (some name, mid)) (hcolon : passColon mid = .ok rest) :
    ∃ u, Enters first s (u ++ rest) ∧
      ∀ t, ∃ m, nextName true (u ++ t) = .ok (some name, m) ∧ passColon m = .ok t := by
  obtain ⟨c, rfl, hc⟩ := passColon_local hcolon
  obtain ⟨n, henters, hn⟩ := nextName_split h
  refine ⟨n ++ c, by simpa using henters, fun t => ⟨c ++ t, ?_, hc t⟩⟩
  simpa using hn (c ++ t)

theorem label_local {first : Bool} {s mid rest : Bytes} {name : String}
    (h : nextName first s = .ok (some name, mid)) (hcolon : passColon mid = .ok rest) :
    ∃ u, s = u ++ rest ∧ ∀ t, (first = false → Apart (u ++ t)) ∧
      ∃ m, nextName first (u ++ t) = .ok (some name, m) ∧ passColon m = .ok t := by
  obtain ⟨v, henters, hv⟩ := label_split h hcolon
  obtain ⟨u, rfl, hu⟩ : ∃ u, s = u ++ rest ∧ ∀ t, Enters first (u ++ t) (v ++ t) := by
    cases first with
    | true => exact ⟨v, henters, fun t => rfl⟩
    | false =>
      obtain ⟨b, hb, rfl⟩ := henters
      exact ⟨b ++ 0x2c :: v, by simp, fun t => ⟨b, hb, by simp⟩⟩
  refine ⟨u, rfl, fun t => ?_⟩
  obtain ⟨m, hname, hm⟩ := hv t
  refine ⟨?_, m, nextName_enters (hu t) hname, hm⟩
  rintro rfl
  exact (hu t).apart

/-! ## Readers -/

/-- What the reader takes it takes wherever it stands. -/
structure Reader.Local {α : Type} (r : Reader α) : Prop where
  anywhere : ∀ {s a rest}, r.read s = .ok (a, rest) → Apart rest →
    ∃ u, s = u ++ rest ∧ ∀ t, Apart t → r.read (u ++ t) = .ok (a, t)

theorem startingValue_local {β : Type} {P : Bytes → Prop} {s rest : Bytes}
    {k : UInt8 → Bytes → Except Fault β} (out : Bytes → β)
    (hk : ∀ {c r}, k c r = .ok (out rest) →
      ∃ u, r = u ++ rest ∧ ∀ t, P t → k c (u ++ t) = .ok (out t))
    (h : startingValue s k = .ok (out rest)) :
    ∃ u, s = u ++ rest ∧ ∀ t, P t → startingValue (u ++ t) k = .ok (out t) := by
  unfold startingValue at h
  split at h
  · cases h
  next c r hs =>
  obtain ⟨b, rfl, hb⟩ := skipBlank_local hs
  obtain ⟨u, rfl, hu⟩ := hk h
  refine ⟨b ++ c :: u, by simp, fun t ht => ?_⟩
  rw [List.append_assoc, List.cons_append, startingValue, hb]
  exact hu t ht

theorem readText_quote_local {α : Type} {expected : String} {meaning : String → Except Cause α}
    {r rest : Bytes} {a : α} (h : readText expected meaning (0x22 :: r) = .ok (a, rest)) :
    ∃ u, r = u ++ rest ∧ ∀ t, readText expected meaning (0x22 :: (u ++ t)) = .ok (a, t) := by
  rw [readText, startingValue_cons (by decide), if_pos rfl] at h
  split at h
  · cases h
  next htext =>
  split at h <;> cases h
  next hmeant =>
  obtain ⟨u, rfl, hu⟩ := text_local htext
  refine ⟨u, rfl, fun t => ?_⟩
  rw [readText, startingValue_cons (by decide), if_pos rfl]
  simp [hu, hmeant]

theorem readText_local {α : Type} {expected : String} {meaning : String → Except Cause α}
    {s rest : Bytes} {a : α} (h : readText expected meaning s = .ok (a, rest)) :
    ∃ u, s = u ++ rest ∧ ∀ t, Apart t → readText expected meaning (u ++ t) = .ok (a, t) := by
  refine startingValue_local (a, ·) (fun {c r} hk => ?_) h
  by_cases hc : c = 0x22
  · subst hc
    have hread : readText expected meaning (0x22 :: r) = .ok (a, rest) := by
      rwa [readText, startingValue_cons (by decide)]
    obtain ⟨u, rfl, hu⟩ := readText_quote_local hread
    refine ⟨u, rfl, fun t _ => ?_⟩
    have hread' := hu t
    rwa [readText, startingValue_cons (by decide)] at hread'
  · rw [if_neg hc] at hk
    cases hk

theorem numeral_local {atEnd : Cause} {s rest : Bytes} {n : Numeral}
    (h : numeral atEnd s = .ok (n, rest)) (hrest : Apart rest) :
    ∃ u, s = u ++ rest ∧ u ≠ [] ∧ ∀ t, Apart t → numeral atEnd (u ++ t) = .ok (n, t) := by
  obtain ⟨v, hv, rfl⟩ := numeral_form h
  obtain ⟨m, hm⟩ := numeral_complete atEnd hv
  obtain rfl : n = m := (Prod.mk.inj (Except.ok.inj (h.symm.trans (hm rest hrest)))).1
  obtain ⟨c, cs, rfl, -⟩ := hv.starts
  exact ⟨_, rfl, by simp, hm⟩

/-- Where a numeral stands is told only of one that is out of range. -/
theorem Numeral.value_local {n : Numeral} {rest : Bytes} {v : Numeric}
    (h : n.value rest = .ok v) (t : Bytes) : n.value t = .ok v := by
  unfold value at h ⊢
  simp only at h ⊢
  split at h
  · next hinteger => rwa [if_pos hinteger]
  next hinteger =>
  rw [if_neg hinteger]
  split at h
  · split at h
    · exact h
    · cases h
  split at h
  · split at h
    · exact h
    · cases h
  split at h
  · cases h
  · next hin => rwa [if_neg hin]

section Collections
variable {α : Type} {item : Reader α}

theorem Reader.Local.takes (hitem : item.Local) {s after : Bytes} {a : α}
    (h : item.read s = .ok (a, after)) (hafter : Apart after) :
    ∃ u, s = u ++ after ∧ u ≠ [] ∧ ∀ t, Apart t → item.read (u ++ t) = .ok (a, t) := by
  obtain ⟨u, rfl, hu⟩ := hitem.anywhere h hafter
  refine ⟨u, rfl, ?_, hu⟩
  rintro rfl
  have hlt := item.takes h
  simp at hlt

theorem elements_local (hitem : item.Local) {first : Bool} {s mid rest : Bytes} {as : List α}
    (h : elements item first s = .ok (as, mid)) (hend : endList mid = .ok rest) :
    ∃ u, s = u ++ rest ∧ ∀ t, (first = false → Apart (u ++ t)) ∧
      ∃ m, elements item first (u ++ t) = .ok (as, m) ∧ endList m = .ok t := by
  fun_induction elements item first s generalizing as with
  | case1 => cases h
  | case2 first s _ hstop =>
    cases h
    obtain ⟨b, hb, rfl, hhead⟩ := nextElement_stop_form hstop
    obtain ⟨r, rfl⟩ := List.head?_eq_some_iff.1 hhead
    obtain rfl := Except.ok.inj ((endList_complete .nil r).symm.trans hend)
    refine ⟨b ++ [0x5d], by simp, fun t => ?_⟩
    rw [List.append_assoc]
    exact ⟨fun _ => .behind hb (avoids_cons (by decide) _), _,
      elements_stop (nextElement_end hb _ t), endList_complete .nil t⟩
  | case3 => cases h
  | case4 first s _ hnext a after hread ih =>
    obtain ⟨⟨_, _⟩, hp, he⟩ := map_eq_ok.1 h
    cases he
    obtain ⟨w, rfl, hw⟩ := ih hp
    obtain ⟨v, rfl, hne, hv⟩ := hitem.takes hread ((hw rest).1 rfl)
    obtain ⟨u, rfl, hu⟩ := nextElement_local hnext
    refine ⟨u ++ (v ++ w), by simp, fun t => ?_⟩
    obtain ⟨hapart, m, helements, hm⟩ := hw t
    have hhead : (v ++ (w ++ t)).head? = (v ++ (w ++ rest)).head? := by
      obtain ⟨c, cs, rfl⟩ := List.exists_cons_of_ne_nil hne
      rfl
    obtain ⟨hfirst, hnext'⟩ := hu _ hhead
    rw [List.append_assoc, List.append_assoc]
    refine ⟨hfirst, m, ?_, hm⟩
    rw [elements_go hnext' (hv _ (hapart rfl)), helements]
    rfl

theorem entries_local (hitem : item.Local) {first : Bool} {s mid rest : Bytes}
    {es : List (String × α)} (h : entries item first s = .ok (es, mid))
    (hend : endObject mid = .ok rest) :
    ∃ u, s = u ++ rest ∧ ∀ t, (first = false → Apart (u ++ t)) ∧
      ∃ m, entries item first (u ++ t) = .ok (es, m) ∧ endObject m = .ok t := by
  fun_induction entries item first s generalizing es with
  | case1 => cases h
  | case2 first s _ hstop =>
    cases h
    obtain ⟨b, hb, rfl, hhead⟩ := nextName_stop_form hstop
    obtain ⟨r, rfl⟩ := List.head?_eq_some_iff.1 hhead
    obtain rfl := Except.ok.inj ((endObject_complete .nil r).symm.trans hend)
    refine ⟨b ++ [0x7d], by simp, fun t => ?_⟩
    rw [List.append_assoc]
    exact ⟨fun _ => .behind hb (avoids_cons (by decide) _), _, entries_stop (nextName_end hb _ t),
      endObject_complete .nil t⟩
  | case3 => cases h
  | case4 => cases h
  | case5 first s name _ hname after hcolon a _ hread ih =>
    obtain ⟨⟨_, _⟩, hp, he⟩ := map_eq_ok.1 h
    cases he
    obtain ⟨w, rfl, hw⟩ := ih hp
    obtain ⟨v, rfl, -, hv⟩ := hitem.takes hread ((hw rest).1 rfl)
    obtain ⟨u, rfl, hu⟩ := label_local hname hcolon
    refine ⟨u ++ (v ++ w), by simp, fun t => ?_⟩
    obtain ⟨hapart, m, hentries, hm⟩ := hw t
    obtain ⟨hfirst, n, hname', hcolon'⟩ := hu (v ++ (w ++ t))
    rw [List.append_assoc, List.append_assoc]
    refine ⟨hfirst, m, ?_, hm⟩
    rw [entries_go hname' hcolon' (hv _ (hapart rfl)), hentries]
    rfl

end Collections

namespace Reader.Local
variable {α β : Type}

theorem map {r : Reader α} (h : r.Local) (f : α → β) : (r.map f).Local := by
  constructor
  intro s a rest hread hrest
  obtain ⟨p, hp, he⟩ := map_eq_ok.1 hread
  cases he
  obtain ⟨u, rfl, hu⟩ := h.anywhere hp hrest
  refine ⟨u, rfl, fun t ht => ?_⟩
  change (r.read (u ++ t)).map _ = _
  rw [hu t ht]
  rfl

theorem meaning (expected : String) (meaning : String → Except Cause α) :
    (Reader.meaning expected meaning).Local :=
  ⟨fun hread _ => readText_local hread⟩

theorem integer : Reader.integer.Local := by
  constructor
  intro s a rest hread hrest
  refine startingValue_local (a, ·) (fun {c r} hk => ?_) hread
  split at hk
  · next hstart =>
    split at hk
    · cases hk
    next n after hn =>
    have hafter : after = rest := by
      repeat' split at hk
      all_goals cases hk
      all_goals rfl
    subst hafter
    obtain ⟨u, hu, hne, hlocal⟩ := numeral_local hn hrest
    obtain ⟨d, u, rfl⟩ := List.exists_cons_of_ne_nil hne
    obtain ⟨rfl, rfl⟩ := List.cons.inj hu
    refine ⟨u, rfl, fun t ht => ?_⟩
    have hnumeral := hlocal t ht
    rw [List.cons_append] at hnumeral
    rw [if_pos hstart, hnumeral]
    split at hk
    · cases hk
    · next hvalue =>
      split at hk <;> cases hk
      next hin => simp [Numeral.value_local hvalue t, hin]
    · cases hk
  · cases hk

theorem orNull {r : Reader α} (h : r.Local) : r.orNull.Local := by
  constructor
  intro s a rest hread hrest
  simp only [Reader.orNull] at hread
  split at hread
  · next s' hs =>
    obtain ⟨x, hx, he⟩ := map_eq_ok.1 hread
    cases he
    obtain ⟨b, rfl, hb⟩ := skipBlank_local hs
    rw [word_form hx]
    refine ⟨b ++ 0x6e :: ull, by simp, fun t _ => ?_⟩
    rw [List.append_assoc, List.cons_append]
    simp [Reader.orNull, hb, word_complete, Except.map]
  · next hnull =>
    obtain ⟨p, hp, he⟩ := map_eq_ok.1 hread
    cases he
    obtain ⟨u, hs, hne, hu⟩ := h.takes hp hrest
    obtain ⟨c, u, rfl⟩ := List.exists_cons_of_ne_nil hne
    have hc : c ≠ 0x6e := by
      rintro rfl
      exact hnull _ hs
    obtain ⟨b, rfl, hb⟩ := skipBlank_local hs
    refine ⟨b ++ c :: u, by simp, fun t ht => ?_⟩
    rw [List.append_assoc, List.cons_append]
    simp only [Reader.orNull, hb]
    split
    · next heq => exact absurd (List.cons.inj heq).1 hc
    · rw [← List.cons_append, hu t ht]
      rfl

theorem list {item : Reader α} (h : item.Local) : item.list.Local := by
  constructor
  intro s a rest hread _
  refine startingValue_local (a, ·) (fun {c r} hk => ?_) hread
  split at hk
  · next hc =>
    split at hk
    · cases hk
    next helements =>
    obtain ⟨x, hx, he⟩ := map_eq_ok.1 hk
    cases he
    obtain ⟨u, rfl, hu⟩ := elements_local h helements hx
    refine ⟨u, rfl, fun t _ => ?_⟩
    obtain ⟨-, m, hread', hend⟩ := hu t
    simp [hc, hread', hend, Except.map]
  · cases hk

theorem entries {item : Reader α} (h : item.Local) : item.entries.Local := by
  constructor
  intro s a rest hread _
  refine startingValue_local (a, ·) (fun {c r} hk => ?_) hread
  split at hk
  · next hc =>
    split at hk
    · cases hk
    next hentries =>
    obtain ⟨x, hx, he⟩ := map_eq_ok.1 hk
    cases he
    obtain ⟨u, rfl, hu⟩ := entries_local h hentries hx
    refine ⟨u, rfl, fun t _ => ?_⟩
    obtain ⟨-, m, hread', hend⟩ := hu t
    simp [hc, hread', hend, Except.map]
  · cases hk

end Reader.Local

/-! ## Alternatives -/

theorem readUnit_local {s rest : Bytes} (h : readUnit s = .ok rest) :
    ∃ u, s = u ++ rest ∧ ∀ t, Apart t → readUnit (u ++ t) = .ok t := by
  refine startingValue_local id (fun {c r} hk => ?_) h
  split at hk
  · next hc =>
    rw [word_form hk]
    exact ⟨ull, rfl, fun t _ => by simp [hc, word_complete]⟩
  · cases hk

theorem endVariant_local {s rest : Bytes} (h : endVariant s = .ok rest) :
    ∃ u, s = u ++ rest ∧ ∀ t, Apart (u ++ t) ∧ endVariant (u ++ t) = .ok t := by
  obtain ⟨b, hb, rfl⟩ := endVariant_form h
  refine ⟨b ++ [0x7d], by simp, fun t => ?_⟩
  rw [List.append_assoc, endVariant]
  refine ⟨.behind hb (avoids_cons (by decide) _), ?_⟩
  simp [skipBlank_stop hb (show isBlank 0x7d = false by decide)]

theorem variantName_local {α : Type} {known : List (String × α)} {s rest : Bytes} {a : α}
    (h : variantName known s = .ok (a, rest)) :
    ∃ u, s = u ++ rest ∧ ∀ t, variantName known (u ++ t) = .ok (a, t) := by
  unfold variantName at h
  split at h
  · cases h
  next c r hs =>
  split at h
  · next hquote =>
    subst hquote
    obtain ⟨b, rfl, hb⟩ := skipBlank_local hs
    obtain ⟨u, rfl, hu⟩ := readText_quote_local h
    refine ⟨b ++ 0x22 :: u, by simp, fun t => ?_⟩
    rw [List.append_assoc, List.cons_append]
    simp [variantName, hb, hu]
  · split at h <;> cases h

theorem Reader.Local.variant {α : Type} (known : List (String × α)) :
    (Reader.variant known).Local := by
  constructor
  intro s a rest hread _
  refine startingValue_local (a, ·) (fun {c r} hk => ?_) hread
  split at hk
  · next hquote =>
    subst hquote
    obtain ⟨u, rfl, hu⟩ := readText_quote_local hk
    exact ⟨u, rfl, fun t _ => by simp [hu]⟩
  split at hk
  · next hquote hc =>
    subst hc
    split at hk
    · cases hk
    next hname =>
    split at hk
    · cases hk
    next unit hcolon =>
    split at hk
    · cases hk
    next hunit =>
    obtain ⟨x, hx, he⟩ := map_eq_ok.1 hk
    cases he
    obtain ⟨u₄, rfl, h₄⟩ := endVariant_local hx
    obtain ⟨u₃, rfl, h₃⟩ := readUnit_local hunit
    obtain ⟨u₂, rfl, h₂⟩ := passColon_local hcolon
    obtain ⟨u₁, rfl, h₁⟩ := variantName_local hname
    refine ⟨u₁ ++ (u₂ ++ (u₃ ++ u₄)), by simp, fun t _ => ?_⟩
    simp [h₁, h₂, h₃ _ (h₄ t).1, h₄, Except.map]
  · cases hk

/-! ## Records -/

theorem pass_local {s rest : Bytes} (h : pass s = .ok rest) :
    ∃ u, s = u ++ rest ∧ ∀ t, Apart t → pass (u ++ t) = .ok t := by
  obtain ⟨b, v, hb, hv, rfl⟩ := pass_form h
  refine ⟨b ++ v, by simp, fun t ht => ?_⟩
  rw [List.append_assoc]
  exact (pass_iff ht).2 ⟨b, v, hb, hv, rfl⟩

section Records
variable {σ : Type} {fields : List (Member σ)}

theorem members_over {seen : List String} {first : Bool} {record : σ} {s t u rest : Bytes}
    {name : String} (hn : nextName first s = .ok (some name, t))
    (hf : fields.find? (·.name = name) = none) (hc : passColon t = .ok u)
    (hp : pass u = .ok rest) :
    members fields seen first record s = members fields seen false record rest := by
  rw [members]
  split
  · simp_all
  · simp_all
  · next hn' =>
    obtain ⟨hname, rfl⟩ := Prod.mk.inj (Except.ok.inj (hn.symm.trans hn'))
    obtain rfl := Option.some.inj hname
    simp only [hf]
    split
    · simp_all
    · next hc' =>
      obtain rfl := Except.ok.inj (hc.symm.trans hc')
      split <;> simp_all

theorem members_local (hfields : ∀ field ∈ fields, field.value.Local) {seen : List String}
    {first : Bool} {record result : σ} {s mid rest : Bytes}
    (h : members fields seen first record s = .ok (result, mid)) (hend : endObject mid = .ok rest) :
    ∃ u, s = u ++ rest ∧ ∀ t, (first = false → Apart (u ++ t)) ∧
      ∃ m, members fields seen first record (u ++ t) = .ok (result, m) ∧ endObject m = .ok t := by
  fun_induction members fields seen first record s with
  | case1 => cases h
  | case2 _ first record s _ hstop =>
    cases h
    obtain ⟨b, hb, rfl, hhead⟩ := nextName_stop_form hstop
    obtain ⟨r, rfl⟩ := List.head?_eq_some_iff.1 hhead
    obtain rfl := Except.ok.inj ((endObject_complete .nil r).symm.trans hend)
    refine ⟨b ++ [0x7d], by simp, fun t => ?_⟩
    rw [List.append_assoc]
    exact ⟨fun _ => .behind hb (avoids_cons (by decide) _), _, members_stop (nextName_end hb _ t),
      endObject_complete .nil t⟩
  | case3 => cases h
  | case4 => cases h
  | case5 => cases h
  | case6 _ first record s name _ hname field hfind hfresh value hcolon change _ hread ih =>
    obtain ⟨w, rfl, hw⟩ := ih h
    have hfield := hfields field (List.mem_of_find?_eq_some hfind)
    obtain ⟨v, rfl, hv⟩ := hfield.anywhere hread ((hw rest).1 rfl)
    obtain ⟨u, rfl, hu⟩ := label_local hname hcolon
    refine ⟨u ++ (v ++ w), by simp, fun t => ?_⟩
    obtain ⟨hapart, m, hmembers, hm⟩ := hw t
    obtain ⟨hfirst, n, hname', hcolon'⟩ := hu (v ++ (w ++ t))
    rw [List.append_assoc, List.append_assoc]
    refine ⟨hfirst, m, ?_, hm⟩
    rw [members_go hname' hfind hfresh hcolon' (hv _ (hapart rfl)), hmembers]
  | case7 => cases h
  | case8 => cases h
  | case9 _ first record s name _ hname hfind value hcolon _ hpass ih =>
    obtain ⟨w, rfl, hw⟩ := ih h
    obtain ⟨v, rfl, hv⟩ := pass_local hpass
    obtain ⟨u, rfl, hu⟩ := label_local hname hcolon
    refine ⟨u ++ (v ++ w), by simp, fun t => ?_⟩
    obtain ⟨hapart, m, hmembers, hm⟩ := hw t
    obtain ⟨hfirst, n, hname', hcolon'⟩ := hu (v ++ (w ++ t))
    rw [List.append_assoc, List.append_assoc]
    refine ⟨hfirst, m, ?_, hm⟩
    rw [members_over hname' hfind hcolon' (hv _ (hapart rfl)), hmembers]

theorem inOrder_local (hfields : ∀ field ∈ fields, field.value.Local) {first : Bool}
    {record result : σ} {s mid rest : Bytes} (h : inOrder fields first record s = .ok (result, mid))
    (hend : endList mid = .ok rest) :
    ∃ u, s = u ++ rest ∧ ∀ t, (first = false → Apart (u ++ t)) ∧
      ∃ m, inOrder fields first record (u ++ t) = .ok (result, m) ∧ endList m = .ok t := by
  induction fields generalizing first record s with
  | nil =>
    cases h
    obtain ⟨b, hb, rfl⟩ := endList_form hend
    refine ⟨b ++ [0x5d], by simp, fun t => ?_⟩
    rw [List.append_assoc]
    exact ⟨fun _ => .behind hb (avoids_cons (by decide) _), _, rfl, endList_complete hb t⟩
  | cons field fields ih =>
    obtain ⟨hfield, hmore⟩ := List.forall_mem_cons.1 hfields
    unfold inOrder at h
    split at h
    · cases h
    · next hstop =>
      cases h
      obtain ⟨b, hb, rfl, hhead⟩ := nextElement_stop_form hstop
      obtain ⟨r, rfl⟩ := List.head?_eq_some_iff.1 hhead
      obtain rfl := Except.ok.inj ((endList_complete .nil r).symm.trans hend)
      refine ⟨b ++ [0x5d], by simp, fun t => ?_⟩
      rw [List.append_assoc]
      refine ⟨fun _ => .behind hb (avoids_cons (by decide) _), 0x5d :: t, ?_,
        endList_complete .nil t⟩
      simp [inOrder, nextElement_end hb first t]
    · next hnext =>
      split at h
      · cases h
      next hread =>
      obtain ⟨w, rfl, hw⟩ := ih hmore h
      obtain ⟨v, rfl, hne, hv⟩ := hfield.takes hread ((hw rest).1 rfl)
      obtain ⟨u, rfl, hu⟩ := nextElement_local hnext
      refine ⟨u ++ (v ++ w), by simp, fun t => ?_⟩
      obtain ⟨hapart, m, hread', hm⟩ := hw t
      have hhead : (v ++ (w ++ t)).head? = (v ++ (w ++ rest)).head? := by
        obtain ⟨c, cs, rfl⟩ := List.exists_cons_of_ne_nil hne
        rfl
      obtain ⟨hfirst, hnext'⟩ := hu _ hhead
      rw [List.append_assoc, List.append_assoc]
      refine ⟨hfirst, m, ?_, hm⟩
      simp only [inOrder, hnext', hv _ (hapart rfl)]
      exact hread'

theorem Reader.Local.record (hfields : ∀ field ∈ fields, field.value.Local) (title : String)
    (start : σ) : (Reader.record title fields start).Local := by
  constructor
  intro s a rest hread _
  refine startingValue_local (a, ·) (fun {c r} hk => ?_) hread
  split at hk
  · next hc =>
    split at hk
    · cases hk
    next hitems =>
    obtain ⟨x, hx, he⟩ := map_eq_ok.1 hk
    cases he
    obtain ⟨u, rfl, hu⟩ := inOrder_local hfields hitems hx
    refine ⟨u, rfl, fun t _ => ?_⟩
    obtain ⟨-, m, hread', hend⟩ := hu t
    simp [hc, hread', hend, Except.map]
  split at hk
  · next hc =>
    split at hk
    · cases hk
    next hmembers =>
    obtain ⟨x, hx, he⟩ := map_eq_ok.1 hk
    cases he
    obtain ⟨u, rfl, hu⟩ := members_local hfields hmembers hx
    refine ⟨u, rfl, fun t _ => ?_⟩
    obtain ⟨-, m, hread', hend⟩ := hu t
    simp [hc, hread', hend, Except.map]
  · cases hk

end Records

/-! ## Readers altogether -/

structure Reader.Regular {α : Type} (r : Reader α) : Prop where
  formed : r.Formed
  places : r.Local

namespace Reader.Regular
variable {α β : Type}

theorem map {r : Reader α} (h : r.Regular) (f : α → β) : (r.map f).Regular :=
  ⟨h.formed.map f, h.places.map f⟩

theorem meaning (expected : String) (meaning : String → Except Cause α) :
    (Reader.meaning expected meaning).Regular :=
  ⟨.meaning expected meaning, .meaning expected meaning⟩

theorem integer : Reader.integer.Regular := ⟨.integer, .integer⟩

theorem variant (known : List (String × α)) : (Reader.variant known).Regular :=
  ⟨.variant known, .variant known⟩

theorem orNull {r : Reader α} (h : r.Regular) : r.orNull.Regular :=
  ⟨h.formed.orNull, h.places.orNull⟩

theorem list {item : Reader α} (h : item.Regular) : item.list.Regular :=
  ⟨h.formed.list, h.places.list⟩

theorem entries {item : Reader α} (h : item.Regular) : item.entries.Regular :=
  ⟨h.formed.entries, h.places.entries⟩

theorem record {σ : Type} {fields : List (Member σ)}
    (h : ∀ field ∈ fields, field.value.Regular) (title : String) (start : σ) :
    (Reader.record title fields start).Regular :=
  ⟨.record (fun field hf => (h field hf).formed) title start,
    .record (fun field hf => (h field hf).places) title start⟩

end Reader.Regular

theorem Member.regular_of {σ α : Type} {r : Reader α} (h : r.Regular) (name : String)
    (set : α → σ → σ) : (Member.of name r set).value.Regular := h.map set

end Consignment.Json
