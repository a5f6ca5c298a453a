import Consignment.Json.Record
import Consignment.Proofs.Json.Passed

/-! Whatever a reader accepts is written as the grammar says. -/
namespace Consignment.Json

structure Reader.Formed {α : Type} (r : Reader α) : Prop where
  takes : ∀ {s a rest}, r.read s = .ok (a, rest) → Takes s rest

theorem startingValue_form {α : Type} {s : Bytes} {k : UInt8 → Bytes → Except Fault α} {a : α}
    (h : startingValue s k = .ok a) :
    ∃ b c r, Blanks b ∧ s = b ++ c :: r ∧ k c r = .ok a := by
  unfold startingValue at h
  split at h
  · cases h
  next c r hs =>
  obtain ⟨b, hb, rfl⟩ := skipBlank_form hs
  exact ⟨b, c, r, hb, rfl, h⟩

theorem readText_form {α : Type} {expected : String} {meaning : String → Except Cause α}
    {s rest : Bytes} {a : α} (h : readText expected meaning s = .ok (a, rest)) :
    ∃ b t, Blanks b ∧ IsText t ∧ s = b ++ (t ++ rest) := by
  obtain ⟨b, c, r, hb, rfl, hk⟩ := startingValue_form h
  split at hk
  · next hc =>
    subst hc
    split at hk
    · cases hk
    next htext =>
    split at hk <;> cases hk
    obtain ⟨t, ht, heq⟩ := text_form htext
    exact ⟨b, t, hb, ht, by rw [heq]⟩
  · cases hk

theorem endList_form {s rest : Bytes} (h : endList s = .ok rest) :
    ∃ b, Blanks b ∧ s = b ++ 0x5d :: rest := by
  unfold endList at h
  split at h
  · cases h
  next hs =>
  obtain ⟨b, hb, rfl⟩ := skipBlank_form hs
  split at h
  · next hc =>
    cases h
    exact ⟨b, hb, by rw [hc]⟩
  · repeat' split at h
    all_goals cases h

theorem endObject_form {s rest : Bytes} (h : endObject s = .ok rest) :
    ∃ b, Blanks b ∧ s = b ++ 0x7d :: rest := by
  unfold endObject at h
  split at h
  · cases h
  next hs =>
  obtain ⟨b, hb, rfl⟩ := skipBlank_form hs
  repeat' split at h
  all_goals cases h
  next hc => exact ⟨b, hb, by rw [hc]⟩

theorem nextElement_stop_form {first : Bool} {s rest : Bytes}
    (h : nextElement first s = .ok (false, rest)) :
    ∃ b, Blanks b ∧ s = b ++ rest ∧ rest.head? = some 0x5d := by
  unfold nextElement at h
  split at h
  · cases h
  next hs =>
  obtain ⟨b, hb, rfl⟩ := skipBlank_form hs
  repeat' split at h
  all_goals cases h
  next hc => exact ⟨b, hb, rfl, by rw [hc, List.head?_cons]⟩

theorem nextElement_form {first : Bool} {s rest : Bytes}
    (h : nextElement first s = .ok (true, rest)) :
    ∃ b, Blanks b ∧ Enters first s (b ++ rest) := by
  unfold nextElement at h
  split at h
  · cases h
  next hs =>
  obtain ⟨b, hb, rfl⟩ := skipBlank_form hs
  repeat' split at h
  all_goals cases h
  · next hfirst =>
    rw [hfirst]
    exact ⟨b, hb, rfl⟩
  · next hfirst hcomma _ _ _ hr _ =>
    obtain ⟨b', hb', rfl⟩ := skipBlank_form hr
    rw [Bool.not_eq_true] at hfirst
    rw [hfirst, hcomma]
    exact ⟨b', hb', b, hb, rfl⟩

theorem nextName_stop_form {first : Bool} {s rest : Bytes}
    (h : nextName first s = .ok (none, rest)) :
    ∃ b, Blanks b ∧ s = b ++ rest ∧ rest.head? = some 0x7d := by
  unfold nextName at h
  simp only at h
  split at h
  · cases h
  next hs =>
  obtain ⟨b, hb, rfl⟩ := skipBlank_form hs
  split at h
  · next hc =>
    cases h
    exact ⟨b, hb, rfl, by rw [hc, List.head?_cons]⟩
  · repeat' split at h
    all_goals try cases h
    all_goals
      obtain ⟨p, -, he⟩ := map_eq_ok.1 h
      cases he

theorem nextName_form {first : Bool} {s mid rest : Bytes} {name : String}
    (h : nextName first s = .ok (some name, mid)) (hcolon : passColon mid = .ok rest) :
    ∃ label, IsLabel .object label ∧ Enters first s (label ++ rest) := by
  obtain ⟨b₂, hb₂, hmid⟩ := passColon_form hcolon
  unfold nextName at h
  simp only at h
  split at h
  · cases h
  next hs =>
  obtain ⟨b, hb, rfl⟩ := skipBlank_form hs
  split at h
  · cases h
  split at h
  · next hfirst =>
    split at h
    · next hquote =>
      obtain ⟨p, hp, he⟩ := map_eq_ok.1 h
      cases he
      obtain ⟨t, ht, heq⟩ := text_form hp
      refine ⟨_, .name hb ht hb₂, ?_⟩
      rw [hfirst, hquote, heq, hmid]
      simp [Enters]
    · cases h
  next hfirst =>
  rw [Bool.not_eq_true] at hfirst
  split at h
  · next hcomma =>
    split at h
    · cases h
    next hr =>
    obtain ⟨b₁, hb₁, rfl⟩ := skipBlank_form hr
    split at h
    · next hquote =>
      obtain ⟨p, hp, he⟩ := map_eq_ok.1 h
      cases he
      obtain ⟨t, ht, heq⟩ := text_form hp
      refine ⟨_, .name hb₁ ht hb₂, ?_⟩
      rw [hfirst, hcomma, hquote, heq, hmid]
      exact ⟨b, hb, by simp⟩
    · split at h <;> cases h
  · cases h

section Collections
variable {α : Type} {item : Reader α}

theorem elements_form (hitem : item.Formed) {first : Bool} {s mid rest : Bytes} {as : List α}
    (h : elements item first s = .ok (as, mid)) (hend : endList mid = .ok rest) :
    ∃ is, Inside first .list is s rest := by
  fun_induction elements item first s generalizing as with
  | case1 => cases h
  | case2 first s _ hstop =>
    cases h
    obtain ⟨b, hb, rfl, -⟩ := nextElement_stop_form hstop
    obtain ⟨b', hb', rfl⟩ := endList_form hend
    rw [← List.append_assoc]
    exact ⟨[], .close first (hb.append hb')⟩
  | case3 => cases h
  | case4 first s _ hnext a after hread ih =>
    obtain ⟨⟨_, _⟩, hp, he⟩ := map_eq_ok.1 h
    cases he
    obtain ⟨is, hinside⟩ := ih hp
    obtain ⟨b, hb, henters⟩ := nextElement_form hnext
    obtain ⟨j, hj⟩ := hinside.itemBehind first hb .nothing henters (hitem.takes hread)
    exact ⟨j :: is, hj⟩

theorem entries_form (hitem : item.Formed) {first : Bool} {s mid rest : Bytes}
    {es : List (String × α)} (h : entries item first s = .ok (es, mid))
    (hend : endObject mid = .ok rest) : ∃ is, Inside first .object is s rest := by
  fun_induction entries item first s generalizing es with
  | case1 => cases h
  | case2 first s _ hstop =>
    cases h
    obtain ⟨b, hb, rfl, -⟩ := nextName_stop_form hstop
    obtain ⟨b', hb', rfl⟩ := endObject_form hend
    rw [← List.append_assoc]
    exact ⟨[], .close first (hb.append hb')⟩
  | case3 => cases h
  | case4 => cases h
  | case5 first s name _ hname after hcolon a _ hread ih =>
    obtain ⟨⟨_, _⟩, hp, he⟩ := map_eq_ok.1 h
    cases he
    obtain ⟨is, hinside⟩ := ih hp
    obtain ⟨label, hl, henters⟩ := nextName_form hname hcolon
    obtain ⟨j, hj⟩ := hinside.item first hl henters (hitem.takes hread)
    exact ⟨j :: is, hj⟩

end Collections

namespace Reader.Formed
variable {α β : Type}

theorem map {r : Reader α} (h : r.Formed) (f : α → β) : (r.map f).Formed := by
  constructor
  intro s a rest hread
  obtain ⟨p, hp, he⟩ := map_eq_ok.1 hread
  cases he
  exact h.takes hp

theorem meaning (expected : String) (meaning : String → Except Cause α) :
    (Reader.meaning expected meaning).Formed := by
  constructor
  intro s a rest hread
  obtain ⟨b, t, hb, ht, rfl⟩ := readText_form hread
  exact ((IsValue.text ht).takes rest).behind hb

theorem integer : Reader.integer.Formed := by
  constructor
  intro s a rest hread
  obtain ⟨b, c, r, hb, rfl, hk⟩ := startingValue_form hread
  refine Takes.behind ?_ hb
  split at hk
  · split at hk
    · cases hk
    next n after hn =>
    have hafter : after = rest := by
      repeat' split at hk
      all_goals cases hk
      all_goals rfl
    obtain ⟨v, hv, heq⟩ := numeral_form hn
    rw [heq, hafter]
    exact (IsValue.numeral hv).takes rest
  · cases hk

theorem orNull {r : Reader α} (h : r.Formed) : r.orNull.Formed := by
  constructor
  intro s a rest hread
  simp only [Reader.orNull] at hread
  obtain ⟨b, hb, heq⟩ := skipBlank_form (s := s) rfl
  rw [heq]
  refine Takes.behind ?_ hb
  split at hread
  · next r hs =>
    obtain ⟨x, hx, he⟩ := map_eq_ok.1 hread
    cases he
    rw [hs, word_form hx]
    exact IsValue.null.takes rest
  · obtain ⟨p, hp, he⟩ := map_eq_ok.1 hread
    cases he
    exact h.takes hp

theorem list {item : Reader α} (h : item.Formed) : item.list.Formed := by
  constructor
  intro s a rest hread
  obtain ⟨b, c, r, hb, rfl, hk⟩ := startingValue_form hread
  refine Takes.behind ?_ hb
  split at hk
  · next hc =>
    subst hc
    split at hk
    · cases hk
    next helements =>
    obtain ⟨x, hx, he⟩ := map_eq_ok.1 hk
    cases he
    obtain ⟨is, hinside⟩ := elements_form h helements hx
    exact hinside.takes
  · cases hk

theorem entries {item : Reader α} (h : item.Formed) : item.entries.Formed := by
  constructor
  intro s a rest hread
  obtain ⟨b, c, r, hb, rfl, hk⟩ := startingValue_form hread
  refine Takes.behind ?_ hb
  split at hk
  · next hc =>
    subst hc
    split at hk
    · cases hk
    next hentries =>
    obtain ⟨x, hx, he⟩ := map_eq_ok.1 hk
    cases he
    obtain ⟨is, hinside⟩ := entries_form h hentries hx
    exact hinside.takes
  · cases hk

end Reader.Formed

/-! ## Alternatives -/

theorem readUnit_form {s rest : Bytes} (h : readUnit s = .ok rest) : Takes s rest := by
  obtain ⟨b, c, r, hb, rfl, hk⟩ := startingValue_form h
  refine Takes.behind ?_ hb
  split at hk
  · next hc =>
    rw [hc, word_form hk]
    exact IsValue.null.takes rest
  · cases hk

theorem endVariant_form {s rest : Bytes} (h : endVariant s = .ok rest) :
    ∃ b, Blanks b ∧ s = b ++ 0x7d :: rest := by
  unfold endVariant at h
  split at h
  · cases h
  next hs =>
  obtain ⟨b, hb, rfl⟩ := skipBlank_form hs
  split at h <;> cases h
  next hc => exact ⟨b, hb, by rw [hc]⟩

theorem variantName_form {α : Type} {known : List (String × α)} {s rest : Bytes} {a : α}
    (h : variantName known s = .ok (a, rest)) :
    ∃ b t, Blanks b ∧ IsText t ∧ s = b ++ (t ++ rest) := by
  unfold variantName at h
  split at h
  · cases h
  next hs =>
  obtain ⟨b, hb, rfl⟩ := skipBlank_form hs
  split at h
  · obtain ⟨b', t, hb', ht, heq⟩ := readText_form h
    exact ⟨b ++ b', t, hb.append hb', ht, by simp [heq]⟩
  · split at h <;> cases h

theorem Reader.Formed.variant {α : Type} (known : List (String × α)) :
    (Reader.variant known).Formed := by
  constructor
  intro s a rest hread
  obtain ⟨b, c, r, hb, rfl, hk⟩ := startingValue_form hread
  refine Takes.behind ?_ hb
  split at hk
  · obtain ⟨b', t, hb', ht, heq⟩ := readText_form hk
    rw [heq]
    exact ((IsValue.text ht).takes rest).behind hb'
  split at hk
  · next hc =>
    subst hc
    split at hk
    · cases hk
    next hname =>
    split at hk
    · cases hk
    next unit hcolon =>
    split at hk
    · cases hk
    next hunit =>
    obtain ⟨x, hx, he⟩ := map_eq_ok.1 hk
    cases he
    obtain ⟨b₁, t, hb₁, ht, rfl⟩ := variantName_form hname
    obtain ⟨b₂, hb₂, rfl⟩ := passColon_form hcolon
    obtain ⟨b₃, hb₃, rfl⟩ := endVariant_form hx
    have hlabel : IsLabel .object (b₁ ++ (t ++ (b₂ ++ [0x3a]))) := .name hb₁ ht hb₂
    have henters : Enters true (b₁ ++ (t ++ (b₂ ++ 0x3a :: unit)))
        ((b₁ ++ (t ++ (b₂ ++ [0x3a]))) ++ unit) := by simp [Enters]
    have hclose : Inside false .object [] (b₃ ++ 0x7d :: rest) rest := .close false hb₃
    obtain ⟨j, hj⟩ := hclose.item true hlabel henters (readUnit_form hunit)
    exact hj.takes
  · cases hk

/-! ## Records -/

section Records
variable {σ : Type} {fields : List (Member σ)}

theorem members_form (hfields : ∀ field ∈ fields, field.value.Formed) {seen : List String}
    {first : Bool} {record result : σ} {s mid rest : Bytes}
    (h : members fields seen first record s = .ok (result, mid)) (hend : endObject mid = .ok rest) :
    ∃ is, Inside first .object is s rest := by
  fun_induction members fields seen first record s with
  | case1 => cases h
  | case2 _ first record s _ hstop =>
    cases h
    obtain ⟨b, hb, rfl, -⟩ := nextName_stop_form hstop
    obtain ⟨b', hb', rfl⟩ := endObject_form hend
    rw [← List.append_assoc]
    exact ⟨[], .close first (hb.append hb')⟩
  | case3 => cases h
  | case4 => cases h
  | case5 => cases h
  | case6 _ first record s name _ hname field hfind _ value hcolon change _ hread ih =>
    obtain ⟨is, hinside⟩ := ih h
    obtain ⟨label, hl, henters⟩ := nextName_form hname hcolon
    have hvalue := (hfields field (List.mem_of_find?_eq_some hfind)).takes hread
    obtain ⟨j, hj⟩ := hinside.item first hl henters hvalue
    exact ⟨j :: is, hj⟩
  | case7 => cases h
  | case8 => cases h
  | case9 _ first record s name _ hname _ value hcolon _ hpass ih =>
    obtain ⟨is, hinside⟩ := ih h
    obtain ⟨label, hl, henters⟩ := nextName_form hname hcolon
    obtain ⟨j, hj⟩ := hinside.item first hl henters (pass_form hpass)
    exact ⟨j :: is, hj⟩

theorem inOrder_form (hfields : ∀ field ∈ fields, field.value.Formed) {first : Bool}
    {record result : σ} {s mid rest : Bytes} (h : inOrder fields first record s = .ok (result, mid))
    (hend : endList mid = .ok rest) :
    ∃ is, is.length ≤ fields.length ∧ Inside first .list is s rest := by
  induction fields generalizing first record s with
  | nil =>
    cases h
    obtain ⟨b, hb, rfl⟩ := endList_form hend
    exact ⟨[], Nat.le_refl _, .close first hb⟩
  | cons field fields ih =>
    obtain ⟨hfield, hrest⟩ := List.forall_mem_cons.1 hfields
    unfold inOrder at h
    split at h
    · cases h
    · next hstop =>
      cases h
      obtain ⟨b, hb, rfl, -⟩ := nextElement_stop_form hstop
      obtain ⟨b', hb', rfl⟩ := endList_form hend
      rw [← List.append_assoc]
      exact ⟨[], Nat.zero_le _, .close first (hb.append hb')⟩
    · next hnext =>
      split at h
      · cases h
      next hread =>
      obtain ⟨is, hlength, hinside⟩ := ih hrest h
      obtain ⟨b, hb, henters⟩ := nextElement_form hnext
      obtain ⟨j, hj⟩ := hinside.itemBehind first hb .nothing henters (hfield.takes hread)
      exact ⟨j :: is, Nat.succ_le_succ hlength, hj⟩

theorem readRecord_form (hfields : ∀ field ∈ fields, field.value.Formed) {title : String}
    {start a : σ} {s rest : Bytes} (h : readRecord title fields start s = .ok (a, rest)) :
    ∃ b f is v, Blanks b ∧ Holds f is v ∧ (f = .list → is.length ≤ fields.length) ∧
      s = b ++ (v ++ rest) := by
  obtain ⟨b, c, r, hb, rfl, hk⟩ := startingValue_form h
  split at hk
  · next hc =>
    subst hc
    split at hk
    · cases hk
    next hitems =>
    obtain ⟨x, hx, he⟩ := map_eq_ok.1 hk
    cases he
    obtain ⟨is, hlength, v, hv, heq⟩ := inOrder_form hfields hitems hx
    refine ⟨b, .list, is, v, hb, hv, fun _ => hlength, ?_⟩
    rw [← heq]
    rfl
  split at hk
  · next hc =>
    subst hc
    split at hk
    · cases hk
    next hmembers =>
    obtain ⟨x, hx, he⟩ := map_eq_ok.1 hk
    cases he
    obtain ⟨is, v, hv, heq⟩ := members_form hfields hmembers hx
    refine ⟨b, .object, is, v, hb, hv, by simp, ?_⟩
    rw [← heq]
    rfl
  · cases hk

theorem Reader.Formed.record (hfields : ∀ field ∈ fields, field.value.Formed) (title : String)
    (start : σ) : (Reader.record title fields start).Formed := by
  constructor
  intro s a rest hread
  obtain ⟨b, f, is, v, hb, hv, -, rfl⟩ := readRecord_form hfields hread
  exact (hv.isValue.takes rest).behind hb

end Records

/-! ## Whole documents -/

/-- A list or an object with these items, and blanks around it. -/
def IsDocument (f : Frame) (is : List Bytes) (doc : Bytes) : Prop :=
  ∃ b v b', Blanks b ∧ Holds f is v ∧ Blanks b' ∧ doc = b ++ (v ++ b')

theorem Holds.closing_mem {f : Frame} {is : List Bytes} {v : Bytes} (h : Holds f is v) :
    f.closing ∈ v := by
  cases h <;> simp [Frame.enclose_eq]

theorem IsDocument.closing_mem {f : Frame} {is : List Bytes} {doc : Bytes}
    (h : IsDocument f is doc) : f.closing ∈ doc := by
  obtain ⟨b, v, b', -, hv, -, rfl⟩ := h
  simp [hv.closing_mem]

theorem not_isDocument {f : Frame} {doc : Bytes} (h : f.closing ∉ doc) (is : List Bytes) :
    ¬ IsDocument f is doc := fun hdoc => h hdoc.closing_mem

theorem document_form {σ : Type} {fields : List (Member σ)}
    (hfields : ∀ field ∈ fields, field.value.Formed) {title : String} {start a : σ} {doc : Bytes}
    (h : (Reader.record title fields start).document doc = .ok a) :
    ∃ f is, IsDocument f is doc ∧ (f = .list → is.length ≤ fields.length) := by
  unfold Reader.document at h
  split at h
  · cases h
  next rest hread =>
  split at h
  · next hrest =>
    obtain ⟨b, f, is, v, hb, hv, hlength, rfl⟩ := readRecord_form hfields hread
    obtain ⟨b', hb', heq⟩ := skipBlank_form hrest
    rw [List.append_nil] at heq
    exact ⟨f, is, ⟨b, v, rest, hb, hv, heq ▸ hb', rfl⟩, hlength⟩
  · cases h

end Consignment.Json
