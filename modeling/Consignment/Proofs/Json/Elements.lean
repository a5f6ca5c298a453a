import Mathlib.Data.List.Forall2
import Consignment.Proofs.Json.Local

/-! What a list says, element by element: each is read on its own, as a document. -/
namespace Consignment.Json

theorem skipBlank_eq_nil {s : Bytes} : skipBlank s = [] ↔ Blanks s := by
  constructor
  · intro h
    obtain ⟨b, hb, heq⟩ := skipBlank_form h
    rwa [heq, List.append_nil]
  · intro h
    simpa [skipBlank] using skipBlank_behind h []

theorem Reader.document_eq_ok {α : Type} {r : Reader α} {doc : Bytes} {a : α} :
    r.document doc = .ok a ↔ ∃ rest, r.read doc = .ok (a, rest) ∧ Blanks rest := by
  unfold document
  constructor
  · intro h
    split at h
    · cases h
    next rest hread =>
    split at h <;> cases h
    next hrest => exact ⟨rest, hread, skipBlank_eq_nil.1 hrest⟩
  · rintro ⟨rest, hread, hrest⟩
    simp [hread, skipBlank_eq_nil.2 hrest]

def Reader.SkipsBlanks {α : Type} (r : Reader α) : Prop := ∀ s, r.read (skipBlank s) = r.read s

theorem startingValue_skipBlank {α : Type} (s : Bytes) (k : UInt8 → Bytes → Except Fault α) :
    startingValue (skipBlank s) k = startingValue s k := by
  obtain ⟨b, hb, heq⟩ := skipBlank_form (s := s) rfl
  have hskip := skipBlank_behind hb (skipBlank s)
  rw [← heq] at hskip
  simp only [startingValue, ← hskip]

theorem Reader.SkipsBlanks.record {σ : Type} (title : String) (fields : List (Member σ))
    (start : σ) : (Reader.record title fields start).SkipsBlanks :=
  fun s => startingValue_skipBlank s _

section Elements
variable {α : Type} {item : Reader α}

theorem Reader.SkipsBlanks.behind (hskip : item.SkipsBlanks) {b : Bytes} (hb : Blanks b)
    (s : Bytes) : item.read (b ++ s) = item.read s := by
  rw [← hskip, skipBlank_behind hb, hskip]

theorem nextElement_enters {first : Bool} {i s t : Bytes} (hi : IsItem .list i)
    (hs : Enters first s (i ++ t)) : nextElement first s = .ok (true, skipBlank (i ++ t)) := by
  obtain ⟨hl, hb, hv, -⟩ := hi
  rename_i label b v b'
  obtain ⟨d, r, -, hd, -, hne, -, -⟩ := hl.enter hb hv (b' ++ t)
  have hclosing : d ≠ 0x5d := hne
  simp only [List.append_assoc] at hs ⊢
  rw [hd]
  cases first with
  | true =>
    obtain rfl : s = _ := hs
    simp [nextElement, hd, hclosing]
  | false =>
    obtain ⟨b₀, hb₀, rfl⟩ := hs
    simp [nextElement, skipBlank_stop hb₀ (show isBlank 0x2c = false by decide), hd, hclosing]

theorem elements_join (hitem : item.Regular) (hskip : item.SkipsBlanks) {is : List Bytes}
    {as : List α} (hreads : List.Forall₂ (fun i a => item.document i = .ok a) is as)
    {first : Bool} {s rest : Bytes} (hs : Inside first .list is s rest) :
    ∃ mid, elements item first s = .ok (as, mid) ∧ endList mid = .ok rest := by
  induction hreads generalizing first s with
  | nil =>
    obtain ⟨b, hb, rfl⟩ := hs.stop
    exact ⟨0x5d :: rest, elements_stop (nextElement_end hb first rest), endList_complete .nil rest⟩
  | @cons i a is as hread _ ih =>
    obtain ⟨b, hread, hb⟩ := Reader.document_eq_ok.1 hread
    obtain ⟨v, rfl, hv⟩ := hitem.places.anywhere hread hb.apart
    obtain ⟨hi, henters, hinside⟩ := hs.uncons
    obtain ⟨mid, helements, hend⟩ := ih (hinside.behind hb)
    have hnext := nextElement_enters hi henters
    rw [List.append_assoc] at hnext
    refine ⟨mid, ?_, hend⟩
    rw [elements_go hnext ((hskip _).trans (hv _ ((apart_items .list is rest).behind hb))),
      helements]
    rfl

theorem elements_split (hitem : item.Regular) (hskip : item.SkipsBlanks) {first : Bool}
    {s mid rest : Bytes} {as : List α} (h : elements item first s = .ok (as, mid))
    (hend : endList mid = .ok rest) :
    ∃ is, Inside first .list is s rest ∧
      List.Forall₂ (fun i a => item.document i = .ok a) is as := by
  fun_induction elements item first s generalizing as with
  | case1 => cases h
  | case2 first s _ hstop =>
    cases h
    obtain ⟨b, hb, rfl, hhead⟩ := nextElement_stop_form hstop
    obtain ⟨r, rfl⟩ := List.head?_eq_some_iff.1 hhead
    obtain rfl := Except.ok.inj ((endList_complete .nil r).symm.trans hend)
    exact ⟨[], .close first hb, .nil⟩
  | case3 => cases h
  | case4 first s _ hnext a after hread ih =>
    obtain ⟨⟨_, _⟩, hp, he⟩ := map_eq_ok.1 h
    cases he
    obtain ⟨is, hinside, hreads⟩ := ih hp
    obtain ⟨b, hb, henters⟩ := nextElement_form hnext
    obtain ⟨v, rfl, hv⟩ := hitem.places.anywhere hread hinside.apart
    obtain ⟨b', hb', hcons⟩ := hinside.cons
    have hread' := hv b' hb'.apart
    obtain ⟨b'', w, hb'', hw, heq⟩ := hitem.formed.takes hread'
    have hi : IsItem .list ((b ++ v) ++ b') := by
      have hform := IsItem.mk .nothing (hb.append hb'') hw hb'
      rw [List.append_assoc, heq]
      simpa using hform
    refine ⟨_, hcons first s _ hi (by rwa [List.append_assoc]), .cons ?_ hreads⟩
    refine Reader.document_eq_ok.2 ⟨b', ?_, hb'⟩
    rw [List.append_assoc, hskip.behind hb, hread']

theorem list_document_iff (hitem : item.Regular) (hskip : item.SkipsBlanks) {is : List Bytes}
    {doc : Bytes} (hdoc : IsDocument .list is doc) {as : List α} :
    item.list.document doc = .ok as ↔
      List.Forall₂ (fun i a => item.document i = .ok a) is as := by
  obtain ⟨b, v, b', hb, hv, hb', rfl⟩ := hdoc
  obtain ⟨s, rfl⟩ := hv.starts
  have hinside : Inside true .list is (s ++ b') b' := ⟨_, hv, rfl⟩
  have hopen : skipBlank (b ++ (Frame.list.opening :: s ++ b')) = 0x5b :: (s ++ b') :=
    skipBlank_stop (c := 0x5b) hb (by decide) (s ++ b')
  rw [Reader.document_eq_ok]
  change (∃ rest, readList item _ = .ok (as, rest) ∧ _) ↔ _
  simp only [readList, startingValue, hopen, if_true]
  constructor
  · rintro ⟨rest, hok, -⟩
    split at hok
    · cases hok
    next helements =>
    obtain ⟨x, hend, he⟩ := map_eq_ok.1 hok
    cases he
    obtain ⟨js, ⟨w, hw, heq⟩, hreads⟩ := elements_split hitem hskip helements hend
    obtain ⟨w', hw', heq'⟩ := hinside
    rwa [hw'.unique hw (heq'.symm.trans heq)]
  · intro hreads
    obtain ⟨mid, helements, hend⟩ := elements_join hitem hskip hreads hinside
    exact ⟨b', by simp [helements, hend, Except.map], hb'⟩

end Elements
end Consignment.Json
