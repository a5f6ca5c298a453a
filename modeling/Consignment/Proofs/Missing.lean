import Mathlib.Data.List.ReduceOption
import Consignment.Proofs.Fields

/-! A member that is `null` is as good as none, unless it is one that no option holds: the lines
and the attributes of a shipment may be missing, but they may not be `null`. -/
namespace Consignment

namespace Json

/-- The name at the front of a member, however it is spelled. -/
def memberName? (i : Bytes) : Option String :=
  match nextName true i with
  | .ok (name, _) => name
  | .error _ => none

def without (name : String) (is : List Bytes) : List Bytes :=
  is.filter (memberName? · ≠ some name)

inductive IsNull (name : String) : Bytes → Prop
  | mk {label b b' : Bytes} : IsLabel .object label → memberName? label = some name → Blanks b →
    Blanks b' → IsNull name (label ++ (b ++ (0x6e :: (ull ++ b'))))

/-- The member of that name is `null` wherever it stands, and the others are as they were. -/
inductive SetsNull (name : String) (is : List Bytes) : List Bytes → Prop
  | mk {front back : List Bytes} {i : Bytes} : front ++ back = without name is → IsNull name i →
    SetsNull name is (front ++ i :: back)

theorem passName_of_nextName {s t : Bytes} {name : String}
    (h : nextName true s = .ok (some name, t)) : passName .object s = passColon t := by
  unfold nextName at h
  unfold passName
  cases hs : skipBlank s with
  | nil => simp [hs] at h
  | cons c r =>
    simp only [hs, if_true] at h ⊢
    split at h
    · cases h
    split at h
    · next hquote =>
      obtain ⟨p, hp, he⟩ := map_eq_ok.1 h
      cases he
      obtain ⟨q, hq, heq⟩ := text_form hp
      obtain ⟨hq⟩ := hq
      rename_i q
      have hpass : passText r = .ok p.2 := by
        have hr : r = q ++ 0x22 :: p.2 := by simpa using heq
        rw [hr]
        exact passText_complete hq _
      simp [hquote, hpass]
    · cases h

theorem nextName_of_label {label : Bytes} {name : String} (hl : IsLabel .object label)
    (hname : memberName? label = some name) (t : Bytes) :
    ∃ s, nextName true (label ++ t) = .ok (some name, s) ∧ passColon s = .ok t := by
  unfold memberName? at hname
  split at hname
  · next x s hread =>
    subst hname
    obtain ⟨u, henters, hu⟩ := nextName_split hread
    obtain rfl : label = u ++ s := henters
    have hlabel : nextName true (u ++ s ++ t) = .ok (some name, s ++ t) := by
      simpa using hu (s ++ t)
    exact ⟨s ++ t, hlabel, (passName_of_nextName hlabel).symm.trans (passName_complete hl t)⟩
  · cases hname

theorem holds_separated {f : Frame} {is : List Bytes} (h : ∀ i ∈ is, IsItem f i) :
    Holds f is (f.enclose (separated is)) := by
  cases is with
  | nil => exact .nothing .nil
  | cons i is =>
    rw [separated_cons]
    exact .items h

theorem isDocument_separated {f : Frame} {is : List Bytes} (h : ∀ i ∈ is, IsItem f i) :
    IsDocument f is (f.enclose (separated is)) :=
  ⟨[], _, [], .nil, holds_separated h, .nil, (List.append_nil _).symm⟩

theorem IsDocument.isItem {f : Frame} {is : List Bytes} {doc : Bytes} (h : IsDocument f is doc) :
    ∀ i ∈ is, IsItem f i := by
  obtain ⟨b, v, b', -, hv, -, -⟩ := h
  cases hv with
  | nothing => simp
  | items h => exact h

theorem IsNull.isItem {name : String} {i : Bytes} (h : IsNull name i) : IsItem .object i := by
  obtain ⟨hl, -, hb, hb'⟩ := h
  exact .mk hl hb .null hb'

theorem SetsNull.isItem {name : String} {is is' : List Bytes} (h : SetsNull name is is')
    (his : ∀ i ∈ is, IsItem .object i) : ∀ i ∈ is', IsItem .object i := by
  obtain ⟨hrest, hi⟩ := h
  intro j hj
  rcases List.mem_cons.1 (List.perm_middle.mem_iff.1 hj) with rfl | hmem
  · exact hi.isItem
  · rw [hrest] at hmem
    exact his j (List.mem_filter.1 hmem).1

variable {σ : Type} {fields : List (Member σ)}

theorem Entry.Reads.memberName? {e : Entry σ} (h : e.Reads fields) :
    Json.memberName? e.octets = some e.name := by
  cases h with
  | declared hname => simp [Json.memberName?, hname]
  | other hname => simp [Json.memberName?, hname]

theorem without_octets {es : List (Entry σ)} (h : ∀ e ∈ es, e.Reads fields) (name : String) :
    without name (es.map Entry.octets) = (es.filter (·.name ≠ name)).map Entry.octets := by
  rw [without, List.filter_map]
  congr 1
  apply List.filter_congr
  intro e he
  simp [(h e he).memberName?]

theorem Describes.without {start a : σ} {es : List (Entry σ)} (h : Describes fields start es a)
    (name : String) :
    Describes fields start (es.filter (·.name ≠ name))
      (apply (es.filter (·.name ≠ name)) start) where
  reads e he := h.reads e (List.mem_filter.1 he).1
  once := h.once.sublist ((List.filter_sublist.map _).filter _)
  result := rfl

/-- `null` is read, and leaves a record that nothing was read of as it is. -/
def Member.Nullable (field : Member σ) (start : σ) : Prop :=
  ∃ c, c start = start ∧
    ∀ b rest, Blanks b → field.value.read (b ++ (0x6e :: (ull ++ rest))) = .ok (c, rest)

def Reader.RefusesNull {α : Type} (r : Reader α) (expected : String) : Prop :=
  ∀ b rest, Blanks b →
    r.read (b ++ (0x6e :: (ull ++ rest))) = .error ⟨.wrongType .null expected, rest.length⟩

theorem blank_of_apply (hfields : Fields fields) {field : Member σ} (hfield : field ∈ fields)
    {c : σ → σ} (hc : field.Changes c) {es : List (Entry σ)}
    (hes : ∀ e ∈ es, e.Reads fields ∧ e.name ≠ field.name) {record : σ} (h : c record = record) :
    c (apply es record) = apply es record := by
  induction es generalizing record with
  | nil => exact h
  | cons e es ih =>
    obtain ⟨⟨hread, hne⟩, hes⟩ := List.forall_mem_cons.1 hes
    refine ih hes ?_
    cases hread with
    | @declared octets s u rest name other change _ _ hfind hread _ =>
      have hname : other.name = name := by simpa using List.find?_some hfind
      have hother := List.mem_of_find?_eq_some hfind
      have hcommute := hfields.commute field hfield other hother (by rw [hname]; exact hne.symm)
      rw [hcommute c change hc ⟨_, _, hread⟩, h]
    | other => exact h

theorem IsNull.reads {name : String} {i : Bytes} (h : IsNull name i) {field : Member σ}
    (hfind : fields.find? (·.name = name) = some field) {c : σ → σ}
    (hc : ∀ b rest, Blanks b → field.value.read (b ++ (0x6e :: (ull ++ rest))) = .ok (c, rest)) :
    Entry.Reads fields ⟨i, name, c⟩ := by
  obtain ⟨hl, hname, hb, hb'⟩ := h
  obtain ⟨s, hread, hcolon⟩ := nextName_of_label hl hname _
  exact .declared hread hcolon hfind (hc _ _ hb) hb'

/-- There is an object with these members, and reading any such object answers that. -/
def Answers (r : Reader σ) (is : List Bytes) (answer : Except Fault σ → Prop) : Prop :=
  (∃ doc, IsDocument .object is doc) ∧
    ∀ doc, IsDocument .object is doc → answer (r.document doc)

/-- Whatever was read, setting the member to `null` is as good as removing it. -/
def Missing (r : Reader σ) (name : String) : Prop :=
  ∀ is doc v, IsDocument .object is doc → r.document doc = .ok v →
    ∃ w, Answers r (without name is) (· = .ok w) ∧
      ∀ is', SetsNull name is is' → Answers r is' (· = .ok w)

/-- Whatever was read, the member may be removed, but it may not be `null`. -/
def NeverNull (r : Reader σ) (name expected : String) : Prop :=
  ∀ is doc v, IsDocument .object is doc → r.document doc = .ok v →
    (∃ w, Answers r (without name is) (· = .ok w)) ∧
      ∀ is', SetsNull name is is' →
        Answers r is' fun answer => ∃ left, answer = .error ⟨.wrongType .null expected, left⟩

theorem document_without (hfields : Fields fields) {title : String} {start v : σ}
    {is : List Bytes} {doc : Bytes} (hdoc : IsDocument .object is doc)
    (hread : (Reader.record title fields start).document doc = .ok v) (name : String) :
    ∃ es : List (Entry σ), es.map Entry.octets = without name is ∧
      Describes fields start es (apply es start) ∧ (∀ e ∈ es, e.name ≠ name) ∧
      Answers (.record title fields start) (without name is) (· = .ok (apply es start)) := by
  obtain ⟨es, rfl, hdescribes⟩ := (document_iff hfields.regular hdoc).1 hread
  have hwithout := without_octets hdescribes.reads name
  have hitems : ∀ i ∈ without name (es.map Entry.octets), IsItem .object i :=
    fun i hi => hdoc.isItem i (List.mem_filter.1 hi).1
  refine ⟨es.filter (·.name ≠ name), hwithout.symm, hdescribes.without name, ?_, ?_, ?_⟩
  · intro e he
    simpa using (List.mem_filter.1 he).2
  · exact ⟨_, isDocument_separated hitems⟩
  · intro doc' hdoc'
    exact (document_iff hfields.regular hdoc').2 ⟨_, hwithout.symm, hdescribes.without name⟩

theorem not_mem_declared (fields : List (Member σ)) {es : List (Entry σ)} {name : String}
    (h : ∀ e ∈ es, e.name ≠ name) : name ∉ declared fields es := by
  intro hmem
  obtain ⟨e, he, heq⟩ := List.mem_map.1 (List.mem_filter.1 hmem).1
  exact h e he heq

theorem SetsNull.among {name : String} {is is' : List Bytes} (h : SetsNull name is is')
    {es : List (Entry σ)} (hes : es.map Entry.octets = without name is) :
    ∃ (front back : List (Entry σ)) (i : Bytes), es = front ++ back ∧ IsNull name i ∧
      is' = front.map Entry.octets ++ i :: back.map Entry.octets := by
  obtain ⟨hrest, hi⟩ := h
  rw [← hes] at hrest
  obtain ⟨front, back, hes', rfl, rfl⟩ := List.map_eq_append_iff.1 hrest.symm
  exact ⟨front, back, _, hes', hi, rfl⟩

theorem missing_of_nullable (hfields : Fields fields) {title : String} {start : σ}
    {field : Member σ} (hfield : field ∈ fields) (hnull : field.Nullable start) :
    Missing (.record title fields start) field.name := by
  intro is doc v hdoc hread
  obtain ⟨es, hes, hdescribes, hne, hwithout⟩ := document_without hfields hdoc hread field.name
  refine ⟨apply es start, hwithout, ?_⟩
  intro is' hset
  refine ⟨⟨_, isDocument_separated (hset.isItem hdoc.isItem)⟩, ?_⟩
  intro doc' hdoc'
  obtain ⟨front, back, i, rfl, hi, rfl⟩ := hset.among hes
  obtain ⟨c, hstart, hc⟩ := hnull
  have hentry := hi.reads (find?_of_nodup hfields.once hfield) hc
  refine (document_iff hfields.regular hdoc').2
    ⟨front ++ ⟨i, field.name, c⟩ :: back, by simp, ?_, ?_, ?_⟩
  · intro e he
    rcases List.mem_cons.1 (List.perm_middle.mem_iff.1 he) with rfl | hmem
    · exact hentry
    · exact hdescribes.reads e hmem
  · refine ((List.perm_middle.map _).filter _).nodup_iff.2 ?_
    have hnew := not_mem_declared fields hne
    rw [List.map_cons, List.filter_cons]
    split
    · exact List.nodup_cons.2 ⟨hnew, hdescribes.once⟩
    · exact hdescribes.once
  -- The `null` comes to a field that nothing in front of it has touched.
  · have hfront : ∀ e ∈ front, e.Reads fields ∧ e.name ≠ field.name :=
      fun e he => ⟨hdescribes.reads e (by simp [he]), hne e (by simp [he])⟩
    have hblank := blank_of_apply hfields hfield ⟨_, _, hc [] [] .nil⟩ hfront hstart
    simp only [apply, List.foldl_append, List.foldl_cons] at hblank ⊢
    rw [hblank]

theorem members_refuse {seen : List String} {first : Bool} {record : σ} {s t u : Bytes}
    {name : String} {field : Member σ} {fault : Fault}
    (hn : nextName first s = .ok (some name, t))
    (hf : fields.find? (·.name = name) = some field) (hs : name ∉ seen) (hc : passColon t = .ok u)
    (hr : field.value.read u = .error fault) :
    members fields seen first record s = .error fault := by
  rw [members]
  split
  · simp_all
  · simp_all
  · next hn' =>
    obtain ⟨hname, rfl⟩ := Prod.mk.inj (Except.ok.inj (hn.symm.trans hn'))
    obtain rfl := Option.some.inj hname
    simp only [hf, if_neg hs]
    split
    · simp_all
    · next hc' =>
      obtain rfl := Except.ok.inj (hc.symm.trans hc')
      split <;> simp_all

theorem document_error {r : Reader σ} {doc : Bytes} {fault : Fault}
    (h : r.read doc = .error fault) : r.document doc = .error fault := by
  rw [Reader.document, h]

theorem neverNull_of_refusesNull (hfields : Fields fields) {title : String} {start : σ}
    {field : Member σ} (hfield : field ∈ fields) {expected : String}
    (hnull : field.value.RefusesNull expected) :
    NeverNull (.record title fields start) field.name expected := by
  intro is doc v hdoc hread
  obtain ⟨es, hes, hdescribes, hne, hwithout⟩ := document_without hfields hdoc hread field.name
  refine ⟨⟨_, hwithout⟩, ?_⟩
  intro is' hset
  refine ⟨⟨_, isDocument_separated (hset.isItem hdoc.isItem)⟩, ?_⟩
  intro doc' hdoc'
  obtain ⟨front, back, i, rfl, hi, rfl⟩ := hset.among hes
  obtain ⟨hl, hname, hb, hb'⟩ := hi
  obtain ⟨s, rest, hinside, -, hrecord⟩ := readRecord_object hdoc' title fields start
  -- Nothing in front of the `null` is refused, so that it is the `null` that is reported.
  have honce : (declared fields front ++ []).Nodup := by
    have hfront : (declared fields front).Sublist (declared fields (front ++ back)) :=
      ((List.sublist_append_left front back).map _).filter _
    simpa using hdescribes.once.sublist hfront
  obtain ⟨seen, first, s', hrest', hseen, hmembers⟩ := members_front hfields.regular
    (fun e he => hdescribes.reads e (by simp [he])) honce hinside start
  have hnew := not_mem_declared fields fun e (he : e ∈ front) => hne e (by simp [he])
  have hfresh : field.name ∉ seen := fun hmem => hnew (by simpa using hseen.mem_iff.2 hmem)
  obtain ⟨-, henters, -⟩ := hrest'.uncons
  simp only [List.append_assoc, List.cons_append] at henters
  obtain ⟨t, hread', hcolon⟩ := nextName_of_label hl hname _
  have hrefuse : members fields seen first (apply front start) s' = .error _ :=
    members_refuse (nextName_enters henters hread') (find?_of_nodup hfields.once hfield) hfresh
      hcolon (hnull _ _ hb)
  rw [hmembers, hrefuse] at hrecord
  exact ⟨_, document_error hrecord⟩

/-! ## Single fields -/

section Nulls
variable {α β : Type} {r : Reader α}

theorem Member.nullable_of {name : String} {set : Option α → σ → σ} {start : σ}
    (h : set none start = start) : (Member.of name r.orNull set).Nullable start := by
  refine ⟨set none, h, fun b rest hb => ?_⟩
  have hskip := skipBlank_stop hb (show isBlank 0x6e = false by decide) (ull ++ rest)
  simp [Member.of, Reader.map, Reader.orNull, hskip, word_complete, Except.map]

theorem wrongType_null (expected : String) (rest : Bytes) :
    wrongType expected (0x6e :: (ull ++ rest)) = ⟨.wrongType .null expected, rest.length⟩ := by
  simp [wrongType, word_complete]

theorem Reader.RefusesNull.list : r.list.RefusesNull "a sequence" := by
  intro b rest hb
  change readList r _ = _
  rw [readList, startingValue, skipBlank_stop hb (by decide)]
  simp [wrongType_null]

theorem Reader.RefusesNull.entries : r.entries.RefusesNull "a map" := by
  intro b rest hb
  change readEntries r _ = _
  rw [readEntries, startingValue, skipBlank_stop hb (by decide)]
  simp [wrongType_null]

theorem Reader.RefusesNull.map {expected : String} (h : r.RefusesNull expected) (f : α → β) :
    (r.map f).RefusesNull expected := by
  intro b rest hb
  change (r.read _).map _ = _
  rw [h b rest hb]
  rfl

theorem Member.refusesNull_of {expected : String} (h : r.RefusesNull expected) (name : String)
    (set : α → σ → σ) : (Member.of name r set).value.RefusesNull expected := h.map set

end Nulls

/-! ## Written objects -/

theorem isText_writeText (t : String) : IsText (writeText t) := by
  obtain ⟨t', ht, heq⟩ := text_form (text_writeText t [])
  rw [← writeText_append, List.append_nil, List.append_nil] at heq
  rwa [heq]

theorem isLabel_written (name : String) : IsLabel .object (writeText name ++ [0x3a]) := by
  simpa using IsLabel.name .nil (isText_writeText name) .nil

theorem memberName?_written (name : String) (s : Bytes) :
    memberName? (writeText name ++ s) = some name := by
  simp [memberName?, nextName_first]

theorem IsNull.written (name : String) : IsNull name (writeMember name writeNull) := by
  have hnull := IsNull.mk (isLabel_written name) (memberName?_written name [0x3a]) .nil .nil
  simpa [writeMember, writeNull, ull] using hnull

theorem isItem_written (name : String) {v : Bytes} (hv : IsValue v) :
    IsItem .object (writeMember name v) := by
  simpa [writeMember] using IsItem.mk (isLabel_written name) .nil hv .nil

theorem isDocument_written {ms : List (String × Bytes)} (h : ∀ m ∈ ms, IsValue m.2) :
    IsDocument .object (ms.map fun m => writeMember m.1 m.2) (writeObject ms) :=
  isDocument_separated (List.forall_mem_map.2 fun m hm => isItem_written m.1 (h m hm))

theorem without_written (name : String) (ms : List (String × Bytes)) :
    without name (ms.map fun m => writeMember m.1 m.2) =
      (ms.filter (·.1 ≠ name)).map fun m => writeMember m.1 m.2 := by
  rw [without, List.filter_map]
  congr 1
  apply List.filter_congr
  intro m _
  simp [writeMember, memberName?_written]

end Json

open Json (Member Reader Missing NeverNull)

theorem Line.nullable : ∀ field ∈ Line.members, field.Nullable Line.blank := by
  simp only [Line.members, List.forall_mem_cons]
  exact ⟨Member.nullable_of rfl, Member.nullable_of rfl, by simp⟩

theorem Transaction.nullable :
    ∀ field ∈ Transaction.members, field.Nullable Transaction.blank := by
  simp only [Transaction.members, List.forall_mem_cons]
  and_intros <;> first | exact Member.nullable_of rfl | simp

theorem Shipment.nullable : ∀ field ∈ Shipment.members, field.name ≠ "lines" →
    field.name ≠ "attributes" → field.Nullable Shipment.blank := by
  simp only [Shipment.members, List.forall_mem_cons]
  and_intros <;> first | exact fun _ _ => Member.nullable_of rfl | simp [Member.of]

/-- Every member of the three documents may be removed, and setting it to `null` comes to the same,
but for the lines and the attributes of a shipment, which are then of the wrong type. -/
theorem null_is_missing :
    (∀ field ∈ Shipment.members, field.name ≠ "lines" → field.name ≠ "attributes" →
      Missing Shipment.reader field.name) ∧
    NeverNull Shipment.reader "lines" "a sequence" ∧
    NeverNull Shipment.reader "attributes" "a map" ∧
    (∀ field ∈ Line.members, Missing Line.reader field.name) ∧
    ∀ field ∈ Transaction.members, Missing Transaction.reader field.name := by
  refine ⟨?_, ?_, ?_, ?_, ?_⟩
  · intro field hfield hlines hattributes
    exact Json.missing_of_nullable Shipment.fields hfield
      (Shipment.nullable field hfield hlines hattributes)
  · have hlines : Line.reader.list.RefusesNull "a sequence" := .list
    exact Json.neverNull_of_refusesNull Shipment.fields (List.mem_of_getElem? (i := 6) rfl)
      (Member.refusesNull_of hlines _ _)
  · have hattributes : Shipment.attributesReader.RefusesNull "a map" := .map .entries _
    exact Json.neverNull_of_refusesNull Shipment.fields (List.mem_of_getElem? (i := 7) rfl)
      (Member.refusesNull_of hattributes _ _)
  · intro field hfield
    exact Json.missing_of_nullable Line.fields hfield (Line.nullable field hfield)
  · intro field hfield
    exact Json.missing_of_nullable Transaction.fields hfield (Transaction.nullable field hfield)

/-- An origin that was known. -/
theorem null_is_missing_origin :
    let id := ("id", Json.writeText "S-1")
    let start := { Shipment.blank with id := some "S-1" }
    Shipment.ofDocument (Json.writeObject [id, ("origin", Json.writeText "WH")]) =
        .ok { start with origin := some "WH" } ∧
      Shipment.ofDocument (Json.writeObject [id]) = .ok start ∧
      Shipment.ofDocument (Json.writeObject [id, ("origin", Json.writeNull)]) = .ok start := by
  intro id start
  have hid : Json.IsValue id.2 := .text (Json.isText_writeText "S-1")
  have horigin : Json.IsValue (Json.writeText "WH") := .text (Json.isText_writeText "WH")
  have hread : Shipment.reader.document (Json.writeObject [id, ("origin", Json.writeText "WH")]) =
      .ok { start with origin := some "WH" } := by decide +kernel
  have hremoved : Shipment.reader.document (Json.writeObject [id]) = .ok start := by
    decide +kernel
  have hmissing : Missing Shipment.reader "origin" :=
    null_is_missing.1 _ (List.mem_of_getElem? (i := 4) rfl) (by decide) (by decide)
  obtain ⟨w, ⟨-, hwithout⟩, hnull⟩ := hmissing _ _ _
    (Json.isDocument_written (by simp [hid, horigin])) hread
  obtain rfl : w = start := by
    rw [Json.without_written] at hwithout
    have hsame := hwithout _ (Json.isDocument_written (by simp [id, hid]))
    exact Except.ok.inj (hsame.symm.trans hremoved)
  have hset := @Json.SetsNull.mk "origin" _ [Json.writeMember id.1 id.2] [] _
    (Json.without_written "origin" [id, ("origin", Json.writeText "WH")]).symm (.written "origin")
  have hdoc := @Json.isDocument_written [id, ("origin", Json.writeNull)]
    (by simp [hid, Json.writeNull, Json.IsValue.null])
  exact ⟨hread, hremoved, (hnull _ hset).2 _ hdoc⟩

/-- Lines may be missing, but whoever sets them to `null` sends no shipment. -/
theorem null_is_not_missing :
    Shipment.ofDocument (Json.writeObject []) = .ok .blank ∧
      Shipment.ofDocument (Json.writeObject [("lines", Json.writeNull)]) =
        .error ⟨.wrongType .null "a sequence", 1⟩ ∧
      ¬ Missing Shipment.reader "lines" := by
  have hempty : Shipment.reader.document (Json.writeObject []) = .ok .blank := by decide +kernel
  have hlines : Shipment.reader.document (Json.writeObject [("lines", Json.writeNull)]) =
      .error ⟨.wrongType .null "a sequence", 1⟩ := by decide +kernel
  refine ⟨hempty, hlines, fun hmissing => ?_⟩
  obtain ⟨w, -, hnull⟩ := hmissing _ _ _ (Json.isDocument_written (by simp)) hempty
  have hset := @Json.SetsNull.mk "lines" [] [] [] _ rfl (.written "lines")
  have hdoc := @Json.isDocument_written [("lines", Json.writeNull)]
    (by simp [Json.writeNull, Json.IsValue.null])
  have hread := (hnull _ hset).2 _ hdoc
  rw [hlines] at hread
  cases hread

end Consignment
