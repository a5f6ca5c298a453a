import Mathlib.Data.List.Nodup
import Mathlib.Data.List.Perm.Basic
import Consignment.Proofs.Json.Elements
import Consignment.Proofs.Missing

/-! The members of an object come in any order, and among them may stand others that nobody asks
for, whatever they hold. -/
namespace Consignment

namespace Json
variable {σ : Type} {fields : List (Member σ)}

/-- A member under a name that is not declared. Its value may be any. -/
structure Unasked (fields : List (Member σ)) (i : Bytes) : Prop where
  item : IsItem .object i
  named : ∃ name, memberName? i = some name ∧ ∀ field ∈ fields, field.name ≠ name

/-- Instead of each of the items stands one that is alike, all of them in any order, and members
that nobody asks for among them. -/
def Shuffled (fields : List (Member σ)) (alike : Bytes → Bytes → Prop) (is js : List Bytes) :
    Prop :=
  ∃ is' extra, List.Forall₂ alike is is' ∧ (∀ i ∈ extra, Unasked fields i) ∧
    js.Perm (is' ++ extra)

/-- Whatever was read is read from shuffled members too. -/
def Indifferent (r : Reader σ) (fields : List (Member σ)) (alike : Bytes → Bytes → Prop) : Prop :=
  ∀ is doc v, IsDocument .object is doc → r.document doc = .ok v →
    ∀ js, Shuffled fields alike is js → Answers r js (· = .ok v)

/-! ## Single members -/

theorem memberName?_eq_some {i : Bytes} {name : String} :
    memberName? i = some name ↔ ∃ s, nextName true i = .ok (some name, s) := by
  unfold memberName?
  constructor
  · intro h
    split at h
    · next s hread => exact ⟨s, h ▸ hread⟩
    · cases h
  · rintro ⟨s, hread⟩
    rw [hread]

theorem Unasked.reads {i : Bytes} (h : Unasked fields i) :
    ∃ name, Entry.Reads fields ⟨i, name, id⟩ ∧ declares fields name = false := by
  obtain ⟨⟨hl, hb, hv, hb'⟩, name, hname, hother⟩ := h
  obtain ⟨s, hread⟩ := memberName?_eq_some.1 hname
  have hcolon := (passName_of_nextName hread).symm.trans (passName_complete hl _)
  have hpass := (pass_iff hb'.apart).2 ((hv.takes _).behind hb)
  have hfind : fields.find? (·.name = name) = none := by
    simpa [List.find?_eq_none] using hother
  exact ⟨name, .other hread hcolon hfind hpass hb', by simp [declares, hfind]⟩

theorem Entry.Reads.isItem (hfields : Fields fields) {e : Entry σ} (h : e.Reads fields) :
    IsItem .object e.octets := by
  cases h with
  | declared hname hcolon hfind hread hrest =>
    obtain ⟨label, hl, heq⟩ := nextName_form hname hcolon
    have hregular := hfields.regular _ (List.mem_of_find?_eq_some hfind)
    obtain ⟨b, v, hb, hv, rfl⟩ := hregular.formed.takes hread
    exact heq.symm ▸ .mk hl hb hv hrest
  | other hname hcolon _ hpass hrest =>
    obtain ⟨label, hl, heq⟩ := nextName_form hname hcolon
    obtain ⟨b, v, hb, hv, rfl⟩ := pass_form hpass
    exact heq.symm ▸ .mk hl hb hv hrest

theorem Entry.Reads.change_eq_id {e : Entry σ} (h : e.Reads fields)
    (hname : declares fields e.name = false) : e.change = id := by
  cases h with
  | declared _ _ hfind => simp [declares, hfind] at hname
  | other => rfl

theorem Entry.Reads.commute (hfields : Fields fields) {e f : Entry σ} (he : e.Reads fields)
    (hf : f.Reads fields) (hne : e.name ≠ f.name) (record : σ) :
    e.change (f.change record) = f.change (e.change record) := by
  cases he with
  | other => rfl
  | @declared _ _ _ _ name field change _ _ hfind hread _ =>
    cases hf with
    | other => rfl
    | @declared _ _ _ _ name' field' change' _ _ hfind' hread' _ =>
      have hname : field.name = name := by simpa using List.find?_some hfind
      have hname' : field'.name = name' := by simpa using List.find?_some hfind'
      refine hfields.commute field (List.mem_of_find?_eq_some hfind) field'
        (List.mem_of_find?_eq_some hfind') ?_ change change' ⟨_, _, hread⟩ ⟨_, _, hread'⟩ record
      rwa [hname, hname']

/-! ## Whole objects -/

theorem apply_append (es fs : List (Entry σ)) (record : σ) :
    apply (es ++ fs) record = apply fs (apply es record) := List.foldl_append

theorem declared_append (es fs : List (Entry σ)) :
    declared fields (es ++ fs) = declared fields es ++ declared fields fs := by
  simp [declared]

theorem apply_undeclared {es : List (Entry σ)} (hreads : ∀ e ∈ es, e.Reads fields)
    (hname : ∀ e ∈ es, declares fields e.name = false) (record : σ) : apply es record = record := by
  induction es with
  | nil => rfl
  | cons e es ih =>
    obtain ⟨he, hreads⟩ := List.forall_mem_cons.1 hreads
    obtain ⟨hnot, hname⟩ := List.forall_mem_cons.1 hname
    rw [apply, List.foldl_cons, he.change_eq_id hnot]
    exact ih hreads hname

theorem declared_undeclared {es : List (Entry σ)}
    (hname : ∀ e ∈ es, declares fields e.name = false) : declared fields es = [] := by
  rw [declared, List.filter_eq_nil_iff, List.forall_mem_map]
  intro e he
  simp [hname e he]

namespace Describes
variable {start a : σ} {es fs : List (Entry σ)}

theorem eq_of_name (h : Describes fields start es a) {e f : Entry σ} (he : e ∈ es) (hf : f ∈ es)
    (hname : e.name = f.name) (hdeclared : declares fields e.name = true) : e = f := by
  have honce := h.once
  rw [declared, List.filter_map] at honce
  refine List.inj_on_of_nodup_map honce ?_ ?_ hname
  · exact List.mem_filter.2 ⟨he, hdeclared⟩
  · exact List.mem_filter.2 ⟨hf, by simpa [← hname] using hdeclared⟩

theorem perm (hfields : Fields fields) (h : Describes fields start es a) (hperm : fs.Perm es) :
    Describes fields start fs a := by
  refine ⟨fun e he => h.reads e (hperm.mem_iff.1 he), ?_, ?_⟩
  · exact ((hperm.map _).filter _).nodup_iff.2 h.once
  · rw [← h.result]
    refine hperm.foldl_eq' ?_ start
    intro e he f hf record
    have hreads := h.reads e (hperm.mem_iff.1 he)
    have hreads' := h.reads f (hperm.mem_iff.1 hf)
    by_cases hname : e.name = f.name
    · cases hd : declares fields e.name with
      | true =>
        rw [h.eq_of_name (hperm.mem_iff.1 he) (hperm.mem_iff.1 hf) hname hd]
      | false => rw [hreads.change_eq_id hd, hreads'.change_eq_id (hname ▸ hd)]
    · exact (hreads.commute hfields hreads' hname record).symm

theorem append_undeclared (h : Describes fields start es a) (hreads : ∀ f ∈ fs, f.Reads fields)
    (hname : ∀ f ∈ fs, declares fields f.name = false) :
    Describes fields start (es ++ fs) a := by
  refine ⟨?_, ?_, ?_⟩
  · exact List.forall_mem_append.2 ⟨h.reads, hreads⟩
  · simpa [declared_append, declared_undeclared hname] using h.once
  · rw [apply_append, h.result, apply_undeclared hreads hname]

theorem alike (h : Describes fields start es a) {alike : Bytes → Bytes → Prop}
    (halike : ∀ e : Entry σ, e.Reads fields → ∀ i, alike e.octets i →
      Entry.Reads fields ⟨i, e.name, e.change⟩) {is : List Bytes}
    (his : List.Forall₂ alike (es.map Entry.octets) is) :
    ∃ fs : List (Entry σ), fs.map Entry.octets = is ∧ Describes fields start fs a := by
  suffices hlist : ∃ fs : List (Entry σ), fs.map Entry.octets = is ∧
      (∀ f ∈ fs, f.Reads fields) ∧ fs.map Entry.name = es.map Entry.name ∧
      ∀ record, apply fs record = apply es record by
    obtain ⟨fs, hoctets, hreads, hnames, hsame⟩ := hlist
    refine ⟨fs, hoctets, hreads, ?_, (hsame start).trans h.result⟩
    rw [declared, hnames]
    exact h.once
  have hreads := h.reads
  clear h
  induction es generalizing is with
  | nil =>
    cases his
    exact ⟨[], rfl, by simp, rfl, fun _ => rfl⟩
  | cons e es ih =>
    cases his with
    | cons hi his =>
      obtain ⟨he, hreads⟩ := List.forall_mem_cons.1 hreads
      obtain ⟨fs, rfl, hfs, hnames, hsame⟩ := ih his hreads
      refine ⟨⟨_, e.name, e.change⟩ :: fs, rfl, ?_, by simp [hnames], fun record => hsame _⟩
      exact List.forall_mem_cons.2 ⟨halike e he _ hi, hfs⟩

end Describes

theorem exists_entries {is : List Bytes} (h : ∀ i ∈ is, Unasked fields i) :
    ∃ es : List (Entry σ), es.map Entry.octets = is ∧ (∀ e ∈ es, e.Reads fields) ∧
      ∀ e ∈ es, declares fields e.name = false := by
  induction is with
  | nil => exact ⟨[], rfl, by simp, by simp⟩
  | cons i is ih =>
    obtain ⟨hi, his⟩ := List.forall_mem_cons.1 h
    obtain ⟨es, rfl, hreads, hnames⟩ := ih his
    obtain ⟨name, hread, hname⟩ := hi.reads
    exact ⟨⟨i, name, id⟩ :: es, rfl, List.forall_mem_cons.2 ⟨hread, hreads⟩,
      List.forall_mem_cons.2 ⟨hname, hnames⟩⟩

theorem indifferent_of_alike (hfields : Fields fields) {title : String} {start : σ}
    {alike : Bytes → Bytes → Prop}
    (halike : ∀ e : Entry σ, e.Reads fields → ∀ i, alike e.octets i →
      Entry.Reads fields ⟨i, e.name, e.change⟩) :
    Indifferent (.record title fields start) fields alike := by
  rintro is doc v hdoc hread js ⟨is', extra, his, hextra, hperm⟩
  obtain ⟨es, rfl, hdescribes⟩ := (document_iff hfields.regular hdoc).1 hread
  obtain ⟨fs, rfl, hsame⟩ := hdescribes.alike halike his
  obtain ⟨gs, rfl, hreads, hnames⟩ := exists_entries hextra
  rw [← List.map_append] at hperm
  obtain ⟨all, rfl, hall⟩ : ∃ all : List (Entry σ), js = all.map Entry.octets ∧
      all.Perm (fs ++ gs) := by
    have hcomp := List.eq_map_comp_perm (Entry.octets (σ := σ))
    exact (congrFun (congrFun hcomp js) (fs ++ gs)).mpr hperm
  have hshuffled := (hsame.append_undeclared hreads hnames).perm hfields hall
  have hitems : ∀ i ∈ all.map Entry.octets, IsItem .object i :=
    List.forall_mem_map.2 fun e he => (hshuffled.reads e he).isItem hfields
  exact ⟨⟨_, isDocument_separated hitems⟩, fun doc' hdoc' =>
    (document_iff hfields.regular hdoc').2 ⟨all, rfl, hshuffled⟩⟩

theorem indifferent (hfields : Fields fields) (title : String) (start : σ) :
    Indifferent (.record title fields start) fields Eq := by
  refine indifferent_of_alike hfields ?_
  rintro e he _ rfl
  exact he

/-! ## Written objects -/

theorem isItem_element {v : Bytes} (hv : IsValue v) : IsItem .list v := by
  simpa using IsItem.mk .nothing .nil hv .nil

theorem isDocument_writeList {vs : List Bytes} (h : ∀ v ∈ vs, IsValue v) :
    IsDocument .list vs (writeList vs) :=
  isDocument_separated fun v hv => isItem_element (h v hv)

theorem isValue_writeList {vs : List Bytes} (h : ∀ v ∈ vs, IsValue v) :
    IsValue (writeList vs) :=
  (holds_separated fun v hv => isItem_element (h v hv)).isValue

theorem isValue_writeObject {ms : List (String × Bytes)} (h : ∀ m ∈ ms, IsValue m.2) :
    IsValue (writeObject ms) := by
  have hitems : ∀ i ∈ ms.map fun m => writeMember m.1 m.2, IsItem .object i :=
    List.forall_mem_map.2 fun m hm => isItem_written m.1 (h m hm)
  exact (holds_separated hitems).isValue

theorem Unasked.written {name : String} {v : Bytes} (hv : IsValue v)
    (hname : ∀ field ∈ fields, field.name ≠ name) : Unasked fields (writeMember name v) :=
  ⟨isItem_written name hv, name, memberName?_written name _, hname⟩

end Json

open Json (Fields Member Reader Entry IsLabel IsDocument Shuffled Indifferent memberName?)

inductive Line.Alike : Bytes → Bytes → Prop
  | same (l : Bytes) : Alike l l
  | shuffled {is js : List Bytes} {l l' : Bytes} : IsDocument .object is l →
    IsDocument .object js l' → Shuffled Line.members Eq is js → Alike l l'

inductive Shipment.Alike : Bytes → Bytes → Prop
  | same (i : Bytes) : Alike i i
  | lines {label u u' : Bytes} {ls ls' : List Bytes} : IsLabel .object label →
    memberName? label = some "lines" → IsDocument .list ls u → IsDocument .list ls' u' →
    List.Forall₂ Line.Alike ls ls' → Alike (label ++ u) (label ++ u')

theorem Line.Alike.document {l l' : Bytes} (h : Line.Alike l l') {line : Line}
    (hread : Line.reader.document l = .ok line) : Line.reader.document l' = .ok line := by
  cases h with
  | same => exact hread
  | shuffled hdoc hdoc' hshuffled =>
    exact (Json.indifferent Line.fields _ _ _ _ _ hdoc hread _ hshuffled).2 _ hdoc'

theorem Line.documents_of_alike {ls ls' : List Bytes} (h : List.Forall₂ Line.Alike ls ls')
    {lines : List Line}
    (hreads : List.Forall₂ (fun l a => Line.reader.document l = .ok a) ls lines) :
    List.Forall₂ (fun l a => Line.reader.document l = .ok a) ls' lines := by
  induction h generalizing lines with
  | nil => exact hreads
  | cons hl _ ih =>
    cases hreads with
    | cons hread hreads => exact .cons (hl.document hread) (ih hreads)

theorem Shipment.Alike.reads {e : Entry Shipment} (he : e.Reads Shipment.members) {i : Bytes}
    (h : Shipment.Alike e.octets i) : Entry.Reads Shipment.members ⟨i, e.name, e.change⟩ := by
  obtain ⟨octets, name, change⟩ := e
  cases h with
  | same => exact he
  | @lines label u u' ls ls' hl hlines hdoc hdoc' halike =>
    obtain ⟨s, hname, hcolon⟩ := Json.nextName_of_label hl hlines u
    obtain ⟨s', hname', hcolon'⟩ := Json.nextName_of_label hl hlines u'
    have hregular : Line.reader.Regular := .record Line.fields.regular _ _
    have hskip : Line.reader.SkipsBlanks := .record _ _ _
    cases he with
    | declared hn hc hfind hread hrest =>
      obtain ⟨hlabel, rfl⟩ := Prod.mk.inj (Except.ok.inj (hname.symm.trans hn))
      obtain rfl := Option.some.inj hlabel
      obtain rfl := Except.ok.inj (hcolon.symm.trans hc)
      obtain rfl := Option.some.inj hfind
      obtain ⟨⟨as, _⟩, hlist, he⟩ := Json.map_eq_ok.1 hread
      cases he
      have hreads := (Json.list_document_iff hregular hskip hdoc).1
        (Json.Reader.document_eq_ok.2 ⟨_, hlist, hrest⟩)
      obtain ⟨rest', hlist', hrest'⟩ := Json.Reader.document_eq_ok.1
        ((Json.list_document_iff hregular hskip hdoc').2 (Line.documents_of_alike halike hreads))
      refine .declared hname' hcolon' rfl ?_ hrest'
      exact Json.map_eq_ok.2 ⟨_, hlist', rfl⟩
    | other hn _ hfind =>
      obtain ⟨hlabel, -⟩ := Prod.mk.inj (Except.ok.inj (hname.symm.trans hn))
      obtain rfl := Option.some.inj hlabel
      cases hfind

/-- The members of shipments, of their lines and of transactions may come in any order, and others
may stand among them, without anything else being read. -/
theorem members_in_any_order :
    Indifferent Shipment.reader Shipment.members Shipment.Alike ∧
    Indifferent Line.reader Line.members Eq ∧
    Indifferent Transaction.reader Transaction.members Eq :=
  ⟨Json.indifferent_of_alike Shipment.fields fun _ he _ halike => halike.reads he,
    Json.indifferent Line.fields _ _, Json.indifferent Transaction.fields _ _⟩

/-- A line with its members the other way round and one more, in a shipment of which the same
holds. -/
theorem members_in_any_order_nested :
    let id := ("id", Json.writeText "S-1")
    let sku := ("sku", Json.writeText "A")
    let quantity := ("quantity", Json.writeInteger 2)
    let unit := ("unit", Json.writeObject [("sku", Json.writeList [Json.writeNull])])
    let lines (line : List (String × Bytes)) := ("lines", Json.writeList [Json.writeObject line])
    let start := { Shipment.blank with id := some "S-1", lines := [⟨some "A", some 2⟩] }
    Shipment.ofDocument (Json.writeObject [id, lines [sku, quantity]]) = .ok start ∧
      Shipment.ofDocument (Json.writeObject [lines [quantity, unit, sku], unit, id]) =
        .ok start := by
  intro id sku quantity unit lines start
  have hread : Shipment.reader.document (Json.writeObject [id, lines [sku, quantity]]) =
      .ok start := by decide +kernel
  have hid : Json.IsValue id.2 := .text (Json.isText_writeText _)
  have hsku : Json.IsValue sku.2 := .text (Json.isText_writeText _)
  have htwo : Json.Digits [0x32] := ⟨List.cons_ne_nil _ _, List.forall_mem_singleton.2 (by decide)⟩
  have hquantity : Json.IsValue quantity.2 :=
    .numeral (@Json.IsNumeral.mk [] [0x32] [] [] (.inl rfl) (.digits (by decide) htwo) .nothing
      .nothing)
  have hnull : Json.IsValue (Json.writeList [Json.writeNull]) := by
    apply Json.isValue_writeList
    rintro v hv
    obtain rfl := List.mem_singleton.1 hv
    exact .null
  have hunit : Json.IsValue unit.2 := by
    apply Json.isValue_writeObject
    rintro m hm
    obtain rfl := List.mem_singleton.1 hm
    exact hnull
  have hother : ∀ {σ : Type} {fields : List (Member σ)}, (∀ field ∈ fields, field.name ≠ "unit") →
      ∀ i ∈ [Json.writeMember unit.1 unit.2], Json.Unasked fields i := by
    intro σ fields hname
    simpa using Json.Unasked.written hunit hname
  have hline : Shuffled Line.members Eq
      ([sku, quantity].map fun m => Json.writeMember m.1 m.2)
      ([quantity, unit, sku].map fun m => Json.writeMember m.1 m.2) :=
    ⟨_, [Json.writeMember unit.1 unit.2], List.forall₂_same.2 fun _ _ => rfl, hother (by decide),
      (List.perm_append_singleton sku [quantity, unit]).map _⟩
  have hdoc := @Json.isDocument_written [sku, quantity] (by simp [hsku, hquantity])
  have hdoc' := @Json.isDocument_written [quantity, unit, sku] (by simp [hsku, hquantity, hunit])
  have hlist : ∀ {line : List (String × Bytes)}, (∀ m ∈ line, Json.IsValue m.2) →
      IsDocument .list [Json.writeObject line] (lines line).2 ∧ Json.IsValue (lines line).2 := by
    intro line hvalues
    have hall : ∀ v ∈ [Json.writeObject line], Json.IsValue v := by
      simpa using Json.isValue_writeObject hvalues
    exact ⟨Json.isDocument_writeList hall, Json.isValue_writeList hall⟩
  have hold := @hlist [sku, quantity] (by simp [hsku, hquantity])
  have hnew := @hlist [quantity, unit, sku] (by simp [hsku, hquantity, hunit])
  have halike := Shipment.Alike.lines (Json.isLabel_written "lines")
    (Json.memberName?_written "lines" [0x3a]) hold.1 hnew.1
    (.cons (.shuffled hdoc hdoc' hline) .nil)
  simp only [List.append_assoc, List.cons_append, List.nil_append] at halike
  have hshuffled : Shuffled Shipment.members Shipment.Alike
      ([id, lines [sku, quantity]].map fun m => Json.writeMember m.1 m.2)
      ([lines [quantity, unit, sku], unit, id].map fun m => Json.writeMember m.1 m.2) :=
    ⟨_, [Json.writeMember unit.1 unit.2], .cons (.same _) (.cons halike .nil), hother (by decide),
      (List.perm_append_singleton id [lines [quantity, unit, sku], unit]).map _⟩
  have hwritten := @Json.isDocument_written [id, lines [sku, quantity]] (by simp [hid, hold.2])
  have hwritten' := @Json.isDocument_written [lines [quantity, unit, sku], unit, id]
    (by simp [hid, hunit, hnew.2])
  exact ⟨hread, (members_in_any_order.1 _ _ _ hwritten hread _ hshuffled).2 _ hwritten'⟩

end Consignment
