import Consignment.Proofs.Json.Local

/-! What an object says, member by member. Each member is read on its own, and what the record comes
to is what the members do to it one after the other. -/
namespace Consignment.Json

/-- A member of an object: its octets between the commas, its name, and what it does to a record. -/
structure Entry (σ : Type) where
  octets : Bytes
  name : String
  change : σ → σ

section Records
variable {σ : Type}

def declares (fields : List (Member σ)) (name : String) : Bool :=
  (fields.find? (·.name = name)).isSome

/-- What the octets are read as with nothing behind them. Under a name that is not declared, any
value will do. -/
inductive Entry.Reads (fields : List (Member σ)) : Entry σ → Prop
  | declared {octets s u rest : Bytes} {name : String} {field : Member σ} {change : σ → σ}
    (hname : nextName true octets = .ok (some name, s)) (hcolon : passColon s = .ok u)
    (hfind : fields.find? (·.name = name) = some field)
    (hread : field.value.read u = .ok (change, rest)) (hrest : Blanks rest) :
    Reads fields ⟨octets, name, change⟩
  | other {octets s u rest : Bytes} {name : String}
    (hname : nextName true octets = .ok (some name, s)) (hcolon : passColon s = .ok u)
    (hfind : fields.find? (·.name = name) = none) (hpass : pass u = .ok rest)
    (hrest : Blanks rest) : Reads fields ⟨octets, name, id⟩

def declared (fields : List (Member σ)) (es : List (Entry σ)) : List String :=
  (es.map Entry.name).filter (declares fields)

def apply (es : List (Entry σ)) (record : σ) : σ := es.foldl (fun r e => e.change r) record

variable {fields : List (Member σ)}

def seenWith (fields : List (Member σ)) (seen : List String) (name : String) : List String :=
  if declares fields name then name :: seen else seen

theorem declared_cons_perm (seen : List String) (e : Entry σ) (es : List (Entry σ)) :
    (declared fields (e :: es) ++ seen).Perm
      (declared fields es ++ seenWith fields seen e.name) := by
  unfold declared seenWith
  cases hd : declares fields e.name with
  | true => simpa [hd] using List.perm_middle.symm
  | false => simp [hd]

theorem Entry.Reads.step (hfields : ∀ field ∈ fields, field.value.Regular) {e : Entry σ}
    (h : e.Reads fields) {seen : List String} (hfresh : (seenWith fields seen e.name).Nodup)
    {first : Bool} {s t : Bytes} (hs : Enters first s (e.octets ++ t)) (ht : Apart t) (record : σ) :
    ∃ b, Blanks b ∧ members fields seen first record s =
      members fields (seenWith fields seen e.name) false (e.change record) (b ++ t) := by
  cases h with
  | @declared octets s' u rest name field change hname hcolon hfind hread hrest =>
    have hfield := (hfields _ (List.mem_of_find?_eq_some hfind)).places
    obtain ⟨v, rfl, hv⟩ := hfield.anywhere hread hrest.apart
    obtain ⟨n, hn, hlabel⟩ := label_split hname hcolon
    obtain rfl : octets = _ := hn
    obtain ⟨m, hname', hcolon'⟩ := hlabel (v ++ (rest ++ t))
    have hseen : seenWith fields seen name = name :: seen :=
      if_pos (by simp [declares, hfind])
    simp only [hseen] at hfresh ⊢
    simp only [List.append_assoc] at hs
    refine ⟨rest, hrest, ?_⟩
    rw [members_go (nextName_enters hs hname') hfind (List.nodup_cons.1 hfresh).1 hcolon'
      (hv _ (ht.behind hrest))]
  | @other octets s' u rest name hname hcolon hfind hpass hrest =>
    obtain ⟨v, rfl, hv⟩ := pass_local hpass
    obtain ⟨n, hn, hlabel⟩ := label_split hname hcolon
    obtain rfl : octets = _ := hn
    obtain ⟨m, hname', hcolon'⟩ := hlabel (v ++ (rest ++ t))
    have hseen : seenWith fields seen name = seen := if_neg (by simp [declares, hfind])
    simp only [hseen]
    simp only [List.append_assoc] at hs
    refine ⟨rest, hrest, ?_⟩
    rw [members_over (nextName_enters hs hname') hfind hcolon' (hv _ (ht.behind hrest))]
    rfl

theorem members_front (hfields : ∀ field ∈ fields, field.value.Regular) {es : List (Entry σ)}
    (hreads : ∀ e ∈ es, e.Reads fields) {seen : List String}
    (hfresh : (declared fields es ++ seen).Nodup) {first : Bool} {is : List Bytes}
    {s rest : Bytes} (hs : Inside first .object (es.map Entry.octets ++ is) s rest) (record : σ) :
    ∃ seen' first' s', Inside first' .object is s' rest ∧
      (declared fields es ++ seen).Perm seen' ∧
      members fields seen first record s = members fields seen' first' (apply es record) s' := by
  induction es generalizing seen first s record with
  | nil => exact ⟨seen, first, s, hs, .refl _, rfl⟩
  | cons e es ih =>
    obtain ⟨he, hreads⟩ := List.forall_mem_cons.1 hreads
    obtain ⟨-, henters, hinside⟩ := hs.uncons
    have hperm : (declared fields (e :: es) ++ seen).Perm _ := declared_cons_perm seen e es
    have hfresh' := hperm.nodup_iff.1 hfresh
    obtain ⟨b, hb, hstep⟩ := he.step hfields (List.nodup_append.1 hfresh').2.1 henters
      (apart_items .object _ rest) record
    obtain ⟨seen', first', s', hinside', hseen, hmembers⟩ :=
      ih hreads hfresh' (hinside.behind hb) (e.change record)
    exact ⟨seen', first', s', hinside', hperm.trans hseen, hstep.trans hmembers⟩

theorem members_join (hfields : ∀ field ∈ fields, field.value.Regular) {es : List (Entry σ)}
    (hreads : ∀ e ∈ es, e.Reads fields) {seen : List String}
    (hfresh : (declared fields es ++ seen).Nodup) {first : Bool} {s rest : Bytes}
    (hs : Inside first .object (es.map Entry.octets) s rest) (record : σ) :
    ∃ mid, members fields seen first record s = .ok (apply es record, mid) ∧
      endObject mid = .ok rest := by
  rw [← List.append_nil (es.map _)] at hs
  obtain ⟨seen', first', s', hinside, -, hmembers⟩ := members_front hfields hreads hfresh hs record
  obtain ⟨b, hb, rfl⟩ := hinside.stop
  exact ⟨0x7d :: rest, hmembers.trans (members_stop (nextName_end hb first' rest)),
    endObject_complete .nil rest⟩

/-- A member whose value was taken is an item of the object, and is taken alike on its own. `R` says
from where to where the value was taken. -/
theorem Inside.member {R : Bytes → Bytes → Prop} (hR : ∀ s t, R s t → Takes s t) {first : Bool}
    {s mid value after rest : Bytes} {name : String} {is : List Bytes}
    (h : Inside false .object is after rest) (hname : nextName first s = .ok (some name, mid))
    (hcolon : passColon mid = .ok value)
    (hvalue : ∃ v, value = v ++ after ∧ ∀ t, Apart t → R (v ++ t) t) :
    ∃ i m u b, Inside first .object (i :: is) s rest ∧ nextName true i = .ok (some name, m) ∧
      passColon m = .ok u ∧ R u b ∧ Blanks b := by
  obtain ⟨v, rfl, hv⟩ := hvalue
  obtain ⟨n, henters, hn⟩ := label_split hname hcolon
  obtain ⟨b, hb, hcons⟩ := h.cons
  obtain ⟨m, hname', hcolon'⟩ := hn (v ++ b)
  have hread := hv b hb.apart
  obtain ⟨label, hl, hlabel⟩ := nextName_form hname' hcolon'
  obtain ⟨b', w, hb', hw, heq⟩ := hR _ _ hread
  have hitem : IsItem .object ((n ++ v) ++ b) := by
    have hoctets : (n ++ v) ++ b = label ++ (b' ++ (w ++ b)) := by
      rw [List.append_assoc, ← heq]
      exact hlabel
    rw [hoctets]
    exact .mk hl hb' hw hb
  rw [← List.append_assoc] at henters hname'
  exact ⟨_, m, v ++ b, b, hcons first s _ hitem henters, hname', hcolon', hread, hb⟩

theorem members_split (hfields : ∀ field ∈ fields, field.value.Regular) {seen : List String}
    {first : Bool} {record result : σ} {s mid rest : Bytes} (hseen : seen.Nodup)
    (h : members fields seen first record s = .ok (result, mid)) (hend : endObject mid = .ok rest) :
    ∃ es : List (Entry σ), Inside first .object (es.map Entry.octets) s rest ∧
      (∀ e ∈ es, e.Reads fields) ∧ (declared fields es ++ seen).Nodup ∧
      apply es record = result := by
  fun_induction members fields seen first record s with
  | case1 => cases h
  | case2 seen first record s _ hstop =>
    cases h
    obtain ⟨b, hb, rfl, hhead⟩ := nextName_stop_form hstop
    obtain ⟨r, rfl⟩ := List.head?_eq_some_iff.1 hhead
    obtain rfl := Except.ok.inj ((endObject_complete .nil r).symm.trans hend)
    exact ⟨[], .close first hb, by simp, by simpa [declared] using hseen, rfl⟩
  | case3 => cases h
  | case4 => cases h
  | case5 => cases h
  | case6 seen first record s name _ hname field hfind hfresh value hcolon change _ hread ih =>
    obtain ⟨es, hinside, hreads, hnodup, rfl⟩ := ih (List.nodup_cons.2 ⟨hfresh, hseen⟩) h
    have hfield := hfields field (List.mem_of_find?_eq_some hfind)
    obtain ⟨i, m, u, b, hi, hname', hcolon', hread', hb⟩ := hinside.member
      (fun s t => hfield.formed.takes) hname hcolon (hfield.places.anywhere hread hinside.apart)
    have hdeclared : seenWith fields seen name = name :: seen := if_pos (by simp [declares, hfind])
    refine ⟨⟨i, name, change⟩ :: es, hi,
      List.forall_mem_cons.2 ⟨.declared hname' hcolon' hfind hread' hb, hreads⟩, ?_, rfl⟩
    rw [(declared_cons_perm seen _ es).nodup_iff, hdeclared]
    exact hnodup
  | case7 => cases h
  | case8 => cases h
  | case9 seen first record s name _ hname hfind value hcolon _ hpass ih =>
    obtain ⟨es, hinside, hreads, hnodup, rfl⟩ := ih hseen h
    obtain ⟨i, m, u, b, hi, hname', hcolon', hpass', hb⟩ := hinside.member
      (fun s t => pass_form) hname hcolon (pass_local hpass)
    have hdeclared : seenWith fields seen name = seen := if_neg (by simp [declares, hfind])
    refine ⟨⟨i, name, id⟩ :: es, hi,
      List.forall_mem_cons.2 ⟨.other hname' hcolon' hfind hpass' hb, hreads⟩, ?_, rfl⟩
    rw [(declared_cons_perm seen _ es).nodup_iff, hdeclared]
    exact hnodup

/-! ## Documents -/

structure Describes (fields : List (Member σ)) (start : σ) (es : List (Entry σ)) (a : σ) :
    Prop where
  reads : ∀ e ∈ es, e.Reads fields
  once : (declared fields es).Nodup
  result : apply es start = a

theorem readRecord_object {is : List Bytes} {doc : Bytes} (h : IsDocument .object is doc)
    (title : String) (fields : List (Member σ)) (start : σ) :
    ∃ s rest, Inside true .object is s rest ∧ Blanks rest ∧
      readRecord title fields start doc = match members fields [] true start s with
        | .error e => .error e
        | .ok (record, rest) => (endObject rest).map fun rest => (record, rest) := by
  obtain ⟨b, v, b', hb, hv, hb', rfl⟩ := h
  obtain ⟨s, rfl⟩ := hv.starts
  refine ⟨s ++ b', b', ⟨_, hv, rfl⟩, hb', ?_⟩
  rw [readRecord, startingValue, List.cons_append, skipBlank_stop hb (by decide)]
  rfl

theorem document_iff (hfields : ∀ field ∈ fields, field.value.Regular) {is : List Bytes}
    {doc : Bytes} (hdoc : IsDocument .object is doc) {title : String} {start a : σ} :
    (Reader.record title fields start).document doc = .ok a ↔
      ∃ es : List (Entry σ), es.map Entry.octets = is ∧ Describes fields start es a := by
  obtain ⟨s, b, hs, hb, hread⟩ := readRecord_object hdoc title fields start
  have hrecord : (Reader.record title fields start).read doc =
      readRecord title fields start doc := rfl
  rw [Reader.document, hrecord, hread]
  constructor
  · intro h
    split at h
    · cases h
    next rest hok =>
    split at hok
    · cases hok
    next mid hmembers =>
    obtain ⟨x, hend, he⟩ := map_eq_ok.1 hok
    cases he
    obtain ⟨es, hinside, hreads, honce, hresult⟩ :=
      members_split hfields List.nodup_nil hmembers hend
    split at h <;> cases h
    refine ⟨es, ?_, hreads, by simpa using honce, hresult⟩
    obtain ⟨v, hv, heq⟩ := hinside
    obtain ⟨w, hw, heq'⟩ := hs
    exact hv.unique hw (heq.symm.trans heq')
  · rintro ⟨es, rfl, hreads, honce, rfl⟩
    rw [← List.append_nil (declared fields es)] at honce
    obtain ⟨mid, hmembers, hend⟩ := members_join hfields hreads honce hs start
    have hblank : skipBlank b = [] := by simpa [skipBlank] using skipBlank_behind hb []
    simp [hmembers, hend, hblank, Except.map]

end Records
end Consignment.Json
