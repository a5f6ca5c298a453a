import Consignment.Json.Record
import Consignment.Proofs.Json.Scalar

/-! Readers take back what was written for them, whatever stands behind it in a list or an
object. -/
namespace Consignment.Json

/-- The octets are a written form of the value. They start with no blank and no closing bracket, so
that an element can be told from the end of a list. -/
structure Spells {α : Type} (r : Reader α) (b : Bytes) (a : α) : Prop where
  starts : ∃ c cs, b = c :: cs ∧ isBlank c = false ∧ c ≠ 0x5d
  read : ∀ rest, Delimited rest → r.read (b ++ rest) = .ok (a, rest)

theorem delimited_nil : Delimited [] := by
  intro c hc
  cases hc

theorem delimited_comma (s : Bytes) : Delimited (0x2c :: s) := by
  intro c hc
  exact .inl (Option.some.inj hc).symm

theorem delimited_bracket (s : Bytes) : Delimited (0x5d :: s) := by
  intro c hc
  exact .inr (.inl (Option.some.inj hc).symm)

theorem delimited_brace (s : Bytes) : Delimited (0x7d :: s) := by
  intro c hc
  exact .inr (.inr (Option.some.inj hc).symm)

namespace Spells
variable {α β σ : Type}

theorem map {r : Reader α} {b : Bytes} {a : α} (h : Spells r b a) (f : α → β) :
    Spells (r.map f) b (f a) := by
  refine ⟨h.starts, ?_⟩
  intro rest hrest
  change (r.read (b ++ rest)).map _ = _
  rw [h.read rest hrest]
  rfl

theorem document {r : Reader α} {b : Bytes} {a : α} (h : Spells r b a) : r.document b = .ok a := by
  have hread := h.read [] delimited_nil
  rw [List.append_nil] at hread
  simp [Reader.document, hread, skipBlank]

/-! ## Single values -/

theorem readText_eq (expected : String) {meaning : String → Except Cause α} {t : String} {a : α}
    (h : meaning t = .ok a) (rest : Bytes) :
    readText expected meaning (writeText t ++ rest) = .ok (a, rest) := by
  rw [writeText_append, readText, startingValue_cons (by decide), if_pos rfl, text_writeText]
  simp [h]

theorem starts_writeText (t : String) :
    ∃ c cs, writeText t = c :: cs ∧ isBlank c = false ∧ c ≠ 0x5d :=
  ⟨0x22, _, rfl, by decide, by decide⟩

theorem meaning {expected : String} {meaning : String → Except Cause α} {t : String} {a : α}
    (h : meaning t = .ok a) : Spells (.meaning expected meaning) (writeText t) a :=
  ⟨starts_writeText t, fun rest _ => readText_eq expected h rest⟩

theorem text (t : String) : Spells Reader.text (writeText t) t := meaning rfl

theorem variant {known : List (String × α)} {name : String} {a : α}
    (h : known.lookup name = some a) : Spells (.variant known) (writeText name) a := by
  refine ⟨starts_writeText name, ?_⟩
  intro rest _
  have hmeant : meantBy known name = .ok a := by rw [meantBy, h]
  have hread := readText_eq "variant identifier" hmeant rest
  change readVariant known (writeText name ++ rest) = _
  rw [writeText_append] at hread ⊢
  rw [readVariant, startingValue_cons (by decide), if_pos rfl]
  exact hread

theorem integer (n : Int64) : Spells Reader.integer (writeInteger n) n := by
  refine ⟨?_, fun rest hrest => readInteger_writeInteger n hrest⟩
  obtain ⟨c, cs, hc, hstart⟩ := writeInteger_starts n
  refine ⟨c, cs, hc, ?_⟩
  rcases hstart with rfl | hdigit
  · decide
  · refine ⟨not_blank_of_isDigit hdigit, ?_⟩
    rintro rfl
    cases hdigit

theorem orNull {r : Reader α} {write : α → Bytes} (h : ∀ a, Spells r (write a) a)
    (hnull : ∀ a, (write a).head? ≠ some 0x6e) (o : Option α) :
    Spells r.orNull (writeOption write o) o := by
  cases o with
  | none =>
    refine ⟨⟨0x6e, _, rfl, by decide, by decide⟩, ?_⟩
    intro rest _
    have hblank : isBlank 0x6e = false := by decide
    simp [writeOption, writeNull, Reader.orNull, skipBlank_cons hblank, word, ull, Except.map]
  | some a =>
    refine ⟨(h a).starts, ?_⟩
    intro rest hrest
    have hread := (h a).read rest hrest
    obtain ⟨c, cs, hc, hblank, -⟩ := (h a).starts
    have hne : c ≠ 0x6e := by
      rintro rfl
      exact hnull a (by rw [hc]; rfl)
    simp only [writeOption, Reader.orNull]
    rw [hc, List.cons_append] at hread ⊢
    rw [skipBlank_cons hblank]
    split
    · next heq => exact absurd (List.cons.inj heq).1 hne
    · rw [hread]
      rfl

theorem textOrNull (o : Option String) :
    Spells Reader.text.orNull (writeOption writeText o) o :=
  orNull text (fun t => by simp [writeText]) o

theorem integerOrNull (o : Option Int64) :
    Spells Reader.integer.orNull (writeOption writeInteger o) o := by
  apply orNull integer
  intro n
  obtain ⟨c, cs, hc, hstart⟩ := writeInteger_starts n
  rw [hc]
  intro heq
  obtain rfl : c = 0x6e := Option.some.inj heq
  rcases hstart with h | h <;> cases h

end Spells

/-! ## Lists -/

theorem separated_cons (b : Bytes) (bs : List Bytes) :
    separated (b :: bs) = b ++ bs.flatMap (0x2c :: ·) := by
  induction bs generalizing b with
  | nil => simp [separated]
  | cons c cs ih =>
    rw [separated, ih c]
    · simp
    · simp

section Lists
variable {α : Type} {item : Reader α} {write : α → Bytes}

theorem elements_stop {first : Bool} {s rest : Bytes}
    (h : nextElement first s = .ok (false, rest)) :
    elements item first s = .ok ([], rest) := by
  rw [elements]
  split <;> simp_all

theorem elements_go {first : Bool} {s t rest : Bytes} {a : α}
    (hn : nextElement first s = .ok (true, t)) (hr : item.read t = .ok (a, rest)) :
    elements item first s = (elements item false rest).map fun p => (a :: p.1, p.2) := by
  rw [elements]
  split
  · simp_all
  · simp_all
  · next hn' =>
    obtain ⟨-, rfl⟩ := Prod.mk.inj (Except.ok.inj (hn.symm.trans hn'))
    split <;> simp_all

theorem nextElement_first {b : Bytes} (h : ∃ c cs, b = c :: cs ∧ isBlank c = false ∧ c ≠ 0x5d)
    (s : Bytes) : nextElement true (b ++ s) = .ok (true, b ++ s) := by
  obtain ⟨c, cs, rfl, hblank, hne⟩ := h
  simp [nextElement, skipBlank_cons hblank, hne]

theorem nextElement_comma {b : Bytes} (h : ∃ c cs, b = c :: cs ∧ isBlank c = false ∧ c ≠ 0x5d)
    (s : Bytes) : nextElement false (0x2c :: (b ++ s)) = .ok (true, b ++ s) := by
  obtain ⟨c, cs, rfl, hblank, hne⟩ := h
  simp [nextElement, skipBlank_cons (show isBlank 0x2c = false by decide), skipBlank_cons hblank,
    hne]

theorem delimited_elements (write : α → Bytes) (xs : List α) (rest : Bytes) :
    Delimited (xs.flatMap (0x2c :: write ·) ++ 0x5d :: rest) := by
  cases xs with
  | nil => exact delimited_bracket rest
  | cons x xs => exact delimited_comma _

theorem elements_written {xs : List α} (h : ∀ x ∈ xs, Spells item (write x) x) (rest : Bytes) :
    elements item false (xs.flatMap (0x2c :: write ·) ++ 0x5d :: rest) =
      .ok (xs, 0x5d :: rest) := by
  induction xs with
  | nil => exact elements_stop rfl
  | cons x xs ih =>
    have hx := h x (by simp)
    have hnext := nextElement_comma hx.starts (xs.flatMap (0x2c :: write ·) ++ 0x5d :: rest)
    have hread := hx.read _ (delimited_elements write xs rest)
    rw [List.flatMap_cons, List.append_assoc, List.cons_append, elements_go hnext hread,
      ih fun y hy => h y (by simp [hy])]
    rfl

theorem Spells.list {xs : List α} (h : ∀ x ∈ xs, Spells item (write x) x) :
    Spells item.list (writeList (xs.map write)) xs := by
  refine ⟨⟨0x5b, _, rfl, by decide, by decide⟩, ?_⟩
  intro rest _
  have helements : elements item true (separated (xs.map write) ++ 0x5d :: rest) =
      .ok (xs, 0x5d :: rest) := by
    cases xs with
    | nil => exact elements_stop rfl
    | cons x xs =>
      have hx := h x (by simp)
      have hnext := nextElement_first hx.starts (xs.flatMap (0x2c :: write ·) ++ 0x5d :: rest)
      have hread := hx.read _ (delimited_elements write xs rest)
      rw [List.map_cons, separated_cons, List.flatMap_map, List.append_assoc,
        elements_go hnext hread, elements_written fun y hy => h y (by simp [hy])]
      rfl
  have hwritten : writeList (xs.map write) ++ rest =
      0x5b :: (separated (xs.map write) ++ 0x5d :: rest) := by simp [writeList]
  change readList item (writeList (xs.map write) ++ rest) = .ok (xs, rest)
  rw [hwritten, readList, startingValue_cons (by decide), if_pos rfl, helements]
  rfl

end Lists

/-! ## Objects -/

theorem nextName_first (name : String) (s : Bytes) :
    nextName true (writeText name ++ s) = .ok (some name, s) := by
  rw [writeText_append, nextName, skipBlank_cons (by decide)]
  simp [text_writeText, Except.map]

theorem nextName_comma (name : String) (s : Bytes) :
    nextName false (0x2c :: (writeText name ++ s)) = .ok (some name, s) := by
  rw [writeText_append, nextName, skipBlank_cons (by decide)]
  simp [skipBlank_cons (show isBlank 0x22 = false by decide), text_writeText, Except.map]

theorem nextName_stop (first : Bool) (s : Bytes) :
    nextName first (0x7d :: s) = .ok (none, 0x7d :: s) := by
  rw [nextName, skipBlank_cons (by decide)]
  rfl

theorem passColon_colon (s : Bytes) : passColon (0x3a :: s) = .ok s := by
  rw [passColon, skipBlank_cons (by decide)]
  rfl

theorem endObject_brace (s : Bytes) : endObject (0x7d :: s) = .ok s := by
  rw [endObject, skipBlank_cons (by decide)]
  rfl

def furtherMembers (ms : List (String × Bytes)) (rest : Bytes) : Bytes :=
  ms.flatMap (fun m => 0x2c :: writeMember m.1 m.2) ++ 0x7d :: rest

theorem delimited_furtherMembers (ms : List (String × Bytes)) (rest : Bytes) :
    Delimited (furtherMembers ms rest) := by
  cases ms with
  | nil => exact delimited_brace rest
  | cons m ms => exact delimited_comma _

theorem furtherMembers_cons (m : String × Bytes) (ms : List (String × Bytes)) (rest : Bytes) :
    furtherMembers (m :: ms) rest =
      0x2c :: (writeText m.1 ++ 0x3a :: (m.2 ++ furtherMembers ms rest)) := by
  simp [furtherMembers, writeMember]

theorem writeObject_append (ms : List (String × Bytes)) (rest : Bytes) :
    writeObject ms ++ rest = 0x7b :: match ms with
      | [] => 0x7d :: rest
      | m :: ms => writeText m.1 ++ 0x3a :: (m.2 ++ furtherMembers ms rest) := by
  cases ms with
  | nil => rfl
  | cons m ms =>
    simp [writeObject, separated_cons, furtherMembers, writeMember, List.flatMap_map]

section Entries
variable {α : Type} {item : Reader α} {write : α → Bytes}

theorem entries_stop {first : Bool} {s rest : Bytes} (h : nextName first s = .ok (none, rest)) :
    entries item first s = .ok ([], rest) := by
  rw [entries]
  split <;> simp_all

theorem entries_go {first : Bool} {s t u rest : Bytes} {name : String} {a : α}
    (hn : nextName first s = .ok (some name, t)) (hc : passColon t = .ok u)
    (hr : item.read u = .ok (a, rest)) :
    entries item first s = (entries item false rest).map fun p => ((name, a) :: p.1, p.2) := by
  rw [entries]
  split
  · simp_all
  · simp_all
  · next hn' =>
    obtain ⟨hname, rfl⟩ := Prod.mk.inj (Except.ok.inj (hn.symm.trans hn'))
    obtain rfl := Option.some.inj hname
    split
    · simp_all
    · next hc' =>
      obtain rfl := Except.ok.inj (hc.symm.trans hc')
      split <;> simp_all

theorem entries_written {es : List (String × α)} (h : ∀ e ∈ es, Spells item (write e.2) e.2)
    (rest : Bytes) :
    entries item false (furtherMembers (es.map fun e => (e.1, write e.2)) rest) =
      .ok (es, 0x7d :: rest) := by
  induction es with
  | nil => exact entries_stop (nextName_stop false rest)
  | cons e es ih =>
    have hread := (h e (by simp)).read _
      (delimited_furtherMembers (es.map fun e => (e.1, write e.2)) rest)
    rw [List.map_cons, furtherMembers_cons,
      entries_go (nextName_comma _ _) (passColon_colon _) hread, ih fun f hf => h f (by simp [hf])]
    rfl

theorem Spells.entries {es : List (String × α)} (h : ∀ e ∈ es, Spells item (write e.2) e.2) :
    Spells (.entries item) (writeObject (es.map fun e => (e.1, write e.2))) es := by
  refine ⟨⟨0x7b, _, rfl, by decide, by decide⟩, ?_⟩
  intro rest _
  change readEntries item (writeObject _ ++ rest) = .ok (es, rest)
  rw [writeObject_append, readEntries, startingValue_cons (by decide), if_pos rfl]
  cases es with
  | nil =>
    simp only [List.map_nil]
    rw [entries_stop (nextName_stop true rest)]
    simp [endObject_brace, Except.map]
  | cons e es =>
    have hread := (h e (by simp)).read _
      (delimited_furtherMembers (es.map fun e => (e.1, write e.2)) rest)
    simp only [List.map_cons]
    rw [entries_go (nextName_first _ _) (passColon_colon _) hread,
      entries_written fun f hf => h f (by simp [hf])]
    simp [endObject_brace, Except.map]

end Entries

/-! ## Records -/

/-- Written members, none of them twice, turn one record into another. -/
inductive Fills {σ : Type} (fields : List (Member σ)) :
    List String → σ → List (String × Bytes) → σ → Prop
  | nil (seen : List String) (record : σ) : Fills fields seen record [] record
  | cons {seen : List String} {record result : σ} {name : String} {b : Bytes} {change : σ → σ}
      {field : Member σ} {ms : List (String × Bytes)}
      (known : fields.find? (·.name = name) = some field) (fresh : name ∉ seen)
      (value : Spells field.value b change)
      (rest : Fills fields (name :: seen) (change record) ms result) :
      Fills fields seen record ((name, b) :: ms) result

section Records
variable {σ : Type} {fields : List (Member σ)}

theorem Fills.set {α : Type} {seen : List String} {record result : σ} {name : String} {b : Bytes}
    {r : Reader α} {set : α → σ → σ} {a : α} {ms : List (String × Bytes)}
    (known : fields.find? (·.name = name) = some (.of name r set)) (fresh : name ∉ seen)
    (value : Spells r b a) (rest : Fills fields (name :: seen) (set a record) ms result) :
    Fills fields seen record ((name, b) :: ms) result :=
  .cons known fresh (value.map set) rest

theorem members_stop {seen : List String} {first : Bool} {record : σ} {s rest : Bytes}
    (h : nextName first s = .ok (none, rest)) :
    members fields seen first record s = .ok (record, rest) := by
  rw [members]
  split <;> simp_all

theorem members_go {seen : List String} {first : Bool} {record : σ} {s t u rest : Bytes}
    {name : String} {field : Member σ} {change : σ → σ}
    (hn : nextName first s = .ok (some name, t))
    (hf : fields.find? (·.name = name) = some field) (hs : name ∉ seen) (hc : passColon t = .ok u)
    (hr : field.value.read u = .ok (change, rest)) :
    members fields seen first record s =
      members fields (name :: seen) false (change record) rest := by
  rw [members]
  split
  · simp_all
  · simp_all
  · next hn' =>
    obtain ⟨hname, rfl⟩ := Prod.mk.inj (Except.ok.inj (hn.symm.trans hn'))
    obtain rfl := Option.some.inj hname
    simp only [hf, if_neg hs]
    split
    · simp_all
    · next hc' =>
      obtain rfl := Except.ok.inj (hc.symm.trans hc')
      split <;> simp_all

theorem Fills.members_written {seen : List String} {record result : σ}
    {ms : List (String × Bytes)} (h : Fills fields seen record ms result) (rest : Bytes) :
    members fields seen false record (furtherMembers ms rest) = .ok (result, 0x7d :: rest) := by
  induction h with
  | nil seen record => exact members_stop (nextName_stop false rest)
  | @cons _ _ _ _ _ _ _ ms known fresh value _ ih =>
    have hread := value.read _ (delimited_furtherMembers ms rest)
    rw [furtherMembers_cons, members_go (nextName_comma _ _) known fresh (passColon_colon _) hread]
    exact ih

theorem Fills.spells {start result : σ} {ms : List (String × Bytes)}
    (h : Fills fields [] start ms result) (title : String) :
    Spells (.record title fields start) (writeObject ms) result := by
  refine ⟨⟨0x7b, _, rfl, by decide, by decide⟩, ?_⟩
  intro rest _
  change readRecord title fields start (writeObject ms ++ rest) = .ok (result, rest)
  rw [writeObject_append, readRecord, startingValue_cons (by decide), if_neg (by decide),
    if_pos rfl]
  cases h with
  | nil =>
    simp only
    rw [members_stop (nextName_stop true rest)]
    simp [endObject_brace, Except.map]
  | @cons _ _ _ _ _ _ _ ms known fresh value further =>
    have hread := value.read _ (delimited_furtherMembers ms rest)
    simp only
    rw [members_go (nextName_first _ _) known fresh (passColon_colon _) hread,
      further.members_written]
    simp [endObject_brace, Except.map]

end Records
end Consignment.Json
