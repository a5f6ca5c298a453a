import Consignment.Json.Pass

/-! Readers of typed values. A reader takes its value off the front of a document and stops at the
first octet that does not fit, so the fault it reports is the first one in the document. -/
namespace Consignment.Json

/-- A value takes at least one octet, which is why lists and objects come to an end. -/
structure Reader (α : Type) where
  read : Bytes → Except Fault (α × Bytes)
  takes : ∀ {s a rest}, read s = .ok (a, rest) → rest.length < s.length

/-- The fault of a value that is not what was expected. The value itself must be well formed as far
as it has to be read to name it. -/
def wrongType (expected : String) (s : Bytes) : Fault :=
  let found (f : Found) (rest : Bytes) : Fault := ⟨.wrongType f expected, rest.length⟩
  let afterWord (f : Found) (w rest : Bytes) : Fault :=
    match word w rest with
    | .error e => e
    | .ok rest => found f rest
  match s with
  | [] => ⟨.endInValue, 0⟩
  | c :: rest =>
    if c = 0x6e then afterWord .null ull rest
    else if c = 0x74 then afterWord (.boolean true) rue rest
    else if c = 0x66 then afterWord (.boolean false) alse rest
    else if c = 0x2d ∨ isDigit c then
      match numeral .endInValue s with
      | .error e => e
      | .ok (n, rest) =>
        match n.value rest with
        | .error e => e
        | .ok v => found v.found rest
    else if c = 0x22 then
      match text rest with
      | .error e => e
      | .ok (t, rest) => found (.text t) rest
    else if c = 0x5b then found .sequence s
    else if c = 0x7b then found .map s
    else ⟨.expectedValue, s.length - 1⟩

/-- The first octet of the value decides; a document must not end before it. -/
def startingValue {α : Type} (s : Bytes) (k : UInt8 → Bytes → Except Fault α) : Except Fault α :=
  match skipBlank s with
  | [] => refuse .endInValue []
  | c :: r => k c r

theorem startingValue_takes {α : Type} {s rest : Bytes} {a : α}
    {k : UInt8 → Bytes → Except Fault (α × Bytes)}
    (hk : ∀ {c r}, k c r = .ok (a, rest) → rest.length ≤ r.length)
    (h : startingValue s k = .ok (a, rest)) : rest.length < s.length := by
  have h0 := length_skipBlank_le s
  unfold startingValue at h
  split at h
  · simp at h
  next hc =>
  rw [hc] at h0
  have := hk h
  simp only [List.length_cons] at h0
  omega

def Reader.map {α β : Type} (f : α → β) (r : Reader α) : Reader β where
  read s := (r.read s).map fun p => (f p.1, p.2)
  takes h := by
    obtain ⟨p, hp, he⟩ := map_eq_ok.1 h
    cases he
    exact r.takes hp

def readText {α : Type} (expected : String) (meaning : String → Except Cause α) (s : Bytes) :
    Except Fault (α × Bytes) :=
  startingValue s fun c r =>
    if c = 0x22 then
      match text r with
      | .error e => .error e
      | .ok (t, rest) =>
        match meaning t with
        | .error cause => refuse cause rest
        | .ok a => .ok (a, rest)
    else .error (wrongType expected (c :: r))

theorem readText_takes {α : Type} {expected : String} {meaning : String → Except Cause α}
    {s rest : Bytes} {a : α} (h : readText expected meaning s = .ok (a, rest)) :
    rest.length < s.length := by
  refine startingValue_takes (fun {c r} hk => ?_) h
  split at hk
  · split at hk
    · simp at hk
    next ht =>
    have := text_takes ht
    split at hk
    · simp at hk
    · simp_all; omega
  · simp at hk

def Reader.meaning {α : Type} (expected : String) (meaning : String → Except Cause α) :
    Reader α :=
  ⟨readText expected meaning, readText_takes⟩

def Reader.text : Reader String := .meaning "a string" .ok

def readInteger (s : Bytes) : Except Fault (Int64 × Bytes) :=
  startingValue s fun c r =>
    if c = 0x2d ∨ isDigit c then
      match numeral .endInValue (c :: r) with
      | .error e => .error e
      | .ok (n, rest) =>
        match n.value rest with
        | .error e => .error e
        | .ok (.integer i) =>
          if i < 0x8000000000000000 then .ok (Int64.ofInt i, rest)
          else refuse (.wrongValue (.integer i) "i64") rest
        | .ok (.float x) => refuse (.wrongType (.float x) "i64") rest
    else .error (wrongType "i64" (c :: r))

def Reader.integer : Reader Int64 where
  read := readInteger
  takes h := by
    refine startingValue_takes (fun {c r} hk => ?_) h
    split at hk
    · split at hk
      · simp at hk
      next hn =>
      have := numeral_takes hn
      simp only [List.length_cons] at this
      repeat' split at hk
      all_goals first | (simp at hk; done) | (cases hk; omega)
    · simp at hk

def Reader.orNull {α : Type} (r : Reader α) : Reader (Option α) where
  read s :=
    match skipBlank s with
    | 0x6e :: s => (word ull s).map fun rest => (none, rest)
    | s => (r.read s).map fun p => (some p.1, p.2)
  takes {s a rest} h := by
    have h0 := length_skipBlank_le s
    split at h
    · next hc =>
      rw [hc] at h0
      obtain ⟨x, hx, he⟩ := map_eq_ok.1 h
      cases he
      have := word_takes hx
      simp only [List.length_cons] at h0
      omega
    · obtain ⟨p, hp, he⟩ := map_eq_ok.1 h
      cases he
      have := r.takes hp
      omega

/-! ## Lists -/

/-- Whether another element follows, and where: at the element or at the closing bracket. -/
def nextElement (first : Bool) (s : Bytes) : Except Fault (Bool × Bytes) :=
  match skipBlank s with
  | [] => refuse .endInList []
  | c :: r =>
    if c = 0x5d then .ok (false, c :: r)
    else if first then .ok (true, c :: r)
    else if c = 0x2c then
      match skipBlank r with
      | [] => refuse .endInValue []
      | d :: r => if d = 0x5d then refuseNext .trailingComma (d :: r) else .ok (true, d :: r)
    else refuseNext .expectedListEnd (c :: r)

theorem nextElement_takes {first more : Bool} {s rest : Bytes}
    (h : nextElement first s = .ok (more, rest)) : rest.length ≤ s.length := by
  have h0 := length_skipBlank_le s
  unfold nextElement at h
  split at h
  · simp at h
  next c r hc =>
  have h1 := length_skipBlank_le r
  grind [refuse, refuseNext]

def endList (s : Bytes) : Except Fault Bytes :=
  match skipBlank s with
  | [] => refuse .endInList []
  | c :: r =>
    if c = 0x5d then .ok r
    else if c = 0x2c then
      match skipBlank r with
      | 0x5d :: r => refuseNext .trailingComma (0x5d :: r)
      | r => refuseNext .trailingCharacters r
    else refuseNext .trailingCharacters (c :: r)

theorem endList_takes {s rest : Bytes} (h : endList s = .ok rest) : rest.length < s.length := by
  have h0 := length_skipBlank_le s
  unfold endList at h
  grind [refuse, refuseNext]

def elements {α : Type} (item : Reader α) (first : Bool) (s : Bytes) :
    Except Fault (List α × Bytes) :=
  match _hn : nextElement first s with
  | .error e => .error e
  | .ok (false, rest) => .ok ([], rest)
  | .ok (true, rest) =>
    match _hr : item.read rest with
    | .error e => .error e
    | .ok (a, rest) => (elements item false rest).map fun p => (a :: p.1, p.2)
termination_by s.length
decreasing_by
  have := nextElement_takes _hn
  have := item.takes _hr
  omega

theorem elements_takes {α : Type} {item : Reader α} {first : Bool} {s rest : Bytes} {as : List α}
    (h : elements item first s = .ok (as, rest)) : rest.length ≤ s.length := by
  fun_induction elements item first s generalizing as with
  | case1 => simp at h
  | case2 _ _ _ hn =>
    have := nextElement_takes hn
    simp_all
  | case3 => simp at h
  | case4 _ _ _ hn _ _ hr ih =>
    have := nextElement_takes hn
    have := item.takes hr
    obtain ⟨⟨_, _⟩, hp, he⟩ := map_eq_ok.1 h
    cases he
    have := ih hp
    simp only at *
    omega

def readList {α : Type} (item : Reader α) (s : Bytes) : Except Fault (List α × Bytes) :=
  startingValue s fun c r =>
    if c = 0x5b then
      match elements item true r with
      | .error e => .error e
      | .ok (as, rest) => (endList rest).map fun rest => (as, rest)
    else .error (wrongType "a sequence" (c :: r))

def Reader.list {α : Type} (item : Reader α) : Reader (List α) where
  read := readList item
  takes h := by
    refine startingValue_takes (fun {c r} hk => ?_) h
    split at hk
    · split at hk
      · simp at hk
      next he =>
      have := elements_takes he
      obtain ⟨x, hx, hp⟩ := map_eq_ok.1 hk
      cases hp
      have := endList_takes hx
      omega
    · simp at hk

/-! ## Objects -/

/-- The name of the next member and what follows it, or the place of the closing brace. -/
def nextName (first : Bool) (s : Bytes) : Except Fault (Option String × Bytes) :=
  let name (r : Bytes) : Except Fault (Option String × Bytes) :=
    (text r).map fun p => (some p.1, p.2)
  match skipBlank s with
  | [] => refuse .endInObject []
  | c :: r =>
    if c = 0x7d then .ok (none, c :: r)
    else if first then
      if c = 0x22 then name r else refuseNext .keyMustBeText (c :: r)
    else if c = 0x2c then
      match skipBlank r with
      | [] => refuse .endInValue []
      | d :: r =>
        if d = 0x22 then name r
        else if d = 0x7d then refuseNext .trailingComma (d :: r)
        else refuseNext .keyMustBeText (d :: r)
    else refuseNext .expectedObjectEnd (c :: r)

theorem nextName_takes {first : Bool} {s rest : Bytes} {name : Option String}
    (h : nextName first s = .ok (name, rest)) : rest.length ≤ s.length := by
  have h0 := length_skipBlank_le s
  unfold nextName at h
  simp only at h
  split at h
  · simp at h
  next c r hc =>
  rw [hc] at h0
  simp only [List.length_cons] at h0
  split at h
  · simp only [Except.ok.injEq, Prod.mk.injEq] at h
    obtain ⟨-, rfl⟩ := h
    simp only [List.length_cons]; omega
  split at h
  · split at h
    · obtain ⟨p, hp, he⟩ := map_eq_ok.1 h
      cases he
      have := text_takes hp
      omega
    · simp at h
  split at h
  · have h1 := length_skipBlank_le r
    split at h
    · simp at h
    next hd =>
    rw [hd] at h1
    simp only [List.length_cons] at h1
    split at h
    · obtain ⟨p, hp, he⟩ := map_eq_ok.1 h
      cases he
      have := text_takes hp
      omega
    split at h <;> simp at h
  · simp at h

def endObject (s : Bytes) : Except Fault Bytes :=
  match skipBlank s with
  | [] => refuse .endInObject []
  | c :: r =>
    if c = 0x7d then .ok r
    else if c = 0x2c then refuseNext .trailingComma (c :: r)
    else refuseNext .trailingCharacters (c :: r)

theorem endObject_takes {s rest : Bytes} (h : endObject s = .ok rest) :
    rest.length < s.length := by
  have h0 := length_skipBlank_le s
  unfold endObject at h
  grind [refuse, refuseNext]

def entries {α : Type} (item : Reader α) (first : Bool) (s : Bytes) :
    Except Fault (List (String × α) × Bytes) :=
  match _hn : nextName first s with
  | .error e => .error e
  | .ok (none, rest) => .ok ([], rest)
  | .ok (some name, rest) =>
    match _hc : passColon rest with
    | .error e => .error e
    | .ok rest =>
      match _hr : item.read rest with
      | .error e => .error e
      | .ok (a, rest) => (entries item false rest).map fun p => ((name, a) :: p.1, p.2)
termination_by s.length
decreasing_by
  have := nextName_takes _hn
  have := passColon_takes _hc
  have := item.takes _hr
  omega

theorem entries_takes {α : Type} {item : Reader α} {first : Bool} {s rest : Bytes}
    {es : List (String × α)} (h : entries item first s = .ok (es, rest)) :
    rest.length ≤ s.length := by
  fun_induction entries item first s generalizing es with
  | case1 => simp at h
  | case2 _ _ _ hn =>
    have := nextName_takes hn
    simp_all
  | case3 => simp at h
  | case4 => simp at h
  | case5 =>
    rename_i ih
    have := nextName_takes ‹nextName _ _ = .ok _›
    have := passColon_takes ‹passColon _ = .ok _›
    have := item.takes ‹item.read _ = .ok _›
    obtain ⟨⟨_, _⟩, hp, he⟩ := map_eq_ok.1 h
    cases he
    have := ih hp
    simp only at *
    omega

def readEntries {α : Type} (item : Reader α) (s : Bytes) :
    Except Fault (List (String × α) × Bytes) :=
  startingValue s fun c r =>
    if c = 0x7b then
      match entries item true r with
      | .error e => .error e
      | .ok (es, rest) => (endObject rest).map fun rest => (es, rest)
    else .error (wrongType "a map" (c :: r))

def Reader.entries {α : Type} (item : Reader α) : Reader (List (String × α)) where
  read := readEntries item
  takes h := by
    refine startingValue_takes (fun {c r} hk => ?_) h
    split at hk
    · split at hk
      · simp at hk
      next he =>
      have := entries_takes he
      obtain ⟨x, hx, hp⟩ := map_eq_ok.1 hk
      cases hp
      have := endObject_takes hx
      omega
    · simp at hk

/-! ## Alternatives by name -/

def meantBy {α : Type} (known : List (String × α)) (name : String) : Except Cause α :=
  match known.lookup name with
  | some a => .ok a
  | none => .error (.unknownVariant name (known.map (·.1)))

/-- The alternative that a value names which was read before: its name, or a map of the name alone
to `null`. `members` are those of the value, if it is a map. -/
def alternative {α : Type} (known : List (String × α)) (value : Found)
    (members : List (String × Found)) : Except Cause α :=
  match value with
  | .text name => meantBy known name
  | .map =>
    match members with
    | [(name, content)] =>
      match meantBy known name, content with
      | .ok a, .null => .ok a
      | .ok _, content => .error (.wrongType content "unit")
      | .error cause, _ => .error cause
    | _ => .error (.wrongValue .map "map with a single key")
  | value => .error (.wrongType value "string or map")

def readUnit (s : Bytes) : Except Fault Bytes :=
  startingValue s fun c r => if c = 0x6e then word ull r else .error (wrongType "unit" (c :: r))

def endVariant (s : Bytes) : Except Fault Bytes :=
  match skipBlank s with
  | [] => refuse .endInObject []
  | c :: r => if c = 0x7d then .ok r else refuse .expectedValue (c :: r)

def variantName {α : Type} (known : List (String × α)) (s : Bytes) : Except Fault (α × Bytes) :=
  match skipBlank s with
  | [] => refuse .endInObject []
  | c :: r =>
    if c = 0x22 then readText "variant identifier" (meantBy known) (c :: r)
    else if c = 0x7d then refuseNext .expectedValue (c :: r)
    else refuseNext .keyMustBeText (c :: r)

/-- The name of an alternative, alone or as the name of an empty content. -/
def readVariant {α : Type} (known : List (String × α)) (s : Bytes) : Except Fault (α × Bytes) :=
  startingValue s fun c r =>
    if c = 0x22 then readText "variant identifier" (meantBy known) (c :: r)
    else if c = 0x7b then
      match variantName known r with
      | .error e => .error e
      | .ok (a, rest) =>
        match passColon rest with
        | .error e => .error e
        | .ok rest =>
          match readUnit rest with
          | .error e => .error e
          | .ok rest => (endVariant rest).map fun rest => (a, rest)
    else refuseNext .expectedValue (c :: r)

theorem readUnit_takes {s rest : Bytes} (h : readUnit s = .ok rest) : rest.length ≤ s.length := by
  have h0 := length_skipBlank_le s
  unfold readUnit startingValue at h
  split at h
  · simp at h
  next hc =>
  rw [hc] at h0
  simp only [List.length_cons] at h0 h
  split at h
  · have := word_takes h
    omega
  · simp at h

theorem variantName_takes {α : Type} {known : List (String × α)} {s rest : Bytes} {a : α}
    (h : variantName known s = .ok (a, rest)) : rest.length < s.length := by
  have h0 := length_skipBlank_le s
  unfold variantName at h
  split at h
  · simp at h
  next hc =>
  rw [hc] at h0
  split at h
  · have := readText_takes h
    omega
  split at h <;> simp at h

theorem endVariant_takes {s rest : Bytes} (h : endVariant s = .ok rest) :
    rest.length < s.length := by
  have h0 := length_skipBlank_le s
  unfold endVariant at h
  grind [refuse]

def Reader.variant {α : Type} (known : List (String × α)) : Reader α where
  read := readVariant known
  takes h := by
    refine startingValue_takes (fun {c r} hk => ?_) h
    split at hk
    · have := readText_takes hk
      simp only [List.length_cons] at this
      omega
    split at hk
    · split at hk
      · simp at hk
      next hn =>
      have := variantName_takes hn
      split at hk
      · simp at hk
      next hc =>
      have := passColon_takes hc
      split at hk
      · simp at hk
      next hu =>
      have := readUnit_takes hu
      obtain ⟨x, hx, hp⟩ := map_eq_ok.1 hk
      cases hp
      have := endVariant_takes hx
      omega
    · simp at hk

end Consignment.Json
