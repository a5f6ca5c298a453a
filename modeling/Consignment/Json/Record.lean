import Consignment.Json.Reader

/-! Records: objects whose members have declared names and may come in any order, each at most once.
Members with other names are passed over. A record may also be written as the list of its values in
declared order, and the last of them may be missing. -/
namespace Consignment.Json

structure Member (σ : Type) where
  name : String
  value : Reader (σ → σ)

def Member.of {σ α : Type} (name : String) (r : Reader α) (set : α → σ → σ) : Member σ :=
  ⟨name, r.map set⟩

/-- Where a fault inside an object is reported that no octet causes: behind what is left of the
object as far as it is closed at once. -/
def closingPlace (s : Bytes) : Bytes :=
  match skipBlank s with
  | 0x7d :: r => r
  | r => r

def members {σ : Type} (fields : List (Member σ)) (seen : List String) (first : Bool) (record : σ)
    (s : Bytes) : Except Fault (σ × Bytes) :=
  match _hn : nextName first s with
  | .error e => .error e
  | .ok (none, rest) => .ok (record, rest)
  | .ok (some name, rest) =>
    match fields.find? (·.name = name) with
    | some field =>
      if name ∈ seen then refuse (.duplicateField name) (closingPlace rest)
      else
        match _hc : passColon rest with
        | .error e => .error e
        | .ok rest =>
          match _hr : field.value.read rest with
          | .error e => .error e
          | .ok (change, rest) => members fields (name :: seen) false (change record) rest
    | none =>
      match _hc : passColon rest with
      | .error e => .error e
      | .ok rest =>
        match _hp : pass rest with
        | .error e => .error e
        | .ok rest => members fields seen false record rest
termination_by s.length
decreasing_by
  · have := nextName_takes _hn
    have := passColon_takes _hc
    have := field.value.takes _hr
    omega
  · have := nextName_takes _hn
    have := passColon_takes _hc
    have := pass_takes _hp
    omega

theorem members_takes {σ : Type} {fields : List (Member σ)} {seen : List String} {first : Bool}
    {record result : σ} {s rest : Bytes}
    (h : members fields seen first record s = .ok (result, rest)) : rest.length ≤ s.length := by
  fun_induction members fields seen first record s with
  | case1 => simp at h
  | case2 _ _ _ _ _ hn =>
    have := nextName_takes hn
    simp_all
  | case3 => simp at h
  | case4 => simp at h
  | case5 => simp at h
  | case6 =>
    rename_i field _ _ _ _ _ _ _ ih
    have := nextName_takes ‹nextName _ _ = .ok _›
    have := passColon_takes ‹passColon _ = .ok _›
    have := field.value.takes ‹field.value.read _ = .ok _›
    have := ih h
    omega
  | case7 => simp at h
  | case8 => simp at h
  | case9 =>
    rename_i ih
    have := nextName_takes ‹nextName _ _ = .ok _›
    have := passColon_takes ‹passColon _ = .ok _›
    have := pass_takes ‹pass _ = .ok _›
    have := ih h
    omega

def inOrder {σ : Type} : List (Member σ) → Bool → σ → Bytes → Except Fault (σ × Bytes)
  | [], _, record, s => .ok (record, s)
  | field :: fields, first, record, s =>
    match nextElement first s with
    | .error e => .error e
    | .ok (false, rest) => .ok (record, rest)
    | .ok (true, rest) =>
      match field.value.read rest with
      | .error e => .error e
      | .ok (change, rest) => inOrder fields false (change record) rest

theorem inOrder_takes {σ : Type} {fields : List (Member σ)} {first : Bool} {record result : σ}
    {s rest : Bytes} (h : inOrder fields first record s = .ok (result, rest)) :
    rest.length ≤ s.length := by
  induction fields generalizing first record s with
  | nil => simp_all [inOrder]
  | cons field fields ih =>
    unfold inOrder at h
    split at h
    · simp at h
    · next hn =>
      have := nextElement_takes hn
      simp_all
    · next hn =>
      have := nextElement_takes hn
      split at h
      · simp at h
      · next hr =>
        have := field.value.takes hr
        have := ih h
        omega

def readRecord {σ : Type} (title : String) (fields : List (Member σ)) (start : σ) (s : Bytes) :
    Except Fault (σ × Bytes) :=
  startingValue s fun c r =>
    if c = 0x5b then
      match inOrder fields true start r with
      | .error e => .error e
      | .ok (record, rest) => (endList rest).map fun rest => (record, rest)
    else if c = 0x7b then
      match members fields [] true start r with
      | .error e => .error e
      | .ok (record, rest) => (endObject rest).map fun rest => (record, rest)
    else .error (wrongType title (c :: r))

/-- `start` is the record of which nothing has been read. -/
def Reader.record {σ : Type} (title : String) (fields : List (Member σ)) (start : σ) :
    Reader σ where
  read := readRecord title fields start
  takes h := by
    refine startingValue_takes (fun {c r} hk => ?_) h
    split at hk
    · split at hk
      · simp at hk
      next he =>
      have := inOrder_takes he
      obtain ⟨x, hx, hp⟩ := map_eq_ok.1 hk
      cases hp
      have := endList_takes hx
      omega
    split at hk
    · split at hk
      · simp at hk
      next he =>
      have := members_takes he
      obtain ⟨x, hx, hp⟩ := map_eq_ok.1 hk
      cases hp
      have := endObject_takes hx
      omega
    · simp at hk

/-- A whole document: one value with nothing but blanks behind it. -/
def Reader.document {α : Type} (r : Reader α) (doc : Bytes) : Except Fault α :=
  match r.read doc with
  | .error e => .error e
  | .ok (a, rest) =>
    match skipBlank rest with
    | [] => .ok a
    | c :: s => refuseNext .trailingCharacters (c :: s)

end Consignment.Json
