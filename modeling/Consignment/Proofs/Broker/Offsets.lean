import Mathlib.Data.List.Induction
import Consignment.Channel.Broker

/-! Offsets count the deliveries of each topic, so that topic and offset tell deliveries apart. A
broker hands them out without a gap. -/
namespace Consignment

def Delivery.place (d : Delivery) : String × Int := (d.topic, d.offset)

def countOn (topic : String) (ds : List Delivery) : Nat := ds.countP (·.topic = topic)

def Numbered (ds : List Delivery) : Prop :=
  ∀ pre d post, ds = pre ++ d :: post → d.offset = (countOn d.topic pre : Int)

@[simp] theorem countOn_nil (topic : String) : countOn topic [] = 0 := rfl

@[simp] theorem countOn_append (topic : String) (ds es : List Delivery) :
    countOn topic (ds ++ es) = countOn topic ds + countOn topic es := List.countP_append

@[simp] theorem countOn_cons (topic : String) (d : Delivery) (ds : List Delivery) :
    countOn topic (d :: ds) = countOn topic ds + if d.topic = topic then 1 else 0 := by
  simp [countOn, List.countP_cons]

theorem countOn_filter (topics : List String) {topic : String} (h : topic ∈ topics)
    (ds : List Delivery) :
    countOn topic (ds.filter fun d => topics.contains d.topic) = countOn topic ds := by
  unfold countOn
  rw [List.countP_filter]
  apply List.countP_congr
  intro d _
  by_cases hd : d.topic = topic <;> simp [hd, h]

namespace Numbered

theorem nil : Numbered [] := by
  intro pre d post h
  simp at h

theorem concat {ds : List Delivery} (h : Numbered ds) {d : Delivery}
    (hd : d.offset = (countOn d.topic ds : Int)) : Numbered (ds ++ [d]) := by
  intro pre e post he
  rcases List.eq_nil_or_concat post with rfl | ⟨post, f, rfl⟩
  · have hc : ds ++ [d] = pre ++ [e] := he
    obtain ⟨rfl, hde⟩ := List.append_inj' hc rfl
    obtain rfl : d = e := by simpa using hde
    exact hd
  · have hc : ds ++ [d] = (pre ++ e :: post) ++ [f] := by simpa using he
    exact h pre e post (List.append_inj' hc rfl).1

theorem filter {ds : List Delivery} (h : Numbered ds) (topics : List String) :
    Numbered (ds.filter fun d => topics.contains d.topic) := by
  intro pre d post hf
  obtain ⟨front, back, rfl, rfl, hb⟩ := List.filter_eq_append_iff.1 hf
  obtain ⟨gap, rest, rfl, hgap, hd, -⟩ := List.filter_eq_cons_iff.1 hb
  have hmem : d.topic ∈ topics := by simpa using hd
  have hoff := h (front ++ gap) d rest (by simp)
  have hnone : countOn d.topic gap = 0 := by
    apply List.countP_eq_zero.2
    intro e he heq
    have htopic : e.topic = d.topic := by simpa using heq
    exact hgap e he (by simpa [htopic] using hmem)
  rw [hoff, countOn_append, hnone, countOn_filter topics hmem]
  simp

theorem lt_of_mem {ds es : List Delivery} (h : Numbered (ds ++ es)) {d : Delivery} (hd : d ∈ ds) :
    d.offset < (countOn d.topic ds : Int) := by
  obtain ⟨pre, post, rfl⟩ := List.append_of_mem hd
  have hoff := h pre d (post ++ es) (by simp)
  rw [hoff]
  simp only [countOn_append, countOn_cons, if_pos]
  omega

theorem le_of_mem {ds es : List Delivery} (h : Numbered (ds ++ es)) {d : Delivery} (hd : d ∈ es) :
    (countOn d.topic ds : Int) ≤ d.offset := by
  obtain ⟨pre, post, rfl⟩ := List.append_of_mem hd
  have hoff := h (ds ++ pre) d post (by simp)
  rw [hoff]
  simp only [countOn_append]
  omega

private theorem nodup_place_of (pre : List Delivery) {ds : List Delivery}
    (h : Numbered (pre ++ ds)) : (ds.map Delivery.place).Nodup := by
  induction ds generalizing pre with
  | nil => simp
  | cons d ds ih =>
    have hrest : Numbered ((pre ++ [d]) ++ ds) := by simpa using h
    rw [List.map_cons, List.nodup_cons]
    refine ⟨?_, ih _ hrest⟩
    intro hmem
    obtain ⟨e, he, hplace⟩ := List.mem_map.1 hmem
    have htopic : e.topic = d.topic := congrArg Prod.fst hplace
    have hoffset : e.offset = d.offset := congrArg Prod.snd hplace
    have hd := h pre d ds rfl
    have hle := hrest.le_of_mem he
    simp only [countOn_append, countOn_cons, countOn_nil, htopic, if_pos] at hle
    omega

theorem nodup_place {ds : List Delivery} (h : Numbered ds) : (ds.map Delivery.place).Nodup :=
  nodup_place_of [] h

theorem of_append {ds es : List Delivery} (h : Numbered (ds ++ es)) : Numbered ds := by
  intro pre d post hd
  exact h pre d (post ++ es) (by simp [hd])

theorem offsets_of_topic {ds : List Delivery} (h : Numbered ds) (topic : String) :
    (ds.filter fun d => d.topic = topic).map (·.offset) =
      (List.range (countOn topic ds)).map Int.ofNat := by
  induction ds using List.reverseRecOn with
  | nil => rfl
  | append_singleton ds d ih =>
    rw [List.filter_append, List.map_append, ih h.of_append, countOn_append]
    by_cases htopic : d.topic = topic
    · subst htopic
      simp [h ds d [] rfl, List.range_succ]
    · simp [htopic]

theorem mem_place_iff {ds : List Delivery} (h : Numbered ds) {topic : String} {offset : Int} :
    (topic, offset) ∈ ds.map Delivery.place ↔ 0 ≤ offset ∧ offset < (countOn topic ds : Int) := by
  have hplace : (topic, offset) ∈ ds.map Delivery.place ↔
      offset ∈ (ds.filter fun d => d.topic = topic).map (·.offset) := by
    simp [Delivery.place, and_assoc]
  rw [hplace, h.offsets_of_topic]
  constructor
  · intro hmem
    obtain ⟨n, hn, rfl⟩ := List.mem_map.1 hmem
    have hlt := List.mem_range.1 hn
    exact ⟨Int.natCast_nonneg n, Int.ofNat_lt.2 hlt⟩
  · rintro ⟨hnonneg, hlt⟩
    obtain ⟨n, rfl⟩ := Int.eq_ofNat_of_zero_le hnonneg
    exact List.mem_map_of_mem (List.mem_range.2 (Int.ofNat_lt.1 hlt))

end Numbered

namespace Broker

theorem nextOffset_accept (topic key other : String) (payload : Bytes) (b : Broker) :
    (b.accept topic key payload).nextOffset other =
      if topic = other then b.nextOffset other + 1 else b.nextOffset other := by
  by_cases ht : topic = other
  · subst ht
    simp [nextOffset, accept, Register.getD]
  · simp [nextOffset, accept, Register.getD, Register.get?_put, ht]

theorem committedOffset_acknowledge (topic other : String) (offset : Int) (b : Broker) :
    (b.acknowledge topic offset).committedOffset other =
      if topic = other then max (b.committedOffset other) (offset + 1)
      else b.committedOffset other := by
  by_cases ht : topic = other
  · subst ht
    simp [committedOffset, acknowledge, Register.getD]
  · simp [committedOffset, acknowledge, Register.getD, Register.get?_put, ht]

structure Counted (b : Broker) : Prop where
  numbered : Numbered b.log
  next : ∀ topic, b.nextOffset topic = (countOn topic b.log : Int)

namespace Counted
variable {b c : Broker}

theorem empty : Broker.empty.Counted := ⟨.nil, fun _ => rfl⟩

theorem congr (h : b.Counted) (hlog : c.log = b.log) (hoffsets : c.offsets = b.offsets) :
    c.Counted := by
  refine ⟨hlog ▸ h.numbered, fun topic => ?_⟩
  rw [hlog, nextOffset, hoffsets]
  exact h.next topic

theorem accept (h : b.Counted) (topic key : String) (payload : Bytes) :
    (b.accept topic key payload).Counted := by
  refine ⟨h.numbered.concat (h.next topic), fun other => ?_⟩
  rw [nextOffset_accept, h.next other]
  simp only [Broker.accept, countOn_append, countOn_cons, countOn_nil]
  split <;> simp

theorem lt_next_iff (h : b.Counted) {topic : String} {offset : Int} (hoffset : 0 ≤ offset) :
    offset < b.nextOffset topic ↔ (topic, offset) ∈ b.log.map Delivery.place := by
  rw [h.numbered.mem_place_iff, h.next]
  simp [hoffset]

end Counted

end Broker

end Consignment
