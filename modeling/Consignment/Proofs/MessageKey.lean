import Consignment.Proofs.Producer
import Consignment.Proofs.Text.Hex

/-! Keys of published messages. A key spells the digest of an id, so that keys are told apart just
as digests are. A call that publishes a shipment uses one key from the first attempt to the message
in the log, and it takes it from the id alone. -/
namespace Consignment

theorem length_messageKey (id : String) : (messageKey id).length = 64 := by
  rw [messageKey, Text.length_hex, Digest.length_sha256]

theorem ofHex?_messageKey (id : String) :
    Text.ofHex? (messageKey id) = some (Digest.sha256 (Text.utf8 id)) := Text.ofHex?_hex _

theorem messageKey_inj {id id' : String} : messageKey id = messageKey id' ↔
    Digest.sha256 (Text.utf8 id) = Digest.sha256 (Text.utf8 id') := Text.hex_inj

example : messageKey "abc" =
    "ba7816bf8f01cfea414140de5dae2223b00361a396177a9cb410ff61f20015ad" := by decide +kernel

theorem Shipment.publishKey_ok {required : List String} {x : Shipment} {key : String}
    (h : x.publishKey required = .ok key) : ∃ id, x.id = some id ∧ key = messageKey id := by
  unfold publishKey at h
  split at h
  · cases h
  split at h
  · cases h
  · next id hid =>
    cases h
    exact ⟨id, hid, rfl⟩

def Request.shipment? : Request → Option Shipment
  | .full x => some x
  | .status x => some x
  | .transaction _ => none

theorem Request.key_of_shipment {r : Request} {x : Shipment} (hx : r.shipment? = some x)
    {random key : String} (h : r.key random = .ok key) :
    ∃ id, x.id = some id ∧ key = messageKey id := by
  cases r with
  | full y =>
    cases hx
    exact Shipment.publishKey_ok h
  | status y =>
    cases hx
    exact Shipment.publishKey_ok h
  | transaction t => cases hx

namespace Broker
variable {key key' : String} {b b' : Broker}

/-- From the one state to the other, there were attempts and a message was accepted, and nothing of
that under another key. -/
structure PublishedUnder (key : String) (b b' : Broker) : Prop where
  attempts : ∃ made : List Attempt, b'.attempts = b.attempts ++ made ∧ made ≠ [] ∧
    ∀ a ∈ made, a.key = key
  message : ∃ d : Delivery, b'.log = b.log ++ [d] ∧ d.key = some key

theorem PublishedUnder.unique (h : PublishedUnder key b b') (h' : PublishedUnder key' b b') :
    key = key' := by
  obtain ⟨d, hd, hkey⟩ := h.message
  obtain ⟨d', hd', hkey'⟩ := h'.message
  have hsame : d = d' := by simpa using List.append_cancel_left (hd.symm.trans hd')
  rw [hsame, hkey'] at hkey
  exact (Option.some.inj hkey).symm

end Broker

namespace Producer
variable {topic key : String} {payload : Bytes} {refusals : List ChannelError}

theorem Tried.publishedUnder {site site' : Site}
    (h : Tried topic key payload refusals true site site') :
    site.broker.PublishedUnder key site'.broker := by
  obtain ⟨made, hmade, herrors, hsame⟩ := h.attempts
  refine ⟨⟨made, hmade, ?_, fun a ha => (hsame a ha).2.1⟩, _, h.log, rfl⟩
  -- the attempt that was accepted is one of them
  rintro rfl
  simp at herrors

theorem request_publishedUnder (p : Producer) {deadline : Option Nat} {r : Request} {x : Shipment}
    (hx : r.shipment? = some x) {s t : Stage}
    (h : p.request deadline r s = .ok (.ok key, t)) :
    ∃ id, x.id = some id ∧ key = messageKey id ∧
      s.site.broker.PublishedUnder key t.site.broker := by
  rcases p.request_cases h with ⟨e, -, herror, -⟩ | ⟨key', refusals, hkey, hconcluded⟩
  · cases herror
  obtain ⟨id, hid, hof⟩ := Request.key_of_shipment hx hkey
  have hanswer : key = key' := by
    have hverdict := hconcluded.verdict
    cases hverdict
    rfl
  subst hanswer
  exact ⟨id, hid, hof, hconcluded.tried.publishedUnder⟩

/-- A key is made of 64 small hexadecimal digits, which spell the digest of the id in 32 octets, so
that two keys are equal if and only if the digests are. Take any two calls that published a
shipment, in full or with its status alone, to whatever topics, under whatever policies, with
whatever failures on the way and whatever else in the shipments: all attempts and messages of both
carry one key if and only if the two ids have one digest. -/
theorem keys_tell_shipments_apart :
    (∀ id, (messageKey id).length = 64 ∧ (∀ c ∈ (messageKey id).toList, c ∈ Text.hexDigits) ∧
      Text.ofHex? (messageKey id) = some (Digest.sha256 (Text.utf8 id)) ∧
      (Digest.sha256 (Text.utf8 id)).length = 32) ∧
    (∀ id id', messageKey id = messageKey id' ↔
      Digest.sha256 (Text.utf8 id) = Digest.sha256 (Text.utf8 id')) ∧
    ∀ (p p' : Producer) (deadline deadline' : Option Nat) (r r' : Request) (x x' : Shipment)
      (s s' t t' : Stage) (key key' : String),
      r.shipment? = some x → r'.shipment? = some x' →
      p.request deadline r s = .ok (.ok key, t) → p'.request deadline' r' s' = .ok (.ok key', t') →
      ∃ id id', x.id = some id ∧ x'.id = some id' ∧
        key = messageKey id ∧ s.site.broker.PublishedUnder key t.site.broker ∧
        key' = messageKey id' ∧ s'.site.broker.PublishedUnder key' t'.site.broker ∧
        ((∃ k, s.site.broker.PublishedUnder k t.site.broker ∧
            s'.site.broker.PublishedUnder k t'.site.broker) ↔
          Digest.sha256 (Text.utf8 id) = Digest.sha256 (Text.utf8 id')) ∧
        (id = id' → ∃ k, s.site.broker.PublishedUnder k t.site.broker ∧
          s'.site.broker.PublishedUnder k t'.site.broker) := by
  refine ⟨fun id => ⟨length_messageKey id, fun c => Text.mem_hexDigits_of_mem_hex,
    ofHex?_messageKey id, Digest.length_sha256 _⟩, fun id id' => messageKey_inj, ?_⟩
  intro p p' deadline deadline' r r' x x' s s' t t' key key' hx hx' h h'
  obtain ⟨id, hid, rfl, hunder⟩ := p.request_publishedUnder hx h
  obtain ⟨id', hid', rfl, hunder'⟩ := p'.request_publishedUnder hx' h'
  refine ⟨id, id', hid, hid', rfl, hunder, rfl, hunder', ?_, ?_⟩
  · rw [← messageKey_inj]
    constructor
    · rintro ⟨k, hk, hk'⟩
      exact (hunder.unique hk).trans (hk'.unique hunder')
    · intro hsame
      exact ⟨_, hunder, hsame ▸ hunder'⟩
  · rintro rfl
    exact ⟨_, hunder, hunder'⟩

/-- A shipment that is refused once and then accepted in full, its new status from another producer,
and another shipment. -/
theorem keys_tell_shipments_apart_after_a_refusal :
    let p : Producer := ⟨.standard, .standard, fun _ => ""⟩
    let p' : Producer := ⟨⟨"A", "B", "C"⟩, { Policy.standard with maxAttempts := 1 }, fun _ => ""⟩
    let s : Stage := ⟨.fresh .empty .absent, []⟩
    let refused := s.after p.topics (.failPublish [.connectionFailed "down"])
    let full := Shipment.sample "S-1" .planned
    let change := { Shipment.blank with id := some "S-1", status := some .sent }
    let other := { full with id := some "S-2" }
    ∃ key key' t u v, p.request none (.full full) refused = .ok (.ok key, t) ∧
      p'.request none (.status change) s = .ok (.ok key, u) ∧
      p.request none (.full other) s = .ok (.ok key', v) ∧
      (∃ k, refused.site.broker.PublishedUnder k t.site.broker ∧
        s.site.broker.PublishedUnder k u.site.broker) ∧
      ¬ ∃ k, refused.site.broker.PublishedUnder k t.site.broker ∧
        s.site.broker.PublishedUnder k v.site.broker := by
  intro p p' s refused full change other
  obtain ⟨key, hkey⟩ : ∃ key, (Request.full full).key "" = .ok key := exists_ok (by decide +kernel)
  obtain ⟨keyChange, hkeyChange⟩ : ∃ key, (Request.status change).key "" = .ok key :=
    exists_ok (by decide +kernel)
  obtain ⟨keyOther, hkeyOther⟩ : ∃ key, (Request.full other).key "" = .ok key :=
    exists_ok (by decide +kernel)
  obtain ⟨t, ht, -⟩ := p.request_accepted (s := refused) hkey (by decide) (by decide)
  obtain ⟨u, hu, -⟩ := p'.request_accepted (s := s) hkeyChange (by decide) (by decide)
  obtain ⟨v, hv, -⟩ := p.request_accepted (s := s) hkeyOther (by decide) (by decide)
  obtain ⟨-, -, hcalls⟩ := keys_tell_shipments_apart
  obtain ⟨id, id', hid, hid', hof, -, hof', -, -, hshared⟩ :=
    hcalls p p' none none _ _ full change refused s t u key keyChange rfl rfl ht hu
  obtain ⟨one, two, hone, htwo, -, -, -, -, hiff, -⟩ :=
    hcalls p p none none _ _ full other refused s t v key keyOther rfl rfl ht hv
  cases hid
  cases hid'
  cases hone
  cases htwo
  refine ⟨key, keyOther, t, u, v, ht, ?_, hv, hshared rfl, ?_⟩
  · rw [hu, hof, hof']
  · rw [hiff]
    decide +kernel

end Producer
end Consignment
