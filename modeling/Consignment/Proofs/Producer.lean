import Consignment.Producer
import Consignment.Proofs.Document
import Consignment.Proofs.Retry
import Consignment.Proofs.Stage.Silent
import Consignment.Samples

/-! What a call to the producer comes to, whoever is at work meanwhile. The script of the broker and
the policy decide how it is answered; every attempt is one that was counted as published, failed or
made again, and every message in the log is one that was counted as published. -/
namespace Consignment

theorem exists_ok {ε α : Type} {x : Except ε α} (h : x.isOk = true) : ∃ a, x = .ok a := by
  cases x with
  | ok a => exact ⟨a, rfl⟩
  | error e => cases h

inductive Request
  | full (s : Shipment)
  | status (s : Shipment)
  | transaction (t : Transaction)

namespace Request

def topic (topics : Topics) : Request → String
  | .full _ => topics.shipment
  | .status _ => topics.shipmentSync
  | .transaction _ => topics.transaction

def payload : Request → Bytes
  | .full s => s.write
  | .status s => s.write
  | .transaction t => t.write

def IsReadFrom (doc : Bytes) : Request → Prop
  | .full s => Shipment.reader.document doc = .ok s
  | .status s => Shipment.reader.document doc = .ok s
  | .transaction t => Transaction.reader.document doc = .ok t

def key (random : String) : Request → Except CheckError String
  | .full s => s.publishKey ["id"]
  | .status s => s.publishKey ["id", "status"]
  | .transaction t =>
    match Transaction.schema.checkMany t Transaction.required true with
    | .error e => .error e
    | .ok () => .ok random

def draw : Request → Stage → Stage
  | .full _, s => s
  | .status _, s => s
  | .transaction _, s => s.onSite fun site => { site with drawn := site.drawn + 1 }

theorem isReadFrom_payload (r : Request) : r.IsReadFrom r.payload := by
  cases r with
  | full s => exact s.ofDocument_write
  | status s => exact s.ofDocument_write
  | transaction t => exact t.spells.document

theorem draw_silent (r : Request) (s : Stage) : s.site.Silent (r.draw s).site := by
  cases r with
  | full _ => exact .refl _
  | status _ => exact .refl _
  | transaction _ => exact ⟨rfl, rfl, rfl, rfl, fun _ _ => rfl⟩

end Request

namespace Producer

def request (p : Producer) (deadline : Option Nat) :
    Request → Stage → Except Stage (Except ProduceError String × Stage)
  | .full x => p.produce deadline x
  | .status x => p.produceSync deadline x
  | .transaction x => p.produceTransaction deadline x

theorem request_eq (p : Producer) (deadline : Option Nat) (r : Request) (s : Stage) :
    p.request deadline r s = match r.key (p.randomKey s.site.drawn) with
      | .error e => .ok (.error (.invalid e), s)
      | .ok key => p.publish deadline (r.topic p.topics) key r.payload (r.draw s) := by
  cases r with
  | full x =>
    simp only [request, produce, Request.key]
    cases x.publishKey ["id"] <;> rfl
  | status x =>
    simp only [request, produceSync, Request.key]
    cases x.publishKey ["id", "status"] <;> rfl
  | transaction x =>
    simp only [request, produceTransaction, Request.key]
    cases Transaction.schema.checkMany x Transaction.required true <;> rfl

/-! ## One call -/

/-- How a call is answered where the broker answers by `script`, and which part of it is used up:
all of it, if it can be retried and the policy allows that many retries; else it up to the first
error that cannot be retried, or up to the last one that the policy allows. -/
inductive Verdict (p : Policy) (topic key : String) (script : List ChannelError) :
    List ChannelError → Except ProduceError String → Prop
  | accepted (hscript : ∀ e ∈ script, e.isTransient = true) (hfew : script.length < p.attempts) :
      Verdict p topic key script script (.ok key)
  | rejected {front back : List ChannelError} {e : ChannelError}
      (hscript : script = front ++ e :: back) (hfront : ∀ e ∈ front, e.isTransient = true)
      (he : e.isTransient = false) (hfew : front.length < p.attempts) :
      Verdict p topic key script (front ++ [e]) (.error (.rejected topic key (front.length + 1) e))
  | exhausted {front back : List ChannelError} {e : ChannelError}
      (hscript : script = front ++ e :: back) (hfront : ∀ e ∈ front, e.isTransient = true)
      (he : e.isTransient = true) (hall : front.length + 1 = p.attempts) :
      Verdict p topic key script (front ++ [e]) (.error (.exhausted topic key (front.length + 1) e))

/-- The attempts of one call: all are at the same message, each refusal of the script is the answer
to one of them, and the message is in the log once if the last one was accepted, and else not at
all. -/
structure Tried (topic key : String) (payload : Bytes) (refusals : List ChannelError)
    (accepted : Bool) (site site' : Site) : Prop where
  attempts : ∃ made : List Attempt, site'.broker.attempts = site.broker.attempts ++ made ∧
    made.map (·.error) = refusals.map some ++ (if accepted then [none] else []) ∧
    ∀ a ∈ made, a.topic = topic ∧ a.key = key ∧ a.payload = payload
  script : site.broker.publishFailures = refusals ++ site'.broker.publishFailures
  log : site'.broker.log = site.broker.log ++
    if accepted then [⟨topic, some key, payload, 0, site.broker.nextOffset topic⟩] else []

structure Counted (topic : String) (calls : Nat) (accepted : Bool) (site site' : Site) : Prop where
  published : ∀ t, site'.tally.count (.published t) =
    site.tally.count (.published t) + if t = topic ∧ accepted = true then 1 else 0
  failed : ∀ t, site'.tally.count (.publishFailed t) =
    site.tally.count (.publishFailed t) + if t = topic ∧ accepted = false then 1 else 0
  retries : ∀ t, site'.tally.count (.publishRetries t) =
    site.tally.count (.publishRetries t) + if t = topic then calls - 1 else 0

structure Concluded (p : Policy) (topic key : String) (payload : Bytes) (site : Site)
    (answer : Except ProduceError String) (site' : Site) (refusals : List ChannelError) : Prop where
  verdict : Verdict p topic key site.broker.publishFailures refusals answer
  tried : Tried topic key payload refusals answer.isOk site site'
  counted : Counted topic (refusals.length + answer.isOk.toNat) answer.isOk site site'

variable {topic key : String} {payload : Bytes} {refusals : List ChannelError}

structure Refused (topic key : String) (payload : Bytes) (site : Site)
    (refusals : List ChannelError) (n : Nat) (u : Nat × Stage) : Prop where
  length : refusals.length = n
  calls : u.1 = n
  transient : ∀ e ∈ refusals, e.isTransient = true
  tried : Tried topic key payload refusals false site u.2.site
  offsets : u.2.site.broker.offsets = site.broker.offsets
  tally : ∀ c : Counter, c.isPublishing = true → u.2.site.tally.count c = site.tally.count c

theorem refused_nil (topic key : String) (payload : Bytes) (s : Stage) :
    Refused topic key payload s.site [] 0 (0, s) :=
  ⟨rfl, rfl, by simp, ⟨⟨[], by simp⟩, rfl, by simp⟩, rfl, fun _ _ => rfl⟩

theorem Refused.silent {site : Site} {n : Nat} {u v : Nat × Stage}
    (h : Refused topic key payload site refusals n u) (hcalls : v.1 = u.1)
    (hv : u.2.site.Silent v.2.site) : Refused topic key payload site refusals n v where
  length := h.length
  calls := hcalls.trans h.calls
  transient := h.transient
  tried :=
    { attempts := hv.attempts ▸ h.tried.attempts
      script := hv.script ▸ h.tried.script
      log := hv.log.trans h.tried.log }
  offsets := hv.offsets.trans h.offsets
  tally c hc := (hv.tally c hc).trans (h.tally c hc)

theorem Refused.refuse {site : Site} {n : Nat} {u : Nat × Stage} {e : ChannelError}
    {es : List ChannelError} (h : Refused topic key payload site refusals n u)
    (hu : u.2.site.broker.publishFailures = e :: es) :
    ∃ v, attempt topic key payload u = (.error e, v) ∧ v.1 = n + 1 ∧
      Tried topic key payload (refusals ++ [e]) false site v.2.site ∧
      v.2.site.broker.offsets = site.broker.offsets ∧
      ∀ c : Counter, c.isPublishing = true → v.2.site.tally.count c = site.tally.count c := by
  obtain ⟨made, hmade, herrors, hsame⟩ := h.tried.attempts
  simp only [attempt, Broker.publish, hu]
  refine ⟨_, rfl, by rw [h.calls], ⟨?_, ?_, h.tried.log⟩, h.offsets, h.tally⟩
  · refine ⟨made ++ [⟨topic, key, payload, u.2.site.clock, some e⟩], ?_, ?_, ?_⟩
    · rw [hmade, List.append_assoc]
    · simpa using herrors
    · exact List.forall_mem_append.2 ⟨hsame, by simp⟩
  · rw [h.tried.script, hu, List.append_assoc]
    rfl

theorem Refused.accept {site : Site} {n : Nat} {u : Nat × Stage}
    (h : Refused topic key payload site refusals n u)
    (hu : u.2.site.broker.publishFailures = []) :
    ∃ v, attempt topic key payload u = (.ok (), v) ∧ v.1 = n + 1 ∧
      Tried topic key payload refusals true site v.2.site ∧
      ∀ c : Counter, c.isPublishing = true → v.2.site.tally.count c = site.tally.count c := by
  obtain ⟨made, hmade, herrors, hsame⟩ := h.tried.attempts
  simp only [attempt, Broker.publish, hu]
  refine ⟨_, rfl, by rw [h.calls], ⟨?_, ?_, ?_⟩, h.tally⟩
  · refine ⟨made ++ [⟨topic, key, payload, u.2.site.clock, none⟩], ?_, ?_, ?_⟩
    · simp only [Broker.accept, hmade, List.append_assoc]
    · simpa using herrors
    · exact List.forall_mem_append.2 ⟨hsame, by simp⟩
  · rw [h.tried.script, hu]
    rfl
  · have hlog := h.tried.log
    have hoffset : u.2.site.broker.nextOffset topic = site.broker.nextOffset topic := by
      rw [Broker.nextOffset, h.offsets, Broker.nextOffset]
    simp only [Bool.false_eq_true, if_false, List.append_nil] at hlog
    simp only [Broker.accept, Broker.nextOffset, hlog] at hoffset ⊢
    rw [hoffset]
    rfl

theorem pause_silent {deadline : Option Nat} {wait : Span} {u v : Nat × Stage}
    (h : pause deadline wait u = .ok v) : v.1 = u.1 ∧ u.2.site.Silent v.2.site := by
  unfold pause at h
  split at h
  · cases h
    exact ⟨rfl, Stage.sleepUntil_silent _ _⟩
  · simp only at h
    split at h
    · cases h
    cases h
    exact ⟨rfl, Stage.sleepUntil_silent _ _⟩

theorem conclude_counted (topic : String) (calls : Nat) (published : Bool) (s : Stage) :
    Counted topic calls published s.site (conclude topic calls published s).site := by
  have hcount : ∀ c, (conclude topic calls published s).site.tally.count c =
      s.site.tally.count c + (if c = .publishRetries topic then calls - 1 else 0) +
        if c = (if published then .published topic else .publishFailed topic) then 1 else 0 := by
    intro c
    unfold conclude
    by_cases hcalls : 1 < calls
    · simp [hcalls, Stage.onSite, Site.increment, Tally.count_add, eq_comm]
    · have hnone : calls - 1 = 0 := by omega
      simp [hcalls, hnone, Stage.onSite, Site.increment, Tally.count_add, eq_comm]
  refine ⟨?_, ?_, ?_⟩
  · intro t
    rw [hcount]
    cases published <;> simp
  · intro t
    rw [hcount]
    cases published <;> simp
  · intro t
    rw [hcount]
    cases published <;> simp

theorem Refused.again {site : Site} {n : Nat} {u v w : Nat × Stage} {e : ChannelError}
    {deadline : Option Nat} {wait : Span} (h : Refused topic key payload site refusals n u)
    (he : e.isTransient = true) (ha : attempt topic key payload u = (.error e, v))
    (hw : pause deadline wait v = .ok w) :
    Refused topic key payload site (refusals ++ [e]) (n + 1) w := by
  obtain ⟨hcalls, hsilent⟩ := pause_silent hw
  refine Refused.silent ?_ hcalls hsilent
  cases hu : u.2.site.broker.publishFailures with
  | nil =>
    obtain ⟨v', hv, -⟩ := h.accept hu
    rw [ha] at hv
    cases hv
  | cons f es =>
    obtain ⟨v', hv, hcount, htried, hoffsets, htally⟩ := h.refuse hu
    rw [ha] at hv
    cases hv
    refine ⟨by simp [h.length], hcount, ?_, htried, hoffsets, htally⟩
    exact List.forall_mem_append.2 ⟨h.transient, by simpa using he⟩

theorem Counted.congr {calls : Nat} {accepted : Bool} {a b c : Site}
    (h : Counted topic calls accepted b c)
    (htally : ∀ counter : Counter, counter.isPublishing = true →
      b.tally.count counter = a.tally.count counter) : Counted topic calls accepted a c where
  published t := by rw [h.published, htally _ rfl]
  failed t := by rw [h.failed, htally _ rfl]
  retries t := by rw [h.retries, htally _ rfl]

theorem conclude_broker (topic : String) (calls : Nat) (published : Bool) (s : Stage) :
    (conclude topic calls published s).site.broker = s.site.broker := by
  unfold conclude
  split <;> rfl

theorem Tried.congr {accepted : Bool} {a b c : Site}
    (h : Tried topic key payload refusals accepted a b) (hc : c.broker = b.broker) :
    Tried topic key payload refusals accepted a c := by
  refine ⟨?_, ?_, ?_⟩
  · rw [hc]
    exact h.attempts
  · rw [hc]
    exact h.script
  · rw [hc]
    exact h.log

theorem Concluded.of_silent {p : Policy} {a b c : Site} {answer : Except ProduceError String}
    (h : Concluded p topic key payload b answer c refusals) (hab : a.Silent b) :
    Concluded p topic key payload a answer c refusals where
  verdict := hab.script ▸ h.verdict
  tried :=
    { attempts := hab.attempts ▸ h.tried.attempts
      script := hab.script ▸ h.tried.script
      log := by
        have hlog := h.tried.log
        rwa [hab.log, Broker.nextOffset, hab.offsets] at hlog }
  counted := h.counted.congr hab.tally

theorem Refused.concluded {p : Policy} {site : Site} {n : Nat} {u v : Nat × Stage}
    (h : Refused topic key payload site refusals n u) (hfew : n < p.attempts)
    {result : Except ChannelError Unit} (ha : attempt topic key payload u = (result, v))
    {answer : Except (GaveUp ChannelError) Unit}
    (hnext : p.next ChannelError.isTransient n result = .stop answer) :
    ∃ refusals, Concluded p topic key payload site
      ((answer.mapError (describe topic key)).map fun _ => key)
      (conclude topic v.1 answer.isOk v.2).site refusals := by
  have hlength := h.length
  cases hu : u.2.site.broker.publishFailures with
  | nil =>
    obtain ⟨w, hw, hcalls, htried, htally⟩ := h.accept hu
    rw [ha] at hw
    cases hw
    rcases Policy.next_stop_cases hnext with ⟨a, -, rfl⟩ | ⟨e, he, -⟩ | ⟨e, he, -⟩
    · have hscript : site.broker.publishFailures = refusals := by
        have hall := h.tried.script
        rwa [hu, List.append_nil] at hall
      refine ⟨refusals, ?_, htried.congr (conclude_broker ..), ?_⟩
      · subst hscript
        exact .accepted h.transient (hlength ▸ hfew)
      · have hmade : v.1 = refusals.length + 1 := by rw [hcalls, hlength]
        rw [hmade]
        exact (conclude_counted topic _ true v.2).congr htally
    · cases he
    · cases he
  | cons e es =>
    obtain ⟨w, hw, hcalls, htried, -, htally⟩ := h.refuse hu
    rw [ha] at hw
    cases hw
    have hscript : site.broker.publishFailures = refusals ++ e :: es := by
      rw [h.tried.script, hu]
    have hmade : v.1 = (refusals ++ [e]).length := by simp [hcalls, hlength]
    have hcounted : Counted topic ((refusals ++ [e]).length + false.toNat) false site
        (conclude topic v.1 false v.2).site := by
      rw [hmade]
      exact (conclude_counted topic _ false v.2).congr htally
    rcases Policy.next_stop_cases hnext with ⟨a, he, -⟩ | ⟨f, he, hfinal, rfl⟩ |
      ⟨f, he, htransient, hlast, rfl⟩
    · cases he
    · cases he
      refine ⟨refusals ++ [e], ?_, htried.congr (conclude_broker ..), hcounted⟩
      rw [← hlength]
      exact .rejected hscript h.transient hfinal (hlength ▸ hfew)
    · cases he
      refine ⟨refusals ++ [e], ?_, htried.congr (conclude_broker ..), hcounted⟩
      rw [← hlength]
      exact .exhausted hscript h.transient htransient (by omega)

theorem publish_ok (p : Producer) {deadline : Option Nat} {s s' : Stage}
    {answer : Except ProduceError String}
    (h : p.publish deadline topic key payload s = .ok (answer, s')) :
    ∃ result v, p.policy.loop ChannelError.isTransient (attempt topic key payload)
        (pause deadline) 0 (0, s) = .ok (result, v) ∧
      answer = (result.mapError (describe topic key)).map (fun _ => key) ∧
      s' = conclude topic v.1 result.isOk v.2 := by
  unfold publish at h
  split at h
  · cases h
  · next calls t hloop =>
    cases h
    exact ⟨_, (calls, t), hloop, rfl, rfl⟩
  · next g calls t hloop =>
    cases h
    exact ⟨_, (calls, t), hloop, rfl, rfl⟩

theorem publish_cases (p : Producer) {deadline : Option Nat} {s s' : Stage}
    {answer : Except ProduceError String}
    (h : p.publish deadline topic key payload s = .ok (answer, s')) :
    ∃ refusals, Concluded p.policy topic key payload s.site answer s'.site refusals := by
  obtain ⟨result, v, hloop, rfl, rfl⟩ := p.publish_ok h
  -- every refusal on the way is one of the script, and as many were made as the loop counted
  obtain ⟨u, last, n, ⟨hfew, refusals, hrefused⟩, ha, hnext⟩ := p.policy.loop_last_counted
    (P := fun n u => n < p.policy.attempts ∧
      ∃ refusals, Refused topic key payload s.site refusals n u)
    (fun n u e v wait w ⟨_, refusals, hu⟩ hlt he ha hw =>
      ⟨hlt, refusals ++ [e], hu.again he ha hw⟩)
    ⟨Nat.lt_of_lt_of_le Nat.zero_lt_one (Nat.le_max_right _ _), [], refused_nil topic key payload s⟩
    hloop
  exact hrefused.concluded hfew ha hnext

end Producer

/-! ## Any number of calls -/

def Broker.attemptsOn (topic : String) (b : Broker) : Nat := b.attempts.countP (·.topic = topic)

/-- Every attempt made between the one site and the other at a message on the topic is counted as
the one that published it, as the last one in vain or as one that was made again; and what joined
the log is what was counted as published. -/
def Site.Accounted (topic : String) (site site' : Site) : Prop :=
  ∃ published failed retries : Nat,
    site'.tally.count (.published topic) = site.tally.count (.published topic) + published ∧
    site'.tally.count (.publishFailed topic) = site.tally.count (.publishFailed topic) + failed ∧
    site'.tally.count (.publishRetries topic) = site.tally.count (.publishRetries topic) + retries ∧
    site'.broker.attemptsOn topic =
      site.broker.attemptsOn topic + (published + failed + retries) ∧
    (site'.broker.publishedTo topic).length =
      (site.broker.publishedTo topic).length + published

namespace Site
variable {topic : String} {a b c : Site}

theorem Accounted.trans (h : Accounted topic a b) (g : Accounted topic b c) :
    Accounted topic a c := by
  obtain ⟨p, f, r, hp, hf, hr, ha, hl⟩ := h
  obtain ⟨p', f', r', hp', hf', hr', ha', hl'⟩ := g
  exact ⟨p + p', f + f', r + r', by omega, by omega, by omega, by omega, by omega⟩

theorem Silent.accounted (h : Silent a b) (topic : String) : Accounted topic a b := by
  refine ⟨0, 0, 0, h.tally _ rfl, h.tally _ rfl, h.tally _ rfl, ?_, ?_⟩
  · simp [Broker.attemptsOn, h.attempts]
  · simp [Broker.publishedTo, h.log]

end Site

namespace Producer
variable {topic key : String} {payload : Bytes} {refusals : List ChannelError} {site site' : Site}

theorem Tried.attemptsOn {accepted : Bool}
    (h : Tried topic key payload refusals accepted site site') (t : String) :
    site'.broker.attemptsOn t =
      site.broker.attemptsOn t + if t = topic then refusals.length + accepted.toNat else 0 := by
  obtain ⟨made, hmade, herrors, hsame⟩ := h.attempts
  have hlength : made.length = refusals.length + accepted.toNat := by
    have hmap := congrArg List.length herrors
    cases accepted <;> simpa using hmap
  have hcount : made.countP (·.topic = t) = if t = topic then made.length else 0 := by
    split
    · next ht =>
      subst ht
      exact List.countP_eq_length.2 fun a ha => by simpa using (hsame a ha).1
    · next ht =>
      refine List.countP_eq_zero.2 fun a ha => ?_
      simpa [(hsame a ha).1] using Ne.symm ht
  rw [Broker.attemptsOn, hmade, List.countP_append, hcount, hlength]
  rfl

theorem Tried.publishedTo {accepted : Bool}
    (h : Tried topic key payload refusals accepted site site') (t : String) :
    (site'.broker.publishedTo t).length =
      (site.broker.publishedTo t).length + if t = topic ∧ accepted = true then 1 else 0 := by
  rw [Broker.publishedTo, h.log, List.filter_append, List.length_append, Broker.publishedTo]
  cases accepted with
  | false => simp
  | true => by_cases ht : t = topic <;> simp [ht, eq_comm]

theorem Verdict.attempted {p : Policy} {script : List ChannelError}
    {answer : Except ProduceError String} (h : Verdict p topic key script refusals answer) :
    1 ≤ refusals.length + answer.isOk.toNat := by
  cases h with
  | accepted hscript hfew => exact Nat.le_add_left 1 _
  | rejected hscript hfront he hfew =>
    simp only [List.length_append, List.length_singleton]
    omega
  | exhausted hscript hfront he hall =>
    simp only [List.length_append, List.length_singleton]
    omega

theorem Concluded.accounted {p : Policy} {answer : Except ProduceError String}
    (h : Concluded p topic key payload site answer site' refusals) (t : String) :
    Site.Accounted t site site' := by
  have hone := h.verdict.attempted
  refine ⟨_, _, _, h.counted.published t, h.counted.failed t, h.counted.retries t, ?_,
    h.tried.publishedTo t⟩
  rw [h.tried.attemptsOn t]
  by_cases ht : t = topic
  · cases hanswer : answer.isOk <;> simp [ht, hanswer] at hone ⊢ <;> omega
  · simp [ht]

theorem request_cases (p : Producer) {deadline : Option Nat} {r : Request} {s s' : Stage}
    {answer : Except ProduceError String} (h : p.request deadline r s = .ok (answer, s')) :
    (∃ e, r.key (p.randomKey s.site.drawn) = .error e ∧ answer = .error (.invalid e) ∧ s' = s) ∨
    ∃ key refusals, r.key (p.randomKey s.site.drawn) = .ok key ∧
      Concluded p.policy (r.topic p.topics) key r.payload s.site answer s'.site refusals := by
  rw [request_eq] at h
  cases hkey : r.key (p.randomKey s.site.drawn) with
  | error e =>
    simp only [hkey] at h
    cases h
    exact .inl ⟨e, rfl, rfl, rfl⟩
  | ok key =>
    simp only [hkey] at h
    obtain ⟨refusals, hconcluded⟩ := p.publish_cases h
    exact .inr ⟨key, refusals, rfl, hconcluded.of_silent (r.draw_silent s)⟩

/-- The second stage comes from the first by calls that were answered, by any producers, by waits,
and by whatever else can happen but for messages that no producer publishes. -/
inductive Course : Stage → Stage → Prop
  | refl (s : Stage) : Course s s
  | called {p : Producer} {deadline : Option Nat} {r : Request} {s t u : Stage}
      {answer : Except ProduceError String} (h : Course s t)
      (hcall : p.request deadline r t = .ok (answer, u)) : Course s u
  | slept {s t : Stage} (h : Course s t) (wake : Nat) : Course s (t.sleepUntil wake)
  | happened {s t : Stage} (h : Course s t) (topics : Topics) {e : Event}
      (he : e.isPublish = false) : Course s (t.after topics e)

theorem Course.accounted {s t : Stage} (h : Course s t) (topic : String) :
    Site.Accounted topic s.site t.site := by
  induction h with
  | refl s => exact (Site.Silent.refl _).accounted topic
  | @called p deadline r s t u answer h hcall ih =>
    refine ih.trans ?_
    rcases p.request_cases hcall with ⟨e, -, -, rfl⟩ | ⟨key, refusals, -, hconcluded⟩
    · exact (Site.Silent.refl _).accounted topic
    · exact hconcluded.accounted topic
  | @slept s t h wake ih => exact ih.trans ((t.sleepUntil_silent wake).accounted topic)
  | @happened s t h topics e he ih =>
    refine ih.trans ?_
    by_cases hscript : ∃ errors, e = .failPublish errors
    · obtain ⟨errors, rfl⟩ := hscript
      exact ⟨0, 0, 0, rfl, rfl, rfl, rfl, rfl⟩
    · have hsilent := t.after_silent topics he fun errors heq => hscript ⟨errors, heq⟩
      exact hsilent.accounted topic

theorem request_answered (p : Producer) (r : Request) (s : Stage) :
    ∃ answer s', p.request none r s = .ok (answer, s') := by
  rw [request_eq]
  split
  · exact ⟨_, _, rfl⟩
  · unfold publish
    next key _ =>
    have hloop : ∃ answer u, p.policy.loop ChannelError.isTransient
        (attempt (r.topic p.topics) key r.payload) (pause none) 0 (0, r.draw s) = .ok (answer, u) :=
      p.policy.loop_answers (fun wait u => ⟨_, rfl⟩) 0 _
    obtain ⟨answer, ⟨calls, t⟩, hloop⟩ := hloop
    rw [hloop]
    cases answer <;> exact ⟨_, _, rfl⟩

theorem request_accepted (p : Producer) {r : Request} {s : Stage}
    (hkey : r.key (p.randomKey s.site.drawn) = .ok key)
    (hscript : ∀ e ∈ s.site.broker.publishFailures, e.isTransient = true)
    (hfew : s.site.broker.publishFailures.length < p.policy.attempts) :
    ∃ t, p.request none r s = .ok (.ok key, t) ∧ t.site.broker.publishFailures = [] := by
  obtain ⟨answer, t, hcall⟩ := p.request_answered r s
  rcases p.request_cases hcall with ⟨e, herror, -⟩ | ⟨key', refusals, hkey', hconcluded⟩
  · rw [hkey] at herror
    cases herror
  obtain rfl : key = key' := Except.ok.inj (hkey.symm.trans hkey')
  have hused := hconcluded.tried.script
  have hverdict := hconcluded.verdict
  generalize hs : s.site.broker.publishFailures = script at hverdict hscript hfew hused
  cases hverdict with
  | accepted =>
    exact ⟨t, hcall, List.append_cancel_left (hused.symm.trans (List.append_nil _).symm)⟩
  | @rejected front back e hsplit hfront he =>
    have htransient := hscript e (by simp [hsplit])
    rw [he] at htransient
    cases htransient
  | @exhausted front back e hsplit hfront he hall =>
    rw [hsplit, List.length_append, List.length_cons] at hfew
    omega

/-- What becomes of a call that is not cut. If the request lacks what its topic needs, that is the
answer and nothing else happens. Otherwise the script of the broker and the policy decide: each
attempt is at the same message, under one key and with a payload that reads back as what was
requested; the message joins the log exactly if the call is answered with its key, and the counters
say how often it was tried and what became of it. Over any course of calls, for each topic, the
attempts are those counted as published, failed or made again, and the messages those counted as
published. -/
theorem publishing_adds_up :
    (∀ (p : Producer) (deadline : Option Nat) (r : Request) (s s' : Stage)
      (answer : Except ProduceError String), p.request deadline r s = .ok (answer, s') →
      (∃ e, r.key (p.randomKey s.site.drawn) = .error e ∧ answer = .error (.invalid e) ∧ s' = s) ∨
      ∃ key refusals, r.key (p.randomKey s.site.drawn) = .ok key ∧
        Verdict p.policy (r.topic p.topics) key s.site.broker.publishFailures refusals answer ∧
        Tried (r.topic p.topics) key r.payload refusals answer.isOk s.site s'.site ∧
        Counted (r.topic p.topics) (refusals.length + answer.isOk.toNat) answer.isOk
          s.site s'.site) ∧
    (∀ (p : Producer) (r : Request) (s : Stage),
      ∃ answer s', p.request none r s = .ok (answer, s')) ∧
    (∀ r : Request, r.IsReadFrom r.payload) ∧
    ∀ s t : Stage, Course s t → ∀ topic, Site.Accounted topic s.site t.site := by
  refine ⟨?_, request_answered, Request.isReadFrom_payload, fun s t h => h.accounted⟩
  intro p deadline r s s' answer h
  rcases p.request_cases h with hinvalid | ⟨key, refusals, hkey, hconcluded⟩
  · exact .inl hinvalid
  · exact .inr ⟨key, refusals, hkey, hconcluded.verdict, hconcluded.tried, hconcluded.counted⟩

/-- A shipment that is refused once and then accepted, at a producer with the standard policy. -/
theorem publishing_adds_up_after_a_refusal :
    let p : Producer := ⟨.standard, .standard, fun _ => ""⟩
    let x := Shipment.sample "S1" .sent
    let refusal := ChannelError.connectionFailed "down"
    let s := (⟨.fresh .empty .absent, []⟩ : Stage).after p.topics (.failPublish [refusal])
    ∃ key s', p.request none (.full x) s = .ok (.ok key, s') ∧
      Tried "SHIPMENT" key x.write [refusal] true s.site s'.site ∧
      Counted "SHIPMENT" 2 true s.site s'.site ∧ Site.Accounted "SHIPMENT" s.site s'.site := by
  intro p x refusal s
  obtain ⟨hcall, hanswered, -, hcourse⟩ := publishing_adds_up
  obtain ⟨answer, s', h⟩ := hanswered p (.full x) s
  have hvalid : ((Request.full x).key (p.randomKey s.site.drawn)).isOk = true := by decide +kernel
  have hscript : s.site.broker.publishFailures = [refusal] := rfl
  have hsingle : ∀ {front back : List ChannelError} {e : ChannelError},
      [refusal] = front ++ e :: back → front = [] ∧ e = refusal := by
    intro front back e hsplit
    cases front <;> simp_all
  rcases hcall p none (.full x) s s' answer h with
    ⟨e, hkey, -⟩ | ⟨key, refusals, -, hverdict, htried, hcounted⟩
  · rw [hkey] at hvalid
    cases hvalid
  rw [hscript] at hverdict
  cases hverdict with
  | accepted htransient hfew =>
    exact ⟨key, s', h, htried, hcounted, hcourse s s' (.called (.refl s) h) "SHIPMENT"⟩
  | rejected hsplit hfront he hfew =>
    rw [(hsingle hsplit).2] at he
    cases he
  | exhausted hsplit hfront he hall =>
    rw [(hsingle hsplit).1] at hall
    exact absurd hall (by decide)

end Producer
end Consignment
