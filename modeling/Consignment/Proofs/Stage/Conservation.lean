import Consignment.Proofs.Publish
import Consignment.Proofs.Stage.Custody
import Consignment.Samples

/-! What a session takes from its stream is accounted for. The summary, the acknowledgements, the
writes, the letters and the counters are kept apart from one another; they agree after every
step. -/
namespace Consignment

namespace Tally

def totalIn (kind : String) : List (Counter × Nat) → Nat
  | [] => 0
  | e :: es => (if e.1.kind = kind then e.2 else 0) + totalIn kind es

def total (kind : String) (t : Tally) : Nat := totalIn kind t.counts

theorem totalIn_addIn (kind : String) (c : Counter) (n : Nat) (es : List (Counter × Nat)) :
    totalIn kind (addIn c n es) = totalIn kind es + if c.kind = kind then n else 0 := by
  induction es with
  | nil => simp [addIn, totalIn]
  | cons e es ih => grind [addIn, totalIn]

theorem total_add (t : Tally) (c : Counter) (n : Nat) (kind : String) :
    (t.add c n).total kind = t.total kind + if c.kind = kind then n else 0 :=
  totalIn_addIn kind c n t.counts

end Tally

namespace Sink

def isReliable : Sink → Bool
  | .absent => false
  | .refusing => false
  | .keeping _ => true
  | .faltering answers _ => answers.all id

theorem record_of_reliable {sink : Sink} (h : sink.isReliable = true) (letter : DeadLetter) :
    (sink.record letter).isReliable = true ∧
      (sink.record letter).letters = sink.letters ++ [letter] := by
  match sink with
  | .absent => cases h
  | .refusing => cases h
  | .keeping letters => exact ⟨rfl, rfl⟩
  | .faltering [] letters => exact ⟨rfl, rfl⟩
  | .faltering (true :: answers) letters => exact ⟨h, rfl⟩
  | .faltering (false :: answers) letters => cases h

end Sink

theorem Store.writes_consume (payload : Bytes) (s : Store) :
    (s.consume payload).2.writes = s.writes + if (s.consume payload).1.isOk then 1 else 0 := by
  rcases s.consume_cases payload with ⟨e, rest, -, hc⟩ | ⟨e, -, hc, -⟩ |
    ⟨incoming, id, status, record, done, -, -, -, -, hc⟩
  · simp [hc, Except.isOk, Except.toBool]
  · simp [hc, Except.isOk, Except.toBool]
  · simp [hc, Except.isOk, Except.toBool]

theorem Summary.record_frame (r : Except ConsumeError Reconciliation) (m : Summary) :
    (m.record r).reconciled + (m.record r).rejected + (m.record r).deadLettered =
        m.reconciled + m.rejected + m.deadLettered + 1 ∧
      (m.record r).transportErrors = m.transportErrors ∧
      (m.record r).shutdownRequested = m.shutdownRequested ∧
      (m.record r).storeUnavailable = m.storeUnavailable := by
  unfold record
  split <;> exact ⟨by dsimp only; omega, rfl, rfl, rfl⟩

theorem Site.conclude_cases {r : Except ConsumeError Reconciliation}
    (hr : ConsumeError.unsettled r = false) (d : Delivery) (site : Site) (m : Summary) :
    (∃ done, r = .ok done ∧ site.conclude d r = site.increment (.reconciled d.topic) 1 ∧
      m.record r = { m with reconciled := m.reconciled + 1 }) ∨
    (∃ e, r = .error e ∧ site.conclude d r = site.increment (.rejected d.topic) 1 ∧
      m.record r = { m with rejected := m.rejected + 1 }) ∨
    ∃ e reason, r = .error e ∧ site.conclude d r = site.bury d reason e ∧
      m.record r = { m with deadLettered := m.deadLettered + 1 } := by
  cases r with
  | ok done => exact .inl ⟨done, rfl, rfl, rfl⟩
  | error e =>
    right
    cases e with
    | illegal id stored incoming => exact .inl ⟨_, rfl, rfl, rfl⟩
    | malformed reason => exact .inr ⟨_, .deserialization, rfl, rfl, rfl⟩
    | invalid error => exact .inr ⟨_, .validation, rfl, rfl, rfl⟩
    | store error =>
      have hlasts : error.isTransient = false := hr
      refine .inr ⟨_, .store, rfl, ?_, rfl⟩
      simp [conclude, ConsumeError.isTransient, ConsumeError.letterReason, hlasts]

namespace Session

/-- What a session that began at the one site and came to the other with this summary did, by all
the other accounts of it. -/
structure Books (before after : Site) (m : Summary) : Prop where
  acks : after.broker.acks.length = before.broker.acks.length + m.processed
  writes : after.store.writes = before.store.writes + m.reconciled
  letters : before.sink.isReliable = true → after.sink.isReliable = true ∧
    after.sink.letters.length = before.sink.letters.length + m.deadLettered
  reconciled : after.tally.total "reconciled" = before.tally.total "reconciled" + m.reconciled
  rejected : after.tally.total "rejected" = before.tally.total "rejected" + m.rejected
  deadLettered : after.tally.total "dead_lettered" =
    before.tally.total "dead_lettered" + m.deadLettered
  storeUnavailable : after.tally.total "store_unavailable" =
    before.tally.total "store_unavailable" + m.storeUnavailable.toNat

/-- Every item taken is in the summary, or it is the one that is still in hand. -/
structure Balanced (before : Site) (x : Session) (after : Site) (taken : Nat) : Prop where
  books : Books before after x.summary
  taken : taken = x.summary.reconciled + x.summary.rejected + x.summary.deadLettered +
    x.summary.transportErrors + x.summary.storeUnavailable.toNat + x.inHand.length
  goesOn : x.phase ≠ .finished →
    x.summary.shutdownRequested = false ∧ x.summary.storeUnavailable = false
  single : ¬ (x.summary.shutdownRequested = true ∧ x.summary.storeUnavailable = true)

namespace Books
variable {before after : Site} {m : Summary}

theorem start (site : Site) : Books site site .blank :=
  ⟨rfl, rfl, fun h => ⟨h, rfl⟩, rfl, rfl, rfl, rfl⟩

theorem congr (h : Books before after m) {site : Site}
    (hacks : site.broker.acks = after.broker.acks)
    (hwrites : site.store.writes = after.store.writes)
    (hsink : site.sink = after.sink) (htally : site.tally = after.tally) : Books before site m := by
  refine ⟨?_, hwrites.trans h.writes, ?_, ?_, ?_, ?_, ?_⟩
  · rw [hacks]
    exact h.acks
  · rw [hsink]
    exact h.letters
  · rw [htally]
    exact h.reconciled
  · rw [htally]
    exact h.rejected
  · rw [htally]
    exact h.deadLettered
  · rw [htally]
    exact h.storeUnavailable

theorem settle (h : Books before after m) (d : Delivery) {r : Except ConsumeError Reconciliation}
    (hr : ConsumeError.unsettled r = false) {site : Site}
    (hacks : site.broker.acks = after.broker.acks) (hsink : site.sink = after.sink)
    (htally : site.tally = after.tally)
    (hwrites : site.store.writes = after.store.writes + if r.isOk then 1 else 0) :
    Books before ((site.conclude d r).acknowledge d) (m.record r) := by
  obtain ⟨h1, h2, h3, h4, h5, h6, h7⟩ := h
  simp only [Summary.processed] at h1
  rw [h2] at hwrites
  rw [← hacks] at h1
  rw [← hsink] at h3
  rw [← htally] at h4 h5 h6 h7
  rcases Site.conclude_cases hr d site m with
    ⟨done, rfl, hc, hm⟩ | ⟨e, rfl, hc, hm⟩ | ⟨e, reason, rfl, hc, hm⟩
  · rw [hc, hm]
    refine ⟨?_, ?_, h3, ?_, ?_, ?_, ?_⟩ <;> simp [Site.acknowledge, Broker.acknowledge,
      Site.increment, Tally.total_add, Counter.kind, Summary.processed, Except.isOk, Except.toBool,
      h1, h4, h5, h6, h7, hwrites] <;> omega
  · rw [hc, hm]
    refine ⟨?_, ?_, h3, ?_, ?_, ?_, ?_⟩ <;> simp [Site.acknowledge, Broker.acknowledge,
      Site.increment, Tally.total_add, Counter.kind, Summary.processed, Except.isOk, Except.toBool,
      h1, h4, h5, h6, h7, hwrites] <;> omega
  · rw [hc, hm]
    have hletters : before.sink.isReliable = true →
        (site.sink.record ⟨d, reason, e.message⟩).isReliable = true ∧
          (site.sink.record ⟨d, reason, e.message⟩).letters.length =
            before.sink.letters.length + (m.deadLettered + 1) := by
      intro hreliable
      obtain ⟨hkeeps, hlength⟩ := h3 hreliable
      obtain ⟨hkeeps', hletters⟩ := Sink.record_of_reliable hkeeps ⟨d, reason, e.message⟩
      exact ⟨hkeeps', by simp [hletters, hlength, Nat.add_assoc]⟩
    refine ⟨?_, ?_, hletters, ?_, ?_, ?_, ?_⟩ <;> simp [Site.acknowledge, Broker.acknowledge,
      Site.bury, Site.increment, Tally.total_add, Counter.kind, Summary.processed, Except.isOk,
      Except.toBool, h1, h4, h5, h6, h7, hwrites] <;> omega

theorem giveUp (h : Books before after m) (d : Delivery) {r : Except ConsumeError Reconciliation}
    (hr : ConsumeError.unsettled r = true) (hm : m.storeUnavailable = false) {site : Site}
    (hacks : site.broker.acks = after.broker.acks) (hsink : site.sink = after.sink)
    (htally : site.tally = after.tally) (hwrites : site.store.writes = after.store.writes) :
    Books before (site.conclude d r) { m with storeUnavailable := true } := by
  have hsite : Books before site m := h.congr hacks hwrites hsink htally
  have hconclude : site.conclude d r = site.increment (.storeUnavailable d.topic) 1 := by
    cases r with
    | ok a => cases hr
    | error e =>
      have he : e.isTransient = true := hr
      cases e <;> simp_all [Site.conclude, ConsumeError.isTransient]
  rw [hconclude]
  refine ⟨hsite.acks, hsite.writes, hsite.letters, ?_, ?_, ?_, ?_⟩
  · simpa [Site.increment, Tally.total_add, Counter.kind] using hsite.reconciled
  · simpa [Site.increment, Tally.total_add, Counter.kind] using hsite.rejected
  · simpa [Site.increment, Tally.total_add, Counter.kind] using hsite.deadLettered
  · simpa [Site.increment, Tally.total_add, Counter.kind, hm] using hsite.storeUnavailable

end Books

theorem attempt_cases (p : Policy) (d : Delivery) (failed : Nat) (x : Session) (site : Site) :
    (∃ e due, (site.store.consume d.payload).1 = .error e ∧ x.attempt p d failed site =
      ({ x with phase := .retrying d (failed + 1) due },
        { site with store := (site.store.consume d.payload).2 })) ∨
    x.attempt p d failed site = x.settle d (site.store.consume d.payload).1
      { site with store := (site.store.consume d.payload).2 } := by
  unfold attempt Site.consume
  cases hn : p.next ConsumeError.isTransient failed (site.store.consume d.payload).1 with
  | again wait =>
    obtain ⟨e, he, -⟩ := Policy.retryable_of_next hn
    exact .inl ⟨e, site.clock + wait.ticks, he, by simp only [hn]⟩
  | stop answer => exact .inr (by simp only [hn])

/-- What was taken from the stream by a session that is over, by its summary and by all the other
accounts of it. -/
structure Conserved (before after : Site) (m : Summary) (taken : Nat) : Prop where
  books : Books before after m
  taken : taken = m.reconciled + m.rejected + m.deadLettered + m.transportErrors +
    if m.storeUnavailable then 1 else 0
  single : ¬ (m.shutdownRequested = true ∧ m.storeUnavailable = true)

namespace Balanced
variable {before after : Site} {x : Session} {taken : Nat}

theorem conserved (h : Balanced before x after taken) (hx : x.phase = .finished) :
    Conserved before after x.summary taken := by
  refine ⟨h.books, ?_, h.single⟩
  rw [h.taken]
  cases x.summary.storeUnavailable <;> simp [inHand, hx]

theorem start (i : Nat) (site : Site) : Balanced site (.start i) site 0 :=
  ⟨.start site, rfl, fun _ => ⟨rfl, rfl⟩, by simp [Session.start, Summary.blank]⟩

theorem attempt (h : Books before after x.summary)
    (htaken : taken = x.summary.reconciled + x.summary.rejected + x.summary.deadLettered +
      x.summary.transportErrors + 1)
    (hshut : x.summary.shutdownRequested = false) (hdown : x.summary.storeUnavailable = false)
    (p : Policy) (d : Delivery) (failed : Nat) {site : Site}
    (hacks : site.broker.acks = after.broker.acks) (hsink : site.sink = after.sink)
    (htally : site.tally = after.tally) (hwrites : site.store.writes = after.store.writes) :
    Balanced before (x.attempt p d failed site).1 (x.attempt p d failed site).2 taken := by
  have hconsume := Store.writes_consume d.payload site.store
  rcases attempt_cases p d failed x site with ⟨e, due, he, ha⟩ | ha
  · rw [ha]
    rw [he] at hconsume
    refine ⟨h.congr hacks (hconsume.trans hwrites) hsink htally, ?_, fun _ => ⟨hshut, hdown⟩, ?_⟩
    · simp [inHand, hdown, htaken]
    · simp [hshut]
  · rw [ha]
    cases hu : ConsumeError.unsettled (site.store.consume d.payload).1 with
    | true =>
      rw [settle_of_unsettled hu]
      have hfailed : (site.store.consume d.payload).1.isOk = false := by
        cases hr : (site.store.consume d.payload).1 with
        | ok a =>
          rw [hr] at hu
          cases hu
        | error e => rfl
      have hkept : (site.store.consume d.payload).2.writes = after.store.writes := by
        rw [hconsume, hfailed]
        exact hwrites
      refine ⟨h.giveUp d hu hdown hacks hsink htally hkept, ?_, ?_, ?_⟩
      · simp [inHand, htaken]
      · simp
      · simp [hshut]
    | false =>
      rw [settle_of_settled hu]
      obtain ⟨hcount, herrors, hshut', hdown'⟩ :=
        x.summary.record_frame (site.store.consume d.payload).1
      refine ⟨h.settle d hu hacks hsink htally (hwrites ▸ hconsume), ?_, fun _ => ?_, ?_⟩
      · simp only [inHand, hcount, herrors, hdown', hdown, htaken, Bool.toNat_false,
          List.length_nil]
        omega
      · exact ⟨hshut'.trans hshut, hdown'.trans hdown⟩
      · simp [hshut', hshut]

theorem congr (h : Balanced before x after taken) {site : Site}
    (hacks : site.broker.acks = after.broker.acks)
    (hwrites : site.store.writes = after.store.writes)
    (hsink : site.sink = after.sink) (htally : site.tally = after.tally) :
    Balanced before x site taken :=
  ⟨h.books.congr hacks hwrites hsink htally, h.taken, h.goesOn, h.single⟩

theorem shutDown (h : Balanced before x after taken) (hx : x.phase = .listening) :
    Balanced before x.shutDown after taken := by
  obtain ⟨-, hdown⟩ := h.goesOn (by simp [hx])
  obtain ⟨hbooks, htaken, -, -⟩ := h
  refine ⟨⟨hbooks.acks, hbooks.writes, hbooks.letters, hbooks.reconciled, hbooks.rejected,
    hbooks.deadLettered, hbooks.storeUnavailable⟩, ?_, by simp [Session.shutDown], ?_⟩
  · simpa [Session.shutDown, inHand, hx] using htaken
  · simp [Session.shutDown, hdown]

end Balanced
end Session

namespace Broker

theorem waiting_receive {b c : Broker} {i : Nat} {item : Except ChannelError Delivery}
    (h : b.receive i = (.item item, c)) : b.waiting i = c.waiting i + 1 := by
  unfold receive at h
  cases hs : b.subscriptions[i]? with
  | none => simp [hs] at h
  | some sub =>
    obtain ⟨hi, hs'⟩ := List.getElem?_eq_some_iff.1 hs
    simp only [hs, Subscription.receive] at h
    cases hq : sub.queue with
    | nil => cases hl : sub.live <;> simp [hq, hl] at h
    | cons y ys =>
      simp only [hq, Prod.mk.injEq, Received.item.injEq] at h
      obtain ⟨-, rfl⟩ := h
      simp [waiting, hs', hq, hi]

end Broker

namespace Session
variable {before site site' : Site} {x x' : Session} {taken : Nat}

theorem Balanced.step {p : Policy} {signalled signalFirst : Bool}
    (h : Balanced before x site taken)
    (hstep : x.step? p signalled signalFirst site = some (x', site')) :
    x'.subscription = x.subscription ∧ ∃ n, Balanced before x' site' (taken + n) ∧
      site.broker.waiting x.subscription = site'.broker.waiting x.subscription + n := by
  refine ⟨(step?_progress hstep).subscription, ?_⟩
  have htaken := h.taken
  cases move_of_step? hstep with
  | @retries d failed due hx hdue =>
    obtain ⟨hshut, hdown⟩ := h.goesOn (by simp [hx])
    have hwaiting := waiting_congr (attempt_progress p d failed x site).2.1 x.subscription
    refine ⟨0, .attempt h.books ?_ hshut hdown p d failed rfl rfl rfl rfl, hwaiting.symm⟩
    simpa [inHand, hx, hdown] using htaken
  | @takes d b hx hs hr =>
    obtain ⟨hshut, hdown⟩ := h.goesOn (by simp [hx])
    have hb := (receive_stream hr).1
    have hwaiting := waiting_congr (attempt_progress p d 0 x { site with broker := b }).2.1
      x.subscription
    have hacks : b.acks = site.broker.acks := by
      obtain ⟨subs, rfl⟩ := hb
      rfl
    refine ⟨1, .attempt h.books ?_ hshut hdown p d 0 hacks rfl rfl rfl, ?_⟩
    · simpa [inHand, hx, hdown] using htaken
    · rw [hwaiting]
      exact Broker.waiting_receive hr
  | @misses e b hx hs hr =>
    obtain ⟨subs, rfl⟩ := (receive_stream hr).1
    have hbooks : Books before { site with broker := { site.broker with subscriptions := subs } }
        x.countError.summary :=
      ⟨h.books.acks, h.books.writes, h.books.letters, h.books.reconciled, h.books.rejected,
        h.books.deadLettered, h.books.storeUnavailable⟩
    refine ⟨1, ⟨hbooks, ?_, h.goesOn, h.single⟩, Broker.waiting_receive hr⟩
    simp only [countError, inHand, hx] at htaken ⊢
    omega
  | ends hx hr =>
    refine ⟨0, ⟨h.books, ?_, by simp [finish], h.single⟩, rfl⟩
    simpa [finish, inHand, hx] using htaken
  | stops hx hs hr => exact ⟨0, h.shutDown hx, rfl⟩

theorem Balanced.meanwhile (h : Balanced before x site taken) (topics : Topics) (e : Event) :
    Balanced before x ((⟨site, []⟩ : Stage).after topics e).site taken := by
  have hidle : (⟨site, []⟩ : Stage).handling? e = none := by cases e <;> rfl
  have hacks := Stage.after_acks topics ⟨site, []⟩ e
  have hsink := Stage.after_sink topics ⟨site, []⟩ e
  rw [hidle] at hacks hsink
  refine h.congr (hacks.trans (List.append_nil _)) ?_ hsink ?_
  · cases e <;> rfl
  · cases e <;> rfl

/-- A session, the site it is at, and how many items it has taken from its stream so far, as far as
the stream can tell. -/
structure Run where
  session : Session
  site : Site
  taken : Nat

/-- In `step` the session goes on if it can, whether or not it is told to shut down just then. In
`meanwhile` something happens to the site, but nobody else consumes. -/
inductive Run.Event
  | step (signalled signalFirst : Bool)
  | meanwhile (e : Consignment.Event)

namespace Run

def start (i : Nat) (site : Site) : Run := ⟨.start i, site, 0⟩

def after (p : Policy) (topics : Topics) (r : Run) : Run.Event → Run
  | .step signalled signalFirst =>
    match r.session.step? p signalled signalFirst r.site with
    | none => r
    | some (x, site) => ⟨x, site, r.taken +
        (r.site.broker.waiting r.session.subscription - site.broker.waiting r.session.subscription)⟩
  | .meanwhile e => { r with site := ((⟨r.site, []⟩ : Stage).after topics e).site }

def afterAll (p : Policy) (topics : Topics) (r : Run) (es : List Run.Event) : Run :=
  es.foldl (after p topics) r

variable {p : Policy} {topics : Topics} {r : Run}

theorem balanced_after (h : Balanced before r.session r.site r.taken) (e : Run.Event) :
    let r' := r.after p topics e
    Balanced before r'.session r'.site r'.taken := by
  cases e with
  | meanwhile e => exact h.meanwhile topics e
  | step signalled signalFirst =>
    simp only [after]
    cases hstep : r.session.step? p signalled signalFirst r.site with
    | none => exact h
    | some next =>
      obtain ⟨-, n, hbalanced, hwaiting⟩ := h.step hstep
      simp only [hwaiting, Nat.add_sub_cancel_left]
      exact hbalanced

theorem balanced_afterAll (h : Balanced before r.session r.site r.taken) (es : List Run.Event) :
    let r' := r.afterAll p topics es
    Balanced before r'.session r'.site r'.taken := by
  induction es generalizing r with
  | nil => exact h
  | cons e es ih => exact ih (balanced_after h e)

end Run

def Draws (before : Site) (i total : Nat) (x : Session) (site : Site) : Prop :=
  x.subscription = i ∧ ∃ taken, Balanced before x site taken ∧
    site.broker.waiting i + taken = total

namespace Draws
variable {i total : Nat} {p : Policy}

theorem step {signalled signalFirst : Bool} (h : Draws before i total x site)
    (hstep : x.step? p signalled signalFirst site = some (x', site')) :
    Draws before i total x' site' := by
  obtain ⟨rfl, taken, hbalanced, htotal⟩ := h
  obtain ⟨hsub, n, hbalanced', hwaiting⟩ := hbalanced.step hstep
  exact ⟨hsub, taken + n, hbalanced', by omega⟩

theorem await (h : Draws before i total x site) (t : Nat) :
    Draws before i total x (site.await t) := by
  obtain ⟨hsub, taken, hbalanced, htotal⟩ := h
  exact ⟨hsub, taken, hbalanced.congr rfl rfl rfl rfl, htotal⟩

theorem advance (h : Draws before i total x site) (signalled signalFirst : Bool) :
    Draws before i total (x.advance p signalled signalFirst site).1
      (x.advance p signalled signalFirst site).2 := by
  fun_induction Session.advance p signalled signalFirst x site with
  | case1 => exact h
  | case2 x site x' site' hstep ih => exact ih (h.step hstep)

theorem shutDown (h : Draws before i total x site) (hx : x.phase = .listening) :
    Draws before i total x.shutDown site := by
  obtain ⟨hsub, taken, hbalanced, htotal⟩ := h
  exact ⟨hsub, taken, hbalanced.shutDown hx, htotal⟩

theorem attempt {d : Delivery} {failed due : Nat} (h : Draws before i total x site)
    (hx : x.phase = .retrying d failed due) (hdue : due ≤ site.clock) :
    Draws before i total (x.attempt p d failed site).1 (x.attempt p d failed site).2 := by
  have hstep : x.step? p false false site = some (x.attempt p d failed site) := by
    simp [step?, hx, hdue]
  exact h.step hstep

theorem drain (signalAt : Nat) {s : Stage} (hs : s.workers = [])
    (h : Draws before i total x s.site) :
    Draws before i total (s.drain p signalAt x).1 (s.drain p signalAt x).2.site ∧
      (s.drain p signalAt x).1.phase = .finished := by
  fun_induction Stage.drain p signalAt x s with
  | case1 x s now hnow => exact ⟨h.advance _ _, hnow⟩
  | case2 x s now hnow =>
    simp only [Stage.sleepUntil_alone (s := { s with site := now.2 }) hs]
    exact ⟨((h.advance _ _).await signalAt).shutDown hnow, rfl⟩
  | case3 x s now d failed due hnow next ih =>
    have halone := Stage.sleepUntil_alone (s := { s with site := now.2 }) hs due
    have hnext : next = ((now.1.attempt p d failed (now.2.await due)).1,
        { s with site := (now.1.attempt p d failed (now.2.await due)).2 }) := by
      simp only [next, Stage.attemptAt, halone]
      rfl
    rw [hnext] at ih ⊢
    have hadvanced : Draws before i total now.1 now.2 := h.advance _ _
    exact ih hs ((hadvanced.await due).attempt hnow (Nat.le_max_right _ _))

end Draws

/-- Everything taken from the stream is accounted for once a session is over. So it is in every run,
whatever else is published, fails or is closed meanwhile, and whenever the session is told to shut
down. A session that drains its stream alone comes to an end, and what it took is missing there. -/
theorem run_conserves (p : Policy) (topics : Topics) (i : Nat) (site : Site) :
    (∀ es : List Run.Event,
      let r := (Run.start i site).afterAll p topics es
      r.session.phase = .finished → Conserved site r.site r.session.summary r.taken) ∧
    ∀ signalAt : Nat,
      let run := (⟨site, []⟩ : Stage).drain p signalAt (.start i)
      run.1.phase = .finished ∧ ∃ taken, Conserved site run.2.site run.1.summary taken ∧
        site.broker.waiting i = run.2.site.broker.waiting i + taken := by
  have hstart : Balanced site (.start i) site 0 := .start i site
  constructor
  · intro es r hfinished
    exact (Run.balanced_afterAll (r := .start i site) hstart es).conserved hfinished
  · intro signalAt run
    have hdraws : Draws site i (site.broker.waiting i) (.start i) site := ⟨rfl, 0, hstart, rfl⟩
    obtain ⟨⟨-, taken, hbalanced, htotal⟩, hfinished⟩ :=
      hdraws.drain (p := p) signalAt (s := ⟨site, []⟩) rfl
    exact ⟨hfinished, taken, hbalanced.conserved hfinished, htotal.symm⟩

/-- A delivery that is reconciled, one that is rejected, one that is no shipment and an error, and
then the signal. -/
theorem run_conserves_each_outcome :
    let site := Site.fresh .empty (.keeping [])
    let r := (Run.start 0 site).afterAll .standard .standard
      [.meanwhile (.watch ["T"]),
        .meanwhile (.publish "T" "K" (Shipment.sample "S1" .sent).write),
        .step false false,
        .meanwhile (.publish "T" "K" (Shipment.sample "S1" .planned).write),
        .meanwhile (.publish "T" "K" []),
        .meanwhile (.transportError (.transport "lost")),
        .step false false, .step true false, .step false false, .step true true]
    r.session.phase = .finished ∧ r.session.summary = ⟨1, 1, 1, 1, true, false⟩ ∧
      Conserved site r.site r.session.summary r.taken := by
  intro site r
  have hover : r.session.alive = 0 := by decide +kernel
  have hfinished : r.session.phase = .finished :=
    Classical.byContradiction fun hgoes => by simp [alive_of_ne hgoes] at hover
  exact ⟨hfinished, by decide +kernel, (run_conserves .standard .standard 0 site).1 _ hfinished⟩

end Session
end Consignment
