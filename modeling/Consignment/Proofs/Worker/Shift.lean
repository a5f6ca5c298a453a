import Consignment.Proofs.Retry
import Consignment.Proofs.Stage.Stride

/-! A worker at its site, with whatever else may happen there between its steps, and a diary of what
it does: when it asks for a subscription, when it is done with one, and which deliveries it
handles. -/
namespace Consignment

structure Subscription.IsOver (s : Subscription) : Prop where
  empty : s.queue = []
  dead : s.live = false

namespace Broker

def Dropped (i : Nat) (b : Broker) : Prop :=
  ∃ sub, b.subscriptions[i]? = some sub ∧ sub.IsOver

def Keeps (b c : Broker) : Prop := ∀ (i : Nat) (sub : Subscription),
  b.subscriptions[i]? = some sub →
  ∃ sub' : Subscription, c.subscriptions[i]? = some sub' ∧ (sub.IsOver → sub'.IsOver)

namespace Keeps
variable {b c : Broker}

theorem of_eq (h : c.subscriptions = b.subscriptions) : b.Keeps c :=
  fun _ sub hsub => ⟨sub, h ▸ hsub, id⟩

theorem dropped (h : b.Keeps c) {i : Nat} (hi : b.Dropped i) : c.Dropped i := by
  obtain ⟨sub, hsub, hover⟩ := hi
  obtain ⟨sub', hsub', hkept⟩ := h i sub hsub
  exact ⟨sub', hsub', hkept hover⟩

theorem subscribe {topics : List String} (h : (b.subscribe topics).2 = c) : b.Keeps c := by
  subst h
  intro i sub hsub
  obtain ⟨hi, -⟩ := List.getElem?_eq_some_iff.1 hsub
  refine ⟨sub, ?_, id⟩
  unfold Broker.subscribe
  split
  · exact hsub
  · simpa [List.getElem?_append_left hi] using hsub

theorem receive {i : Nat} {r : Received} (h : b.receive i = (r, c)) : b.Keeps c := by
  intro j sub hsub
  by_cases hj : i = j
  · subst hj
    obtain ⟨hi, -⟩ := List.getElem?_eq_some_iff.1 hsub
    simp only [Broker.receive, hsub] at h
    obtain ⟨-, rfl⟩ := Prod.mk.inj h
    refine ⟨sub.receive.2, by simp [hi], fun hover => ?_⟩
    simpa only [Subscription.receive, hover.empty] using hover
  · refine ⟨sub, ?_, id⟩
    unfold Broker.receive at h
    split at h
    · obtain ⟨-, rfl⟩ := Prod.mk.inj h
      exact hsub
    · obtain ⟨-, rfl⟩ := Prod.mk.inj h
      simpa [List.getElem?_set_ne hj] using hsub

theorem drop (i : Nat) (b : Broker) : b.Keeps (b.drop i) := by
  intro j sub hsub
  by_cases hj : i = j
  · exact ⟨sub.drop, by simp [Broker.drop, hj, hsub], fun _ => ⟨rfl, rfl⟩⟩
  · exact ⟨sub, by simpa [Broker.drop, hj] using hsub, id⟩

end Keeps

theorem dropped_drop {b : Broker} {i : Nat} (h : ∃ sub, b.subscriptions[i]? = some sub) :
    (b.drop i).Dropped i := by
  obtain ⟨sub, hsub⟩ := h
  refine ⟨sub.drop, by simp [Broker.drop, hsub], rfl, rfl⟩

theorem found_of_subscribe {b c : Broker} {topics : List String} {i : Nat}
    (h : b.subscribe topics = (.ok i, c)) : ∃ sub, c.subscriptions[i]? = some sub := by
  unfold Broker.subscribe at h
  split at h
  · cases h
  · obtain ⟨hi, rfl⟩ := Prod.mk.inj h
    obtain rfl := Except.ok.inj hi
    exact ⟨_, List.getElem?_concat_length⟩

end Broker

/-- Whatever may become of a site but for the worker: time does not go back, and streams stay
over. -/
structure Site.Change where
  apply : Site → Site
  clock_le : ∀ site : Site, site.clock ≤ (apply site).clock
  keeps : ∀ site : Site, site.broker.Keeps (apply site).broker

def Site.Change.await (t : Nat) : Site.Change :=
  ⟨fun site => site.await t, fun _ => Nat.le_max_left _ _, fun _ => .of_eq rfl⟩

/-- The end of the handling of a delivery: the outcome of the last attempt, how many had failed
before it, and the broker before and after. -/
structure Closing where
  delivery : Delivery
  failed : Nat
  outcome : Except ConsumeError Reconciliation
  before : Broker
  after : Broker

/-- The delivery is acknowledged, or the store was down to the last attempt and the broker is left
as it was. -/
inductive Closing.Proper (p : Policy) : Closing → Prop
  | acknowledged {d : Delivery} {failed : Nat} {outcome : Except ConsumeError Reconciliation}
    {before : Broker} (houtcome : ConsumeError.unsettled outcome = false) :
    Proper p ⟨d, failed, outcome, before, before.acknowledge d.topic d.offset⟩
  | kept {d : Delivery} {failed : Nat} {e : ConsumeError} {before : Broker}
    (he : e.isTransient = true) (hlast : failed + 1 = p.attempts) :
    Proper p ⟨d, failed, .error e, before, before⟩

inductive Note
  | opened (time subscription : Nat)
  | refused (time : Nat)
  | left (time subscription : Nat)
  | began (d : Delivery)
  | closed (c : Closing)

namespace Note

def call? : Note → Option Nat
  | .opened time _ => some time
  | .refused time => some time
  | .left _ _ => none
  | .began _ => none
  | .closed _ => none

def end? : Note → Option Nat
  | .opened _ _ => none
  | .refused time => some time
  | .left time _ => some time
  | .began _ => none
  | .closed _ => none

def opened? : Note → Option Nat
  | .opened _ i => some i
  | .refused _ => none
  | .left _ _ => none
  | .began _ => none
  | .closed _ => none

def began? : Note → Option Delivery
  | .opened _ _ => none
  | .refused _ => none
  | .left _ _ => none
  | .began d => some d
  | .closed _ => none

def closed? : Note → Option Closing
  | .opened _ _ => none
  | .refused _ => none
  | .left _ _ => none
  | .began _ => none
  | .closed c => some c

/-- So many nanoseconds lie between the end and the call. Times are in milliseconds. -/
def Spaced (nanos : Nat) (a b : Note) : Prop :=
  ∀ t ∈ a.end?, ∀ u ∈ b.call?, t * 1000000 + nanos ≤ u * 1000000

end Note

namespace Session

def closing? (p : Policy) (d : Delivery) (failed : Nat) (x : Session) (site : Site) :
    Option Closing :=
  let outcome := (site.store.consume d.payload).1
  match p.next ConsumeError.isTransient failed outcome with
  | .again _ => none
  | .stop _ => some ⟨d, failed, outcome, site.broker, (x.attempt p d failed site).2.broker⟩

def notes (p : Policy) (signalled signalFirst : Bool) (x : Session) (site : Site) : List Note :=
  match x.phase with
  | .finished => []
  | .retrying d failed due =>
    if due ≤ site.clock then (x.closing? p d failed site).toList.map .closed else []
  | .listening =>
    if signalled && signalFirst then []
    else match site.broker.receive x.subscription with
      | (.item (.ok d), broker) =>
        .began d :: (x.closing? p d 0 { site with broker }).toList.map .closed
      | _ => []

end Session

namespace Worker

def notes (signalFirst : Bool) (w : Worker) (site : Site) : List Note :=
  match w.phase with
  | .stopped => []
  | .waiting _ => []
  | .subscribing =>
    if w.signalled && signalFirst then []
    else match (site.broker.subscribe w.topics).1 with
      | .ok i => [.opened site.clock i]
      | .error _ => [.refused site.clock]
  | .consuming x =>
    match x.phase with
    | .finished => [.left site.clock x.subscription]
    | _ => x.notes w.storeRetry w.signalled signalFirst site

def inHand (w : Worker) : List Delivery :=
  match w.phase with
  | .consuming x => x.inHand
  | .subscribing => []
  | .waiting _ => []
  | .stopped => []

end Worker

structure Shift where
  worker : Worker
  site : Site

namespace Shift

/-- In `work`, `signalFirst` says who wins if a signal and something else are both there. -/
inductive Turn
  | meanwhile (change : Site.Change)
  | signal
  | work (signalFirst : Bool)

def after (s : Shift) : Turn → Shift
  | .meanwhile change => { s with site := change.apply s.site }
  | .signal => { s with worker := s.worker.signal }
  | .work signalFirst =>
    match s.worker.step? signalFirst s.site with
    | none => s
    | some (worker, site) => ⟨worker, site⟩

def afterAll (s : Shift) (ts : List Turn) : Shift := ts.foldl after s

def notes (s : Shift) : Turn → List Note
  | .meanwhile _ => []
  | .signal => []
  | .work signalFirst => s.worker.notes signalFirst s.site

def diary : Shift → List Turn → List Note
  | _, [] => []
  | s, t :: ts => s.notes t ++ diary (s.after t) ts

def isDue (s : Shift) : Bool :=
  match s.worker.nextAttempt? with
  | none => false
  | some (_, _, _, due) => due ≤ s.site.clock

/-- How often the worker had its turn when the next attempt was due. -/
def tries : Shift → List Turn → Nat
  | _, [] => 0
  | s, .work signalFirst :: ts =>
    (if s.isDue then 1 else 0) + tries (s.after (.work signalFirst)) ts
  | s, t :: ts => tries (s.after t) ts

@[simp] theorem afterAll_nil (s : Shift) : s.afterAll [] = s := rfl

@[simp] theorem afterAll_cons (s : Shift) (t : Turn) (ts : List Turn) :
    s.afterAll (t :: ts) = (s.after t).afterAll ts := rfl

theorem after_idle {s : Shift} {signalFirst : Bool}
    (h : s.worker.step? signalFirst s.site = none) : s.after (.work signalFirst) = s := by
  simp only [after, h]

theorem after_step {s : Shift} {signalFirst : Bool} {w : Worker} {site : Site}
    (h : s.worker.step? signalFirst s.site = some (w, site)) :
    s.after (.work signalFirst) = ⟨w, site⟩ := by
  simp only [after, h]

end Shift

/-! ## Single steps -/

namespace Session

def Bounded (p : Policy) (x : Session) : Prop :=
  ∀ d failed due, x.phase = .retrying d failed due → failed < p.attempts

inductive Attempted (p : Policy) (d : Delivery) (failed : Nat) (x : Session) (site : Site) :
    Option Closing → Session → Site → Prop
  | again {due : Nat} {store : Store} (hfailed : failed + 1 < p.attempts) :
    Attempted p d failed x site none { x with phase := .retrying d (failed + 1) due }
      { site with store }
  | closes {c : Closing} {x' : Session} {site' : Site} (hdelivery : c.delivery = d)
    (hproper : failed < p.attempts → c.Proper p) (hsub : x'.subscription = x.subscription)
    (hhand : x'.inHand = []) (hclock : site'.clock = site.clock)
    (hsubs : site'.broker.subscriptions = site.broker.subscriptions) :
    Attempted p d failed x site (some c) x' site'

theorem attempted (p : Policy) (d : Delivery) (failed : Nat) (x : Session) (site : Site) :
    Attempted p d failed x site (x.closing? p d failed site)
      (x.attempt p d failed site).1 (x.attempt p d failed site).2 := by
  cases hn : p.next ConsumeError.isTransient failed (site.store.consume d.payload).1 with
  | again wait =>
    have hlt := Policy.lt_attempts_of_next hn
    simp only [closing?, attempt, Site.consume, hn]
    exact .again hlt
  | stop answer =>
    have hclosing : x.closing? p d failed site = some ⟨d, failed,
        (site.store.consume d.payload).1, site.broker, (x.attempt p d failed site).2.broker⟩ := by
      simp only [closing?, hn]
    have hattempt : x.attempt p d failed site = x.settle d (site.store.consume d.payload).1
        { site with store := (site.store.consume d.payload).2 } := by
      simp only [attempt, Site.consume, hn]
    cases hu : ConsumeError.unsettled (site.store.consume d.payload).1 with
    | false =>
      rw [settle_of_settled hu] at hattempt
      rw [hclosing, hattempt]
      refine .closes rfl (fun _ => ?_) rfl rfl ?_ ?_
      · simpa [Site.acknowledge] using Closing.Proper.acknowledged hu
      · simp [Site.acknowledge]
      · simp [Site.acknowledge, Broker.acknowledge]
    | true =>
      obtain ⟨e, he, hlast⟩ : ∃ e, (site.store.consume d.payload).1 = .error e ∧
          p.attempts ≤ failed + 1 := by
        rcases Policy.next_stop_cases hn with ⟨a, hok, -⟩ | ⟨e, he, hfinal, -⟩ |
          ⟨e, he, -, hlast, -⟩
        · rw [hok] at hu
          cases hu
        · rw [he] at hu
          exact absurd hu (by simp [ConsumeError.unsettled, hfinal])
        · exact ⟨e, he, hlast⟩
      rw [settle_of_unsettled hu, he] at hattempt
      rw [he] at hu hclosing
      rw [hclosing, hattempt]
      refine .closes rfl (fun hfailed => ?_) rfl rfl ?_ ?_
      · have hlast' : failed + 1 = p.attempts := by omega
        simpa using Closing.Proper.kept hu hlast'
      · simp
      · simp

structure Entered (p : Policy) (x : Session) (site : Site) (ns : List Note) (x' : Session)
    (site' : Site) : Prop where
  subscription : x'.subscription = x.subscription
  clock : site'.clock = site.clock
  keeps : site.broker.Keeps site'.broker
  inner : ∀ n ∈ ns, n.call? = none ∧ n.end? = none ∧ n.opened? = none
  hand : x.inHand ++ ns.filterMap Note.began? =
    (ns.filterMap Note.closed?).map Closing.delivery ++ x'.inHand
  bounded : x.Bounded p → x'.Bounded p ∧ ∀ c ∈ ns.filterMap Note.closed?, c.Proper p

theorem Attempted.entered {p : Policy} {d : Delivery} {failed : Nat} {x x' : Session}
    {site site₀ site' : Site} {closing : Option Closing}
    (h : Attempted p d failed x site closing x' site') (hclock : site.clock = site₀.clock)
    (hkeeps : site₀.broker.Keeps site.broker) {begun : List Note}
    (hbegun : begun = [] ∧ x.inHand = [d] ∨ begun = [.began d] ∧ x.inHand = [])
    (hfailed : x.Bounded p → failed < p.attempts) :
    Entered p x site₀ (begun ++ closing.toList.map .closed) x' site' := by
  cases h with
  | again hagain =>
    refine ⟨rfl, hclock, hkeeps, ?_, ?_, fun _ => ⟨?_, ?_⟩⟩
    · rcases hbegun with ⟨rfl, -⟩ | ⟨rfl, -⟩
      · simp
      · simp [Note.call?, Note.end?, Note.opened?]
    · rcases hbegun with ⟨rfl, hhand⟩ | ⟨rfl, hhand⟩ <;> rw [hhand] <;> rfl
    · rintro _ _ _ ⟨⟩
      exact hagain
    · rcases hbegun with ⟨rfl, -⟩ | ⟨rfl, -⟩
      · simp
      · simp [List.filterMap_cons, Note.closed?]
  | @closes c _ _ hdelivery hproper hsub hhand' hclock' hsubs =>
    have hkeeps' : site₀.broker.Keeps site'.broker := by
      intro i sub hsub
      rw [hsubs]
      exact hkeeps i sub hsub
    refine ⟨hsub, hclock'.trans hclock, hkeeps', ?_, ?_, fun hx => ⟨?_, ?_⟩⟩
    · rcases hbegun with ⟨rfl, -⟩ | ⟨rfl, -⟩ <;> simp [Note.call?, Note.end?, Note.opened?]
    · rcases hbegun with ⟨rfl, hhand⟩ | ⟨rfl, hhand⟩ <;>
        simp [List.filterMap_cons, Note.began?, Note.closed?, hhand, hhand', hdelivery]
    · intro e failed due hx'
      simp [inHand, hx'] at hhand'
    · have hc := hproper (hfailed hx)
      rcases hbegun with ⟨rfl, -⟩ | ⟨rfl, -⟩ <;>
        simpa [List.filterMap_cons, Note.closed?] using hc

theorem notes_of_quiet {p : Policy} {signalled signalFirst : Bool} {x : Session} {site : Site}
    (hx : x.phase = .listening) (h : (signalled && signalFirst) = true ∨
      (site.broker.receive x.subscription).1 = .ended ∨
      (site.broker.receive x.subscription).1 = .pending) :
    x.notes p signalled signalFirst site = [] := by
  rcases hr : site.broker.receive x.subscription with ⟨r, b⟩
  rw [hr] at h
  simp only [notes, hx, hr]
  split
  · rfl
  · next hs =>
    rcases h with hs' | rfl | rfl
    · exact absurd hs' hs
    · rfl
    · rfl

theorem entered {p : Policy} {signalled signalFirst : Bool} {x x' : Session} {site site' : Site}
    (h : x.step? p signalled signalFirst site = some (x', site')) :
    Entered p x site (x.notes p signalled signalFirst site) x' site' := by
  cases move_of_step? h with
  | @retries d failed due hx hdue =>
    have hnotes : x.notes p signalled signalFirst site =
        [] ++ (x.closing? p d failed site).toList.map .closed := by
      simp only [notes, hx, if_pos hdue, List.nil_append]
    rw [hnotes]
    exact (attempted p d failed x site).entered rfl (.of_eq rfl)
      (.inl ⟨rfl, by simp only [inHand, hx]⟩) (fun hbounded => hbounded d failed due hx)
  | @takes d b hx hs hr =>
    have hnotes : x.notes p signalled signalFirst site =
        [.began d] ++ (x.closing? p d 0 { site with broker := b }).toList.map .closed := by
      simp [notes, hx, hs, hr]
    have hkeeps : site.broker.Keeps b := .receive hr
    have htaken := attempted p d 0 x ({ site with broker := b } : Site)
    have hclock : ({ site with broker := b } : Site).clock = site.clock := rfl
    rw [hnotes]
    exact htaken.entered hclock hkeeps (.inr ⟨rfl, by simp only [inHand, hx]⟩)
      (fun _ => p.attempts_pos)
  | @misses e b hx hs hr =>
    have hnotes : x.notes p signalled signalFirst site = [] := by
      simp [notes, hx, hs, hr]
    have hkeeps : site.broker.Keeps b := .receive hr
    rw [hnotes]
    exact ⟨rfl, rfl, hkeeps, by simp, by simp [inHand, countError], fun hx => ⟨hx, by simp⟩⟩
  | ends hx hr =>
    rw [notes_of_quiet hx (.inr (.inl hr))]
    refine ⟨rfl, rfl, .of_eq rfl, by simp, by simp [inHand, finish, hx], fun _ => ⟨?_, by simp⟩⟩
    rintro _ _ _ ⟨⟩
  | stops hx hs hr =>
    rw [notes_of_quiet hx (hr.imp (by simp [hs, ·]) .inr)]
    refine ⟨rfl, rfl, .of_eq rfl, by simp, by simp [inHand, shutDown, hx], fun _ => ⟨?_, by simp⟩⟩
    rintro _ _ _ ⟨⟩

theorem notes_of_idle {p : Policy} {signalled signalFirst : Bool} {x : Session} {site : Site}
    (h : x.step? p signalled signalFirst site = none) :
    x.notes p signalled signalFirst site = [] := by
  cases hx : x.phase with
  | finished => simp only [notes, hx]
  | retrying d failed due =>
    have hdue : ¬ due ≤ site.clock := by
      intro hdue
      simp [step?, hx, hdue] at h
    simp only [notes, hx, if_neg hdue]
  | listening =>
    refine notes_of_quiet hx (.inr (.inr ?_))
    simp only [step?, hx] at h
    rcases hr : site.broker.receive x.subscription with ⟨r, b⟩
    cases r with
    | pending => rfl
    | ended =>
      simp only [hr] at h
      split at h <;> cases h
    | item i =>
      cases i <;> simp only [hr] at h <;> split at h <;> cases h

end Session

namespace Worker

inductive Noted (w : Worker) (site : Site) : List Note → Worker → Site → Prop
  | stops (hw : ∀ x, w.phase ≠ .consuming x) (hs : w.signalled = true) :
    Noted w site [] w.stop site
  | wakes {due : Nat} (hw : w.phase = .waiting due) (hdue : due ≤ site.clock) :
    Noted w site [] { w with phase := .subscribing } site
  | opens {i : Nat} {b : Broker} (hw : w.phase = .subscribing)
    (hb : site.broker.subscribe w.topics = (.ok i, b)) :
    Noted w site [.opened site.clock i] { w with phase := .consuming (.start i) }
      { site with broker := b }
  | fails {e : ChannelError} {b : Broker} (hw : w.phase = .subscribing)
    (hb : site.broker.subscribe w.topics = (.error e, b)) :
    Noted w site [.refused site.clock] (w.wait site) { site with broker := b }
  | leaves {x : Session} (hw : w.phase = .consuming x) (hx : x.phase = .finished) :
    Noted w site [.left site.clock x.subscription] (w.leave x site).1
      (w.leave x site).2
  | consumes {x x' : Session} {ns : List Note} {site' : Site} (hw : w.phase = .consuming x)
    (hx : x.Entered w.storeRetry site ns x' site') :
    Noted w site ns { w with phase := .consuming x' } site'

theorem notes_of_consuming {w : Worker} {x : Session} (hw : w.phase = .consuming x)
    (hx : x.phase ≠ .finished) (signalFirst : Bool) (site : Site) :
    w.notes signalFirst site = x.notes w.storeRetry w.signalled signalFirst site := by
  simp only [notes, hw]

theorem noted {signalFirst : Bool} {w w' : Worker} {site site' : Site}
    (h : w.step? signalFirst site = some (w', site')) :
    w.Noted site (w.notes signalFirst site) w' site' := by
  cases hp : w.phase with
  | stopped => simp [step?, hp] at h
  | waiting due =>
    have hrests : ∀ x, w.phase ≠ .consuming x := by simp [hp]
    have hnotes : w.notes signalFirst site = [] := by simp only [notes, hp]
    rw [hnotes]
    simp only [step?, hp] at h
    split at h
    · next hdue =>
      split at h
      · next hhurried =>
        obtain ⟨rfl, rfl⟩ := Prod.ext_iff.1 (Option.some.inj h)
        exact .stops hrests (Bool.and_eq_true_iff.1 hhurried).1
      · obtain ⟨rfl, rfl⟩ := Prod.ext_iff.1 (Option.some.inj h)
        exact .wakes hp hdue
    split at h
    · next hsignalled =>
      obtain ⟨rfl, rfl⟩ := Prod.ext_iff.1 (Option.some.inj h)
      exact .stops hrests hsignalled
    · cases h
  | subscribing =>
    have hrests : ∀ x, w.phase ≠ .consuming x := by simp [hp]
    simp only [step?, hp] at h
    simp only [notes, hp]
    cases hhurried : w.signalled && signalFirst with
    | true =>
      simp only [hhurried] at h
      obtain ⟨rfl, rfl⟩ := Prod.ext_iff.1 (Option.some.inj h)
      exact .stops hrests (Bool.and_eq_true_iff.1 hhurried).1
    | false =>
      simp only [hhurried] at h
      rcases hb : site.broker.subscribe w.topics with ⟨answer, b⟩
      rw [hb] at h
      cases answer with
      | ok i =>
        obtain ⟨rfl, rfl⟩ := Prod.ext_iff.1 (Option.some.inj h)
        exact .opens hp hb
      | error e =>
        obtain ⟨rfl, rfl⟩ := Prod.ext_iff.1 (Option.some.inj h)
        exact .fails hp hb
  | consuming x =>
    simp only [step?, hp] at h
    split at h
    · next hx =>
      obtain ⟨rfl, rfl⟩ := Prod.ext_iff.1 (Option.some.inj h)
      simp only [notes, hp, hx]
      exact .leaves hp hx
    · next hx =>
      rw [notes_of_consuming hp hx]
      split at h
      · next hstep =>
        obtain ⟨rfl, rfl⟩ := Prod.ext_iff.1 (Option.some.inj h)
        exact .consumes hp (Session.entered hstep)
      · cases h

theorem notes_of_idle {signalFirst : Bool} {w : Worker} {site : Site}
    (h : w.step? signalFirst site = none) : w.notes signalFirst site = [] := by
  cases hp : w.phase with
  | stopped => simp only [notes, hp]
  | waiting due => simp only [notes, hp]
  | subscribing =>
    simp only [step?, hp] at h
    split at h
    · cases h
    · split at h <;> cases h
  | consuming x =>
    simp only [step?, hp] at h
    split at h
    · cases h
    · next hx =>
      rw [notes_of_consuming hp hx]
      split at h
      · cases h
      · next hidle => exact Session.notes_of_idle hidle

end Worker
namespace Shift

theorem diary_induction {P : List Note → Worker → Site → Prop}
    (meanwhile : ∀ ns w site (change : Site.Change), P ns w site → P ns w (change.apply site))
    (signal : ∀ ns w site, P ns w site → P ns w.signal site)
    (work : ∀ ns w site new w' site', P ns w site → w.Noted site new w' site' →
      P (ns ++ new) w' site')
    {s : Shift} (start : P [] s.worker s.site) (ts : List Turn) :
    P (s.diary ts) (s.afterAll ts).worker (s.afterAll ts).site := by
  suffices hall : ∀ ns (s : Shift), P ns s.worker s.site →
      P (ns ++ s.diary ts) (s.afterAll ts).worker (s.afterAll ts).site from hall [] s start
  clear start s
  induction ts with
  | nil =>
    intro ns s h
    rwa [diary, List.append_nil]
  | cons t ts ih =>
    intro ns s h
    rw [diary, ← List.append_assoc, afterAll_cons]
    apply ih
    cases t with
    | meanwhile change => simpa [notes, after] using meanwhile _ _ _ change h
    | signal => simpa [notes, after] using signal _ _ _ h
    | work signalFirst =>
      cases hstep : s.worker.step? signalFirst s.site with
      | none => simpa [notes, after_idle hstep, Worker.notes_of_idle hstep] using h
      | some next =>
        simpa [notes, after_step hstep] using work _ _ _ _ _ _ h (Worker.noted hstep)

end Shift
end Consignment
