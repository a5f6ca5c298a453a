import Consignment.Consumer.Run

/-! A worker keeps a subscription open: it subscribes, drains what comes, and after a wait
subscribes again. Only the signal to shut down ends it. -/
namespace Consignment

inductive Worker.Phase
  | subscribing
  | consuming (s : Session)
  | waiting (due : Nat)
  | stopped

structure Worker where
  topics : List String
  delay : Span
  storeRetry : Policy
  signalled : Bool
  phase : Worker.Phase

namespace Worker

def standardDelay : Span := .ofMillis 5000

def start (topics : Topics) (delay : Span) (storeRetry : Policy) : Worker :=
  ⟨topics.consumed, delay, storeRetry, false, .subscribing⟩

def signal (w : Worker) : Worker := { w with signalled := true }

def stop (w : Worker) : Worker := { w with phase := .stopped }

def wait (w : Worker) (site : Site) : Worker :=
  { w with phase := .waiting (site.clock + w.delay.ticks) }

/-- A session that is over is left behind together with its subscription. -/
def leave (s : Session) (w : Worker) (site : Site) : Worker × Site :=
  let site := { site with broker := site.broker.drop s.subscription }
  (if s.summary.shutdownRequested then w.stop else w.wait site, site)

/-- What the worker does now, or none while it has to wait. When the signal and something else are
both there, `signalFirst` decides. -/
def step? (signalFirst : Bool) (w : Worker) (site : Site) : Option (Worker × Site) :=
  let hurried := w.signalled && signalFirst
  match w.phase with
  | .stopped => none
  | .subscribing =>
    if hurried then some (w.stop, site)
    else match site.broker.subscribe w.topics with
      | (.ok i, broker) => some ({ w with phase := .consuming (.start i) }, { site with broker })
      | (.error _, broker) => some (w.wait site, { site with broker })
  | .consuming s =>
    match s.phase with
    | .finished => some (w.leave s site)
    | _ =>
      match s.step? w.storeRetry w.signalled signalFirst site with
      | some (s, site) => some ({ w with phase := .consuming s }, site)
      | none => none
  | .waiting due =>
    if due ≤ site.clock then
      some (if hurried then w.stop else { w with phase := .subscribing }, site)
    else if w.signalled then some (w.stop, site)
    else none

def due? (w : Worker) : Option Nat :=
  match w.phase with
  | .waiting due => some due
  | .consuming s => s.due?
  | .subscribing => none
  | .stopped => none

/-- How far a worker is from rest. A session on a subscription that ended leads back to a fresh one,
which ends at rest. -/
def rank (w : Worker) (site : Site) : Nat :=
  match w.phase with
  | .stopped => 0
  | .subscribing => 3
  | .waiting _ => 4
  | .consuming s =>
    match s.phase with
    | .finished => if s.summary.shutdownRequested then 1 else 5
    | _ => if site.broker.isLive s.subscription then 2 else 6

def pending (w : Worker) (site : Site) : Nat :=
  match w.phase with
  | .consuming s => s.pending site
  | _ => 0

def troubles (site : Site) : Nat :=
  site.store.failures.length + site.broker.subscribeFailures.length

theorem isLive_subscribe {b c : Broker} {topics : List String} {i : Nat}
    (h : b.subscribe topics = (.ok i, c)) :
    c.isLive i = true ∧ c.subscribeFailures = b.subscribeFailures := by
  unfold Broker.subscribe at h
  cases hf : b.subscribeFailures with
  | nil =>
    simp only [hf, Prod.mk.injEq, Except.ok.injEq] at h
    obtain ⟨rfl, rfl⟩ := h
    simp [Broker.isLive]
  | cons e es => simp [hf] at h

theorem subscribe_error {b c : Broker} {topics : List String} {e : ChannelError}
    (h : b.subscribe topics = (.error e, c)) :
    c.subscribeFailures.length < b.subscribeFailures.length := by
  unfold Broker.subscribe at h
  cases hf : b.subscribeFailures with
  | nil => simp [hf] at h
  | cons e es => simp only [hf, Prod.mk.injEq] at h; simp [← h.2]

theorem rank_of_live {w : Worker} {s : Session} {site : Site} (hw : w.phase = .consuming s)
    (hs : s.phase ≠ .finished) :
    w.rank site = if site.broker.isLive s.subscription then 2 else 6 := by
  unfold rank; rw [hw]; cases h : s.phase <;> simp_all

theorem rank_of_finished {w : Worker} {s : Session} {site : Site} (hw : w.phase = .consuming s)
    (hs : s.phase = .finished) : w.rank site = if s.summary.shutdownRequested then 1 else 5 := by
  simp [rank, hw, hs]

theorem step?_progress {signalFirst : Bool} {w w' : Worker} {site site' : Site}
    (h : w.step? signalFirst site = some (w', site')) :
    troubles site' < troubles site ∨
    troubles site' = troubles site ∧ (w'.rank site' < w.rank site ∨
      w'.rank site' = w.rank site ∧ w'.pending site' < w.pending site) := by
  unfold step? at h
  cases hw : w.phase with
  | stopped => simp [hw] at h
  | waiting due =>
    have hr : w.rank site = 4 := by simp [rank, hw]
    simp only [hw] at h
    split at h
    · obtain ⟨rfl, rfl⟩ := Prod.ext_iff.1 (Option.some.inj h)
      refine .inr ⟨rfl, .inl ?_⟩
      rw [hr]; split <;> simp [rank, stop]
    split at h
    · obtain ⟨rfl, rfl⟩ := Prod.ext_iff.1 (Option.some.inj h)
      exact .inr ⟨rfl, .inl (by rw [hr]; simp [rank, stop])⟩
    · simp at h
  | subscribing =>
    have hr : w.rank site = 3 := by simp [rank, hw]
    simp only [hw] at h
    split at h
    · obtain ⟨rfl, rfl⟩ := Prod.ext_iff.1 (Option.some.inj h)
      exact .inr ⟨rfl, .inl (by rw [hr]; simp [rank, stop])⟩
    split at h
    · next hb =>
      have hl := isLive_subscribe hb
      obtain ⟨rfl, rfl⟩ := Prod.ext_iff.1 (Option.some.inj h)
      refine .inr ⟨by simp [troubles, hl.2], .inl ?_⟩
      rw [hr]; simp [rank, Session.start, hl.1]
    · next hb =>
      have hl := subscribe_error hb
      obtain ⟨rfl, rfl⟩ := Prod.ext_iff.1 (Option.some.inj h)
      exact .inl (by simpa [troubles] using hl)
  | consuming s =>
    simp only [hw] at h
    split at h
    · next hs =>
      have hr := @rank_of_finished w s site hw hs
      obtain ⟨rfl, rfl⟩ := Prod.ext_iff.1 (Option.some.inj h)
      refine .inr ⟨rfl, .inl ?_⟩
      rw [hr]; unfold leave; split <;> simp [rank, stop, wait]
    · next hs =>
      split at h
      · next s' site₁ hstep =>
        have hp := Session.step?_progress hstep
        have hlive := hp.live
        have hsub := hp.subscription
        have hr := @rank_of_live w s site hw hs
        obtain ⟨rfl, rfl⟩ := Prod.ext_iff.1 (Option.some.inj h)
        rcases Nat.lt_or_eq_of_le hp.failures with hlt | heq
        · exact .inl (by simp only [troubles, hp.subscribeFailures]; omega)
        refine .inr ⟨by simp only [troubles, hp.subscribeFailures, heq], ?_⟩
        rcases hp.used with hlt | ⟨hgoes, hwhy⟩ | ⟨hgo, hlt⟩
        · omega
        · left
          rw [hr]
          cases hl : site.broker.isLive s.subscription <;>
            cases hd : s'.summary.shutdownRequested <;>
            simp_all [rank]
        · right
          refine ⟨?_, by simpa [pending, hw] using hlt⟩
          rw [hr, @rank_of_live { w with phase := .consuming s' } s' site₁ rfl hgo, hsub, hlive]
      · simp at h

def advance (signalFirst : Bool) (w : Worker) (site : Site) : Worker × Site :=
  match _h : w.step? signalFirst site with
  | none => (w, site)
  | some (w', site') => advance signalFirst w' site'
termination_by (troubles site, w.rank site, w.pending site)
decreasing_by
  simp only [Prod.lex_def]
  exact step?_progress _h

def isRetrying (w : Worker) : Bool :=
  match w.phase with
  | .consuming s => s.isRetrying
  | .stopped => false
  | .subscribing => false
  | .waiting _ => false

def nextAttempt? (w : Worker) : Option (Session × Delivery × Nat × Nat) :=
  match w.phase with
  | .consuming s =>
    match s.phase with
    | .retrying d failed due => some (s, d, failed, due)
    | .listening => none
    | .finished => none
  | .stopped => none
  | .subscribing => none
  | .waiting _ => none

theorem isRetrying_of {w : Worker} {r : Session × Delivery × Nat × Nat}
    (h : w.nextAttempt? = some r) :
    w.isRetrying := by
  unfold nextAttempt? at h
  unfold isRetrying
  split at h
  · split at h
    · next hs => simp [Session.isRetrying, hs]
    · simp at h
    · simp at h
  all_goals simp at h

theorem failures_le_of_step? {signalFirst : Bool} {w w' : Worker} {site site' : Site}
    (h : w.step? signalFirst site = some (w', site')) :
    site'.store.failures.length ≤ site.store.failures.length ∧
    (w'.isRetrying → site'.store.failures.length < site.store.failures.length) := by
  unfold step? at h
  cases hw : w.phase with
  | stopped => simp [hw] at h
  | waiting due =>
    simp only [hw] at h
    repeat' split at h
    all_goals first
      | (simp at h; done)
      | (obtain ⟨rfl, rfl⟩ := Prod.ext_iff.1 (Option.some.inj h)
         simp [isRetrying, stop])
  | subscribing =>
    simp only [hw] at h
    repeat' split at h
    all_goals
      obtain ⟨rfl, rfl⟩ := Prod.ext_iff.1 (Option.some.inj h)
      simp [isRetrying, stop, wait, Session.isRetrying, Session.start]
  | consuming s =>
    simp only [hw] at h
    split at h
    · obtain ⟨rfl, rfl⟩ := Prod.ext_iff.1 (Option.some.inj h)
      refine ⟨Nat.le_refl _, fun hr => ?_⟩
      unfold leave at hr
      split at hr <;> simp [isRetrying, stop, wait] at hr
    · split at h
      · next hstep =>
        obtain ⟨rfl, rfl⟩ := Prod.ext_iff.1 (Option.some.inj h)
        exact ⟨(Session.step?_progress hstep).failures, Session.failures_lt_of_step? hstep⟩
      · simp at h

theorem advance_failures_le (signalFirst : Bool) (w : Worker) (site : Site) :
    (w.advance signalFirst site).2.store.failures.length ≤ site.store.failures.length := by
  fun_induction advance signalFirst w site with
  | case1 => exact Nat.le_refl _
  | case2 w site w' site' h ih => exact Nat.le_trans ih (failures_le_of_step? h).1

theorem failures_lt_of_advance {signalFirst : Bool} {w : Worker} {site : Site}
    (h : (w.advance signalFirst site).1.isRetrying) (hw : !w.isRetrying) :
    (w.advance signalFirst site).2.store.failures.length < site.store.failures.length := by
  fun_induction advance signalFirst w site with
  | case1 => simp_all
  | case2 w site w' site' hstep ih =>
    have hle := failures_le_of_step? hstep
    cases hr : w'.isRetrying
    · exact Nat.lt_of_lt_of_le (ih h (by simp [hr])) hle.1
    · exact Nat.lt_of_le_of_lt (advance_failures_le _ _ _) (hle.2 hr)

end Worker
end Consignment
