import Consignment.Worker

/-! A site with workers on it. Time passes only in waits, and whoever waits lets the workers go on;
what happens at the very end of the wait comes before what the workers do then. -/
namespace Consignment

/-- The worker that came last stands last. -/
structure Stage where
  site : Site
  workers : List Worker

namespace Stage

def onSite (f : Site → Site) (s : Stage) : Stage := { s with site := f s.site }

def turns : List Worker → Site → List Worker × Site
  | [], site => ([], site)
  | w :: ws, site =>
    let now := w.advance true site
    let rest := turns ws now.2
    (now.1 :: rest.1, rest.2)

def turn (s : Stage) : Stage :=
  let now := turns s.workers s.site
  ⟨now.2, now.1⟩

def due? (s : Stage) : Option Nat := (s.workers.filterMap Worker.due?).min?

/-- A wait for a time that has come is none, and the workers get no turn. -/
def sleepUntil (t : Nat) (s : Stage) : Stage :=
  if t ≤ s.site.clock then s
  else match s.turn.due? with
    | none => s.turn.onSite (·.await t)
    | some due =>
      if s.site.clock < due ∧ due < t then sleepUntil t (s.turn.onSite (·.await due))
      else s.turn.onSite (·.await t)
termination_by t - s.site.clock
decreasing_by simp only [onSite, Site.await]; omega

def sleep (d : Span) (s : Stage) : Stage := s.sleepUntil (s.site.clock + d.ticks)

def failures (s : Stage) : Nat := s.site.store.failures.length

theorem turns_failures_le (ws : List Worker) (site : Site) :
    (turns ws site).2.store.failures.length ≤ site.store.failures.length := by
  induction ws generalizing site with
  | nil => exact Nat.le_refl _
  | cons w ws ih => exact Nat.le_trans (ih _) (Worker.advance_failures_le _ _ _)

theorem sleepUntil_failures_le (t : Nat) (s : Stage) : (s.sleepUntil t).failures ≤ s.failures := by
  fun_induction sleepUntil t s with
  | case1 => exact Nat.le_refl _
  | case2 => exact turns_failures_le _ _
  | case3 s _ due _ _ ih => exact Nat.le_trans ih (turns_failures_le _ _)
  | case4 => exact turns_failures_le _ _

def attemptAt (due : Nat) (p : Policy) (d : Delivery) (failed : Nat) (x : Session) (s : Stage) :
    Session × Stage :=
  let s := s.sleepUntil due
  let next := x.attempt p d failed s.site
  (next.1, { s with site := next.2 })

theorem failures_lt_of_attemptAt {due : Nat} {p : Policy} {d : Delivery} {failed : Nat}
    {x : Session} {s : Stage} (h : (s.attemptAt due p d failed x).1.isRetrying) :
    (s.attemptAt due p d failed x).2.failures < s.failures :=
  Nat.lt_of_lt_of_le (Session.failures_lt_of_attempt h) (sleepUntil_failures_le due s)

theorem attemptAt_failures_le (due : Nat) (p : Policy) (d : Delivery) (failed : Nat) (x : Session)
    (s : Stage) : (s.attemptAt due p d failed x).2.failures ≤ s.failures :=
  Nat.le_trans (Session.attempt_progress p d failed x _).2.2.2.1 (sleepUntil_failures_le due s)

/-- Whoever waits to retry uses up an error on the way there or on the way on. -/
theorem retry_progress {n n₁ n₂ : Nat} {before after : Bool} (h₁ : n₁ ≤ n) (h₁' : !before → n₁ < n)
    (h₂ : n₂ ≤ n₁) (h₂' : after → n₂ < n₁) :
    n₂ < n ∨ n₂ = n ∧ after.toNat < before.toNat := by
  cases before <;> cases after <;> simp_all <;> omega

/-- A session to its end, which the signal brings at `signalAt` if nothing else does. One that waits
for items waits for the signal, since nobody else is there to publish any. -/
def drain (p : Policy) (signalAt : Nat) (x : Session) (s : Stage) : Session × Stage :=
  let now := x.advance p (signalAt ≤ s.site.clock) true s.site
  match _h : now.1.phase with
  | .finished => (now.1, { s with site := now.2 })
  | .listening => (now.1.shutDown, sleepUntil signalAt { s with site := now.2 })
  | .retrying d failed due =>
    let next := attemptAt due p d failed now.1 { s with site := now.2 }
    drain p signalAt next.1 next.2
termination_by (s.failures, x.isRetrying.toNat)
decreasing_by
  rw [Prod.lex_def]
  exact retry_progress (Session.advance_failures_le ..)
    (Session.failures_lt_of_advance (Session.isRetrying_of _h)) (attemptAt_failures_le ..)
    failures_lt_of_attemptAt

def outlast (w : Worker) (s : Stage) : Stage :=
  let now := w.advance true s.site
  match _h : now.1.nextAttempt? with
  | none => { s with site := now.2 }
  | some (x, d, failed, due) =>
    let next := attemptAt due w.storeRetry d failed x { s with site := now.2 }
    outlast { now.1 with phase := .consuming next.1 } next.2
termination_by (s.failures, w.isRetrying.toNat)
decreasing_by
  rw [Prod.lex_def]
  exact retry_progress (Worker.advance_failures_le ..)
    (Worker.failures_lt_of_advance (Worker.isRetrying_of _h)) (attemptAt_failures_le ..)
    failures_lt_of_attemptAt

def dismiss (s : Stage) : Stage :=
  match s.workers.getLast? with
  | none => s
  | some w => outlast w.signal { s with workers := s.workers.dropLast }

/-- A delivery on its own, with all the attempts that the policy allows while the store is down. Who
handed it out is not told. -/
def handle (p : Policy) (d : Delivery) (s : Stage) :
    Except ConsumeError Reconciliation × Stage :=
  let attempt (s : Stage) :=
    let (result, site) := s.site.consume d.payload
    (result, { s with site })
  let (answer, s) := p.run ConsumeError.isTransient attempt sleep s
  let outcome := answer.mapError GaveUp.error
  (outcome, s.onSite (·.conclude d outcome))

end Stage
end Consignment
