import Consignment.Proofs.Stage.Event

/-! How sessions and workers go on. Every step is one of these moves, and what is proved of all
steps is proved move by move. What every step keeps is kept by every wait. -/
namespace Consignment

/-- In `stops` the signal is heard because it won the race, or because nothing else is there. -/
inductive Session.Move (p : Policy) (signalled signalFirst : Bool) (x : Session) (site : Site) :
    Session → Site → Prop
  | retries {d : Delivery} {failed due : Nat} (hx : x.phase = .retrying d failed due)
      (hdue : due ≤ site.clock) :
      Move p signalled signalFirst x site (x.attempt p d failed site).1
        (x.attempt p d failed site).2
  | takes {d : Delivery} {b : Broker} (hx : x.phase = .listening)
      (hs : (signalled && signalFirst) = false)
      (hr : site.broker.receive x.subscription = (.item (.ok d), b)) :
      Move p signalled signalFirst x site (x.attempt p d 0 { site with broker := b }).1
        (x.attempt p d 0 { site with broker := b }).2
  | misses {e : ChannelError} {b : Broker} (hx : x.phase = .listening)
      (hs : (signalled && signalFirst) = false)
      (hr : site.broker.receive x.subscription = (.item (.error e), b)) :
      Move p signalled signalFirst x site x.countError { site with broker := b }
  | ends (hx : x.phase = .listening) (hr : (site.broker.receive x.subscription).1 = .ended) :
      Move p signalled signalFirst x site x.finish site
  | stops (hx : x.phase = .listening) (hs : signalled = true)
      (hr : signalFirst = true ∨ (site.broker.receive x.subscription).1 = .pending) :
      Move p signalled signalFirst x site x.shutDown site

namespace Session

theorem move_of_step? {p : Policy} {signalled signalFirst : Bool} {x x' : Session}
    {site site' : Site} (h : x.step? p signalled signalFirst site = some (x', site')) :
    x.Move p signalled signalFirst site x' site' := by
  unfold step? at h
  cases hp : x.phase with
  | finished => simp [hp] at h
  | retrying d failed due =>
    simp only [hp] at h
    split at h
    · next hdue =>
      obtain ⟨rfl, rfl⟩ := Prod.ext_iff.1 (Option.some.inj h)
      exact .retries hp hdue
    · cases h
  | listening =>
    simp only [hp] at h
    cases hs : signalled && signalFirst with
    | true =>
      obtain ⟨hsignalled, hfirst⟩ : signalled = true ∧ signalFirst = true := by simpa using hs
      have hdown : some (x.shutDown, site) = some (x', site') := by
        rw [← h, hs, hsignalled]
        split <;> rfl
      obtain ⟨rfl, rfl⟩ := Prod.ext_iff.1 (Option.some.inj hdown)
      exact .stops hp hsignalled (.inl hfirst)
    | false =>
      simp only [hs] at h
      rcases hr : site.broker.receive x.subscription with ⟨r, b⟩
      cases r with
      | pending =>
        simp only [hr] at h
        split at h
        · next hsignalled =>
          obtain ⟨rfl, rfl⟩ := Prod.ext_iff.1 (Option.some.inj h)
          exact .stops hp hsignalled (.inr (by rw [hr]))
        · cases h
      | ended =>
        simp only [hr] at h
        obtain ⟨rfl, rfl⟩ := Prod.ext_iff.1 (Option.some.inj h)
        exact .ends hp (by rw [hr])
      | item i =>
        cases i with
        | error e =>
          simp only [hr] at h
          obtain ⟨rfl, rfl⟩ := Prod.ext_iff.1 (Option.some.inj h)
          exact .misses hp hs hr
        | ok d =>
          simp only [hr] at h
          obtain ⟨rfl, rfl⟩ := Prod.ext_iff.1 (Option.some.inj h)
          exact .takes hp hs hr

theorem handling?_of_finished {x : Session} (hx : x.phase = .finished)
    (signalled signalFirst : Bool) (site : Site) :
    x.handling? signalled signalFirst site = none := by
  simp [handling?, taken?, hx]

theorem handling?_of_idle {p : Policy} {signalled signalFirst : Bool} {x : Session} {site : Site}
    (h : x.step? p signalled signalFirst site = none) :
    x.handling? signalled signalFirst site = none := by
  unfold step? at h
  unfold handling? taken?
  cases hp : x.phase with
  | finished => rfl
  | retrying d failed due =>
    simp only [hp] at h
    by_cases hdue : due ≤ site.clock
    · simp [hdue] at h
    · simp [hdue]
  | listening =>
    simp only [hp] at h
    rcases hr : site.broker.receive x.subscription with ⟨r, c⟩
    cases r with
    | pending => simp [Received.delivery?]
    | ended =>
      simp only [hr] at h
      split at h <;> cases h
    | item i =>
      cases i <;> simp only [hr] at h <;> split at h <;> cases h

end Session

inductive Worker.Move (signalFirst : Bool) (w : Worker) (site : Site) : Worker → Site → Prop
  | stops (hw : ∀ x, w.phase ≠ .consuming x) (hs : w.signalled = true) :
      Move signalFirst w site w.stop site
  | wakes {due : Nat} (hw : w.phase = .waiting due) :
      Move signalFirst w site { w with phase := .subscribing } site
  | opens {i : Nat} {b : Broker} (hw : w.phase = .subscribing)
      (hb : site.broker.subscribe w.topics = (.ok i, b)) :
      Move signalFirst w site { w with phase := .consuming (.start i) } { site with broker := b }
  | fails {e : ChannelError} {b : Broker} (hw : w.phase = .subscribing)
      (hb : site.broker.subscribe w.topics = (.error e, b)) :
      Move signalFirst w site (w.wait site) { site with broker := b }
  | leaves {x : Session} (hw : w.phase = .consuming x) (hx : x.phase = .finished) :
      Move signalFirst w site (w.leave x site).1 (w.leave x site).2
  | consumes {x x' : Session} {site' : Site} (hw : w.phase = .consuming x)
      (hx : x.phase ≠ .finished)
      (hstep : x.step? w.storeRetry w.signalled signalFirst site = some (x', site')) :
      Move signalFirst w site { w with phase := .consuming x' } site'

namespace Worker

theorem move_of_step? {signalFirst : Bool} {w w' : Worker} {site site' : Site}
    (h : w.step? signalFirst site = some (w', site')) : w.Move signalFirst site w' site' := by
  unfold step? at h
  cases hp : w.phase with
  | stopped => simp [hp] at h
  | waiting due =>
    have hrests : ∀ x, w.phase ≠ .consuming x := by simp [hp]
    simp only [hp] at h
    split at h
    · split at h
      · next hhurried =>
        obtain ⟨rfl, rfl⟩ := Prod.ext_iff.1 (Option.some.inj h)
        exact .stops hrests (Bool.and_eq_true_iff.1 hhurried).1
      · obtain ⟨rfl, rfl⟩ := Prod.ext_iff.1 (Option.some.inj h)
        exact .wakes hp
    split at h
    · next hsignalled =>
      obtain ⟨rfl, rfl⟩ := Prod.ext_iff.1 (Option.some.inj h)
      exact .stops hrests hsignalled
    · cases h
  | subscribing =>
    have hrests : ∀ x, w.phase ≠ .consuming x := by simp [hp]
    simp only [hp] at h
    split at h
    · next hhurried =>
      obtain ⟨rfl, rfl⟩ := Prod.ext_iff.1 (Option.some.inj h)
      exact .stops hrests (Bool.and_eq_true_iff.1 hhurried).1
    split at h
    · next hb =>
      obtain ⟨rfl, rfl⟩ := Prod.ext_iff.1 (Option.some.inj h)
      exact .opens hp hb
    · next hb =>
      obtain ⟨rfl, rfl⟩ := Prod.ext_iff.1 (Option.some.inj h)
      exact .fails hp hb
  | consuming x =>
    simp only [hp] at h
    split at h
    · next hx =>
      obtain ⟨rfl, rfl⟩ := Prod.ext_iff.1 (Option.some.inj h)
      exact .leaves hp hx
    · next hx =>
      split at h
      · next hstep =>
        obtain ⟨rfl, rfl⟩ := Prod.ext_iff.1 (Option.some.inj h)
        exact .consumes hp hx hstep
      · cases h

theorem handling?_of_resting {w : Worker} (hw : ∀ x, w.phase ≠ .consuming x) (signalFirst : Bool)
    (site : Site) : w.handling? signalFirst site = none := by
  cases hp : w.phase with
  | consuming x => exact absurd hp (hw x)
  | _ => simp [handling?, hp]

theorem handling?_of_consuming {w : Worker} {x : Session} (hw : w.phase = .consuming x)
    (signalFirst : Bool) (site : Site) :
    w.handling? signalFirst site = x.handling? w.signalled signalFirst site := by
  simp [handling?, hw]

theorem handling?_of_idle {signalFirst : Bool} {w : Worker} {site : Site}
    (h : w.step? signalFirst site = none) : w.handling? signalFirst site = none := by
  cases hp : w.phase with
  | consuming x =>
    rw [handling?_of_consuming hp]
    unfold step? at h
    simp only [hp] at h
    split at h
    · cases h
    split at h
    · cases h
    · next hidle => exact Session.handling?_of_idle hidle
  | _ => simp [handling?, hp]

end Worker

/-! ## Waits -/

structure Site.Passive (R : Site → Site → Prop) : Prop where
  refl : ∀ site, R site site
  trans : ∀ {a b c : Site}, R a b → R b c → R a c
  step : ∀ {signalFirst : Bool} {w w' : Worker} {site site' : Site},
    w.step? signalFirst site = some (w', site') → R site site'
  await : ∀ (t : Nat) (site : Site), R site (site.await t)

namespace Site.Passive
variable {R : Site → Site → Prop}

theorem advance (h : Passive R) (signalFirst : Bool) (w : Worker) (site : Site) :
    R site (w.advance signalFirst site).2 := by
  fun_induction Worker.advance signalFirst w site with
  | case1 => exact h.refl _
  | case2 w site w' site' hstep ih => exact h.trans (h.step hstep) ih

theorem turns (h : Passive R) (ws : List Worker) (site : Site) :
    R site (Stage.turns ws site).2 := by
  induction ws generalizing site with
  | nil => exact h.refl _
  | cons w ws ih => exact h.trans (h.advance true w site) (ih _)

theorem sleepUntil (h : Passive R) (t : Nat) (s : Stage) : R s.site (s.sleepUntil t).site := by
  fun_induction Stage.sleepUntil t s with
  | case1 => exact h.refl _
  | case2 s => exact h.trans (h.turns s.workers s.site) (h.await _ _)
  | case3 s _ due _ _ ih =>
    exact h.trans (h.trans (h.turns s.workers s.site) (h.await _ _)) ih
  | case4 s => exact h.trans (h.turns s.workers s.site) (h.await _ _)

end Site.Passive
end Consignment
