import Consignment.Proofs.Stage.Stride

/-! Consuming, waiting and whatever else happens on a stage touch nothing that publishing adds to:
the attempts, the log, the offsets and the counters of those who publish. -/
namespace Consignment

def Counter.isPublishing : Counter → Bool
  | .published _ => true
  | .publishRetries _ => true
  | .publishFailed _ => true
  | .reconciled _ => false
  | .rejected _ => false
  | .storeUnavailable _ => false
  | .deadLettered _ => false

/-- Nothing was published between the one site and the other, nor is the broker to answer those who
publish otherwise. -/
structure Site.Silent (site site' : Site) : Prop where
  attempts : site'.broker.attempts = site.broker.attempts
  log : site'.broker.log = site.broker.log
  offsets : site'.broker.offsets = site.broker.offsets
  script : site'.broker.publishFailures = site.broker.publishFailures
  tally : ∀ c : Counter, c.isPublishing = true → site'.tally.count c = site.tally.count c

namespace Site.Silent
variable {a b c : Site}

theorem refl (site : Site) : Silent site site := ⟨rfl, rfl, rfl, rfl, fun _ _ => rfl⟩

theorem trans (h : Silent a b) (g : Silent b c) : Silent a c where
  attempts := g.attempts.trans h.attempts
  log := g.log.trans h.log
  offsets := g.offsets.trans h.offsets
  script := g.script.trans h.script
  tally counter hc := (g.tally counter hc).trans (h.tally counter hc)

theorem subscriptions {broker : Broker} (hattempts : broker.attempts = a.broker.attempts)
    (hlog : broker.log = a.broker.log) (hoffsets : broker.offsets = a.broker.offsets)
    (hscript : broker.publishFailures = a.broker.publishFailures) :
    Silent a { a with broker } :=
  ⟨hattempts, hlog, hoffsets, hscript, fun _ _ => rfl⟩

theorem increment {counter : Counter} (h : counter.isPublishing = false) (n : Nat) (site : Site) :
    Silent site (site.increment counter n) := by
  refine ⟨rfl, rfl, rfl, rfl, fun other hother => ?_⟩
  have hne : counter ≠ other := by
    rintro rfl
    rw [h] at hother
    cases hother
  simp [Site.increment, Tally.count_add, hne]

theorem conclude (d : Delivery) (outcome : Except ConsumeError Reconciliation) (site : Site) :
    Silent site (site.conclude d outcome) := by
  unfold Site.conclude
  split
  · exact increment rfl 1 site
  · exact increment rfl 1 site
  split
  · exact increment rfl 1 site
  split
  · next reason _ =>
    have hcounted : Silent site (site.increment (.deadLettered reason.name) 1) :=
      increment rfl 1 site
    exact hcounted.trans ⟨rfl, rfl, rfl, rfl, fun _ _ => rfl⟩
  · exact refl site

theorem subscribe (topics : List String) (site : Site) :
    Silent site { site with broker := (site.broker.subscribe topics).2 } := by
  unfold Broker.subscribe
  split <;> exact subscriptions rfl rfl rfl rfl

theorem receive (i : Nat) (site : Site) :
    Silent site { site with broker := (site.broker.receive i).2 } := by
  unfold Broker.receive
  split <;> exact subscriptions rfl rfl rfl rfl

end Site.Silent

namespace Session

theorem settle_silent (d : Delivery) (outcome : Except ConsumeError Reconciliation) (x : Session)
    (site : Site) : site.Silent (x.settle d outcome site).2 := by
  have hconclude := Site.Silent.conclude d outcome site
  have hdone : site.Silent ((site.conclude d outcome).acknowledge d) :=
    hconclude.trans (.subscriptions rfl rfl rfl rfl)
  unfold settle
  split
  · exact hdone
  split
  · exact hconclude
  · exact hdone

theorem attempt_silent (p : Policy) (d : Delivery) (failed : Nat) (x : Session) (site : Site) :
    site.Silent (x.attempt p d failed site).2 := by
  have hconsume : site.Silent { site with store := (site.store.consume d.payload).2 } :=
    ⟨rfl, rfl, rfl, rfl, fun _ _ => rfl⟩
  unfold attempt Site.consume
  cases hn : p.next ConsumeError.isTransient failed (site.store.consume d.payload).1 with
  | again wait => simpa [hn] using hconsume
  | stop answer => simpa [hn] using hconsume.trans (settle_silent d _ x _)

theorem step?_silent {p : Policy} {signalled signalFirst : Bool} {x x' : Session}
    {site site' : Site} (h : x.step? p signalled signalFirst site = some (x', site')) :
    site.Silent site' := by
  have hreceive := Site.Silent.receive x.subscription site
  cases move_of_step? h with
  | retries hx hdue => exact attempt_silent p _ _ x site
  | takes hx hs hr =>
    rw [hr] at hreceive
    exact hreceive.trans (attempt_silent p _ 0 x _)
  | misses hx hs hr =>
    rw [hr] at hreceive
    exact hreceive
  | ends hx hr => exact .refl site
  | stops hx hs hr => exact .refl site

end Session

theorem Worker.step?_silent {signalFirst : Bool} {w w' : Worker} {site site' : Site}
    (h : w.step? signalFirst site = some (w', site')) : site.Silent site' := by
  have hsubscribe := Site.Silent.subscribe w.topics site
  cases move_of_step? h with
  | stops hw hs => exact .refl site
  | wakes hw => exact .refl site
  | opens hw hb =>
    rw [hb] at hsubscribe
    exact hsubscribe
  | fails hw hb =>
    rw [hb] at hsubscribe
    exact hsubscribe
  | leaves hw hx => exact .subscriptions rfl rfl rfl rfl
  | consumes hw hx hstep => exact Session.step?_silent hstep

theorem Site.passive_silent : Passive Site.Silent :=
  ⟨.refl, .trans, Worker.step?_silent, fun _ _ => ⟨rfl, rfl, rfl, rfl, fun _ _ => rfl⟩⟩

namespace Stage

theorem sleepUntil_silent (t : Nat) (s : Stage) : s.site.Silent (s.sleepUntil t).site :=
  Site.passive_silent.sleepUntil t s

theorem after_silent (topics : Topics) (s : Stage) {e : Event} (he : e.isPublish = false)
    (hscript : ∀ errors, e ≠ .failPublish errors) : s.site.Silent (s.after topics e).site := by
  have hsame : s.site.Silent s.site := .refl _
  cases e with
  | publish topic key payload => cases he
  | failPublish errors => exact absurd rfl (hscript errors)
  | work i signalFirst =>
    simp only [after]
    split
    · exact hsame
    split
    · exact hsame
    · next hstep => exact Worker.step?_silent hstep
  | hire delay storeRetry =>
    simp only [after]
    split <;> exact hsame
  | watch opened => exact .subscribe opened s.site
  | look i =>
    simp only [after]
    split
    · exact hsame
    · exact .receive i s.site
  | leave i =>
    simp only [after]
    split
    · exact hsame
    · exact .subscriptions rfl rfl rfl rfl
  | _ => exact ⟨rfl, rfl, rfl, rfl, fun _ _ => rfl⟩

end Stage
end Consignment
