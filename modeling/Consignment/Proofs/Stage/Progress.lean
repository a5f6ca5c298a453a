import Consignment.Proofs.Stage.Order

/-! A worker that nobody tells to stop gets to the end of the log, however the store and the broker
fail, as long as their scripts are finite. -/
namespace Consignment

def Event.isWork : Event → Bool
  | .pass _ => true
  | .hire _ _ => true
  | .work _ _ => true
  | _ => false

theorem Event.isPublish_of_isWork {e : Event} (h : e.isWork = true) : e.isPublish = false := by
  cases e <;> first | rfl | cases h

theorem Summary.shutdownRequested_record (r : Except ConsumeError Reconciliation) (s : Summary) :
    (s.record r).shutdownRequested = s.shutdownRequested := by
  unfold record
  split <;> rfl

namespace Session

theorem shutdownRequested_attempt (p : Policy) (d : Delivery) (failed : Nat) (x : Session)
    (site : Site) :
    (x.attempt p d failed site).1.summary.shutdownRequested = x.summary.shutdownRequested := by
  unfold attempt Site.consume
  simp only
  split
  · rfl
  · unfold settle
    split
    · exact Summary.shutdownRequested_record _ _
    split
    · rfl
    · exact Summary.shutdownRequested_record _ _

theorem shutdownRequested_of_step? {p : Policy} {signalFirst : Bool} {x x' : Session}
    {site site' : Site} (h : x.step? p false signalFirst site = some (x', site')) :
    x'.summary.shutdownRequested = x.summary.shutdownRequested := by
  cases move_of_step? h with
  | retries hx hdue => exact shutdownRequested_attempt p _ _ x site
  | takes hx hs hr => exact shutdownRequested_attempt p _ 0 x _
  | misses hx hs hr => rfl
  | ends hx hr => rfl
  | stops hx hs hr => cases hs

end Session

namespace Worker

structure Willing (w : Worker) : Prop where
  unsignalled : w.signalled = false
  goesOn : ∀ x, w.phase = .consuming x → x.summary.shutdownRequested = false

theorem willing_start (topics : Topics) (delay : Span) (storeRetry : Policy) :
    (start topics delay storeRetry).Willing :=
  ⟨rfl, fun x hx => by cases hx⟩

theorem Willing.step? {signalFirst : Bool} {w w' : Worker} {site site' : Site} (hw : w.Willing)
    (h : w.step? signalFirst site = some (w', site')) : w'.Willing ∧ w'.isStopped = false := by
  cases move_of_step? h with
  | stops hp hs =>
    rw [hw.unsignalled] at hs
    cases hs
  | wakes hp => exact ⟨⟨hw.unsignalled, fun x hx => by cases hx⟩, rfl⟩
  | opens hp hb =>
    refine ⟨⟨hw.unsignalled, ?_⟩, rfl⟩
    intro x hx
    obtain rfl := Phase.consuming.inj hx
    rfl
  | fails hp hb => exact ⟨⟨hw.unsignalled, fun x hx => by cases hx⟩, rfl⟩
  | leaves hp hx =>
    simp only [leave, hw.goesOn _ hp, Bool.false_eq_true, if_false]
    exact ⟨⟨hw.unsignalled, fun x hx => by cases hx⟩, rfl⟩
  | consumes hp hx hstep =>
    refine ⟨⟨hw.unsignalled, ?_⟩, rfl⟩
    intro y hy
    obtain rfl := Phase.consuming.inj hy
    rw [hw.unsignalled] at hstep
    rw [Session.shutdownRequested_of_step? hstep]
    exact hw.goesOn _ hp

theorem idle_cases {w : Worker} {site : Site} (hw : w.isStopped = false)
    (h : w.step? false site = none) :
    (∃ due, (w.step? false (site.await due)).isSome = true) ∨
      ∃ x, w.phase = .consuming x ∧ x.phase = .listening ∧
        (site.broker.receive x.subscription).1 = .pending := by
  unfold step? at h ⊢
  simp only [Bool.and_false, Bool.false_eq_true, if_false] at h ⊢
  cases hp : w.phase with
  | stopped => simp [isStopped, hp] at hw
  | subscribing =>
    simp only [hp] at h
    split at h <;> cases h
  | waiting due =>
    refine .inl ⟨due, ?_⟩
    have hdue : due ≤ (site.await due).clock := Nat.le_max_right _ _
    simp [hdue]
  | consuming x =>
    simp only [hp] at h
    cases hx : x.phase with
    | finished => simp [hx] at h
    | retrying d failed due =>
      refine .inl ⟨due, ?_⟩
      have hdue : due ≤ (site.await due).clock := Nat.le_max_right _ _
      simp [hx, Session.step?, hdue]
    | listening =>
      refine .inr ⟨x, rfl, hx, ?_⟩
      simp only [hx, Session.step?] at h
      rcases hr : site.broker.receive x.subscription with ⟨r, c⟩
      cases r with
      | pending => rfl
      | ended => simp [hr] at h
      | item i => cases i <;> simp [hr] at h

end Worker

namespace Stage.Orderly
variable {topics : Topics} {done : List Delivery} {s : Stage}

theorem backlog_of_pending (h : s.Orderly topics done) {w : Worker} (hw : w ∈ s.workers)
    {x : Session} (hx : w.phase = .consuming x) (hlistening : x.phase = .listening)
    (hpending : (s.site.broker.receive x.subscription).1 = .pending) :
    s.site.broker.backlog topics.consumed = [] := by
  have hgoes : x.phase ≠ .finished := by
    rw [hlistening]
    exact Session.Phase.noConfusion
  obtain ⟨sub, hsub⟩ := h.inOrder w hw x hx hgoes
  have hempty : sub.queue = [] ∧ sub.live = true := by
    simp only [Broker.receive, hsub.found, Subscription.receive] at hpending
    cases hq : sub.queue with
    | cons i queue => simp [hq] at hpending
    | nil => cases hl : sub.live <;> simp [hq, hl] at hpending ⊢
  have hserved := hsub.live hempty.2
  have hhand : x.inHand = [] := by simp [Session.inHand, hlistening]
  have hqueue : sub.deliveries = [] := by simp [Subscription.deliveries, hempty.1]
  rw [hhand, hqueue, List.append_nil, h.settled.served_eq] at hserved
  exact List.append_cancel_left hserved.symm

theorem proceeds (h : s.Orderly topics done) {i : Nat} {w : Worker} (hi : s.workers[i]? = some w)
    (hw : w.isStopped = false) :
    s.site.broker.backlog topics.consumed = [] ∨
    ∃ es w' site' done', (∀ e ∈ es, e.isWork = true) ∧
      s.afterAll topics es = ⟨site', s.workers.set i w'⟩ ∧
      (⟨site', s.workers.set i w'⟩ : Stage).Orderly topics done' ∧
      (w.Willing → w'.Willing ∧ w'.isStopped = false) ∧
      (Worker.troubles site' < Worker.troubles s.site ∨
        Worker.troubles site' = Worker.troubles s.site ∧ (w'.rank site' < w.rank s.site ∨
          w'.rank site' = w.rank s.site ∧ w'.pending site' < w.pending s.site)) := by
  cases hstep : w.step? false s.site with
  | some next =>
    obtain ⟨w', site'⟩ := next
    have hafter : s.after topics (.work i false) = ⟨site', s.workers.set i w'⟩ := by
      simp [Stage.after, hi, hstep]
    have horderly := h.work i false
    rw [hafter] at horderly
    exact .inr ⟨[.work i false], w', site', _, by simp [Event.isWork], hafter, horderly,
      fun hwilling => hwilling.step? hstep, Worker.step?_progress hstep⟩
  | none =>
    rcases Worker.idle_cases hw hstep with ⟨due, hdue⟩ | ⟨x, hx, hlistening, hpending⟩
    · obtain ⟨⟨w', site'⟩, hstep'⟩ := Option.isSome_iff_exists.1 hdue
      have hpass : s.after topics (.pass (due - s.site.clock)) = ⟨s.site.await due, s.workers⟩ := by
        have hclock : max s.site.clock (s.site.clock + (due - s.site.clock)) =
            max s.site.clock due := by omega
        simp only [Stage.after, onSite, Site.await, hclock]
      have hlater := h.after (.pass (due - s.site.clock))
      rw [hpass] at hlater
      have hafter : (⟨s.site.await due, s.workers⟩ : Stage).after topics (.work i false) =
          ⟨site', s.workers.set i w'⟩ := by
        simp [Stage.after, hi, hstep']
      have horderly := hlater.work i false
      rw [hafter] at horderly
      -- Rank and pending items have nothing to do with the time.
      have hprogress := Worker.step?_progress hstep'
      refine .inr ⟨[.pass (due - s.site.clock), .work i false], w', site', _,
        by simp [Event.isWork], ?_, horderly, fun hwilling => hwilling.step? hstep', hprogress⟩
      rw [afterAll_cons, hpass]
      exact hafter
    · exact .inl (h.backlog_of_pending (List.mem_of_getElem? hi) hx hlistening hpending)

theorem runs {i : Nat} {w : Worker} {s : Stage} {done : List Delivery} (h : s.Orderly topics done)
    (hi : s.workers[i]? = some w) (hw : w.isStopped = false) :
    ∃ es, (∀ e ∈ es, e.isWork = true) ∧
      ((s.afterAll topics es).site.broker.backlog topics.consumed = [] ∨
        ¬ w.Willing ∧ ∀ v ∈ (s.afterAll topics es).workers, v.isStopped = true) := by
  rcases h.proceeds hi hw with hdrained | ⟨es, w', site', done', hes, hafter, h', hwilling, hless⟩
  · exact ⟨[], by simp, .inl hdrained⟩
  have hlt := (List.getElem?_eq_some_iff.1 hi).1
  have hi' : (s.workers.set i w')[i]? = some w' := List.getElem?_set_self hlt
  cases hstopped : w'.isStopped with
  | true =>
    refine ⟨es, hes, .inr ⟨?_, ?_⟩⟩
    · intro hw'
      have hgoes := (hwilling hw').2
      rw [hstopped] at hgoes
      cases hgoes
    · rw [hafter]
      intro v hv
      cases hvs : v.isStopped with
      | true => rfl
      | false =>
        obtain ⟨j, hj⟩ := List.mem_iff_getElem?.1 hv
        by_cases hij : i = j
        · subst hij
          obtain rfl : w' = v := Option.some.inj (hi'.symm.trans hj)
          rw [hstopped] at hvs
          cases hvs
        · have hold : s.workers[j]? = some v := by rwa [List.getElem?_set_ne hij] at hj
          exact absurd (h.alone hi hold hw hvs) hij
  | false =>
    obtain ⟨fs, hfs, hend⟩ := runs h' hi' hstopped
    refine ⟨es ++ fs, ?_, ?_⟩
    · intro e he
      rcases List.mem_append.1 he with he | he
      · exact hes e he
      · exact hfs e he
    · rw [afterAll_append, hafter]
      rcases hend with hdrained | ⟨hunwilling, hall⟩
      · exact .inl hdrained
      · exact .inr ⟨fun hw' => hunwilling (hwilling hw').1, hall⟩
termination_by (Worker.troubles s.site, w.rank s.site, w.pending s.site)
decreasing_by
  simp only [Prod.lex_def]
  exact hless

theorem drains_hired (h : s.Orderly topics done) (hs : ∀ w ∈ s.workers, w.isStopped = true) :
    ∃ es, (∀ e ∈ es, e.isWork = true) ∧
      (s.afterAll topics es).site.broker.backlog topics.consumed = [] := by
  let w := Worker.start topics .zero .standard
  have hhire : s.after topics (.hire .zero .standard) = ⟨s.site, s.workers ++ [w]⟩ := by
    have hall : s.workers.all (·.isStopped) = true := List.all_eq_true.2 hs
    simp [Stage.after, hall, w]
  have h' := h.after (.hire .zero .standard)
  rw [hhire] at h'
  have hi : (s.workers ++ [w])[s.workers.length]? = some w := by simp
  obtain ⟨es, hes, hdrained | ⟨hunwilling, -⟩⟩ := h'.runs hi rfl
  · refine ⟨.hire .zero .standard :: es, ?_, ?_⟩
    · intro e he
      rcases List.mem_cons.1 he with rfl | he
      · rfl
      · exact hes e he
    · rw [afterAll_cons, hhire]
      exact hdrained
  · exact absurd (Worker.willing_start topics .zero .standard) hunwilling

theorem drains (h : s.Orderly topics done) :
    ∃ es, (∀ e ∈ es, e.isWork = true) ∧
      (s.afterAll topics es).site.broker.backlog topics.consumed = [] := by
  by_cases hs : ∀ w ∈ s.workers, w.isStopped = true
  · exact h.drains_hired hs
  · obtain ⟨w, hw, hactive⟩ : ∃ w ∈ s.workers, w.isStopped = false := by simpa using hs
    obtain ⟨i, hi⟩ := List.mem_iff_getElem?.1 hw
    obtain ⟨es, hes, hdrained | ⟨-, hall⟩⟩ := h.runs hi hactive
    · exact ⟨es, hes, hdrained⟩
    · obtain ⟨fs, hfs, hdrained⟩ := (h.afterAll es).drains_hired hall
      refine ⟨es ++ fs, ?_, ?_⟩
      · intro e he
        rcases List.mem_append.1 he with he | he
        · exact hes e he
        · exact hfs e he
      · rw [afterAll_append]
        exact hdrained

end Stage.Orderly
end Consignment
