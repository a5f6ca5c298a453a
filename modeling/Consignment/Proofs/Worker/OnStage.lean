import Consignment.Proofs.Worker.Shift

/-! What happens on a stage is a shift to each of its workers: the events that concern others, and
the steps of other workers among them, are changes of the site. -/
namespace Consignment

theorem Subscription.IsOver.offer {sub : Subscription} (h : sub.IsOver)
    (item : Except ChannelError Delivery) : (sub.offer item).IsOver := by
  simpa [Subscription.offer, h.dead] using h

theorem Subscription.IsOver.offerOn {sub : Subscription} (h : sub.IsOver) (topic : String)
    (d : Delivery) : (sub.offerOn topic d).IsOver := by
  unfold Subscription.offerOn
  split
  · exact h.offer _
  · exact h

namespace Broker.Keeps
variable {b c : Broker}

theorem map {f : Subscription → Subscription} (hf : ∀ sub, sub.IsOver → (f sub).IsOver)
    (h : c.subscriptions = b.subscriptions.map f) : b.Keeps c := by
  intro i sub hsub
  exact ⟨f sub, by simp [h, hsub], hf sub⟩

theorem publish (b : Broker) (now : Nat) (topic key : String) (payload : Bytes) :
    b.Keeps (b.publish now topic key payload).2 := by
  unfold Broker.publish
  split
  · exact .of_eq rfl
  · exact .map (fun sub h => h.offerOn topic _) rfl

end Broker.Keeps

theorem Worker.keeps_of_step? {signalFirst : Bool} {w w' : Worker} {site site' : Site}
    (h : w.step? signalFirst site = some (w', site')) :
    site'.clock = site.clock ∧ site.broker.Keeps site'.broker := by
  obtain ⟨ns, hstep⟩ : ∃ ns, w.Noted site ns w' site' := ⟨_, noted h⟩
  cases hstep with
  | stops hw hs => exact ⟨rfl, .of_eq rfl⟩
  | wakes hw hdue => exact ⟨rfl, .of_eq rfl⟩
  | opens hw hb => exact ⟨rfl, .subscribe (by rw [hb])⟩
  | fails hw hb => exact ⟨rfl, .subscribe (by rw [hb])⟩
  | leaves hw hx => exact ⟨rfl, .drop _ _⟩
  | consumes hw hx => exact ⟨hx.clock, hx.keeps⟩

namespace Stage
variable {topics : Topics}

theorem keeps_after (s : Stage) (e : Event) : s.site.clock ≤ (s.after topics e).site.clock ∧
    s.site.broker.Keeps (s.after topics e).site.broker := by
  cases e with
  | publish topic key payload => exact ⟨Nat.le_refl _, .publish _ _ _ _ _⟩
  | failPublish errors => exact ⟨Nat.le_refl _, .of_eq rfl⟩
  | failSubscribe error => exact ⟨Nat.le_refl _, .of_eq rfl⟩
  | failStore errors => exact ⟨Nat.le_refl _, .of_eq rfl⟩
  | transportError error => exact ⟨Nat.le_refl _, .map (fun sub h => h.offer _) rfl⟩
  | close => exact ⟨Nat.le_refl _, .map (f := Subscription.close) (fun sub h => ⟨h.empty, rfl⟩) rfl⟩
  | pass ms => exact ⟨Nat.le_max_left _ _, .of_eq rfl⟩
  | watch topics => exact ⟨Nat.le_refl _, .subscribe rfl⟩
  | look i =>
    simp only [after]
    split
    · exact ⟨Nat.le_refl _, .of_eq rfl⟩
    · exact ⟨Nat.le_refl _, .receive (i := i) rfl⟩
  | leave i =>
    simp only [after]
    split
    · exact ⟨Nat.le_refl _, .of_eq rfl⟩
    · exact ⟨Nat.le_refl _, .drop _ _⟩
  | hire delay storeRetry =>
    simp only [after]
    split <;> exact ⟨Nat.le_refl _, .of_eq rfl⟩
  | signal i => exact ⟨Nat.le_refl _, .of_eq rfl⟩
  | work i signalFirst =>
    cases hi : s.workers[i]? with
    | none => simpa [after, hi] using Broker.Keeps.of_eq rfl
    | some w =>
      cases hstep : w.step? signalFirst s.site with
      | none => simpa [after, hi, hstep] using Broker.Keeps.of_eq rfl
      | some next =>
        obtain ⟨hclock, hkeeps⟩ := Worker.keeps_of_step? hstep
        simpa [after, hi, hstep, hclock] using hkeeps

def change (topics : Topics) (workers : List Worker) (e : Event) : Site.Change :=
  ⟨fun site => ((⟨site, workers⟩ : Stage).after topics e).site,
    fun site => (keeps_after ⟨site, workers⟩ e).1, fun site => (keeps_after ⟨site, workers⟩ e).2⟩

theorem after_change {s : Stage} {i : Nat} {w : Worker} {e : Event}
    (hi : (s.after topics e).workers[i]? = some w) :
    ∃ t w', (s.after topics e).workers[i]? = some w' ∧
      (⟨w, s.site⟩ : Shift).after t = ⟨w', (s.after topics e).site⟩ :=
  ⟨.meanwhile (change topics s.workers e), w, hi, rfl⟩

theorem exists_turn (topics : Topics) {s : Stage} {i : Nat} {w : Worker}
    (hi : s.workers[i]? = some w) (e : Event) : ∃ t w', (s.after topics e).workers[i]? = some w' ∧
      (⟨w, s.site⟩ : Shift).after t = ⟨w', (s.after topics e).site⟩ := by
  cases e with
  | signal j =>
    by_cases hj : j = i
    · subst hj
      exact ⟨.signal, w.signal, by simp [after, hi], rfl⟩
    · exact after_change (by simp [after, hj, hi])
  | work j signalFirst =>
    by_cases hj : j = i
    · subst hj
      refine ⟨.work signalFirst, ?_⟩
      cases hstep : w.step? signalFirst s.site with
      | none => exact ⟨w, by simp [after, hi, hstep], by simp [after, Shift.after, hi, hstep]⟩
      | some next =>
        obtain ⟨hlt, -⟩ := List.getElem?_eq_some_iff.1 hi
        refine ⟨next.1, ?_, by simp [after, Shift.after, hi, hstep]⟩
        simp only [after, hi, hstep]
        exact List.getElem?_set_self hlt
    · apply after_change
      simp only [after]
      split
      · exact hi
      split
      · exact hi
      · simpa [List.getElem?_set_ne hj] using hi
  | hire delay storeRetry =>
    apply after_change
    simp only [after]
    split
    · obtain ⟨hlt, -⟩ := List.getElem?_eq_some_iff.1 hi
      simpa [List.getElem?_append_left hlt] using hi
    · exact hi
  | look j =>
    apply after_change
    simp only [after]
    split <;> exact hi
  | leave j =>
    apply after_change
    simp only [after]
    split <;> exact hi
  | _ => exact after_change hi

theorem exists_turns {s : Stage} {i : Nat} {w : Worker} (hi : s.workers[i]? = some w)
    (es : List Event) : ∃ ts w', (s.afterAll topics es).workers[i]? = some w' ∧
      (⟨w, s.site⟩ : Shift).afterAll ts = ⟨w', (s.afterAll topics es).site⟩ := by
  induction es generalizing s w with
  | nil => exact ⟨[], w, hi, rfl⟩
  | cons e es ih =>
    obtain ⟨t, w₁, hi₁, ht⟩ := exists_turn topics hi e
    obtain ⟨ts, w', hi', hts⟩ := ih hi₁
    refine ⟨t :: ts, w', hi', ?_⟩
    rw [Shift.afterAll_cons, ht]
    exact hts

end Stage
end Consignment
