import Consignment.Retry.Loop

/-! What holds of every attempt and every pause holds of the whole, and the last attempt alone
decides the answer. -/
namespace Consignment.Policy
variable {σ κ ε α : Type} {retryable : ε → Bool} {attempt : σ → Except ε α × σ} {P : σ → Prop}

theorem attempts_pos (p : Policy) : 0 < p.attempts := Nat.le_max_right _ _

/-- The loop ends with an attempt after as many failures as it counted, either because this attempt
is the last one or because the pause after it is cut. Each failure before was worth a retry, and the
policy allowed one. -/
theorem loop_ends (p : Policy) {P : Nat → σ → Prop} {pause : Span → σ → Except κ σ}
    (hagain : ∀ n s e t wait u, P n s → n + 1 < p.attempts → retryable e = true →
      attempt s = (.error e, t) → pause wait t = .ok u → P (n + 1) u)
    {failed : Nat} {s : σ} (hs : P failed s) :
    ∃ u n, P n u ∧
      ((∃ answer, p.next retryable n (attempt u).1 = .stop answer ∧
        p.loop retryable attempt pause failed s = .ok (answer, (attempt u).2)) ∨
      ∃ wait cut, p.next retryable n (attempt u).1 = .again wait ∧
        pause wait (attempt u).2 = .error cut ∧
        p.loop retryable attempt pause failed s = .error cut) := by
  induction hn : p.attempts - failed using Nat.strongRecOn generalizing failed s with
  | ind n ih =>
    rw [loop]
    rcases ha : attempt s with ⟨result, t⟩
    simp only
    split
    · next answer hstop => exact ⟨s, failed, hs, .inl ⟨answer, by rw [ha]; exact hstop, by rw [ha]⟩⟩
    · next wait hnext =>
      have hlt := lt_attempts_of_next hnext
      obtain ⟨e, rfl, he⟩ := retryable_of_next hnext
      cases hp : pause wait t with
      | error cut =>
        exact ⟨s, failed, hs, .inr ⟨wait, cut, by rw [ha]; exact hnext, by rw [ha]; exact hp, rfl⟩⟩
      | ok v =>
        have hless : p.attempts - (failed + 1) < n := by omega
        exact ih _ hless (hagain failed s e t wait v hs hlt he ha hp) rfl

theorem loop_last_counted (p : Policy) {P : Nat → σ → Prop} {pause : Span → σ → Except κ σ}
    (hagain : ∀ n s e t wait u, P n s → n + 1 < p.attempts → retryable e = true →
      attempt s = (.error e, t) → pause wait t = .ok u → P (n + 1) u)
    {failed : Nat} {s t : σ} (hs : P failed s) {answer : Except (GaveUp ε) α}
    (h : p.loop retryable attempt pause failed s = .ok (answer, t)) :
    ∃ u result n, P n u ∧ attempt u = (result, t) ∧ p.next retryable n result = .stop answer := by
  obtain ⟨u, n, hu, ⟨answer', hstop, hloop⟩ | ⟨wait, cut, -, -, hloop⟩⟩ := p.loop_ends hagain hs
  · obtain ⟨rfl, rfl⟩ := Prod.mk.inj (Except.ok.inj (h.symm.trans hloop))
    exact ⟨u, _, n, hu, rfl, hstop⟩
  · cases h.symm.trans hloop

theorem loop_last (p : Policy) {pause : Span → σ → Except κ σ}
    (hagain : ∀ s e t wait u, P s → attempt s = (.error e, t) → pause wait t = .ok u → P u)
    {failed : Nat} {s t : σ} (hs : P s) {answer : Except (GaveUp ε) α}
    (h : p.loop retryable attempt pause failed s = .ok (answer, t)) :
    ∃ u result n, P u ∧ attempt u = (result, t) ∧ p.next retryable n result = .stop answer :=
  p.loop_last_counted (P := fun _ s => P s)
    (fun _ s e t wait u hs _ _ ha hv => hagain s e t wait u hs ha hv) hs h

theorem loop_answers (p : Policy) {pause : Span → σ → Except κ σ}
    (hpause : ∀ wait s, ∃ t, pause wait s = .ok t) (failed : Nat) (s : σ) :
    ∃ answer t, p.loop retryable attempt pause failed s = .ok (answer, t) := by
  induction hn : p.attempts - failed using Nat.strongRecOn generalizing failed s with
  | ind n ih =>
    rw [loop]
    rcases attempt s with ⟨result, t⟩
    simp only
    split
    · next answer _ => exact ⟨answer, t, rfl⟩
    · next wait hnext =>
      have hlt := lt_attempts_of_next hnext
      obtain ⟨u, hu⟩ := hpause wait t
      rw [hu]
      have hless : p.attempts - (failed + 1) < n := by omega
      exact ih _ hless (failed + 1) u rfl

theorem next_stop_cases {p : Policy} {n : Nat} {result : Except ε α}
    {answer : Except (GaveUp ε) α} (h : p.next retryable n result = .stop answer) :
    (∃ a, result = .ok a ∧ answer = .ok a) ∨
    (∃ e, result = .error e ∧ retryable e = false ∧ answer = .error (.aborted (n + 1) e)) ∨
    ∃ e, result = .error e ∧ retryable e = true ∧ p.attempts ≤ n + 1 ∧
      answer = .error (.exhausted (n + 1) e) := by
  unfold next at h
  split at h
  · next a =>
    cases h
    exact .inl ⟨a, rfl, rfl⟩
  · next e =>
    right
    split at h
    · next hfinal =>
      cases h
      exact .inl ⟨e, rfl, by simpa using hfinal, rfl⟩
    · next hretryable =>
      split at h
      · next hlast =>
        cases h
        exact .inr ⟨e, rfl, by simpa using hretryable, hlast, rfl⟩
      · cases h

theorem answer_of_next {p : Policy} {n : Nat} {result : Except ε α}
    {answer : Except (GaveUp ε) α} (h : p.next retryable n result = .stop answer) :
    (∃ a, result = .ok a ∧ answer = .ok a) ∨ ∃ e g, result = .error e ∧ answer = .error g := by
  rcases next_stop_cases h with hok | ⟨e, he, -, ha⟩ | ⟨e, he, -, -, ha⟩
  · exact .inl hok
  · exact .inr ⟨e, _, he, ha⟩
  · exact .inr ⟨e, _, he, ha⟩

theorem run_induction (p : Policy) {pause : Span → σ → σ} (hattempt : ∀ s, P s → P (attempt s).2)
    (hpause : ∀ wait s, P s → P (pause wait s)) {s : σ} (hs : P s) :
    P (p.run retryable attempt pause s).2 := by
  unfold run
  split
  next answer h =>
  have hagain : ∀ s e t wait u, P s → attempt s = (.error e, t) →
      (.ok (pause wait t) : Except Empty σ) = .ok u → P u := by
    intro s e t wait u hs ha hu
    obtain rfl := Except.ok.inj hu
    apply hpause
    have ht := hattempt s hs
    rwa [ha] at ht
  obtain ⟨u, result, n, hu, ha, -⟩ := p.loop_last hagain hs h
  have hlast := hattempt u hu
  rwa [ha] at hlast

end Consignment.Policy
