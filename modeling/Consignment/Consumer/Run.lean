import Consignment.Consumer.Progress

/-! What a session does at one moment, until it has to wait. A session that waits to retry has used
up an error of the store to get there. -/
namespace Consignment.Session

def alive (s : Session) : Nat :=
  match s.phase with
  | .finished => 0
  | .listening => 1
  | .retrying _ _ _ => 1

theorem alive_of_ne {s : Session} (h : s.phase ≠ .finished) : s.alive = 1 := by
  unfold alive; split <;> simp_all

theorem alive_of_finished {s : Session} (h : s.phase = .finished) : s.alive = 0 := by
  simp [alive, h]

def advance (p : Policy) (signalled signalFirst : Bool) (s : Session) (site : Site) :
    Session × Site :=
  match _h : s.step? p signalled signalFirst site with
  | none => (s, site)
  | some (s', site') => advance p signalled signalFirst s' site'
termination_by (site.store.failures.length, s.alive, s.pending site)
decreasing_by
  have hp := step?_progress _h
  have hf := hp.failures
  simp only [Prod.lex_def]
  rcases hp.used with h | ⟨h, -⟩ | ⟨h, hlt⟩
  · exact .inl h
  · have := alive_of_finished h
    have := alive_of_ne hp.goesOn
    omega
  · have := alive_of_ne h
    have := alive_of_ne hp.goesOn
    omega

def isRetrying (s : Session) : Bool :=
  match s.phase with
  | .retrying _ _ _ => true
  | .listening => false
  | .finished => false

theorem isRetrying_of {s : Session} {d : Delivery} {failed due : Nat}
    (h : s.phase = .retrying d failed due) : s.isRetrying := by simp [isRetrying, h]

theorem failures_lt_of_attempt {p : Policy} {d : Delivery} {failed : Nat} {s : Session}
    {site : Site} (h : (s.attempt p d failed site).1.isRetrying) :
    (s.attempt p d failed site).2.store.failures.length < site.store.failures.length := by
  rcases (attempt_progress p d failed s site).2.2.2.2 with hlt | hl
  · exact hlt
  · simp [isRetrying, hl] at h

theorem failures_lt_of_step? {p : Policy} {signalled signalFirst : Bool} {s s' : Session}
    {site site' : Site} (h : s.step? p signalled signalFirst site = some (s', site'))
    (hr : s'.isRetrying) : site'.store.failures.length < site.store.failures.length := by
  unfold step? at h
  cases hp : s.phase with
  | finished => simp [hp] at h
  | retrying d failed due =>
    simp only [hp] at h
    split at h
    · obtain ⟨rfl, rfl⟩ := Prod.ext_iff.1 (Option.some.inj h)
      exact failures_lt_of_attempt hr
    · simp at h
  | listening =>
    simp only [hp] at h
    repeat' split at h
    all_goals first
      | (simp at h; done)
      | (obtain ⟨rfl, rfl⟩ := Prod.ext_iff.1 (Option.some.inj h)
         first
           | exact failures_lt_of_attempt hr
           | simp [isRetrying, shutDown, finish, countError, hp] at hr)

theorem advance_failures_le (p : Policy) (signalled signalFirst : Bool) (s : Session)
    (site : Site) :
    (s.advance p signalled signalFirst site).2.store.failures.length ≤
      site.store.failures.length := by
  fun_induction advance p signalled signalFirst s site with
  | case1 => exact Nat.le_refl _
  | case2 s site s' site' h ih => exact Nat.le_trans ih (step?_progress h).failures

theorem failures_lt_of_advance {p : Policy} {signalled signalFirst : Bool} {s : Session}
    {site : Site} (h : (s.advance p signalled signalFirst site).1.isRetrying) (hs : !s.isRetrying) :
    (s.advance p signalled signalFirst site).2.store.failures.length <
      site.store.failures.length := by
  fun_induction advance p signalled signalFirst s site with
  | case1 => simp_all
  | case2 s site s' site' hstep ih =>
    have hle := (step?_progress hstep).failures
    cases hr : s'.isRetrying
    · exact Nat.lt_of_lt_of_le (ih h (by simp [hr])) hle
    · exact Nat.lt_of_le_of_lt (advance_failures_le _ _ _ _ _) (failures_lt_of_step? hstep hr)

end Consignment.Session
