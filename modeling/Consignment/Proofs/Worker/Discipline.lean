import Consignment.Proofs.Stage.Progress
import Consignment.Proofs.Worker.OnStage

/-! Whatever happens at its site, a worker ends on a signal only, keeps its distance between one
subscription and the next, never holds on to two streams, and leaves no delivery half handled. -/
namespace Consignment

/-- The nanoseconds of the span, or of the longest wait if that is shorter. -/
def Span.capped (d : Span) : Nat := min d.nanos (longestWait * 1000000)

theorem Span.capped_le_ticks (d : Span) : d.capped ≤ d.ticks * 1000000 := by
  unfold capped ticks ceilMillis
  generalize longestWait = longest
  omega

namespace Worker

def earliest (w : Worker) (clock : Nat) : Nat :=
  match w.phase with
  | .waiting due => due
  | .stopped => clock
  | .subscribing => clock
  | .consuming _ => clock

theorem attended?_of_resting {w : Worker} (hw : ∀ x, w.phase ≠ .consuming x) :
    w.attended? = none := by
  cases hp : w.phase with
  | consuming x => exact absurd hp (hw x)
  | _ => simp only [attended?, hp]

theorem inHand_of_resting {w : Worker} (hw : ∀ x, w.phase ≠ .consuming x) : w.inHand = [] := by
  cases hp : w.phase with
  | consuming x => exact absurd hp (hw x)
  | _ => simp only [inHand, hp]

theorem retrying_of_inHand {w : Worker} (hw : w.inHand ≠ []) :
    ∃ x d failed due, w.phase = .consuming x ∧ x.phase = .retrying d failed due := by
  cases hp : w.phase with
  | consuming x =>
    cases hx : x.phase with
    | retrying d failed due => exact ⟨x, d, failed, due, rfl, hx⟩
    | _ => simp [inHand, Session.inHand, hp, hx] at hw
  | _ => simp [inHand, hp] at hw

theorem resting_leave (x : Session) (w : Worker) (site : Site) (y : Session) :
    (w.leave x site).1.phase ≠ .consuming y := by
  unfold leave
  split
  · exact Phase.noConfusion
  · exact Phase.noConfusion

theorem earliest_of_waiting {w : Worker} {due : Nat} (hw : w.phase = .waiting due) (clock : Nat) :
    w.earliest clock = due := by
  simp only [earliest, hw]

@[simp] theorem earliest_wait (w : Worker) (site : Site) (clock : Nat) :
    (w.wait site).earliest clock = site.clock + w.delay.ticks := by
  -- Left to unfold on its own, the kernel counts up to the longest wait.
  have hphase : (w.wait site).phase = .waiting (site.clock + w.delay.ticks) := by unfold wait; rfl
  exact earliest_of_waiting hphase clock

end Worker

structure Rested (delay : Span) (ns : List Note) (w : Worker) (site : Site) : Prop where
  same : w.delay = delay
  spaced : ns.Pairwise (Note.Spaced delay.capped)
  rested : w.isStopped = false → ∀ n ∈ ns, ∀ t ∈ n.end?, t + delay.ticks ≤ w.earliest site.clock

namespace Rested
variable {delay : Span} {ns new : List Note} {w w' : Worker} {site site' : Site}

theorem extend (h : Rested delay ns w site) (hw : w.isStopped = false) (hdelay : w'.delay = w.delay)
    (hcalls : ∀ n ∈ new, ∀ u ∈ n.call?, w.earliest site.clock ≤ u)
    (hnew : new.Pairwise (Note.Spaced delay.capped))
    (hlater : w'.isStopped = false → w.earliest site.clock ≤ w'.earliest site'.clock ∧
      ∀ n ∈ new, ∀ t ∈ n.end?, t + delay.ticks ≤ w'.earliest site'.clock) :
    Rested delay (ns ++ new) w' site' := by
  refine ⟨hdelay.trans h.same, List.pairwise_append.2 ⟨h.spaced, hnew, ?_⟩, ?_⟩
  · intro a ha b hb t ht u hu
    have hrested := h.rested hw a ha t ht
    have hcall := hcalls b hb u hu
    have hticks := delay.capped_le_ticks
    omega
  · intro hw' n hn t ht
    obtain ⟨hlater, hends⟩ := hlater hw'
    rcases List.mem_append.1 hn with hn | hn
    · exact Nat.le_trans (h.rested hw n hn t ht) hlater
    · exact hends n hn t ht

theorem meanwhile (h : Rested delay ns w site) (change : Site.Change) :
    Rested delay ns w (change.apply site) := by
  refine ⟨h.same, h.spaced, fun hw n hn t ht => Nat.le_trans (h.rested hw n hn t ht) ?_⟩
  unfold Worker.earliest
  split
  · exact Nat.le_refl _
  all_goals exact change.clock_le site

theorem noted (h : Rested delay ns w site) (hstep : w.Noted site new w' site') :
    Rested delay (ns ++ new) w' site' := by
  cases hstep with
  | stops hw hs =>
    rw [List.append_nil]
    exact ⟨h.same, h.spaced, fun hstopped => by cases hstopped⟩
  | wakes hw hdue =>
    refine h.extend (by simp [Worker.isStopped, hw]) rfl (by simp) .nil fun _ => ⟨?_, by simp⟩
    simpa [Worker.earliest, hw] using hdue
  | opens hw hb =>
    refine h.extend (by simp [Worker.isStopped, hw]) rfl ?_ (List.pairwise_singleton _ _)
      fun _ => ?_
    · simp [Worker.earliest, hw, Note.call?]
    · simp [Worker.earliest, hw, Note.end?]
  | fails hw hb =>
    refine h.extend (by simp [Worker.isStopped, hw]) rfl ?_ (List.pairwise_singleton _ _)
      fun _ => ?_
    · simp [Worker.earliest, hw, Note.call?]
    · have hclock : w.earliest site.clock = site.clock := by simp only [Worker.earliest, hw]
      rw [hclock, Worker.earliest_wait, h.same]
      exact ⟨Nat.le_add_right _ _, by simp [Note.end?]⟩
  | leaves hw hx =>
    refine h.extend (by simp [Worker.isStopped, hw]) ?_ ?_ (List.pairwise_singleton _ _)
      fun hw' => ?_
    · unfold Worker.leave; split <;> rfl
    · simp [Note.call?]
    · unfold Worker.leave at hw' ⊢
      split at hw'
      · cases hw'
      · next hs => simp [Worker.earliest, Worker.wait, hw, hs, h.same, Note.end?]
  | consumes hw hx =>
    refine h.extend (by simp [Worker.isStopped, hw]) rfl ?_ ?_ fun _ => ⟨?_, ?_⟩
    · intro n hn
      simp [(hx.inner n hn).1]
    · refine List.pairwise_of_forall_mem_list fun a ha b _ t ht => ?_
      simp [(hx.inner a ha).2.1] at ht
    · simp [Worker.earliest, hw, hx.clock]
    · intro n hn
      simp [(hx.inner n hn).2.1]

end Rested

structure Attends (ns : List Note) (w : Worker) (site : Site) : Prop where
  streams : ∀ i ∈ ns.filterMap Note.opened?, w.attended? = some i ∨ site.broker.Dropped i
  found : ∀ i, w.attended? = some i → ∃ sub, site.broker.subscriptions[i]? = some sub

namespace Attends
variable {ns new : List Note} {w w' : Worker} {site site' : Site}

theorem extend (h : Attends ns w site) (hkeeps : site.broker.Keeps site'.broker)
    (hnew : ∀ i ∈ new.filterMap Note.opened?, w'.attended? = some i)
    (hread : ∀ i, w.attended? = some i → w'.attended? = some i ∨ site'.broker.Dropped i)
    (hfound : ∀ i, w'.attended? = some i →
      w.attended? = some i ∨ ∃ sub, site'.broker.subscriptions[i]? = some sub) :
    Attends (ns ++ new) w' site' := by
  refine ⟨fun i hi => ?_, fun i hi => ?_⟩
  · rw [List.filterMap_append, List.mem_append] at hi
    rcases hi with hi | hi
    · rcases h.streams i hi with hattended | hdropped
      · exact hread i hattended
      · exact .inr (hkeeps.dropped hdropped)
    · exact .inl (hnew i hi)
  · rcases hfound i hi with hattended | hsub
    · obtain ⟨sub, hsub⟩ := h.found i hattended
      obtain ⟨sub', hsub', -⟩ := hkeeps i sub hsub
      exact ⟨sub', hsub'⟩
    · exact hsub

theorem meanwhile (h : Attends ns w site) (change : Site.Change) :
    Attends ns w (change.apply site) := by
  have hsame : Attends (ns ++ []) w (change.apply site) :=
    h.extend (change.keeps site) (by simp) (fun _ => .inl) (fun _ => .inl)
  rwa [List.append_nil] at hsame

theorem noted (h : Attends ns w site) (hstep : w.Noted site new w' site') :
    Attends (ns ++ new) w' site' := by
  -- Only `opens` adds a stream, and only `leaves` lets go of one.
  cases hstep with
  | stops hw hs =>
    have hstopped : w.stop.attended? = none := rfl
    have hresting := Worker.attended?_of_resting hw
    refine h.extend (.of_eq rfl) (by simp) ?_ ?_
    · simp [hresting]
    · simp [hstopped]
  | wakes hw hdue =>
    have hresting := Worker.attended?_of_resting (w := w) (by simp [hw])
    refine h.extend (.of_eq rfl) (by simp) ?_ ?_
    · simp [hresting]
    · simp [Worker.attended?]
  | @opens i b hw hb =>
    have hresting := Worker.attended?_of_resting (w := w) (by simp [hw])
    refine h.extend (.subscribe (by rw [hb])) ?_ ?_ ?_
    · simp [Note.opened?, Worker.attended?, Session.start]
    · simp [hresting]
    · intro j hj
      obtain rfl : i = j := Option.some.inj hj
      exact .inr (Broker.found_of_subscribe hb)
  | fails hw hb =>
    have hresting := Worker.attended?_of_resting (w := w) (by simp [hw])
    refine h.extend (.subscribe (by rw [hb])) ?_ ?_ ?_
    · simp [Note.opened?]
    · simp [hresting]
    · simp [Worker.wait, Worker.attended?]
  | @leaves x hw hx =>
    have hread : w.attended? = some x.subscription := by simp only [Worker.attended?, hw]
    have hresting := Worker.attended?_of_resting (w.resting_leave x site)
    refine h.extend (.drop _ _) ?_ ?_ ?_
    · simp [Note.opened?]
    · intro i hi
      obtain rfl := Option.some.inj (hread.symm.trans hi)
      exact .inr (Broker.dropped_drop (h.found _ hread))
    · simp [hresting]
  | @consumes x x' _ _ hw hx =>
    have hread : w.attended? = some x.subscription := by simp only [Worker.attended?, hw]
    have hread' : ({ w with phase := .consuming x' } : Worker).attended? = w.attended? := by
      rw [hread, ← hx.subscription]
      rfl
    refine h.extend hx.keeps ?_ ?_ ?_
    · intro i hi
      obtain ⟨n, hn, hi⟩ := List.mem_filterMap.1 hi
      simp [(hx.inner n hn).2.2] at hi
    · exact fun i hi => .inl (hread'.trans hi)
    · exact fun i hi => .inl (hread'.symm.trans hi)

end Attends

structure Handles (p : Policy) (ns : List Note) (w : Worker) : Prop where
  storeRetry : w.storeRetry = p
  hand : ns.filterMap Note.began? =
    (ns.filterMap Note.closed?).map Closing.delivery ++ w.inHand
  proper : ∀ c ∈ ns.filterMap Note.closed?, c.Proper p
  bounded : ∀ x, w.phase = .consuming x → x.Bounded p

namespace Handles
variable {p : Policy} {ns new : List Note} {w w' : Worker} {site site' : Site}

theorem extend (h : Handles p ns w) (hpolicy : w'.storeRetry = w.storeRetry)
    (hhand : w.inHand ++ new.filterMap Note.began? =
      (new.filterMap Note.closed?).map Closing.delivery ++ w'.inHand)
    (hproper : ∀ c ∈ new.filterMap Note.closed?, c.Proper p)
    (hbounded : ∀ x, w'.phase = .consuming x → x.Bounded p) : Handles p (ns ++ new) w' := by
  refine ⟨hpolicy.trans h.storeRetry, ?_, fun c hc => ?_, hbounded⟩
  · rw [List.filterMap_append, h.hand, List.append_assoc, hhand, List.filterMap_append,
      List.map_append, List.append_assoc]
  · rw [List.filterMap_append, List.mem_append] at hc
    exact hc.elim (h.proper c) (hproper c)

theorem noted (h : Handles p ns w) (hstep : w.Noted site new w' site') :
    Handles p (ns ++ new) w' := by
  cases hstep with
  | stops hw hs =>
    refine h.extend rfl ?_ (by simp) (by simp [Worker.stop])
    rw [Worker.inHand_of_resting hw]
    rfl
  | wakes hw hdue =>
    refine h.extend rfl ?_ (by simp) (by simp)
    rw [Worker.inHand_of_resting (w := w) (by simp [hw])]
    rfl
  | opens hw hb =>
    refine h.extend rfl ?_ (by simp [Note.closed?]) ?_
    · rw [Worker.inHand_of_resting (w := w) (by simp [hw])]
      rfl
    · rintro x ⟨⟩ _ _ _ ⟨⟩
  | fails hw hb =>
    refine h.extend rfl ?_ (by simp [Note.closed?]) (by simp [Worker.wait])
    rw [Worker.inHand_of_resting (w := w) (by simp [hw])]
    rfl
  | @leaves x hw hx =>
    have hhand : w.inHand = [] := by simp only [Worker.inHand, Session.inHand, hw, hx]
    have hresting := w.resting_leave x site
    refine h.extend ?_ ?_ (by simp [Note.closed?]) (fun y hy => absurd hy (hresting y))
    · unfold Worker.leave; split <;> rfl
    · rw [hhand, Worker.inHand_of_resting hresting]
      rfl
  | @consumes x x' _ _ hw hx =>
    have hhand : w.inHand = x.inHand := by simp only [Worker.inHand, hw]
    obtain ⟨hbounded, hproper⟩ := hx.bounded (h.storeRetry ▸ h.bounded _ hw)
    rw [h.storeRetry] at hbounded hproper
    refine h.extend rfl ?_ hproper ?_
    · rw [hhand, hx.hand]
      rfl
    · intro y hy
      obtain rfl := Worker.Phase.consuming.inj hy
      exact hbounded

end Handles

namespace Session

theorem attempt_of_open {p : Policy} {d : Delivery} {failed : Nat} {x x' : Session}
    {site site' : Site} (h : x.closing? p d failed site = none)
    (hattempt : x.attempt p d failed site = (x', site')) :
    failed + 1 < p.attempts ∧ ∃ due, x'.phase = .retrying d (failed + 1) due := by
  have hattempted := attempted p d failed x site
  rw [h, hattempt] at hattempted
  cases hattempted with
  | again hfailed => exact ⟨hfailed, _, rfl⟩

end Session

namespace Shift

theorem unstopped {s : Shift} (h : s.worker.Willing) (hs : s.worker.isStopped = false)
    {ts : List Turn} (hts : Turn.signal ∉ ts) : (s.afterAll ts).worker.isStopped = false := by
  induction ts generalizing s with
  | nil => exact hs
  | cons t ts ih =>
    obtain ⟨ht, hrest⟩ : Turn.signal ≠ t ∧ Turn.signal ∉ ts := by simpa using hts
    rw [afterAll_cons]
    cases t with
    | signal => exact absurd rfl ht
    | meanwhile change => exact ih h hs hrest
    | work signalFirst =>
      cases hstep : s.worker.step? signalFirst s.site with
      | none =>
        rw [after_idle hstep]
        exact ih h hs hrest
      | some next =>
        obtain ⟨hwilling, hgoes⟩ := h.step? hstep
        rw [after_step hstep]
        exact ih hwilling hgoes hrest

theorem tries_lt {p : Policy} {s : Shift} {x : Session} {d : Delivery} {failed due : Nat}
    {ts : List Turn} (hp : s.worker.storeRetry = p) (hw : s.worker.phase = .consuming x)
    (hx : x.phase = .retrying d failed due) (hfailed : failed < p.attempts)
    (hopen : (s.diary ts).filterMap Note.closed? = []) : failed + s.tries ts < p.attempts := by
  -- A turn that comes due is either one more failure, or the end of the handling.
  induction ts generalizing s x failed due with
  | nil => exact hfailed
  | cons t ts ih =>
    obtain ⟨hnow, hrest⟩ : (s.notes t).filterMap Note.closed? = [] ∧
        ((s.after t).diary ts).filterMap Note.closed? = [] := by
      simpa only [diary, List.filterMap_append, List.append_eq_nil_iff] using hopen
    cases t with
    | meanwhile change => exact ih (s := s.after (.meanwhile change)) hp hw hx hfailed hrest
    | signal => exact ih (s := s.after .signal) hp hw hx hfailed hrest
    | work signalFirst =>
      by_cases hdue : due ≤ s.site.clock
      · have hisDue : s.isDue = true := by simp [isDue, Worker.nextAttempt?, hw, hx, hdue]
        rcases hattempt : x.attempt p d failed s.site with ⟨x', site'⟩
        have hstep : s.worker.step? signalFirst s.site =
            some ({ s.worker with phase := .consuming x' }, site') := by
          simp [Worker.step?, Session.step?, hp, hw, hx, hdue, hattempt]
        have hclosing : x.closing? p d failed s.site = none := by
          cases hc : x.closing? p d failed s.site with
          | none => rfl
          | some c =>
            simp [notes, Worker.notes, Session.notes, hp, hw, hx, hdue, hc, Note.closed?] at hnow
        obtain ⟨hagain, later, hlater⟩ := Session.attempt_of_open hclosing hattempt
        have hless := ih (s := s.after (.work signalFirst)) (by rw [after_step hstep]; exact hp)
          (by rw [after_step hstep]) hlater hagain hrest
        simp only [tries, hisDue, if_true]
        omega
      · have hisDue : s.isDue = false := by simp [isDue, Worker.nextAttempt?, hw, hx, hdue]
        have hstep : s.worker.step? signalFirst s.site = none := by
          simp [Worker.step?, Session.step?, hw, hx, hdue]
        rw [after_idle hstep] at hrest
        have hless := ih hp hw hx hfailed hrest
        simp only [tries, hisDue, after_idle hstep, Bool.false_eq_true, if_false]
        omega

/-- What can be relied on, whatever happens at the site. -/
structure Disciplined (start : Shift) (turns : List Turn) : Prop where
  /-- The worker ends on a signal only, and then with nothing in hand. -/
  ends : (start.afterAll turns).worker.isStopped = true →
    .signal ∈ turns ∧ (start.afterAll turns).worker.inHand = []
  /-- Between the end of a run, or of an attempt to subscribe, and the next such attempt lies the
  delay, of which a timer keeps thirty years at most. -/
  spaced : (start.diary turns).Pairwise (Note.Spaced start.worker.delay.capped)
  /-- Of all the streams it opened the worker holds no more than the one it reads, and so none when
  it subscribes. -/
  streams : ∀ i ∈ (start.diary turns).filterMap Note.opened?,
    (start.afterAll turns).worker.attended? = some i ∨
      (start.afterAll turns).site.broker.Dropped i
  /-- The deliveries that were begun are done with in their order, but for the one in hand. -/
  hand : (start.diary turns).filterMap Note.began? =
    ((start.diary turns).filterMap Note.closed?).map Closing.delivery ++
      (start.afterAll turns).worker.inHand
  proper : ∀ c ∈ (start.diary turns).filterMap Note.closed?, c.Proper start.worker.storeRetry
  /-- While a delivery is in hand, fewer attempts at it come due than the policy allows. -/
  finishes : (start.afterAll turns).worker.inHand ≠ [] → ∀ more : List Turn,
    ((start.afterAll turns).diary more).filterMap Note.closed? = [] →
    (start.afterAll turns).tries more < start.worker.storeRetry.attempts

theorem disciplined_start (topics : Topics) (delay : Span) (storeRetry : Policy) (site : Site)
    (turns : List Turn) : Disciplined ⟨.start topics delay storeRetry, site⟩ turns := by
  have hrested := diary_induction (P := Rested delay)
    (s := ⟨.start topics delay storeRetry, site⟩) (fun _ _ _ change h => h.meanwhile change)
    (fun _ _ _ h => ⟨h.same, h.spaced, h.rested⟩) (fun _ _ _ _ _ _ h hstep => h.noted hstep)
    ⟨rfl, .nil, by simp⟩ turns
  have hattends := diary_induction (P := Attends)
    (s := ⟨.start topics delay storeRetry, site⟩) (fun _ _ _ change h => h.meanwhile change)
    (fun _ _ _ h => ⟨h.streams, h.found⟩) (fun _ _ _ _ _ _ h hstep => h.noted hstep)
    ⟨by simp, by simp [Worker.start, Worker.attended?]⟩ turns
  have hhandles := diary_induction (P := fun ns w _ => Handles storeRetry ns w)
    (s := ⟨.start topics delay storeRetry, site⟩) (fun _ _ _ _ h => h)
    (fun _ _ _ h => ⟨h.storeRetry, h.hand, h.proper, h.bounded⟩)
    (fun _ _ _ _ _ _ h hstep => h.noted hstep) ⟨rfl, rfl, by simp, by simp [Worker.start]⟩ turns
  refine ⟨fun hstopped => ⟨?_, ?_⟩, hrested.spaced, hattends.streams, hhandles.hand,
    hhandles.proper, ?_⟩
  · by_contra hturns
    have hgoes := unstopped (s := ⟨.start topics delay storeRetry, site⟩)
      (Worker.willing_start topics delay storeRetry) rfl hturns
    rw [hstopped] at hgoes
    cases hgoes
  · exact Worker.inHand_of_resting (fun x hx => by simp [Worker.isStopped, hx] at hstopped)
  · intro hhand more hmore
    obtain ⟨x, d, failed, due, hw, hx⟩ := Worker.retrying_of_inHand hhand
    have hfailed := hhandles.bounded x hw d failed due hx
    have hless := tries_lt hhandles.storeRetry hw hx hfailed hmore
    exact Nat.lt_of_le_of_lt (Nat.le_add_left _ _) hless

/-- A worker that starts is disciplined, however its turns and whatever else happens at its site
follow one another; and whatever happens on a stage where it starts, among any others, comes to it
in such turns. -/
theorem disciplined (topics : Topics) (delay : Span) (storeRetry : Policy) (site : Site) :
    let w : Worker := .start topics delay storeRetry
    (∀ turns, Disciplined ⟨w, site⟩ turns) ∧
    ∀ (before after : List Worker) (es : List Event),
      let s := (⟨site, before ++ w :: after⟩ : Stage).afterAll topics es
      ∃ turns w', s.workers[before.length]? = some w' ∧
        (⟨w, site⟩ : Shift).afterAll turns = ⟨w', s.site⟩ := by
  intro w
  refine ⟨disciplined_start topics delay storeRetry site, fun before after es => ?_⟩
  exact Stage.exists_turns (s := ⟨site, before ++ w :: after⟩) (by simp) es

/-- The signal comes while the store is down: the delivery is retried and acknowledged before the
worker stops. -/
example :
    let payload :=
      Json.writeObject [("id", Json.writeText "S-1"), ("status", Json.writeText "SENT")]
    let start : Shift := ⟨.start .standard .zero .standard,
      { Site.fresh (Store.empty.fail [.database "down"]) .absent with
        broker := Broker.empty.accept "SHIPMENT" "K" payload }⟩
    let turns := [.work false, .work false, .signal, .work true, .meanwhile (.await 1000),
      .work true, .work true, .work true]
    (start.afterAll turns).worker.isStopped = true ∧
      ((start.diary turns).filterMap Note.closed?).map Closing.failed = [1] ∧
      (start.afterAll turns).site.broker.acks = [("SHIPMENT", 0)] := by
  decide +kernel

/-- A delay of more than thirty years is cut short. -/
theorem subscribes_before_delay :
    ¬ ((⟨.start .standard (.ofMillis 1000000000000) .standard,
      { Site.fresh .empty .absent with
        broker := Broker.empty.failSubscribe (.connectionFailed "down") }⟩ : Shift).diary
      [.work false, .meanwhile (.await Span.longestWait), .work false, .work false]).Pairwise
      (Note.Spaced (Span.ofMillis 1000000000000).nanos) := by
  intro h
  have hspaced : Note.Spaced (Span.ofMillis 1000000000000).nanos (.refused 0)
      (.opened Span.longestWait 0) := List.rel_of_pairwise_cons h (List.mem_singleton_self _)
  exact absurd (hspaced 0 rfl _ rfl) (by decide)

end Shift
end Consignment
