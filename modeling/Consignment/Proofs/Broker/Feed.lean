import Consignment.Proofs.Broker.Exchange

/-! What a subscription yields: first what the log holds behind the committed offsets, then whatever
comes to its topics, each once and in the order in which it comes, until the subscription is
closed. -/
namespace Consignment.Exchange

/-- What the operation brings to whoever listens to these topics. -/
def issues (topics : List String) (x : Exchange) : Op → List Item
  | .transportError error => [.error error]
  | op => ((x.accepted op).filter fun d => topics.contains d.topic).map .ok

def issued (topics : List String) : Exchange → List Op → List Item
  | _, [] => []
  | x, op :: ops => x.issues topics op ++ issued topics (x.after op) ops

/-- What the operation takes from the subscription. -/
def yields (i : Nat) (x : Exchange) : Op → List Item
  | .receive j => if j = i then (x.broker.receive i).1.item?.toList else []
  | _ => []

def yielded (i : Nat) : Exchange → List Op → List Item
  | _, [] => []
  | x, op :: ops => x.yields i op ++ yielded i (x.after op) ops

structure Feeds (i : Nat) (x : Exchange) (op : Op) (sub sub' : Subscription) : Prop where
  found : (x.after op).broker.subscriptions[i]? = some sub'
  topics : sub'.topics = sub.topics
  live : sub'.live = (sub.live && decide (op ≠ .close))
  items : x.yields i op ++ sub'.queue =
    sub.queue ++ if sub.live then x.issues sub.topics op else []

section Steps
variable {i : Nat} {x : Exchange} {sub : Subscription}

theorem feeds_of_same {op : Op} (hfound : (x.after op).broker.subscriptions[i]? = some sub)
    (hop : op ≠ .close) (hyields : x.yields i op = []) (hissues : x.issues sub.topics op = []) :
    Feeds i x op sub sub := by
  refine ⟨hfound, rfl, by simp [hop], ?_⟩
  rw [hyields, hissues]
  simp

theorem issues_eq_nil {op : Op} (herror : ∀ error, op ≠ .transportError error)
    (hlog : (x.after op).broker.log.length ≤ x.broker.log.length) (topics : List String) :
    x.issues topics op = [] := by
  have hnone := accepted_eq_nil hlog
  cases op with
  | transportError error => exact absurd rfl (herror error)
  | _ => simp only [issues, hnone, List.filter_nil, List.map_nil]

theorem feeds_publish (h : x.broker.subscriptions[i]? = some sub) (now : Nat) (topic key : String)
    (payload : Bytes) : ∃ sub', Feeds i x (.publish now topic key payload) sub sub' := by
  cases hscript : x.broker.publishFailures with
  | cons e es =>
    refine ⟨sub, feeds_of_same ?_ (by simp) rfl (issues_eq_nil (by simp) ?_ _)⟩ <;>
      simp [after, onBroker, Broker.publish, hscript, h]
  | nil =>
    have hfound : (x.after (.publish now topic key payload)).broker.subscriptions[i]? =
        some (sub.offerOn topic ⟨topic, some key, payload, 0, x.broker.nextOffset topic⟩) := by
      simp [after, onBroker, Broker.publish, hscript, Broker.accept, Broker.nextOffset, h]
    refine ⟨_, hfound, by simp, by simp, ?_⟩
    · simp only [yields, issues, accepted_publish x now topic key payload hscript,
        Subscription.offerOn, Subscription.offer]
      cases hlive : sub.live <;> cases htopic : sub.topics.contains topic <;> simp_all

theorem feeds_receive (h : x.broker.subscriptions[i]? = some sub) (j : Nat) :
    ∃ sub', Feeds i x (.receive j) sub sub' := by
  have hlog : (x.after (.receive j)).broker.log.length ≤ x.broker.log.length := by
    simp only [after, Broker.receive]
    split <;> exact Nat.le_refl _
  have hissues : x.issues sub.topics (.receive j) = [] := issues_eq_nil (by simp) hlog _
  by_cases hij : j = i
  · subst hij
    obtain ⟨hj, hget⟩ := List.getElem?_eq_some_iff.1 h
    have hfound : (x.after (.receive j)).broker.subscriptions[j]? = some sub.receive.2 := by
      simp [after, Broker.receive, hj, hget]
    refine ⟨_, hfound, ?_, ?_, ?_⟩
    · unfold Subscription.receive
      split <;> rfl
    · unfold Subscription.receive
      split <;> simp
    · rw [hissues]
      simp only [yields, if_true, Broker.receive, h, Subscription.receive]
      cases hq : sub.queue with
      | cons item queue => simp [Received.item?]
      | nil => cases hlive : sub.live <;> simp [Received.item?, hq]
  · refine ⟨sub, feeds_of_same ?_ (by simp) (if_neg hij) hissues⟩
    simp only [after, Broker.receive]
    split
    · exact h
    · simpa [List.getElem?_set_ne hij] using h

theorem feeds (h : x.broker.subscriptions[i]? = some sub) {op : Op} (hop : op ≠ .drop i) :
    ∃ sub', Feeds i x op sub sub' := by
  obtain ⟨hi, -⟩ := List.getElem?_eq_some_iff.1 h
  cases op with
  | publish now topic key payload => exact feeds_publish h now topic key payload
  | receive j => exact feeds_receive h j
  | failPublish errors =>
    exact ⟨sub, feeds_of_same h (by simp) rfl (issues_eq_nil (by simp) (Nat.le_refl _) _)⟩
  | failSubscribe error =>
    exact ⟨sub, feeds_of_same h (by simp) rfl (issues_eq_nil (by simp) (Nat.le_refl _) _)⟩
  | subscribe topics =>
    refine ⟨sub, feeds_of_same ?_ (by simp) rfl (issues_eq_nil (by simp) ?_ _)⟩
    · simp only [after, onBroker, Broker.subscribe]
      split
      · exact h
      · rw [List.getElem?_append_left hi]
        exact h
    · simp only [after, onBroker, Broker.subscribe]
      split <;> exact Nat.le_refl _
  | acknowledge k =>
    have hsame : (x.after (.acknowledge k)).broker.subscriptions = x.broker.subscriptions ∧
        (x.after (.acknowledge k)).broker.log = x.broker.log := by
      simp only [after]
      split <;> exact ⟨rfl, rfl⟩
    refine ⟨sub, feeds_of_same ?_ (by simp) rfl (issues_eq_nil (by simp) ?_ _)⟩
    · rw [hsame.1]
      exact h
    · exact hsame.2 ▸ Nat.le_refl _
  | transportError error =>
    have hfound : (x.after (.transportError error)).broker.subscriptions[i]? =
        some (sub.offer (.error error)) := by
      simp [after, onBroker, Broker.transportError, h]
    refine ⟨_, hfound, by simp, by simp, ?_⟩
    · simp only [yields, issues, Subscription.offer]
      cases hlive : sub.live <;> simp
  | close =>
    have hfound : (x.after .close).broker.subscriptions[i]? = some sub.close := by
      simp [after, onBroker, Broker.close, h]
    have hissues : x.issues sub.topics .close = [] := issues_eq_nil (by simp) (Nat.le_refl _) _
    refine ⟨_, hfound, rfl, by simp [Subscription.close], ?_⟩
    rw [hissues]
    simp [yields, Subscription.close]
  | drop j =>
    have hji : j ≠ i := fun heq => hop (congrArg Op.drop heq)
    refine ⟨sub, feeds_of_same ?_ (by simp) rfl (issues_eq_nil (by simp) (Nat.le_refl _) _)⟩
    simpa [after, onBroker, Broker.drop, hji] using h
  | clear =>
    exact ⟨sub, feeds_of_same h (by simp) rfl (issues_eq_nil (by simp) (Nat.zero_le _) _)⟩

end Steps

theorem feeds_all {i : Nat} {x : Exchange} {sub : Subscription}
    (h : x.broker.subscriptions[i]? = some sub) {ops : List Op} (hops : .drop i ∉ ops) :
    ∃ sub', (x.afterAll ops).broker.subscriptions[i]? = some sub' ∧
      sub'.live = (sub.live && decide (.close ∉ ops)) ∧
      x.yielded i ops ++ sub'.queue = sub.queue ++
        if sub.live then x.issued sub.topics (ops.takeWhile (· ≠ .close)) else [] := by
  induction ops generalizing x sub with
  | nil => exact ⟨sub, h, by simp, by simp [yielded, issued]⟩
  | cons op ops ih =>
    obtain ⟨hop, hops⟩ : .drop i ≠ op ∧ .drop i ∉ ops := by simpa using hops
    obtain ⟨next, hnext⟩ := feeds h hop.symm
    obtain ⟨sub', hfound, hlive, hitems⟩ := ih hnext.found hops
    refine ⟨sub', hfound, ?_, ?_⟩
    · rw [hlive, hnext.live]
      cases sub.live <;> simp [eq_comm]
    · rw [yielded, List.append_assoc, hitems, ← List.append_assoc, hnext.items, hnext.topics,
        hnext.live, List.append_assoc]
      congr 1
      cases hl : sub.live with
      | false => simp
      | true =>
        by_cases hclose : op = .close
        · subst hclose
          have hissues : x.issues sub.topics .close = [] :=
            issues_eq_nil (by simp) (Nat.le_refl _) _
          simp [issued, hissues]
        · simp [hclose, issued]

/-- Whatever happens after a subscription is opened, it has yielded a front of the backlog and of
all that came since, and yields the next of it next. Only when nothing of it is left does it end,
and only if it was closed. -/
theorem subscription_complete (x : Exchange) (topics : List String) (ops : List Op)
    (hopen : x.broker.subscribeFailures = [])
    (hkept : .drop x.broker.subscriptions.length ∉ ops) :
    let i := x.broker.subscriptions.length
    let opened := x.after (.subscribe topics)
    let backlog := x.broker.log.filter fun d =>
      topics.contains d.topic && x.broker.committedOffset d.topic ≤ d.offset
    let all := backlog.map .ok ++ opened.issued topics (ops.takeWhile (· ≠ .close))
    let got := opened.yielded i ops
    (x.broker.subscribe topics).1 = .ok i ∧ got <+: all ∧
    ((opened.afterAll ops).broker.receive i).1 = match all[got.length]? with
      | some item => .item item
      | none => if .close ∈ ops then .ended else .pending := by
  intro i opened backlog all got
  have hfirst : opened.broker.subscriptions[i]? = some ⟨topics, backlog.map .ok, true⟩ := by
    simp [opened, i, after, onBroker, Broker.subscribe, hopen, backlog, Broker.backlog]
  obtain ⟨sub, hfound, hlive, hitems⟩ := feeds_all hfirst hkept
  have hall : got ++ sub.queue = all := hitems
  refine ⟨by simp [Broker.subscribe, hopen, i], ⟨sub.queue, hall⟩, ?_⟩
  rw [← hall, List.getElem?_append_right (Nat.le_refl _), Nat.sub_self]
  simp only [Broker.receive, hfound, Subscription.receive]
  cases hq : sub.queue with
  | cons item queue => rfl
  | nil => by_cases hclose : Op.close ∈ ops <;> simp [hlive, hclose]

/-- A message of a new log, after the log that the subscription was opened on was forgotten. -/
theorem subscription_complete_across_a_clear :
    let x := empty.afterAll [.publish 0 "A" "K" [1], .publish 0 "A" "K" [2],
      .publish 0 "B" "K" [3], .subscribe ["A"], .receive 0, .acknowledge 0]
    let ops := [.receive 1, .clear, .transportError (.transport "down"), .publish 0 "A" "K" [4],
      .close, .receive 1, .publish 0 "A" "K" [5]]
    let opened := x.after (.subscribe ["A", "A"])
    x.broker.subscribeFailures = [] ∧ .drop x.broker.subscriptions.length ∉ ops ∧
      opened.yielded 1 ops = [.ok ⟨"A", some "K", [2], 0, 1⟩, .error (.transport "down")] ∧
      ((opened.afterAll ops).broker.receive 1).1 = .item (.ok ⟨"A", some "K", [4], 0, 0⟩) := by
  intro x ops opened
  have hopen : x.broker.subscribeFailures = [] := rfl
  have hkept : .drop x.broker.subscriptions.length ∉ ops := by decide +kernel
  exact ⟨hopen, hkept, rfl, (subscription_complete x ["A", "A"] ops hopen hkept).2.2⟩

end Consignment.Exchange
