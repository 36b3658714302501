import Logging.Proofs.Worker.Attempts

/-!
# A worker handles what it accepted, in order

Those who offer items, the background, and those who close or stop the worker move in any order.

* `Kept`: the accepted items are those that were tried, the one in hand and those in the queue, in
  this order.
* `move_kept`, `run_kept`: a move keeps the invariant, and so does a run.
* `handled_in_order`: **at every moment the tried items are the first of the accepted ones, in
  order; when somebody has waited for the end they are all of them, and the hook ran after them.**
-/

namespace Logging.Worker

variable {α σ : Type} {w : Work α σ} {h : List (Happening α)} {s : σ}

/-! ## The invariant -/

/-- What a worker that was once made as `m₀` keeps, whatever happens to it. -/
structure Kept (m₀ m : Machine α) (h : List (Happening α)) : Prop where
  capacity : m.capacity = m₀.capacity
  policy : m.policy = m₀.policy
  hook : m.hook = m₀.hook
  room : m.queue.length ≤ m₀.capacity
  order : ∃ xs, Collapses m₀.policy.retries (tries h) xs ∧
    accepted h = xs ++ m.inHand.toList ++ m.queue
  running : m.activity = .running → hooks h = 0 ∧ ∀ o, .stopped o ∉ h
  ended : m.activity ≠ .running → m.inHand = none ∧ m.queue = [] ∧ m.isClosed ∧
    hooks h = if m₀.hook = .none then 0 else 1
  joined : m.joined → m.activity ≠ .running
  closed : m.isClosed ↔ .closed ∈ h
  follows : h.Pairwise Follows

section Follows

variable {a e : Happening α}

/-- Whatever neither accepts nor tries an item and is no hook may come at any time. -/
theorem follows_quiet (h₁ : e.accepted? = none) (h₂ : e.tried? = none) (h₃ : e.isHook = false)
    (a : Happening α) : Follows a e := by
  cases a <;> simp [Follows, h₁, h₂, h₃]

theorem follows_snoc (hf : h.Pairwise Follows) (he : ∀ a ∈ h, Follows a e) :
    (h ++ [e]).Pairwise Follows := by
  rw [List.pairwise_append]
  exact ⟨hf, List.pairwise_singleton _ _, by simpa using he⟩

end Follows

variable {m₀ m m' : Machine α}

namespace Kept

theorem isClosed_of_ended (k : Kept m₀ m h) (hc : m.isClosed = false) :
    m.activity = .running := by
  by_contra ha
  have := (k.ended ha).2.2.1
  simp [hc] at this

/-- While the worker runs, whatever accepts nothing may come. -/
theorem follows_running (k : Kept m₀ m h) (ha : m.activity = .running)
    {e : Happening α} (he : e.accepted? = none) : ∀ a ∈ h, Follows a e := by
  obtain ⟨hh, hs⟩ := k.running ha
  intro a hm
  cases a with
  | answered => trivial
  | closed => exact he
  | tried => trivial
  | hook =>
    have := List.countP_eq_zero.1 hh _ hm
    simp [Happening.isHook] at this
  | stopped o => exact absurd hm (hs o)

/-- While the queue is open, anything may come. -/
theorem follows_open (k : Kept m₀ m h) (hc : m.isClosed = false)
    (e : Happening α) : ∀ a ∈ h, Follows a e := by
  obtain ⟨hh, hs⟩ := k.running (k.isClosed_of_ended hc)
  intro a hm
  cases a with
  | answered => trivial
  | closed => have := k.closed.2 hm; simp [hc] at this
  | tried => trivial
  | hook =>
    have := List.countP_eq_zero.1 hh _ hm
    simp [Happening.isHook] at this
  | stopped o => exact absurd hm (hs o)

/-- A worker that was just made. -/
theorem start {name : String} {capacity : ℕ} {policy : Policy} {hook : Hook}
    (hm : Machine.new name capacity policy hook = .ok m₀) : Kept m₀ m₀ [] := by
  obtain ⟨-, rfl⟩ := Machine.new_ok hm
  exact
    { capacity := rfl, policy := rfl, hook := rfl, room := Nat.zero_le _
      order := ⟨[], .nil, rfl⟩, running := fun _ => ⟨rfl, by simp⟩
      ended := fun ha => absurd rfl ha, joined := fun hj => by simp at hj
      closed := by simp [Machine.isClosed], follows := .nil }

/-- Something quiet happens, and the machine changes in its counters only. -/
theorem quiet (k : Kept m₀ m h) {e : Happening α} (h₁ : e.accepted? = none)
    (h₂ : e.tried? = none) (h₃ : e.isHook = false) (h₄ : e ≠ .closed) (h₅ : ∀ o, e ≠ .stopped o)
    (c : Counters) : Kept m₀ { m with counters := c } (h ++ [e]) where
  capacity := k.capacity
  policy := k.policy
  hook := k.hook
  room := k.room
  order := by
    simpa [h₁, h₂] using k.order
  running ha := by
    obtain ⟨hh, hs⟩ := k.running ha
    refine ⟨by simp [hh, h₃], fun o ho => ?_⟩
    rcases List.mem_append.1 ho with ho | ho
    · exact hs o ho
    · exact h₅ o (by simpa using (List.mem_singleton.1 ho).symm)
  ended ha := by
    obtain ⟨hi, hq, hc, hh⟩ := k.ended ha
    exact ⟨hi, hq, hc, by simp [hh, h₃]⟩
  joined := k.joined
  closed := by
    rw [List.mem_append, List.mem_singleton, ← k.closed]
    exact ⟨.inl, fun hm => hm.resolve_right (Ne.symm h₄)⟩
  follows := follows_snoc k.follows fun a _ => follows_quiet h₁ h₂ h₃ a

end Kept

/-! ## Every move keeps it -/

/-- Offering an item keeps the invariant. -/
theorem offer_kept {c : Scene α σ} (k : Kept m₀ c.machine c.history) (x : α) :
    Kept m₀ (c.offer x).machine (c.offer x).history := by
  unfold Scene.offer
  obtain ⟨-, he⟩ | ⟨-, -, he⟩ | ⟨hc, hr, he⟩ := c.machine.submit_cases x
  · -- what is handed back changes a counter only
    rw [he]; exact k.quiet rfl rfl rfl (by simp) (by simp) _
  · rw [he]; exact k.quiet rfl rfl rfl (by simp) (by simp) _
  · -- the item goes to the end of the queue and of the accepted ones
    rw [he]
    have ha := k.isClosed_of_ended hc
    obtain ⟨hh, hs⟩ := k.running ha
    obtain ⟨xs, hxs, ho⟩ := k.order
    refine ⟨k.capacity, k.policy, k.hook, ?_, ⟨xs, ?_, ?_⟩, fun _ => ⟨?_, ?_⟩,
      fun hn => absurd ha hn, k.joined, ?_, follows_snoc k.follows (k.follows_open hc _)⟩
    · have := k.capacity
      simp only [Machine.count, List.length_append, List.length_singleton]
      omega
    · simpa [Happening.tried?] using hxs
    · simp [ho, Machine.count, Happening.accepted?]
    · simp [hh, Happening.isHook]
    · simpa using hs
    · rw [List.mem_append, List.mem_singleton]
      exact k.closed.trans ⟨.inl, fun hm => hm.resolve_right (by simp)⟩

/-- **A step of the background keeps the invariant.** -/
theorem step_kept (hp : m₀.policy.Returns) {h' : List (Happening α)} {s' : σ}
    (k : Kept m₀ m h)
    (he : m.step w.recorded (h, s) = some (m', h', s')) : Kept m₀ m' h' := by
  obtain ⟨xs, hxs, ho⟩ := k.order
  obtain ⟨ha, ⟨y, rest, hi, hq, rfl, hs⟩ | ⟨y, hi, hf⟩ | ⟨hi, hq, hc, hf⟩⟩ :=
    Machine.step_cases he
  · -- the oldest item goes from the queue into the hand
    obtain ⟨rfl, -⟩ : h' = h ∧ s' = s := by simpa using hs
    have hr := k.room
    rw [hq, List.length_cons] at hr
    exact { k with
      room := by show rest.length ≤ m₀.capacity; omega
      order := ⟨xs, hxs, by simp [ho, hi, hq]⟩
      ended := fun hn => absurd ha hn }
  · -- the item in hand is handled: its tries come to the history
    obtain ⟨c, ch, a, hm, hact⟩ := Machine.handle_eq w.recorded { m with inHand := none } y (h, s)
    obtain ⟨os, hos, hh⟩ := handle_recorded w { m with inHand := none } y h s
    obtain rfl : m' = _ := (congrArg Prod.fst hf).trans hm
    obtain rfl : h' = _ := (congrArg (fun p => p.2.1) hf).trans hh
    obtain rfl : a = .running := (hact (by simpa [k.policy] using hp)).trans ha
    obtain ⟨hh₀, hs₀⟩ := k.running ha
    -- its tries are one more block, behind those of the items before it
    rw [show ({ m with inHand := none } : Machine α).policy = m₀.policy from k.policy] at hos
    refine ⟨k.capacity, k.policy, k.hook, k.room, ⟨xs ++ [y], ?_, ?_⟩, fun _ => ⟨?_, ?_⟩,
      fun hn => absurd rfl hn, fun hj => absurd ha (k.joined hj), ?_, ?_⟩
    · simpa using hxs.item y hos
    · simp [ho, hi]
    · simp [hh₀]
    · simpa using hs₀
    · simpa [Machine.isClosed] using k.closed
    · rw [List.pairwise_append]
      refine ⟨k.follows, ?_, ?_⟩
      · rw [List.pairwise_map]
        exact List.pairwise_of_forall fun _ _ => trivial
      · intro b hb e hm
        obtain ⟨o, -, rfl⟩ := List.mem_map.1 hm
        exact k.follows_running ha rfl b hb
  · -- everything is done: the hook runs
    obtain ⟨a, hna, hfin⟩ := Machine.finish_eq w.recorded m (h, s)
    rw [hfin] at hf
    obtain rfl : m' = _ := congrArg Prod.fst hf
    have hh' : h' = if m₀.hook = .none then h else h ++ [.hook] := by
      have := congrArg (fun p => p.2.1) hf
      rw [← k.hook]
      by_cases hn : m.hook = .none
      · simpa [hn] using this
      · simpa [hn, Work.recorded] using this
    obtain ⟨hh₀, hs₀⟩ := k.running ha
    by_cases hn : m₀.hook = .none
    · rw [if_pos hn] at hh'; subst hh'
      exact { k with
        running := fun hr => absurd hr hna
        ended := fun _ => ⟨hi, hq, hc, by simp [hn, hh₀]⟩
        joined := fun _ => hna }
    · rw [if_neg hn] at hh'; subst hh'
      refine ⟨k.capacity, k.policy, k.hook, k.room, ⟨xs, ?_, ?_⟩, fun hr => absurd hr hna,
        fun _ => ⟨hi, hq, hc, ?_⟩, fun _ => hna,
        ⟨fun _ => List.mem_append_left _ (k.closed.1 hc), fun _ => hc⟩,
        follows_snoc k.follows (k.follows_running ha rfl)⟩
      · simpa [Happening.tried?] using hxs
      · simp [ho, hi, hq, Happening.accepted?]
      · simp [hn, hh₀, Happening.isHook]

/-- Closing the queue keeps the invariant. -/
theorem close_kept (k : Kept m₀ m h) :
    Kept m₀ m.close (h ++ [.closed]) := by
  have hc := Machine.close_isClosed m
  obtain ⟨p, hp⟩ := m.close_eq
  rw [hp] at hc ⊢
  refine ⟨k.capacity, k.policy, k.hook, k.room, ?_, ?_, ?_, k.joined,
    ⟨fun _ => by simp, fun _ => hc⟩, follows_snoc k.follows fun a _ => follows_quiet rfl rfl rfl a⟩
  · simpa [Happening.accepted?, Happening.tried?] using k.order
  · intro ha
    obtain ⟨hh, hs⟩ := k.running ha
    exact ⟨by simp [hh, Happening.isHook], by simpa using hs⟩
  · intro ha
    obtain ⟨hi, hq, -, hh⟩ := k.ended ha
    exact ⟨hi, hq, hc, by simp [hh, Happening.isHook]⟩

/-- Somebody has waited for the end of the background. -/
theorem Kept.stopped (k : Kept m₀ m h) (ha : m.activity ≠ .running) {j : Bool} {p : Phase}
    (hc : p ≠ .accepting) (o : Outcome) :
    Kept m₀ { m with joined := j, phase := p } (h ++ [.stopped o]) := by
  obtain ⟨hi, hq, hm, hh⟩ := k.ended ha
  have hc' : ({ m with joined := j, phase := p } : Machine α).isClosed := by
    simpa [Machine.isClosed] using hc
  refine ⟨k.capacity, k.policy, k.hook, k.room, ?_, fun hr => absurd hr ha,
    fun _ => ⟨hi, hq, hc', ?_⟩, fun _ => ha,
    ⟨fun _ => List.mem_append_left _ (k.closed.1 hm), fun _ => hc'⟩,
    follows_snoc k.follows fun a _ => follows_quiet rfl rfl rfl a⟩
  · simpa [Happening.accepted?, Happening.tried?] using k.order
  · simpa [Happening.isHook] using hh

/-- **Stopping keeps the invariant**, since the background ends, whatever is made of the outcome. -/
theorem stop_kept (hp : m₀.policy.Returns) {h' : List (Happening α)} {s' : σ} {o : Outcome}
    (k : Kept m₀ m h) (he : m.stop w.recorded (h ++ [.closed], s) = (o, m', h', s'))
    (told : Outcome) : Kept m₀ m' (h' ++ [.stopped told]) := by
  have kc := close_kept k
  have hc := Machine.close_isClosed m
  have hphase : m.close.phase ≠ .accepting := by simpa [Machine.isClosed] using hc
  unfold Machine.stop at he
  simp only at he
  split at he
  · -- somebody has waited before: the background has ended
    rename_i hj
    simp only [Prod.mk.injEq] at he
    obtain ⟨-, rfl, rfl, -⟩ := he
    exact kc.stopped (kc.joined hj) hphase told
  · -- nobody has: the worker goes on until nothing is left
    have hend := Machine.drain_ends w.recorded (h ++ [.closed], s) hc
    have kd : Kept m₀ (m.close.drain w.recorded (h ++ [.closed], s)).1
        (m.close.drain w.recorded (h ++ [.closed], s)).2.1 :=
      Machine.steps_keep (w := w.recorded)
        (P := fun (m : Machine α) (q : List (Happening α) × σ) => Kept m₀ m q.1)
        (fun k e => step_kept hp k e) _ kc
    rcases hd : m.close.drain w.recorded (h ++ [.closed], s) with ⟨m₁, h₁, s₁⟩
    rw [hd] at he hend kd
    simp only [Prod.mk.injEq] at he
    obtain ⟨-, rfl, rfl, -⟩ := he
    exact kd.stopped hend (by simp) told

/-- **A move keeps the invariant.** -/
theorem move_kept (hp : m₀.policy.Returns) {c : Scene α σ}
    (k : Kept m₀ c.machine c.history) (a : Move α) :
    Kept m₀ (c.move w a).machine (c.move w a).history := by
  -- waiting for room is an offer as soon as there is some
  cases a with
  | offer x => exact offer_kept k x
  | wait x =>
    simp only [Scene.move]
    split
    · exact k
    · exact offer_kept k x
  | advance =>
    simp only [Scene.move]
    split
    · rename_i he
      exact step_kept hp k he
    · exact k
  | close => exact close_kept k
  | stop => exact stop_kept hp k rfl _

/-- **A run keeps the invariant.** -/
theorem run_kept (hp : m₀.policy.Returns) : ∀ (ms : List (Move α)) (c : Scene α σ),
    Kept m₀ c.machine c.history →
    Kept m₀ (c.run w ms).machine (c.run w ms).history := by
  intro ms
  induction ms with
  | nil => intro c k; exact k
  | cons a ms ih => intro c k; exact ih _ (move_kept hp k a)

/-! ## What follows for its history -/

/-- **What can be seen of a worker that was once made as `m₀`**, at some moment of a run. -/
structure HandledInOrder (m₀ : Machine α) (c : Scene α σ) : Prop where
  /-- The tried items are the first of the accepted ones, in the same order. -/
  first : ∃ xs, Collapses m₀.policy.retries (tries c.history) xs ∧ xs <+: accepted c.history
  /-- Nothing is accepted once the queue was closed; once the hook ran or somebody has waited for
  the end, no item is tried and no hook runs. -/
  follows : c.history.Pairwise Follows
  /-- When somebody has waited for the end, every accepted item was tried, and the hook ran once if
  there is one. -/
  all : ∀ o, .stopped o ∈ c.history →
    Collapses m₀.policy.retries (tries c.history) (accepted c.history) ∧
      hooks c.history = if m₀.hook = .none then 0 else 1
  /-- An item that is offered now is accepted, or handed back as it is. -/
  answer : ∀ x, (c.machine.submit x).1 =
    if c.machine.isClosed then .closed x
    else if c.machine.queue.length = m₀.capacity then .full x else .accepted
  /-- The queue is closed once somebody has closed it. -/
  closed : c.machine.isClosed ↔ .closed ∈ c.history

/-- The answer to an item that is offered to a worker that keeps the invariant. -/
theorem Kept.answer (k : Kept m₀ m h) (x : α) : (m.submit x).1 =
    if m.isClosed then .closed x
    else if m.queue.length = m₀.capacity then .full x else .accepted := by
  have hcap := k.capacity
  have hroom := k.room
  obtain ⟨hc, he⟩ | ⟨hc, hf, he⟩ | ⟨hc, hf, he⟩ := m.submit_cases x
  · simp [he, hc]
  · have hlen : m.queue.length = m₀.capacity := by omega
    simp [he, hc, hlen]
  · have hlen : m.queue.length ≠ m₀.capacity := by omega
    simp [he, hc, hlen]

/-- **A worker handles what it accepted, in order.** This holds at every moment of every run: for
every capacity, every hook, every policy whose callback returns, and whatever the tries of items
come to. -/
theorem handled_in_order {name : String} {capacity : ℕ} {policy : Policy} {hook : Hook}
    (hm : Machine.new name capacity policy hook = .ok m₀) (hp : policy.Returns) (w : Work α σ)
    (s : σ) (ms : List (Move α)) :
    HandledInOrder m₀ (Scene.run w { machine := m₀, state := s } ms) := by
  have hp₀ : m₀.policy.Returns := by rw [(Machine.new_ok hm).2]; exact hp
  have k := run_kept (w := w) hp₀ ms { machine := m₀, state := s } (Kept.start hm)
  obtain ⟨xs, hxs, ho⟩ := k.order
  refine ⟨⟨xs, hxs, ?_⟩, k.follows, fun o hs => ?_, k.answer, k.closed⟩
  · rw [ho, List.append_assoc]; exact List.prefix_append _ _
  · -- once somebody has waited for the end, nothing is in hand or in the queue
    have ha : (Scene.run w { machine := m₀, state := s } ms).machine.activity ≠ .running :=
      fun hr => (k.running hr).2 o hs
    obtain ⟨hi, hq, -, hh⟩ := k.ended ha
    rw [hi, hq] at ho
    exact ⟨by simpa [ho] using hxs, hh⟩

/-- A worker for tries: every other try breaks off. -/
def everyOther : Work ℕ ℕ where
  process _ n := (if n % 2 = 0 then Outcome.panic .unreadable else .ok (), n + 1)
  notify _ n := n
  finish _ n := n

/-- Room for one item, one more try for each, and a hook: of four items that are offered, one finds
the queue full and one finds it closed. -/
theorem handled_in_order_one_more_try :
    ∃ m₀ : Machine ℕ, Machine.new "worker" 1 (.retry 1 ⟨0⟩) .runs = .ok m₀ ∧
      (Policy.retry 1 ⟨0⟩).Returns ∧
      HandledInOrder m₀ (Scene.run everyOther { machine := m₀, state := 0 }
        [.offer 7, .offer 8, .advance, .wait 9, .close, .offer 10, .stop]) ∧
      accepted (Scene.run everyOther { machine := m₀, state := 0 }
        [.offer 7, .offer 8, .advance, .wait 9, .close, .offer 10, .stop]).history = [7, 9] := by
  have hp : (Policy.retry 1 ⟨0⟩).Returns := fun _ => by simp
  have hm : Machine.new (α := ℕ) "worker" 1 (.retry 1 ⟨0⟩) .runs =
      .ok { name := "worker", capacity := 1, policy := .retry 1 ⟨0⟩, hook := .runs } := rfl
  exact ⟨_, hm, hp, handled_in_order hm hp _ _ _, rfl⟩

end Logging.Worker
