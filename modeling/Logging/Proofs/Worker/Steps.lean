import Mathlib.Data.List.Basic
import Logging.Worker.Machine

/-!
# The steps of a worker

What one step can do, said once, and what follows for several.

* `Machine.submit_cases`: an offered item is queued, or handed back with only a counter moved.
* `Machine.step_cases`: a step takes the oldest item, handles the item in hand, or ends a closed and
  empty worker.
* `Machine.drain_ends`: a closed worker that does everything there is to do comes to its end.
* `Machine.stop_works`: a worker whose items are handled well hands them all over before it ends.
-/

namespace Logging.Worker

variable {α σ : Type} {w : Work α σ} {m m' : Machine α} {s s' : σ} {x : α}

/-- The callback of the policy, if it has one, returns. -/
def Policy.Returns (p : Policy) : Prop := ∀ e, p ≠ .callback (some e)

namespace Machine

/-- A worker that was just made: it has room for something, and nothing has happened. -/
theorem new_ok {name : String} {capacity : ℕ} {policy : Policy} {hook : Hook}
    (h : Machine.new name capacity policy hook = .ok m) :
    0 < capacity ∧ m = { name, capacity, policy, hook } := by
  unfold Machine.new at h
  split at h
  · cases h
  split at h
  · cases h
  · cases h
    exact ⟨by omega, rfl⟩

theorem submit_closed (h : m.isClosed) : m.submit x = (.closed x, m.count .rejected) := by
  simp [submit, h]

theorem submit_full (h : m.isClosed = false) (hf : m.capacity ≤ m.queue.length) :
    m.submit x = (.full x, m.count .rejected) := by
  simp [submit, h, isFull, hf]

theorem submit_accepted (h : m.isClosed = false) (hf : m.queue.length < m.capacity) :
    m.submit x = (.accepted, { m with queue := m.queue ++ [x] }.count .submitted) := by
  have : ¬ m.capacity ≤ m.queue.length := by omega
  simp [submit, h, isFull, this]

/-- **An offered item** is handed back, and nothing but a counter moves, or it is queued. -/
theorem submit_cases (m : Machine α) (x : α) :
    (m.isClosed ∧ m.submit x = (.closed x, m.count .rejected)) ∨
    (m.isClosed = false ∧ m.capacity ≤ m.queue.length ∧
      m.submit x = (.full x, m.count .rejected)) ∨
    (m.isClosed = false ∧ m.queue.length < m.capacity ∧
      m.submit x = (.accepted, { m with queue := m.queue ++ [x] }.count .submitted)) := by
  by_cases hc : m.isClosed
  · exact .inl ⟨hc, submit_closed hc⟩
  rw [Bool.not_eq_true] at hc
  rcases Nat.lt_or_ge m.queue.length m.capacity with hf | hf
  · exact .inr (.inr ⟨hc, hf, submit_accepted hc hf⟩)
  · exact .inr (.inl ⟨hc, hf, submit_full hc hf⟩)

/-- Disposing of a fault moves counters, the channel and perhaps the activity. -/
theorem dispose_eq (w : Work α σ) (m : Machine α) (f : Fault) (s : σ) :
    ∃ c ch a, (dispose w m f s).1 = { m with counters := c, channel := ch, activity := a } ∧
      (m.policy.Returns → a = m.activity) := by
  unfold dispose
  split
  · exact ⟨_, _, _, rfl, fun _ => rfl⟩
  · exact ⟨_, _, _, rfl, fun _ => rfl⟩
  · split
    · exact ⟨_, _, _, rfl, fun _ => rfl⟩
    · exact ⟨_, _, _, rfl, fun _ => rfl⟩
  · exact ⟨_, _, _, rfl, fun _ => rfl⟩
  · rename_i p hp
    exact ⟨_, _, _, rfl, fun h => absurd hp (h p)⟩

/-- Disposing of a fault does nothing else than to tell the callback. -/
theorem dispose_state (w : Work α σ) (m : Machine α) (f : Fault) (s : σ) :
    (dispose w m f s).2 = s ∨ (dispose w m f s).2 = w.notify f s := by
  unfold dispose
  split
  · exact .inl rfl
  · exact .inl rfl
  · split <;> exact .inl rfl
  · exact .inr rfl
  · exact .inr rfl

/-- **Handling an item** moves counters, the channel and perhaps the activity. -/
theorem handle_eq (w : Work α σ) (m : Machine α) (x : α) (s : σ) :
    ∃ c ch a, (handle w m x s).1 = { m with counters := c, channel := ch, activity := a } ∧
      (m.policy.Returns → a = m.activity) := by
  unfold handle
  rcases attempts w m.name x m.policy.retries m.counters s with ⟨_ | f, c, t⟩
  · exact ⟨_, _, _, rfl, fun _ => rfl⟩
  · exact dispose_eq w { m with counters := c } f t

/-- An item that is handled well the first time moves one counter. -/
theorem handle_ok (h : w.process x s = (.ok (), s')) :
    handle w m x s = ({ m with counters := m.counters.bump .processed }, s') := by
  have ha : attempt w m.name x s = (.ok (), s') := by simp [attempt, h]
  unfold handle
  cases hr : m.policy.retries <;> simp [attempts, ha]

/-- The end of the background: it no longer runs, and the hook ran if there is one. -/
theorem finish_eq (w : Work α σ) (m : Machine α) (s : σ) :
    ∃ a, a ≠ .running ∧
      finish w m s =
        ({ m with activity := a }, if m.hook = .none then s else w.finish m.hook s) := by
  unfold finish
  cases hh : m.hook with
  | none => exact ⟨.finished, by simp, by simp⟩
  | runs => exact ⟨.finished, by simp, by simp⟩
  | breaks p => exact ⟨.crashed p, by simp, by simp⟩

/-- **What one step can do.** -/
theorem step_cases (h : m.step w s = some (m', s')) :
    m.activity = .running ∧
    ((∃ y rest, m.inHand = none ∧ m.queue = y :: rest ∧
        m' = { m with inHand := some y, queue := rest } ∧ s' = s) ∨
      (∃ y, m.inHand = some y ∧ (m', s') = handle w { m with inHand := none } y s) ∨
      (m.inHand = none ∧ m.queue = [] ∧ m.isClosed ∧ (m', s') = finish w m s)) := by
  unfold step at h
  split at h
  · cases h
  rename_i ha
  refine ⟨by simpa using ha, ?_⟩
  split at h
  · rename_i y hy
    exact .inr (.inl ⟨y, hy, by simpa using h.symm⟩)
  · rename_i y rest hy hq
    simp only [Option.some.injEq, Prod.mk.injEq] at h
    exact .inl ⟨y, rest, hy, hq, h.1.symm, h.2.symm⟩
  · rename_i hy hq
    split at h
    · rename_i hc
      exact .inr (.inr ⟨hy, hq, hc, by simpa using h.symm⟩)
    · cases h

/-- A step neither closes the queue nor waits for the end. -/
theorem step_fixed (h : m.step w s = some (m', s')) :
    m'.phase = m.phase ∧ m'.joined = m.joined := by
  obtain ⟨-, ⟨y, rest, -, -, rfl, -⟩ | ⟨y, -, he⟩ | ⟨-, -, -, he⟩⟩ := step_cases h
  · exact ⟨rfl, rfl⟩
  · obtain ⟨c, ch, a, hm, -⟩ := handle_eq w { m with inHand := none } y s
    obtain rfl : m' = _ := (congrArg Prod.fst he).trans hm
    exact ⟨rfl, rfl⟩
  · obtain ⟨a, -, hf⟩ := finish_eq w m s
    rw [hf] at he
    obtain rfl : m' = _ := congrArg Prod.fst he
    exact ⟨rfl, rfl⟩

/-- Nothing is left to do: the background has ended, or it waits for items. -/
theorem step_none (h : m.step w s = none) :
    m.activity ≠ .running ∨ (m.inHand = none ∧ m.queue = [] ∧ m.isClosed = false) := by
  unfold step at h
  split at h
  · exact .inl (by assumption)
  split at h
  · cases h
  · cases h
  · rename_i hy hq
    split at h
    · cases h
    · rename_i hc
      exact .inr ⟨hy, hq, by simpa using hc⟩

/-- What every step keeps, several steps keep. -/
theorem steps_keep {P : Machine α → σ → Prop}
    (hstep : ∀ {m s m' s'}, P m s → m.step w s = some (m', s') → P m' s') :
    ∀ (n : ℕ) {m : Machine α} {s : σ}, P m s → P (m.steps w n s).1 (m.steps w n s).2 := by
  intro n
  induction n with
  | zero => intro m s h; exact h
  | succ n ih =>
    intro m s h
    unfold steps
    cases e : m.step w s with
    | none => exact h
    | some r => exact ih (hstep h e)

/-- A closed worker stays closed, and each of its steps leaves less to do. -/
theorem step_remaining (hc : m.isClosed) (h : m.step w s = some (m', s')) :
    m'.isClosed ∧ (m'.activity ≠ .running ∨ m'.remaining < m.remaining) := by
  obtain ⟨-, ⟨y, rest, hi, hq, rfl, -⟩ | ⟨y, hi, he⟩ | ⟨-, -, -, he⟩⟩ := step_cases h
  · refine ⟨hc, .inr ?_⟩
    simp only [remaining, hq, hi, List.length_cons, Option.toList_some, Option.toList_none,
      List.length_nil]
    omega
  · obtain ⟨c, ch, a, hm, -⟩ := handle_eq w { m with inHand := none } y s
    obtain rfl : m' = _ := (congrArg Prod.fst he).trans hm
    exact ⟨hc, .inr (by simp [remaining, hi])⟩
  · obtain ⟨a, ha, hf⟩ := finish_eq w m s
    rw [hf] at he
    obtain rfl : m' = _ := congrArg Prod.fst he
    exact ⟨hc, .inl ha⟩

theorem steps_end (w : Work α σ) : ∀ (n : ℕ) (m : Machine α) (s : σ), m.isClosed →
    m.remaining ≤ n → (m.steps w n s).1.activity ≠ .running := by
  intro n
  induction n with
  | zero => intro m s _ hn; simp [remaining] at hn
  | succ n ih =>
    intro m s hc hn
    unfold steps
    cases e : m.step w s with
    | none =>
      rcases step_none e with h | ⟨-, -, h⟩
      · exact h
      · simp [hc] at h
    | some r =>
      obtain ⟨hc', h | h⟩ := step_remaining hc (show m.step w s = some (r.1, r.2) from e)
      · -- nothing moves any more once the background has ended
        have hstay : ∀ k t, (r.1.steps w k t).1 = r.1 := by
          intro k t
          cases k with
          | zero => rfl
          | succ k => simp [steps, step, h]
        show (r.1.steps w n r.2).1.activity ≠ .running
        rw [hstay]; exact h
      · exact ih r.1 r.2 hc' (by omega)

/-- **A closed worker that does everything there is to do comes to its end.** -/
theorem drain_ends (w : Work α σ) (s : σ) (hc : m.isClosed) :
    (m.drain w s).1.activity ≠ .running :=
  steps_end w _ m s hc (Nat.le_refl _)

@[simp] theorem close_isClosed (m : Machine α) : m.close.isClosed := by
  cases hp : m.phase <;> simp [close, isClosed, hp]

theorem isClosed_congr (h : m'.phase = m.phase) : m'.isClosed = m.isClosed := by
  simp [isClosed, h]

/-- Closing changes nothing but the phase. -/
theorem close_eq (m : Machine α) : ∃ p, m.close = { m with phase := p } := by
  unfold close
  split
  · exact ⟨_, rfl⟩
  · exact ⟨m.phase, rfl⟩

theorem close_closed (h : m.isClosed) : m.close = m := by
  unfold close
  split
  · rename_i hp
    simp [isClosed, hp] at h
  · rfl

/-- Whoever has stopped a worker has waited for its end. -/
theorem stop_joined (w : Work α σ) (m : Machine α) (s : σ) : (m.stop w s).2.1.joined := by
  unfold stop
  dsimp only
  split
  · assumption
  · rfl

end Machine

/-! ## Items that are handled well -/

/-- Items that are handled well, one after the other, the first time. -/
def Work.Handles (w : Work α σ) : List α → σ → σ → Prop
  | [], s, s' => s' = s
  | x :: xs, s, s' => ∃ t, w.process x s = (.ok (), t) ∧ w.Handles xs t s'

/-- A closed worker handles what waits and then ends. -/
theorem Machine.steps_handles : ∀ {xs : List α} {m : Machine α} {s : σ}, m.queue = xs →
    m.inHand = none → m.activity = .running → m.isClosed → w.Handles xs s s' →
    ∃ c, m.steps w (2 * xs.length + 1) s =
      Machine.finish w { m with queue := [], counters := c } s' := by
  intro xs
  induction xs with
  | nil =>
    intro m s hq hi hr hc h
    obtain rfl : s' = s := h
    have hm : { m with queue := [], counters := m.counters } = m := by rw [← hq]
    have hstep : m.step w s' = some (Machine.finish w m s') := by
      simp [Machine.step, hr, hi, hq, hc]
    exact ⟨m.counters, by rw [hm]; simp [Machine.steps, hstep]⟩
  | cons x xs ih =>
    intro m s hq hi hr hc h
    obtain ⟨t, hx, h⟩ := h
    obtain ⟨c, hs⟩ := ih (m := { m with queue := xs, counters := m.counters.bump .processed })
      rfl hi hr hc h
    refine ⟨c, ?_⟩
    rw [← hs, show 2 * (x :: xs).length + 1 = 2 * xs.length + 1 + 1 + 1 by simp; omega]
    -- it takes the item and handles it
    have htake : m.step w s = some ({ m with inHand := some x, queue := xs }, s) := by
      simp [Machine.step, hr, hi, hq]
    have hhandle : Machine.step w { m with inHand := some x, queue := xs } s =
        some ({ m with queue := xs, counters := m.counters.bump .processed }, t) := by
      simp [Machine.step, hr, Machine.handle_ok hx, ← hi]
    rw [Machine.steps, htake]
    simp only
    rw [Machine.steps, hhandle]

/-- A worker that is stopped while its items can be handled ends well. -/
theorem Machine.stop_works (hr : m.activity = .running) (hi : m.inHand = none)
    (hj : m.joined = false) (hh : ∀ p, m.hook ≠ .breaks p) (h : w.Handles m.queue s s') :
    ∃ m', m.stop w s = (.ok (), m', if m.hook = .none then s' else w.finish m.hook s') := by
  obtain ⟨p, hp⟩ := m.close_eq
  have hc := m.close_isClosed
  rw [hp] at hc
  obtain ⟨c, hs⟩ := steps_handles (m := { m with phase := p }) rfl hi hr hc h
  have hend : Machine.finish w { m with phase := p, queue := [], counters := c } s' =
      ({ m with phase := p, queue := [], counters := c, activity := .finished },
        if m.hook = .none then s' else w.finish m.hook s') := by
    unfold Machine.finish
    cases hook : m.hook with
    | none => simp
    | runs => simp
    | breaks q => exact absurd hook (hh q)
  have hrem : Machine.remaining { m with phase := p } = 2 * m.queue.length + 1 := by
    simp [Machine.remaining, hi]
  have hdrain : Machine.drain w { m with phase := p } s =
      ({ m with phase := p, queue := [], counters := c, activity := .finished },
        if m.hook = .none then s' else w.finish m.hook s') := by
    rw [Machine.drain, hrem, ← hend]
    exact hs
  refine ⟨{ m with
    phase := .stopped, queue := [], counters := c, activity := .finished, joined := true }, ?_⟩
  unfold Machine.stop
  rw [hp]
  dsimp only
  rw [if_neg (by simp [hj]), hdrain]
  rfl

end Logging.Worker
