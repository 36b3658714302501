import Logging.Proofs.Worker.Drain
import Logging.Sink.Queue

/-!
# A worker whose background has ended

The background ends when the queue is closed and empty, or when something breaks off outside of the
handling of an item: the hook, or the callback of the policy. Only the callback may do so while the
queue is still open.

* `Guarded`: while the queue is open the background runs, unless a callback broke off.
* `move_guarded`, `run_guarded`: a move keeps this, and so does a run.
* `move_ended`: nothing is tried any more once the background has ended, and a closed queue stays
  closed.
* `Over`: what holds of a worker that has ended.
* `ended_accepts_nothing`: **with a callback that returns, a worker whose background has ended
  accepts nothing.**
* `crashed_callback_accepts`: with one that breaks off, it does.
-/

namespace Logging.Worker

variable {α σ : Type} {w : Work α σ} {m₀ m m' : Machine α} {s s' : σ}

/-! ## How the background may end -/

/-- A fault leaves the background as it is, unless the callback that gets it breaks off. -/
theorem Machine.dispose_activity (w : Work α σ) (m : Machine α) (f : Fault) (s : σ) :
    (m.dispose w f s).1.activity = m.activity ∨
      ∃ p, m.policy = .callback (some p) ∧ (m.dispose w f s).1.activity = .crashed p := by
  unfold Machine.dispose
  split
  · exact .inl rfl
  · exact .inl rfl
  · left; split <;> rfl
  · exact .inl rfl
  · rename_i p hp
    exact .inr ⟨p, hp, rfl⟩

theorem Machine.handle_activity (w : Work α σ) (m : Machine α) (x : α) (s : σ) :
    (m.handle w x s).1.activity = m.activity ∨
      ∃ p, m.policy = .callback (some p) ∧ (m.handle w x s).1.activity = .crashed p := by
  unfold Machine.handle
  rcases attempts w m.name x m.policy.retries m.counters s with ⟨_ | f, c, t⟩
  · exact .inl rfl
  · exact Machine.dispose_activity w { m with counters := c } f t

/-- **While the queue is open the background runs, unless a callback broke off.** -/
structure Guarded (b : Policy) (m : Machine α) : Prop where
  policy : m.policy = b
  running : m.isClosed = false →
    m.activity = .running ∨ ∃ p, b = .callback (some p) ∧ m.activity = .crashed p

variable {b : Policy}

theorem Guarded.of_closed (hp : m.policy = b) (hc : m.isClosed) : Guarded b m :=
  ⟨hp, fun ho => by simp [hc] at ho⟩

theorem step_guarded (k : Guarded b m) (he : m.step w s = some (m', s')) :
    Guarded b m' := by
  obtain ⟨ha, ⟨y, rest, -, -, rfl, -⟩ | ⟨y, -, hf⟩ | ⟨-, -, hc, hf⟩⟩ := Machine.step_cases he
  · exact ⟨k.policy, fun _ => .inl ha⟩
  · -- only the callback of the policy breaks off while an item is handled
    obtain ⟨c, ch, a, hm, -⟩ := Machine.handle_eq w { m with inHand := none } y s
    have hact := Machine.handle_activity w { m with inHand := none } y s
    rw [← hf] at hact hm
    obtain rfl : m' = _ := hm
    refine ⟨k.policy, fun _ => ?_⟩
    rcases hact with hsame | ⟨p, hp, hcrash⟩
    · exact .inl (hsame.trans ha)
    · exact .inr ⟨p, k.policy.symm.trans hp, hcrash⟩
  · -- the hook may break off, but it runs behind a closed queue
    obtain ⟨a, -, hfin⟩ := Machine.finish_eq w m s
    rw [hfin] at hf
    obtain rfl : m' = _ := congrArg Prod.fst hf
    exact .of_closed k.policy hc

theorem close_guarded (k : Guarded b m) : Guarded b m.close := by
  obtain ⟨p, hp⟩ := m.close_eq
  have hpolicy : m.close.policy = b := by rw [hp]; exact k.policy
  exact .of_closed hpolicy m.close_isClosed

theorem offer_guarded {c : Scene α σ} (k : Guarded b c.machine) (x : α) :
    Guarded b (c.offer x).machine := by
  unfold Scene.offer
  obtain ⟨-, he⟩ | ⟨-, -, he⟩ | ⟨-, -, he⟩ := c.machine.submit_cases x
  all_goals rw [he]; exact ⟨k.policy, k.running⟩

theorem move_guarded {c : Scene α σ} (k : Guarded b c.machine) (a : Move α) :
    Guarded b (c.move w a).machine := by
  cases a with
  | offer x => exact offer_guarded k x
  | wait x =>
    simp only [Scene.move]
    split
    · exact k
    · exact offer_guarded k x
  | advance =>
    simp only [Scene.move]
    split
    · rename_i he
      exact step_guarded k he
    · exact k
  | close => exact close_guarded k
  | stop =>
    have kc := close_guarded k
    simp only [Scene.move, Machine.stop]
    split
    · exact kc
    · have kd := Machine.steps_keep (w := w.recorded) (P := fun m _ => Guarded b m)
        (fun k e => step_guarded k e) c.machine.close.remaining (s := (c.history ++ [.closed], c.state))
        kc
      exact .of_closed kd.policy rfl

theorem run_guarded : ∀ (ms : List (Move α)) (c : Scene α σ), Guarded b c.machine →
    Guarded b (c.run w ms).machine := by
  intro ms
  induction ms with
  | nil => intro c k; exact k
  | cons a ms ih => intro c k; exact ih _ (move_guarded k a)

/-! ## Afterwards -/

/-- What stays as it is once the background has ended. -/
structure Unmoved (c c' : Scene α σ) : Prop where
  activity : c'.machine.activity = c.machine.activity
  tries : tries c'.history = tries c.history
  hooks : hooks c'.history = hooks c.history
  /-- A closed queue stays closed and accepts nothing. -/
  closed : c.machine.isClosed → c'.machine.isClosed ∧ accepted c'.history = accepted c.history

theorem Unmoved.refl (c : Scene α σ) : Unmoved c c := ⟨rfl, rfl, rfl, fun hc => ⟨hc, rfl⟩⟩

theorem Unmoved.trans {c c' c'' : Scene α σ} (h : Unmoved c c') (h' : Unmoved c' c'') :
    Unmoved c c'' where
  activity := h'.activity.trans h.activity
  tries := h'.tries.trans h.tries
  hooks := h'.hooks.trans h.hooks
  closed hc := by
    obtain ⟨hc', ha⟩ := h.closed hc
    obtain ⟨hc'', ha'⟩ := h'.closed hc'
    exact ⟨hc'', ha'.trans ha⟩

/-- Something happens that neither accepts nor tries an item and is no hook. -/
theorem Unmoved.quiet {c : Scene α σ} {m : Machine α} {e : Happening α}
    (ha : m.activity = c.machine.activity) (hc : c.machine.isClosed → m.isClosed)
    (h₁ : e.accepted? = none) (h₂ : e.tried? = none) (h₃ : e.isHook = false) :
    Unmoved c ⟨m, c.history ++ [e], c.state⟩ :=
  ⟨ha, by simp [h₂], by simp [h₃], fun h => ⟨hc h, by simp [h₁]⟩⟩

theorem offer_unmoved (c : Scene α σ) (x : α) : Unmoved c (c.offer x) := by
  unfold Scene.offer
  obtain ⟨-, he⟩ | ⟨-, -, he⟩ | ⟨ho, -, he⟩ := c.machine.submit_cases x
  · rw [he]; exact .quiet rfl id rfl rfl rfl
  · rw [he]; exact .quiet rfl id rfl rfl rfl
  · rw [he]
    exact ⟨rfl, by simp [Happening.tried?], by simp [Happening.isHook],
      fun hc => absurd hc (by simp [ho])⟩

theorem close_unmoved (c : Scene α σ) :
    Unmoved c ⟨c.machine.close, c.history ++ [.closed], c.state⟩ := by
  have hc := c.machine.close_isClosed
  obtain ⟨p, hp⟩ := c.machine.close_eq
  exact .quiet (by rw [hp]) (fun _ => hc) rfl rfl rfl

/-- **Once the background has ended**, a move tries nothing. -/
theorem move_ended {c : Scene α σ} (hend : c.machine.activity ≠ .running) (a : Move α) :
    Unmoved c (c.move w a) := by
  have hstep : ∀ (m : Machine α) (q : List (Happening α) × σ), m.activity ≠ .running →
      m.step w.recorded q = none := fun m q h => by simp [Machine.step, h]
  cases a with
  | offer x => exact offer_unmoved c x
  | wait x =>
    simp only [Scene.move]
    split
    · exact .refl c
    · exact offer_unmoved c x
  | advance =>
    simp only [Scene.move, hstep c.machine (c.history, c.state) hend]
    exact .refl c
  | close => exact close_unmoved c
  | stop =>
    have hclose := close_unmoved c
    have hcend : c.machine.close.activity ≠ .running := by rw [hclose.activity]; exact hend
    have hdrain : ∀ q, c.machine.close.drain w.recorded q = (c.machine.close, q) := by
      intro q
      simp [Machine.drain, Machine.remaining, Machine.steps, hstep _ q hcend]
    simp only [Scene.move, Machine.stop, hdrain]
    split
    · exact hclose.trans (.quiet rfl id rfl rfl rfl)
    · exact hclose.trans (.quiet rfl (fun _ => rfl) rfl rfl rfl)

theorem run_ended : ∀ (ms : List (Move α)) (c : Scene α σ), c.machine.activity ≠ .running →
    Unmoved c (c.run w ms) := by
  intro ms
  induction ms with
  | nil => intro c _; exact .refl c
  | cons a ms ih =>
    intro c hend
    have hmove := move_ended (w := w) hend a
    exact hmove.trans (ih _ (by rw [hmove.activity]; exact hend))

/-! ## What an ended worker accepts -/

/-- **What holds of a worker whose background has ended**, if it was once made as `m₀`. -/
structure Over (w : Work α σ) (m₀ : Machine α) (c : Scene α σ) : Prop where
  /-- The queue is closed, unless the callback of the policy has broken off. -/
  closed : c.machine.isClosed ∨
    ∃ p, m₀.policy = .callback (some p) ∧ c.machine.activity = .crashed p
  /-- If it is closed, whatever is offered from now on is handed back. -/
  refuses : c.machine.isClosed → ∀ ms, accepted (c.run w ms).history = accepted c.history ∧
    ∀ x, ((c.run w ms).machine.submit x).1 = .closed x
  /-- No item is tried from now on. -/
  still : ∀ ms, tries (c.run w ms).history = tries c.history
  /-- If the callback returns, every accepted item was tried. -/
  all : m₀.policy.Returns →
    Collapses m₀.policy.retries (tries c.history) (accepted c.history)

/-- **A worker whose background has ended accepts nothing**, unless a callback broke off while the
queue was open. -/
theorem ended_accepts_nothing {name : String} {capacity : ℕ} {policy : Policy} {hook : Hook}
    (hm : Machine.new name capacity policy hook = .ok m₀) (w : Work α σ) (s : σ)
    (ms : List (Move α))
    (hend : (Scene.run w { machine := m₀, state := s } ms).machine.activity ≠ .running) :
    Over w m₀ (Scene.run w { machine := m₀, state := s } ms) := by
  have hstart : Guarded m₀.policy m₀ := by
    obtain ⟨-, rfl⟩ := Machine.new_ok hm
    exact ⟨rfl, fun _ => .inl rfl⟩
  have k := run_guarded (w := w) ms { machine := m₀, state := s } hstart
  refine ⟨?_, fun hc ms' => ?_, fun ms' => (run_ended ms' _ hend).tries, fun hp => ?_⟩
  · by_cases hc : (Scene.run w { machine := m₀, state := s } ms).machine.isClosed
    · exact .inl hc
    · exact .inr ((k.running (by simpa using hc)).resolve_left hend)
  · obtain ⟨hc', ha⟩ := (run_ended (w := w) ms' _ hend).closed hc
    exact ⟨ha, fun x => by rw [Machine.submit_closed hc']⟩
  · -- a worker that keeps the invariant has nothing in hand and nothing in the queue at its end
    have kept := run_kept (w := w) hp ms { machine := m₀, state := s } (Kept.start hm)
    obtain ⟨xs, hxs, ho⟩ := kept.order
    obtain ⟨hi, hq, -, -⟩ := kept.ended hend
    rw [hi, hq] at ho
    simpa [ho] using hxs

/-- A queue in front of a sink, whose worker is closed, takes nothing and leaves the sink alone. -/
theorem queue_write_closed {inner : Sink.Destination σ} {q : Sink.Queue} (hc : q.machine.isClosed)
    (p : ByteArray) (s : σ) : ∃ q', q.write inner p s = (Sink.closedOutcome Sink.Queue.name, q', s) := by
  unfold Sink.Queue.write
  split
  · exact ⟨q, rfl⟩
  · rw [Machine.submit_closed hc]
    exact ⟨_, rfl⟩

/-- Work that fails at every item. -/
def hopeless : Work ℕ Unit where
  process _ s := (Outcome.fault (.other "no"), s)
  notify _ s := s
  finish _ s := s

/-- A worker whose queue is closed, whose callback breaks off at the first of two items: the second
stays behind, and what is offered afterwards is handed back. -/
theorem ended_accepts_nothing_after_close :
    ∃ m₀ : Machine ℕ, Machine.new "worker" 4 (.callback (some .unreadable)) .none = .ok m₀ ∧
      (Scene.run hopeless { machine := m₀, state := () }
        [.offer 7, .offer 8, .stop]).machine.activity ≠ .running ∧
      Over hopeless m₀ (Scene.run hopeless { machine := m₀, state := () }
        [.offer 7, .offer 8, .stop]) := by
  have hm : Machine.new (α := ℕ) "worker" 4 (.callback (some .unreadable)) .none =
      .ok ⟨"worker", 4, .callback (some .unreadable), .none, [], none, .accepting, .running, false,
        .zero, []⟩ := rfl
  exact ⟨_, hm, by decide, ended_accepts_nothing hm hopeless () _ (by decide)⟩

/-- A callback that breaks off ends the background while the queue is open: somebody is told that
an item was accepted which will never be tried. -/
theorem crashed_callback_accepts :
    ∃ m₀ : Machine ℕ, Machine.new "worker" 4 (.callback (some .unreadable)) .none = .ok m₀ ∧
      let c := Scene.run hopeless { machine := m₀, state := () } [.offer 7, .advance, .advance]
      c.machine.activity = .crashed .unreadable ∧ c.machine.isClosed = false ∧
        (c.machine.submit 8).1 = .accepted :=
  ⟨_, rfl, rfl, rfl, rfl⟩

end Logging.Worker
