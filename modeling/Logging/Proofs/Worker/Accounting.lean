import Logging.Proofs.Worker.Drain

/-!
# A worker's counters add up

Those around a worker move in any order, and whoever reads the channel of a forwarding policy takes
faults out of it, or goes away, at any moment in between.

* `Turn`, `Scene.turns`: what may happen next, and a run of it.
* `Settles`: the counters before and after one item is handled.
* `Balanced`: what the counters have to do with the queue and the history.
* `turn_balanced`, `turns_balanced`: a turn keeps this, and so does a run.
* `counts_add_up`: **what was submitted was processed, failed or is still there; what failed was
  reported or dropped; the tries are those of the items and those that were repeated; and every
  answer to an offer was counted.**
-/

namespace Logging.Worker

variable {α σ : Type} {w : Work α σ} {m₀ m m' : Machine α} {s s' : σ}

/-! ## Whoever reads the channel -/

namespace Policy

/-- Nobody reads the channel any more. -/
def cutOff : Policy → Policy
  | forward capacity _ => forward capacity false
  | p => p

/-- Whether faults are given up, whatever they are. -/
def discards : Policy → Bool
  | drop => true
  | retry .. => true
  | _ => false

/-- Whether faults are told to a callback. -/
def tells : Policy → Bool
  | callback _ => true
  | _ => false

@[simp] theorem cutOff_discards (p : Policy) : p.cutOff.discards = p.discards := by cases p <;> rfl

@[simp] theorem cutOff_tells (p : Policy) : p.cutOff.tells = p.tells := by cases p <;> rfl

@[simp] theorem cutOff_retries (p : Policy) : p.cutOff.retries = p.retries := by cases p <;> rfl

theorem Returns.cutOff {p : Policy} (h : p.Returns) : p.cutOff.Returns := by
  cases p with
  | callback b => exact h
  | _ => intro e; simp [Policy.cutOff]

end Policy

/-- What may happen around a worker. -/
inductive Turn (α : Type) where
  /-- Somebody around the worker moves, or the background does. -/
  | move (a : Move α)
  /-- Whoever reads the channel takes the oldest fault out of it, if there is one. -/
  | receive
  /-- Whoever reads the channel goes away. -/
  | disconnect

namespace Scene

/-- One turn. -/
def turn (w : Work α σ) (c : Scene α σ) : Turn α → Scene α σ
  | .move a => c.move w a
  | .receive => { c with machine := { c.machine with channel := c.machine.channel.tail } }
  | .disconnect => { c with machine := { c.machine with policy := c.machine.policy.cutOff } }

/-- Several turns. -/
def turns (w : Work α σ) (c : Scene α σ) (ts : List (Turn α)) : Scene α σ := ts.foldl (turn w) c

end Scene

/-- How many offers got an answer. -/
def answers (h : List (Happening α)) : ℕ :=
  h.countP fun
    | .answered _ _ => true
    | _ => false

@[simp] theorem answers_append (h k : List (Happening α)) :
    answers (h ++ k) = answers h + answers k := by
  simp [answers]

theorem answers_answered (h : List (Happening α)) (x : α) (a : Answer α) :
    answers (h ++ [.answered x a]) = answers h + 1 := by
  simp [answers]

theorem tries_answered (h : List (Happening α)) (x : α) (a : Answer α) :
    tries (h ++ [.answered x a]) = tries h := by
  simp [Happening.tried?]

@[simp] theorem answers_tried (x : α) (os : List Outcome) :
    answers (os.map (Happening.tried x)) = 0 := by
  simp [answers, List.countP_eq_zero]

/-! ## Handling one item -/

/-- **The counters before and after an item is handled** in so many tries. -/
structure Settles (p : Policy) (tried : ℕ) (c c' : Counters) : Prop where
  submitted : c'.submitted = c.submitted
  rejected : c'.rejected = c.rejected
  finished : c'.processed + c'.failed = c.processed + c.failed + 1
  repeated : c'.retries + 1 = c.retries + tried
  /-- As many faults were reported or dropped as items failed. -/
  lost : c'.failed + c.reported + c.dropped = c.failed + c'.reported + c'.dropped
  silent : p.discards → c'.reported = c.reported
  told : p.tells → c'.dropped = c.dropped

/-- An item whose last try succeeds. -/
theorem settles_processed {p : Policy} {os : List Outcome} (hpos : 0 < os.length)
    (hlast : lastFailure? os = none) (c : Counters) : Settles p os.length c (c.tried os) := by
  rw [Counters.tried_good hlast]
  refine ⟨rfl, rfl, ?_, ?_, rfl, fun _ => rfl, fun _ => rfl⟩
  · show c.processed + 1 + c.failed = c.processed + c.failed + 1
    omega
  · show c.retries + (os.length - 1) + 1 = c.retries + os.length
    omega

/-- An item whose last try fails: its fault is reported or dropped. -/
theorem settles_failed {p : Policy} {os : List Outcome} {e : Failure} {k : Counter}
    (hpos : 0 < os.length) (hlast : lastFailure? os = some e)
    (hk : k = .reported ∧ p.discards = false ∨ k = .dropped ∧ p.tells = false) (c : Counters) :
    Settles p os.length c ((c.tried os).bump k) := by
  have hrepeated : c.retries + (os.length - 1) + 1 = c.retries + os.length := by omega
  rw [Counters.tried_failed hlast]
  obtain ⟨rfl, hp⟩ | ⟨rfl, hp⟩ := hk
  · refine ⟨rfl, rfl, rfl, hrepeated, ?_, fun h => absurd h (by simp [hp]), fun _ => rfl⟩
    show c.failed + 1 + c.reported + c.dropped = c.failed + (c.reported + 1) + c.dropped
    omega
  · refine ⟨rfl, rfl, rfl, hrepeated, ?_, fun _ => rfl, fun h => absurd h (by simp [hp])⟩
    show c.failed + 1 + c.reported + c.dropped = c.failed + c.reported + (c.dropped + 1)
    omega

/-- **A fault is reported or dropped**, and counted as such. -/
theorem dispose_counts (hp : m.policy.Returns) (w : Work α σ) (f : Fault) (s : σ) :
    ∃ k, (k = .reported ∧ m.policy.discards = false ∨ k = .dropped ∧ m.policy.tells = false) ∧
      (m.dispose w f s).1.counters = m.counters.bump k := by
  unfold Machine.dispose
  cases h : m.policy with
  | drop => exact ⟨.dropped, .inr ⟨rfl, rfl⟩, rfl⟩
  | retry n d => exact ⟨.dropped, .inr ⟨rfl, rfl⟩, rfl⟩
  | forward n b =>
    dsimp only
    split
    · exact ⟨.reported, .inl ⟨rfl, rfl⟩, rfl⟩
    · exact ⟨.dropped, .inr ⟨rfl, rfl⟩, rfl⟩
  | callback b =>
    cases b with
    | none => exact ⟨.reported, .inl ⟨rfl, rfl⟩, rfl⟩
    | some e => exact absurd h (hp e)

/-- **Handling an item** counts it once, and counts every try of it. -/
theorem handle_settles (hp : m.policy.Returns) (w : Work α σ) (x : α) (h : List (Happening α))
    (s : σ) :
    ∃ os : List Outcome, (m.handle w.recorded x (h, s)).2.1 = h ++ os.map (.tried x) ∧
      Settles m.policy os.length m.counters (m.handle w.recorded x (h, s)).1.counters := by
  obtain ⟨os, t, hos, he⟩ := attempts_recorded w m.name x m.policy.retries m.counters h s
  refine ⟨os, ?_⟩
  have hpos := hos.length_pos
  unfold Machine.handle
  rw [he]
  cases hlast : lastFailure? os with
  | none => exact ⟨rfl, settles_processed hpos hlast m.counters⟩
  | some e =>
    obtain ⟨k, hk, hc⟩ := dispose_counts (m := { m with counters := m.counters.tried os }) hp
      w.recorded (e.blame m.name) (h ++ os.map (.tried x), t)
    refine ⟨dispose_recorded w _ (e.blame m.name) _ t, ?_⟩
    show Settles _ _ _ (Machine.dispose w.recorded _ _ _).1.counters
    rw [hc]
    exact settles_failed hpos hlast hk m.counters

/-! ## The invariant -/

/-- **What the counters have to do with the queue and the history**, for a worker with a policy
like `p`. -/
structure Balanced (p : Policy) (m : Machine α) (h : List (Happening α)) : Prop where
  returns : m.policy.Returns
  discards : m.policy.discards = p.discards
  tells : m.policy.tells = p.tells
  taken : m.counters.submitted =
    m.counters.processed + m.counters.failed + m.inHand.toList.length + m.queue.length
  lost : m.counters.failed = m.counters.reported + m.counters.dropped
  tried : (tries h).length = m.counters.processed + m.counters.failed + m.counters.retries
  answered : answers h = m.counters.submitted + m.counters.rejected
  silent : p.discards → m.counters.reported = 0
  told : p.tells → m.counters.dropped = 0

variable {p : Policy} {h h' : List (Happening α)}

namespace Balanced

/-- Something happens that is neither an answer nor a try, and nothing that is counted moves. -/
theorem quiet (b : Balanced p m h) (hpolicy : m'.policy = m.policy)
    (hcounters : m'.counters = m.counters) (hhand : m'.inHand = m.inHand)
    (hqueue : m'.queue = m.queue) (htries : tries h' = tries h)
    (hanswers : answers h' = answers h) : Balanced p m' h' := by
  constructor
  · rw [hpolicy]; exact b.returns
  · rw [hpolicy]; exact b.discards
  · rw [hpolicy]; exact b.tells
  · rw [hcounters, hhand, hqueue]; exact b.taken
  · rw [hcounters]; exact b.lost
  · rw [htries, hcounters]; exact b.tried
  · rw [hanswers, hcounters]; exact b.answered
  · rw [hcounters]; exact b.silent
  · rw [hcounters]; exact b.told

/-- A worker that was just made. -/
theorem start {name : String} {capacity : ℕ} {hook : Hook}
    (hm : Machine.new name capacity p hook = .ok m₀) (hp : p.Returns) : Balanced p m₀ [] := by
  obtain ⟨-, rfl⟩ := Machine.new_ok hm
  exact ⟨hp, rfl, rfl, rfl, rfl, rfl, rfl, fun _ => rfl, fun _ => rfl⟩

/-- An offer that is handed back. -/
theorem handedBack (b : Balanced p m h) (x : α) (a : Answer α) :
    Balanced p (m.count .rejected) (h ++ [.answered x a]) := by
  refine ⟨b.returns, b.discards, b.tells, b.taken, b.lost, ?_, ?_, b.silent, b.told⟩
  · show (tries (h ++ [.answered x a])).length =
      m.counters.processed + m.counters.failed + m.counters.retries
    rw [tries_answered]
    exact b.tried
  · have ha := b.answered
    show answers (h ++ [.answered x a]) = m.counters.submitted + (m.counters.rejected + 1)
    rw [answers_answered]
    omega

/-- An offer that is accepted. -/
theorem queued (b : Balanced p m h) (x : α) :
    Balanced p ({ m with queue := m.queue ++ [x] }.count .submitted)
      (h ++ [.answered x .accepted]) := by
  refine ⟨b.returns, b.discards, b.tells, ?_, b.lost, ?_, ?_, b.silent, b.told⟩
  · have ht := b.taken
    show m.counters.submitted + 1 = m.counters.processed + m.counters.failed +
      m.inHand.toList.length + (m.queue ++ [x]).length
    rw [List.length_append, List.length_singleton]
    omega
  · show (tries (h ++ [.answered x .accepted])).length =
      m.counters.processed + m.counters.failed + m.counters.retries
    rw [tries_answered]
    exact b.tried
  · have ha := b.answered
    show answers (h ++ [.answered x .accepted]) =
      m.counters.submitted + 1 + m.counters.rejected
    rw [answers_answered]
    omega

/-- The item in hand is handled. -/
theorem handled {x : α} {os : List Outcome} {c : Counters} {ch : List Fault} {a : Activity}
    (b : Balanced p m h) (hi : m.inHand = some x) (hc : Settles m.policy os.length m.counters c) :
    Balanced p { m with inHand := none, counters := c, channel := ch, activity := a }
      (h ++ os.map (.tried x)) := by
  have hfinished := hc.finished
  have hrepeated := hc.repeated
  have hlost := hc.lost
  refine ⟨b.returns, b.discards, b.tells, ?_, ?_, ?_, ?_, fun hp => ?_, fun hp => ?_⟩
  · have ht := b.taken
    rw [hi, Option.toList_some, List.length_singleton] at ht
    show c.submitted = c.processed + c.failed + 0 + m.queue.length
    rw [hc.submitted]
    omega
  · have hl := b.lost
    show c.failed = c.reported + c.dropped
    omega
  · have ht := b.tried
    rw [tries_append, tries_tried, List.length_append, List.length_map]
    show _ = c.processed + c.failed + c.retries
    omega
  · have ha := b.answered
    rw [answers_append, answers_tried, Nat.add_zero]
    show answers h = c.submitted + c.rejected
    rw [hc.submitted, hc.rejected]
    exact ha
  · exact (hc.silent (b.discards.trans hp)).trans (b.silent hp)
  · exact (hc.told (b.tells.trans hp)).trans (b.told hp)

end Balanced

/-! ## Every turn keeps it -/

/-- Offering an item keeps the counters balanced. -/
theorem offer_balanced {c : Scene α σ} (b : Balanced p c.machine c.history) (x : α) :
    Balanced p (c.offer x).machine (c.offer x).history := by
  unfold Scene.offer
  obtain ⟨-, he⟩ | ⟨-, -, he⟩ | ⟨-, -, he⟩ := c.machine.submit_cases x
  · rw [he]; exact b.handedBack x _
  · rw [he]; exact b.handedBack x _
  · rw [he]; exact b.queued x

/-- **A step of the background keeps the counters balanced.** -/
theorem step_balanced (b : Balanced p m h)
    (he : m.step w.recorded (h, s) = some (m', h', s')) : Balanced p m' h' := by
  obtain ⟨-, ⟨y, rest, hi, hq, rfl, hs⟩ | ⟨y, hi, hf⟩ | ⟨hi, hq, hc, hf⟩⟩ := Machine.step_cases he
  · -- the oldest item goes from the queue into the hand
    obtain ⟨rfl, -⟩ : h' = h ∧ s' = s := by simpa using hs
    refine ⟨b.returns, b.discards, b.tells, ?_, b.lost, b.tried, b.answered, b.silent, b.told⟩
    have ht := b.taken
    rw [hi, hq, Option.toList_none, List.length_nil, List.length_cons] at ht
    show m.counters.submitted = m.counters.processed + m.counters.failed + 1 + rest.length
    omega
  · -- the item in hand is handled
    obtain ⟨c, ch, a, hm, -⟩ := Machine.handle_eq w.recorded { m with inHand := none } y (h, s)
    obtain ⟨os, hh, hset⟩ := handle_settles (m := { m with inHand := none }) b.returns w y h s
    rw [hm] at hset
    obtain rfl : m' = _ := (congrArg Prod.fst hf).trans hm
    obtain rfl : h' = _ := (congrArg (fun q => q.2.1) hf).trans hh
    exact b.handled hi hset
  · -- the hook is neither an answer nor a try
    obtain ⟨a, -, hfin⟩ := Machine.finish_eq w.recorded m (h, s)
    rw [hfin] at hf
    obtain rfl : m' = _ := congrArg Prod.fst hf
    have hh : h' = h ∨ h' = h ++ [.hook] := by
      have := congrArg (fun q => q.2.1) hf
      by_cases hn : m.hook = .none
      · exact .inl (by simpa [hn] using this)
      · exact .inr (by simpa [hn, Work.recorded] using this)
    obtain rfl | rfl := hh
    · exact b.quiet rfl rfl rfl rfl rfl rfl
    · exact b.quiet rfl rfl rfl rfl (by simp [Happening.tried?]) (by simp [answers])

theorem close_balanced (b : Balanced p m h) : Balanced p m.close (h ++ [.closed]) := by
  obtain ⟨q, hq⟩ := m.close_eq
  rw [hq]
  exact b.quiet rfl rfl rfl rfl (by simp [Happening.tried?]) (by simp [answers])

theorem stop_balanced {o : Outcome} (b : Balanced p m h)
    (he : m.stop w.recorded (h ++ [.closed], s) = (o, m', h', s')) :
    Balanced p m' (h' ++ [.stopped o]) := by
  have bc := close_balanced b
  have hstopped : ∀ {m m' : Machine α} {h : List (Happening α)}, Balanced p m h →
      m'.policy = m.policy → m'.counters = m.counters → m'.inHand = m.inHand →
      m'.queue = m.queue → Balanced p m' (h ++ [.stopped o]) := fun b h₁ h₂ h₃ h₄ =>
    b.quiet h₁ h₂ h₃ h₄ (by simp [Happening.tried?]) (by simp [answers])
  unfold Machine.stop at he
  simp only at he
  split at he
  · simp only [Prod.mk.injEq] at he
    obtain ⟨-, rfl, rfl, -⟩ := he
    exact hstopped bc rfl rfl rfl rfl
  · have bd : Balanced p (m.close.drain w.recorded (h ++ [.closed], s)).1
        (m.close.drain w.recorded (h ++ [.closed], s)).2.1 :=
      Machine.steps_keep (w := w.recorded)
        (P := fun (m : Machine α) (q : List (Happening α) × σ) => Balanced p m q.1)
        (fun b e => step_balanced b e) _ bc
    simp only [Prod.mk.injEq] at he
    obtain ⟨-, rfl, he⟩ := he
    obtain rfl : _ = h' := congrArg Prod.fst he
    exact hstopped bd rfl rfl rfl rfl

/-- **A move keeps the counters balanced.** -/
theorem move_balanced {c : Scene α σ} (b : Balanced p c.machine c.history) (a : Move α) :
    Balanced p (c.move w a).machine (c.move w a).history := by
  cases a with
  | offer x => exact offer_balanced b x
  | wait x =>
    simp only [Scene.move]
    split
    · exact b
    · exact offer_balanced b x
  | advance =>
    simp only [Scene.move]
    split
    · rename_i he
      exact step_balanced b he
    · exact b
  | close => exact close_balanced b
  | stop => exact stop_balanced b rfl

/-- **A turn keeps the counters balanced.** What was kept of the order of items is kept as well,
with the policy as it is now. -/
theorem turn_balanced {c : Scene α σ}
    (k : Kept { m₀ with policy := c.machine.policy } c.machine c.history)
    (b : Balanced p c.machine c.history) (t : Turn α) :
    Kept { m₀ with policy := (c.turn w t).machine.policy } (c.turn w t).machine
        (c.turn w t).history ∧
      Balanced p (c.turn w t).machine (c.turn w t).history := by
  cases t with
  | move a =>
    have hp : ({ m₀ with policy := c.machine.policy } : Machine α).policy.Returns := b.returns
    have k' := move_kept (w := w) hp k a
    refine ⟨?_, move_balanced b a⟩
    show Kept { m₀ with policy := (c.move w a).machine.policy } _ _
    rw [k'.policy]
    exact k'
  | receive => exact ⟨{ k with }, b.quiet rfl rfl rfl rfl rfl rfl⟩
  | disconnect =>
    refine ⟨{ k with policy := rfl, order := ?_ }, ?_⟩
    · show ∃ xs, Collapses c.machine.policy.cutOff.retries _ xs ∧ _
      rw [Policy.cutOff_retries]
      exact k.order
    · exact ⟨b.returns.cutOff, c.machine.policy.cutOff_discards.trans b.discards,
        c.machine.policy.cutOff_tells.trans b.tells, b.taken, b.lost, b.tried, b.answered,
        b.silent, b.told⟩

/-- **A run keeps the counters balanced.** -/
theorem turns_balanced : ∀ (ts : List (Turn α)) (c : Scene α σ),
    Kept { m₀ with policy := c.machine.policy } c.machine c.history →
    Balanced p c.machine c.history →
    Kept { m₀ with policy := (c.turns w ts).machine.policy } (c.turns w ts).machine
        (c.turns w ts).history ∧
      Balanced p (c.turns w ts).machine (c.turns w ts).history := by
  intro ts
  induction ts with
  | nil => intro c k b; exact ⟨k, b⟩
  | cons t ts ih =>
    intro c k b
    obtain ⟨k', b'⟩ := turn_balanced (w := w) k b t
    exact ih _ k' b'

/-! ## What follows for the counters -/

/-- **What the counters of a worker with this policy say**, at some moment of a run. -/
structure AddUp (p : Policy) (c : Scene α σ) : Prop where
  /-- What was submitted was processed or failed, is in hand, or waits in the queue. -/
  taken : c.machine.counters.submitted = c.machine.counters.processed +
    c.machine.counters.failed + c.machine.inHand.toList.length + c.machine.queue.length
  /-- What failed was reported or dropped. -/
  lost : c.machine.counters.failed = c.machine.counters.reported + c.machine.counters.dropped
  /-- Every item that is done with was tried once, and again as often as was counted. -/
  tried : (tries c.history).length = c.machine.counters.processed +
    c.machine.counters.failed + c.machine.counters.retries
  /-- Every answer to an offer was counted. -/
  answered : c.machine.counters.submitted + c.machine.counters.rejected = answers c.history
  /-- A policy that gives up faults reports none. -/
  silent : p.discards → c.machine.counters.reported = 0
  /-- A policy with a callback drops none. -/
  told : p.tells → c.machine.counters.dropped = 0
  /-- When somebody has waited for the end, everything is done with. -/
  stopped : ∀ o, .stopped o ∈ c.history → c.machine.counters.submitted =
    c.machine.counters.processed + c.machine.counters.failed

/-- **The counters of a worker add up.** This holds at every moment of every run: for every
capacity, every hook, every policy whose callback returns, whatever the tries of items come to, and
whatever becomes of the channel. -/
theorem counts_add_up {name : String} {capacity : ℕ} {policy : Policy} {hook : Hook}
    (hm : Machine.new name capacity policy hook = .ok m₀) (hp : policy.Returns) (w : Work α σ)
    (s : σ) (ts : List (Turn α)) :
    AddUp policy (Scene.turns w { machine := m₀, state := s } ts) := by
  obtain ⟨k, b⟩ := turns_balanced (w := w) ts { machine := m₀, state := s } (Kept.start hm)
    (Balanced.start hm hp)
  refine ⟨b.taken, b.lost, b.tried, b.answered.symm, b.silent, b.told, fun o hs => ?_⟩
  -- once somebody has waited for the end, nothing is in hand or in the queue
  have hend : (Scene.turns w { machine := m₀, state := s } ts).machine.activity ≠ .running :=
    fun hr => (k.running hr).2 o hs
  obtain ⟨hi, hq, -, -⟩ := k.ended hend
  have ht := b.taken
  rw [hi, hq] at ht
  exact ht

/-- A channel with room for one fault, and items that break off every other time they are tried: the
second item that fails finds the channel full, the third finds nobody who reads it. -/
theorem counts_add_up_overflowing :
    ∃ m₀ : Machine ℕ, Machine.new "worker" 2 (.forward 1 true) .none = .ok m₀ ∧
      (Policy.forward 1 true).Returns ∧
      let c := Scene.turns everyOther { machine := m₀, state := 0 }
        [.move (.offer 1), .move (.offer 2), .move (.offer 3), .move .advance, .move .advance,
          .move (.offer 4), .move .advance, .move .advance, .move .advance, .move .advance,
          .receive, .disconnect, .move (.offer 5), .move (.wait 6), .move .stop,
          .move (.wait 7)]
      AddUp (.forward 1 true) c ∧
        c.machine.counters = ⟨5, 2, 2, 3, 0, 1, 2⟩ := by
  have hp : (Policy.forward 1 true).Returns := fun _ => by simp
  have hm : Machine.new (α := ℕ) "worker" 2 (.forward 1 true) .none =
      .ok { name := "worker", capacity := 2, policy := .forward 1 true, hook := .none } := rfl
  exact ⟨_, hm, hp, counts_add_up hm hp _ _ _, rfl⟩

end Logging.Worker
