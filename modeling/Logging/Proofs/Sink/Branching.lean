import Logging.Proofs.Sink.Rounds
import Logging.Proofs.Sink.Traffic
import Logging.Proofs.Worker.Drain

/-!
# A queue in front of a fan-out

The worker of a queue is told one outcome of a write to all members of a fan-out. If one of them
fails and the policy allows another try, all of them are given the payload once more.

* `Outlet.run`: a queue with a fan-out behind it, where writes, flushes, steps of the worker and
  closing come in any order.
* `Outlet.move_spreads`, `Outlet.run_spreads`: **every round comes from one offer that found the
  queue full, or is one try of a payload that was taken into the queue.**
-/

namespace Logging

open Sink Worker

namespace Sink

variable {ι σ : Type}

/-! ## The queue in front -/

/-- The members of a fan-out behind a queue, and the effects of the policy and the hook. -/
structure Members (ι σ : Type) where
  near : ι → Destination σ
  notify : Fault → σ → σ
  finish : Hook → σ → σ

/-- The worker's effects. -/
def Members.work [Terminal σ] (e : Members ι σ) : Work ByteArray (Branches ι σ) :=
  Queue.work (branching e.near) (fun f s => { s with state := e.notify f s.state })
    fun k s => { s with state := e.finish k s.state }

/-- The same sink, next to a history of the worker. -/
def Destination.beside (d : Destination σ) : Destination (List (Happening ByteArray) × σ) where
  name s := d.name s.2
  write p s :=
    let (o, t) := d.write p s.2
    (o, s.1, t)
  flush s :=
    let (o, t) := d.flush s.2
    (o, s.1, t)
  close s :=
    let (o, t) := d.close s.2
    (o, s.1, t)

/-- A queue with a fan-out behind it. -/
structure Outlet (ι σ : Type) where
  queue : Queue
  /-- What happened to the worker of the queue. -/
  history : List (Happening ByteArray) := []
  offers : List Offer := []
  branches : Branches ι σ

/-- A move of somebody who uses the queue, or of its worker. -/
inductive Outlet.Move where
  | write (p : ByteArray)
  | flush
  /-- The worker takes a step, if there is something to do. -/
  | deliver
  | close

namespace Outlet

variable [Terminal σ]

/-- One move. -/
def move (e : Members ι σ) (c : Outlet ι σ) : Move → Outlet ι σ
  | .write p =>
    let (o, q, h, b) := c.queue.write (branching e.near).beside p (c.history, c.branches)
    { queue := q
      history := if c.queue.closed then h else h ++ [.answered p (c.queue.machine.submit p).1]
      offers := c.offers ++ [⟨p, c.queue.machine.queue.length, o⟩]
      branches := b }
  | .flush => { c with branches := ((branching e.near).flush c.branches).2 }
  | .deliver =>
    match c.queue.machine.step e.work.recorded (c.history, c.branches) with
    | some (m, h, b) => { c with queue := { c.queue with machine := m }, history := h, branches := b }
    | none => c
  | .close =>
    let (o, q, h, b) := c.queue.close (branching e.near).beside e.work.recorded
      (c.history ++ [.closed], c.branches)
    { c with queue := q, history := h ++ [.stopped o], branches := b }

/-- Several moves. -/
def run (e : Members ι σ) (c : Outlet ι σ) (ms : List Move) : Outlet ι σ := ms.foldl (move e) c

end Outlet

/-! ## Where the rounds come from -/

/-- The offers that found the queue of that length full, with their outcomes. -/
def pastFull (n : ℕ) (os : List Offer) : List (ByteArray × Outcome) :=
  (os.filter (·.waiting = n)).map fun x => (x.payload, x.outcome)

/-- The payloads that were taken into the queue of that length. -/
def takenIn (n : ℕ) (os : List Offer) : List ByteArray :=
  (os.filter fun x => x.waiting ≠ n ∧ x.outcome = .ok ()).map Offer.payload

theorem pastFull_snoc (n : ℕ) (os : List Offer) (x : Offer) : pastFull n (os ++ [x]) =
    pastFull n os ++ if x.waiting = n then [(x.payload, x.outcome)] else [] := by
  by_cases h : x.waiting = n <;> simp [pastFull, h]

theorem takenIn_snoc (n : ℕ) (os : List Offer) (x : Offer) : takenIn n (os ++ [x]) =
    takenIn n os ++ if x.waiting ≠ n ∧ x.outcome = .ok () then [x.payload] else [] := by
  by_cases h₁ : x.waiting = n <;> by_cases h₂ : x.outcome = .ok () <;> simp [takenIn, h₁, h₂]

/-- **Where the rounds come from**: each was one of these writes, or a try of the worker. -/
structure Rounded (ms : List ι) (l : List (ByteArray × Outcome)) (h : List (Happening ByteArray))
    (b : Branches ι σ) : Prop where
  members : b.fanOut.members = ms
  asks : ∀ r ∈ b.rounds, r.Asks ms
  ways : (b.rounds.map fun r => (r.payload, r.outcome)).Perm (tries h ++ l)

variable {ms : List ι} {l : List (ByteArray × Outcome)} {h h' : List (Happening ByteArray)}
  {b b' : Branches ι σ}

namespace Rounded

/-- There is no further round. -/
theorem quiet (k : Rounded ms l h b) (hm : b'.fanOut.members = b.fanOut.members)
    (hr : b'.rounds = b.rounds) (ht : tries h' = tries h) : Rounded ms l h' b' := by
  refine ⟨hm.trans k.members, ?_, ?_⟩
  · rw [hr]; exact k.asks
  · rw [hr, ht]; exact k.ways

theorem asks_snoc (k : Rounded ms l h b) {r : Round ι} (hr : r.Asks b.fanOut.members) :
    ∀ x ∈ b.rounds ++ [r], x.Asks ms := by
  intro x hx
  obtain hx | hx := List.mem_append.1 hx
  · exact k.asks x hx
  · rw [List.mem_singleton.1 hx, ← k.members]
    exact hr

/-- A round that is a try of the worker. -/
theorem tried (k : Rounded ms l h b) {r : Round ι} (hr : r.Asks b.fanOut.members)
    (as : List (ι × Outcome)) (t : σ) : Rounded ms l (h ++ [.tried r.payload r.outcome])
      { b with rounds := b.rounds ++ [r], answers := as, state := t } := by
  refine ⟨k.members, k.asks_snoc hr, ?_⟩
  have hways := k.ways.append_right [(r.payload, r.outcome)]
  have hmove : (tries h ++ l ++ [(r.payload, r.outcome)]).Perm
      (tries h ++ [(r.payload, r.outcome)] ++ l) := by
    rw [List.append_assoc, List.append_assoc]
    exact List.perm_append_comm.append_left _
  simpa [Happening.tried?] using hways.trans hmove

/-- A round that is one more of these writes. -/
theorem written (k : Rounded ms l h b) {r : Round ι} (hr : r.Asks b.fanOut.members)
    (ht : tries h' = tries h) (as : List (ι × Outcome)) (t : σ) :
    Rounded ms (l ++ [(r.payload, r.outcome)]) h'
      { b with rounds := b.rounds ++ [r], answers := as, state := t } := by
  refine ⟨k.members, k.asks_snoc hr, ?_⟩
  have hways := k.ways.append_right [(r.payload, r.outcome)]
  rw [List.append_assoc] at hways
  simpa [ht] using hways

end Rounded

/-- While an open fan-out is left to the worker, every round is a try of it, and nothing is taken
into the queue. -/
structure Worked (ms : List ι) (l : List (ByteArray × Outcome)) (xs : List ByteArray)
    (q : List (Happening ByteArray) × Branches ι σ) : Prop where
  rounded : Rounded ms l q.1 q.2
  isOpen : q.2.fanOut.closed = false
  accepted : accepted q.1 = xs

namespace Worked

variable [Terminal σ] {e : Members ι σ} {xs : List ByteArray}
  {q : List (Happening ByteArray) × Branches ι σ}

theorem process (k : Worked ms l xs q) (p : ByteArray) :
    Worked ms l xs (e.work.recorded.process p q).2 := by
  obtain ⟨r, t, hw, rfl, hr⟩ := branching_write e.near k.isOpen p
  have hp : e.work.recorded.process r.payload q = (r.outcome, q.1 ++ [.tried r.payload r.outcome],
      { q.2 with rounds := q.2.rounds ++ [r], answers := [], state := t }) := by
    simp [Work.recorded, Members.work, Queue.work, hw]
  rw [hp]
  exact ⟨k.rounded.tried hr [] t, k.isOpen, by simp [Happening.accepted?, k.accepted]⟩

theorem notify (k : Worked ms l xs q) (f : Fault) :
    Worked ms l xs (e.work.recorded.notify f q) :=
  ⟨k.rounded.quiet rfl rfl rfl, k.isOpen, k.accepted⟩

theorem finish (k : Worked ms l xs q) (hook : Hook) :
    Worked ms l xs (e.work.recorded.finish hook q) := by
  refine ⟨k.rounded.quiet rfl rfl ?_, k.isOpen, ?_⟩
  · simp [Work.recorded, Happening.tried?]
  · simp [Work.recorded, Happening.accepted?, k.accepted]

end Worked

/-- **What holds of a queue with a fan-out behind it**, for a worker that was once made as `m₀`. -/
structure Outlet.Spreads (m₀ : Machine ByteArray) (ms : List ι) (c : Outlet ι σ) : Prop where
  kept : Kept m₀ c.queue.machine c.history
  rounded : Rounded ms (pastFull m₀.capacity c.offers) c.history c.branches
  taken : accepted c.history = takenIn m₀.capacity c.offers
  opened : c.queue.closed = false → c.queue.machine.isClosed = false ∧
    c.queue.machine.joined = false ∧ c.branches.fanOut.closed = false
  closed : c.queue.closed = true → c.queue.machine.activity ≠ .running

variable [Terminal σ] {e : Members ι σ} {m₀ : Machine ByteArray} {c : Outlet ι σ}

namespace Outlet

omit [Terminal σ] in
/-- A queue that was just made. -/
theorem Spreads.start {name : String} {capacity : ℕ} {policy : Policy} {hook : Hook}
    (hm : Machine.new name capacity policy hook = .ok m₀) (ms : List ι) (s : σ) :
    Outlet.Spreads m₀ ms
      { queue := { machine := m₀ }, branches := { fanOut := ⟨ms, false⟩, state := s } } := by
  refine ⟨Kept.start hm, ⟨rfl, fun r hr => (List.not_mem_nil hr).elim, .nil⟩, rfl, fun _ => ?_,
    fun hc => by simp at hc⟩
  rw [(Machine.new_ok hm).2]
  exact ⟨rfl, rfl, rfl⟩

/-- A write to a queue that was closed is refused, and there is no round. -/
theorem write_closed (hpos : 0 < m₀.capacity) (k : c.Spreads m₀ ms) (hc : c.queue.closed = true)
    (p : ByteArray) : (c.move e (.write p)).Spreads m₀ ms := by
  obtain ⟨-, hq, -, -⟩ := k.kept.ended (k.closed hc)
  have hn : (0 : ℕ) ≠ m₀.capacity := by omega
  simp only [move, Queue.write, hc, if_true]
  refine ⟨k.kept, ?_, ?_, fun ho => by simp [hc] at ho, fun _ => k.closed hc⟩
  · rw [pastFull_snoc, if_neg (by simpa [hq] using hn), List.append_nil]
    exact k.rounded
  · rw [takenIn_snoc, if_neg (by simp [closedOutcome, Outcome.fault]), List.append_nil]
    exact k.taken

/-- **A write to an open queue** is taken into it, or is one round if there is no room. -/
theorem write_open (k : c.Spreads m₀ ms) (hc : c.queue.closed = false) (p : ByteArray) :
    (c.move e (.write p)).Spreads m₀ ms := by
  obtain ⟨hm, hj, hopen⟩ := k.opened hc
  have hroom := k.kept.room
  have hcap := k.kept.capacity
  have kept := offer_kept (c := ⟨c.queue.machine, c.history, ()⟩) k.kept p
  simp only [Scene.offer] at kept
  obtain ⟨hm', -⟩ | ⟨-, hfull, he⟩ | ⟨-, hfree, he⟩ := c.queue.machine.submit_cases p
  · simp [hm] at hm'
  · -- no room: the payload goes to the members at once
    obtain ⟨r, t, hw, rfl, hr⟩ := branching_write e.near hopen p
    have hlen : c.queue.machine.queue.length = m₀.capacity := by omega
    rw [he] at kept
    simp only [move, Queue.write, hc, he, Destination.beside, hw, Bool.false_eq_true, if_false]
    refine ⟨kept, ?_, ?_, fun _ => ⟨hm, hj, hopen⟩, fun ho => by simp at ho⟩
    · rw [pastFull_snoc, if_pos hlen]
      exact k.rounded.written hr (by simp [Happening.tried?]) [] t
    · rw [takenIn_snoc, if_neg (by simp [hlen]), List.append_nil, ← k.taken]
      simp [Happening.accepted?]
  · -- there is room
    have hlen : c.queue.machine.queue.length ≠ m₀.capacity := by omega
    rw [he] at kept
    simp only [move, Queue.write, hc, he, Bool.false_eq_true, if_false]
    refine ⟨kept, ?_, ?_, fun _ => ⟨hm, hj, hopen⟩, fun ho => by simp at ho⟩
    · rw [pastFull_snoc, if_neg hlen, List.append_nil]
      exact k.rounded.quiet rfl rfl (by simp [Happening.tried?])
    · rw [takenIn_snoc, if_pos ⟨hlen, rfl⟩, ← k.taken]
      simp [Happening.accepted?]

/-- A step of the worker. Once the queue is closed there is none. -/
theorem deliver_spreads (hp : m₀.policy.Returns) (k : c.Spreads m₀ ms) :
    (c.move e .deliver).Spreads m₀ ms := by
  simp only [move]
  split
  swap
  · exact k
  rename_i m h b he
  have hc : c.queue.closed = false := by
    by_contra hc
    rw [Bool.not_eq_false] at hc
    exact k.closed hc (Machine.step_cases he).1
  obtain ⟨hm, hj, hopen⟩ := k.opened hc
  obtain ⟨hphase, hjoined⟩ := Machine.step_fixed he
  have kw : Worked ms (pastFull m₀.capacity c.offers) (accepted c.history) (h, b) :=
    Machine.step_around (I := Worked ms (pastFull m₀.capacity c.offers) (accepted c.history))
      (fun p _ k => k.process p) (fun f _ k => k.notify f) (fun hook _ k => k.finish hook)
      ⟨k.rounded, hopen, rfl⟩ he
  exact ⟨step_kept hp k.kept he, kw.rounded, kw.accepted.trans k.taken,
    fun _ => ⟨(Machine.isClosed_congr hphase).trans hm, hjoined.trans hj, kw.isOpen⟩,
    fun ho => by simp [hc] at ho⟩

/-- **Closing** lets the worker come to its end before the members are closed. -/
theorem close_spreads (hp : m₀.policy.Returns) (k : c.Spreads m₀ ms) :
    (c.move e .close).Spreads m₀ ms := by
  simp only [move, Queue.close]
  cases hc : c.queue.closed with
  | true =>
    -- closing once more does nothing
    obtain ⟨-, -, hm, -⟩ := k.kept.ended (k.closed hc)
    have kc := close_kept k.kept
    rw [Machine.close_closed hm] at kc
    have hphase : c.queue.machine.phase ≠ .accepting := by simpa [Machine.isClosed] using hm
    simp only [if_true]
    refine ⟨kc.stopped (k.closed hc) hphase (.ok ()), k.rounded.quiet rfl rfl ?_, ?_,
      fun ho => by simp [hc] at ho, fun _ => k.closed hc⟩
    · simp [tries, Happening.tried?]
    · rw [← k.taken]
      simp [accepted, Happening.accepted?]
  | false =>
    obtain ⟨hm, hj, hopen⟩ := k.opened hc
    have kw : Worked ms (pastFull m₀.capacity c.offers) (accepted c.history)
        (c.queue.machine.stop e.work.recorded (c.history ++ [.closed], c.branches)).2.2 := by
      refine Machine.stop_around
        (I := Worked ms (pastFull m₀.capacity c.offers) (accepted c.history))
        (fun p _ k => k.process p) (fun f _ k => k.notify f) (fun hook _ k => k.finish hook)
        ⟨k.rounded.quiet rfl rfl ?_, hopen, ?_⟩ _
      · simp [Happening.tried?]
      · simp [Happening.accepted?]
    have hjoined := Machine.stop_joined e.work.recorded c.queue.machine
      (c.history ++ [.closed], c.branches)
    rcases hs : c.queue.machine.stop e.work.recorded (c.history ++ [.closed], c.branches) with
      ⟨o, m, h, b⟩
    rw [hs] at kw hjoined
    obtain ⟨o', f, t, hclose, hf⟩ := branching_close e.near b
    have kept := stop_kept hp k.kept hs (o.both o')
    simp only [hs, Destination.beside, hclose, Bool.false_eq_true, if_false]
    refine ⟨kept, kw.rounded.quiet hf rfl ?_, ?_, fun ho => by simp at ho,
      fun _ => kept.joined hjoined⟩
    · simp [Happening.tried?]
    · rw [← k.taken, ← kw.accepted]
      simp [Happening.accepted?]

/-- **A move keeps the invariant.** -/
theorem move_spreads (hpos : 0 < m₀.capacity) (hp : m₀.policy.Returns) (k : c.Spreads m₀ ms)
    (a : Move) : (c.move e a).Spreads m₀ ms := by
  cases a with
  | write p =>
    cases hc : c.queue.closed with
    | true => exact write_closed hpos k hc p
    | false => exact write_open k hc p
  | flush =>
    obtain ⟨o, t, hflush⟩ := branching_flush e.near c.branches
    simp only [move, hflush]
    exact ⟨k.kept, k.rounded.quiet rfl rfl rfl, k.taken, k.opened, k.closed⟩
  | deliver => exact deliver_spreads hp k
  | close => exact close_spreads hp k

/-- **A run keeps the invariant.** -/
theorem run_spreads (hpos : 0 < m₀.capacity) (hp : m₀.policy.Returns) :
    ∀ (as : List Move) (c : Outlet ι σ), c.Spreads m₀ ms → (c.run e as).Spreads m₀ ms := by
  intro as
  induction as with
  | nil => intro c k; exact k
  | cons a as ih => intro c k; exact ih _ (move_spreads hpos hp k a)

/-- Closing closes the queue, and no move opens it again. -/
theorem move_closed {a : Move} (h : c.queue.closed ∨ a = .close) :
    (c.move e a).queue.closed := by
  cases a with
  | write p =>
    have hc : c.queue.closed = true := h.resolve_right (by simp)
    simp only [move, Queue.write, hc, if_true]
  | flush => exact h.resolve_right (by simp)
  | deliver =>
    have hc : c.queue.closed = true := h.resolve_right (by simp)
    simp only [move]
    split
    · exact hc
    · exact hc
  | close =>
    simp only [move, Queue.close]
    split
    · assumption
    · rfl

theorem run_closed : ∀ (as : List Move) (c : Outlet ι σ), c.queue.closed ∨ .close ∈ as →
    (c.run e as).queue.closed := by
  intro as
  induction as with
  | nil => intro c h; exact h.resolve_right List.not_mem_nil
  | cons a as ih =>
    intro c h
    refine ih _ ?_
    obtain hc | ha := h
    · exact .inl (move_closed (.inl hc))
    obtain ha | ha := List.mem_cons.1 ha
    · exact .inl (move_closed (.inr ha.symm))
    · exact .inr ha

/-! ## What follows for the rounds -/

omit [Terminal σ] in
/-- Once the queue was closed, whatever was taken into it was tried. -/
theorem Spreads.collapses (k : c.Spreads m₀ ms) (hc : c.queue.closed) :
    Collapses m₀.policy.retries (tries c.history) (takenIn m₀.capacity c.offers) := by
  obtain ⟨xs, hxs, ho⟩ := k.kept.order
  obtain ⟨hi, hq, -, -⟩ := k.kept.ended (k.closed hc)
  rw [hi, hq] at ho
  rw [← k.taken, ho]
  simpa using hxs

omit [Terminal σ] in
/-- If every member took a payload whenever it was written, every round of it went well. -/
theorem Spreads.round_ok (k : c.Spreads m₀ ms) {p : ByteArray}
    (hall : ∀ r ∈ c.branches.rounds, r.payload = p → ∀ a ∈ r.answers, a.2 = .ok ()) {o : Outcome}
    (ho : (p, o) ∈ tries c.history ++ pastFull m₀.capacity c.offers) : o = .ok () := by
  obtain ⟨r, hr, he⟩ := List.mem_map.1 (k.rounded.ways.mem_iff.2 ho)
  obtain ⟨rfl, rfl⟩ := Prod.mk.inj he
  exact (k.rounded.asks r hr).2.2 (hall r hr rfl)

end Outlet

end Sink

end Logging
