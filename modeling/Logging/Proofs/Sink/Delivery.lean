import Logging.Proofs.Sink.Traffic
import Logging.Sink.Memory

/-!
# A queue in front of a sink loses nothing and repeats nothing

* `Carried`: the payloads that were taken into the queue are those that the worker has written, the
  one in its hand and those that wait, in this order; those that found no room were written at once.
* `step_passing`: a step of the worker keeps this, as long as the sink behind accepts writes.
* `write_safe_open`, `deliver_safe`, `close_safe`: so does every move, and closing leaves nothing
  behind.
* `delivered_exactly_once`: **what was taken is written to the sink behind exactly once before it is
  closed, and nothing else is; each of the two ways keeps the order.**
-/

namespace Logging.Sink

open Worker

variable {σ : Type} {e : Surroundings σ} {Ready : σ → Prop} {m₀ m m' : Machine ByteArray}
  {h h' : List Traffic} {s s' : σ}

/-- **What a queue has taken and passed on**, for a worker that was once made as `m₀`. -/
structure Carried (m₀ m : Machine ByteArray) (h : List Traffic) : Prop where
  capacity : m.capacity = m₀.capacity
  room : m.queue.length ≤ m₀.capacity
  atOnce : writtenBy .atOnce h = takenFull m₀.capacity h
  throughQueue : takenFree m₀.capacity h =
    writtenBy .throughQueue h ++ m.inHand.toList ++ m.queue
  ended : m.activity ≠ .running → m.inHand = none ∧ m.queue = [] ∧ m.isClosed

namespace Carried

/-- Something happens that is no offer and no write. -/
theorem other (k : Carried m₀ m h) {b : Traffic} (ho : b.offer? = none) (hw : b.write? = none) :
    Carried m₀ m (h ++ [b]) := by
  obtain ⟨hway, hfull, hfree, -⟩ := lists_other (n := m₀.capacity) ho hw
  refine ⟨k.capacity, k.room, ?_, ?_, k.ended⟩
  · simp [hway, hfull, k.atOnce]
  · simp [hway, hfree, k.throughQueue]

/-- An offer is refused. -/
theorem refused (k : Carried m₀ m h) {x : Offer} (hx : x.outcome ≠ .ok ()) :
    Carried m₀ m (h ++ [.offered x]) := by
  refine ⟨k.capacity, k.room, ?_, ?_, k.ended⟩
  · simp [writtenBy_offered, takenFull_offered, hx, k.atOnce]
  · simp [writtenBy_offered, takenFree_offered, hx, k.throughQueue]

/-- An offer finds no room, and is written to the sink behind at once. -/
theorem pastFull (k : Carried m₀ m h) (hlen : m.queue.length = m₀.capacity) (p : ByteArray)
    (c : Counter) : Carried m₀ (m.count c)
      (h ++ [.written .atOnce p] ++ [.offered ⟨p, m.queue.length, .ok ()⟩]) := by
  refine ⟨k.capacity, k.room, ?_, ?_, k.ended⟩
  · simp only [writtenBy_append, writtenBy_written, writtenBy_offered, takenFull_append,
      takenFull_written, takenFull_offered, hlen, k.atOnce, and_self, if_true, List.append_nil]
  · simp only [writtenBy_append, writtenBy_written, writtenBy_offered, takenFree_append,
      takenFree_written, takenFree_offered, hlen, k.throughQueue, ne_eq, not_true_eq_false,
      and_false, reduceCtorEq, if_false, List.append_nil]
    rfl

/-- An offer finds room. -/
theorem taken (k : Carried m₀ m h) (hlen : m.queue.length < m₀.capacity)
    (ha : m.activity = .running) (p : ByteArray) (c : Counter) :
    Carried m₀ ({ m with queue := m.queue ++ [p] }.count c)
      (h ++ [.offered ⟨p, m.queue.length, .ok ()⟩]) := by
  have hne : m.queue.length ≠ m₀.capacity := by omega
  refine ⟨k.capacity, ?_, ?_, ?_, fun hn => absurd ha hn⟩
  · simp only [Machine.count, List.length_append, List.length_singleton]; omega
  · simp [writtenBy_offered, takenFull_offered, hne, k.atOnce]
  · simp [writtenBy_offered, takenFree_offered, hne, k.throughQueue, Machine.count]

end Carried

/-! ## Steps of the worker -/

/-- The worker is passing payloads on, and the sink behind it accepts them. -/
structure Passing (m₀ : Machine ByteArray) (Ready : σ → Prop) (os : List Offer)
    (m : Machine ByteArray) (q : List Traffic × σ) : Prop where
  carried : Carried m₀ m q.1
  ready : m.activity = .running → Ready q.2
  offers : offers q.1 = os
  nothingClosed : ∀ b ∈ q.1, b.isClosing = false

theorem nothingClosed_snoc {b : Traffic} (hopen : ∀ a ∈ h, a.isClosing = false)
    (hb : b.isClosing = false) : ∀ a ∈ h ++ [b], a.isClosing = false := by
  intro a ha
  rcases List.mem_append.1 ha with ha | ha
  · exact hopen a ha
  · rw [List.mem_singleton.1 ha]; exact hb

/-- **A step of the worker** takes the oldest payload, writes the one in hand to the sink behind, or
ends a queue that is closed and empty. -/
theorem step_passing {os : List Offer} (hacc : e.inner.Accepts Ready) {q' : List Traffic × σ}
    (k : Passing m₀ Ready os m (h, s)) (he : m.step e.work (h, s) = some (m', q')) :
    Passing m₀ Ready os m' q' := by
  obtain ⟨c, hready, hos, hopen⟩ := k
  obtain ⟨ha, ⟨y, rest, hi, hq, rfl, rfl⟩ | ⟨y, hi, hf⟩ | ⟨hi, hq, hc, hf⟩⟩ :=
    Machine.step_cases he
  · -- the oldest payload goes from the queue into the hand
    have hr := c.room
    rw [hq, List.length_cons] at hr
    refine ⟨⟨c.capacity, by show rest.length ≤ m₀.capacity; omega, c.atOnce, ?_,
      fun hn => absurd ha hn⟩, hready, hos, hopen⟩
    simp [c.throughQueue, hi, hq]
  · -- the payload in hand is written
    obtain ⟨hok, hready'⟩ := hacc y s (hready ha)
    have hw : e.work.process y (h, s) =
        (.ok (), h ++ [.written .throughQueue y], (e.inner.write y s).2) := by
      simp [Surroundings.work, Queue.work, Destination.recorded, hok]
    rw [Machine.handle_ok hw] at hf
    obtain ⟨rfl, rfl⟩ : m' = _ ∧ q' = _ := Prod.mk.inj hf
    refine ⟨⟨c.capacity, c.room, ?_, ?_, fun hn => absurd ha hn⟩, fun _ => hready', ?_,
      nothingClosed_snoc hopen rfl⟩
    · simp [writtenBy_written, takenFull_written, c.atOnce]
    · simp [writtenBy_written, takenFree_written, c.throughQueue, hi]
    · simpa [offers_written] using hos
  · -- the queue is closed and empty: the worker ends
    obtain ⟨a, hna, hfin⟩ := Machine.finish_eq e.work m (h, s)
    rw [hfin] at hf
    obtain ⟨rfl, rfl⟩ : m' = _ ∧ q' = _ := Prod.mk.inj hf
    -- the hook leaves the history as it is
    have hq' : (if m.hook = .none then (h, s) else e.work.finish m.hook (h, s)).1 = h := by
      split <;> rfl
    refine ⟨⟨c.capacity, c.room, ?_, ?_, fun _ => ⟨hi, hq, hc⟩⟩, fun hr => absurd hr hna, ?_, ?_⟩
    · rw [hq']; exact c.atOnce
    · rw [hq']; exact c.throughQueue
    · rw [hq']; exact hos
    · rw [hq']; exact hopen

/-- The worker of a queue that is being closed writes everything that waits, and ends. -/
theorem drain_passing {os : List Offer} (hacc : e.inner.Accepts Ready)
    (k : Passing m₀ Ready os m (h, s)) (hc : m.isClosed) :
    Passing m₀ Ready os (m.drain e.work (h, s)).1 (m.drain e.work (h, s)).2 ∧
      (m.drain e.work (h, s)).1.activity ≠ .running :=
  ⟨Machine.steps_keep (fun k e => step_passing hacc k e) _ k, Machine.drain_ends e.work (h, s) hc⟩

/-! ## The queue with its worker -/

/-- **What holds of a queue at every moment**, for a worker that was once made as `m₀`. -/
structure Line.Safe (m₀ : Machine ByteArray) (Ready : σ → Prop) (c : Line σ) : Prop where
  carried : Carried m₀ c.queue.machine c.history
  fallbacks : c.queue.fallbacks = foundFull m₀.capacity c.history
  opened : c.queue.closed = false → c.queue.machine.isClosed = false ∧
    c.queue.machine.joined = false ∧ Ready c.state ∧ (∀ b ∈ c.history, b.isClosing = false) ∧
    ∀ x ∈ offers c.history, x.outcome = .ok ()
  closed : c.queue.closed = true → c.queue.machine.activity ≠ .running ∧
    .closedBehind ∈ c.history ∧ ∃ o, .closed o ∈ c.history
  follows : c.history.Pairwise Traffic.Follows

/-- While nothing is closed, anything may come. -/
theorem follows_of_open (hopen : ∀ b ∈ h, b.isClosing = false) (b : Traffic) :
    ∀ a ∈ h, Traffic.Follows a b := by
  intro a ha
  have := hopen a ha
  cases a with
  | offered => trivial
  | written => trivial
  | closedBehind => simp [Traffic.isClosing] at this
  | closed => simp [Traffic.isClosing] at this

theorem pairwise_snoc {b : Traffic} (hf : h.Pairwise Traffic.Follows)
    (hb : ∀ a ∈ h, Traffic.Follows a b) : (h ++ [b]).Pairwise Traffic.Follows := by
  rw [List.pairwise_append]
  exact ⟨hf, List.pairwise_singleton _ _, by simpa using hb⟩

namespace Line.Safe

variable {c : Line σ}

/-- A queue that was just made. -/
theorem start {name : String} {capacity : ℕ} {policy : Policy} {hook : Hook}
    (hm : Machine.new name capacity policy hook = .ok m₀) (hs : Ready s) :
    Safe m₀ Ready { queue := { machine := m₀ }, state := s } := by
  obtain ⟨hcap, rfl⟩ := Machine.new_ok hm
  exact
    { carried := ⟨rfl, Nat.zero_le _, rfl, rfl, fun ha => absurd rfl ha⟩
      fallbacks := rfl
      opened := fun _ => ⟨rfl, rfl, hs, by simp, by simp [offers]⟩
      closed := fun hc => by simp at hc
      follows := .nil }

/-- The worker runs while the queue is open. -/
theorem running (k : Safe m₀ Ready c) (ho : c.queue.closed = false) :
    c.queue.machine.activity = .running := by
  by_contra ha
  have := (k.carried.ended ha).2.2
  simp [(k.opened ho).1] at this

end Line.Safe

variable {c : Line σ}

/-- A write to a queue that was closed is refused, and nothing is passed on. -/
theorem write_safe_closed (hpos : 0 < m₀.capacity) (k : c.Safe m₀ Ready)
    (hc : c.queue.closed = true) (p : ByteArray) : (c.move e (.write p)).Safe m₀ Ready := by
  obtain ⟨ha, hbehind, o, ho⟩ := k.closed hc
  obtain ⟨-, hq, -⟩ := k.carried.ended ha
  have hn : (0 : ℕ) ≠ m₀.capacity := by omega
  simp only [Line.move, Queue.write, hc, if_true]
  refine ⟨k.carried.refused (by simp [closedOutcome, Outcome.fault]), ?_,
    fun ho => by simp [hc] at ho,
    fun _ => ⟨ha, List.mem_append_left _ hbehind, o, List.mem_append_left _ ho⟩,
    pairwise_snoc k.follows ?_⟩
  · simp [foundFull_offered, hq, hn, k.fallbacks]
  · intro a _
    cases a <;> simp [Traffic.Follows, Traffic.write?]

/-- **A write to an open queue** is taken: into the queue if there is room, and otherwise it goes to
the sink behind at once. -/
theorem write_safe_open (hacc : e.inner.Accepts Ready) (k : c.Safe m₀ Ready)
    (hc : c.queue.closed = false) (p : ByteArray) : (c.move e (.write p)).Safe m₀ Ready := by
  obtain ⟨hmc, hj, hready, hopen, hoks⟩ := k.opened hc
  have hcap := k.carried.capacity
  have hroom := k.carried.room
  obtain ⟨hm, -⟩ | ⟨-, hfull, he⟩ | ⟨-, hfree, he⟩ := c.queue.machine.submit_cases p
  · simp [hmc] at hm
  · -- no room: the payload is written to the sink behind
    obtain ⟨hok, hready'⟩ := hacc p c.state hready
    have hlen : c.queue.machine.queue.length = m₀.capacity := by omega
    have hw : (e.inner.recorded .atOnce).write p (c.history, c.state) =
        (.ok (), c.history ++ [.written .atOnce p], (e.inner.write p c.state).2) := by
      simp [Destination.recorded, hok]
    have hopen' := nothingClosed_snoc hopen (b := .written .atOnce p) rfl
    simp only [Line.move, Queue.write, hc, he, hw, Bool.false_eq_true, if_false]
    refine ⟨k.carried.pastFull hlen p _, ?_,
      fun _ => ⟨hmc, hj, hready', nothingClosed_snoc hopen' rfl, ?_⟩,
      fun ho => by simp at ho,
      pairwise_snoc (pairwise_snoc k.follows (follows_of_open hopen _)) (follows_of_open hopen' _)⟩
    · simp only [foundFull_append, foundFull_written, foundFull_offered, hlen, if_true,
        k.fallbacks, Nat.add_zero]
    · simp only [offers_append, offers_written, offers_offered, List.append_nil]
      simpa [or_imp, forall_and] using hoks
  · -- there is room: the payload goes to the end of the queue
    have hlen : c.queue.machine.queue.length ≠ m₀.capacity := by omega
    simp only [Line.move, Queue.write, hc, he, Bool.false_eq_true, if_false]
    refine ⟨k.carried.taken (by omega) (k.running hc) p _, ?_,
      fun _ => ⟨hmc, hj, hready, nothingClosed_snoc hopen rfl, ?_⟩, fun ho => by simp at ho,
      pairwise_snoc k.follows (follows_of_open hopen _)⟩
    · simp [foundFull_offered, hlen, k.fallbacks]
    · simpa [offers_offered, or_imp, forall_and] using hoks

/-- A step of the worker. Once the queue is closed there is none. -/
theorem deliver_safe (hacc : e.inner.Accepts Ready) (k : c.Safe m₀ Ready) :
    (c.move e .deliver).Safe m₀ Ready := by
  simp only [Line.move]
  split
  swap
  · exact k
  rename_i m h s he
  cases hc : c.queue.closed with
  | false =>
    obtain ⟨hmc, hj, hready, hopen, hoks⟩ := k.opened hc
    have kp := step_passing hacc ⟨k.carried, fun _ => hready, rfl, hopen⟩ he
    obtain ⟨hphase, hjoin⟩ := Machine.step_fixed he
    have hmc' : m.isClosed = false := (Machine.isClosed_congr hphase).trans hmc
    -- a worker ends only when its queue is closed
    have ha' : m.activity = .running := by
      by_contra ha
      have := (kp.carried.ended ha).2.2
      simp [hmc'] at this
    have hos : offers h = offers c.history := kp.offers
    refine ⟨kp.carried, ?_, fun _ => ⟨hmc', hjoin.trans hj, kp.ready ha', kp.nothingClosed, ?_⟩,
      fun ho => by simp at ho, ?_⟩
    · simp [foundFull, hos, k.fallbacks]
    · simpa [hos] using hoks
    · exact List.pairwise_of_forall_mem_list fun a ha b _ =>
        follows_of_open kp.nothingClosed b a ha
  | true =>
    -- the worker has ended
    obtain ⟨ha, -⟩ := Machine.step_cases he
    exact absurd ha (k.closed hc).1

/-- **Closing** first lets the worker write everything that waits, then closes the sink behind. -/
theorem close_safe (hacc : e.inner.Accepts Ready) (k : c.Safe m₀ Ready) :
    (c.move e .close).Safe m₀ Ready := by
  simp only [Line.move, Queue.close]
  cases hc : c.queue.closed with
  | true =>
    -- closing once more does nothing
    obtain ⟨ha, hbehind, o, ho⟩ := k.closed hc
    simp only [if_true]
    refine ⟨k.carried.other rfl rfl, ?_, fun ho => by simp [hc] at ho,
      fun _ => ⟨ha, List.mem_append_left _ hbehind, o, List.mem_append_left _ ho⟩,
      pairwise_snoc k.follows ?_⟩
    · simp [foundFull, offers, Traffic.offer?, k.fallbacks]
    · intro a _
      cases a <;> simp [Traffic.Follows, Traffic.write?]
  | false =>
    obtain ⟨hmc, hj, hready, hopen, hoks⟩ := k.opened hc
    have hclose := Machine.close_isClosed c.queue.machine
    obtain ⟨p, hp⟩ := c.queue.machine.close_eq
    have kc : Passing m₀ Ready (offers c.history) c.queue.machine.close (c.history, c.state) := by
      rw [hp] at hclose ⊢
      exact ⟨⟨k.carried.capacity, k.carried.room, k.carried.atOnce, k.carried.throughQueue,
        fun ha => absurd (k.running hc) ha⟩, fun _ => hready, rfl, hopen⟩
    have hj' : c.queue.machine.close.joined = false := by rw [hp]; exact hj
    -- first the worker comes to its end, then the sink behind is closed
    obtain ⟨kd, hend⟩ := drain_passing hacc kc hclose
    simp only [Machine.stop, hj', Bool.false_eq_true, if_false]
    rcases hd : c.queue.machine.close.drain e.work (c.history, c.state) with ⟨m, h, s⟩
    rw [hd] at kd hend
    obtain ⟨hi, hq, -⟩ := kd.carried.ended hend
    have hos : offers h = offers c.history := kd.offers
    have hfollows : h.Pairwise Traffic.Follows :=
      List.pairwise_of_forall_mem_list fun a ha b _ => follows_of_open kd.nothingClosed b a ha
    simp only [Destination.recorded]
    have kj : Carried m₀ { m with joined := true, phase := .stopped } h :=
      ⟨kd.carried.capacity, kd.carried.room, kd.carried.atOnce, kd.carried.throughQueue,
        fun _ => ⟨hi, hq, rfl⟩⟩
    refine ⟨(kj.other (b := .closedBehind) rfl rfl).other rfl rfl, ?_, fun ho => by simp at ho,
      fun _ => ⟨hend, by simp, _, List.mem_append_right _ (List.mem_singleton_self _)⟩,
      pairwise_snoc (pairwise_snoc hfollows (follows_of_open kd.nothingClosed _)) ?_⟩
    · simp only [foundFull_append,
        (lists_other (n := m₀.capacity) (b := .closedBehind) rfl rfl).2.2.2,
        (lists_other (n := m₀.capacity) (b := .closed _) rfl rfl).2.2.2, Nat.add_zero]
      simp [foundFull, hos, k.fallbacks]
    · intro a ha
      rcases List.mem_append.1 ha with ha | ha
      · exact follows_of_open kd.nothingClosed _ a ha
      · rw [List.mem_singleton.1 ha]; exact ⟨rfl, by simp⟩

theorem move_safe (hpos : 0 < m₀.capacity) (hacc : e.inner.Accepts Ready) (k : c.Safe m₀ Ready)
    (a : Line.Move) : (c.move e a).Safe m₀ Ready := by
  cases a with
  | write p =>
    cases hc : c.queue.closed with
    | false => exact write_safe_open hacc k hc p
    | true => exact write_safe_closed hpos k hc p
  | deliver => exact deliver_safe hacc k
  | close => exact close_safe hacc k

/-- **Every run keeps a queue safe.** -/
theorem run_safe (hpos : 0 < m₀.capacity) (hacc : e.inner.Accepts Ready) :
    ∀ (ms : List Line.Move) (c : Line σ), c.Safe m₀ Ready → (c.run e ms).Safe m₀ Ready := by
  intro ms
  induction ms with
  | nil => intro c k; exact k
  | cons a ms ih => intro c k; exact ih _ (move_safe hpos hacc k a)

/-! ## What follows for what passes -/

/-- **What can be seen of a queue of that length**, at some moment of a run. -/
structure Line.Delivers (capacity : ℕ) (c : Line σ) : Prop where
  /-- Payloads that found the queue full were written to the sink behind at once, in order. -/
  atOnce : writtenBy .atOnce c.history = takenFull capacity c.history
  /-- Of the others the first ones were written by the worker, in order. -/
  inOrder : writtenBy .throughQueue c.history <+: takenFree capacity c.history
  /-- Once the queue was closed the worker has written all of them, so that the payloads that were
  taken are those that the sink behind was given, each as often, and the sink behind is closed. -/
  all : ∀ o, .closed o ∈ c.history →
    writtenBy .throughQueue c.history = takenFree capacity c.history ∧
      ((writes c.history).map Prod.snd).Perm ((takes c.history).map Offer.payload) ∧
      .closedBehind ∈ c.history
  /-- Nothing is written to a sink behind that was closed, and it is closed only once; a queue that
  was closed refuses every payload and passes nothing on. -/
  follows : c.history.Pairwise Traffic.Follows
  /-- Before that every payload is taken. -/
  taken : (∀ o, .closed o ∉ c.history) → ∀ x ∈ offers c.history, x.outcome = .ok ()
  /-- The writes that found the queue full are counted. -/
  fallbacks : c.queue.fallbacks = foundFull capacity c.history
  room : c.queue.machine.queue.length ≤ capacity

/-- **A queue in front of a sink that accepts every write loses nothing and repeats nothing.** This
holds at every moment of every run, for every capacity, policy and hook. -/
theorem delivered_exactly_once {name : String} {capacity : ℕ} {policy : Policy} {hook : Hook}
    (hm : Machine.new name capacity policy hook = .ok m₀) (e : Surroundings σ)
    (hacc : e.inner.Accepts Ready) (hs : Ready s) (ms : List Line.Move) :
    Line.Delivers capacity (Line.run e { queue := { machine := m₀ }, state := s } ms) := by
  have hcap : m₀.capacity = capacity := by rw [(Machine.new_ok hm).2]
  have hpos : 0 < m₀.capacity := by rw [hcap]; exact (Machine.new_ok hm).1
  have k := run_safe hpos hacc ms _ (Line.Safe.start hm hs)
  rw [← hcap]
  refine ⟨k.carried.atOnce, ?_, fun o ho => ?_, k.follows, fun hn => ?_, k.fallbacks,
    k.carried.room⟩
  · rw [k.carried.throughQueue, List.append_assoc]; exact List.prefix_append _ _
  · -- the queue is closed, so nothing is in hand and nothing waits
    cases hc : (Line.run e { queue := { machine := m₀ }, state := s } ms).queue.closed with
    | false =>
      have := (k.opened hc).2.2.2.1 _ ho
      simp [Traffic.isClosing] at this
    | true =>
      obtain ⟨ha, hbehind, -⟩ := k.closed hc
      obtain ⟨hi, hq, -⟩ := k.carried.ended ha
      have hall := k.carried.throughQueue
      rw [hi, hq] at hall
      simp only [Option.toList_none, List.append_nil] at hall
      refine ⟨hall.symm, ?_, hbehind⟩
      have h₁ := writes_perm (Line.run e { queue := { machine := m₀ }, state := s } ms).history
      rw [k.carried.atOnce, ← hall] at h₁
      exact h₁.symm.trans (takes_perm _ _)
  · cases hc : (Line.run e { queue := { machine := m₀ }, state := s } ms).queue.closed with
    | false => exact (k.opened hc).2.2.2.2
    | true =>
      obtain ⟨-, -, o, ho⟩ := k.closed hc
      exact absurd ho (hn o)

/-- A memory sink by itself. -/
def memoryBehind : Destination Memory where
  name _ := Memory.name
  write p m := m.write p
  flush m := (.ok (), m)
  close m := (.ok (), m.close)

/-- Room for one payload, in front of a memory sink: the second of four payloads overtakes the
first, and the last comes too late. -/
theorem delivered_exactly_once_overtaking :
    ∃ m₀ : Machine ByteArray, ∃ e : Surroundings Memory,
      Machine.new "worker" 1 .drop .runs = .ok m₀ ∧ e.inner.Accepts (fun m => m.closed = false) ∧
      (({} : Memory).closed = false) ∧
      Line.Delivers 1 (Line.run e { queue := { machine := m₀ }, state := {} }
        [.write ⟨#[1]⟩, .write ⟨#[2]⟩, .deliver, .write ⟨#[3]⟩, .close, .write ⟨#[4]⟩]) ∧
      (Line.run e { queue := { machine := m₀ }, state := {} }
        [.write ⟨#[1]⟩, .write ⟨#[2]⟩, .deliver, .write ⟨#[3]⟩, .close,
          .write ⟨#[4]⟩]).state.writes = #[⟨#[2]⟩, ⟨#[1]⟩, ⟨#[3]⟩] := by
  have hm : Machine.new (α := ByteArray) "worker" 1 .drop .runs =
      .ok { name := "worker", capacity := 1, policy := .drop, hook := .runs } := rfl
  have hacc : memoryBehind.Accepts (fun m => m.closed = false) := by
    intro p m hs
    simp [memoryBehind, Memory.write, hs]
  have hrun := delivered_exactly_once (s := ({} : Memory)) hm
    ⟨memoryBehind, fun _ m => m, fun _ m => m⟩ hacc rfl
    [.write ⟨#[1]⟩, .write ⟨#[2]⟩, .deliver, .write ⟨#[3]⟩, .close, .write ⟨#[4]⟩]
  exact ⟨_, _, hm, hacc, rfl, hrun, rfl⟩

end Logging.Sink
