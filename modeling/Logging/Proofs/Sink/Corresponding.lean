import Logging.Proofs.Worker.Steps
import Logging.Sink.Buffer
import Logging.Sink.Queue

/-!
# Buffers and queues over corresponding states

Two states correspond if a map takes the one to the other. What the sink behind does to the one it
does to the other, and then so does the sink in front.

* `Buffer.write_map`, `Buffer.close_map`, …: a buffer does the same over both states.
* `Machine.under`: a worker with another policy. A policy says what becomes of faults, so that it does
  not matter where there are none.
* `Machine.step_under`, `Machine.stop_under`, `Queue.write_under`, …: **where nothing fails, workers
  and queues do the same over both states, whatever the policy.**
-/

namespace Logging

open Sink Worker

namespace Worker.Machine

variable {α σ τ : Type} {φ : σ → τ} {work : Work α σ} {work' : Work α τ} {s : σ}

/-- The worker has another policy. -/
def under (policy : Policy) (m : Machine α) : Machine α := { m with policy }

theorem submit_under (policy : Policy) (m : Machine α) (x : α) :
    (m.under policy).submit x = ((m.submit x).1, (m.submit x).2.under policy) := by
  unfold submit
  show (if m.isClosed then _ else if m.isFull then _ else _) = _
  split
  · rfl
  · split <;> rfl

/-- The item in hand, if there is one, is handled well, and likewise in the other state. -/
def Smooth (work : Work α σ) (work' : Work α τ) (φ : σ → τ) (m : Machine α) (s : σ) : Prop :=
  ∀ x, m.inHand = some x → (work.process x s).1 = .ok () ∧
    work'.process x (φ s) = (.ok (), φ (work.process x s).2)

/-- **A step in which nothing fails** does not depend on the policy. -/
theorem step_under {m : Machine α} (h : Smooth work work' φ m s)
    (hfinish : ∀ k s, work'.finish k (φ s) = φ (work.finish k s)) (policy : Policy) :
    (m.under policy).step work' (φ s) =
      (m.step work s).map fun r => (r.1.under policy, φ r.2) := by
  have hactivity : (m.under policy).activity = m.activity := rfl
  have hhand : (m.under policy).inHand = m.inHand := rfl
  have hqueue : (m.under policy).queue = m.queue := rfl
  have hclosed : (m.under policy).isClosed = m.isClosed := rfl
  have hhook : (m.under policy).hook = m.hook := rfl
  unfold step
  rw [hactivity, hhand, hqueue, hclosed]
  by_cases hrun : m.activity = .running
  swap
  · simp [hrun]
  simp only [hrun, ne_eq, not_true_eq_false, if_false]
  cases hx : m.inHand with
  | some x =>
    obtain ⟨hok, hx'⟩ := h x hx
    have hs : work.process x s = (.ok (), (work.process x s).2) := by rw [← hok]
    simp only [handle_ok hs, handle_ok hx']
    rfl
  | none =>
    cases hq : m.queue with
    | cons x rest => rfl
    | nil =>
      dsimp only
      split
      · unfold finish
        rw [hhook]
        cases m.hook <;> simp [hfinish] <;> rfl
      · rfl

/-- Several steps in which nothing fails. -/
theorem steps_under {P : Machine α → σ → Prop} (hP : ∀ {m s}, P m s → Smooth work work' φ m s)
    (hstep : ∀ {m s m' s'}, P m s → m.step work s = some (m', s') → P m' s')
    (hfinish : ∀ k s, work'.finish k (φ s) = φ (work.finish k s)) (policy : Policy) :
    ∀ (n : ℕ) {m : Machine α} {s : σ}, P m s → (m.under policy).steps work' n (φ s) =
      ((m.steps work n s).1.under policy, φ (m.steps work n s).2) := by
  intro n
  induction n with
  | zero => exact fun _ => rfl
  | succ n ih =>
    intro m s h
    unfold steps
    rw [step_under (hP h) hfinish policy]
    cases hs : m.step work s with
    | none => rfl
    | some r => exact ih (hstep h hs)

/-- **Stopping a worker** that never fails does not depend on its policy. -/
theorem stop_under {P : Machine α → σ → Prop} (hP : ∀ {m s}, P m s → Smooth work work' φ m s)
    (hstep : ∀ {m s m' s'}, P m s → m.step work s = some (m', s') → P m' s')
    (hfinish : ∀ k s, work'.finish k (φ s) = φ (work.finish k s)) (policy : Policy)
    {m : Machine α} (h : P m.close s) : (m.under policy).stop work' (φ s) =
      ((m.stop work s).1, (m.stop work s).2.1.under policy, φ (m.stop work s).2.2) := by
  have hclose : (m.under policy).close = m.close.under policy := by
    unfold close under
    cases hp : m.phase <;> simp [hp]
  have hdrain : (m.close.under policy).drain work' (φ s) = _ :=
    steps_under hP hstep hfinish policy m.close.remaining h
  have hjoined : (m.close.under policy).joined = m.close.joined := rfl
  unfold stop
  dsimp only
  rw [hclose, hjoined]
  split
  · rfl
  · rw [hdrain]
    rfl

end Worker.Machine

namespace Sink

variable {σ τ : Type} {φ : σ → τ} {inner : Destination σ} {inner' : Destination τ} {s : σ}

namespace Buffer

theorem pass_map (h : ∀ p, inner'.write p (φ s) = ((inner.write p s).1, φ (inner.write p s).2))
    (b : Buffer) : b.pass inner' (φ s) =
      ((b.pass inner s).1, (b.pass inner s).2.1, φ (b.pass inner s).2.2) := by
  unfold pass
  split
  · rfl
  · rw [h]

theorem pass_ok (h : ∀ p, (inner.write p s).1 = .ok ()) (b : Buffer) :
    (b.pass inner s).1 = .ok () := by
  unfold pass
  split
  · rfl
  · exact h _

theorem write_ok (h : ∀ p, (inner.write p s).1 = .ok ()) (p : ByteArray) {b : Buffer}
    (hopen : b.closed = false) : (b.write inner p s).1 = .ok () := by
  unfold write
  rw [if_neg (by simp [hopen])]
  dsimp only
  split
  · exact pass_ok h _
  · rfl

theorem write_map (h : ∀ p, inner'.write p (φ s) = ((inner.write p s).1, φ (inner.write p s).2))
    (p : ByteArray) (b : Buffer) : b.write inner' p (φ s) =
      ((b.write inner p s).1, (b.write inner p s).2.1, φ (b.write inner p s).2.2) := by
  unfold write
  split
  · rfl
  dsimp only
  split
  · exact pass_map h _
  · rfl

theorem flush_map (h : ∀ p, inner'.write p (φ s) = ((inner.write p s).1, φ (inner.write p s).2))
    {b : Buffer} (hflush : inner'.flush (φ (b.pass inner s).2.2) =
      ((inner.flush (b.pass inner s).2.2).1, φ (inner.flush (b.pass inner s).2.2).2)) :
    b.flush inner' (φ s) =
      ((b.flush inner s).1, (b.flush inner s).2.1, φ (b.flush inner s).2.2) := by
  unfold flush
  split
  · rfl
  rw [pass_map h]
  rcases hpass : b.pass inner s with ⟨e | u, b', s'⟩
  · rfl
  · rw [hpass] at hflush
    simp only [hflush]

theorem flush_ok (h : ∀ p, (inner.write p s).1 = .ok ()) {b : Buffer} (hopen : b.closed = false)
    (hflush : (inner.flush (b.pass inner s).2.2).1 = .ok ()) : (b.flush inner s).1 = .ok () := by
  have hpass := pass_ok h b
  unfold flush
  rw [if_neg (by simp [hopen])]
  rcases he : b.pass inner s with ⟨o, b', s'⟩
  rw [he] at hpass hflush
  obtain rfl : o = .ok () := hpass
  exact hflush

variable [Terminal σ] [Terminal τ]

theorem stopTimer_map (hreport : ∀ line s, report line (φ s) = φ (report line s)) (t : Timer)
    (s : σ) : stopTimer t (φ s) = φ (stopTimer t s) := by
  unfold stopTimer
  split
  · exact hreport _ s
  · rfl

/-- What is left of a buffer that is being closed. -/
def closing (b : Buffer) : Buffer := { b with closed := true, armed := false, timer := .ended }

theorem close_map (hreport : ∀ line s, report line (φ s) = φ (report line s)) {b : Buffer}
    (h : ∀ p, inner'.write p (φ (stopTimer b.timer s)) =
      ((inner.write p (stopTimer b.timer s)).1, φ (inner.write p (stopTimer b.timer s)).2))
    (hclose : inner'.close (φ (b.closing.pass inner (stopTimer b.timer s)).2.2) =
      ((inner.close (b.closing.pass inner (stopTimer b.timer s)).2.2).1,
        φ (inner.close (b.closing.pass inner (stopTimer b.timer s)).2.2).2)) :
    b.close inner' (φ s) =
      ((b.close inner s).1, (b.close inner s).2.1, φ (b.close inner s).2.2) := by
  unfold close
  split
  · rfl
  dsimp only
  rw [stopTimer_map hreport]
  have hpass : Buffer.pass inner' b.closing _ = _ := pass_map h b.closing
  unfold closing at hpass hclose
  rw [hpass]
  rcases he : pass inner { b with closed := true, armed := false, timer := .ended }
    (stopTimer b.timer s) with ⟨(f | p) | u, b', s'⟩
  · rw [he] at hclose
    simp only [hclose]
  · rfl
  · rw [he] at hclose
    simp only [hclose]

/-- A buffer that is given up, where closing it does not depend on the state. -/
theorem abandon_map (hreport : ∀ line s, report line (φ s) = φ (report line s)) {b : Buffer}
    (hclose : b.close inner' (φ s) =
      ((b.close inner s).1, (b.close inner s).2.1, φ (b.close inner s).2.2)) :
    b.abandon inner' (φ s) =
      ((b.abandon inner s).1, (b.abandon inner s).2.1, φ (b.abandon inner s).2.2) := by
  unfold abandon
  rw [hclose]
  rcases b.close inner s with ⟨(f | p) | u, b', s'⟩
  · simp [hreport]
  · rfl
  · rfl

/-- A buffer whose waiting time ends, where passing on goes well. -/
theorem expire_map (h : ∀ p, inner'.write p (φ s) = ((inner.write p s).1, φ (inner.write p s).2))
    {b : Buffer} (hok : (b.pass inner s).1 = .ok ()) :
    b.expire inner' (φ s) = ((b.expire inner s).1, φ (b.expire inner s).2) := by
  unfold expire
  split
  · rw [pass_map h]
    rcases hpass : b.pass inner s with ⟨o, b', s'⟩
    rw [hpass] at hok
    obtain rfl : o = .ok () := hok
    rfl
  · rfl

end Buffer

namespace Queue

/-- The worker of the queue has another policy. -/
def under (policy : Policy) (q : Queue) : Queue := { q with machine := q.machine.under policy }

/-- A queue takes payloads whatever the policy of its worker is. -/
theorem write_under (h : ∀ p, inner'.write p (φ s) = ((inner.write p s).1, φ (inner.write p s).2))
    (policy : Policy) (p : ByteArray) (q : Queue) : (q.under policy).write inner' p (φ s) =
      ((q.write inner p s).1, (q.write inner p s).2.1.under policy, φ (q.write inner p s).2.2) := by
  have hclosed : (q.under policy).closed = q.closed := rfl
  have hsubmit : (q.under policy).machine.submit p = _ := q.machine.submit_under policy p
  unfold write
  rw [hclosed, hsubmit]
  split
  · rfl
  · rcases q.machine.submit p with ⟨_ | x | x, m⟩
    · rfl
    · simp only [h]
      rfl
    · rfl

theorem write_ok (h : ∀ p, (inner.write p s).1 = .ok ()) (p : ByteArray) {q : Queue}
    (hopen : q.closed = false) (haccepting : q.machine.isClosed = false) :
    (q.write inner p s).1 = .ok () := by
  unfold write
  rw [if_neg (by simp [hopen])]
  rcases q.machine.submit_cases p with ⟨hclosed, -⟩ | ⟨-, -, hs⟩ | ⟨-, -, hs⟩
  · rw [haccepting] at hclosed
    cases hclosed
  · rw [hs]
    exact h p
  · rw [hs]

/-- A queue is closed whatever the policy of its worker is. -/
theorem close_under {work : Work ByteArray σ} {work' : Work ByteArray τ} {policy : Policy}
    {q : Queue} (hstop : (q.machine.under policy).stop work' (φ s) = ((q.machine.stop work s).1,
      (q.machine.stop work s).2.1.under policy, φ (q.machine.stop work s).2.2))
    (hclose : inner'.close (φ (q.machine.stop work s).2.2) =
      ((inner.close (q.machine.stop work s).2.2).1, φ (inner.close (q.machine.stop work s).2.2).2)) :
    (q.under policy).close inner' work' (φ s) = ((q.close inner work s).1,
      (q.close inner work s).2.1.under policy, φ (q.close inner work s).2.2) := by
  have hclosed : (q.under policy).closed = q.closed := rfl
  have hmachine : (q.under policy).machine = q.machine.under policy := rfl
  unfold close
  rw [hclosed, hmachine, hstop]
  split
  · rfl
  · simp only [hclose]
    rfl

/-- A queue that is given up, where closing it does not depend on the policy. -/
theorem abandon_under [Terminal σ] [Terminal τ]
    (hreport : ∀ line s, report line (φ s) = φ (report line s)) {work : Work ByteArray σ}
    {work' : Work ByteArray τ} {policy : Policy} {q : Queue}
    (hclose : (q.under policy).close inner' work' (φ s) = ((q.close inner work s).1,
      (q.close inner work s).2.1.under policy, φ (q.close inner work s).2.2)) :
    (q.under policy).abandon inner' work' (φ s) = ((q.abandon inner work s).1,
      (q.abandon inner work s).2.1.under policy, φ (q.abandon inner work s).2.2) := by
  unfold abandon
  rw [hclose]
  rcases q.close inner work s with ⟨(f | p) | u, q', s'⟩
  · simp [hreport]
  · rfl
  · rfl

end Queue

end Sink

end Logging
