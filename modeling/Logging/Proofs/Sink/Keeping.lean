import Logging.Sink.Buffer
import Logging.Sink.FanOut
import Logging.Sink.Queue
import Logging.Proofs.Worker.Attempts

/-!
# What passing on keeps

A sink that passes bytes on does nothing to the rest of the state but what the sink behind does to it,
and what is reported. So it keeps what those keep.

* `Destination.Keeps`: the operations of a sink keep a property of the state.
* `Buffer.pass_keeps`, `Queue.close_keeps`, `FanOut.visit_keeps`, …: **what the sink behind keeps,
  the sink in front keeps.**
* `Buffer.closed_write`, `Buffer.closed_close`, …: whether a sink is closed after an operation.
-/

namespace Logging.Sink

open Worker

variable {ι σ : Type} {I : σ → Prop} {s : σ}

/-- The operations of a sink keep a property of the state. -/
structure Destination.Keeps (I : σ → Prop) (d : Destination σ) : Prop where
  write : ∀ (p : ByteArray) {s : σ}, I s → I (d.write p s).2
  flush : ∀ {s : σ}, I s → I (d.flush s).2
  close : ∀ {s : σ}, I s → I (d.close s).2

theorem Destination.keeps_absent (I : σ → Prop) : (absent : Destination σ).Keeps I :=
  ⟨fun _ _ h => h, fun h => h, fun h => h⟩

variable {inner : Destination σ}

/-! ## Buffers -/

namespace Buffer

theorem pass_keeps (hinner : inner.Keeps I) (b : Buffer) (h : I s) : I (b.pass inner s).2.2 := by
  unfold pass
  split
  · exact h
  · exact hinner.write b.pending h

theorem write_keeps (hinner : inner.Keeps I) (p : ByteArray) (b : Buffer) (h : I s) :
    I (b.write inner p s).2.2 := by
  unfold write
  split
  · exact h
  · dsimp only
    split
    · exact pass_keeps hinner _ h
    · exact h

theorem flush_keeps (hinner : inner.Keeps I) (b : Buffer) (h : I s) : I (b.flush inner s).2.2 := by
  unfold flush
  split
  · exact h
  · have hpass := pass_keeps hinner b h
    split
    · rename_i he
      rw [he] at hpass
      exact hinner.flush hpass
    · exact hpass

section Reports

variable [Terminal σ] (hreport : ∀ line {s : σ}, I s → I (report line s))

include hreport

theorem stopTimer_keeps (t : Timer) (h : I s) : I (stopTimer t s) := by
  unfold stopTimer
  split
  · exact hreport _ h
  · exact h

theorem close_keeps (hinner : inner.Keeps I) (b : Buffer) (h : I s) : I (b.close inner s).2.2 := by
  unfold close
  split
  · exact h
  · have hpass := pass_keeps hinner { b with closed := true, armed := false, timer := .ended }
      (stopTimer_keeps hreport b.timer h)
    dsimp only
    split
    · rename_i he
      rw [he] at hpass
      exact hpass
    · rename_i he
      rw [he] at hpass
      exact hinner.close hpass

theorem expire_keeps (hinner : inner.Keeps I) (b : Buffer) (h : I s) : I (b.expire inner s).2 := by
  unfold expire
  split
  · have hpass := pass_keeps hinner b h
    split
    · rename_i he
      rw [he] at hpass
      exact hpass
    · rename_i he
      rw [he] at hpass
      exact hreport _ hpass
    · rename_i he
      rw [he] at hpass
      exact hpass
  · exact h

theorem abandon_keeps (hinner : inner.Keeps I) (b : Buffer) (h : I s) :
    I (b.abandon inner s).2.2 := by
  have hclose := close_keeps hreport hinner b h
  unfold abandon
  split
  · rename_i he
    rw [he] at hclose
    exact hreport _ hclose
  · exact hclose

end Reports

/-! Whether a buffer is closed -/

theorem closed_pass (inner : Destination σ) (b : Buffer) (s : σ) :
    (b.pass inner s).2.1.closed = b.closed := by
  unfold pass
  split <;> rfl

theorem closed_write (inner : Destination σ) (p : ByteArray) (b : Buffer) (s : σ) :
    (b.write inner p s).2.1.closed = b.closed := by
  unfold write
  split
  · rfl
  · dsimp only
    split
    · exact closed_pass inner _ s
    · rfl

theorem closed_flush (inner : Destination σ) (b : Buffer) (s : σ) :
    (b.flush inner s).2.1.closed = b.closed := by
  unfold flush
  split
  · rfl
  · have hpass := closed_pass inner b s
    split
    · rename_i he
      rw [he] at hpass
      exact hpass
    · exact hpass

theorem closed_expire [Terminal σ] (inner : Destination σ) (b : Buffer) (s : σ) :
    (b.expire inner s).1.closed = b.closed := by
  unfold expire
  split
  · have hpass := closed_pass inner b s
    split
    · rename_i he
      rw [he] at hpass
      exact hpass
    · rename_i he
      rw [he] at hpass
      exact hpass
    · rename_i he
      rw [he] at hpass
      exact hpass
  · rfl

/-- **A buffer is closed after its close**, even if that broke off. -/
theorem closed_close [Terminal σ] (inner : Destination σ) (b : Buffer) (s : σ) :
    (b.close inner s).2.1.closed = true := by
  unfold close
  split
  · assumption
  · have hpass := closed_pass inner { b with closed := true, armed := false, timer := .ended }
      (stopTimer b.timer s)
    dsimp only
    split
    · rename_i he
      rw [he] at hpass
      exact hpass
    · rename_i he
      rw [he] at hpass
      exact hpass

end Buffer

/-! ## Queues -/

namespace Queue

theorem write_keeps (hinner : inner.Keeps I) (p : ByteArray) (q : Queue) (h : I s) :
    I (q.write inner p s).2.2 := by
  unfold write
  split
  · exact h
  · split
    · exact h
    · exact hinner.write _ h
    · exact h

theorem closed_write (inner : Destination σ) (p : ByteArray) (q : Queue) (s : σ) :
    (q.write inner p s).2.1.closed = q.closed := by
  unfold write
  split
  · rfl
  · split <;> rfl

theorem close_keeps {w : Work ByteArray σ} (hinner : inner.Keeps I)
    (hprocess : ∀ p s, I s → I (w.process p s).2) (hnotify : ∀ f s, I s → I (w.notify f s))
    (hfinish : ∀ k s, I s → I (w.finish k s)) (q : Queue) (h : I s) :
    I (q.close inner w s).2.2 := by
  unfold close
  split
  · exact h
  · exact hinner.close (q.machine.stop_around hprocess hnotify hfinish h)

/-- **A queue is closed after its close**, even if its worker broke off. -/
theorem closed_close (inner : Destination σ) (w : Work ByteArray σ) (q : Queue) (s : σ) :
    (q.close inner w s).2.1.closed = true := by
  unfold close
  split
  · assumption
  · rfl

theorem abandon_keeps [Terminal σ] (hreport : ∀ line {s : σ}, I s → I (report line s))
    {w : Work ByteArray σ} (hinner : inner.Keeps I) (hprocess : ∀ p s, I s → I (w.process p s).2)
    (hnotify : ∀ f s, I s → I (w.notify f s)) (hfinish : ∀ k s, I s → I (w.finish k s)) (q : Queue)
    (h : I s) : I (q.abandon inner w s).2.2 := by
  have hclose := close_keeps hinner hprocess hnotify hfinish q h
  unfold abandon
  split
  · rename_i he
    rw [he] at hclose
    exact hreport _ hclose
  · exact hclose

end Queue

/-! ## Fan-outs -/

namespace FanOut

variable [Terminal σ] {near : ι → Destination σ}

theorem contain_keeps (hreport : ∀ line {s : σ}, I s → I (report line s)) (place : Nat)
    (member action : String) (o : Outcome) (h : I s) : I (contain place member action o s).2 := by
  unfold contain
  split
  · exact hreport _ h
  · exact h

/-- **What every member keeps, a fan-out keeps.** -/
theorem visit_keeps (hreport : ∀ line {s : σ}, I s → I (report line s)) (action : String)
    {op : Destination σ → σ → Outcome × σ} (hop : ∀ m {s : σ}, I s → I (op (near m) s).2) :
    ∀ (ms : List ι) (place : Nat) {s : σ}, I s → I (visit near action op place ms s).2 := by
  intro ms
  induction ms with
  | nil => exact fun _ _ h => h
  | cons m rest ih =>
    intro place s h
    exact ih (place + 1) (contain_keeps hreport place _ action _ (hop m h))

theorem write_keeps (hreport : ∀ line {s : σ}, I s → I (report line s))
    (hnear : ∀ m, (near m).Keeps I) (p : ByteArray) (f : FanOut ι) (h : I s) :
    I (f.write near p s).2 := by
  unfold write
  split
  · exact h
  · exact visit_keeps hreport "write" (fun m {_} h => (hnear m).write p h) f.members 0 h

theorem close_keeps (hreport : ∀ line {s : σ}, I s → I (report line s))
    (hnear : ∀ m, (near m).Keeps I) (f : FanOut ι) (h : I s) : I (f.close near s).2.2 := by
  unfold close
  split
  · exact h
  · exact visit_keeps hreport "close" (fun m {_} h => (hnear m).close h) f.members 0 h

/-- **A fan-out is closed after its close**, whatever became of its members, and still has them. -/
theorem closed_close (near : ι → Destination σ) (f : FanOut ι) (s : σ) :
    (f.close near s).2.1 = { f with closed := true } := by
  unfold close
  split
  · rename_i hclosed
    rw [← hclosed]
  · rfl

end FanOut

end Logging.Sink
