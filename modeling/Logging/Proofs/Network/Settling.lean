import Logging.Proofs.Network.Closing
import Logging.Proofs.Network.Places

/-!
# The background of a tree of sinks

* `Tree.deliver_works`: a worker hands its payload to the sinks behind.
* `Tree.Swept`: what is empty in the middle of a sweep. **A worker has its turn when those behind it
  had theirs**, so nothing is written past a payload that waits.
* `Tree.settle_works`: **when the workers have come to rest nothing waits any more**, and nothing is
  lost.
* `Tree.expire_works`: a buffer whose time is over passes on what it gathered.
-/

namespace Logging

open Sink Worker

variable {w w' : Network} {id i j n p a M : ℕ} {b : ByteArray}

namespace Network

theorem deliver_none (h : w.deliver? id = none) (n : ℕ) : w.deliver id n = w := by
  cases n <;> simp [deliver, h]

/-- A sink without a worker has nothing to deliver. -/
theorem deliver_other (h : ∀ q inner, w.cell id ≠ .queued q inner) :
    w.deliver id (w.remaining id) = w := by
  refine deliver_none ?_ _
  unfold deliver?
  split
  · rename_i q inner hq
    exact absurd hq (h q inner)
  · rfl

/-- A step of a worker that waits at no gate. -/
theorem deliver?_step {q : Queue} {inner : ℕ} {m : Machine ByteArray} {v : Network}
    (hcell : w.cell id = .queued q inner) (hp : w.paused = [])
    (hs : q.machine.step (work (destination w.cells.size inner)) w = some (m, v))
    (hb : v.blocked = false) :
    w.deliver? id = some (v.set id (.queued { q with machine := m } inner)) := by
  simp [deliver?, hcell, hp, near, hs, hb]

/-- A worker with an empty queue has nothing to deliver. -/
theorem deliver?_empty {q : Queue} {inner : ℕ} (hcell : w.cell id = .queued q inner)
    (hp : w.paused = []) (hq : q.Working) (he : q.machine.queue = []) : w.deliver? id = none := by
  simp [deliver?, hcell, hp, Machine.step, hq.running, hq.inHand, he, Machine.isClosed,
    hq.accepting]

end Network

namespace Sink.Queue

/-- A queue whose worker has its only payload in hand. -/
def busy (x : ByteArray) (q : Queue) : Queue :=
  { q with machine := { q.machine with inHand := some x, queue := [] } }

/-- A queue whose worker has handled its only payload. -/
def idle (q : Queue) : Queue :=
  { q with machine := { q.machine with
    inHand := none, queue := [], counters := q.machine.counters.bump .processed } }

theorem Working.idle {q : Queue} (h : q.Working) : q.idle.Working :=
  ⟨h.isOpen, h.running, h.accepting, h.joined, h.room, rfl, h.hook⟩

end Sink.Queue

/-- A worker with one payload takes it, writes it and then has nothing left to do. -/
theorem Network.deliver_one {q : Queue} {inner : ℕ} {x : ByteArray} {v : Network} {s f : List ℕ}
    (hcell : w.cell id = .queued q inner) (hq : q.Working) (hqueue : q.machine.queue = [x])
    (hp : w.paused = []) (hb : w.blocked = false)
    (hv : (work (destination w.cells.size inner)).process x (w.set id (.queued (q.busy x) inner)) =
      (.ok (), v))
    (ha : Alters s f (w.set id (.queued (q.busy x) inner)) v) :
    w.deliver id (w.remaining id) = v.set id (.queued q.idle inner) := by
  have hid := cell_lt hcell (by simp)
  set w₁ := w.set id (.queued (q.busy x) inner) with hw₁
  have ha₁ : Alters [id] [] w w₁ := alters_set id _ [] w
  -- the first step takes the payload, the second writes it, and then there is none
  have htake := deliver?_step (m := (q.busy x).machine) hcell hp
    (by simp [Machine.step, hq.running, hq.inHand, hqueue, Queue.busy]) hb
  have hwrite := deliver?_step (w := w₁) (m := q.idle.machine) (cell_set_self hid _)
    (ha₁.paused.trans hp) (by
      rw [Machine.step, if_neg (by simp [Queue.busy, hq.running]), ha₁.size]
      exact congrArg some (Machine.handle_ok hv)) (ha.blocked.trans (ha₁.blocked.trans hb))
  have hrest := deliver?_empty (w := v.set id (.queued q.idle inner))
    (cell_set_self (by rw [ha.size, ha₁.size]; exact hid) _)
    (ha.paused.trans (ha₁.paused.trans hp)) hq.idle rfl
  have hrem : w.remaining id = 2 + 2 := by
    simp [remaining, hcell, Machine.remaining, hqueue, hq.inHand]
  rw [hrem, deliver, htake]
  show w₁.deliver id 3 = _
  rw [deliver, hwrite]
  exact deliver_none hrest 2

namespace Tree

variable {t u : Tree}

/-- **A worker hands its payload to the sinks behind**, if the queues that it writes to are
empty. -/
theorem deliver_queued (hs : (Tree.queued id t).Sound b w) (ho : (Tree.queued id t).Ordered)
    (hd : (Tree.queued id t).Distinct) (hp : w.paused = []) (hb : w.blocked = false)
    (hload : w.load id = 1) (hfront : ∀ x ∈ t.front, w.load x = 0) :
    ∃ w', w.deliver id (w.remaining id) = w' ∧ (Tree.queued id t).Sound b w' ∧ w'.load id = 0 ∧
      (∀ x ∈ t.front, w'.load x ≤ 1) ∧ Alters (id :: t.front) t.files w w' := by
  simp only [Sound, Ordered] at hs ho
  obtain ⟨q, b, hcell, hq, rfl, hs⟩ := hs
  have hid := Network.cell_lt hcell (by simp)
  have hdt := hd.queued
  obtain ⟨x, hqueue⟩ : ∃ x, q.machine.queue = [x] := by
    simpa [Network.load, hcell, List.length_eq_one_iff] using hload
  -- the sinks behind do not see that the payload is taken
  have hsame := agrees_set hdt.1 (.queued (q.busy x) t.id) w
  obtain ⟨v, hv, htaken, ha⟩ := process_works False
    (show t.id < w.cells.size by omega) ho.2 hdt.2
    ⟨sound_local b hsame hs, fun y hy => (hsame.load (front_subset t hy)).trans (hfront y hy),
      False.elim⟩ x
  have hcell' := Network.cell_set_self (w := v) (by rw [ha.size]; simpa [Network.set] using hid)
    (.queued q.idle t.id)
  have hagree := agrees_set hdt.1 (.queued q.idle t.id) v
  refine ⟨_, Network.deliver_one hcell hq hqueue hp hb hv ha, ?_, ?_, fun y hy => ?_, ?_⟩
  · rw [Sound]
    refine ⟨_, b ++ x, hcell', hq.idle, ?_, sound_local _ hagree htaken.sound⟩
    simp [Queue.idle, hqueue]
  · unfold Network.load
    rw [hcell']
    rfl
  · rw [hagree.load (front_subset t hy)]
    exact htaken.front y hy
  · have hself : id ∈ id :: t.front := List.mem_cons_self
    exact (((Alters.refl _ _ w).set hself _).trans
      (ha.mono (List.subset_cons_self _ _) (List.Subset.refl _))).set hself _

/-- What the turn of a worker does: its queue is empty afterwards, and those that it writes to hold
one payload at most. -/
structure Turned (i a : ℕ) (b : ByteArray) (t : Tree) (w w' : Network) : Prop where
  sound : t.Sound b w'
  alters : Alters t.ids t.files w w'
  idle : w.load i = 0 → w' = w
  loads : ∀ j p, (j, p) ∈ t.feeds a → (j = i ∧ w'.load j = 0) ∨ (p = i ∧ w'.load j ≤ 1) ∨
    (j ≠ i ∧ w'.load j = w.load j)

theorem Turned.refl (hs : t.Sound b w) (h : w.load i = 0) : t.Turned i a b w w := by
  refine ⟨hs, .refl _ _ w, fun _ => rfl, fun j p _ => ?_⟩
  by_cases hji : j = i
  · exact .inl ⟨hji, hji ▸ h⟩
  · exact .inr (.inr ⟨hji, rfl⟩)

/-- **The turn of one worker.** -/
theorem deliver_works (hp : t.Placed w) (hs : t.Sound b w) (hload : w.load i ≤ 1)
    (hfront : w.load i ≠ 0 → ∀ j, (j, i) ∈ t.feeds a → w.load j = 0) :
    t.Turned i a b w (w.deliver i (w.remaining i)) := by
  by_cases hq : ∃ q inner, w.cell i = .queued q inner
  swap
  · -- there is no worker
    have hnot : ∀ q inner, w.cell i ≠ .queued q inner := fun q inner h => hq ⟨q, inner, h⟩
    rw [Network.deliver_other hnot]
    refine .refl hs ?_
    unfold Network.load
    split
    · rename_i q inner h
      exact absurd h (hnot q inner)
    · rfl
  obtain ⟨q, inner, hcell⟩ := hq
  obtain ⟨v, hu⟩ := hp.queue hs hcell
  obtain ⟨b', hs', hkeep⟩ := hu.sound hp.distinct hs
  have hdu := hu.distinct hp.distinct
  obtain ⟨a', hsub, hfeeds⟩ := hu.feeds a hp.distinct
  by_cases h0 : w.load i = 0
  · -- there is nothing to deliver
    have hwork := hs'
    rw [Sound] at hwork
    obtain ⟨q', -, hcell', hq', -⟩ := hwork
    have hempty : q'.machine.queue = [] := by simpa [Network.load, hcell'] using h0
    rw [Network.deliver_none (Network.deliver?_empty hcell' hp.paused hq' hempty)]
    exact .refl hs h0
  -- the queues that the worker writes to are empty
  have hbefore : ∀ x ∈ v.front, w.load x = 0 := by
    intro x hx
    by_contra hne
    have hsv := hs'
    rw [Sound] at hsv
    obtain ⟨-, b'', -, -, -, hsv⟩ := hsv
    obtain ⟨p, hp'⟩ := feeds_of_load i hsv (front_subset v hx) hne
    rcases feeds_front hdu.queued.2 hp' with ⟨rfl, -⟩ | ⟨-, hnot⟩
    · exact hne (hfront h0 x (hsub (by simp [feeds, hp'])))
    · exact hnot hx
  obtain ⟨w', he, hs'', hself, hafter, halters⟩ := deliver_queued hs' (hu.ordered hp.ordered) hdu
    hp.paused hp.blocked (by omega) hbefore
  have halters' : Alters (Tree.queued i v).ids (Tree.queued i v).files w w' := halters.mono
    (by simpa [ids] using List.cons_subset_cons i (front_subset v)) (by simp)
  rw [he]
  refine ⟨hkeep w' halters' hs'', halters'.mono hu.ids_subset hu.files_subset,
    fun h => absurd h h0, fun j p hjp => ?_⟩
  -- a queue elsewhere is as it was; of those behind the worker only the nearest may be filled
  by_cases hj : j ∈ (Tree.queued i v).ids
  · have hjp' := hfeeds j p hjp hj
    simp only [feeds, List.mem_cons, Prod.mk.injEq] at hjp'
    rcases hjp' with ⟨rfl, -⟩ | hjp'
    · exact .inl ⟨rfl, hself⟩
    · have hji : j ≠ i := fun h => hdu.queued.1 (h ▸ mem_ids_of_feeds hjp')
      rcases feeds_front hdu.queued.2 hjp' with ⟨rfl, hf⟩ | ⟨-, hf⟩
      · exact .inr (.inl ⟨rfl, hafter j hf⟩)
      · exact .inr (.inr ⟨hji, halters.load (by simp [hji, hf])⟩)
  · have hji : j ≠ i := fun h => hj (by simp [h, ids])
    exact .inr (.inr ⟨hji, halters'.load hj⟩)

/-! ## Sweeps -/

/-- Before the turn of worker `i` in a sweep: the queues from `M` on were empty when the sweep
began, and those that had their turn are empty until the turn of the worker that writes to them. -/
structure Swept (i M : ℕ) (t : Tree) (w : Network) : Prop where
  load : ∀ j p, (j, p) ∈ t.feeds w.cells.size → w.load j ≤ 1
  old : ∀ j p, (j, p) ∈ t.feeds w.cells.size → M ≤ j → w.load j = 0
  turned : ∀ j p, (j, p) ∈ t.feeds w.cells.size → j < i → i ≤ p ∨ M ≤ p → w.load j = 0

/-- A tree in a network whose workers do what there is to do. -/
structure Sweeping (i M : ℕ) (b : ByteArray) (t : Tree) (w₀ w : Network) : Prop where
  placed : t.Placed w
  sound : t.Sound b w
  swept : t.Swept i M w
  alters : Alters t.ids t.files w₀ w

/-- **One turn.** -/
theorem Sweeping.deliver {w₀ : Network} (h : t.Sweeping i M b w₀ w) :
    t.Sweeping (i + 1) M b w₀ (w.deliver i (w.remaining i)) := by
  have hlt : ∀ {j p}, (j, p) ∈ t.feeds w.cells.size → j < p ∧ p ≤ w.cells.size :=
    feeds_lt h.placed.ordered h.placed.known
  -- a worker that has something to write was not at rest when the sweep began
  have hbusy : w.load i ≠ 0 → w.load i ≤ 1 ∧ i < M := by
    intro hne
    obtain ⟨p, hp⟩ := h.placed.feeds_of_load h.sound w.cells.size hne
    refine ⟨h.swept.load i p hp, ?_⟩
    by_contra hge
    exact hne (h.swept.old i p hp (by omega))
  have hturn := deliver_works (a := w.cells.size) h.placed h.sound
    (by by_cases h0 : w.load i = 0
        · omega
        · exact (hbusy h0).1)
    fun _ j hj => h.swept.turned j i hj (hlt hj).1 (.inl (Nat.le_refl i))
  by_cases h0 : w.load i = 0
  · rw [hturn.idle h0]
    refine ⟨h.placed, h.sound, ⟨h.swept.load, h.swept.old, fun j p hj hji hp => ?_⟩, h.alters⟩
    by_cases he : j = i
    · exact he ▸ h0
    · exact h.swept.turned j p hj (by omega) (by omega)
  have hM := (hbusy h0).2
  refine ⟨h.placed.alters hturn.alters, hturn.sound, ?_, h.alters.trans hturn.alters⟩
  -- the turn fills those queues only that its worker writes to
  constructor <;> rw [hturn.alters.size]
  · intro j p hj
    have := h.swept.load j p hj
    rcases hturn.loads j p hj with ⟨-, h'⟩ | ⟨-, h'⟩ | ⟨-, h'⟩ <;> omega
  · intro j p hj hMj
    have := h.swept.old j p hj hMj
    have := (hlt hj).1
    rcases hturn.loads j p hj with ⟨-, h'⟩ | ⟨hp, -⟩ | ⟨-, h'⟩ <;> omega
  · intro j p hj hji hp
    rcases hturn.loads j p hj with ⟨-, h'⟩ | ⟨hpi, -⟩ | ⟨hne, h'⟩
    · exact h'
    · omega
    · rw [h']
      exact h.swept.turned j p hj (by omega) (by omega)

/-- **One sweep**: one more of the queues is empty for good, counted from those in front. -/
theorem Sweeping.sweep {w₀ : Network} (h : t.Sweeping 0 M b w₀ w) :
    t.Sweeping 0 (M - 1) b w₀ w.sweep := by
  have hturns : ∀ k, t.Sweeping k M b w₀
      ((List.range k).foldl (fun w id => Network.deliver id (w.remaining id) w) w) := by
    intro k
    induction k with
    | zero => exact h
    | succ k ih =>
      rw [List.range_succ, List.foldl_append]
      exact ih.deliver
  have hend : t.Sweeping w.cells.size M b w₀ w.sweep := hturns w.cells.size
  have hsize : w.sweep.cells.size = w.cells.size := hend.alters.size.trans h.alters.size.symm
  refine ⟨hend.placed, hend.sound, ⟨hend.swept.load, fun j p hj hM => ?_,
    fun _ _ _ h => absurd h (Nat.not_lt_zero _)⟩, hend.alters⟩
  have hlt := feeds_lt hend.placed.ordered hend.placed.known hj
  -- whoever writes to queue `M - 1` was at rest, so that it stays empty after its turn
  by_cases hMj : M ≤ j
  · exact hend.swept.old j p hj hMj
  · exact hend.swept.turned j p hj (by omega) (by omega)

/-- **When the workers have come to rest nothing waits any more**, and nothing is lost. -/
theorem settle_works (hp : t.Placed w) (h : t.Loaded b w) :
    t.Placed w.settle ∧ t.Sound b w.settle ∧ t.Quiet w.settle ∧
      Alters t.ids t.files w w.settle := by
  have hstart : t.Sweeping 0 w.cells.size b w w := by
    refine ⟨hp, h.sound, ⟨fun j p hj => h.load j (mem_ids_of_feeds hj), fun j p hj hM => ?_,
      fun _ _ _ h => absurd h (Nat.not_lt_zero _)⟩, .refl _ _ w⟩
    have := feeds_lt hp.ordered hp.known hj
    omega
  have hsweeps : ∀ k, t.Sweeping 0 (w.cells.size - k) b w
      ((List.range k).foldl (fun w _ => w.sweep) w) := by
    intro k
    induction k with
    | zero => exact hstart
    | succ k ih =>
      rw [List.range_succ, List.foldl_append]
      exact ih.sweep
  have hend : t.Sweeping 0 0 b w w.settle := by
    have := hsweeps w.cells.size
    rwa [Nat.sub_self] at this
  refine ⟨hend.placed, hend.sound, fun x hx => ?_, hend.alters⟩
  -- what waits, waits in a queue, and all of them are empty
  by_contra hne
  obtain ⟨p, hp⟩ := feeds_of_load w.settle.cells.size hend.sound hx hne
  exact hne (hend.swept.old x p hp (Nat.zero_le x))

/-! ## Waiting times -/

/-- The waiting time of a buffer ends: it passes on what it gathered, or keeps it. -/
theorem expire_passes (hn : t.id < n) (ho : t.Ordered) (hd : t.Distinct) {buf : Buffer}
    (hopen : buf.closed = false) (htimer : buf.timer = .running) (hs : t.Sound b w)
    (hq : t.Quiet w) :
    ∃ buf' b' w', Network.inBackground (buf.expire (Network.destination n t.id)) w = (buf', w') ∧
      buf'.closed = false ∧ buf'.timer = .running ∧ b' ++ buf'.pending = b ++ buf.pending ∧
      t.Loaded b' w' ∧ Alters t.ids t.files w w' := by
  have hbg := Agrees.nothing (t := t) (Network.alters_background true w)
  by_cases harmed : buf.armed
  · obtain ⟨v, hpass, hsv, hwv, ha⟩ := pass_works hn ho hd buf (sound_local b hbg hs)
      (.inr (quiet_local hbg hq))
    have hexp : buf.expire (Network.destination n t.id) { w with background := true } =
        ({ buf with pending := .empty, armed := false }, v) := by
      simp [Buffer.expire, harmed, hopen, htimer, hpass]
    obtain ⟨w', he, ha', hsame⟩ := Network.inBackground_works _ hexp ha
    refine ⟨_, _, w', he, hopen, htimer, ByteArray.append_empty, ?_,
      ha'.mono (front_subset t) (List.Subset.refl _)⟩
    exact loaded_local (Agrees.nothing hsame) ⟨hsv, hwv.load_le hsv⟩
  · have hexp : buf.expire (Network.destination n t.id) { w with background := true } =
        (buf, { w with background := true }) := by
      simp [Buffer.expire, harmed]
    obtain ⟨w', he, ha, hsame⟩ := Network.inBackground_works _ hexp (.refl t.ids t.files _)
    refine ⟨buf, b, w', he, hopen, htimer, rfl, ?_, ha⟩
    exact loaded_local (Agrees.nothing hsame) ⟨sound_local b hbg hs,
      fun x hx => by rw [quiet_local hbg hq x hx]; exact Nat.zero_le 1⟩

/-- **When the waiting time of a buffer ends**, nothing is lost and the order is kept. -/
theorem expire_works (hp : t.Placed w) (hs : t.Sound b w) (hq : t.Quiet w) (i : ℕ) :
    t.Loaded b (w.expire i) ∧ Alters t.ids t.files w (w.expire i) := by
  by_cases hbuf : ∃ buf inner, w.cell i = .buffered buf inner
  swap
  · have hsame : w.expire i = w := by
      unfold Network.expire
      split
      · rename_i buf inner h
        exact absurd ⟨buf, inner, h⟩ hbuf
      · rfl
    rw [hsame]
    exact ⟨⟨hs, fun x hx => by rw [hq x hx]; exact Nat.zero_le 1⟩, .refl _ _ w⟩
  obtain ⟨buf, inner, hcell⟩ := hbuf
  obtain ⟨v, hu⟩ := hp.buffer hs hcell
  obtain ⟨b', hs', hkeep⟩ := hu.sound hp.distinct hs
  have hdu := (hu.distinct hp.distinct).buffered
  have hou := hu.ordered hp.ordered
  simp only [Ordered, Sound] at hou hs'
  obtain ⟨buf', b₁, hcell', hopen, htimer, rfl, hsv⟩ := hs'
  have hid := Network.cell_lt hcell' (by simp)
  obtain ⟨buf'', b₂, w₁, he, hopen', htimer', hb, hl, ha⟩ := expire_passes
    (show v.id < w.cells.size by omega) hou.2 hdu.2 hopen htimer hsv
    (fun x hx => hq x (hu.ids_subset (by simp [ids, hx])))
  have hexp : w.expire i = w₁.set i (.buffered buf'' v.id) := by
    simp [Network.expire, hcell', Network.near, he]
  have halters : Alters (Tree.buffered i v).ids (Tree.buffered i v).files w (w.expire i) := by
    rw [hexp]
    exact (ha.mono (by simp [ids]) (by simp)).set (by simp [ids]) _
  refine ⟨⟨hkeep _ halters ?_, fun x hx => ?_⟩, halters.mono hu.ids_subset hu.files_subset⟩
  · rw [hexp, ← hb]
    exact sound_buffered_set buf'' hdu.1 (by rw [ha.size]; exact hid) hopen' htimer' hl.sound
  · -- behind the buffer one payload may wait, elsewhere none does
    by_cases hxv : x ∈ v.ids
    · rw [hexp, (agrees_set hdu.1 _ w₁).load hxv]
      exact hl.load x hxv
    by_cases hxi : x = i
    · unfold Network.load
      rw [hexp, hxi, Network.cell_set_self (by rw [ha.size]; exact hid)]
      exact Nat.zero_le 1
    · rw [halters.load (by simp [ids, hxv, hxi]), hq x hx]
      exact Nat.zero_le 1

end Tree

end Logging
