import Logging.Proofs.Network.Tree
import Logging.Proofs.Sink.Gathering
import Logging.Proofs.Worker.Steps

/-!
# Writes to trees of sinks

* `Tree.visit_works`: an operation that works on every tree by itself works on the members of a
  fan-out, one after the other.
* `Tree.Quiet`, `Tree.Written`: what waits in queues between the operations, and after a write.
* `Tree.write_works`: **a payload comes behind everything that every sink has taken**, if the queues
  that the write reaches are empty.
-/

namespace Logging

open Sink Worker

variable {w w' : Network} {id n : ℕ} {c : Cell} {b p : ByteArray}

namespace Network

theorem cell_lt (h : w.cell id = c) (hc : c ≠ .gone) : id < w.cells.size := by
  by_contra hge
  refine hc (h.symm.trans ?_)
  simp [cell, Nat.le_of_not_lt hge]

theorem cell_set_self (h : id < w.cells.size) (c : Cell) : (w.set id c).cell id = c := by
  simp [cell, set, h]

theorem alters_set (id : ℕ) (c : Cell) (f : List ℕ) (w : Network) : Alters [id] f w (w.set id c) :=
  ⟨by simp [set], fun x hx => by
    have hne : id ≠ x := fun h => hx (by simp [h])
    simp [cell, set, Array.getElem?_setIfInBounds_ne hne], rfl, fun _ _ => rfl, rfl, rfl, rfl⟩

theorem cell_of_size_le (h : w.cells.size ≤ id) : w.cell id = .gone := by
  simp [cell, Array.getElem?_eq_none h]

/-- A sink after one was put anew. -/
theorem cell_set_cases (w : Network) (id : ℕ) (c : Cell) (x : ℕ) :
    x = id ∧ (w.set id c).cell x = c ∨ (w.set id c).cell x = w.cell x := by
  by_cases hx : x = id
  · subst hx
    by_cases hlt : x < w.cells.size
    · exact .inl ⟨rfl, cell_set_self hlt c⟩
    · refine .inr ?_
      rw [cell_of_size_le (Nat.le_of_not_lt hlt), cell_of_size_le]
      simpa [set] using Nat.le_of_not_lt hlt
  · exact .inr ((alters_set id c [] w).cells x (by simpa using hx))

/-- A sink changes its file. -/
theorem alters_file {d : Disk} (h : w.disk.Only n d) (id : ℕ) (c : Cell) :
    Alters [id] [n] w ({ w with disk := d }.set id c) := by
  have hdisk : Alters [id] [n] w { w with disk := d } :=
    ⟨rfl, fun _ _ => rfl, h.size, fun m hm => h.others m (by simpa using hm), h.nodes, rfl, rfl⟩
  exact hdisk.trans (alters_set id c [n] _)

/-- What an operation does in the background, it does to the sinks all the same. -/
theorem inBackground_works {α : Type} (act : Network → α × Network) {a : α} {s f : List ℕ}
    (h : act { w with background := true } = (a, w'))
    (ha : Alters s f { w with background := true } w') :
    ∃ v, inBackground act w = (a, v) ∧ Alters s f w v ∧ Alters [] [] w' v :=
  ⟨{ w' with background := w.background }, by simp [inBackground, h],
    ⟨ha.size, ha.cells, ha.files, ha.file, ha.nodes, ha.paused, ha.blocked⟩,
    ⟨rfl, fun _ _ => rfl, rfl, fun _ _ => rfl, rfl, rfl, rfl⟩⟩

theorem alters_background (x : Bool) (w : Network) : Alters [] [] w { w with background := x } :=
  ⟨rfl, fun _ _ => rfl, rfl, fun _ _ => rfl, rfl, rfl, rfl⟩

/-- What is gathered in a buffer. -/
def gathered (w : Network) (id : ℕ) : ByteArray :=
  match w.cell id with
  | .buffered buf _ => buf.pending
  | _ => .empty

end Network

theorem Alters.set {s f : List ℕ} (h : Alters s f w w') (hid : id ∈ s) (c : Cell) :
    Alters s f w (w'.set id c) :=
  h.trans ((Network.alters_set id c f w').mono (by simpa using hid) (List.Subset.refl _))

/-- A queue with room puts a payload behind the others. -/
theorem Sink.Queue.Working.write {σ : Type} {q : Queue} (h : q.Working)
    (hroom : q.machine.queue.length < q.machine.capacity) (inner : Destination σ) (p : ByteArray)
    (s : σ) : ∃ q', q.write inner p s = (.ok (), q', s) ∧ q'.Working ∧
      q'.machine.queue = q.machine.queue ++ [p] := by
  have hopen : q.machine.isClosed = false := by simp [Machine.isClosed, h.accepting]
  exact ⟨{ q with machine := { q.machine with queue := q.machine.queue ++ [p] }.count .submitted },
    by simp [Queue.write, h.isOpen, Machine.submit_accepted hopen hroom],
    ⟨h.isOpen, h.running, h.accepting, h.joined, h.room, h.inHand, h.hook⟩, rfl⟩

namespace Tree

variable {t u : Tree} {ts : List Tree}

theorem Agrees.nothing (h : Alters [] [] w w') : t.Agrees w w' :=
  .of_alters h (fun _ _ => List.not_mem_nil) fun _ _ => List.not_mem_nil

/-- **An operation that works on every tree by itself works on all members** of a fan-out: what it
does to one of them does not matter to the others. -/
theorem visit_works (near : SinkId → Destination Network) (action : String)
    (op : Destination Network → Network → Outcome × Network) {Pre Post : Tree → Network → Prop}
    {reach : Tree → List ℕ} (hpre : Local Pre) (hpost : Local Post) (hr : ∀ t, reach t ⊆ t.ids) :
    ∀ {ts : List Tree} (place : ℕ) {w : Network}, ts.Pairwise Apart → (∀ t ∈ ts, Pre t w) →
      (∀ t ∈ ts, ∀ {w}, Pre t w → ∃ w', op (near t.id) w = (.ok (), w') ∧ Post t w' ∧
        Alters (reach t) t.files w w') →
      ∃ w', FanOut.visit near action op place (ts.map Tree.id) w = (.ok (), w') ∧
        (∀ t ∈ ts, Post t w') ∧ Alters (ts.flatMap reach) (ts.flatMap Tree.files) w w' := by
  intro ts
  induction ts with
  | nil => exact fun _ {w} _ _ _ => ⟨w, rfl, by simp, .refl _ _ w⟩
  | cons t ts ih =>
    intro place w hapart h hop
    obtain ⟨hfirst, hrest⟩ := List.pairwise_cons.1 hapart
    obtain ⟨w₁, he, hp, ha⟩ := hop t List.mem_cons_self (h t List.mem_cons_self)
    -- the others are as they were
    have hothers : ∀ u ∈ ts, Pre u w₁ := fun u hu => by
      refine hpre (.of_alters ha (fun x hx hx' => ?_) fun n hn hn' => ?_) (h u (.tail _ hu))
      · exact (hfirst u hu).1 x (hr t hx') hx
      · exact (hfirst u hu).2 n hn' hn
    obtain ⟨w₂, he', hp', ha'⟩ := ih (place + 1) hrest hothers fun u hu => hop u (.tail _ hu)
    -- and so is this one afterwards
    have hself : Post t w₂ := by
      refine hpost (.of_alters ha' (fun x hx hx' => ?_) fun n hn hn' => ?_) hp
      · obtain ⟨u, hu, hx'⟩ := List.mem_flatMap.1 hx'
        exact (hfirst u hu).1 x hx (hr u hx')
      · obtain ⟨u, hu, hn'⟩ := List.mem_flatMap.1 hn'
        exact (hfirst u hu).2 n hn hn'
    refine ⟨w₂, by simp [FanOut.visit, he, FanOut.contain, he', Outcome.first], ?_, ?_⟩
    · intro u hu
      rcases List.mem_cons.1 hu with rfl | hu
      · exact hself
      · exact hp' u hu
    · exact (ha.mono (List.subset_append_left _ _) (List.subset_append_left _ _)).trans
        (ha'.mono (List.subset_append_right _ _) (List.subset_append_right _ _))

/-! ## What waits in a tree -/

/-- Nothing waits in any queue. -/
def Quiet (t : Tree) (w : Network) : Prop := ∀ x ∈ t.ids, w.load x = 0

/-- What may wait after a write: a buffer that was not emptied stands before empty queues, and so
does a queue with one payload. -/
def Written : Tree → Network → Prop
  | leaf _ _, _ => True
  | buffered id t, w => (w.gathered id = .empty ∧ t.Written w) ∨ t.Quiet w
  | queued id t, w => w.load id ≤ 1 ∧ t.Quiet w
  | fanOut _ ts, w => ∀ t ∈ ts, t.Written w

theorem quiet_local : Local Quiet := fun h hq x hx => (h.load hx).trans (hq x hx)

theorem Quiet.buffered (h : (Tree.buffered id t).Quiet w) : t.Quiet w :=
  fun x hx => h x (by simp [ids, hx])

theorem Quiet.queued (h : (Tree.queued id t).Quiet w) : t.Quiet w :=
  fun x hx => h x (by simp [ids, hx])

theorem Quiet.fanOut (h : (Tree.fanOut id ts).Quiet w) (ht : t ∈ ts) : t.Quiet w :=
  fun x hx => h x (by simpa [ids] using .inr ⟨t, ht, hx⟩)

theorem Quiet.written : ∀ {t : Tree}, t.Quiet w → t.Written w := by
  refine @induction _ ?_ ?_ ?_ ?_
  · intro id l _; simp only [Written]
  · intro id t _ h; simp only [Written]; exact .inr h.buffered
  · intro id t _ h
    simp only [Written]
    -- an empty queue holds one payload at most
    have := h id (by simp [ids])
    exact ⟨by omega, h.queued⟩
  · intro id ts ih h; simp only [Written]; exact fun t ht => ih t ht (h.fanOut ht)

theorem written_local : Local Written := by
  intro t w w' h
  revert h
  refine @induction (fun t => t.Agrees w w' → t.Written w → t.Written w') ?_ ?_ ?_ ?_ t
  · intro id l _ _; simp only [Written]
  · intro id t ih ha h
    -- what the buffer gathered is in its own cell
    have hg : w'.gathered id = w.gathered id := by
      unfold Network.gathered
      rw [show w'.cell id = w.cell id from ha.self]
    simp only [Written, hg] at h ⊢
    exact h.imp (And.imp_right (ih ha.buffered)) (quiet_local ha.buffered)
  · intro id t _ ha h
    simp only [Written, ha.load (x := id) (by simp [ids])] at h ⊢
    exact h.imp_right (quiet_local ha.queued)
  · intro id ts ih ha h
    simp only [Written] at h ⊢
    exact fun t ht => ih t ht (ha.fanOut ht) (h t ht)

/-- Of a queue there waits one payload at most. -/
theorem Written.load_le : ∀ {t : Tree} {b : ByteArray}, t.Sound b w → t.Written w →
    ∀ x ∈ t.ids, w.load x ≤ 1 := by
  refine @induction _ ?_ ?_ ?_ ?_
  · intro id l b hs _ x hx
    obtain rfl : x = id := by simpa [ids] using hx
    rw [load_leaf hs]
    exact Nat.zero_le 1
  · intro id t ih b hs h x hx
    rw [Sound] at hs
    obtain ⟨buf, b', hcell, -, -, -, hs⟩ := hs
    simp only [ids, List.mem_cons] at hx
    rcases hx with rfl | hx
    · simp [Network.load, hcell]
    · simp only [Written] at h
      rcases h with ⟨-, h⟩ | h
      · exact ih hs h x hx
      · simp [h x hx]
  · intro id t ih b hs h x hx
    simp only [ids, List.mem_cons] at hx
    simp only [Written] at h
    rcases hx with rfl | hx
    · exact h.1
    · simp [h.2 x hx]
  · intro id ts ih b hs h x hx
    rw [Sound] at hs
    obtain ⟨f, hcell, -, -, hs⟩ := hs
    simp only [ids, List.mem_cons, List.mem_flatMap] at hx
    simp only [Written] at h
    rcases hx with rfl | ⟨t, ht, hx⟩
    · simp [Network.load, hcell]
    · exact ih t ht (hs t ht) (h t ht) x hx

/-! ## Writing -/

/-- Before a write: the queues that it reaches are empty, and in calm times all are. -/
structure Ready (calm : Prop) (b : ByteArray) (t : Tree) (w : Network) : Prop where
  sound : t.Sound b w
  front : ∀ x ∈ t.front, w.load x = 0
  quiet : calm → t.Quiet w

/-- After a write. -/
structure Taken (calm : Prop) (b : ByteArray) (t : Tree) (w : Network) : Prop where
  sound : t.Sound b w
  front : ∀ x ∈ t.front, w.load x ≤ 1
  written : calm → t.Written w

variable {calm : Prop}

theorem ready_local : Local (Ready calm b) := fun h hr =>
  ⟨sound_local b h hr.sound, fun x hx => (h.load (front_subset _ hx)).trans (hr.front x hx),
    fun hc => quiet_local h (hr.quiet hc)⟩

theorem taken_local : Local (Taken calm b) := fun h hr =>
  ⟨sound_local b h hr.sound, fun x hx => (h.load (front_subset _ hx)).symm ▸ hr.front x hx,
    fun hc => written_local h (hr.written hc)⟩

theorem agrees_set (hd : id ∉ t.ids) (c : Cell) (w : Network) : t.Agrees w (w.set id c) :=
  .of_alters (Network.alters_set id c [] w)
    (fun _ hx hm => hd (List.mem_singleton.1 hm ▸ hx)) fun _ _ => List.not_mem_nil

/-- A buffer in front of a tree may be put anew. -/
theorem sound_buffered_set (buf : Buffer) (hd : id ∉ t.ids) (hid : id < w.cells.size)
    (hopen : buf.closed = false) (htimer : buf.timer = .running) (hs : t.Sound b w) :
    (Tree.buffered id t).Sound (b ++ buf.pending) (w.set id (.buffered buf t.id)) := by
  rw [Sound]
  exact ⟨buf, b, Network.cell_set_self hid _, hopen, htimer, rfl,
    sound_local b (agrees_set hd _ w) hs⟩

theorem taken_buffered_set (buf : Buffer) (hd : id ∉ t.ids) (hid : id < w.cells.size)
    (hopen : buf.closed = false) (htimer : buf.timer = .running) (hs : t.Sound b w)
    (hf : ∀ x ∈ t.front, w.load x ≤ 1)
    (hw : calm → (buf.pending = .empty ∧ t.Written w) ∨ t.Quiet w) :
    (Tree.buffered id t).Taken calm (b ++ buf.pending) (w.set id (.buffered buf t.id)) := by
  have ha := agrees_set hd (.buffered buf t.id) w
  have hcell := Network.cell_set_self hid (.buffered buf t.id)
  refine ⟨sound_buffered_set buf hd hid hopen htimer hs, fun x hx => ?_, fun hc => ?_⟩
  · simp only [front, List.mem_cons] at hx
    rcases hx with rfl | hx
    · simp [Network.load, hcell]
    · rw [ha.load (front_subset t hx)]; exact hf x hx
  · simp only [Written, Network.gathered, hcell]
    exact (hw hc).imp (And.imp_right (written_local ha)) (quiet_local ha)

/-- A write to the tree works, whatever stands around it. -/
def Writes (calm : Prop) (t : Tree) : Prop :=
  ∀ {n : ℕ} {b : ByteArray} {w : Network} (p : ByteArray), t.id < n → t.Ordered → t.Distinct →
    t.Ready calm b w → ∃ w', (Network.destination n t.id).write p w = (.ok (), w') ∧
      t.Taken calm (b ++ p) w' ∧ Alters t.front t.files w w'

/-- A sink at the end takes the payload. -/
theorem writes_leaf (id : ℕ) (l : Leaf) : (Tree.leaf id l).Writes calm := by
  intro n b w p hn _ _ h
  obtain ⟨n, rfl⟩ := Nat.exists_eq_add_one_of_ne_zero (Nat.ne_zero_of_lt hn)
  have hfront : (Tree.leaf id l).front = [id] := by simp [front]
  -- no payload waits in a sink that is no queue
  have hload : ∀ {w' : Network} {c : Cell}, w'.cell id = c → (∀ q i, c ≠ .queued q i) →
      ∀ x ∈ (Tree.leaf id l).front, w'.load x ≤ 1 := by
    intro w' c hc hq x hx
    obtain rfl : x = id := by simpa [hfront] using hx
    unfold Network.load
    rw [hc]
    cases c <;> simp_all
  cases l with
  | memory =>
    have hs := h.sound
    rw [Sound] at hs
    obtain ⟨m, hcell, hopen, hm⟩ := hs
    have hid := Network.cell_lt hcell (by simp)
    have hw : m.write p = (.ok (), { m with writes := m.writes.push p }) := by
      simp [Memory.write, hopen]
    refine ⟨w.set id (.memory { m with writes := m.writes.push p }),
      by simp [Network.destination, Network.writeCell, hcell, hw], ⟨?_, ?_, ?_⟩,
      (Alters.refl _ _ w).set (by simp [hfront]) _⟩
    · rw [Sound]
      refine ⟨_, Network.cell_set_self hid _, hopen, ?_⟩
      rw [← hm]
      simp [Memory.contents]
    · exact hload (Network.cell_set_self hid _) (by simp)
    · intro _; simp only [Written]
  | file n before =>
    have hs := h.sound
    rw [Sound] at hs
    obtain ⟨f, wr, hcell, hwr, rfl, ht, htotal⟩ := hs
    have hid := Network.cell_lt hcell (by simp)
    -- the payload goes to the writer or the file, behind the others in either case
    obtain ⟨wr', d', hw, hfile, ho, ht', htotal'⟩ := Disk.Writer.write_works ht p
    have ha := Network.alters_file ho id (.file { f with writer := some wr' })
    refine ⟨_, by simp [Network.destination, Network.writeCell, hcell, File.write, hwr, hw,
        Outcome.ofExcept],
      ⟨?_, ?_, ?_⟩, ha.mono (by simp [hfront]) (by simp [files, leaves])⟩
    · rw [Sound]
      refine ⟨_, wr', Network.cell_set_self hid _, rfl, hfile, ht', ?_⟩
      show wr'.total d' = before.followed (b ++ p)
      rw [htotal', htotal, Disk.Contents.followed_followed]
    · exact hload (Network.cell_set_self hid _) (by simp)
    · intro _; simp only [Written]

/-- A buffer gathers the payload, or passes on everything together. -/
theorem writes_buffered (ih : t.Writes calm) (id : ℕ) : (Tree.buffered id t).Writes calm := by
  intro n b w p hn ho hd h
  obtain ⟨n, rfl⟩ := Nat.exists_eq_add_one_of_ne_zero (Nat.ne_zero_of_lt hn)
  have hs := h.sound
  simp only [Sound, Ordered] at hs ho
  obtain ⟨buf, b, hcell, hopen, htimer, rfl, hs⟩ := hs
  have hid := Network.cell_lt hcell (by simp)
  have hnt : t.id < n := Nat.lt_of_lt_of_le ho.1 (Nat.le_of_lt_succ hn)
  have hdt := hd.buffered
  have hfront : ∀ x ∈ t.front, w.load x = 0 := fun x hx => h.front x (by simp [front, hx])
  rcases Buffer.write_cases hopen (Network.destination n t.id) p w with ⟨armed, -, hw⟩ | ⟨-, hw⟩
  · -- the payload is gathered with the others
    refine ⟨w.set id (.buffered { buf with pending := buf.pending ++ p, armed } t.id),
      by simp [Network.destination, Network.writeCell, hcell, hw], ?_,
      (Alters.refl _ _ w).set (by simp [front]) _⟩
    rw [ByteArray.append_assoc]
    exact taken_buffered_set { buf with pending := buf.pending ++ p, armed } hdt.1 hid hopen
      htimer hs (fun x hx => by simp [hfront x hx]) fun hc => .inr (h.quiet hc).buffered
  · -- all that was gathered is passed on with the payload
    obtain ⟨w₁, he, htaken, ha⟩ := ih (buf.pending ++ p) hnt ho.2 hdt.2
      ⟨hs, hfront, fun hc => (h.quiet hc).buffered⟩
    refine ⟨w₁.set id (.buffered { buf with pending := .empty, armed := false } t.id),
      by simp [Network.destination, Network.writeCell, hcell, hw _ _ he], ?_,
      (ha.mono (by simp [front]) (by simp)).set (by simp [front]) _⟩
    rw [ByteArray.append_assoc]
    have := taken_buffered_set { buf with pending := .empty, armed := false } hdt.1
      (ha.size ▸ hid) hopen htimer htaken.sound htaken.front fun hc => .inl ⟨rfl, htaken.written hc⟩
    simpa using this

/-- A queue keeps the payload for its worker. -/
theorem writes_queued (id : ℕ) (t : Tree) : (Tree.queued id t).Writes calm := by
  intro n b w p hn ho hd h
  obtain ⟨n, rfl⟩ := Nat.exists_eq_add_one_of_ne_zero (Nat.ne_zero_of_lt hn)
  have hs := h.sound
  simp only [Sound, Ordered] at hs ho
  obtain ⟨q, b, hcell, hq, rfl, hs⟩ := hs
  have hid := Network.cell_lt hcell (by simp)
  -- the write reaches the queue, so it is empty and has room
  have hload : w.load id = 0 := h.front id (by simp [front])
  have hempty : q.machine.queue = [] := by simpa [Network.load, hcell] using hload
  obtain ⟨q', hw, hq', hqueue⟩ := hq.write (by simpa [hempty] using hq.room)
    (Network.destination n t.id) p w
  have ha := agrees_set hd.queued.1 (.queued q' t.id) w
  have hcell' := Network.cell_set_self hid (.queued q' t.id)
  have hload' : (w.set id (.queued q' t.id)).load id ≤ 1 := by
    simp [Network.load, hcell', hqueue, hempty]
  refine ⟨w.set id (.queued q' t.id),
    by simp [Network.destination, Network.writeCell, hcell, hw],
    ⟨?_, ?_, ?_⟩, (Alters.refl _ _ w).set (by simp [front]) _⟩
  · rw [Sound]
    exact ⟨q', b, hcell', hq', by simp [hqueue, ByteArray.append_assoc], sound_local b ha hs⟩
  · intro x hx
    obtain rfl : x = id := by simpa [front] using hx
    exact hload'
  · intro hc
    simp only [Written]
    exact ⟨hload', quiet_local ha (h.quiet hc).queued⟩

/-- A fan-out passes the payload on to each member. -/
theorem writes_fanOut (ih : ∀ t ∈ ts, t.Writes calm) (id : ℕ) :
    (Tree.fanOut id ts).Writes calm := by
  intro n b w p hn ho hd h
  obtain ⟨n, rfl⟩ := Nat.exists_eq_add_one_of_ne_zero (Nat.ne_zero_of_lt hn)
  have hs := h.sound
  simp only [Sound, Ordered] at hs ho
  obtain ⟨f, hcell, hopen, hm, hs⟩ := hs
  obtain ⟨hdts, hapart⟩ := hd.fanOut
  -- the members have nothing in common, so each takes the payload as if it stood alone
  obtain ⟨w₁, he, htaken, ha⟩ := visit_works (Network.destination n) "write"
    (fun d s => d.write p s) (ready_local (b := b)) (taken_local (b := b ++ p)) front_subset 0
    hapart
    (fun t ht => ⟨hs t ht, fun x hx => h.front x (by simpa [front] using .inr ⟨t, ht, hx⟩),
      fun hc => (h.quiet hc).fanOut ht⟩)
    (fun t ht => ih t ht p
      (Nat.lt_of_lt_of_le (ho t ht).1 (Nat.le_of_lt_succ hn)) (ho t ht).2 (hdts t ht).2)
  have hcell' : w₁.cell id = .fanOut f := (hd.fanOut_cell front_subset ha).trans hcell
  refine ⟨w₁, by simp [Network.destination, Network.writeCell, hcell, FanOut.write, hopen, hm, he],
    ⟨?_, ?_, ?_⟩, ha.mono (by simp [front]) (by simp)⟩
  · rw [Sound]
    exact ⟨f, hcell', hopen, hm, fun t ht => (htaken t ht).sound⟩
  · intro x hx
    simp only [front, List.mem_cons, List.mem_flatMap] at hx
    rcases hx with rfl | ⟨t, ht, hx⟩
    · simp [Network.load, hcell']
    · exact (htaken t ht).front x hx
  · intro hc
    simp only [Written]
    exact fun t ht => (htaken t ht).written hc

/-- **A payload comes behind everything that every sink has taken**, if the queues that the write
reaches are empty. -/
theorem write_works (calm : Prop) (t : Tree) : t.Writes calm :=
  induction (P := fun t => t.Writes calm) writes_leaf (fun id _ ih => writes_buffered ih id)
    (fun id t _ => writes_queued id t) (fun id _ ih => writes_fanOut ih id) t

end Tree

end Logging
