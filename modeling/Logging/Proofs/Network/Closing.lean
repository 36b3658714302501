import Logging.Proofs.Network.Writing

/-!
# Flushing and closing trees of sinks

* `Tree.pass_works`: a buffer passes on what it gathered, so that nothing can overtake it.
* `Tree.flush_works`: **flushing loses nothing and keeps the order.**
* `Tree.close_works`: **closing hands everything to the sinks at the ends.**
-/

namespace Logging

open Sink Worker

variable {w w' : Network} {id n : ℕ} {b p : ByteArray}

/-- A sink at an end has taken these bytes: they are what it holds, or stand behind what the file
held before. -/
def Leaf.Holds (l : Leaf) (id : ℕ) (b : ByteArray) (w : Network) : Prop :=
  match l with
  | .memory => ∃ m, w.cell id = .memory m ∧ m.contents = b
  | .file n before => (w.disk.file n).contents = before.followed b

/-- A hook prints and writes nothing. -/
theorem Network.alters_finish (inner : Destination Network) (h : Hook) (w : Network) :
    Alters [] [] w ((work inner).finish h w) := by
  have hemit : ∀ v : Network, Alters [] [] v (v.emit .hook) := fun v => by
    unfold Network.emit
    split <;> exact ⟨rfl, fun _ _ => rfl, rfl, fun _ _ => rfl, rfl, rfl, rfl⟩
  unfold work
  dsimp only
  split
  · obtain ⟨v, he, ha, -⟩ := inBackground_works (fun w => ((), w.emit .hook))
      (w := w) rfl (hemit _)
    rw [he]; exact ha
  · exact .refl _ _ w

namespace Tree

variable {t : Tree} {ts : List Tree}

/-- **A buffer passes on what it gathered**, and nothing overtakes it: either nothing was gathered,
or the queues behind are empty. -/
theorem pass_works (hn : t.id < n) (ho : t.Ordered) (hd : t.Distinct) (buf : Buffer)
    (hs : t.Sound b w) (h : (buf.pending = .empty ∧ t.Written w) ∨ t.Quiet w) :
    ∃ w', buf.pass (Network.destination n t.id) w =
        (.ok (), { buf with pending := .empty, armed := false }, w') ∧
      t.Sound (b ++ buf.pending) w' ∧ t.Written w' ∧ Alters t.front t.files w w' := by
  rcases Buffer.pass_cases (Network.destination n t.id) buf w with ⟨he, hpass⟩ | ⟨he, hpass⟩
  · -- nothing was gathered
    refine ⟨w, by rw [hpass, ← he], by rwa [he, ByteArray.append_empty], ?_, .refl _ _ w⟩
    rcases h with h | h
    · exact h.2
    · exact h.written
  · -- one write, and no payload waits before it
    have hq : t.Quiet w := h.resolve_left fun h => he h.1
    obtain ⟨w', hw, htaken, ha⟩ := write_works True t buf.pending hn ho hd
      ⟨hs, fun x hx => hq x (front_subset t hx), fun _ => hq⟩
    exact ⟨w', hpass _ _ hw, htaken.sound, htaken.written trivial, ha⟩

/-- A worker's write to the sink behind. -/
theorem process_works (calm : Prop) (hn : t.id < n) (ho : t.Ordered) (hd : t.Distinct)
    (h : t.Ready calm b w) (p : ByteArray) :
    ∃ w', (Network.work (Network.destination n t.id)).process p w = (.ok (), w') ∧
      t.Taken calm (b ++ p) w' ∧ Alters t.front t.files w w' := by
  -- where the write comes from does not matter to the sinks
  have h' := ready_local (Agrees.nothing (Network.alters_background true w)) h
  obtain ⟨v, hv, htaken, ha⟩ := write_works calm t p hn ho hd h'
  obtain ⟨w', hw, ha', hsame⟩ := Network.inBackground_works _ hv ha
  exact ⟨w', hw, taken_local (Agrees.nothing hsame) htaken, ha'⟩

/-! ## Flushing -/

/-- Between two operations, before an operation that reaches every sink. -/
structure Settled (b : ByteArray) (t : Tree) (w : Network) : Prop where
  sound : t.Sound b w
  written : t.Written w

/-- Of every queue there waits one payload at most. -/
structure Loaded (b : ByteArray) (t : Tree) (w : Network) : Prop where
  sound : t.Sound b w
  load : ∀ x ∈ t.ids, w.load x ≤ 1

theorem settled_local : Local (Settled b) := fun h hs =>
  ⟨sound_local b h hs.sound, written_local h hs.written⟩

theorem loaded_local : Local (Loaded b) := fun h hs =>
  ⟨sound_local b h hs.sound, fun x hx => (h.load hx).symm ▸ hs.load x hx⟩

/-- A flush of the tree works, whatever stands around it. -/
def Flushes (t : Tree) : Prop :=
  ∀ {n : ℕ} {b : ByteArray} {w : Network}, t.id < n → t.Ordered → t.Distinct → t.Settled b w →
    ∃ w', (Network.destination n t.id).flush w = (.ok (), w') ∧ t.Loaded b w' ∧
      Alters t.ids t.files w w'

theorem flushes_leaf (id : ℕ) (l : Leaf) : (Tree.leaf id l).Flushes := by
  intro n b w hn _ _ h
  obtain ⟨n, rfl⟩ := Nat.exists_eq_add_one_of_ne_zero (Nat.ne_zero_of_lt hn)
  have hs := h.sound
  cases l with
  | memory =>
    have hs' := hs
    rw [Sound] at hs'
    obtain ⟨m, hcell, -⟩ := hs'
    exact ⟨w, by simp [Network.destination, Network.flushCell, hcell],
      ⟨hs, h.written.load_le hs⟩, .refl _ _ w⟩
  | file n before =>
    rw [Sound] at hs
    obtain ⟨f, wr, hcell, hwr, rfl, ht, htotal⟩ := hs
    have hid := Network.cell_lt hcell (by simp)
    -- what the writer kept back comes to the file
    obtain ⟨d', hw, ho, ht', hc⟩ := Disk.Writer.flush_works ht
    have ha := Network.alters_file ho id
      (.file { f with writer := some { wr with pending := .empty } })
    have hcell' := Network.cell_set_self (w := { w with disk := d' }) hid
      (.file { f with writer := some { wr with pending := .empty } })
    refine ⟨_, by simp [Network.destination, Network.flushCell, hcell, File.flush, hwr, hw,
        Outcome.ofExcept],
      ⟨?_, ?_⟩, ha.mono (by simp [ids]) (by simp [files, leaves])⟩
    · rw [Sound]
      refine ⟨_, _, hcell', rfl, rfl, ht', ?_⟩
      show (d'.file wr.file).contents.followed .empty = before.followed b
      rw [Disk.Contents.followed_empty, hc, htotal]
    · intro x hx
      obtain rfl : x = id := by simpa [ids] using hx
      simp [Network.load, hcell']

/-- A buffer passes on what it gathered and flushes the sink behind. -/
theorem flushes_buffered (ih : t.Flushes) (id : ℕ) : (Tree.buffered id t).Flushes := by
  intro n b w hn ho hd h
  obtain ⟨n, rfl⟩ := Nat.exists_eq_add_one_of_ne_zero (Nat.ne_zero_of_lt hn)
  obtain ⟨hs, hw⟩ := h
  simp only [Sound, Written, Ordered] at hs hw ho
  obtain ⟨buf, b, hcell, hopen, htimer, rfl, hs⟩ := hs
  have hid := Network.cell_lt hcell (by simp)
  have hnt : t.id < n := Nat.lt_of_lt_of_le ho.1 (Nat.le_of_lt_succ hn)
  have hdt := hd.buffered
  -- first the buffer passes on, then the sink behind is flushed
  obtain ⟨w₁, hpass, hs₁, hw₁, ha₁⟩ := pass_works hnt ho.2 hdt.2 buf hs
    (by simpa [Network.gathered, hcell] using hw)
  obtain ⟨w₂, hflush, hl₂, ha₂⟩ := ih hnt ho.2 hdt.2 ⟨hs₁, hw₁⟩
  have ha := (ha₁.mono (front_subset t) (List.Subset.refl _)).trans ha₂
  set buf' : Buffer := { buf with pending := .empty, armed := false } with hbuf
  have hcell' := Network.cell_set_self (ha.size ▸ hid) (.buffered buf' t.id)
  refine ⟨w₂.set id (.buffered buf' t.id),
    by simp [Network.destination, Network.flushCell, hcell, Buffer.flush, hopen, hpass, hflush],
    ⟨?_, ?_⟩, (ha.mono (by simp [ids]) (by simp)).set (by simp [ids]) _⟩
  · have := sound_buffered_set buf' hdt.1 (ha.size ▸ hid) hopen htimer hl₂.sound
    simpa [hbuf] using this
  · intro x hx
    simp only [ids, List.mem_cons] at hx
    rcases hx with rfl | hx
    · simp [Network.load, hcell']
    · rw [(agrees_set hdt.1 _ w₂).load hx]
      exact hl₂.load x hx

/-- A queue flushes the sink behind; what waits in the queue stays there. -/
theorem flushes_queued (ih : t.Flushes) (id : ℕ) : (Tree.queued id t).Flushes := by
  intro n b w hn ho hd h
  obtain ⟨n, rfl⟩ := Nat.exists_eq_add_one_of_ne_zero (Nat.ne_zero_of_lt hn)
  obtain ⟨hs, hw⟩ := h
  simp only [Sound, Written, Ordered] at hs hw ho
  obtain ⟨q, b, hcell, hq, rfl, hs⟩ := hs
  have hnt : t.id < n := Nat.lt_of_lt_of_le ho.1 (Nat.le_of_lt_succ hn)
  have hdt := hd.queued
  obtain ⟨w', hflush, hl, ha⟩ := ih hnt ho.2 hdt.2 ⟨hs, hw.2.written⟩
  have hcell' : w'.cell id = .queued q t.id := (ha.cells id hdt.1).trans hcell
  refine ⟨w', by simp [Network.destination, Network.flushCell, hcell, hflush], ⟨?_, ?_⟩,
    ha.mono (by simp [ids]) (by simp)⟩
  · rw [Sound]
    exact ⟨q, b, hcell', hq, rfl, hl.sound⟩
  · intro x hx
    simp only [ids, List.mem_cons] at hx
    rcases hx with rfl | hx
    · rw [ha.load hdt.1]; exact hw.1
    · exact hl.load x hx

/-- A fan-out flushes each member. -/
theorem flushes_fanOut (ih : ∀ t ∈ ts, t.Flushes) (id : ℕ) : (Tree.fanOut id ts).Flushes := by
  intro n b w hn ho hd h
  obtain ⟨n, rfl⟩ := Nat.exists_eq_add_one_of_ne_zero (Nat.ne_zero_of_lt hn)
  obtain ⟨hs, hw⟩ := h
  simp only [Sound, Written, Ordered] at hs hw ho
  obtain ⟨f, hcell, hopen, hm, hs⟩ := hs
  obtain ⟨hdts, hapart⟩ := hd.fanOut
  obtain ⟨w', he, hl, ha⟩ := visit_works (Network.destination n) "flush" (fun d s => d.flush s)
    (settled_local (b := b)) (loaded_local (b := b)) (fun _ => List.Subset.refl _) 0 hapart
    (fun t ht => ⟨hs t ht, hw t ht⟩)
    (fun t ht => ih t ht
      (Nat.lt_of_lt_of_le (ho t ht).1 (Nat.le_of_lt_succ hn)) (ho t ht).2 (hdts t ht).2)
  have hcell' : w'.cell id = .fanOut f :=
    (hd.fanOut_cell (fun _ => List.Subset.refl _) ha).trans hcell
  refine ⟨w', by simp [Network.destination, Network.flushCell, hcell, FanOut.flush, hm, he],
    ⟨?_, ?_⟩, ha.mono (by simp [ids]) (by simp)⟩
  · rw [Sound]
    exact ⟨f, hcell', hopen, hm, fun t ht => (hl t ht).sound⟩
  · intro x hx
    simp only [ids, List.mem_cons, List.mem_flatMap] at hx
    rcases hx with rfl | ⟨t, ht, hx⟩
    · simp [Network.load, hcell']
    · exact (hl t ht).load x hx

/-- **Flushing loses nothing and keeps the order.** -/
theorem flush_works (t : Tree) : t.Flushes :=
  induction (P := Flushes) flushes_leaf (fun id _ ih => flushes_buffered ih id)
    (fun id _ ih => flushes_queued ih id) (fun id _ ih => flushes_fanOut ih id) t

/-! ## Closing -/

/-- **Every sink at the ends has taken these bytes.** -/
def Ended (b : ByteArray) (t : Tree) (w : Network) : Prop :=
  ∀ id l, (id, l) ∈ t.leaves → l.Holds id b w

theorem mem_ids_of_leaves {l : Leaf} : ∀ {t : Tree}, (id, l) ∈ t.leaves → id ∈ t.ids := by
  refine @induction _ ?_ ?_ ?_ ?_
  · intro id' l' h
    simp only [leaves, List.mem_singleton, Prod.mk.injEq] at h
    simp [ids, h.1]
  · intro id' t ih h; simp only [leaves] at h; simp [ids, ih h]
  · intro id' t ih h; simp only [leaves] at h; simp [ids, ih h]
  · intro id' ts ih h
    simp only [leaves, List.mem_flatMap] at h
    obtain ⟨t, ht, h⟩ := h
    simpa [ids] using .inr ⟨t, ht, ih t ht h⟩

theorem mem_files_of_leaves {before : Disk.Contents} (h : (id, Leaf.file n before) ∈ t.leaves) :
    n ∈ t.files := by
  simp only [files, List.mem_filterMap]
  exact ⟨_, h, rfl⟩

theorem ended_local : Local (Ended b) := by
  intro t w w' ha h id l hl
  have := h id l hl
  cases l with
  | memory => simpa only [Leaf.Holds, ha.cells id (mem_ids_of_leaves hl)] using this
  | file n before => simpa only [Leaf.Holds, ha.file n (mem_files_of_leaves hl)] using this

/-- Closing the tree works, whatever stands around it. -/
def Closes (t : Tree) : Prop :=
  ∀ {n : ℕ} {b : ByteArray} {w : Network}, t.id < n → t.Ordered → t.Distinct → t.Settled b w →
    ∃ w', (Network.destination n t.id).close w = (.ok (), w') ∧ t.Ended b w' ∧
      Alters t.ids t.files w w'

theorem closes_leaf (id : ℕ) (l : Leaf) : (Tree.leaf id l).Closes := by
  intro n b w hn _ _ h
  obtain ⟨n, rfl⟩ := Nat.exists_eq_add_one_of_ne_zero (Nat.ne_zero_of_lt hn)
  have hs := h.sound
  cases l with
  | memory =>
    rw [Sound] at hs
    obtain ⟨m, hcell, -, hm⟩ := hs
    have hid := Network.cell_lt hcell (by simp)
    refine ⟨w.set id (.memory m.close), by simp [Network.destination, Network.closeCell, hcell], ?_,
      (Alters.refl _ _ w).set (by simp [ids]) _⟩
    intro id' l hl
    obtain ⟨rfl, rfl⟩ : id' = id ∧ l = .memory := by simpa [leaves] using hl
    exact ⟨_, Network.cell_set_self hid _, hm⟩
  | file n before =>
    rw [Sound] at hs
    obtain ⟨f, wr, hcell, hwr, rfl, ht, htotal⟩ := hs
    obtain ⟨d', hw, ho, ht', hc⟩ := Disk.Writer.flush_works ht
    have ha := Network.alters_file ho id (.file { f with writer := none })
    refine ⟨_, by simp [Network.destination, Network.closeCell, hcell, File.close, File.flush, hwr,
        hw, Outcome.ofExcept],
      ?_, ha.mono (by simp [ids]) (by simp [files, leaves])⟩
    intro id' l hl
    obtain ⟨rfl, rfl⟩ : id' = id ∧ l = .file wr.file before := by simpa [leaves] using hl
    exact hc.trans htotal

/-- A buffer passes on what it gathered before it closes the sink behind. -/
theorem closes_buffered (ih : t.Closes) (id : ℕ) : (Tree.buffered id t).Closes := by
  intro n b w hn ho hd h
  obtain ⟨n, rfl⟩ := Nat.exists_eq_add_one_of_ne_zero (Nat.ne_zero_of_lt hn)
  obtain ⟨hs, hw⟩ := h
  simp only [Sound, Written, Ordered] at hs hw ho
  obtain ⟨buf, b, hcell, hopen, htimer, rfl, hs⟩ := hs
  have hnt : t.id < n := Nat.lt_of_lt_of_le ho.1 (Nat.le_of_lt_succ hn)
  have hdt := hd.buffered
  -- its timer ends before it passes on what it gathered
  obtain ⟨w₁, hpass, hs₁, hw₁, ha₁⟩ := pass_works hnt ho.2 hdt.2
    { buf with closed := true, armed := false, timer := .ended } hs
    (by simpa [Network.gathered, hcell] using hw)
  obtain ⟨w₂, hclose, he, ha₂⟩ := ih hnt ho.2 hdt.2 ⟨hs₁, hw₁⟩
  have ha := (ha₁.mono (front_subset t) (List.Subset.refl _)).trans ha₂
  refine ⟨w₂.set id (.buffered { buf with
      closed := true, armed := false, timer := .ended, pending := .empty } t.id),
    by simp [Network.destination, Network.closeCell, hcell, Buffer.close, hopen, htimer,
      Buffer.stopTimer, hpass, hclose, Outcome.both],
    ?_, (ha.mono (by simp [ids]) (by simp)).set (by simp [ids]) _⟩
  have he' := ended_local (agrees_set hdt.1 (.buffered { buf with
      closed := true, armed := false, timer := .ended, pending := .empty } t.id) w₂) he
  simpa [Ended, leaves] using he'

/-- A queue hands over what waits before it closes the sink behind. -/
theorem closes_queued (ih : t.Closes) (id : ℕ) : (Tree.queued id t).Closes := by
  intro n b w hn ho hd h
  obtain ⟨n, rfl⟩ := Nat.exists_eq_add_one_of_ne_zero (Nat.ne_zero_of_lt hn)
  obtain ⟨hs, hw⟩ := h
  simp only [Sound, Written, Ordered] at hs hw ho
  obtain ⟨q, b, hcell, hq, rfl, hs⟩ := hs
  obtain ⟨hload, hquiet⟩ := hw
  have hnt : t.id < n := Nat.lt_of_lt_of_le ho.1 (Nat.le_of_lt_succ hn)
  have hdt := hd.queued
  -- one payload waits at most, and the queues behind are empty
  obtain ⟨w₁, hhandles, hs₁, hw₁, ha₁⟩ : ∃ w₁,
      (Network.work (Network.destination n t.id)).Handles q.machine.queue w w₁ ∧
      t.Sound (b ++ joined q.machine.queue) w₁ ∧ t.Written w₁ ∧ Alters t.ids t.files w w₁ := by
    have hlength : q.machine.queue.length ≤ 1 := by simpa [Network.load, hcell] using hload
    generalize q.machine.queue = ps at hlength ⊢
    rcases ps with _ | ⟨p, _ | ⟨p', ps⟩⟩
    · exact ⟨w, rfl, by simpa using hs, hquiet.written, .refl _ _ w⟩
    · obtain ⟨w₁, hp, htaken, ha⟩ := process_works True hnt ho.2 hdt.2
        ⟨hs, fun x hx => hquiet x (front_subset t hx), fun _ => hquiet⟩ p
      exact ⟨w₁, ⟨w₁, hp, rfl⟩, by simpa using htaken.sound, htaken.written trivial,
        ha.mono (front_subset t) (List.Subset.refl _)⟩
    · simp at hlength
  -- the worker writes what waits, and ends with its hook
  obtain ⟨m, hstop⟩ := Machine.stop_works hq.running hq.inHand hq.joined hq.hook hhandles
  set w₂ := if q.machine.hook = .none then w₁
    else (Network.work (Network.destination n t.id)).finish q.machine.hook w₁ with hw₂
  have hsame : Alters [] [] w₁ w₂ := by
    rw [hw₂]
    split
    · exact .refl _ _ w₁
    · exact Network.alters_finish _ _ w₁
  -- only then the sink behind is closed
  obtain ⟨w₃, hclose, he, ha₃⟩ := ih hnt ho.2 hdt.2
    (settled_local (Agrees.nothing hsame) ⟨hs₁, hw₁⟩)
  have ha := (ha₁.trans (hsame.mono (by simp) (by simp))).trans ha₃
  refine ⟨w₃.set id (.queued { q with machine := m, closed := true } t.id),
    by simp [Network.destination, Network.closeCell, hcell, Queue.close, hq.isOpen, hstop, hclose,
      Outcome.both],
    ?_, (ha.mono (by simp [ids]) (by simp)).set (by simp [ids]) _⟩
  have he' := ended_local
    (agrees_set hdt.1 (.queued { q with machine := m, closed := true } t.id) w₃) he
  simpa [Ended, leaves] using he'

/-- A fan-out closes each member. -/
theorem closes_fanOut (ih : ∀ t ∈ ts, t.Closes) (id : ℕ) : (Tree.fanOut id ts).Closes := by
  intro n b w hn ho hd h
  obtain ⟨n, rfl⟩ := Nat.exists_eq_add_one_of_ne_zero (Nat.ne_zero_of_lt hn)
  obtain ⟨hs, hw⟩ := h
  simp only [Sound, Written, Ordered] at hs hw ho
  obtain ⟨f, hcell, hopen, hm, hs⟩ := hs
  obtain ⟨hdts, hapart⟩ := hd.fanOut
  obtain ⟨w', hvisit, he, ha⟩ := visit_works (Network.destination n) "close" (fun d s => d.close s)
    (settled_local (b := b)) (ended_local (b := b)) (fun _ => List.Subset.refl _) 0 hapart
    (fun t ht => ⟨hs t ht, hw t ht⟩)
    (fun t ht => ih t ht
      (Nat.lt_of_lt_of_le (ho t ht).1 (Nat.le_of_lt_succ hn)) (ho t ht).2 (hdts t ht).2)
  refine ⟨w'.set id (.fanOut { f with closed := true }),
    by simp [Network.destination, Network.closeCell, hcell, FanOut.close, hopen, hm, hvisit],
    ?_, (ha.mono (by simp [ids]) (by simp)).set (by simp [ids]) _⟩
  intro x l hl
  simp only [leaves, List.mem_flatMap] at hl
  obtain ⟨t, ht, hl⟩ := hl
  exact ended_local (agrees_set (hdts t ht).1 _ w') (he t ht) x l hl

/-- **Closing hands everything to the sinks at the ends.** -/
theorem close_works (t : Tree) : t.Closes :=
  induction (P := Closes) closes_leaf (fun id _ ih => closes_buffered ih id)
    (fun id _ ih => closes_queued ih id) (fun id _ ih => closes_fanOut ih id) t

end Tree

end Logging
