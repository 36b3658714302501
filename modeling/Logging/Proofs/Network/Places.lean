import Mathlib.Data.List.Pairwise
import Logging.Proofs.Network.Tree

/-!
# Places in a tree of sinks

* `Tree.Within`: a tree stands somewhere in another.
* `Tree.Within.sound`: **what works at its place leaves the whole sound.**
* `Tree.feeds`: every queue, with the queue whose worker writes to it.
* `Tree.Placed`: a tree is all there is in a network, as far as buffers and queues go.
-/

namespace Logging

open Sink

variable {w w' : Network} {id x j p a : ℕ} {b : ByteArray}

namespace Tree

variable {t u : Tree} {ts : List Tree}

/-- The first tree stands somewhere in the second. -/
inductive Within (u : Tree) : Tree → Prop
  | here : Within u u
  | buffered {id : ℕ} {t : Tree} : Within u t → Within u (.buffered id t)
  | queued {id : ℕ} {t : Tree} : Within u t → Within u (.queued id t)
  | fanOut {id : ℕ} {ts : List Tree} {t : Tree} : t ∈ ts → Within u t → Within u (.fanOut id ts)

theorem exists_within : ∀ {t : Tree}, x ∈ t.ids → ∃ u, Within u t ∧ u.id = x := by
  refine @induction _ ?_ ?_ ?_ ?_
  · intro id l h
    obtain rfl : x = id := by simpa [ids] using h
    exact ⟨_, .here, rfl⟩
  · intro id t ih h
    simp only [ids, List.mem_cons] at h
    rcases h with rfl | h
    · exact ⟨_, .here, rfl⟩
    · obtain ⟨u, hu, hx⟩ := ih h
      exact ⟨u, .buffered hu, hx⟩
  · intro id t ih h
    simp only [ids, List.mem_cons] at h
    rcases h with rfl | h
    · exact ⟨_, .here, rfl⟩
    · obtain ⟨u, hu, hx⟩ := ih h
      exact ⟨u, .queued hu, hx⟩
  · intro id ts ih h
    simp only [ids, List.mem_cons, List.mem_flatMap] at h
    rcases h with rfl | ⟨t, ht, h⟩
    · exact ⟨_, .here, rfl⟩
    · obtain ⟨u, hu, hx⟩ := ih t ht h
      exact ⟨u, .fanOut ht hu, hx⟩

namespace Within

theorem ids_subset (h : Within u t) : u.ids ⊆ t.ids := by
  induction h with
  | here => exact List.Subset.refl _
  | buffered _ ih => intro x hx; simp [ids, ih hx]
  | queued _ ih => intro x hx; simp [ids, ih hx]
  | fanOut ht _ ih => intro x hx; simpa [ids] using .inr ⟨_, ht, ih hx⟩

theorem files_subset (h : Within u t) : u.files ⊆ t.files := by
  induction h with
  | here => exact List.Subset.refl _
  | buffered _ ih => simpa using ih
  | queued _ ih => simpa using ih
  | fanOut ht _ ih => intro n hn; simpa using ⟨_, ht, ih hn⟩

theorem ordered (h : Within u t) (ho : t.Ordered) : u.Ordered := by
  induction h with
  | here => exact ho
  | buffered _ ih => simp only [Ordered] at ho; exact ih ho.2
  | queued _ ih => simp only [Ordered] at ho; exact ih ho.2
  | fanOut ht _ ih => simp only [Ordered] at ho; exact ih (ho _ ht).2

theorem distinct (h : Within u t) (hd : t.Distinct) : u.Distinct := by
  induction h with
  | here => exact hd
  | buffered _ ih => exact ih hd.buffered.2
  | queued _ ih => exact ih hd.queued.2
  | fanOut ht _ ih => exact ih (hd.fanOut.1 _ ht).2

end Within

instance : Std.Symm Apart :=
  ⟨fun _ _ h => ⟨fun x hx hx' => h.1 x hx' hx, fun n hn hn' => h.2 n hn' hn⟩⟩

/-- Different members of a fan-out have nothing in common. -/
theorem apart_of_ne (h : ts.Pairwise Apart) (ht : t ∈ ts) (hu : u ∈ ts) (hne : t ≠ u) :
    Apart t u :=
  h.forall ht hu hne

/-- **What works at its place leaves the whole sound.** -/
theorem Within.sound (h : Within u t) : ∀ {b : ByteArray}, t.Distinct → t.Sound b w →
    ∃ b', u.Sound b' w ∧ ∀ w', Alters u.ids u.files w w' → u.Sound b' w' → t.Sound b w' := by
  induction h with
  | here => exact fun {b} _ hs => ⟨b, hs, fun _ _ hs' => hs'⟩
  | @buffered id t hu ih =>
    intro b hd hs
    rw [Sound] at hs
    obtain ⟨buf, b₁, hcell, hopen, htimer, hb, hs⟩ := hs
    obtain ⟨b', hs', hkeep⟩ := ih hd.buffered.2 hs
    refine ⟨b', hs', fun w' ha hs'' => ?_⟩
    rw [Sound]
    exact ⟨buf, b₁, (ha.cells id fun hm => hd.buffered.1 (hu.ids_subset hm)).trans hcell, hopen,
      htimer, hb, hkeep w' ha hs''⟩
  | @queued id t hu ih =>
    intro b hd hs
    rw [Sound] at hs
    obtain ⟨q, b₁, hcell, hq, hb, hs⟩ := hs
    obtain ⟨b', hs', hkeep⟩ := ih hd.queued.2 hs
    refine ⟨b', hs', fun w' ha hs'' => ?_⟩
    rw [Sound]
    exact ⟨q, b₁, (ha.cells id fun hm => hd.queued.1 (hu.ids_subset hm)).trans hcell, hq, hb,
      hkeep w' ha hs''⟩
  | @fanOut id ts t ht hu ih =>
    intro b hd hs
    rw [Sound] at hs
    obtain ⟨f, hcell, hopen, hm, hs⟩ := hs
    obtain ⟨hdts, hapart⟩ := hd.fanOut
    obtain ⟨b', hs', hkeep⟩ := ih (hdts t ht).2 (hs t ht)
    refine ⟨b', hs', fun w' ha hs'' => ?_⟩
    rw [Sound]
    refine ⟨f, (ha.cells id fun hm => (hdts t ht).1 (hu.ids_subset hm)).trans hcell, hopen, hm,
      fun v hv => ?_⟩
    -- the other members are as they were
    by_cases hvt : v = t
    · exact hvt ▸ hkeep w' ha hs''
    · have hvu := apart_of_ne hapart hv ht hvt
      exact sound_local b (.of_alters ha (fun x hx hx' => hvu.1 x hx (hu.ids_subset hx'))
        fun n hn hn' => hvu.2 n hn (hu.files_subset hn')) (hs v hv)

/-! ## Who fills the queues -/

/-- Every queue, with the queue whose worker writes to it. `a` stands for whoever writes to the
tree. -/
def feeds : Tree → ℕ → List (ℕ × ℕ)
  | leaf _ _, _ => []
  | buffered _ t, a => t.feeds a
  | queued id t, a => (id, a) :: t.feeds id
  | fanOut _ ts, a => ts.flatMap fun t => t.feeds a

theorem mem_ids_of_feeds : ∀ {t : Tree} {a : ℕ}, (j, p) ∈ t.feeds a → j ∈ t.ids := by
  refine @induction _ ?_ ?_ ?_ ?_
  · intro id l a h; simp [feeds] at h
  · intro id t ih a h; simp only [feeds] at h; simp [ids, ih h]
  · intro id t ih a h
    simp only [feeds, List.mem_cons, Prod.mk.injEq] at h
    rcases h with ⟨rfl, -⟩ | h
    · simp [ids]
    · simp [ids, ih h]
  · intro id ts ih a h
    simp only [feeds, List.mem_flatMap] at h
    obtain ⟨t, ht, h⟩ := h
    simpa [ids] using .inr ⟨t, ht, ih t ht h⟩

/-- Whoever writes to a queue was made after it. -/
theorem feeds_lt : ∀ {t : Tree} {a : ℕ}, t.Ordered → t.id < a → (j, p) ∈ t.feeds a →
    j < p ∧ p ≤ a := by
  refine @induction _ ?_ ?_ ?_ ?_
  · intro id l a _ _ h; simp [feeds] at h
  · intro id t ih a ho hlt h
    simp only [feeds, Ordered, id_buffered] at h ho hlt
    exact ih ho.2 (by omega) h
  · intro id t ih a ho hlt h
    simp only [feeds, Ordered, id_queued, List.mem_cons, Prod.mk.injEq] at h ho hlt
    rcases h with ⟨rfl, rfl⟩ | h
    · omega
    · have := ih ho.2 ho.1 h
      omega
  · intro id ts ih a ho hlt h
    simp only [feeds, Ordered, id_fanOut, List.mem_flatMap] at h ho hlt
    obtain ⟨t, ht, h⟩ := h
    have := (ho t ht).1
    exact ih t ht (ho t ht).2 (by omega) h

/-- A write to the tree reaches the queues that nobody in it writes to, and no others. -/
theorem feeds_front : ∀ {t : Tree} {a : ℕ}, t.Distinct → (j, p) ∈ t.feeds a →
    (p = a ∧ j ∈ t.front) ∨ (p ∈ t.ids ∧ j ∉ t.front) := by
  refine @induction _ ?_ ?_ ?_ ?_
  · intro id l a _ h; simp [feeds] at h
  · intro id t ih a hd h
    simp only [feeds] at h
    have hne : j ≠ id := fun he => hd.buffered.1 (he ▸ mem_ids_of_feeds h)
    have := ih hd.buffered.2 h
    simp only [front, ids, List.mem_cons, hne, false_or]
    exact this.imp_right (And.imp_left .inr)
  · intro id t ih a hd h
    simp only [feeds, List.mem_cons, Prod.mk.injEq] at h
    rcases h with ⟨rfl, rfl⟩ | h
    · exact .inl ⟨rfl, by simp [front]⟩
    · -- whatever is behind the queue is written to by a worker of the tree
      have hne : j ≠ id := fun he => hd.queued.1 (he ▸ mem_ids_of_feeds h)
      refine .inr ⟨?_, by simpa [front] using hne⟩
      rcases ih hd.queued.2 h with ⟨rfl, -⟩ | ⟨hp, -⟩
      · simp [ids]
      · simp [ids, hp]
  · intro id ts ih a hd h
    obtain ⟨hdts, hapart⟩ := hd.fanOut
    simp only [feeds, List.mem_flatMap] at h
    obtain ⟨t, ht, h⟩ := h
    have hj := mem_ids_of_feeds h
    have hne : j ≠ id := fun he => (hdts t ht).1 (he ▸ hj)
    simp only [front, ids, List.mem_cons, hne, false_or, List.mem_flatMap]
    -- a queue that is not reached in its member is not reached in another one either
    rcases ih t ht (hdts t ht).2 h with ⟨hp, hf⟩ | ⟨hp, hf⟩
    · exact .inl ⟨hp, t, ht, hf⟩
    · refine .inr ⟨.inr ⟨t, ht, hp⟩, ?_⟩
      rintro ⟨v, hv, hf'⟩
      by_cases hvt : v = t
      · exact hf (hvt ▸ hf')
      · exact (apart_of_ne hapart hv ht hvt).1 j (front_subset v hf') hj

/-- What waits in a sound tree waits in one of its queues. -/
theorem feeds_of_load : ∀ {t : Tree} {b : ByteArray} (a : ℕ), t.Sound b w → x ∈ t.ids →
    w.load x ≠ 0 → ∃ p, (x, p) ∈ t.feeds a := by
  refine @induction _ ?_ ?_ ?_ ?_
  · intro id l b a hs hx hload
    obtain rfl : x = id := by simpa [ids] using hx
    exact absurd (load_leaf hs) hload
  · intro id t ih b a hs hx hload
    rw [Sound] at hs
    obtain ⟨buf, b', hcell, -, -, -, hs⟩ := hs
    simp only [ids, List.mem_cons] at hx
    rcases hx with rfl | hx
    · simp [Network.load, hcell] at hload
    · simpa [feeds] using ih a hs hx hload
  · intro id t ih b a hs hx hload
    rw [Sound] at hs
    obtain ⟨q, b', -, -, -, hs⟩ := hs
    simp only [ids, List.mem_cons] at hx
    rcases hx with rfl | hx
    · exact ⟨a, by simp [feeds]⟩
    · obtain ⟨p, hp⟩ := ih id hs hx hload
      exact ⟨p, by simp [feeds, hp]⟩
  · intro id ts ih b a hs hx hload
    rw [Sound] at hs
    obtain ⟨f, hcell, -, -, hs⟩ := hs
    simp only [ids, List.mem_cons, List.mem_flatMap] at hx
    rcases hx with rfl | ⟨t, ht, hx⟩
    · simp [Network.load, hcell] at hload
    · obtain ⟨p, hp⟩ := ih t ht a (hs t ht) hx hload
      exact ⟨p, by simpa [feeds] using ⟨t, ht, hp⟩⟩

/-- At its place a tree is filled by the same ones. -/
theorem Within.feeds (h : Within u t) : ∀ (a : ℕ), t.Distinct → ∃ a', u.feeds a' ⊆ t.feeds a ∧
    ∀ j p, (j, p) ∈ t.feeds a → j ∈ u.ids → (j, p) ∈ u.feeds a' := by
  induction h with
  | here => exact fun a _ => ⟨a, List.Subset.refl _, fun _ _ h _ => h⟩
  | buffered _ ih =>
    intro a hd
    obtain ⟨a', hsub, h⟩ := ih a hd.buffered.2
    exact ⟨a', by simpa only [Tree.feeds] using hsub, by simpa only [Tree.feeds] using h⟩
  | @queued id t hu ih =>
    intro a hd
    obtain ⟨a', hsub, h⟩ := ih id hd.queued.2
    refine ⟨a', ?_, fun j p hjp hj => ?_⟩
    · simp only [Tree.feeds]
      exact fun x hx => List.mem_cons_of_mem _ (hsub hx)
    · simp only [Tree.feeds, List.mem_cons, Prod.mk.injEq] at hjp
      rcases hjp with ⟨rfl, -⟩ | hjp
      · exact absurd (hu.ids_subset hj) hd.queued.1
      · exact h j p hjp hj
  | @fanOut id ts t ht hu ih =>
    intro a hd
    obtain ⟨hdts, hapart⟩ := hd.fanOut
    obtain ⟨a', hsub, h⟩ := ih a (hdts t ht).2
    refine ⟨a', ?_, fun j p hjp hj => ?_⟩
    · simp only [Tree.feeds]
      exact fun x hx => List.mem_flatMap.2 ⟨t, ht, hsub hx⟩
    · simp only [Tree.feeds, List.mem_flatMap] at hjp
      obtain ⟨v, hv, hjp⟩ := hjp
      by_cases hvt : v = t
      · exact h j p (hvt ▸ hjp) hj
      · exact absurd (hu.ids_subset hj) ((apart_of_ne hapart hv ht hvt).1 j (mem_ids_of_feeds hjp))

/-- A tree that is all there is in a network, as far as buffers and queues go; no delivery waits. -/
structure Placed (t : Tree) (w : Network) : Prop where
  ordered : t.Ordered
  distinct : t.Distinct
  known : t.id < w.cells.size
  noQueue : ∀ id, id ∉ t.ids → ∀ q inner, w.cell id ≠ .queued q inner
  noBuffer : ∀ id, id ∉ t.ids → ∀ buf inner, w.cell id ≠ .buffered buf inner
  paused : w.paused = []
  blocked : w.blocked = false

theorem Placed.alters (h : t.Placed w) (ha : Alters t.ids t.files w w') : t.Placed w' :=
  ⟨h.ordered, h.distinct, ha.size ▸ h.known, fun id hi => ha.cells id hi ▸ h.noQueue id hi,
    fun id hi => ha.cells id hi ▸ h.noBuffer id hi, ha.paused.trans h.paused,
    ha.blocked.trans h.blocked⟩

/-- A queue of the network stands in the tree. -/
theorem Placed.queue (h : t.Placed w) (hs : t.Sound b w) {q : Queue} {inner : ℕ}
    (hcell : w.cell id = .queued q inner) : ∃ v, Within (.queued id v) t := by
  have hid : id ∈ t.ids := by
    by_contra hid
    exact h.noQueue id hid q inner hcell
  -- of the sinks of a sound tree only a queue stands in the cell of a queue
  obtain ⟨u, hu, rfl⟩ := exists_within hid
  obtain ⟨b', hs', -⟩ := hu.sound h.distinct hs
  cases u with
  | leaf id l => cases l <;> simp_all [Sound]
  | buffered id v => simp_all [Sound]
  | queued id v => exact ⟨v, hu⟩
  | fanOut id vs => simp_all [Sound]

/-- A buffer of the network stands in the tree. -/
theorem Placed.buffer (h : t.Placed w) (hs : t.Sound b w) {buf : Buffer} {inner : ℕ}
    (hcell : w.cell id = .buffered buf inner) : ∃ v, Within (.buffered id v) t := by
  have hid : id ∈ t.ids := by
    by_contra hid
    exact h.noBuffer id hid buf inner hcell
  obtain ⟨u, hu, rfl⟩ := exists_within hid
  obtain ⟨b', hs', -⟩ := hu.sound h.distinct hs
  cases u with
  | leaf id l => cases l <;> simp_all [Sound]
  | buffered id v => exact ⟨v, hu⟩
  | queued id v => simp_all [Sound]
  | fanOut id vs => simp_all [Sound]

/-- What waits in the network waits in one of the queues of the tree. -/
theorem Placed.feeds_of_load (h : t.Placed w) (hs : t.Sound b w) (a : ℕ) (hx : w.load x ≠ 0) :
    ∃ p, (x, p) ∈ t.feeds a := by
  refine Tree.feeds_of_load a hs ?_ hx
  by_contra hid
  unfold Network.load at hx
  split at hx
  · rename_i q inner hcell
    exact h.noQueue x hid q inner hcell
  · exact hx rfl

end Tree

end Logging
