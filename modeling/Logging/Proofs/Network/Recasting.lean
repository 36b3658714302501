import Logging.Proofs.Network.Evolving
import Logging.Proofs.Network.Shutdown
import Logging.Proofs.Sink.Corresponding

/-!
# Memory sinks in the place of sinks that keep their calls

A memory sink takes whatever is written to it until it is closed. So a tree of memory sinks does
what a tree does whose ends keep their calls and answer each of them well.

* `Scripted.kept`: the memory sink that got the same calls.
* `Network.recast`: memory sinks in the place of sinks that keep their calls, and workers with other
  policies.
* `Tree.write_alike`, `Tree.flush_alike`, `Tree.close_alike`: **an operation does the same in both
  networks**.
-/

namespace Logging

open Sink Worker

variable {w₀ v v' : Network} {id x n : ℕ} {p : ByteArray} {good : Outcome → Prop}

namespace Sink

/-! ## Calls that are kept -/

/-- The call closes a sink. -/
def Call.closes : Call → Bool
  | close => true
  | _ => false

namespace Scripted

variable {s : Scripted}

/-- How often the sink was closed. -/
def closings (s : Scripted) : ℕ := s.calls.countP fun c => c.1.closes

/-- The memory sink that got the same calls. -/
def kept (s : Scripted) : Memory where
  writes := (offered s.calls).toArray
  closed := s.closings != 0
  closeCalls := s.closings

theorem closings_eq_zero (h : ∀ c ∈ s.calls, c.1 ≠ .close) : s.closings = 0 := by
  rw [closings, List.countP_eq_zero]
  intro c hc
  have hne := h c hc
  cases hcall : c.1 <;> simp_all [Call.closes]

theorem closings_answer (c : Call) :
    (s.answer c).2.closings = s.closings + c.closes.toNat := by
  cases h : c.closes <;> simp [closings, answer, h]

theorem kept_answer (c : Call) : (s.answer c).2.kept =
    { writes := s.kept.writes ++ c.payload?.toList.toArray
      closed := s.closings + c.closes.toNat != 0
      closeCalls := s.closings + c.closes.toNat } := by
  rw [kept, closings_answer, kept]
  cases c <;> simp [answer, offered, Call.payload?]

theorem kept_write (h : s.closings = 0) (p : ByteArray) :
    s.kept.write p = (.ok (), (s.answer (.write p)).2.kept) := by
  rw [kept_answer]
  simp [Memory.write, kept, h, Call.payload?, Call.closes]

theorem kept_flush (s : Scripted) : (s.answer .flush).2.kept = s.kept := by
  rw [kept_answer]
  simp [kept, Call.payload?, Call.closes]

theorem kept_close (s : Scripted) : (s.answer .close).2.kept = s.kept.close := by
  rw [kept_answer]
  simp [kept, Call.payload?, Call.closes, Memory.close]

end Scripted

end Sink

/-! ## Another cast -/

/-- The policy of the worker of a queue. -/
def Cell.policy : Cell → Policy
  | queued q _ => q.machine.policy
  | _ => .default

/-- A memory sink in the place of a sink that keeps its calls, and a worker with another policy, as
they are in another cell. -/
def Cell.recast (c₀ : Cell) : Cell → Cell
  | scripted s =>
    match c₀ with
    | memory _ => memory s.kept
    | _ => scripted s
  | queued q inner => queued (q.under c₀.policy) inner
  | c => c

namespace Network

/-- Memory sinks in the place of sinks that keep their calls, and workers with other policies, as
they are in another network. -/
def recast (w₀ v : Network) : Network :=
  { v with cells := v.cells.mapIdx fun id c => (w₀.cell id).recast c }

@[simp] theorem recast_size : (w₀.recast v).cells.size = v.cells.size := by simp [recast]

@[simp] theorem recast_cell (id : ℕ) :
    (w₀.recast v).cell id = (w₀.cell id).recast (v.cell id) := by
  simp only [recast, cell, Array.getD_eq_getD_getElem?, Array.getElem?_mapIdx]
  cases v.cells[id]? <;> rfl

theorem recast_set (id : ℕ) (c : Cell) :
    w₀.recast (v.set id c) = (w₀.recast v).set id ((w₀.cell id).recast c) := by
  unfold recast set
  congr 1
  refine Array.ext (by simp) fun i hi hi' => ?_
  simp

theorem recast_emit (e : Event) : w₀.recast (v.emit e) = (w₀.recast v).emit e := by
  unfold emit recast
  dsimp only
  split <;> rfl

theorem recast_finish (inner : Destination Network) (k : Hook) :
    (work inner).finish k (w₀.recast v) = w₀.recast ((work inner).finish k v) := by
  unfold work inBackground
  dsimp only
  split
  · exact congrArg (fun u : Network => { u with background := v.background })
      (recast_emit .hook (v := { v with background := true })).symm
  · rfl

/-- An operation has such an outcome, and it does the same where the cast is another. -/
def Alike (w₀ : Network) (good : Outcome → Prop) (op : Network → Outcome × Network)
    (v : Network) : Prop :=
  good (op v).1 ∧ op (w₀.recast v) = ((op v).1, w₀.recast (op v).2)

/-- An operation in the background. -/
theorem Alike.inBackground {op : Network → Outcome × Network}
    (h : w₀.Alike good op { v with background := true }) : w₀.Alike good (inBackground op) v := by
  refine ⟨h.1, ?_⟩
  have hop : op { w₀.recast v with background := true } = _ := h.2
  unfold Network.inBackground
  rw [hop]
  rfl

end Network

/-- The operation went well. -/
def Outcome.Well (o : Outcome) : Prop := o = .ok ()

theorem Outcome.Well.first {o o' : Outcome} (h : o.Well) (h' : o'.Well) : (o.first o').Well := by
  obtain rfl := h
  exact h'

theorem Outcome.first_returns {o o' : Outcome} (h : o.Returns) (h' : o'.Returns) :
    (o.first o').Returns := by
  rcases o with e | u
  · exact h
  · exact h'

theorem Outcome.Well.returns {o : Outcome} (h : o.Well) : o.Returns := by
  obtain rfl := h
  exact returns_ok

namespace Tree

variable {t u : Tree} {ts : List Tree}

/-- The sinks at the ends stand for memory sinks and answer every call well. -/
def Docile (w₀ : Network) (t : Tree) (v : Network) : Prop :=
  ∀ x ∈ t.ends, (∃ m, w₀.cell x = .memory m) ∧
    ∃ s, v.cell x = .scripted s ∧ ∀ n, s.script n = .ok ()

theorem Docile.evolves (h : t.Docile w₀ v) (hv : Evolves v v') : t.Docile w₀ v' := by
  intro x hx
  obtain ⟨hm, s, hcell, hs⟩ := h x hx
  obtain ⟨calls, hcell'⟩ := (hv.becomes x).script s hcell
  exact ⟨hm, _, hcell', hs⟩

/-- A tree whose ends answer every call well, and in which nothing was closed. -/
structure Tame (w₀ : Network) (t : Tree) (v : Network) : Prop where
  isOpen : t.Open v
  docile : t.Docile w₀ v

theorem Tame.buffered (h : (Tree.buffered id t).Tame w₀ v) :
    ∃ buf, v.cell id = .buffered buf t.id ∧ buf.closed = false ∧ t.Tame w₀ v := by
  have hopen := h.isOpen
  rw [Open] at hopen
  obtain ⟨buf, hcell, hclosed, ht⟩ := hopen
  exact ⟨buf, hcell, hclosed, ht, fun x hx => h.docile x (by simpa using hx)⟩

theorem Tame.queued (h : (Tree.queued id t).Tame w₀ v) :
    ∃ q, v.cell id = .queued q t.id ∧ q.Serving ∧ t.Tame w₀ v := by
  have hopen := h.isOpen
  rw [Open] at hopen
  obtain ⟨q, hcell, hq, ht⟩ := hopen
  exact ⟨q, hcell, hq, ht, fun x hx => h.docile x (by simpa using hx)⟩

theorem Tame.fanOut (h : (Tree.fanOut id ts).Tame w₀ v) :
    ∃ f, v.cell id = .fanOut f ∧ f.closed = false ∧ f.members = ts.map Tree.id ∧
      ∀ t ∈ ts, t.Tame w₀ v := by
  have hopen := h.isOpen
  rw [Open] at hopen
  obtain ⟨f, hcell, hclosed, hm, hts⟩ := hopen
  exact ⟨f, hcell, hclosed, hm, fun t ht => ⟨hts t ht, fun x hx => h.docile x (by
    simpa using ⟨t, ht, hx⟩)⟩⟩

/-- An operation that leaves a tree open leaves it tame. -/
theorem Tame.next (h : t.Tame w₀ v) (ho : t.Open v') (hv : Evolves v v') : t.Tame w₀ v' :=
  ⟨ho, h.docile.evolves hv⟩

theorem Tame.congr (h : t.Tame w₀ v) (ha : t.Agrees v v') : t.Tame w₀ v' :=
  ⟨open_local ha h.isOpen, fun x hx => ha.cells x (t.ends_subset hx) ▸ h.docile x hx⟩

theorem tame_background (b : Bool) (h : t.Tame w₀ v) : t.Tame w₀ { v with background := b } :=
  h.congr (.nothing (Network.alters_background b v))

/-! ## Writing -/

/-- A write to the tree goes well and does the same where the cast is another. -/
def WritesAlike (w₀ : Network) (t : Tree) : Prop :=
  ∀ {n : ℕ} {v : Network} (p : ByteArray), t.id < n → t.Ordered → t.Distinct → t.Tame w₀ v →
    w₀.Alike Outcome.Well ((Network.destination n t.id).write p) v

/-- The sink at an end. -/
theorem Tame.leaf {l : Leaf} (h : (leaf id l).Tame w₀ v) : ∃ s, v.cell id = .scripted s ∧
    (∀ n, s.script n = .ok ()) ∧ s.closings = 0 ∧ (∃ m, w₀.cell id = .memory m) ∧
      (w₀.recast v).cell id = .memory s.kept := by
  obtain ⟨⟨m, hm⟩, s, hcell, hs⟩ := h.docile id (by simp)
  have hopen := h.isOpen
  rw [Open] at hopen
  obtain ⟨s', hcell', -, hcalls⟩ := hopen
  obtain rfl : s = s' := by simpa [hcell] using hcell'
  exact ⟨s, hcell, hs, Scripted.closings_eq_zero hcalls, ⟨m, hm⟩, by simp [hcell, hm, Cell.recast]⟩

theorem writesAlike_leaf (id : ℕ) (l : Leaf) : (leaf id l).WritesAlike w₀ := by
  intro n v p hn _ _ h
  obtain ⟨n, rfl⟩ := Nat.exists_eq_add_one_of_ne_zero (Nat.ne_zero_of_lt hn)
  obtain ⟨s, hcell, hs, hopen, ⟨m, hm⟩, hcell'⟩ := h.leaf
  constructor <;> simp [Network.destination, Network.writeCell, hcell, hcell', Scripted.answer, hs,
    Scripted.kept_write hopen, Network.recast_set, hm, Cell.recast, Outcome.Well]

theorem writesAlike_buffered (ih : t.WritesAlike w₀) (id : ℕ) :
    (buffered id t).WritesAlike w₀ := by
  intro n v p hn ho hd h
  obtain ⟨n, rfl⟩ := Nat.exists_eq_add_one_of_ne_zero (Nat.ne_zero_of_lt hn)
  obtain ⟨buf, hcell, hopen, ht⟩ := h.buffered
  simp only [Ordered] at ho
  have hnt : t.id < n := Nat.lt_of_lt_of_le ho.1 (Nat.le_of_lt_succ hn)
  have hinner := fun p => ih p hnt ho.2 hd.buffered.2 ht
  have hwrite := buf.write_map (fun p => (hinner p).2) p
  have hok := Buffer.write_ok (fun p => (hinner p).1) p hopen
  constructor
  · simpa [Network.destination, Network.writeCell, hcell, Outcome.Well] using hok
  · simp [Network.destination, Network.writeCell, hcell, Cell.recast, hwrite, Network.recast_set]

theorem writesAlike_queued (ih : t.WritesAlike w₀) (id : ℕ) :
    (queued id t).WritesAlike w₀ := by
  intro n v p hn ho hd h
  obtain ⟨n, rfl⟩ := Nat.exists_eq_add_one_of_ne_zero (Nat.ne_zero_of_lt hn)
  obtain ⟨q, hcell, hq, ht⟩ := h.queued
  simp only [Ordered] at ho
  have hnt : t.id < n := Nat.lt_of_lt_of_le ho.1 (Nat.le_of_lt_succ hn)
  have hinner := fun p => ih p hnt ho.2 hd.queued.2 ht
  have hwrite := Queue.write_under (fun p => (hinner p).2) (w₀.cell id).policy p q
  have hok := Queue.write_ok (fun p => (hinner p).1) p hq.isOpen
    (show q.machine.isClosed = false by simp [Machine.isClosed, hq.accepting])
  constructor
  · simpa [Network.destination, Network.writeCell, hcell, Outcome.Well] using hok
  · simp [Network.destination, Network.writeCell, hcell, Cell.recast, hwrite, Network.recast_set]

/-- An operation that does the same where the cast is another, and leaves other trees alone. -/
structure Follows (w₀ : Network) (good : Outcome → Prop) (op : Network → Outcome × Network)
    (t : Tree) (v : Network) : Prop where
  alike : w₀.Alike good op v
  alters : Alters t.ids [] v (op v).2

/-- **An operation on every member of a fan-out.** -/
theorem visit_alike (good : Outcome → Prop) (near : SinkId → Destination Network) (action : String)
    (op : Destination Network → Network → Outcome × Network)
    (hok : good (.ok ())) (hfirst : ∀ {o o'}, good o → good o' → good (o.first o'))
    (hreturns : ∀ {o}, good o → o.Returns) :
    ∀ {ts : List Tree} (place : ℕ) {v : Network}, ts.Pairwise Apart → (∀ t ∈ ts, t.Tame w₀ v) →
      (∀ t ∈ ts, ∀ {v}, t.Tame w₀ v → t.Follows w₀ good (op (near t.id)) v) →
      w₀.Alike good (FanOut.visit near action op place (ts.map Tree.id)) v := by
  intro ts
  induction ts with
  | nil => exact fun _ {v} _ _ _ => ⟨hok, rfl⟩
  | cons t ts ih =>
    intro place v hapart h hop
    obtain ⟨hapart₁, hapart⟩ := List.pairwise_cons.1 hapart
    obtain ⟨⟨hgood, heq⟩, ha⟩ := hop t List.mem_cons_self (h t List.mem_cons_self)
    obtain ⟨o, v₁, he⟩ : ∃ o v₁, op (near t.id) v = (o, v₁) := ⟨_, _, rfl⟩
    rw [he] at hgood heq ha
    -- the others are as they were
    have hothers : ∀ u ∈ ts, u.Tame w₀ v₁ := fun u hu =>
      (h u (.tail _ hu)).congr (.of_alters ha (fun x hx hx' => (hapart₁ u hu).1 x hx' hx)
        fun _ _ => List.not_mem_nil)
    obtain ⟨hgood', heq'⟩ := ih (place + 1) hapart hothers fun u hu => hop u (.tail _ hu)
    have hvisit : ∀ {s o s'}, op (near t.id) s = (o, s') → good o →
        FanOut.visit near action op place ((t :: ts).map Tree.id) s =
          (o.first (FanOut.visit near action op (place + 1) (ts.map Tree.id) s').1,
            (FanOut.visit near action op (place + 1) (ts.map Tree.id) s').2) := by
      intro s o s' hs hgood
      rw [List.map_cons, FanOut.visit, hs]
      dsimp only
      rw [contain_returns (hreturns hgood)]
    rw [Network.Alike, hvisit he hgood, hvisit heq hgood, heq']
    exact ⟨hfirst hgood hgood', rfl⟩

theorem writesAlike_fanOut (ih : ∀ t ∈ ts, t.WritesAlike w₀) (id : ℕ) :
    (fanOut id ts).WritesAlike w₀ := by
  intro n v p hn ho hd h
  obtain ⟨n, rfl⟩ := Nat.exists_eq_add_one_of_ne_zero (Nat.ne_zero_of_lt hn)
  obtain ⟨f, hcell, hopen, hm, hts⟩ := h.fanOut
  simp only [Ordered] at ho
  obtain ⟨hdts, hapart⟩ := hd.fanOut
  have hvisit := visit_alike Outcome.Well (Network.destination n) "write"
    (fun d s => d.write p s) rfl Outcome.Well.first Outcome.Well.returns 0 hapart hts
    fun t ht v h => by
      have hnt := Nat.lt_of_lt_of_le (ho t ht).1 (Nat.le_of_lt_succ hn)
      exact ⟨ih t ht p hnt (ho t ht).2 (hdts t ht).2 h,
        (write_does t p hnt (ho t ht).2 (hdts t ht).2 h.isOpen).alters⟩
  rw [← hm] at hvisit
  simpa [Network.Alike, Network.destination, Network.writeCell, hcell, Cell.recast, FanOut.write,
    hopen] using hvisit

/-- **A write does the same where the cast is another.** -/
theorem write_alike (w₀ : Network) (t : Tree) : t.WritesAlike w₀ :=
  induction (P := WritesAlike w₀) writesAlike_leaf (fun id _ ih => writesAlike_buffered ih id)
    (fun id _ ih => writesAlike_queued ih id) (fun id _ ih => writesAlike_fanOut ih id) t

/-! ## Flushing -/

/-- A buffer in front of a tree passes on what it gathered. -/
theorem Tame.pass (h : t.Tame w₀ v) (hn : t.id < n) (ho : t.Ordered) (hd : t.Distinct)
    (buf : Buffer) : t.Tame w₀ (buf.pass (Network.destination n t.id) v).2.2 := by
  obtain ⟨o, v', hpass, -, hdone, -⟩ := pass_does hn ho hd buf h.isOpen
  have hevolves := Buffer.pass_keeps (Network.destination_evolves n t.id v) buf (.refl v)
  rw [hpass] at hevolves ⊢
  exact h.next hdone.isOpen hevolves

/-- A flush of the tree goes well and does the same where the cast is another. -/
def FlushesAlike (w₀ : Network) (t : Tree) : Prop :=
  ∀ {n : ℕ} {v : Network}, t.id < n → t.Ordered → t.Distinct → t.Tame w₀ v →
    w₀.Alike Outcome.Well (Network.destination n t.id).flush v

theorem flushesAlike_leaf (id : ℕ) (l : Leaf) : (leaf id l).FlushesAlike w₀ := by
  intro n v hn _ _ h
  obtain ⟨n, rfl⟩ := Nat.exists_eq_add_one_of_ne_zero (Nat.ne_zero_of_lt hn)
  obtain ⟨s, hcell, hs, -, ⟨m, hm⟩, hcell'⟩ := h.leaf
  have hkept : (w₀.recast v).set id (.memory (s.answer .flush).2.kept) = w₀.recast v := by
    rw [s.kept_flush]
    exact Network.set_same hcell'
  constructor
  · simp [Network.destination, Network.flushCell, hcell, Scripted.answer, hs, Outcome.Well]
  · simp [Network.destination, Network.flushCell, hcell, hcell', Network.recast_set, hm,
      Cell.recast, hkept]
    simp [Scripted.answer, hs]

theorem flushesAlike_buffered (ih : t.FlushesAlike w₀) (id : ℕ) :
    (buffered id t).FlushesAlike w₀ := by
  intro n v hn ho hd h
  obtain ⟨n, rfl⟩ := Nat.exists_eq_add_one_of_ne_zero (Nat.ne_zero_of_lt hn)
  obtain ⟨buf, hcell, hopen, ht⟩ := h.buffered
  simp only [Ordered] at ho
  have hnt : t.id < n := Nat.lt_of_lt_of_le ho.1 (Nat.le_of_lt_succ hn)
  have hdt := hd.buffered.2
  have hinner := fun p => write_alike w₀ t p hnt ho.2 hdt ht
  have hpassed := ih hnt ho.2 hdt (ht.pass hnt ho.2 hdt buf)
  have hflush := Buffer.flush_map (fun p => (hinner p).2) hpassed.2
  have hok := Buffer.flush_ok (fun p => (hinner p).1) hopen hpassed.1
  constructor
  · simpa [Network.destination, Network.flushCell, hcell, Outcome.Well] using hok
  · simp [Network.destination, Network.flushCell, hcell, Cell.recast, hflush, Network.recast_set]

theorem flushesAlike_queued (ih : t.FlushesAlike w₀) (id : ℕ) :
    (queued id t).FlushesAlike w₀ := by
  intro n v hn ho hd h
  obtain ⟨n, rfl⟩ := Nat.exists_eq_add_one_of_ne_zero (Nat.ne_zero_of_lt hn)
  obtain ⟨q, hcell, -, ht⟩ := h.queued
  simp only [Ordered] at ho
  have hnt : t.id < n := Nat.lt_of_lt_of_le ho.1 (Nat.le_of_lt_succ hn)
  simpa [Network.Alike, Network.destination, Network.flushCell, hcell, Cell.recast] using
    ih hnt ho.2 hd.queued.2 ht

theorem flushesAlike_fanOut (ih : ∀ t ∈ ts, t.FlushesAlike w₀) (id : ℕ) :
    (fanOut id ts).FlushesAlike w₀ := by
  intro n v hn ho hd h
  obtain ⟨n, rfl⟩ := Nat.exists_eq_add_one_of_ne_zero (Nat.ne_zero_of_lt hn)
  obtain ⟨f, hcell, -, hm, hts⟩ := h.fanOut
  simp only [Ordered] at ho
  obtain ⟨hdts, hapart⟩ := hd.fanOut
  have hvisit := visit_alike Outcome.Well (Network.destination n) "flush"
    (fun d s => d.flush s) rfl Outcome.Well.first Outcome.Well.returns 0 hapart hts
    fun t ht v h => by
      have hnt := Nat.lt_of_lt_of_le (ho t ht).1 (Nat.le_of_lt_succ hn)
      exact ⟨ih t ht hnt (ho t ht).2 (hdts t ht).2 h,
        (flush_does t hnt (ho t ht).2 (hdts t ht).2 h.isOpen).alters⟩
  rw [← hm] at hvisit
  simpa [Network.Alike, Network.destination, Network.flushCell, hcell, Cell.recast, FanOut.flush]
    using hvisit

/-- **A flush does the same where the cast is another.** -/
theorem flush_alike (w₀ : Network) (t : Tree) : t.FlushesAlike w₀ :=
  induction (P := FlushesAlike w₀) flushesAlike_leaf (fun id _ ih => flushesAlike_buffered ih id)
    (fun id _ ih => flushesAlike_queued ih id) (fun id _ ih => flushesAlike_fanOut ih id) t

/-! ## Workers -/

/-- A worker's write to the sink behind. -/
theorem process_alike (hn : t.id < n) (ho : t.Ordered) (hd : t.Distinct) (h : t.Tame w₀ v)
    (p : ByteArray) :
    w₀.Alike Outcome.Well ((Network.work (Network.destination n t.id)).process p) v :=
  (write_alike w₀ t p hn ho hd (tame_background true h)).inBackground

/-- What a worker in front of the tree does next goes well. -/
theorem Tame.smooth (h : t.Tame w₀ v) (hn : t.id < n) (ho : t.Ordered) (hd : t.Distinct)
    (m : Machine ByteArray) : Machine.Smooth (Network.work (Network.destination n t.id))
      (Network.work (Network.destination n t.id)) w₀.recast m v := by
  intro x _
  obtain ⟨hok, heq⟩ := process_alike hn ho hd h x
  exact ⟨hok, by rw [heq, hok]⟩

/-- A step of a worker in front of the tree. -/
theorem Tame.step (h : t.Tame w₀ v) (hn : t.id < n) (ho : t.Ordered) (hd : t.Distinct)
    {m m' : Machine ByteArray} (hr : m.policy.Returns)
    (hs : m.step (Network.work (Network.destination n t.id)) v = some (m', v')) :
    m'.policy.Returns ∧ t.Tame w₀ v' := by
  obtain ⟨hdone, -, hpolicy, -⟩ := step_conveys hn ho hd h.isOpen hr hs
  have hevolves := Network.step_evolves (Network.destination_evolves n t.id) hs
  exact ⟨hpolicy ▸ hr, h.next hdone.isOpen hevolves⟩

/-- **Stopping a worker in front of the tree.** -/
theorem stop_alike (hn : t.id < n) (ho : t.Ordered) (hd : t.Distinct) (h : t.Tame w₀ v)
    {m : Machine ByteArray} (hr : m.policy.Returns) (policy : Policy) :
    (m.under policy).stop (Network.work (Network.destination n t.id)) (w₀.recast v) =
      ((m.stop (Network.work (Network.destination n t.id)) v).1,
        (m.stop (Network.work (Network.destination n t.id)) v).2.1.under policy,
        w₀.recast (m.stop (Network.work (Network.destination n t.id)) v).2.2) := by
  refine Machine.stop_under (P := fun m v => m.policy.Returns ∧ t.Tame w₀ v)
    (fun h => h.2.smooth hn ho hd _) (fun h hs => h.2.step hn ho hd h.1 hs)
    (fun k v => Network.recast_finish _ k) policy ⟨?_, h⟩
  obtain ⟨phase, hclose⟩ := m.close_eq
  rw [hclose]
  exact hr

/-! ## Closing -/

/-- The first close of the tree does the same where the cast is another. -/
def ClosesAlike (w₀ : Network) (t : Tree) : Prop :=
  ∀ {n : ℕ} {v : Network}, t.id < n → t.Ordered → t.Distinct → t.Tame w₀ v →
    w₀.Alike Outcome.Returns (Network.destination n t.id).close v

theorem closesAlike_leaf (id : ℕ) (l : Leaf) : (leaf id l).ClosesAlike w₀ := by
  intro n v hn ho hd h
  refine ⟨(close_does _ hn ho hd h.isOpen).returns, ?_⟩
  obtain ⟨n, rfl⟩ := Nat.exists_eq_add_one_of_ne_zero (Nat.ne_zero_of_lt hn)
  obtain ⟨s, hcell, hs, -, ⟨m, hm⟩, hcell'⟩ := h.leaf
  simp [Network.destination, Network.closeCell, hcell, hcell', Network.recast_set, hm, Cell.recast,
    Scripted.kept_close]
  simp [Scripted.answer, hs]

/-- What a buffer does that is closed. -/
theorem closeBuffer_alike (ih : t.ClosesAlike w₀) (hn : t.id < n) (ho : t.Ordered)
    (hd : t.Distinct) (h : t.Tame w₀ v) (buf : Buffer) :
    buf.close (Network.destination n t.id) (w₀.recast v) =
      ((buf.close (Network.destination n t.id) v).1, (buf.close (Network.destination n t.id) v).2.1,
        w₀.recast (buf.close (Network.destination n t.id) v).2.2) := by
  have htimer : t.Tame w₀ (Buffer.stopTimer buf.timer v) := by
    unfold Buffer.stopTimer
    split
    · exact h.congr (.nothing (Network.alters_report _ v))
    · exact h
  exact Buffer.close_map (fun _ _ => rfl) (fun p => (write_alike w₀ t p hn ho hd htimer).2)
    (ih hn ho hd (htimer.pass hn ho hd buf.closing)).2

/-- What a queue does that is closed. -/
theorem closeQueue_alike (ih : t.ClosesAlike w₀) (hn : t.id < n) (ho : t.Ordered)
    (hd : t.Distinct) (h : t.Tame w₀ v) {q : Queue} (hq : q.Serving) (policy : Policy) :
    (q.under policy).close (Network.destination n t.id) (Network.work (Network.destination n t.id))
        (w₀.recast v) =
      ((q.close (Network.destination n t.id) (Network.work (Network.destination n t.id)) v).1,
        (q.close (Network.destination n t.id)
          (Network.work (Network.destination n t.id)) v).2.1.under policy,
        w₀.recast (q.close (Network.destination n t.id)
          (Network.work (Network.destination n t.id)) v).2.2) := by
  refine Queue.close_under (stop_alike hn ho hd h hq.policy policy) (ih hn ho hd ?_).2
  obtain ⟨o, m', v', hstop, -, -, hdone, -⟩ :=
    stop_conveys hn ho hd h.isOpen hq.policy hq.running hq.joined
  have hevolves := Network.stop_evolves (Network.destination_evolves n t.id) q.machine v
  rw [hstop] at hevolves ⊢
  exact h.next hdone.isOpen hevolves

theorem closesAlike_buffered (ih : t.ClosesAlike w₀) (id : ℕ) :
    (buffered id t).ClosesAlike w₀ := by
  intro n v hn ho hd h
  refine ⟨(close_does _ hn ho hd h.isOpen).returns, ?_⟩
  obtain ⟨n, rfl⟩ := Nat.exists_eq_add_one_of_ne_zero (Nat.ne_zero_of_lt hn)
  obtain ⟨buf, hcell, -, ht⟩ := h.buffered
  simp only [Ordered] at ho
  have hnt : t.id < n := Nat.lt_of_lt_of_le ho.1 (Nat.le_of_lt_succ hn)
  have hclose := closeBuffer_alike ih hnt ho.2 hd.buffered.2 ht buf
  simp [Network.destination, Network.closeCell, hcell, Cell.recast, hclose, Network.recast_set]

theorem closesAlike_queued (ih : t.ClosesAlike w₀) (id : ℕ) :
    (queued id t).ClosesAlike w₀ := by
  intro n v hn ho hd h
  refine ⟨(close_does _ hn ho hd h.isOpen).returns, ?_⟩
  obtain ⟨n, rfl⟩ := Nat.exists_eq_add_one_of_ne_zero (Nat.ne_zero_of_lt hn)
  obtain ⟨q, hcell, hq, ht⟩ := h.queued
  simp only [Ordered] at ho
  have hnt : t.id < n := Nat.lt_of_lt_of_le ho.1 (Nat.le_of_lt_succ hn)
  have hclose := closeQueue_alike ih hnt ho.2 hd.queued.2 ht hq (w₀.cell id).policy
  simp [Network.destination, Network.closeCell, hcell, Cell.recast, hclose, Network.recast_set]

theorem closesAlike_fanOut (ih : ∀ t ∈ ts, t.ClosesAlike w₀) (id : ℕ) :
    (fanOut id ts).ClosesAlike w₀ := by
  intro n v hn ho hd h
  refine ⟨(close_does _ hn ho hd h.isOpen).returns, ?_⟩
  obtain ⟨n, rfl⟩ := Nat.exists_eq_add_one_of_ne_zero (Nat.ne_zero_of_lt hn)
  obtain ⟨f, hcell, hopen, hm, hts⟩ := h.fanOut
  simp only [Ordered] at ho
  obtain ⟨hdts, hapart⟩ := hd.fanOut
  have hvisit := visit_alike Outcome.Returns (Network.destination n) "close"
    (fun d s => d.close s) Outcome.returns_ok Outcome.first_returns (fun h => h) 0 hapart hts
    fun t ht v h => by
      have hnt := Nat.lt_of_lt_of_le (ho t ht).1 (Nat.le_of_lt_succ hn)
      exact ⟨ih t ht hnt (ho t ht).2 (hdts t ht).2 h,
        (close_does t hnt (ho t ht).2 (hdts t ht).2 h.isOpen).alters⟩
  rw [← hm] at hvisit
  have hclose := hvisit.2
  simp [Network.destination, Network.closeCell, hcell, Cell.recast, FanOut.close, hopen, hclose,
    Network.recast_set]

/-- **The first close does the same where the cast is another.** -/
theorem close_alike (w₀ : Network) (t : Tree) : t.ClosesAlike w₀ :=
  induction (P := ClosesAlike w₀) closesAlike_leaf (fun id _ ih => closesAlike_buffered ih id)
    (fun id _ ih => closesAlike_queued ih id) (fun id _ ih => closesAlike_fanOut ih id) t

end Tree

end Logging
