import Logging.Proofs.Network.Conveying

/-!
# Operations on trees whose ends fail

* `Tree.leaf_does`: a sink at an end keeps its calls.
* `Tree.does_buffered`, `Tree.does_queued`, `Tree.does_fanOut`: what is done behind a sink is done to
  the whole.
* `Tree.write_does`, `Tree.flush_does`: **a write and a flush hand on what they find**, whatever the
  sinks at the ends answer.
-/

namespace Logging

open Sink Worker

variable {w w' w₁ : Network} {id x n : ℕ} {ks ks' : List ByteArray} {o : Outcome}

namespace Outcome

theorem returns_ok : Returns (.ok ()) := by
  intro p h
  cases h

theorem returns_fault (f : Fault) : (Outcome.fault f).Returns := by
  intro p h
  cases h

end Outcome

namespace Tree

variable {t u : Tree} {ts : List Tree}

/-! ## Sinks at the ends -/

/-- A sink at an end keeps a call that does not close it. -/
theorem leaf_does {s : Scripted} (l : Leaf) (hcell : w.cell id = .scripted s)
    (hs : ∀ n, (s.script n).Returns) (hcalls : ∀ c ∈ s.calls, c.1 ≠ .close) {c : Call}
    (hc : c ≠ .close) :
    (leaf id l).Does (fun _ => Conveys c.payload?.toList []) w
      ((s.answer c).1, w.set id (.scripted (s.answer c).2)) := by
  have hcell' := Network.cell_set_self (Network.cell_lt hcell (by simp)) (.scripted (s.answer c).2)
  refine ⟨hs _, ⟨?_, fun x hx => ?_⟩, (Alters.refl _ _ w).set (by simp [ids]) _⟩
  · rw [Open]
    exact ⟨_, hcell', hs, List.forall_mem_append.2 ⟨hcalls, by simpa using hc⟩⟩
  · obtain rfl : x = id := by simpa using hx
    have hold : w.calls x = s.calls := by simp [Network.calls, hcell]
    have hnew : (w.set x (.scripted (s.answer c).2)).calls x = (s.answer c).2.calls := by
      simp [Network.calls, hcell']
    refine ⟨[(c, (s.answer c).1)], ?_, ?_, ?_⟩
    · rw [hnew, hold]
      rfl
    · simpa using hc
    · cases hp : c.payload? <;> simpa [held, offered, hp] using Carries.refl _

/-! ## In front of a tree -/

theorem Conveys.set (h : t.Conveys ks ks' w w₁) (hd : id ∉ t.ids) (c : Cell) :
    t.Conveys ks ks' w (w₁.set id c) :=
  h.congr (.refl t w) (agrees_set hd c w₁)

/-- What is done behind a buffer is done to the whole, once the buffer is put anew. -/
theorem does_buffered {buf buf' : Buffer} (hcell : w.cell id = .buffered buf t.id)
    (hd : id ∉ t.ids) (hopen : buf'.closed = false)
    (h : t.Does (fun _ => Conveys (buf.pending :: ks) (buf'.pending :: ks')) w (o, w₁)) :
    (buffered id t).Does (fun _ => Conveys ks ks') w (o, w₁.set id (.buffered buf' t.id)) := by
  obtain ⟨hreturns, hdone, ha⟩ := h
  have hid : id < w₁.cells.size := ha.size ▸ Network.cell_lt hcell (by simp)
  refine ⟨hreturns, ?_, (ha.mono (by simp [ids]) (List.Subset.refl _)).set (by simp [ids]) _⟩
  exact (hdone.set hd _).buffered hcell (Network.cell_set_self hid _) hopen

/-- What is done behind a queue is done to the whole, once the queue is put anew. -/
theorem does_queued {q q' : Queue} (hcell : w.cell id = .queued q t.id) (hd : id ∉ t.ids)
    (hq : q'.Serving)
    (h : t.Does (fun _ => Conveys (q.machine.waiting ++ ks) (q'.machine.waiting ++ ks')) w
      (o, w₁)) :
    (queued id t).Does (fun _ => Conveys ks ks') w (o, w₁.set id (.queued q' t.id)) := by
  obtain ⟨hreturns, hdone, ha⟩ := h
  have hid : id < w₁.cells.size := ha.size ▸ Network.cell_lt hcell (by simp)
  refine ⟨hreturns, ?_, (ha.mono (by simp [ids]) (List.Subset.refl _)).set (by simp [ids]) _⟩
  exact (hdone.set hd _).queued hcell (Network.cell_set_self hid _) hq

/-- An operation on every member that hands the same pieces on. -/
theorem does_fanOut {action : String} {op : Destination Network → Network → Outcome × Network}
    {f : FanOut ℕ} (hcell : w.cell id = .fanOut f) (hopen : f.closed = false)
    (hm : f.members = ts.map Tree.id) (hd : (fanOut id ts).Distinct)
    (hts : ∀ t ∈ ts, t.Open w) (near : SinkId → Destination Network)
    (hop : ∀ t ∈ ts, ∀ {w}, t.Open w → t.Does (fun _ => Conveys ks ks') w (op (near t.id) w)) :
    (fanOut id ts).Does (fun _ => Conveys ks ks') w
      (FanOut.visit near action op 0 f.members w) := by
  obtain ⟨hdts, hapart⟩ := hd.fanOut
  obtain ⟨o, w', he, hreturns, hdone, ha⟩ :=
    visit_does near action op open_local (@conveys_local ks ks') 0 hapart hts hop
  have hcell' : w'.cell id = .fanOut f :=
    (hd.fanOut_cell (fun _ => List.Subset.refl _) ha).trans hcell
  rw [hm, he]
  refine ⟨hreturns, .fanOut (fun t ht => ?_) hapart hcell' hopen hm, ha.mono (by simp [ids])
    (List.Subset.refl _)⟩
  obtain ⟨-, hconveys, -⟩ := hdone t ht
  exact hconveys

/-! ## Writing -/

/-- A write to the tree hands the payload on, whatever stands around it. -/
def Offers (t : Tree) : Prop :=
  ∀ {n : ℕ} {w : Network} (p : ByteArray), t.id < n → t.Ordered → t.Distinct → t.Open w →
    t.Does (fun _ => Conveys [p] []) w ((Network.destination n t.id).write p w)

theorem offers_leaf (id : ℕ) (l : Leaf) : (leaf id l).Offers := by
  intro n w p hn _ _ h
  obtain ⟨n, rfl⟩ := Nat.exists_eq_add_one_of_ne_zero (Nat.ne_zero_of_lt hn)
  rw [Open] at h
  obtain ⟨s, hcell, hs, hcalls⟩ := h
  have hdoes := leaf_does l hcell hs hcalls (c := .write p) (by simp)
  have hwrite : (Network.destination (n + 1) id).write p w =
      ((s.answer (.write p)).1, w.set id (.scripted (s.answer (.write p)).2)) := by
    simp [Network.destination, Network.writeCell, hcell]
  rw [id_leaf, hwrite]
  exact hdoes

theorem offers_buffered (ih : t.Offers) (id : ℕ) : (buffered id t).Offers := by
  intro n w p hn ho hd h
  obtain ⟨n, rfl⟩ := Nat.exists_eq_add_one_of_ne_zero (Nat.ne_zero_of_lt hn)
  rw [Open] at h
  obtain ⟨buf, hcell, hopen, ht⟩ := h
  simp only [Ordered] at ho
  have hnt : t.id < n := Nat.lt_of_lt_of_le ho.1 (Nat.le_of_lt_succ hn)
  have hdt := hd.buffered
  have hjoin : Carries [buf.pending ++ p] [buf.pending, p] := Carries.joined _ _
  rcases buf.write_cases hopen (Network.destination n t.id) p w with ⟨armed, -, he⟩ | ⟨-, he⟩
  · -- the payload is gathered
    have hwrite : (Network.destination (n + 1) id).write p w =
        (.ok (), w.set id (.buffered { buf with pending := buf.pending ++ p, armed } t.id)) := by
      simp [Network.destination, Network.writeCell, hcell, he]
    rw [id_buffered, hwrite]
    exact does_buffered hcell hdt.1 hopen ⟨Outcome.returns_ok, .still ht hjoin, .refl _ _ w⟩
  · -- everything gathered is passed on together
    obtain ⟨hreturns, hdone, ha⟩ := ih (buf.pending ++ p) hnt ho.2 hdt.2 ht
    obtain ⟨o, w₁, hw⟩ : ∃ o w₁,
        (Network.destination n t.id).write (buf.pending ++ p) w = (o, w₁) := ⟨_, _, rfl⟩
    rw [hw] at hreturns hdone ha
    have hwrite : (Network.destination (n + 1) id).write p w =
        (o, w₁.set id (.buffered { buf with pending := .empty, armed := false } t.id)) := by
      simp [Network.destination, Network.writeCell, hcell, he o w₁ hw]
    rw [id_buffered, hwrite]
    exact does_buffered hcell hdt.1 hopen ⟨hreturns, hdone.mono hjoin (.nil _), ha⟩

theorem offers_queued (ih : t.Offers) (id : ℕ) : (queued id t).Offers := by
  intro n w p hn ho hd h
  obtain ⟨n, rfl⟩ := Nat.exists_eq_add_one_of_ne_zero (Nat.ne_zero_of_lt hn)
  rw [Open] at h
  obtain ⟨q, hcell, hq, ht⟩ := h
  simp only [Ordered] at ho
  have hnt : t.id < n := Nat.lt_of_lt_of_le ho.1 (Nat.le_of_lt_succ hn)
  have hdt := hd.queued
  have haccepting : q.machine.isClosed = false := by simp [Machine.isClosed, hq.accepting]
  rcases q.machine.submit_cases p with ⟨hc, -⟩ | ⟨-, -, hs⟩ | ⟨-, -, hs⟩
  · rw [haccepting] at hc
    cases hc
  · -- a full queue writes the payload at once
    obtain ⟨hreturns, hdone, ha⟩ := ih p hnt ho.2 hdt.2 ht
    obtain ⟨o, w₁, hw⟩ : ∃ o w₁, (Network.destination n t.id).write p w = (o, w₁) := ⟨_, _, rfl⟩
    rw [hw] at hreturns hdone ha
    have hwrite : (Network.destination (n + 1) id).write p w = (o, w₁.set id (.queued { q with
        machine := q.machine.count .rejected, fallbacks := q.fallbacks + 1 } t.id)) := by
      simp [Network.destination, Network.writeCell, hcell, Queue.write, hq.isOpen, hs, hw]
    rw [id_queued, hwrite]
    refine does_queued hcell hdt.1 ⟨hq.isOpen, hq.running, hq.accepting, hq.joined, hq.policy⟩
      ⟨hreturns, ?_, ha⟩
    refine (hdone.frame q.machine.waiting).mono (.comm _ _) ?_
    exact .perm (List.append_nil _ ▸ .refl _)
  · -- a queue with room puts it behind the others
    have hwrite : (Network.destination (n + 1) id).write p w = (.ok (), w.set id (.queued { q with
        machine := { q.machine with queue := q.machine.queue ++ [p] }.count .submitted } t.id)) := by
      simp [Network.destination, Network.writeCell, hcell, Queue.write, hq.isOpen, hs]
    rw [id_queued, hwrite]
    refine does_queued hcell hdt.1 ⟨hq.isOpen, hq.running, hq.accepting, hq.joined, hq.policy⟩
      ⟨Outcome.returns_ok, .still ht ?_, .refl _ _ w⟩
    show Carries ((q.machine.inHand.toList ++ (q.machine.queue ++ [p])) ++ [])
      ((q.machine.inHand.toList ++ q.machine.queue) ++ [p])
    rw [List.append_nil, List.append_assoc]
    exact .refl _

theorem offers_fanOut (ih : ∀ t ∈ ts, t.Offers) (id : ℕ) : (fanOut id ts).Offers := by
  intro n w p hn ho hd h
  obtain ⟨n, rfl⟩ := Nat.exists_eq_add_one_of_ne_zero (Nat.ne_zero_of_lt hn)
  rw [Open] at h
  obtain ⟨f, hcell, hopen, hm, hts⟩ := h
  simp only [Ordered] at ho
  have hwrite : (Network.destination (n + 1) id).write p w = FanOut.visit (Network.destination n)
      "write" (fun d s => d.write p s) 0 f.members w := by
    simp [Network.destination, Network.writeCell, hcell, FanOut.write, hopen]
  rw [id_fanOut, hwrite]
  refine does_fanOut hcell hopen hm hd hts _ fun t ht w h => ?_
  exact ih t ht p (Nat.lt_of_lt_of_le (ho t ht).1 (Nat.le_of_lt_succ hn)) (ho t ht).2
    (hd.fanOut.1 t ht).2 h

/-- **A write hands the payload on**, whatever the sinks at the ends answer. -/
theorem write_does (t : Tree) : t.Offers :=
  induction (P := Offers) offers_leaf (fun id _ ih => offers_buffered ih id)
    (fun id _ ih => offers_queued ih id) (fun id _ ih => offers_fanOut ih id) t

/-! ## Flushing -/

/-- **A buffer passes on what it gathered**, whatever comes of it. -/
theorem pass_does (hn : t.id < n) (ho : t.Ordered) (hd : t.Distinct) (buf : Buffer)
    (h : t.Open w) :
    ∃ o w', buf.pass (Network.destination n t.id) w =
        (o, { buf with pending := .empty, armed := false }, w') ∧
      t.Does (fun _ => Conveys [buf.pending] [.empty]) w (o, w') := by
  rcases Buffer.pass_cases (Network.destination n t.id) buf w with ⟨he, hpass⟩ | ⟨-, hpass⟩
  · -- nothing was gathered
    refine ⟨.ok (), w, by rw [hpass, ← he], Outcome.returns_ok, ?_, .refl _ _ w⟩
    rw [he]
    exact .still h (.refl _)
  · obtain ⟨hreturns, hdone, ha⟩ := write_does t buf.pending hn ho hd h
    exact ⟨_, _, hpass _ _ rfl, hreturns, hdone.mono (.refl _) (.nil _), ha⟩

/-- A flush of the tree hands on what it finds. -/
def Urges (t : Tree) : Prop :=
  ∀ {n : ℕ} {w : Network}, t.id < n → t.Ordered → t.Distinct → t.Open w →
    t.Does (fun _ => Conveys [] []) w ((Network.destination n t.id).flush w)

theorem urges_leaf (id : ℕ) (l : Leaf) : (leaf id l).Urges := by
  intro n w hn _ _ h
  obtain ⟨n, rfl⟩ := Nat.exists_eq_add_one_of_ne_zero (Nat.ne_zero_of_lt hn)
  rw [Open] at h
  obtain ⟨s, hcell, hs, hcalls⟩ := h
  have hdoes := leaf_does l hcell hs hcalls (c := .flush) (by simp)
  have hflush : (Network.destination (n + 1) id).flush w =
      ((s.answer .flush).1, w.set id (.scripted (s.answer .flush).2)) := by
    simp [Network.destination, Network.flushCell, hcell]
  rw [id_leaf, hflush]
  exact hdoes

/-- A buffer that could not pass on what it gathered leaves the sink behind alone. -/
theorem urges_buffered (ih : t.Urges) (id : ℕ) : (buffered id t).Urges := by
  intro n w hn ho hd h
  obtain ⟨n, rfl⟩ := Nat.exists_eq_add_one_of_ne_zero (Nat.ne_zero_of_lt hn)
  rw [Open] at h
  obtain ⟨buf, hcell, hopen, ht⟩ := h
  simp only [Ordered] at ho
  have hnt : t.id < n := Nat.lt_of_lt_of_le ho.1 (Nat.le_of_lt_succ hn)
  have hdt := hd.buffered
  obtain ⟨o, w₁, hpass, hreturns, hdone, ha⟩ := pass_does hnt ho.2 hdt.2 buf ht
  set buf' : Buffer := { buf with pending := .empty, armed := false } with hbuf
  rw [id_buffered]
  rcases o with e | u
  · have hflush : (Network.destination (n + 1) id).flush w =
        (.error e, w₁.set id (.buffered buf' t.id)) := by
      simp [Network.destination, Network.flushCell, hcell, Buffer.flush, hopen, hpass]
    rw [hflush]
    exact does_buffered hcell hdt.1 hopen ⟨hreturns, hdone, ha⟩
  · obtain ⟨hreturns', hdone', ha'⟩ := ih hnt ho.2 hdt.2 hdone.isOpen
    obtain ⟨o', w₂, hw⟩ : ∃ o' w₂, (Network.destination n t.id).flush w₁ = (o', w₂) := ⟨_, _, rfl⟩
    rw [hw] at hreturns' hdone' ha'
    have hflush : (Network.destination (n + 1) id).flush w =
        (o', w₂.set id (.buffered buf' t.id)) := by
      simp [Network.destination, Network.flushCell, hcell, Buffer.flush, hopen, hpass, hw]
    rw [hflush]
    exact does_buffered hcell hdt.1 hopen
      ⟨hreturns', hdone.trans (hdone'.frame [.empty]), ha.trans ha'⟩

/-- A queue passes a flush on and keeps what waits. -/
theorem urges_queued (ih : t.Urges) (id : ℕ) : (queued id t).Urges := by
  intro n w hn ho hd h
  obtain ⟨n, rfl⟩ := Nat.exists_eq_add_one_of_ne_zero (Nat.ne_zero_of_lt hn)
  rw [Open] at h
  obtain ⟨q, hcell, hq, ht⟩ := h
  simp only [Ordered] at ho
  have hnt : t.id < n := Nat.lt_of_lt_of_le ho.1 (Nat.le_of_lt_succ hn)
  have hdt := hd.queued
  obtain ⟨hreturns, hdone, ha⟩ := ih hnt ho.2 hdt.2 ht
  have hflush : (Network.destination (n + 1) id).flush w =
      (Network.destination n t.id).flush w := by
    simp [Network.destination, Network.flushCell, hcell]
  rw [id_queued, hflush]
  have hcell' := (ha.cells id hdt.1).trans hcell
  have hkept := hdone.frame q.machine.waiting
  rw [List.nil_append, ← List.append_nil q.machine.waiting] at hkept
  exact ⟨hreturns, hkept.queued hcell hcell' hq, ha.mono (by simp [ids]) (List.Subset.refl _)⟩

theorem urges_fanOut (ih : ∀ t ∈ ts, t.Urges) (id : ℕ) : (fanOut id ts).Urges := by
  intro n w hn ho hd h
  obtain ⟨n, rfl⟩ := Nat.exists_eq_add_one_of_ne_zero (Nat.ne_zero_of_lt hn)
  rw [Open] at h
  obtain ⟨f, hcell, hopen, hm, hts⟩ := h
  simp only [Ordered] at ho
  have hflush : (Network.destination (n + 1) id).flush w = FanOut.visit (Network.destination n)
      "flush" (fun d s => d.flush s) 0 f.members w := by
    simp [Network.destination, Network.flushCell, hcell, FanOut.flush]
  rw [id_fanOut, hflush]
  refine does_fanOut hcell hopen hm hd hts _ fun t ht w h => ?_
  exact ih t ht (Nat.lt_of_lt_of_le (ho t ht).1 (Nat.le_of_lt_succ hn)) (ho t ht).2
    (hd.fanOut.1 t ht).2 h

/-- **A flush hands on what it finds**, whatever the sinks at the ends answer. -/
theorem flush_does (t : Tree) : t.Urges :=
  induction (P := Urges) urges_leaf (fun id _ ih => urges_buffered ih id)
    (fun id _ ih => urges_queued ih id) (fun id _ ih => urges_fanOut ih id) t

end Tree

end Logging
