import Logging.Proofs.Network.Offering
import Logging.Proofs.Network.Settling
import Logging.Proofs.Worker.Attempts

/-!
# The background of trees whose ends fail

* `Tree.step_conveys`: a step of a worker hands on what it takes from the queue, however often it has
  to try.
* `Tree.Within.conveys`: what happens at one place of a tree.
* `Network.acts`: writes and flushes of the foremost sink, steps of the workers and waiting times
  that end, in any order.
* `Tree.acts_convey`: **whatever was written is on its way or was offered to every sink at the
  ends**, and nothing is closed.
-/

namespace Logging

open Sink Worker

variable {w w' : Network} {id x n : ℕ} {ks ks' : List ByteArray}

namespace Network

theorem alters_emit (e : Event) (w : Network) : Alters [] [] w (w.emit e) := by
  unfold emit
  split <;> exact ⟨rfl, fun _ _ => rfl, rfl, fun _ _ => rfl, rfl, rfl, rfl⟩

/-- A callback writes nothing. -/
theorem alters_notify (inner : Destination Network) (f : Fault) (w : Network) :
    Alters [] [] w ((work inner).notify f w) := by
  obtain ⟨v, he, ha, -⟩ := inBackground_works (fun w => ((), w.emit (.callback f))) (w := w) rfl
    (alters_emit _ _)
  unfold work
  dsimp only
  rw [he]
  exact ha

/-- Only queues have workers. -/
theorem deliver?_other (h : ∀ q inner, w.cell id ≠ .queued q inner) : w.deliver? id = none := by
  unfold deliver?
  split
  · rename_i q inner hcell
    exact absurd hcell (h q inner)
  · rfl

/-- Only buffers have waiting times. -/
theorem expire_other (h : ∀ buf inner, w.cell id ≠ .buffered buf inner) : w.expire id = w := by
  unfold expire
  split
  · rename_i buf inner hcell
    exact absurd hcell (h buf inner)
  · rfl

theorem alters_report (line : String) (w : Network) : Alters [] [] w (report line w) :=
  ⟨rfl, fun _ _ => rfl, rfl, fun _ _ => rfl, rfl, rfl, rfl⟩

end Network

namespace Tree

variable {t u : Tree} {ts : List Tree}

/-- What alters nothing hands nothing on. -/
theorem Conveys.after (h : t.Conveys ks ks' w w') {v : Network} (ha : Alters [] [] w' v) :
    t.Conveys ks ks' w v :=
  h.congr (.refl t w) (.nothing ha)

theorem Conveys.before (h : t.Conveys ks ks' w w') {v : Network} (ha : Alters [] [] v w) :
    t.Conveys ks ks' v w' :=
  h.congr (Agrees.nothing ha).symm (.refl t w')

theorem alters_after {s : List ℕ} (h : Alters s [] w w') {v : Network} (ha : Alters [] [] w' v) :
    Alters s [] w v :=
  h.trans (ha.mono (List.nil_subset _) (List.Subset.refl _))

/-! ## Workers -/

/-- A worker's write to the sink behind. -/
theorem process_does (hn : t.id < n) (ho : t.Ordered) (hd : t.Distinct) (h : t.Open w)
    (p : ByteArray) :
    t.Does (fun _ => Conveys [p] []) w
      ((Network.work (Network.destination n t.id)).process p w) := by
  -- where the write comes from does not matter to the sinks
  have hsame := Network.alters_background true w
  have h' := open_local (Agrees.nothing hsame) h
  obtain ⟨hreturns, hdone, ha⟩ := write_does t p hn ho hd h'
  obtain ⟨v, hv, ha', hsame'⟩ :=
    Network.inBackground_works ((Network.destination n t.id).write p) rfl ha
  have hprocess : (Network.work (Network.destination n t.id)).process p w = (_, v) := hv
  rw [hprocess]
  exact ⟨hreturns, (hdone.before hsame).after hsame', ha'⟩

/-- However often an item is tried, it is handed on. -/
theorem attempts_convey (hn : t.id < n) (ho : t.Ordered) (hd : t.Distinct) (h : t.Open w)
    (name : String) (p : ByteArray) (retries : ℕ) (c : Counters) :
    t.Conveys [p] [] w
        (attempts (Network.work (Network.destination n t.id)) name p retries c w).2.2 ∧
      Alters t.ids [] w
        (attempts (Network.work (Network.destination n t.id)) name p retries c w).2.2 := by
  have hstep : ∀ {os : List Outcome} {v : Network},
      (os = [] ∧ v = w ∨ t.Conveys [p] [] w v ∧ Alters t.ids [] w v) →
      (os ++ [((Network.work (Network.destination n t.id)).process p v).1] = [] ∧
          ((Network.work (Network.destination n t.id)).process p v).2 = w ∨
        t.Conveys [p] [] w ((Network.work (Network.destination n t.id)).process p v).2 ∧
          Alters t.ids [] w ((Network.work (Network.destination n t.id)).process p v).2) := by
    rintro os v (⟨-, rfl⟩ | ⟨hdone, ha⟩)
    · obtain ⟨-, hdone, ha⟩ := process_does hn ho hd h p
      exact .inr ⟨hdone, ha⟩
    · -- one of the two tries is enough
      obtain ⟨-, hdone', ha'⟩ := process_does hn ho hd hdone.isOpen p
      have hboth := (hdone.frame [p]).trans hdone'
      exact .inr ⟨hboth.mono (.sub (List.Sublist.subperm (by simp))) (.refl _), ha.trans ha'⟩
  obtain ⟨os, v, hos, hdone, he⟩ := attempts_spec name
    (P := fun os v => os = [] ∧ v = w ∨ t.Conveys [p] [] w v ∧ Alters t.ids [] w v) hstep
    retries c [] (.inl ⟨rfl, rfl⟩)
  rw [he]
  refine hdone.resolve_left fun hnone => ?_
  -- an item is tried once at least
  have hpos := hos.length_pos
  rw [List.nil_append] at hnone
  simp [hnone.1] at hpos

theorem handle_conveys (hn : t.id < n) (ho : t.Ordered) (hd : t.Distinct) (h : t.Open w)
    (m : Machine ByteArray) (p : ByteArray) :
    t.Conveys [p] [] w (Machine.handle (Network.work (Network.destination n t.id)) m p w).2 ∧
      Alters t.ids [] w (Machine.handle (Network.work (Network.destination n t.id)) m p w).2 := by
  obtain ⟨hdone, ha⟩ := attempts_convey hn ho hd h m.name p m.policy.retries m.counters
  unfold Machine.handle
  split
  · rename_i c v hv
    rw [hv] at hdone ha
    exact ⟨hdone, ha⟩
  · rename_i f c v hv
    rw [hv] at hdone ha
    rcases Machine.dispose_state (Network.work (Network.destination n t.id))
      { m with counters := c } f v with hs | hs
    · rw [hs]
      exact ⟨hdone, ha⟩
    · rw [hs]
      have hnotify := Network.alters_notify (Network.destination n t.id) f v
      exact ⟨hdone.after hnotify, alters_after ha hnotify⟩

/-- **A step of a worker** hands on what it takes from the queue. Its background goes on, or ends
with nothing left. -/
theorem step_conveys (hn : t.id < n) (ho : t.Ordered) (hd : t.Distinct) (h : t.Open w)
    {m m' : Machine ByteArray} (hr : m.policy.Returns)
    (hs : m.step (Network.work (Network.destination n t.id)) w = some (m', w')) :
    t.Conveys m.waiting m'.waiting w w' ∧ Alters t.ids [] w w' ∧ m'.policy = m.policy ∧
      (m'.activity = .running ∨ (m.isClosed ∧ m'.waiting = [])) := by
  obtain ⟨hrun, ⟨p, rest, hhand, hqueue, rfl, rfl⟩ | ⟨p, hhand, he⟩ | ⟨hhand, hqueue, hc, he⟩⟩ :=
    Machine.step_cases hs
  · -- it takes the oldest item
    have hwaiting : m.waiting = p :: rest := by simp [Machine.waiting, hhand, hqueue]
    refine ⟨?_, .refl _ _ _, rfl, .inl hrun⟩
    rw [hwaiting]
    exact .still h (.refl _)
  · -- it handles the item in hand
    obtain ⟨hdone, ha⟩ := handle_conveys hn ho hd h { m with inHand := none } p
    obtain ⟨c, ch, a, hm, hactivity⟩ := Machine.handle_eq
      (Network.work (Network.destination n t.id)) { m with inHand := none } p w
    obtain rfl : m' = _ := (congrArg Prod.fst he).trans hm
    obtain rfl : w' = _ := congrArg Prod.snd he
    have hwaiting : m.waiting = [p] ++ m.queue := by simp [Machine.waiting, hhand]
    refine ⟨?_, ha, rfl, .inl ((hactivity hr).trans hrun)⟩
    rw [hwaiting]
    exact hdone.frame m.queue
  · -- it ends
    obtain ⟨a, -, hf⟩ := Machine.finish_eq (Network.work (Network.destination n t.id)) m w
    rw [hf] at he
    obtain rfl : m' = _ := congrArg Prod.fst he
    have hsame : Alters [] [] w w' := by
      obtain rfl : w' = _ := congrArg Prod.snd he
      dsimp only
      split
      · exact .refl _ _ w
      · exact Network.alters_finish _ _ w
    have hwaiting : m.waiting = [] := by simp [Machine.waiting, hhand, hqueue]
    refine ⟨(Conveys.still h (.refl _)).after hsame,
      alters_after (.refl _ _ w) hsame, rfl, .inr ⟨hc, hwaiting⟩⟩

/-! ## Places -/

/-- **What happens at one place of a tree** leaves what waits elsewhere. -/
theorem Within.conveys (h : Within u t) : t.Distinct → t.Open w → u.Conveys [] [] w w' →
    Alters u.ids [] w w' → t.Conveys [] [] w w' := by
  induction h with
  | here => exact fun _ _ hu _ => hu
  | @buffered id t hu ih =>
    intro hd h hdone ha
    rw [Open] at h
    obtain ⟨buf, hcell, hopen, ht⟩ := h
    have hcell' := (ha.cells id fun hm => hd.buffered.1 (hu.ids_subset hm)).trans hcell
    exact ((ih hd.buffered.2 ht hdone ha).frame [buf.pending]).buffered hcell hcell' hopen
  | @queued id t hu ih =>
    intro hd h hdone ha
    rw [Open] at h
    obtain ⟨q, hcell, hq, ht⟩ := h
    have hcell' := (ha.cells id fun hm => hd.queued.1 (hu.ids_subset hm)).trans hcell
    have hkept := (ih hd.queued.2 ht hdone ha).frame q.machine.waiting
    rw [List.nil_append, ← List.append_nil q.machine.waiting] at hkept
    exact hkept.queued hcell hcell' hq
  | @fanOut id ts t ht hu ih =>
    intro hd h hdone ha
    rw [Open] at h
    obtain ⟨f, hcell, hopen, hm, hts⟩ := h
    obtain ⟨hdts, hapart⟩ := hd.fanOut
    have hcell' := (ha.cells id fun hm => (hdts t ht).1 (hu.ids_subset hm)).trans hcell
    refine .fanOut (fun v hv => ?_) hapart hcell' hopen hm
    -- the other members are as they were
    by_cases hvt : v = t
    · exact hvt ▸ ih (hdts t ht).2 (hts t ht) hdone ha
    · have hvu := apart_of_ne hapart hv ht hvt
      exact (Conveys.still (hts v hv) (.refl _)).congr (.refl v w)
        (.of_alters ha (fun x hx hx' => hvu.1 x hx (hu.ids_subset hx')) fun _ _ =>
          List.not_mem_nil)

theorem Within.ends_subset (h : Within u t) : u.ends ⊆ t.ends := by
  induction h with
  | here => exact List.Subset.refl _
  | buffered _ ih => simpa using ih
  | queued _ ih => simpa using ih
  | fanOut ht _ ih =>
    intro x hx
    rw [ends_fanOut, List.mem_flatMap]
    exact ⟨_, ht, ih hx⟩

theorem Within.isOpen (h : Within u t) : t.Open w → u.Open w := by
  induction h with
  | here => exact fun h => h
  | buffered _ ih =>
    intro h
    rw [Open] at h
    obtain ⟨-, -, -, ht⟩ := h
    exact ih ht
  | queued _ ih =>
    intro h
    rw [Open] at h
    obtain ⟨-, -, -, ht⟩ := h
    exact ih ht
  | fanOut hmem _ ih =>
    intro h
    rw [Open] at h
    obtain ⟨-, -, -, -, hts⟩ := h
    exact ih (hts _ hmem)

/-- What holds of the tree `u` behind the sink `id` of an open tree. -/
structure Behind (t : Tree) (w : Network) (id : ℕ) (u : Tree) : Prop where
  known : u.id < w.cells.size
  ordered : u.Ordered
  notMem : id ∉ u.ids
  distinct : u.Distinct
  isOpen : u.Open w
  ends : u.ends ⊆ t.ends

/-- A queue of the network stands in the tree. -/
theorem Placed.queue_open (h : t.Placed w) (ht : t.Open w) {q : Queue} {inner : ℕ}
    (hcell : w.cell id = .queued q inner) :
    ∃ u, Within (.queued id u) t ∧ inner = u.id ∧ q.Serving ∧ Behind t w id u := by
  have hid : id ∈ t.ids := by
    by_contra hid
    exact h.noQueue id hid q inner hcell
  obtain ⟨v, hv, rfl⟩ := exists_within hid
  have hopen := hv.isOpen ht
  have ho := hv.ordered h.ordered
  have hd := hv.distinct h.distinct
  have hends := hv.ends_subset
  have hlt := Network.cell_lt hcell (by simp)
  cases v with
  | queued id u =>
    simp only [Ordered, Open, id_queued, ends_queued] at ho hopen hends hlt hcell
    obtain ⟨q', hcell', hq, hu⟩ := hopen
    obtain ⟨rfl, rfl⟩ : q = q' ∧ inner = u.id := by simpa [hcell] using hcell'
    exact ⟨u, hv, rfl, hq, by omega, ho.2, hd.queued.1, hd.queued.2, hu, hends⟩
  | _ => simp_all [Open]

/-- A buffer of the network stands in the tree. -/
theorem Placed.buffer_open (h : t.Placed w) (ht : t.Open w) {buf : Buffer} {inner : ℕ}
    (hcell : w.cell id = .buffered buf inner) :
    ∃ u, Within (.buffered id u) t ∧ inner = u.id ∧ buf.closed = false ∧ Behind t w id u := by
  have hid : id ∈ t.ids := by
    by_contra hid
    exact h.noBuffer id hid buf inner hcell
  obtain ⟨v, hv, rfl⟩ := exists_within hid
  have hopen := hv.isOpen ht
  have ho := hv.ordered h.ordered
  have hd := hv.distinct h.distinct
  have hends := hv.ends_subset
  have hlt := Network.cell_lt hcell (by simp)
  cases v with
  | buffered id u =>
    simp only [Ordered, Open, id_buffered, ends_buffered] at ho hopen hends hlt hcell
    obtain ⟨buf', hcell', hclosed, hu⟩ := hopen
    obtain ⟨rfl, rfl⟩ : buf = buf' ∧ inner = u.id := by simpa [hcell] using hcell'
    exact ⟨u, hv, rfl, hclosed, by omega, ho.2, hd.buffered.1, hd.buffered.2, hu, hends⟩
  | _ => simp_all [Open]

/-- A worker of the network takes a step. -/
theorem deliver_conveys (hp : t.Placed w) (h : t.Open w) (hs : w.deliver? id = some w') :
    t.Conveys [] [] w w' ∧ Alters t.ids [] w w' := by
  obtain ⟨q, inner, hcell⟩ : ∃ q inner, w.cell id = .queued q inner := by
    by_contra hno
    rw [Network.deliver?_other fun q inner hcell => hno ⟨q, inner, hcell⟩] at hs
    cases hs
  obtain ⟨v, hv, rfl, hq, hbehind⟩ := hp.queue_open h hcell
  cases hstep : q.machine.step (Network.work (Network.destination w.cells.size v.id)) w with
  | none => simp [Network.deliver?, hcell, hp.paused, Network.near, hstep] at hs
  | some r =>
    obtain ⟨m, w₁⟩ := r
    obtain ⟨hdone, ha, hpolicy, hrun⟩ := step_conveys hbehind.known hbehind.ordered
      hbehind.distinct hbehind.isOpen hq.policy hstep
    obtain ⟨hphase, hjoined⟩ := Machine.step_fixed hstep
    -- a queue that takes payloads does not end
    have hrunning : m.activity = .running := by
      refine hrun.resolve_right fun hend => ?_
      simp [Machine.isClosed, hq.accepting] at hend
    have hserving : ({ q with machine := m } : Queue).Serving :=
      ⟨hq.isOpen, hrunning, hphase.trans hq.accepting, hjoined.trans hq.joined,
        hpolicy ▸ hq.policy⟩
    rw [Network.deliver?_step hcell hp.paused hstep (ha.blocked.trans hp.blocked)] at hs
    obtain rfl := Option.some.inj hs
    have hdoes : (queued id v).Does (fun _ => Conveys [] []) w (.ok (), _) :=
      does_queued hcell hbehind.notMem hserving
        ⟨Outcome.returns_ok, by simpa using hdone, ha⟩
    exact ⟨hv.conveys hp.distinct h hdoes.done hdoes.alters,
      hdoes.alters.mono hv.ids_subset (List.Subset.refl _)⟩

/-- A buffer whose waiting time ends passes on what it gathered, or does nothing. -/
theorem expireBuffer_conveys (hn : t.id < n) (ho : t.Ordered) (hd : t.Distinct) {buf : Buffer}
    (hopen : buf.closed = false) (h : t.Open w) :
    ∃ buf' w', buf.expire (Network.destination n t.id) w = (buf', w') ∧ buf'.closed = false ∧
      t.Conveys [buf.pending] [buf'.pending] w w' ∧ Alters t.ids [] w w' := by
  unfold Buffer.expire
  split
  swap
  · exact ⟨_, _, rfl, hopen, .still h (.refl _), .refl _ _ _⟩
  obtain ⟨o, w₁, hpass, hreturns, hdone, ha⟩ := pass_does hn ho hd buf h
  rw [hpass]
  rcases o with (f | p) | u
  · -- the fault is reported
    have hreport := Network.alters_report ("[LOGGER ERROR] Periodic flush to " ++
      inQuotes ((Network.destination n t.id).name w₁) ++ " failed: " ++ f.message) w₁
    exact ⟨_, _, rfl, hopen, hdone.after hreport, alters_after ha hreport⟩
  · exact absurd rfl (hreturns p)
  · exact ⟨_, _, rfl, hopen, hdone, ha⟩

/-- The waiting time of a buffer ends. -/
theorem expire_conveys (hp : t.Placed w) (h : t.Open w) (id : ℕ) :
    t.Conveys [] [] w (w.expire id) ∧ Alters t.ids [] w (w.expire id) := by
  by_cases hbuf : ∃ buf inner, w.cell id = .buffered buf inner
  swap
  · rw [Network.expire_other fun buf inner hcell => hbuf ⟨buf, inner, hcell⟩]
    exact ⟨.still h (.refl _), .refl _ _ w⟩
  obtain ⟨buf, inner, hcell⟩ := hbuf
  obtain ⟨v, hv, rfl, hclosed, hbehind⟩ := hp.buffer_open h hcell
  have ht' := open_local (Agrees.nothing (Network.alters_background true w)) hbehind.isOpen
  obtain ⟨buf', w₁, hexp, hclosed', hdone, ha⟩ :=
    expireBuffer_conveys hbehind.known hbehind.ordered hbehind.distinct hclosed ht'
  obtain ⟨w₂, he, ha', hsame⟩ := Network.inBackground_works _ hexp ha
  have hexpire : w.expire id = w₂.set id (.buffered buf' v.id) := by
    simp [Network.expire, hcell, Network.near, he]
  have hdoes : (buffered id v).Does (fun _ => Conveys [] []) w (.ok (), _) :=
    does_buffered hcell hbehind.notMem hclosed'
      ⟨Outcome.returns_ok, (hdone.before (Network.alters_background true w)).after hsame, ha'⟩
  rw [hexpire]
  exact ⟨hv.conveys hp.distinct h hdoes.done hdoes.alters,
    hdoes.alters.mono hv.ids_subset (List.Subset.refl _)⟩

end Tree

/-! ## Runs -/

/-- What happens to a tree before it is closed. -/
inductive Network.Act where
  | write (p : ByteArray)
  | flush
  /-- The worker of a queue takes a step. -/
  | deliver (id : ℕ)
  /-- The waiting time of a buffer ends. -/
  | expire (id : ℕ)

namespace Network

/-- What an act writes to the foremost sink. -/
def Act.payloads : Act → List ByteArray
  | write p => [p]
  | _ => []

/-- One act; `root` is the foremost sink. -/
def act (root : ℕ) (w : Network) : Act → Network
  | .write p => (w.write root p).2
  | .flush => (w.flush root).2
  | .deliver id => (w.deliver? id).getD w
  | .expire id => w.expire id

/-- Several acts, one after the other. -/
def acts (root : ℕ) (as : List Act) (w : Network) : Network := as.foldl (act root) w

end Network

namespace Tree

variable {t : Tree}

/-- One act hands on what it writes and what it finds. -/
theorem act_conveys (hp : t.Placed w) (h : t.Open w) (a : Network.Act) :
    t.Conveys a.payloads [] w (w.act t.id a) ∧ Alters t.ids [] w (w.act t.id a) := by
  cases a with
  | write p =>
    have hdoes := write_does t p hp.known hp.ordered hp.distinct h
    exact ⟨hdoes.done, hdoes.alters⟩
  | flush =>
    have hdoes := flush_does t hp.known hp.ordered hp.distinct h
    exact ⟨hdoes.done, hdoes.alters⟩
  | deliver id =>
    show t.Conveys [] [] w ((w.deliver? id).getD w) ∧ Alters t.ids [] w ((w.deliver? id).getD w)
    cases hs : w.deliver? id with
    | none => exact ⟨.still h (.refl _), .refl _ _ w⟩
    | some w' => exact deliver_conveys hp h hs
  | expire id => exact expire_conveys hp h id

/-- **Whatever was written is on its way or was offered**, to every sink at the ends, and nothing is
closed. -/
theorem acts_convey (as : List Network.Act) : ∀ {w : Network}, t.Placed w → t.Open w →
    t.Conveys (as.flatMap Network.Act.payloads) [] w (w.acts t.id as) ∧
      Alters t.ids [] w (w.acts t.id as) := by
  induction as with
  | nil => exact fun {w} _ h => ⟨.still h (.refl _), .refl _ _ w⟩
  | cons a as ih =>
    intro w hp h
    obtain ⟨hdone, ha⟩ := act_conveys hp h a
    have hp' : t.Placed (w.act t.id a) := hp.alters (ha.mono (List.Subset.refl _) (List.nil_subset _))
    obtain ⟨hdone', ha'⟩ := ih hp' hdone.isOpen
    exact ⟨(hdone.frame _).trans hdone', ha.trans ha'⟩

end Tree

end Logging
