import Mathlib.Logic.Function.Iterate
import Logging.Proofs.Network.Shape
import Logging.Proofs.Network.Shutdown

/-!
# Giving up trees whose ends fail

* `Tree.rest_shut`: the background of a closed tree is at rest.
* `Network.releaseWithin_spent`: sinks that were closed are given up without a further call.
* `Tree.abandon_ends`: a buffer or a queue that is given up without a close closes what is behind it.
* `Tree.closed_once`: **however often the foremost sink is closed before it is given up, every sink
  at the ends is closed once, after its data.** Without any close, giving up closes a tree behind a
  buffer or a queue, but not one behind a fan-out.
-/

namespace Logging

open Sink Worker

variable {w w' : Network} {id x k n : ℕ} {ks : List ByteArray} {o : Outcome}
  {program : List ℕ}

namespace Tree

variable {t u : Tree} {ts : List Tree}

/-! ## Closed trees -/

theorem Within.shut (h : Within u t) : t.Shut w → u.Shut w := by
  induction h with
  | here => exact fun h => h
  | buffered _ ih =>
    intro h
    rw [Shut] at h
    obtain ⟨-, -, -, ht⟩ := h
    exact ih ht
  | queued _ ih =>
    intro h
    rw [Shut] at h
    obtain ⟨-, -, -, ht⟩ := h
    exact ih ht
  | fanOut hmem _ ih =>
    intro h
    rw [Shut] at h
    obtain ⟨-, -, -, -, hts⟩ := h
    exact ih (hts _ hmem)

/-- **The background of a closed tree is at rest**: no worker takes a step, and no waiting time
ends. -/
theorem rest_shut (hp : t.Placed w) (h : t.Shut w) (hends : ∀ x ∈ t.ends, ∃ s, w.cell x = .scripted s)
    (id : ℕ) : w.deliver? id = none ∧ w.expire id = w := by
  by_cases hid : id ∈ t.ids
  swap
  · -- elsewhere there are neither queues nor buffers
    exact ⟨Network.deliver?_other (hp.noQueue id hid), Network.expire_other (hp.noBuffer id hid)⟩
  obtain ⟨u, hu, rfl⟩ := exists_within hid
  have hshut := hu.shut h
  cases u with
  | leaf id l =>
    obtain ⟨s, hcell⟩ := hends id (hu.ends_subset (by simp))
    simp [Network.deliver?, Network.expire, hcell]
  | buffered id v =>
    rw [Shut] at hshut
    obtain ⟨buf, hcell, hclosed, -⟩ := hshut
    have hexp : w.expire id = w.set id (.buffered buf v.id) := by
      simp [Network.expire, hcell, Network.inBackground, Buffer.expire, hclosed]
    exact ⟨by simp [Network.deliver?, hcell], hexp.trans (Network.set_same hcell)⟩
  | queued id v =>
    rw [Shut] at hshut
    obtain ⟨q, hcell, ⟨-, hend⟩, -⟩ := hshut
    have hstep : ∀ work : Work ByteArray Network, q.machine.step work w = none := fun _ => by
      simp [Machine.step, hend]
    exact ⟨by simp [Network.deliver?, hcell, hp.paused, hstep], by simp [Network.expire, hcell]⟩
  | fanOut id vs =>
    rw [Shut] at hshut
    obtain ⟨f, hcell, -⟩ := hshut
    simp [Network.deliver?, Network.expire, hcell]

end Tree

/-! ## Giving up -/

namespace Sink

variable {σ : Type} [Terminal σ]

/-- A buffer that is given up is closed, and a line may be reported. -/
theorem Buffer.abandon_state (inner : Destination σ) (buf : Buffer) (s : σ) :
    (buf.abandon inner s).2.2 = (buf.close inner s).2.2 ∨
      ∃ line, (buf.abandon inner s).2.2 = report line (buf.close inner s).2.2 := by
  unfold Buffer.abandon
  split
  · rename_i f buf' s' hclose
    rw [hclose]
    exact .inr ⟨_, rfl⟩
  · exact .inl rfl

/-- A queue that is given up is closed, and a line may be reported. -/
theorem Queue.abandon_state (inner : Destination σ) (work : Work ByteArray σ) (q : Queue) (s : σ) :
    (q.abandon inner work s).2.2 = (q.close inner work s).2.2 ∨
      ∃ line, (q.abandon inner work s).2.2 = report line (q.close inner work s).2.2 := by
  unfold Queue.abandon
  split
  · rename_i f q' s' hclose
    rw [hclose]
    exact .inr ⟨_, rfl⟩
  · exact .inl rfl

end Sink

/-- A sink that does nothing when it is given up. -/
def Cell.Spent : Cell → Prop
  | buffered buf _ => buf.closed = true
  | queued q _ => q.closed = true
  | fanOut _ => True
  | gone => True
  | _ => False

namespace Network

theorem abandon_spent (h : (w.cell id).Spent) : w.abandon id = (.ok (), w) := by
  unfold abandon
  split
  · rename_i buf inner hcell
    rw [hcell] at h
    have hclosed : buf.closed = true := h
    simp [Buffer.abandon, Buffer.close, hclosed]
  · rename_i q inner hcell
    rw [hcell] at h
    have hclosed : q.closed = true := h
    simp [Queue.abandon, Queue.close, hclosed]
  · rename_i f hcell
    rw [hcell] at h
    exact h.elim
  · rename_i r hcell
    rw [hcell] at h
    exact h.elim
  · rfl

theorem cell_set_gone (id : ℕ) (w : Network) : (w.set id .gone).cell id = .gone := by
  by_cases hlt : id < w.cells.size
  · exact cell_set_self hlt _
  · simp [cell, set, hlt]

/-- Some sinks which hold only each other, and do nothing when they are given up. The program may
hold some of them. -/
def Spent (program s : List ℕ) (w : Network) : Prop :=
  ∀ x ∈ s, x ∉ program → (w.cell x).Spent ∧ (w.cell x).references ⊆ s

theorem Spent.gone {s : List ℕ} (h : Spent program s w) (id : ℕ) :
    Spent program s (w.set id .gone) := by
  intro x hx hxp
  by_cases hxi : x = id
  · subst hxi
    rw [cell_set_gone]
    exact ⟨trivial, List.nil_subset _⟩
  · rw [(alters_set id .gone [] w).cells x (by simpa using hxi)]
    exact h x hx hxp

/-- **Sinks that were closed are given up without a further call**, and what the program holds stays
as it is. -/
theorem releaseWithin_spent {s : List ℕ} : ∀ (n : ℕ) {ids : List ℕ} {w : Network}, ids ⊆ s →
    Spent program s w → ∀ x ∈ program, (releaseWithin program n ids w).2.cell x = w.cell x := by
  intro n
  induction n with
  | zero =>
    intro ids w _ _ x _
    rfl
  | succ n ih =>
    intro ids w hids h x hx
    cases ids with
    | nil => rfl
    | cons id rest =>
      obtain ⟨hid, hrest⟩ := List.cons_subset.1 hids
      rw [releaseWithin]
      split
      · exact ih hrest h x hx
      · rename_i hfree
        have hidp : id ∉ program := fun hm => hfree (.inl hm)
        obtain ⟨hspent, hinner⟩ := h id hid hidp
        rw [abandon_spent hspent]
        have hkept := ih (List.append_subset.2 ⟨hinner, hrest⟩) (h.gone id) x hx
        have hne : x ≠ id := fun he => hidp (he ▸ hx)
        exact hkept.trans ((alters_set id .gone [] w).cells x (by simpa using hne))

end Network

namespace Tree

variable {t u : Tree} {ts : List Tree}

/-- A closed tree, apart from the sinks at the ends. -/
theorem Shut.spent (h : t.Shut w) (hends : t.ends ⊆ program) : Network.Spent program t.ids w := by
  intro x hx hxp
  obtain ⟨u, hu, rfl⟩ := exists_within hx
  have hshut := hu.shut h
  cases u with
  | leaf id l => exact absurd (hends (hu.ends_subset (by simp))) hxp
  | buffered id v =>
    rw [Shut] at hshut
    obtain ⟨buf, hcell, hclosed, -⟩ := hshut
    have hinner : v.id ∈ t.ids := hu.ids_subset (by simp [ids, v.mem_ids_self])
    rw [id_buffered, hcell]
    exact ⟨hclosed, by simpa [Cell.references] using hinner⟩
  | queued id v =>
    rw [Shut] at hshut
    obtain ⟨q, hcell, ⟨hclosed, -⟩, -⟩ := hshut
    have hinner : v.id ∈ t.ids := hu.ids_subset (by simp [ids, v.mem_ids_self])
    rw [id_queued, hcell]
    exact ⟨hclosed, by simpa [Cell.references] using hinner⟩
  | fanOut id vs =>
    rw [Shut] at hshut
    obtain ⟨f, hcell, -, hm, -⟩ := hshut
    rw [id_fanOut, hcell]
    refine ⟨trivial, fun y hy => hu.ids_subset ?_⟩
    rw [Cell.references, hm] at hy
    obtain ⟨v, hv, rfl⟩ := List.mem_map.1 hy
    simpa [ids] using .inr ⟨v, hv, v.mem_ids_self⟩

/-- In an open tree the sinks hold those that stand behind them. -/
theorem Open.shaped : ∀ {t : Tree}, t.Open w → t.Shaped w := by
  refine @induction _ ?_ ?_ ?_ ?_
  · intro id l h
    rw [Open] at h
    obtain ⟨s, hcell, -⟩ := h
    simp [Shaped, hcell, Cell.references]
  · intro id t ih h
    rw [Open] at h
    obtain ⟨buf, hcell, -, ht⟩ := h
    rw [Shaped, hcell]
    exact ⟨rfl, ih ht⟩
  · intro id t ih h
    rw [Open] at h
    obtain ⟨q, hcell, -, ht⟩ := h
    rw [Shaped, hcell]
    exact ⟨rfl, ih ht⟩
  · intro id ts ih h
    rw [Open] at h
    obtain ⟨f, hcell, -, hm, hts⟩ := h
    rw [Shaped, hcell]
    exact ⟨hm, fun t ht => ih t ht (hts t ht)⟩

/-- What is reported afterwards reaches no sink. -/
theorem Ends.reported (h : t.Ends ks o w w') {v : Network}
    (hv : v = w' ∨ ∃ line, v = report line w') : t.Ends ks o w v := by
  rcases hv with rfl | ⟨line, rfl⟩
  · exact h
  · exact ends_local (.refl t w) (.nothing (Network.alters_report line w')) h

theorem alters_reported {s : List ℕ} (h : Alters s [] w w') {v : Network}
    (hv : v = w' ∨ ∃ line, v = report line w') : Alters s [] w v := by
  rcases hv with rfl | ⟨line, rfl⟩
  · exact h
  · exact alters_after h (Network.alters_report line w')

/-- **A buffer that is given up without a close** closes what is behind it. -/
theorem abandonBuffer_ends {buf : Buffer} (hcell : w.cell id = .buffered buf u.id)
    (hopen : buf.closed = false) (hn : u.id < w.cells.size) (ho : u.Ordered) (hd : u.Distinct)
    (h : u.Open w) : ∃ o, u.Ends [buf.pending] o w (w.abandon id).2 ∧
      Alters u.ids [] w (w.abandon id).2 := by
  obtain ⟨o, buf', w', hclose, -, -, hends, ha⟩ := closeBuffer_does (close_does u) hn ho hd h hopen
  have hstate := buf.abandon_state (Network.destination w.cells.size u.id) w
  rw [hclose] at hstate
  have habandon : (w.abandon id).2 = (buf.abandon (w.near u.id) w).2.2 := by
    simp [Network.abandon, hcell]
  rw [habandon]
  exact ⟨o, hends.reported hstate, alters_reported ha hstate⟩

/-- **A queue that is given up without a close** closes what is behind it. -/
theorem abandonQueue_ends {q : Queue} (hcell : w.cell id = .queued q u.id) (hq : q.Serving)
    (hn : u.id < w.cells.size) (ho : u.Ordered) (hd : u.Distinct) (h : u.Open w) :
    ∃ o, u.Ends q.machine.waiting o w (w.abandon id).2 ∧ Alters u.ids [] w (w.abandon id).2 := by
  obtain ⟨o, q', w', hclose, -, -, -, hends, ha⟩ := closeQueue_does (close_does u) hn ho hd h hq
  have hstate := q.abandon_state (Network.destination w.cells.size u.id)
    (Network.work (Network.destination w.cells.size u.id)) w
  rw [hclose] at hstate
  have habandon : (w.abandon id).2 =
      (q.abandon (w.near u.id) (Network.work (w.near u.id)) w).2.2 := by
    simp [Network.abandon, hcell]
  rw [habandon]
  exact ⟨o, hends.reported hstate, alters_reported ha hstate⟩

/-- A buffer or a queue that is given up without a close. -/
theorem abandon_ends (hp : t.Placed w) (h : t.Open w) (hdec : t.Decorates)
    (hnf : ∀ id ts, t ≠ fanOut id ts) :
    ∃ (u : Tree) (o : Outcome), (w.cell t.id).references = [u.id] ∧ t.id ∉ u.ids ∧ u.ends = t.ends ∧
      (∀ x ∈ t.ends, t.held x w = u.held x w ++ w.pieces t.id) ∧
      u.Ends (w.pieces t.id) o w (w.abandon t.id).2 := by
  have ho := hp.ordered
  have hknown := hp.known
  cases t with
  | leaf id l => exact absurd rfl (hdec id l)
  | fanOut id ts => exact absurd rfl (hnf id ts)
  | buffered id u =>
    rw [Open] at h
    obtain ⟨buf, hcell, hopen, hu⟩ := h
    simp only [Ordered, id_buffered] at ho hknown
    have hdu := hp.distinct.buffered
    obtain ⟨o, hends, -⟩ := abandonBuffer_ends hcell hopen (by omega) ho.2 hdu.2 hu
    refine ⟨u, o, by simp [hcell, Cell.references], hdu.1, by simp, fun x hx => ?_, ?_⟩
    · rw [ends_buffered] at hx
      simp [held, hx]
    · simpa [Network.pieces, hcell] using hends
  | queued id u =>
    rw [Open] at h
    obtain ⟨q, hcell, hq, hu⟩ := h
    simp only [Ordered, id_queued] at ho hknown
    have hdu := hp.distinct.queued
    obtain ⟨o, hends, -⟩ := abandonQueue_ends hcell hq (by omega) ho.2 hdu.2 hu
    refine ⟨u, o, by simp [hcell, Cell.references], hdu.1, by simp, fun x hx => ?_, ?_⟩
    · rw [ends_queued] at hx
      simp [held, hx]
    · simpa [Network.pieces, hcell] using hends

end Tree

/-! ## Whole runs -/

namespace Network

/-- The foremost sink is closed so many times. -/
def closes (root k : ℕ) (w : Network) : Network := (fun v => (v.close root).2)^[k] w

/-- Several acts, so many closes, and then nobody holds the foremost sink any more. The program
still holds some others. -/
def lifetime (root : ℕ) (program : List ℕ) (as : List Act) (k : ℕ) (w : Network) : Network :=
  (((w.acts root as).closes root k).release program [root]).2

theorem scripted_of_calls (h : w.calls x ≠ []) : ∃ s, w.cell x = .scripted s := by
  unfold calls at h
  split at h
  · exact ⟨_, by assumption⟩
  · exact absurd rfl h

end Network

namespace Tree

variable {t : Tree}

/-- The sinks at the ends were not closed. -/
theorem Open.unclosed : ∀ {t : Tree}, t.Open w → x ∈ t.ends → ∀ c ∈ w.calls x, c.1 ≠ .close := by
  refine @induction _ ?_ ?_ ?_ ?_
  · intro id l h hx
    rw [Open] at h
    obtain ⟨s, hcell, -, hcalls⟩ := h
    obtain rfl : x = id := by simpa using hx
    simpa [Network.calls, hcell] using hcalls
  · intro id t ih h hx
    rw [Open] at h
    obtain ⟨-, -, -, ht⟩ := h
    exact ih ht (by simpa using hx)
  · intro id t ih h hx
    rw [Open] at h
    obtain ⟨-, -, -, ht⟩ := h
    exact ih ht (by simpa using hx)
  · intro id ts ih h hx
    rw [Open] at h
    obtain ⟨-, -, -, -, hts⟩ := h
    rw [ends_fanOut, List.mem_flatMap] at hx
    obtain ⟨t, ht, hx⟩ := hx
    exact ih t ht (hts t ht) hx

/-- All closes after the first leave what it left. -/
theorem closes_ends (hp : t.Placed w) (h : t.Open w) (hdec : t.Decorates) (hk : 0 < k) :
    t.Ends [] (w.close t.id).1 w (w.close t.id).2 ∧ w.closes t.id k = (w.close t.id).2 ∧
      Alters t.ids [] w (w.close t.id).2 := by
  obtain ⟨k, rfl⟩ := Nat.exists_eq_add_one_of_ne_zero (Nat.ne_of_gt hk)
  obtain ⟨-, hdone, ha⟩ := close_does t hp.known hp.ordered hp.distinct h
  have hknown : t.id < (w.close t.id).2.cells.size := by
    rw [show (w.close t.id).2.cells.size = w.cells.size from ha.size]
    exact hp.known
  have hagain : (w.close t.id).2.close t.id = (.ok (), (w.close t.id).2) :=
    close_again hdec hknown hdone.shut
  have hsame : w.closes t.id (k + 1) = (w.close t.id).2 :=
    Function.iterate_fixed (congrArg Prod.snd hagain) k
  exact ⟨hdone, hsame, ha⟩

/-- The sinks at the ends of a closed tree stay as they are. -/
theorem Shut.release (h : t.Shut w) (hends : t.ends ⊆ program) (n : ℕ) {ids : List ℕ}
    (hids : ids ⊆ t.ids) (hx : x ∈ t.ends) :
    (Network.releaseWithin program n ids w).2.calls x = w.calls x := by
  have hcell := Network.releaseWithin_spent n hids (h.spent hends) x (hends hx)
  unfold Network.calls
  rw [hcell]

/-- **A tree that is given up without a close** is closed behind its foremost sink. -/
theorem release_ends (hp : t.Placed w) (h : t.Open w) (hdec : t.Decorates)
    (hnf : ∀ id ts, t ≠ fanOut id ts) (hfree : ∀ x ∉ t.ids, t.id ∉ (w.cell x).references)
    (hends : t.ends ⊆ program) (hroot : t.id ∉ program) (hx : x ∈ t.ends) :
    ∃ news res, (w.release program [t.id]).2.calls x = w.calls x ++ news ++ [(.close, res)] ∧
      (∀ c ∈ news, c.1 ≠ .close) ∧ Carries (offered news) (t.held x w) := by
  obtain ⟨u, o, hinner, hdu, hue, hheld, hu⟩ := abandon_ends hp h hdec hnf
  have hunheld := h.shaped.unheld hp.ordered hfree
  have hgone := hu.set hdu .gone
  have hrelease : (w.release program [t.id]).2 = (Network.releaseWithin program w.holdings [u.id]
      ((w.abandon t.id).2.set t.id .gone)).2 := by
    have hn : [t.id].length + w.holdings = w.holdings + 1 := Nat.add_comm _ _
    rw [Network.release, hn, Network.releaseWithin, if_neg (by simp [hroot, hunheld]), hinner]
    rfl
  have hxu : x ∈ u.ends := hue ▸ hx
  have hkept := hgone.shut.release (hue ▸ hends) w.holdings
    (List.cons_subset.2 ⟨u.mem_ids_self, List.nil_subset _⟩) hxu
  obtain ⟨news, res, hcalls, hnews, hcarries, -⟩ := hgone.calls x hxu
  refine ⟨news, res, ?_, hnews, ?_⟩
  · rw [hrelease, hkept, hcalls]
  · rw [hheld x hx]
    exact hcarries

/-- What was offered before the close and with it is everything that was ever written. -/
theorem Conveys.whole {ps : List ByteArray} (h : t.Conveys ps [] w w') (hx : x ∈ t.ends)
    {news : List (Call × Outcome)} (hnews : Carries (offered news) (t.held x w')) :
    Carries (offered (w'.calls x ++ news)) (offered (w.calls x) ++ (t.held x w ++ ps)) := by
  obtain ⟨news₀, hcalls, -, hcarries⟩ := h.calls x hx
  rw [List.append_nil] at hcarries
  rw [hcalls, List.append_assoc, offered_append, offered_append]
  exact ((hnews.append_left _).trans hcarries).append_left _

/-- **Every sink at the ends is closed once, after its data.** The tree is written to and flushed
in any order with what happens in the background, the foremost sink is closed any number of times and
then given up, and the sinks at the ends answer what they like. Whatever waits when the first close
comes is offered to every sink at the ends before that is closed, and so is everything that was ever
written. If there is a close, the first one closes them, went well only if it did so everywhere, and
leaves the background at rest. A tree that is not closed is so when it is given up, unless a fan-out
stands foremost. -/
theorem closed_once (hp : t.Placed w) (h : t.Open w) (hdec : t.Decorates)
    (hfree : ∀ x ∉ t.ids, t.id ∉ (w.cell x).references) (hends : t.ends ⊆ program)
    (hroot : t.id ∉ program) (as : List Network.Act)
    (hk : 0 < k ∨ ∀ id ts, t ≠ fanOut id ts) :
    let w₁ := w.acts t.id as
    let w₃ := w.lifetime t.id program as k
    (∀ x ∈ t.ends, ∃ news res,
      w₃.calls x = w₁.calls x ++ news ++ [(.close, res)] ∧
      (∀ c ∈ w₁.calls x ++ news, c.1 ≠ .close) ∧
      Carries (offered news) (t.held x w₁) ∧
      Carries (offered (w₁.calls x ++ news))
        (offered (w.calls x) ++ (t.held x w ++ as.flatMap Network.Act.payloads)) ∧
      (0 < k → (w₁.close t.id).2.calls x = w₃.calls x ∧
        ((w₁.close t.id).1 = .ok () → res = .ok ()))) ∧
    (0 < k → ∀ id, (w₁.close t.id).2.deliver? id = none ∧
      (w₁.close t.id).2.expire id = (w₁.close t.id).2) := by
  intro w₁ w₃
  obtain ⟨hdone, ha⟩ := acts_convey as hp h
  have hp₁ : t.Placed w₁ := hp.alters (ha.mono (List.Subset.refl _) (List.nil_subset _))
  have hfree₁ : ∀ x ∉ t.ids, t.id ∉ (w₁.cell x).references := fun x hx =>
    ha.cells x hx ▸ hfree x hx
  by_cases hpos : 0 < k
  · obtain ⟨hclosed, hsame, ha₁⟩ := closes_ends hp₁ hdone.isOpen hdec hpos
    have hw₃ : ∀ x ∈ t.ends, w₃.calls x = (w₁.close t.id).2.calls x := by
      intro x hx
      show (((w₁.closes t.id k).release program [t.id]).2).calls x = _
      rw [hsame]
      exact hclosed.shut.release hends _ (List.cons_subset.2 ⟨t.mem_ids_self, List.nil_subset _⟩) hx
    refine ⟨fun x hx => ?_, fun _ id => ?_⟩
    · obtain ⟨news, res, hcalls, hnews, hcarries, hres⟩ := hclosed.calls x hx
      rw [List.append_nil] at hcarries
      exact ⟨news, res, (hw₃ x hx).trans hcalls,
        List.forall_mem_append.2 ⟨hdone.isOpen.unclosed hx, hnews⟩, hcarries,
        hdone.whole hx hcarries, fun _ => ⟨(hw₃ x hx).symm, hres⟩⟩
    · have hp₂ : t.Placed (w₁.close t.id).2 :=
        hp₁.alters (ha₁.mono (List.Subset.refl _) (List.nil_subset _))
      refine rest_shut hp₂ hclosed.shut (fun x hx => Network.scripted_of_calls ?_) id
      obtain ⟨news, res, hcalls, -⟩ := hclosed.calls x hx
      rw [hcalls]
      simp
  · obtain rfl : k = 0 := by omega
    refine ⟨fun x hx => ?_, fun h0 => absurd h0 hpos⟩
    obtain ⟨news, res, hcalls, hnews, hcarries⟩ := release_ends hp₁ hdone.isOpen hdec
      (hk.resolve_left hpos) hfree₁ hends hroot hx
    exact ⟨news, res, hcalls, List.forall_mem_append.2 ⟨hdone.isOpen.unclosed hx, hnews⟩, hcarries,
      hdone.whole hx hcarries, fun h0 => absurd h0 hpos⟩

/-- A buffer in front of a fan-out, which has a sink and another sink behind a queue. -/
def failing : Tree := .buffered 4 (.fanOut 3 [.leaf 0 .memory, .queued 2 (.leaf 1 .memory)])

/-- Its sinks, just made: the first write of the one fails, and every call of the other. What runs
at the end of the worker breaks off. -/
def failingNetwork : Network where
  cells := #[.scripted { name := "first", script := fun n =>
      if n = 0 then Outcome.fault (.other "not yet") else .ok () },
    .scripted { name := "second", script := fun _ => Outcome.fault (.other "never") },
    .queued { machine :=
      { name := Queue.workerName, capacity := 1, policy := .drop, hook := .breaks .unreadable } } 1,
    .fanOut { members := [0, 2] }, .buffered { threshold := 4 } 3]
  disk := { nodes := [], files := #[] }

theorem failing_closed_once :
    let as : List Network.Act := [.write ⟨#[1, 2]⟩, .flush, .write ⟨#[3]⟩]
    let w₁ := failingNetwork.acts 4 as
    let w₃ := failingNetwork.lifetime 4 [0, 1] as 2
    failing.Placed failingNetwork ∧ failing.Open failingNetwork ∧ failing.Decorates ∧
      (∀ x ∉ failing.ids, 4 ∉ (failingNetwork.cell x).references) ∧
      (∀ x ∈ [0, 1], ∃ news res,
        w₃.calls x = w₁.calls x ++ news ++ [(.close, res)] ∧
        (∀ c ∈ w₁.calls x ++ news, c.1 ≠ .close) ∧
        Carries (offered news) (failing.held x w₁) ∧
        Carries (offered (w₁.calls x ++ news)) (offered (failingNetwork.calls x) ++
          (failing.held x failingNetwork ++ [⟨#[1, 2]⟩, ⟨#[3]⟩])) ∧
        (w₁.close 4).2.calls x = w₃.calls x ∧ ((w₁.close 4).1 = .ok () → res = .ok ())) ∧
      ∀ id, (w₁.close 4).2.deliver? id = none ∧ (w₁.close 4).2.expire id = (w₁.close 4).2 := by
  intro as w₁ w₃
  have hids : failing.ids = [4, 3, 0, 2, 1] := by simp [failing, ids]
  have hin : ∀ id c, id ∉ failing.ids → c ≠ .gone → failingNetwork.cell id ≠ c := by
    intro id c hid hc hcell
    have hlt : id < 5 := Network.cell_lt hcell hc
    simp only [hids, List.mem_cons, List.not_mem_nil, or_false] at hid
    omega
  have hp : failing.Placed failingNetwork := by
    refine ⟨by simp [failing, Ordered], ⟨by simp [hids], by simp [failing, files, leaves]⟩,
      by simp [failing, failingNetwork], fun id hid q inner => hin id _ hid (by simp),
      fun id hid buf inner => hin id _ hid (by simp), rfl, rfl⟩
  have hopen : failing.Open failingNetwork := by
    simp only [failing, Open, List.mem_cons, List.not_mem_nil, or_false, forall_eq_or_imp,
      forall_eq]
    refine ⟨_, rfl, rfl, _, rfl, rfl, rfl, ⟨_, rfl, fun n => ?_, by simp⟩, _, rfl,
      ⟨rfl, rfl, rfl, rfl, fun p hp => by cases hp⟩, _, rfl, fun n => Outcome.returns_fault _,
      by simp⟩
    dsimp only
    split
    · exact Outcome.returns_fault _
    · exact Outcome.returns_ok
  have hdec : failing.Decorates := fun id l he => by cases he
  have hfree : ∀ x ∉ failing.ids, 4 ∉ (failingNetwork.cell x).references := by
    intro x hx hmem
    have hgone : failingNetwork.cell x = .gone := by
      by_contra hne
      exact hin x _ hx hne rfl
    simp [hgone, Cell.references] at hmem
  have hends : failing.ends = [0, 1] := by simp [failing]
  obtain ⟨hclosed, hrest⟩ := closed_once (k := 2) hp hopen hdec hfree
    (show failing.ends ⊆ [0, 1] by simp [hends]) (by simp [failing]) as (.inl (by decide))
  refine ⟨hp, hopen, hdec, hfree, fun x hx => ?_, hrest (by decide)⟩
  obtain ⟨news, res, hcalls, hnone, hheld, hwhole, hfirst⟩ := hclosed x (hends ▸ hx)
  exact ⟨news, res, hcalls, hnone, hheld, hwhole, hfirst (by decide)⟩

/-- **A fan-out that is given up without a close** closes none of its members. -/
theorem fanOut_given_up :
    let t : Tree := .fanOut 1 [.leaf 0 .memory]
    let w : Network := { cells := #[.scripted { name := "only", script := fun _ => .ok () },
      .fanOut { members := [0] }], disk := { nodes := [], files := #[] } }
    t.Placed w ∧ t.Open w ∧ t.Decorates ∧ (∀ x ∉ t.ids, 1 ∉ (w.cell x).references) ∧ 0 ∈ t.ends ∧
      (w.lifetime 1 [0] [.write ⟨#[120]⟩] 0).calls 0 = [(.write ⟨#[120]⟩, .ok ())] := by
  intro t w
  have hids : t.ids = [1, 0] := by simp [t, ids]
  have hgone : ∀ x ∉ t.ids, w.cell x = .gone := by
    intro x hx
    by_contra hne
    have hlt : x < 2 := Network.cell_lt (w := w) rfl hne
    simp only [hids, List.mem_cons, List.not_mem_nil, or_false] at hx
    omega
  -- a fan-out does nothing when it is given up
  have hspent : Network.Spent [0] [1, 0] (w.acts 1 [.write ⟨#[120]⟩]) := by
    intro x hx hxp
    obtain rfl : x = 1 := by simpa [hxp] using hx
    exact ⟨trivial, List.subset_cons_self 1 [0]⟩
  have hkept := Network.releaseWithin_spent (1 + (w.acts 1 [.write ⟨#[120]⟩]).holdings)
    (List.cons_subset_cons 1 (List.nil_subset [0])) hspent 0 List.mem_cons_self
  refine ⟨⟨by simp [t, Ordered], ⟨by simp [hids], by simp [t, files, leaves]⟩, by simp [t, w],
    fun id hid q inner => ?_, fun id hid buf inner => ?_, rfl, rfl⟩, ?_, fun id l he => ?_,
    fun x hx => ?_, by simp [t], ?_⟩
  · simp [hgone id hid]
  · simp [hgone id hid]
  · simp only [t, Open, List.mem_cons, List.not_mem_nil, or_false, forall_eq]
    exact ⟨_, rfl, rfl, rfl, _, rfl, fun n => Outcome.returns_ok, by simp⟩
  · simp [t] at he
  · simp [hgone x hx, Cell.references]
  · unfold Network.calls
    rw [show (w.lifetime 1 [0] [.write ⟨#[120]⟩] 0).cell 0 = _ from hkept]
    rfl

end Tree

end Logging
