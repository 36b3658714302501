import Logging.Proofs.Disk.Files
import Logging.Sink.Buffer

/-!
# A buffer conserves what it gathers

The sink behind a buffer may refuse what it is offered, at any time. What was offered is gone from
the buffer all the same, and the refusal is told once.

* `Buffer.pass_cases`, `Buffer.write_cases`: an operation only gathers, or passes on everything
  together.
* `Destination.watched`: a sink of which is seen what it is offered and what is printed meanwhile.
* `Buffer.run`: the moves of those who use a buffer and of its timer, in any order.
* `act_conserves`: a move offers what it takes out of the buffer, in one piece, and tells of a
  refusal.
* `buffer_conserves`: **what was offered, and behind it what is gathered, are the payloads of all
  writes before the buffer was closed.**
-/

namespace Logging.Sink

variable {σ : Type}

/-! ## The cases of one operation -/

namespace Buffer

variable {inner : Destination σ} {b b' : Buffer} {s : σ}

/-- A buffer that was just made is empty, and a payload may reach its threshold. -/
theorem new_ok {settings : Settings.Buffering} (h : Buffer.new settings = .ok b) :
    0 < settings.threshold ∧ b = { threshold := settings.threshold } := by
  unfold Buffer.new at h
  split at h
  · cases h
  rename_i hfault
  split at h
  · cases h
  · cases h
    refine ⟨Nat.pos_of_ne_zero fun h₀ => ?_, rfl⟩
    simp [Settings.Buffering.fault?, h₀] at hfault

/-- Passing on what is gathered either finds nothing, or is one write. -/
theorem pass_cases (inner : Destination σ) (b : Buffer) (s : σ) :
    (b.pending = .empty ∧ b.pass inner s = (.ok (), { b with armed := false }, s)) ∨
    (b.pending ≠ .empty ∧ ∀ o s', inner.write b.pending s = (o, s') →
      b.pass inner s = (o, { b with pending := .empty, armed := false }, s')) := by
  by_cases h : b.pending.isEmpty
  · exact .inl ⟨by simpa [ByteArray.isEmpty] using h, by simp [pass, h]⟩
  · exact .inr ⟨by simpa [ByteArray.isEmpty] using h, fun o s' hw => by simp [pass, h, hw]⟩

/-- A write to an open buffer only gathers, or passes on everything together. -/
theorem write_cases (h : b.closed = false) (inner : Destination σ) (p : ByteArray) (s : σ) :
    (∃ armed, ((b.pending ++ p).size < b.threshold ∨ b.pending ++ p = .empty) ∧
      b.write inner p s = (.ok (), { b with pending := b.pending ++ p, armed }, s)) ∨
    (b.pending ++ p ≠ .empty ∧ ∀ o s', inner.write (b.pending ++ p) s = (o, s') →
      b.write inner p s = (o, { b with pending := .empty, armed := false }, s')) := by
  unfold write
  rw [if_neg (by simp [h])]
  dsimp only
  split
  · -- the threshold is reached
    rcases pass_cases inner { b with pending := b.pending ++ p } s with ⟨he, hp⟩ | ⟨he, hp⟩
    · exact .inl ⟨false, .inr he, hp⟩
    · exact .inr ⟨he, hp⟩
  · rename_i hsize
    exact .inl ⟨true, .inl (Nat.lt_of_not_le hsize), rfl⟩

end Buffer

/-! ## What is seen of a sink -/

/-- Something that a sink was offered, and what became of it. -/
structure Batch where
  bytes : ByteArray
  outcome : Outcome
  /-- How the sink is called afterwards. -/
  name : String

/-- A state, and what was seen so far. -/
structure Watched (σ : Type) where
  offers : List Batch := []
  /-- What became of closing the sink. -/
  closings : List Outcome := []
  /-- What was printed to the output streams. -/
  printed : List (Stream × ByteArray) := []
  state : σ

instance [Terminal σ] : Terminal (Watched σ) where
  print k b w := { w with printed := w.printed ++ [(k, b)], state := Terminal.print k b w.state }

/-- The same sink, and whatever it is offered is seen. -/
def Destination.watched (d : Destination σ) : Destination (Watched σ) where
  name w := d.name w.state
  write p w :=
    let (o, s) := d.write p w.state
    (o, { w with offers := w.offers ++ [⟨p, o, d.name s⟩], state := s })
  flush w :=
    let (o, s) := d.flush w.state
    (o, { w with state := s })
  close w :=
    let (o, s) := d.close w.state
    (o, { w with closings := w.closings ++ [o], state := s })

namespace Buffer

/-- A move of somebody who uses a buffer, or of its timer. -/
inductive Move where
  | write (p : ByteArray)
  | flush
  /-- The waiting time ends. -/
  | expire
  | close

/-- The payloads of the writes before the buffer is closed. -/
def written : List Move → List ByteArray
  | [] => []
  | .write p :: ms => p :: written ms
  | .close :: _ => []
  | _ :: ms => written ms

/-- One move. -/
def act [Terminal σ] (inner : Destination σ) (b : Buffer) (s : σ) : Move → Outcome × Buffer × σ
  | .write p => b.write inner p s
  | .flush => b.flush inner s
  | .expire => (.ok (), b.expire inner s)
  | .close => b.close inner s

/-- What was seen of one move. -/
structure Deed where
  move : Move
  outcome : Outcome
  offers : List Batch
  closings : List Outcome
  printed : List (Stream × ByteArray)

/-- What was seen of a move that came to this, if nothing was seen before. -/
def Move.seen (m : Move) (r : Outcome × Buffer × Watched σ) : Deed :=
  ⟨m, r.1, r.2.2.offers, r.2.2.closings, r.2.2.printed⟩

/-- Several moves, with what was seen of each. -/
def run [Terminal σ] (inner : Destination σ) : List Move → Buffer → σ → List Deed × Buffer × σ
  | [], b, s => ([], b, s)
  | m :: ms, b, s =>
    let r := b.act inner.watched { state := s } m
    let (ds, b, s) := run inner ms r.2.1 r.2.2.state
    (m.seen r :: ds, b, s)

/-- Somebody is told of something that the sink refused: whoever made the move, or whoever reads
the program's output if it was the timer. Only a sink that then breaks off while it is closed hides
a refusal, since it breaks off the move as well. -/
def Deed.Tells (d : Deed) (x : Batch) (e : Failure) : Prop :=
  match d.move with
  | .write _ => d.outcome = .error e
  | .flush => d.outcome = .error e
  | .expire => ∀ f, e = .fault f →
    d.printed = [(.stderr, ("[LOGGER ERROR] Periodic flush to " ++ inQuotes x.name ++ " failed: " ++
      f.message ++ "\n").toUTF8)]
  | .close => d.outcome = .error e ∨
    ∃ p, d.closings = [Outcome.panic p] ∧ d.outcome = Outcome.panic p

/-- A move of a buffer in front of a watched sink is the move of the buffer in front of the sink. -/
theorem act_watched [Terminal σ] (inner : Destination σ) (b : Buffer) (w : Watched σ) (m : Move) :
    ∃ o b' w', b.act inner.watched w m = (o, b', w') ∧
      b.act inner w.state m = (o, b', w'.state) := by
  -- passing on is the same, and everything else is made of it
  have hpass : ∀ (b : Buffer) (w : Watched σ), ∃ o b' w',
      b.pass inner.watched w = (o, b', w') ∧ b.pass inner w.state = (o, b', w'.state) := by
    intro b w
    unfold Buffer.pass
    split
    · exact ⟨_, _, _, rfl, rfl⟩
    · exact ⟨_, _, _, rfl, rfl⟩
  cases m with
  | write p =>
    simp only [act, Buffer.write]
    split
    · exact ⟨_, _, _, rfl, rfl⟩
    · split
      · exact hpass _ w
      · exact ⟨_, _, _, rfl, rfl⟩
  | flush =>
    simp only [act, Buffer.flush]
    split
    · exact ⟨_, _, _, rfl, rfl⟩
    · obtain ⟨o, b', w', h, h'⟩ := hpass b w
      rw [h, h']
      cases o with
      | ok u => exact ⟨_, _, _, rfl, rfl⟩
      | error e => exact ⟨_, _, _, rfl, rfl⟩
  | expire =>
    simp only [act, Buffer.expire]
    split
    · obtain ⟨o, b', w', h, h'⟩ := hpass b w
      rw [h, h']
      rcases o with (f | q) | u
      · exact ⟨_, _, _, rfl, rfl⟩
      · exact ⟨_, _, _, rfl, rfl⟩
      · exact ⟨_, _, _, rfl, rfl⟩
    · exact ⟨_, _, _, rfl, rfl⟩
  | close =>
    simp only [act, Buffer.close]
    split
    · exact ⟨_, _, _, rfl, rfl⟩
    · have htimer : (stopTimer b.timer w).state = stopTimer b.timer w.state := by
        unfold stopTimer
        split
        · rfl
        · rfl
      obtain ⟨o, b', w', h, h'⟩ :=
        hpass { b with closed := true, armed := false, timer := .ended } (stopTimer b.timer w)
      rw [htimer] at h'
      rw [h, h']
      rcases o with (f | q) | u
      · exact ⟨_, _, _, rfl, rfl⟩
      · exact ⟨_, _, _, rfl, rfl⟩
      · exact ⟨_, _, _, rfl, rfl⟩

/-! ## One move -/

/-- What there is to pass on once a move was made. -/
def holding (b : Buffer) : Move → ByteArray
  | .write p => if b.closed then b.pending else b.pending ++ p
  | _ => b.pending

/-- Whether the buffer is closed once a move was made. -/
def isClosedBy (b : Buffer) : Move → Bool
  | .close => true
  | _ => b.closed

/-- A buffer between two moves. -/
structure Held (n : ℕ) (b : Buffer) : Prop where
  threshold : b.threshold = n
  below : b.pending.size < n
  closed : b.closed → b.pending = .empty

/-- **What one move does**: it takes out of the buffer what it offers, in one piece. -/
structure Conserves (b b' : Buffer) (d : Deed) : Prop where
  bytes : joined (d.offers.map (·.bytes)) ++ b'.pending = b.holding d.move
  once : d.offers.length ≤ 1
  nonempty : ∀ x ∈ d.offers, x.bytes ≠ .empty
  tells : ∀ x ∈ d.offers, ∀ e, x.outcome = .error e → d.Tells x e
  closed : b'.closed = b.isClosedBy d.move

variable {n : ℕ} {d : Deed} {x : Batch}

theorem Held.emptied (h : Held n b) (ht : b'.threshold = b.threshold) (hp : b'.pending = .empty) :
    Held n b' := by
  have hpos : 0 < n := Nat.lt_of_le_of_lt (Nat.zero_le _) h.below
  exact ⟨ht.trans h.threshold, by rw [hp]; exact hpos, fun _ => hp⟩

/-- A move that offers nothing. -/
theorem Conserves.quiet (ho : d.offers = []) (hp : b'.pending = b.holding d.move)
    (hc : b'.closed = b.isClosedBy d.move) : Conserves b b' d := by
  refine ⟨?_, ?_, ?_, ?_, hc⟩
  · rw [ho, hp]
    exact ByteArray.empty_append
  · rw [ho]; exact Nat.zero_le 1
  · rw [ho]; intro x hx; cases hx
  · rw [ho]; intro x hx; cases hx

/-- A move that offers everything there is. -/
theorem Conserves.offered (ho : d.offers = [x]) (hx : x.bytes = b.holding d.move)
    (hne : x.bytes ≠ .empty) (hp : b'.pending = .empty)
    (ht : ∀ e, x.outcome = .error e → d.Tells x e) (hc : b'.closed = b.isClosedBy d.move) :
    Conserves b b' d := by
  refine ⟨?_, ?_, ?_, ?_, hc⟩
  · rw [ho, hp, ← hx]
    simp
  · rw [ho]; exact Nat.le_refl 1
  · rw [ho]; intro y hy; rw [List.mem_singleton.1 hy]; exact hne
  · rw [ho]; intro y hy; rw [List.mem_singleton.1 hy]; exact ht

/-- Passing on is seen as one offer, if anything is gathered. -/
theorem pass_seen (inner : Destination σ) (b : Buffer) (w : Watched σ) :
    (b.pending = .empty ∧ b.pass inner.watched w = (.ok (), { b with armed := false }, w)) ∨
    ∃ o s, b.pending ≠ .empty ∧ b.pass inner.watched w =
      (o, { b with pending := .empty, armed := false },
        { w with offers := w.offers ++ [⟨b.pending, o, inner.name s⟩], state := s }) := by
  obtain ⟨he, hp⟩ | ⟨hne, hp⟩ := pass_cases inner.watched b w
  · exact .inl ⟨he, hp⟩
  · exact .inr ⟨_, _, hne, hp _ _ rfl⟩

/-- **A write** gathers its payload, or offers it behind everything that was gathered. -/
theorem write_conserves (h : Held n b) (inner : Destination σ) (p : ByteArray) (s : σ) :
    let r := b.write inner.watched p { state := s }
    Held n r.2.1 ∧ Conserves b r.2.1 ((Move.write p).seen r) := by
  intro r
  cases hc : b.closed with
  | true =>
    have hr : r = (closedOutcome name, b, { state := s }) := if_pos hc
    rw [hr]
    exact ⟨h, .quiet rfl (if_pos hc).symm rfl⟩
  | false =>
    have hholding : b.holding (.write p) = b.pending ++ p := if_neg (by simp [hc])
    obtain ⟨armed, hsize, hr⟩ | ⟨hne, hr⟩ := write_cases hc inner.watched p { state := s }
    · rw [show r = _ from hr]
      refine ⟨⟨h.threshold, ?_, fun hb => by simp [hc] at hb⟩, .quiet rfl hholding.symm rfl⟩
      obtain hlt | hempty := hsize
      · rw [← h.threshold]; exact hlt
      · show (b.pending ++ p).size < n
        rw [hempty]
        exact Nat.lt_of_le_of_lt (Nat.zero_le _) h.below
    · rw [show r = _ from hr _ _ rfl]
      exact ⟨h.emptied rfl rfl,
        .offered rfl hholding.symm hne rfl (fun _ hx => hx) rfl⟩

/-- **Flushing** offers what was gathered, and tells of a refusal instead of going on. -/
theorem flush_conserves (h : Held n b) (inner : Destination σ) (s : σ) :
    let r := b.flush inner.watched { state := s }
    Held n r.2.1 ∧ Conserves b r.2.1 (Move.flush.seen r) := by
  dsimp only
  unfold Buffer.flush
  cases hc : b.closed with
  | true => exact ⟨h, .quiet rfl rfl rfl⟩
  | false =>
    obtain ⟨he, hp⟩ | ⟨o, t, hne, hp⟩ := pass_seen inner b { state := s }
    · rw [hp]
      exact ⟨h.emptied rfl he, .quiet rfl rfl rfl⟩
    · rw [hp]
      cases o with
      | ok u => exact ⟨h.emptied rfl rfl, .offered rfl rfl hne rfl (fun _ hx => by cases hx) rfl⟩
      | error e => exact ⟨h.emptied rfl rfl, .offered rfl rfl hne rfl (fun _ hx => hx) rfl⟩

/-- **The end of the waiting time** offers what was gathered, and prints a refusal. -/
theorem expire_conserves [Terminal σ] (h : Held n b) (inner : Destination σ) (s : σ) :
    let r := (Except.ok (), b.expire inner.watched { state := s })
    Held n r.2.1 ∧ Conserves b r.2.1 (Move.expire.seen r) := by
  dsimp only
  unfold Buffer.expire
  split
  · obtain ⟨he, hp⟩ | ⟨o, t, hne, hp⟩ := pass_seen inner b { state := s }
    · rw [hp]
      exact ⟨h.emptied rfl he, .quiet rfl rfl rfl⟩
    · rw [hp]
      rcases o with (f | q) | u
      · refine ⟨h.emptied rfl rfl, .offered rfl rfl hne rfl (fun e hx => ?_) rfl⟩
        -- the line about the refusal is the only one
        intro g hg
        cases hx
        cases hg
        rfl
      · refine ⟨h.emptied rfl rfl, .offered rfl rfl hne rfl (fun e hx => ?_) rfl⟩
        intro g hg
        cases hx
        cases hg
      · exact ⟨h.emptied rfl rfl, .offered rfl rfl hne rfl (fun _ hx => by cases hx) rfl⟩
  · exact ⟨h, .quiet rfl rfl rfl⟩

/-- The first failure of passing on and of closing the sink is the outcome, unless closing the sink
breaks off. -/
theorem both_fault (f : Fault) (o : Outcome) : (Outcome.fault f).both o = Outcome.fault f ∨
    ∃ p, o = Outcome.panic p ∧ (Outcome.fault f).both o = Outcome.panic p := by
  rcases o with (g | p) | u
  · exact .inl rfl
  · exact .inr ⟨p, rfl, rfl⟩
  · exact .inl rfl

/-- **Closing** offers what was gathered, and tells of a refusal even if the sink is closed well. -/
theorem close_conserves [Terminal σ] (h : Held n b) (inner : Destination σ) (s : σ) :
    let r := b.close inner.watched { state := s }
    Held n r.2.1 ∧ Conserves b r.2.1 (Move.close.seen r) := by
  dsimp only
  unfold Buffer.close
  cases hc : b.closed with
  | true => exact ⟨h, .quiet rfl rfl hc⟩
  | false =>
    have htimer : (stopTimer b.timer ({ state := s } : Watched σ)).offers = [] ∧
        (stopTimer b.timer ({ state := s } : Watched σ)).closings = [] := by
      unfold stopTimer
      split
      · exact ⟨rfl, rfl⟩
      · exact ⟨rfl, rfl⟩
    have hoffers : ∀ x, (stopTimer b.timer ({ state := s } : Watched σ)).offers ++ [x] = [x] := by
      intro x
      rw [htimer.1, List.nil_append]
    obtain ⟨he, hp⟩ | ⟨o, t, hne, hp⟩ := pass_seen inner
      { b with closed := true, armed := false, timer := .ended } (stopTimer b.timer { state := s })
    · dsimp only
      rw [if_neg (by simp), hp]
      exact ⟨h.emptied rfl he, .quiet htimer.1 rfl rfl⟩
    · dsimp only
      rw [if_neg (by simp), hp]
      rcases o with (f | q) | u
      · refine ⟨h.emptied rfl rfl, .offered (hoffers _) rfl hne rfl (fun e hx => ?_) rfl⟩
        cases hx
        -- the sink is closed once, so what became of it is all that was seen of closing
        refine (both_fault f _).imp_right fun ⟨q, hq, hboth⟩ => ⟨q, ?_, hboth⟩
        show (stopTimer b.timer ({ state := s } : Watched σ)).closings ++ [_] = [Outcome.panic q]
        rw [htimer.2, List.nil_append]
        exact congrArg (fun o => [o]) hq
      · exact ⟨h.emptied rfl rfl, .offered (hoffers _) rfl hne rfl (fun _ hx => .inl hx) rfl⟩
      · exact ⟨h.emptied rfl rfl,
          .offered (hoffers _) rfl hne rfl (fun _ hx => by cases hx) rfl⟩

/-- **A move conserves bytes.** -/
theorem act_conserves [Terminal σ] (h : Held n b) (inner : Destination σ) (s : σ) (m : Move) :
    let r := b.act inner.watched { state := s } m
    Held n r.2.1 ∧ Conserves b r.2.1 (m.seen r) := by
  cases m with
  | write p => exact write_conserves h inner p s
  | flush => exact flush_conserves h inner s
  | expire => exact expire_conserves h inner s
  | close => exact close_conserves h inner s

/-! ## A run -/

/-- The pieces that the sink was offered, taken or refused, in order. -/
def batches (ds : List Deed) : List ByteArray := (ds.flatMap (·.offers)).map (·.bytes)

/-- What is held and what is written from now on, unless the buffer is closed, as one move leaves
it to the next ones. -/
theorem holding_written (b : Buffer) (m : Move) (ms : List Move) :
    (b.holding m ++ if b.isClosedBy m then .empty else joined (written ms)) =
      b.pending ++ if b.closed then .empty else joined (written (m :: ms)) := by
  cases hc : b.closed with
  | true => cases m <;> simp [holding, isClosedBy, hc]
  | false => cases m <;> simp [holding, isClosedBy, written, hc, ByteArray.append_assoc]

/-- **What is true of a run** of a buffer, from some moment to another. -/
structure Runs (n : ℕ) (b b' : Buffer) (ms : List Move) (ds : List Deed) : Prop where
  held : Held n b'
  bytes : joined (batches ds) ++ b'.pending =
    b.pending ++ if b.closed then .empty else joined (written ms)
  deeds : ∀ d ∈ ds, d.offers.length ≤ 1 ∧ ∀ x ∈ d.offers, x.bytes ≠ .empty ∧
    ∀ e, x.outcome = .error e → d.Tells x e
  closed : b.closed ∨ .close ∈ ms → b'.closed
  moves : ds.map (·.move) = ms

/-- **A run conserves bytes**, since each of its moves does. -/
theorem run_conserves [Terminal σ] (inner : Destination σ) :
    ∀ (ms : List Move) (b : Buffer) (s : σ), Held n b →
      Runs n b (b.run inner ms s).2.1 ms (b.run inner ms s).1 := by
  intro ms
  induction ms with
  | nil =>
    intro b s h
    refine ⟨h, ?_, ?_, ?_, rfl⟩
    · simp [run, batches, written]
    · intro d hd; cases hd
    · intro hc
      exact hc.resolve_right List.not_mem_nil
  | cons m ms ih =>
    intro b s h
    obtain ⟨h', hc⟩ := act_conserves h inner s m
    set r := b.act inner.watched { state := s } m with hr
    have k := ih r.2.1 r.2.2.state h'
    have hrun : b.run inner (m :: ms) s =
        (m.seen r :: (r.2.1.run inner ms r.2.2.state).1, (r.2.1.run inner ms r.2.2.state).2) := by
      rw [run, ← hr]
    rw [hrun]
    refine ⟨k.held, ?_, ?_, ?_, ?_⟩
    · show joined (batches (m.seen r :: (r.2.1.run inner ms r.2.2.state).1)) ++ _ = _
      have hbatches : batches (m.seen r :: (r.2.1.run inner ms r.2.2.state).1) =
          (m.seen r).offers.map (·.bytes) ++ batches (r.2.1.run inner ms r.2.2.state).1 := by
        simp [batches]
      calc joined (batches (m.seen r :: (r.2.1.run inner ms r.2.2.state).1)) ++
              (r.2.1.run inner ms r.2.2.state).2.1.pending
          = joined ((m.seen r).offers.map (·.bytes)) ++
              (r.2.1.pending ++ if r.2.1.closed then .empty else joined (written ms)) := by
            rw [hbatches, joined_append, ByteArray.append_assoc, k.bytes]
        _ = b.holding m ++ if b.isClosedBy m then .empty else joined (written ms) := by
            rw [← ByteArray.append_assoc, hc.bytes, hc.closed]
            rfl
        _ = b.pending ++ if b.closed then .empty else joined (written (m :: ms)) :=
            holding_written b m ms
    · intro d hd
      obtain rfl | hd := List.mem_cons.1 hd
      · exact ⟨hc.once, fun x hx => ⟨hc.nonempty x hx, hc.tells x hx⟩⟩
      · exact k.deeds d hd
    · intro hclose
      refine k.closed ?_
      rw [hc.closed]
      obtain hb | hm := hclose
      · left
        cases m with
        | close => rfl
        | _ => exact hb
      · obtain rfl | hm := List.mem_cons.1 hm
        · exact .inl rfl
        · exact .inr hm
    · show (m.seen r).move :: _ = m :: ms
      rw [k.moves]
      rfl

/-- **What is true of a buffer that was made with this threshold**, after these moves. -/
structure ConservesBytes (threshold : ℕ) (b : Buffer) (ms : List Move) (ds : List Deed) :
    Prop where
  /-- What the sink was offered, taken or refused, and then what is gathered, is what was written
  before the buffer was closed. -/
  bytes : joined (batches ds) ++ b.pending = joined (written ms)
  nonempty : ∀ p ∈ batches ds, p ≠ .empty
  /-- A move offers one piece at most. -/
  once : ∀ d ∈ ds, d.offers.length ≤ 1
  below : b.pending.size < threshold
  closed : .close ∈ ms → b.pending = .empty
  /-- Whatever was refused was told to whoever made the move. -/
  tells : ∀ d ∈ ds, ∀ x ∈ d.offers, ∀ e, x.outcome = .error e → d.Tells x e
  moves : ds.map (·.move) = ms

/-- **A buffer conserves bytes.** This holds at every moment of every run: for every threshold, and
whatever the sink behind does with what it is offered. -/
theorem buffer_conserves [Terminal σ] {settings : Settings.Buffering} {b : Buffer}
    (hb : Buffer.new settings = .ok b) (inner : Destination σ) (ms : List Move) (s : σ) :
    ConservesBytes settings.threshold (b.run inner ms s).2.1 ms (b.run inner ms s).1 := by
  obtain ⟨hpos, rfl⟩ := new_ok hb
  have k := run_conserves (n := settings.threshold) inner ms { threshold := settings.threshold } s
    ⟨rfl, hpos, fun _ => rfl⟩
  refine ⟨?_, ?_, fun d hd => (k.deeds d hd).1, k.held.below,
    fun hc => k.held.closed (k.closed (.inr hc)), fun d hd x hx => ((k.deeds d hd).2 x hx).2,
    k.moves⟩
  · rw [k.bytes]
    exact ByteArray.empty_append
  · intro p hp
    obtain ⟨x, hx, rfl⟩ := List.mem_map.1 hp
    obtain ⟨d, hd, hx⟩ := List.mem_flatMap.1 hx
    exact ((k.deeds d hd).2 x hx).1

/-- How often a sink for tries was offered something. -/
structure Moods where
  offers : ℕ := 0
  deriving DecidableEq

instance : Terminal Moods where
  print _ _ s := s

/-- A sink for tries: it refuses every other piece. -/
def moody : Destination Moods where
  name _ := "moody"
  write _ s := (if s.offers % 2 = 0 then Outcome.fault (.other "no") else .ok (), ⟨s.offers + 1⟩)
  flush s := (.ok (), s)
  close s := (.ok (), s)

/-- Pieces of two bytes and more. A write passes the threshold and is refused, what a flush finds
is taken, and what has waited long enough is refused. -/
theorem buffer_conserves_moody :
    ∃ b : Buffer, Buffer.new ⟨2, 1⟩ = .ok b ∧
      let ms := [.write ⟨#[1]⟩, .write ⟨#[2, 3]⟩, .write ⟨#[4]⟩, .flush, .write ⟨#[5]⟩, .expire,
        .write ⟨#[6]⟩, .close, .write ⟨#[7]⟩]
      ConservesBytes 2 (b.run moody ms {}).2.1 ms (b.run moody ms {}).1 ∧
        batches (b.run moody ms {}).1 = [⟨#[1, 2, 3]⟩, ⟨#[4]⟩, ⟨#[5]⟩, ⟨#[6]⟩] := by
  have hb : Buffer.new ⟨2, 1⟩ = .ok { threshold := 2 } := rfl
  refine ⟨_, hb, ?_⟩
  intro ms
  exact ⟨buffer_conserves hb moody ms {}, by decide⟩

end Buffer

end Logging.Sink
