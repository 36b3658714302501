import Logging.Middleware.Stage

/-!
# Stages around one another

A stage runs around everything behind it: what it tells first comes before, and what it tells last
comes after, whatever the stages behind it and the end tell. So a way is walked twice, inward with
the record and outward with the outcome.

* `Stage.isStandard`, `Stage.passes`, `Stage.counted`: the stages that come with the library, and
  what each does by itself.
* `walk`: the stages that run, each with the record that it is given, up to the first one that lets
  nothing go on.
* `Stage.handle_standard`: **what a standard stage does around the rest of the way.**
* `onward_nests`: **the law of a way through standard stages.**
-/

namespace Logging

variable {σ : Type} [EventLog σ] {c : Context} {r : Record} {st : Stages} {id : Nat} {x : Stage}
  {draws : Draws} {draw : Nat → Number.Double}

/-! ## A stage by itself -/

namespace Stage

/-- The stages that come with the library. -/
def isStandard : Stage → Bool
  | levelFilter _ | timestamp _ | contextKeys _ | staticFields _ | redact _ | sampler _ | random _
  | observer .. => true
  | _ => false

/-- What a standard stage lets go on for a record, where a random sampler draws that. -/
def passes (draw : Nat → Number.Double) (c : Context) (r : Record) : Stage → Option Record
  | levelFilter lowest => if r.level < lowest then none else some r
  | timestamp clock => some { r with timestamp := some (r.timestamp.getD clock) }
  | contextKeys keys => some (withContext keys c r)
  | staticFields fields => some { r with fields := r.fields.mergeMissing fields }
  | redact chain => some (masked chain r)
  | sampler x => if x.keeps r.level then some r else none
  | random x => if x.keeps draw r.level then some r else none
  | _ => some r

/-- A standard stage that a record has come to. -/
def counted (draw : Nat → Number.Double) (r : Record) : Stage → Stage
  | sampler x => sampler (x.decide r.level).2
  | random x => random (x.decide draw r.level).2
  | x => x

/-- What a stage tells before the stages behind it run. -/
def before (c : Context) (r : Record) : Stage → List Event
  | observer name true _ => [.before name r c]
  | _ => []

/-- What a stage tells after the stages behind it, unless they broke off. -/
def after (r : Record) (o : Outcome) : Stage → List Event
  | observer name _ true => if o.isPanic then [] else [.after name r.level o]
  | _ => []

theorem isStandard_counted : (x.counted draw r).isStandard = x.isStandard := by
  cases x <;> rfl

end Stage

/-! ## The stages that run -/

/-- A stage that ran: its number, how it was found, and the record that it was given. -/
structure Visit where
  id : Nat
  stage : Stage
  given : Record

/-- What becomes of a record on a way through standard stages. -/
structure Walk where
  /-- The stages that ran, the outermost first. -/
  ran : List Visit
  /-- What came to the end, unless a stage held it back. -/
  arrived : Option Record
  /-- The stages afterwards. -/
  stages : Stages

/-- The way of a record through standard stages, up to the first one that lets nothing go on. -/
def walk (draws : Draws) (c : Context) : List Nat → Record → Stages → Walk
  | [], r, st => ⟨[], some r, st⟩
  | id :: rest, r, st =>
    match st[id]? with
    | none => walk draws c rest r st
    | some x =>
      match x.passes (draws id) c r with
      | none => ⟨[⟨id, x, r⟩], none, st.setIfInBounds id (x.counted (draws id) r)⟩
      | some r' =>
        let w := walk draws c rest r' (st.setIfInBounds id (x.counted (draws id) r))
        { w with ran := ⟨id, x, r⟩ :: w.ran }

/-- What the stages tell on the way inward, the outermost first. -/
def inward (c : Context) (ran : List Visit) : List Event :=
  ran.flatMap fun v => v.stage.before c v.given

/-- What they tell on the way outward, the innermost first. -/
def outward (o : Outcome) (ran : List Visit) : List Event :=
  ran.reverse.flatMap fun v => v.stage.after v.given o

/-- A state in which several events happened, one after the other. -/
def told (es : List Event) (s : σ) : σ := es.foldl (fun s e => EventLog.emit e s) s

theorem told_append (es es' : List Event) (s : σ) :
    told (es ++ es') s = told es' (told es s) :=
  List.foldl_append

/-- Stages of which all are there and standard. -/
def AllStandard (st : Stages) (ids : List Nat) : Prop :=
  ∀ id ∈ ids, ∃ x, st[id]? = some x ∧ x.isStandard

theorem AllStandard.counted {ids : List Nat} (h : AllStandard st ids) (hx : st[id]? = some x) :
    AllStandard (st.setIfInBounds id (x.counted draw r)) ids := by
  intro j hj
  obtain ⟨y, hy, hstd⟩ := h j hj
  by_cases hij : id = j
  · subst hij
    obtain rfl : x = y := Option.some_inj.1 (hx.symm.trans hy)
    have hlt : id < st.size := (Array.getElem?_eq_some_iff.1 hx).1
    exact ⟨x.counted draw r, by simp [hlt], x.isStandard_counted.trans hstd⟩
  · exact ⟨y, by simpa [Array.getElem?_setIfInBounds, hij] using hy, hstd⟩

/-! ## A stage around the rest of the way -/

theorem setIfInBounds_same (h : st[id]? = some x) : st.setIfInBounds id x = st := by
  refine Array.ext_getElem? fun j => ?_
  rw [Array.getElem?_setIfInBounds]
  split
  · rename_i hij
    subst hij
    rw [h, if_pos (Array.getElem?_eq_some_iff.1 h).1]
  · rfl

/-- **What a standard stage does around the rest of the way**: it lets nothing go on and all is
well, or it tells, lets the rest of the way run, and tells again. -/
theorem Stage.handle_standard (next : Way σ) (hx : st[id]? = some x) (hstd : x.isStandard)
    (s : σ) :
    handle draws id next c r st s =
      match x.passes (draws id) c r with
      | none => (.ok (), st.setIfInBounds id (x.counted (draws id) r), s)
      | some r' =>
        let ended :=
          next c r' (st.setIfInBounds id (x.counted (draws id) r)) (told (x.before c r) s)
        (ended.1, ended.2.1, told (x.after r ended.1) ended.2.2) := by
  have hsame := setIfInBounds_same hx
  unfold handle
  rw [hx]
  cases x with
  | levelFilter lowest =>
    by_cases hlow : r.level < lowest <;> simp [passes, counted, before, after, told, hlow, hsame]
  | sampler x =>
    by_cases hkept : x.keeps r.level <;>
      simp [passes, counted, before, after, told, Sampler.decide, hkept]
  | random x =>
    by_cases hkept : x.keeps (draws id) r.level <;>
      simp [passes, counted, before, after, told, RandomSampler.decide, hkept]
  | observer name b a =>
    cases b <;> cases a <;> simp [passes, counted, before, after, told, tell, hsame] <;>
      split <;> simp_all
  | custom => cases hstd
  | _ => simp [passes, counted, before, after, told, hsame]

/-! ## The whole way -/

/-- What a walk comes to around the rest of the way: the stages tell inward, the rest runs unless the
record was held back, and the stages tell outward how that ended. -/
def Walk.around (w : Walk) (c : Context) (next : Way σ) (s : σ) : Outcome × Stages × σ :=
  let ended := match w.arrived with
    | some r => next c r w.stages (told (inward c w.ran) s)
    | none => (.ok (), w.stages, told (inward c w.ran) s)
  (ended.1, ended.2.1, told (outward ended.1 w.ran) ended.2.2)

/-- **Standard stages in front of any way** are walked inward and outward around it. -/
theorem onward_append (arrive : Record → σ → Outcome × σ) (more : List Nat) :
    ∀ (ids : List Nat) (r : Record) (st : Stages) (s : σ), AllStandard st ids →
      onward draws arrive (ids ++ more) c r st s =
        (walk draws c ids r st).around c (onward draws arrive more) s := by
  intro ids
  induction ids with
  | nil =>
    intro r st s hstd
    rfl
  | cons id rest ih =>
    intro r st s hstd
    obtain ⟨x, hx, hx'⟩ := hstd id (by simp)
    have hrest : AllStandard st rest := fun j hj => hstd j (by simp [hj])
    rw [List.cons_append, onward,
      Stage.handle_standard (onward draws arrive (rest ++ more)) hx hx' s, walk, hx]
    dsimp only
    cases hp : x.passes (draws id) c r with
    | none =>
      -- a stage that lets nothing go on is no observer, so it tells nothing
      have hbefore : x.before c r = [] := by cases x <;> simp_all [Stage.passes, Stage.before]
      have hafter : x.after r (.ok ()) = [] := by cases x <;> simp_all [Stage.passes, Stage.after]
      simp [Walk.around, inward, outward, told, hbefore, hafter]
    | some r' =>
      -- its words come first on the way inward and last on the way outward
      have htail := ih r' (st.setIfInBounds id (x.counted (draws id) r)) (told (x.before c r) s)
        (hrest.counted hx)
      simp only [htail, Walk.around, inward, outward, List.flatMap_cons, List.reverse_cons,
        List.flatMap_append, List.flatMap_nil, List.append_nil, told_append]

/-! ## Which stages run -/

/-- Each stage is given what the one before it let go on, and the first one that lets nothing go on
is the last to run. -/
def HandedOn (draws : Draws) (c : Context) : Record → List Visit → Option Record → Prop
  | r, [], arrived => arrived = some r
  | r, v :: vs, arrived =>
    v.given = r ∧
      match v.stage.passes (draws v.id) c r with
      | some r' => HandedOn draws c r' vs arrived
      | none => vs = [] ∧ arrived = none

/-- The records that a stage is given, in order. -/
def givenTo (id : Nat) (ran : List Visit) : List Record :=
  (ran.filter (·.id = id)).map Visit.given

/-- A stage that several records have come to. -/
def Stage.countedAll (draw : Nat → Number.Double) (rs : List Record) (x : Stage) : Stage :=
  rs.foldl (fun x r => x.counted draw r) x

@[simp] theorem Stage.countedAll_nil : countedAll draw [] = fun x => x := rfl

@[simp] theorem Stage.countedAll_cons (rs : List Record) :
    x.countedAll draw (r :: rs) = (x.counted draw r).countedAll draw rs := rfl

/-- **Which stages run**, and with what. -/
structure Walk.Orderly (w : Walk) (draws : Draws) (c : Context) (ids : List Nat) (r : Record)
    (st : Stages) : Prop where
  /-- They run in the order of the list. -/
  inOrder : w.ran.map Visit.id <+: ids
  /-- If something comes to the end, all of them have run. -/
  complete : w.arrived.isSome → w.ran.map Visit.id = ids
  handedOn : HandedOn draws c r w.ran w.arrived
  /-- A stage is found as the records left it that came to it before. -/
  found : ∀ vs v vs', w.ran = vs ++ v :: vs' →
    st[v.id]?.map (Stage.countedAll (draws v.id) (givenTo v.id vs)) = some v.stage
  /-- A stage is left as the records that came to it leave it; what did not run is as it was. -/
  left : ∀ id, w.stages[id]? = st[id]?.map (Stage.countedAll (draws id) (givenTo id w.ran))

theorem Walk.Orderly.none_run (draws : Draws) (c : Context) (r : Record) (st : Stages) :
    (Walk.mk [] (some r) st).Orderly draws c [] r st where
  inOrder := List.prefix_refl []
  complete _ := rfl
  handedOn := rfl
  found vs v vs' h := by simp at h
  left id := by simp [givenTo]

theorem getElem?_counted (hx : st[id]? = some x) (j : Nat) (vs : List Visit) :
    (st.setIfInBounds id (x.counted (draws id) r))[j]?.map
        (Stage.countedAll (draws j) (givenTo j vs)) =
      st[j]?.map (Stage.countedAll (draws j) (givenTo j (⟨id, x, r⟩ :: vs))) := by
  have hlt : id < st.size := (Array.getElem?_eq_some_iff.1 hx).1
  by_cases hij : id = j
  · subst hij
    rw [hx]
    simp [hlt, givenTo]
  · simp [hij, givenTo]

theorem walk_orderly : ∀ (ids : List Nat) (r : Record) (st : Stages), AllStandard st ids →
    (walk draws c ids r st).Orderly draws c ids r st := by
  intro ids
  induction ids with
  | nil =>
    intro r st hstd
    exact .none_run draws c r st
  | cons id rest ih =>
    intro r st hstd
    obtain ⟨x, hx, -⟩ := hstd id (by simp)
    have hrest : AllStandard st rest := fun j hj => hstd j (by simp [hj])
    rw [walk, hx]
    dsimp only
    cases hp : x.passes (draws id) c r with
    | none =>
      refine ⟨by simp, by simp, by simp [HandedOn, hp], fun vs v vs' h => ?_, fun j => ?_⟩
      · obtain ⟨rfl, rfl, rfl⟩ : vs = [] ∧ v = ⟨id, x, r⟩ ∧ vs' = [] := by
          cases vs <;> simp_all
        simp [hx, givenTo]
      · rw [← getElem?_counted hx]
        simp [givenTo]
    | some r' =>
      obtain ⟨hord, hall, hhand, hfound, hleft⟩ :=
        ih r' (st.setIfInBounds id (x.counted (draws id) r)) (hrest.counted hx)
      refine ⟨by simpa using hord, fun h => by simpa using hall h, by simpa [HandedOn, hp] using hhand,
        fun vs v vs' h => ?_, fun j => ?_⟩
      · cases vs with
        | nil =>
          obtain ⟨rfl, -⟩ := List.cons.inj h
          simp [hx, givenTo]
        | cons u vs =>
          obtain ⟨rfl, htail⟩ := List.cons.inj h
          rw [← getElem?_counted hx]
          exact hfound vs v vs' htail
      · -- the visits behind it have changed the stage further, if it stands in the list again
        rw [hleft j, getElem?_counted hx]

theorem walk_ran : ∀ (ids : List Nat) (r : Record) (st : Stages), AllStandard st ids →
    walk draws c ((walk draws c ids r st).ran.map Visit.id) r st = walk draws c ids r st := by
  intro ids
  induction ids with
  | nil =>
    intro r st hstd
    rfl
  | cons id rest ih =>
    intro r st hstd
    obtain ⟨x, hx, -⟩ := hstd id (by simp)
    have hrest : AllStandard st rest := fun j hj => hstd j (by simp [hj])
    rw [walk, hx]
    dsimp only
    cases hp : x.passes (draws id) c r with
    | none => simp [walk, hx, hp]
    | some r' =>
      have htail := ih r' (st.setIfInBounds id (x.counted (draws id) r)) (hrest.counted hx)
      simp [walk, hx, hp, htail]

/-- **The law of a way through standard stages.** They run in the order of the list, up to the first
one that holds the record back. The end is reached once if none does, with what they made of the
record, and its outcome is that of the way; otherwise it is not reached and all is well. Observers
tell before the end in the order of the list and afterwards in the opposite order, of the outcome
of the way; and what stands behind the stage that holds a record back has no say. -/
theorem onward_nests (draws : Draws) (arrive : Record → σ → Outcome × σ) {ids : List Nat}
    (hstd : AllStandard st ids) (c : Context) (r : Record) (s : σ) :
    (walk draws c ids r st).Orderly draws c ids r st ∧
    onward draws arrive ids c r st s =
      (let w := walk draws c ids r st
      let reached := match w.arrived with
        | some r' => arrive r' (told (inward c w.ran) s)
        | none => (.ok (), told (inward c w.ran) s)
      (reached.1, w.stages, told (outward reached.1 w.ran) reached.2)) ∧
    ((walk draws c ids r st).arrived = none →
      ∀ (arrive' : Record → σ → Outcome × σ) (more : List Nat),
        onward draws arrive' ((walk draws c ids r st).ran.map Visit.id ++ more) c r st s =
          onward draws arrive ids c r st s) := by
  have horder : (walk draws c ids r st).Orderly draws c ids r st := walk_orderly ids r st hstd
  have hwhole : onward draws arrive ids c r st s =
      (walk draws c ids r st).around c (onward draws arrive []) s := by
    simpa using onward_append (c := c) arrive [] ids r st s hstd
  refine ⟨horder, ?_, fun hheld arrive' more => ?_⟩
  · rw [hwhole]
    rcases walk draws c ids r st with ⟨ran, arrived, stages⟩
    cases arrived <;> rfl
  · have hran : AllStandard st ((walk draws c ids r st).ran.map Visit.id) :=
      fun j hj => hstd j (horder.inOrder.subset hj)
    rw [onward_append arrive' more _ r st s hran, walk_ran ids r st hstd, hwhole]
    simp [Walk.around, hheld]

instance : EventLog (List Event) := ⟨fun e es => es ++ [e]⟩

/-- A filter between two observers: what it holds back only the outer one sees, and of what it lets
pass both tell how the end failed. -/
theorem onward_nests_filter_between :
    let st : Stages := #[.observer "outer" true true, .levelFilter .warn,
      .observer "inner" true true]
    let arrive : Record → List Event → Outcome × List Event := fun r es =>
      (Outcome.fault (.other "full"), es ++ [.terminal r])
    let draws : Draws := fun _ _ => default
    AllStandard st [0, 1, 2] ∧
    onward draws arrive [0, 1, 2] ⟨.empty⟩ (.new .debug "m") st [] =
      (.ok (), st, [.before "outer" (.new .debug "m") ⟨.empty⟩, .after "outer" .debug (.ok ())]) ∧
    onward draws arrive [0, 1, 2] ⟨.empty⟩ (.new .error "m") st [] =
      (Outcome.fault (.other "full"), st,
        [.before "outer" (.new .error "m") ⟨.empty⟩, .before "inner" (.new .error "m") ⟨.empty⟩,
          .terminal (.new .error "m"), .after "inner" .error (Outcome.fault (.other "full")),
          .after "outer" .error (Outcome.fault (.other "full"))]) := by
  intro st arrive draws
  have hstd : AllStandard st [0, 1, 2] := by
    intro id hid
    simp only [List.mem_cons, List.not_mem_nil, or_false] at hid
    rcases hid with rfl | rfl | rfl <;> exact ⟨_, rfl, rfl⟩
  exact ⟨hstd, (onward_nests draws arrive hstd ⟨.empty⟩ (.new .debug "m") []).2.1.trans rfl,
    (onward_nests draws arrive hstd ⟨.empty⟩ (.new .error "m") []).2.1.trans rfl⟩

end Logging
