import Logging.Proofs.Network.Fresh
import Logging.Proofs.Settings.RoundTrip

/-!
# What becomes of descriptions

* `SinkSpec.fault?`: what is wrong with a description, the first setting in use that is out of
  range.
* `SinkSpec.Oversized`: a size in it is beyond what memory is asked for.
* `SinkSpec.Unopened`: its file cannot be named or opened on the disk that there is.
* `Makes`: how something is made of sinks that were just made.
* `build_verdict`: **a description is built, or refused with what is wrong with it, or fails with
  the file that cannot be opened; and it breaks off only if a size is too large.**
-/

namespace Logging

open Settings Sink

/-- What a factory finds wrong with a description, before it opens anything. -/
def Factory.fault? (spec : SinkSpec) : Factory → Option Fault
  | file =>
    if spec.path.isNone then
      some (.configuration "SinkRegistry" "sink kind 'file' requires a path")
    else none
  | rotatingFile =>
    match spec.rotation, spec.path with
    | some r, _ => r.fault?
    | none, some p => { Rotation.default with template := p }.fault?
    | none, none =>
      some (.configuration "SinkRegistry"
        "sink kind 'rotating_file' requires a rotation config or a path")
  | _ => none

theorem Settings.Rotation.fault?_configuration (r : Rotation) {f : Fault} (h : r.fault? = some f) :
    ∃ component detail, f = .configuration component detail := by
  unfold Rotation.fault? at h
  split_ifs at h <;> exact ⟨_, _, (Option.some_inj.1 h).symm⟩

theorem Settings.Buffering.fault?_configuration (b : Buffering) {f : Fault}
    (h : b.fault? = some f) : ∃ component detail, f = .configuration component detail := by
  unfold Buffering.fault? at h
  split_ifs at h <;> exact ⟨_, _, (Option.some_inj.1 h).symm⟩

theorem Factory.fault?_configuration (factory : Factory) {spec : SinkSpec} {f : Fault}
    (h : factory.fault? spec = some f) :
    ∃ component detail, f = .configuration component detail := by
  unfold Factory.fault? at h
  split at h
  · split at h
    · exact ⟨_, _, (Option.some_inj.1 h).symm⟩
    · cases h
  · split at h
    · exact Rotation.fault?_configuration _ h
    · exact Rotation.fault?_configuration _ h
    · exact ⟨_, _, (Option.some_inj.1 h).symm⟩
  · cases h

namespace Settings.SinkSpec

/-- What is wrong with the length of a queue. -/
def capacityFault? (n : Nat) : Option Fault :=
  if n = 0 then some (.configuration "BoundedWorker" "queue capacity must be at least 1") else none

/-- What is wrong with a description: the first setting in use that is out of range. -/
def fault? (spec : SinkSpec) : Option Fault :=
  ((Registry.standard.factory? spec.kind).bind (·.fault? spec)).or
    ((spec.buffer.bind Buffering.fault?).or (spec.asyncCapacity.bind capacityFault?))

/-- A size in the description is beyond what a block of memory can hold. -/
def Oversized (spec : SinkSpec) : Prop :=
  (∃ b ∈ spec.buffer, Buffer.sizeLimit ≤ b.threshold) ∨
    ∃ n ∈ spec.asyncCapacity, Worker.Machine.capacityLimit ≤ n

/-- What is wrong with a description is a wrong configuration. -/
theorem fault?_configuration (spec : SinkSpec) {f : Fault} (h : spec.fault? = some f) :
    ∃ component detail, f = .configuration component detail := by
  rw [fault?, Option.or_eq_some_iff, Option.or_eq_some_iff] at h
  rcases h with h | ⟨-, h | ⟨-, h⟩⟩
  · obtain ⟨factory, -, h⟩ := Option.bind_eq_some_iff.1 h
    exact factory.fault?_configuration h
  · obtain ⟨b, -, h⟩ := Option.bind_eq_some_iff.1 h
    exact b.fault?_configuration h
  · obtain ⟨n, -, h⟩ := Option.bind_eq_some_iff.1 h
    unfold capacityFault? at h
    split at h
    · exact ⟨_, _, (Option.some_inj.1 h).symm⟩
    · cases h

/-- How a rotating file that is described is kept: as its settings say, or under its path. -/
def rotation? (spec : SinkSpec) : Option Rotation :=
  spec.rotation.or (spec.path.map fun p => { Rotation.default with template := p })

/-- The file of a description cannot be opened on that disk, or a rotating file not even be named,
though the settings of the file are in range. -/
inductive Unopened (spec : SinkSpec) (d : Disk) (f : Fault) : Prop
  | file {p : String} (hkind : Registry.standard.factory? spec.kind = some .file)
      (hpath : spec.path = some p) (h : (openLog (.ofText p) d).1 = .error f)
  | unnamed {r : Rotation} (hkind : Registry.standard.factory? spec.kind = some .rotatingFile)
      (hr : spec.rotation? = some r) (hrange : r.fault? = none)
      (h : (expandTemplate r.template d).1 = .error f)
  | rotating {r : Rotation} {p : Disk.Path} {d' : Disk}
      (hkind : Registry.standard.factory? spec.kind = some .rotatingFile)
      (hr : spec.rotation? = some r) (hrange : r.fault? = none)
      (hname : expandTemplate r.template d = (.ok p, d')) (h : (openLog p d').1 = .error f)

/-- Why no sink is built from a description on that disk. -/
inductive Rejected (spec : SinkSpec) (d : Disk) : Failure → Prop
  /-- There is no such kind. -/
  | unknown (h : Registry.standard.factory? spec.kind = none) :
    Rejected spec d (.fault (.unknownSink spec.kind))
  /-- A setting is out of range. -/
  | refused {f : Fault} (hkind : Registry.standard.factory? spec.kind ≠ none)
      (h : spec.fault? = some f) : Rejected spec d (.fault f)
  /-- Its file cannot be opened. -/
  | unopened {f : Fault} (h : spec.Unopened d f) : Rejected spec d (.fault f)
  /-- A size is too large, and memory was asked for it. -/
  | brokeOff (h : spec.Oversized) : Rejected spec d (.panic (.message "capacity overflow"))

/-- Every setting in use is in range, and no size is too large. -/
def InRange (spec : SinkSpec) : Prop := spec.fault? = none ∧ ¬ spec.Oversized

end Settings.SinkSpec

/-- What becomes of descriptions. -/
inductive Registry.Verdict (program : List SinkId) (w : Network) (specs : List SinkSpec) :
    Except Failure SinkId → Prop
  /-- They are built. -/
  | built (id : SinkId) (hne : specs ≠ []) (h : ∀ spec ∈ specs, spec.InRange) :
    Verdict program w specs (.ok id)
  /-- There are none. -/
  | nothing (h : specs = []) :
    Verdict program w specs (.error (.fault (.configuration "SinkRegistry" "no sinks configured")))
  /-- Those in front are built, and the next one is rejected on the disk as they leave it. -/
  | rejected {before after : List SinkSpec} {spec : SinkSpec} {e : Failure}
      (hspecs : specs = before ++ spec :: after) (hbefore : ∀ spec ∈ before, spec.InRange)
      (h : spec.Rejected (standard.buildEach program before [] w).2.disk e) :
    Verdict program w specs (.error e)

/-! ## Making -/

/-- Something is made of sinks that were just made: if it comes about, `P` holds, and if it fails,
`Q` holds of the failure. Whatever is left over was just made, too. -/
structure Makes (base : ℕ) (P : Prop) (Q : Failure → Prop) (r : Except Failure SinkId × Network) :
    Prop where
  fresh : r.2.Fresh base
  made : ∀ id, r.1 = .ok id → base ≤ id ∧ P
  failed : ∀ e, r.1 = .error e → Q e

theorem Makes.mono {base : ℕ} {P P' : Prop} {Q Q' : Failure → Prop}
    {r : Except Failure SinkId × Network} (h : Makes base P Q r) (hp : P → P')
    (hq : ∀ e, Q e → Q' e) : Makes base P' Q' r :=
  ⟨h.fresh, fun id hid => (h.made id hid).imp_right hp, fun e he => hq e (h.failed e he)⟩

theorem makes_ok {base : ℕ} {P : Prop} {Q : Failure → Prop} {id : SinkId} {w : Network}
    (h : w.Fresh base) (hid : base ≤ id) (hp : P) : Makes base P Q (.ok id, w) :=
  ⟨h, fun _ hid' => Except.ok.inj hid' ▸ ⟨hid, hp⟩, fun _ he => by cases he⟩

theorem makes_error {base : ℕ} {P : Prop} {Q : Failure → Prop} {e : Failure} {w : Network}
    (h : w.Fresh base) (he : Q e) : Makes base P Q (.error e, w) :=
  ⟨h, fun _ hid => (by cases hid), fun _ he' => Except.error.inj he' ▸ he⟩

namespace Network

variable {base inner : ℕ} {w : Network} {P : Prop} {Q : Failure → Prop}

/-- A new sink that has nothing to do, in front of sinks that were just made. -/
theorem makes_added (h : w.Fresh base) {c : Cell} (hcalm : c.Calm)
    (hinside : ∀ r ∈ c.references, base ≤ r) (hp : P) : Makes base P Q (w.addMade (.ok c)) :=
  makes_ok (h.add hcalm hinside) h.size hp

theorem makes_notAdded (h : w.Fresh base) {e : Failure} (he : Q e) :
    Makes base P Q (w.addMade (.error e)) :=
  makes_error h he

/-- What is put in front of a sink is made, or fails as it did by itself. -/
theorem makes_inFront {α : Type} {add : α → SinkId → Network → Except Failure SinkId × Network}
    {wanted : Option α} (h : w.Fresh base) (hinner : base ≤ inner) (program : List SinkId)
    (hnone : wanted = none → P) (hadd : ∀ a ∈ wanted, Makes base P Q (add a inner w)) :
    Makes base P Q (w.inFront program add wanted inner) := by
  cases wanted with
  | none => exact makes_ok h hinner (hnone rfl)
  | some a =>
    have hmakes := hadd a rfl
    rw [inFront]
    rcases hadded : add a inner w with ⟨e | id, w'⟩
    · rw [hadded] at hmakes
      obtain ⟨hanswer, hgone⟩ :=
        hmakes.fresh.makeNone (α := SinkId) program [inner] (by simpa using hinner) e
      exact ⟨hgone, fun id hid => (by cases hanswer.symm.trans hid),
        fun e' he => Except.error.inj (hanswer.symm.trans he) ▸ hmakes.failed e rfl⟩
    · rw [hadded] at hmakes
      exact hmakes

theorem makes_buffered (h : w.Fresh base) (hinner : base ≤ inner) (b : Buffering) :
    Makes base (b.fault? = none ∧ b.threshold < Buffer.sizeLimit)
      (fun e => (∃ f, b.fault? = some f ∧ e = .fault f) ∨
        Buffer.sizeLimit ≤ b.threshold ∧ e = .panic (.message "capacity overflow"))
      (w.addBuffered b inner) := by
  rw [addBuffered, Buffer.new]
  cases hfault : b.fault? with
  | some f => exact makes_notAdded h (.inl ⟨f, rfl, rfl⟩)
  | none =>
    dsimp only
    split
    · rename_i hsize
      exact makes_notAdded h (.inr ⟨hsize, rfl⟩)
    · rename_i hsize
      exact makes_added h rfl (by simpa [Cell.references] using hinner)
        ⟨rfl, Nat.lt_of_not_le hsize⟩

theorem makes_queued (h : w.Fresh base) (hinner : base ≤ inner) (n : ℕ) :
    Makes base (SinkSpec.capacityFault? n = none ∧ n < Worker.Machine.capacityLimit)
      (fun e => (∃ f, SinkSpec.capacityFault? n = some f ∧ e = .fault f) ∨
        Worker.Machine.capacityLimit ≤ n ∧ e = .panic (.message "capacity overflow"))
      (w.addQueued ⟨Queue.workerName, n, .default, .none⟩ inner) := by
  rw [addQueued, Worker.Machine.new, SinkSpec.capacityFault?]
  dsimp only
  split
  · exact makes_notAdded h (.inl ⟨_, rfl, rfl⟩)
  split
  · rename_i hsize
    exact makes_notAdded h (.inr ⟨hsize, rfl⟩)
  · rename_i hsize
    exact makes_added h ⟨rfl, rfl, rfl, rfl⟩ (by simpa [Cell.references] using hinner)
      ⟨rfl, Nat.lt_of_not_le hsize⟩

/-- What is put in front of a sink, the buffer first and the queue in front of it. -/
theorem makes_wrap (h : w.Fresh base) (hinner : base ≤ inner) (program : List SinkId)
    {spec : SinkSpec} {f : Factory} (hf : Registry.standard.factory? spec.kind = some f)
    (hkind : f.fault? spec = none) (d : Disk) :
    Makes base spec.InRange (spec.Rejected d)
      (w.wrap program spec.buffer
        (spec.asyncCapacity.map fun n => ⟨Queue.workerName, n, .default, .none⟩) inner) := by
  have hknown : Registry.standard.factory? spec.kind ≠ none := by simp [hf]
  have hsettings : spec.fault? =
      (spec.buffer.bind Buffering.fault?).or (spec.asyncCapacity.bind SinkSpec.capacityFault?) := by
    rw [SinkSpec.fault?, hf, Option.bind_some, hkind, Option.none_or]
  have hbuffer : Makes base
      (∀ b ∈ spec.buffer, b.fault? = none ∧ b.threshold < Buffer.sizeLimit) (spec.Rejected d)
      (w.inFront program addBuffered spec.buffer inner) := by
    refine makes_inFront h hinner program (fun hnone b hb => by simp [hnone] at hb) fun b hb => ?_
    refine (makes_buffered h hinner b).mono (fun hp b' hb' => ?_) fun e he => ?_
    · obtain rfl : b = b' := Option.mem_unique hb hb'
      exact hp
    · rcases he with ⟨g, hg, rfl⟩ | ⟨hsize, rfl⟩
      · refine .refused hknown ?_
        rw [hsettings, Option.mem_def.1 hb, Option.bind_some, hg, Option.some_or]
      · exact .brokeOff (.inl ⟨b, hb, hsize⟩)
  rw [wrap]
  rcases hfront : w.inFront program addBuffered spec.buffer inner with ⟨e | id, w'⟩
  · rw [hfront] at hbuffer
    exact makes_error hbuffer.fresh (hbuffer.failed e rfl)
  · rw [hfront] at hbuffer
    obtain ⟨hid, hfaults⟩ := hbuffer.made id rfl
    -- the buffer is as it should be, so what is wrong is wrong with the queue
    have hquiet : spec.buffer.bind Buffering.fault? = none := by
      cases hb : spec.buffer with
      | none => rfl
      | some b => exact (hfaults b hb).1
    have hoversized : spec.Oversized ↔
        ∃ n ∈ spec.asyncCapacity, Worker.Machine.capacityLimit ≤ n :=
      or_iff_right fun ⟨b, hb, hsize⟩ => Nat.not_le_of_lt (hfaults b hb).2 hsize
    have hfault : spec.fault? = spec.asyncCapacity.bind SinkSpec.capacityFault? := by
      rw [hsettings, hquiet, Option.none_or]
    refine makes_inFront hbuffer.fresh hid program (fun hnone => ?_) fun q hq => ?_
    · have hnone := Option.map_eq_none_iff.1 hnone
      exact ⟨by rw [hfault, hnone]; rfl, by simp [hoversized, hnone]⟩
    · obtain ⟨n, hn, rfl⟩ := Option.map_eq_some_iff.1 hq
      rw [hn] at hfault
      refine (makes_queued hbuffer.fresh hid n).mono (fun hp => ⟨hfault.trans hp.1, ?_⟩)
        fun e he => ?_
      · simpa [hoversized, hn] using hp.2
      · rcases he with ⟨g, hg, rfl⟩ | ⟨hsize, rfl⟩
        · exact .refused hknown (hfault.trans hg)
        · exact .brokeOff (.inr ⟨n, hn, hsize⟩)

end Network

/-! ## Opening files -/

/-- A rotating file is refused for its settings first, and then for its name and its file. -/
theorem rotating_answers (r : Rotation) (d : Disk) :
    match (RotatingFile.newWithAge r none d).1 with
    | .ok _ => r.fault? = none
    | .error f => r.fault? = some f ∨ r.fault? = none ∧
        ((expandTemplate r.template d).1 = .error f ∨
          ∃ p d', expandTemplate r.template d = (.ok p, d') ∧ (openLog p d').1 = .error f) := by
  unfold RotatingFile.newWithAge RotatingFile.new
  cases hfault : r.fault? with
  | some g => exact .inl rfl
  | none =>
    rcases hname : expandTemplate r.template d with ⟨f | p, d₁⟩
    · exact .inr ⟨rfl, .inl rfl⟩
    rcases hopen : openLog p d₁ with ⟨f | x, d₂⟩
    · simp only [hopen]
      exact .inr ⟨trivial, .inr ⟨p, d₁, rfl, congrArg Prod.fst hopen⟩⟩
    · simp only [hopen, reduceCtorEq, if_false]

/-! ## Building -/

namespace Registry

variable {base : ℕ} {w : Network} {spec : SinkSpec}

theorem standard_cases {kind : String} {f : Factory} (h : standard.factory? kind = some f) :
    (∃ s, f = .console s) ∨ f = .file ∨ f = .rotatingFile := by
  obtain ⟨before, after, heq, -⟩ := List.lookup_eq_some_iff.1 h
  have hmem : (kind, f) ∈ standard.factories := by
    rw [heq]
    simp
  simp only [standard, List.mem_cons, Prod.mk.injEq, List.not_mem_nil, or_false] at hmem
  rcases hmem with ⟨-, rfl⟩ | ⟨-, rfl⟩ | ⟨-, rfl⟩ | ⟨-, rfl⟩ <;> simp

theorem makes_file (h : w.Fresh base) (p : Disk.Path) :
    Makes base True (fun e => ∃ g, e = .fault g ∧ (openLog p w.disk).1 = .error g)
      (w.addFile p) := by
  unfold Network.addFile File.new
  rcases hopen : openLog p w.disk with ⟨f | x, d⟩
  · exact Network.makes_notAdded (h.disk d) ⟨f, rfl, rfl⟩
  · exact Network.makes_added (h.disk d) trivial (List.forall_mem_nil _) trivial

/-- The sink of a rotating file, where the description says how it is kept. -/
theorem makes_rotating (h : w.Fresh base) {r : Rotation}
    (hkind : standard.factory? spec.kind = some .rotatingFile) (hr : spec.rotation? = some r) :
    Makes base (r.fault? = none)
      (fun e => ∃ g, e = .fault g ∧ (r.fault? = some g ∨ spec.Unopened w.disk g))
      (w.addRotating r none) := by
  have hanswer := rotating_answers r w.disk
  unfold Network.addRotating
  rcases hnew : RotatingFile.newWithAge r none w.disk with ⟨f | x, d⟩
  · rw [hnew] at hanswer
    refine Network.makes_notAdded (h.disk d) ⟨f, rfl, hanswer.imp_right ?_⟩
    rintro ⟨hrange, hunnamed | ⟨p, d', hname, hopen⟩⟩
    · exact .unnamed hkind hr hrange hunnamed
    · exact .rotating hkind hr hrange hname hopen
  · rw [hnew] at hanswer
    exact Network.makes_added (h.disk d) trivial (List.forall_mem_nil _) hanswer

/-- The sink of a description by itself. -/
theorem makes_kind {f : Factory} (hf : standard.factory? spec.kind = some f) (h : w.Fresh base) :
    Makes base (f.fault? spec = none)
      (fun e => ∃ g, e = .fault g ∧ (f.fault? spec = some g ∨ spec.Unopened w.disk g))
      (make f spec w) := by
  rcases standard_cases hf with ⟨s, rfl⟩ | rfl | rfl
  · exact Network.makes_added h (c := .console { stream := s }) trivial (List.forall_mem_nil _) rfl
  · cases hpath : spec.path with
    | none =>
      simp only [make, Factory.fault?, hpath]
      exact makes_error h ⟨_, rfl, .inl rfl⟩
    | some p =>
      simp only [make, Factory.fault?, hpath]
      refine (makes_file h (.ofText p)).mono (fun _ => rfl) fun e ⟨g, he, hg⟩ => ⟨g, he, .inr ?_⟩
      exact .file hf hpath hg
  · cases hrotation : spec.rotation with
    | some r =>
      simp only [make, Factory.fault?, hrotation]
      exact makes_rotating h hf (by rw [SinkSpec.rotation?, hrotation, Option.some_or])
    | none =>
      cases hpath : spec.path with
      | some p =>
        simp only [make, Factory.fault?, hrotation, hpath]
        exact makes_rotating h hf (by rw [SinkSpec.rotation?, hrotation, hpath]; rfl)
      | none =>
        simp only [make, Factory.fault?, hrotation, hpath]
        exact makes_error h ⟨_, rfl, .inl rfl⟩

/-- **One description**: what becomes of it, and what is left over if nothing is built. -/
theorem makes_build (h : w.Fresh base) (program : List SinkId) (spec : SinkSpec) :
    Makes base spec.InRange (spec.Rejected w.disk) (standard.build program spec w) := by
  unfold build
  cases hf : standard.factory? spec.kind with
  | none => exact makes_error h (.unknown hf)
  | some f =>
    have hkind := makes_kind hf h
    dsimp only
    rcases hmake : make f spec w with ⟨e | id, w'⟩
    · rw [hmake] at hkind
      obtain ⟨g, rfl, hg | hg⟩ := hkind.failed e rfl
      · refine makes_error hkind.fresh (.refused (by simp [hf]) ?_)
        rw [SinkSpec.fault?, hf, Option.bind_some, hg, Option.some_or]
      · exact makes_error hkind.fresh (.unopened hg)
    · rw [hmake] at hkind
      obtain ⟨hid, hfault⟩ := hkind.made id rfl
      exact Network.makes_wrap hkind.fresh hid program hf hfault w.disk

/-- Several descriptions: those before the first one that cannot be built are built and given up. -/
theorem buildEach_answers (program : List SinkId) (specs : List SinkSpec) (made : List SinkId)
    (h : w.Fresh base) (hmade : ∀ id ∈ made, base ≤ id) :
    match (standard.buildEach program specs made w).1 with
    | .ok ids => ids.length = made.length + specs.length ∧ ∀ spec ∈ specs, spec.InRange
    | .error e => ∃ before spec after, specs = before ++ spec :: after ∧
        (∀ spec ∈ before, spec.InRange) ∧
          spec.Rejected (standard.buildEach program before made w).2.disk e := by
  induction specs generalizing made w with
  | nil => exact ⟨rfl, List.forall_mem_nil _⟩
  | cons spec rest ih =>
    have hbuild := makes_build h (program ++ made) spec
    rw [buildEach]
    rcases hbuilt : standard.build (program ++ made) spec w with ⟨e | id, w'⟩
    · rw [hbuilt] at hbuild
      obtain ⟨hanswer, -⟩ := hbuild.fresh.makeNone (α := List SinkId) program made hmade e
      dsimp only
      rw [hanswer]
      exact ⟨[], spec, rest, rfl, List.forall_mem_nil _, hbuild.failed e rfl⟩
    · rw [hbuilt] at hbuild
      obtain ⟨hid, hgood⟩ := hbuild.made id rfl
      have hrest := ih (made ++ [id]) hbuild.fresh (by
        simpa [or_imp, forall_and] using ⟨hmade, hid⟩)
      dsimp only
      split
      · rename_i ids hids
        rw [hids] at hrest
        refine ⟨?_, List.forall_mem_cons.2 ⟨hgood, hrest.2⟩⟩
        simp only [hrest.1, List.length_append, List.length_cons, List.length_nil]
        omega
      · rename_i e he
        rw [he] at hrest
        obtain ⟨before, bad, after, rfl, hbefore, hbad⟩ := hrest
        refine ⟨spec :: before, bad, after, rfl, List.forall_mem_cons.2 ⟨hgood, hbefore⟩, ?_⟩
        -- the disk is that which the descriptions in front leave, this one the first of them
        rwa [buildEach, hbuilt]

theorem verdict_build (program : List SinkId) (w : Network) (spec : SinkSpec) :
    Verdict program w [spec] (standard.build program spec w).1 := by
  have hbuild := makes_build (Network.fresh_start w) program spec
  cases hanswer : (standard.build program spec w).1 with
  | ok id => exact .built id (by simp) (by simpa using (hbuild.made id hanswer).2)
  | error e =>
    have hfirst : [spec] = [] ++ spec :: [] := rfl
    exact .rejected hfirst (List.forall_mem_nil _) (hbuild.failed e hanswer)

theorem verdict_buildAll (program : List SinkId) (w : Network) (specs : List SinkSpec) :
    Verdict program w specs (standard.buildAll program specs w).1 := by
  have heach := buildEach_answers program specs [] (Network.fresh_start w) (List.forall_mem_nil _)
  unfold buildAll
  rcases hbuilt : standard.buildEach program specs [] w with ⟨e | ids, w'⟩
  · rw [hbuilt] at heach
    obtain ⟨before, spec, after, hspecs, hbefore, hbad⟩ := heach
    exact .rejected hspecs hbefore hbad
  · rw [hbuilt] at heach
    obtain ⟨hlength, hgood⟩ := heach
    rcases ids with _ | ⟨id, _ | ⟨id', rest⟩⟩
    · exact .nothing (List.length_eq_zero_iff.1 (by simpa using hlength.symm))
    · exact .built id (fun hnil => by simp [hnil] at hlength) hgood
    · exact .built _ (fun hnil => by simp [hnil] at hlength) hgood

/-- **A setting out of range is refused** as a wrong configuration, if the file can be opened and no
size is too large. -/
theorem build_refuses {f : Fault} (program : List SinkId) (w : Network)
    (hkind : standard.factory? spec.kind ≠ none) (hfault : spec.fault? = some f)
    (hopens : ∀ g, ¬ spec.Unopened w.disk g) (hsize : ¬ spec.Oversized) :
    (standard.build program spec w).1 = .error (.fault f) ∧
      ∃ component detail, f = .configuration component detail := by
  have hbuild := makes_build (Network.fresh_start w) program spec
  refine ⟨?_, spec.fault?_configuration hfault⟩
  cases hanswer : (standard.build program spec w).1 with
  | ok id => exact absurd (hfault.symm.trans (hbuild.made id hanswer).2.1) (by simp)
  | error e =>
    cases hbuild.failed e hanswer with
    | unknown h => exact absurd h hkind
    | refused _ h =>
      obtain rfl := Option.some_inj.1 (hfault.symm.trans h)
      rfl
    | unopened h => exact absurd h (hopens _)
    | brokeOff h => exact absurd h hsize

/-- **What becomes of descriptions**, whatever sinks there are already and whichever of them the
program holds: a description by itself, and a list of descriptions behind one sink. A setting out of
range is refused as a wrong configuration wherever nothing else stands in the way. -/
theorem build_verdict (program : List SinkId) (w : Network) :
    (∀ spec, Verdict program w [spec] (standard.build program spec w).1) ∧
      (∀ specs, Verdict program w specs (standard.buildAll program specs w).1) ∧
      ∀ (spec : SinkSpec) (f : Fault), standard.factory? spec.kind ≠ none →
        spec.fault? = some f → (∀ g, ¬ spec.Unopened w.disk g) → ¬ spec.Oversized →
          (standard.build program spec w).1 = .error (.fault f) ∧
            ∃ component detail, f = .configuration component detail :=
  ⟨verdict_build program w, verdict_buildAll program w,
    fun _ _ hkind hfault hopens hsize => build_refuses program w hkind hfault hopens hsize⟩

/-- A buffer for as many bytes as a number of 64 bits can count: building the sink breaks off. -/
theorem oversized_breaks_off :
    let spec : SinkSpec := { kind := "stdout", buffer := some ⟨18446744073709551615, 1000⟩ }
    let w : Network := { disk := { nodes := [], files := #[] } }
    spec.Fits ∧
      (standard.build [] spec w).1 = .error (.panic (.message "capacity overflow")) ∧
      (standard.buildAll [] [spec] w).1 = .error (.panic (.message "capacity overflow")) := by
  refine ⟨⟨by simp, fun b hb => ?_, by simp⟩, rfl, rfl⟩
  cases hb
  exact ⟨by decide, by decide⟩

end Registry

end Logging
