import Logging.Proofs.Rotation.Packing
import Logging.Proofs.Rotation.Search

/-!
# A rotating file that compresses what is full

The name of a compressed form is used only when the file is full. By then it must still be free, or
what has it is replaced. Of every file but the first this was seen to when its number was chosen.

* `Fills`: the rotating file writes to the file with that number in its series.
* `Goes`: from one moment to a later one everything stays stored, if the compressed form of the first
  file has a name that is free, or if the first file is still the current one.
* `Fills.append`, `Fills.flush`, `Fills.rotate`: what the operations do.
* `run_goes`: **whatever is done to a rotating file, it goes on like this.**
-/

namespace Logging.Sink

open Disk RotatingFile Function

variable {p : Path} {here : Location} {name : String} {i j k : ℕ} {w w' w'' : Writer}
  {f : RotatingFile} {d d' d'' : Disk} {b : ByteArray} {bs bs' : List ByteArray}

namespace RotatingFile

/-- **The rotating file writes to the file with that number** in the series of the path `p`. -/
structure Fills (p : Path) (here : Location) (name : String) (i : ℕ) (w : Writer)
    (f : RotatingFile) (d : Disk) : Prop where
  constant : ∀ t, ∃ text, Time.fill? f.policy.template t = some text ∧ .ofText text = p
  compress : f.policy.compress = true
  keepsAll : f.policy.maxBackups = none
  base : f.base = p
  isOpen : f.closed = false
  index : 0 < f.nextIndex
  writer : f.writer = some w
  path : f.path = seriesPath p i
  current : d.entry here (seriesName name i) = some w.file
  tidy : Tidy here name d

/-- No file has the name of the compressed form of the file with that number. -/
def Clear (here : Location) (name : String) (i : ℕ) (d : Disk) : Prop :=
  d.entry here (seriesName name i ++ ".gz") = none

/-- **From one moment to a later one** everything stays stored, and these payloads are stored as
well, unless the first file is no longer the current one and its compressed form has replaced a
file. -/
structure Goes (here : Location) (name : String) (i : ℕ) (w : Writer) (d : Disk)
    (bs : List ByteArray) (j : ℕ) (w' : Writer) (d' : Disk) : Prop where
  clear : (j = i ∧ (Clear here name i d → Clear here name i d')) ∨
    (j ≠ 0 ∧ Clear here name j d')
  retains : j = 0 ∨ Clear here name i d → Retains here w.back d w'.back d'
  stored : j = 0 ∨ Clear here name i d → ∀ b ∈ bs, Stored here w'.back d' b

theorem Goes.refl (here : Location) (name : String) (i : ℕ) (w : Writer) (d : Disk) :
    Goes here name i w d [] i w d :=
  ⟨.inl ⟨rfl, id⟩, fun _ => .refl here w.back d, fun _ => by simp⟩

theorem Goes.trans (h : Goes here name i w d bs j w' d')
    (h' : Goes here name j w' d' bs' k w'' d'') :
    Goes here name i w d (bs ++ bs') k w'' d'' := by
  -- as long as the first file is the current one it has been so all the time
  have hboth : k = 0 ∨ Clear here name i d →
      (j = 0 ∨ Clear here name i d) ∧ (k = 0 ∨ Clear here name j d') := by
    rintro (hk | hfree)
    · refine ⟨.inl ?_, .inl hk⟩
      rcases h'.clear with ⟨rfl, -⟩ | ⟨hne, -⟩
      · exact hk
      · exact absurd hk hne
    · refine ⟨.inr hfree, .inr ?_⟩
      rcases h.clear with ⟨rfl, hstay⟩ | ⟨-, hnew⟩
      · exact hstay hfree
      · exact hnew
  refine ⟨?_, fun hc => ?_, fun hc b hb => ?_⟩
  · rcases h'.clear with ⟨rfl, hstay'⟩ | hnew'
    · rcases h.clear with ⟨rfl, hstay⟩ | ⟨hne, hnew⟩
      · exact .inl ⟨rfl, fun hfree => hstay' (hstay hfree)⟩
      · exact .inr ⟨hne, hstay' hnew⟩
    · exact .inr hnew'
  · exact (h.retains (hboth hc).1).trans (h'.retains (hboth hc).2)
  · rcases List.mem_append.1 hb with hb | hb
    · exact h'.retains (hboth hc).2 b (h.stored (hboth hc).1 b hb)
    · exact h'.stored (hboth hc).2 b hb

/-! ## Writing to the current file -/

theorem Fills.congr (h : Fills p here name i w f d) {n : ℕ} (hw : w'.file = w.file)
    (ho : Only w.file d d') (ht : d'.Takes w.file) :
    Fills p here name i w' { f with writer := some w', written := n } d' := by
  have hentry := ho.entry here
  refine
    { constant := h.constant, compress := h.compress, keepsAll := h.keepsAll, base := h.base
      isOpen := h.isOpen, index := h.index, writer := rfl, path := h.path
      current := by rw [hentry, hw]; exact h.current
      tidy := ⟨fun x m hx => ?_, fun j => by rw [hentry]; exact h.tidy.noTemporary j⟩ }
  rw [hentry] at hx
  have hold := h.tidy.takes x m hx
  by_cases hm : m = w.file
  · exact hm ▸ ht
  · exact ⟨by rw [ho.size]; exact hold.known, by rw [ho.others m hm]; exact hold.room⟩

theorem Fills.takes (h : Fills p here name i w f d) : d.Takes w.file :=
  h.tidy.takes _ _ h.current

theorem clear_congr (hentry : d'.entry here = d.entry here) (h : Clear here name i d) :
    Clear here name i d' := by
  unfold Clear
  rw [hentry]
  exact h

/-- Neither the files nor their names change. -/
theorem Fills.still (h : Fills p here name i w f d) (hfiles : d'.files = d.files)
    (hentry : d'.entry here = d.entry here) :
    Fills p here name i w f d' ∧ Goes here name i w d [] i w d' := by
  refine ⟨{ h with
    current := by rw [hentry]; exact h.current
    tidy := h.tidy.congr hentry (extends_of_files hfiles) }, .inl ⟨rfl, clear_congr hentry⟩,
    fun _ => ?_, fun _ => by simp⟩
  refine retains_of fun x n hx => ⟨x, n, .empty, by rw [hentry]; exact hx, ?_⟩
  simp [Disk.file, hfiles]

/-- **A payload is written** to the current file. -/
theorem Fills.append (h : Fills p here name i w f d) (b : ByteArray) : ∃ w' f' d',
    f.append b d = (.ok (), f', d') ∧ Fills p here name i w' f' d' ∧
      Goes here name i w d [b] i w' d' := by
  obtain ⟨w', d', hw, hfile, ho, ht, htotal⟩ := Writer.write_works h.takes b
  refine ⟨w', { f with writer := some w', written := f.written + b.size }, d',
    by simp only [RotatingFile.append, h.writer, hw], h.congr hfile ho ht, ?_⟩
  refine ⟨.inl ⟨rfl, clear_congr (ho.entry here)⟩, fun _ => retains_written hfile ho htotal,
    fun _ c hc => ?_⟩
  rw [List.mem_singleton.1 hc]
  exact stored_written h.current hfile ho htotal

/-- **The current file is flushed.** -/
theorem Fills.flush (h : Fills p here name i w f d) : ∃ w' d', w'.pending = .empty ∧
    f.flushWriter d = (.ok (), { f with writer := some w' }, d') ∧
      Fills p here name i w' { f with writer := some w' } d' ∧ d'.nodes = d.nodes ∧
        Retains here w.back d w'.back d' ∧ Goes here name i w d [] i w' d' := by
  obtain ⟨d', hw, ho, ht, hcont⟩ := Writer.flush_works h.takes
  have htotal : ({ w with pending := .empty } : Writer).total d' =
      (w.total d).followed .empty := by
    rw [Contents.followed_empty, ← hcont]
    exact Contents.followed_empty _
  have hretains : Retains here w.back d ({ w with pending := .empty } : Writer).back d' :=
    retains_written rfl ho htotal
  exact ⟨{ w with pending := .empty }, d', rfl, by simp only [flushWriter, h.writer, hw],
    h.congr (n := f.written) rfl ho ht, ho.nodes, hretains,
    .inl ⟨rfl, clear_congr (ho.entry here)⟩, fun _ => hretains, fun _ => by simp⟩

/-! ## The next file -/

/-- A template that gives the same path at every time does so at the next moment. -/
theorem expandTemplate_constant {template : String}
    (h : ∀ t, ∃ text, Time.fill? template t = some text ∧ .ofText text = p)
    (d : Disk) : expandTemplate template d = (.ok p, d.tick) := by
  obtain ⟨text, htext, hpath⟩ := h d.tick.reading
  simp [expandTemplate, htext, hpath]

theorem isTaken_congr {f' : RotatingFile} (hf : f'.policy = f.policy) (hd : d'.nodes = d.nodes)
    (q : Path) : f'.isTaken d' q = f.isTaken d q := by
  simp [isTaken, present, node?_congr hd, hf]

/-- A path that is not taken leads to nothing, and no file has the name of its compressed form. -/
theorem free_of_not_taken {q : Path} {x : String} (hq : q.Leads here x)
    (hc : f.policy.compress = true) (h : f.isTaken d q = false) :
    d.node? q.location = none ∧ d.entry here (x ++ ".gz") = none := by
  have habsent : ∀ (r : Path) (y : String), r.Leads here y → d.present r = false →
      d.node? r.location = none := by
    intro r y hr hpresent
    unfold present at hpresent
    cases hx : d.node? r.location with
    | none => rfl
    | some n => cases n <;> simp [hx, hr.endsInName] at hpresent
  simp only [isTaken, hc, Bool.true_and, Bool.or_eq_false_iff] at h
  have hpacked := habsent _ _ (packed_leads hq) h.2
  rw [(packed_leads hq).location] at hpacked
  exact ⟨habsent q x hq h.1, entry_of_absent hpacked⟩

/-- **A new file begins**, and the one before it is compressed. -/
theorem Fills.retire (hp : p.Leads here name) (h : Fills p here name i w f d)
    (hback : w.pending = .empty) (hk : 0 < k) (hnew : w'.file = d.files.size)
    (hback' : w'.pending = .empty) (hfiles : d'.files = d.files.push {})
    (hentry : d'.entry here = update (d.entry here) (seriesName name k) (some w'.file))
    (habsent : d.entry here (seriesName name k) = none) (hclear : Clear here name k d) :
    ∃ f' lines d'', f.retire (seriesPath p k) w' d' = (f', lines, d'') ∧
      Fills p here name k w' f' d'' ∧ Goes here name i w d [] k w' d'' := by
  -- the new file is another one: the name of the current one is not free
  have hik : seriesName name i ≠ seriesName name k := by
    intro he
    have := h.current
    rw [he, habsent] at this
    cases this
  have hother : ∀ y, y ≠ seriesName name k → d'.entry here y = d.entry here y :=
    fun y hy => by rw [hentry, update_of_ne hy]
  obtain ⟨htidy, hopened⟩ := h.tidy.opened hp.1 hfiles habsent (by rw [hentry, hnew])
  obtain ⟨q, lines, d'', hc, htidy'', hext', hkept, hretains⟩ :=
    htidy.compress hp.1 (seriesPath_leads hp i) (n := w.file)
      (by rw [hother _ hik]; exact h.current)
  have hentryk : d''.entry here (seriesName name k) = some w'.file := by
    rw [hkept _ hik.symm (packed_ne hp.1).symm, hentry, update_self]
  have hcleark : Clear here name k d'' := by
    unfold Clear
    have hne : seriesName name k ++ ".gz" ≠ seriesName name i ++ ".gz" := fun he =>
      hik (congrArg (seriesName name) (packed_inj hp.1 he).symm)
    rw [hkept _ (packed_ne hp.1) hne, hother _ (packed_ne hp.1)]
    exact hclear
  refine ⟨{ f with
    path := seriesPath p k, writer := some w', written := d'.size w'.file
    backups := f.backups ++ [q] }, lines, d'', ?_, ?_, ?_⟩
  · simp only [RotatingFile.retire, h.compress, if_true, h.path, hc, h.keepsAll, List.append_nil]
  · exact
      { constant := h.constant, compress := h.compress, keepsAll := h.keepsAll, base := h.base
        isOpen := h.isOpen, index := h.index, writer := rfl, path := rfl, current := hentryk
        tidy := htidy'' }
  · refine ⟨.inr ⟨Nat.ne_of_gt hk, hcleark⟩, ?_, fun _ => by simp⟩
    rintro (rfl | hfree)
    · exact absurd hk (Nat.lt_irrefl 0)
    · rw [Writer.back_empty hback, Writer.back_empty hback']
      exact hopened.trans (hretains (by rw [hother _ (packed_ne hp.1)]; exact hfree))

/-- **A new file begins where a number is free**; if that fails, the current one goes on. -/
theorem Fills.rotate (hp : p.Leads here name) (h : Fills p here name i w f d)
    (hfree : ∃ k, f.nextIndex ≤ k ∧ k ≤ indexLimit ∧ f.isTaken d (numbered f.base k) = false) :
    ∃ o f' lines d' j w', f.rotate d = (o, f', lines, d') ∧ Fills p here name j w' f' d' ∧
      Goes here name i w d [] j w' d' := by
  obtain rfl : f.base = p := h.base
  obtain ⟨w₁, d₁, hback, hflush, h₁, hnodes, -, hgoes₁⟩ := h.flush
  -- the search goes through the names that were there before
  have htaken : ∀ q, ({ f with writer := some w₁ } : RotatingFile).isTaken d₁.tick q =
      f.isTaken d q := isTaken_congr rfl hnodes
  obtain ⟨k, hpos, hkfree, hnext⟩ := nextPath_finds (f := { f with writer := some w₁ })
    (d := d₁.tick) h.index (by simpa only [htaken] using hfree)
  have htemplate := expandTemplate_constant h.constant d₁
  have hleads := seriesPath_leads hp k
  set f₁ : RotatingFile := { f with
    writer := some w₁, nextIndex := min (k + 1) indexLimit } with hf₁
  have hindex : 0 < min (k + 1) indexLimit := by
    have := Tracks.indexLimit_pos
    omega
  have hticked : Fills f.base here name i w₁ { f with writer := some w₁ } d₁.tick :=
    (h₁.still (show d₁.tick.files = d₁.files from rfl) rfl).1
  have h₂ : Fills f.base here name i w₁ f₁ d₁.tick := { hticked with index := hindex }
  obtain ⟨hnode, hclear⟩ := free_of_not_taken hleads h₁.compress hkfree
  have habsent : d₁.tick.entry here (seriesName name k) = none := by
    rw [hleads.location] at hnode
    exact entry_of_absent hnode
  rcases openLog_cases hleads d₁.tick with ⟨e, d₂, hopen, hfiles₂, hentry₂⟩ |
    ⟨w₂, d₂, hopen, hback₂, ⟨hthere, -⟩ | ⟨-, hnew, hfiles₂, hentry₂⟩⟩
  · -- the new file cannot be opened
    obtain ⟨h₃, hgoes₃⟩ := h₂.still hfiles₂ hentry₂
    refine ⟨.error (.rotation (seriesPath f.base k).text
      ("Failed to create new log file: " ++ e.message)), f₁, [], d₂, i, w₁, ?_, h₃, ?_⟩
    · simp only [RotatingFile.rotate, hflush, htemplate, hnext, hopen]
    · exact hgoes₁.trans ⟨hgoes₃.clear, hgoes₃.retains, hgoes₃.stored⟩
  · rw [habsent] at hthere
    cases hthere
  · obtain ⟨f₃, lines, d₃, hretire, h₃, hgoes₃⟩ :=
      h₂.retire hp hback hpos hnew hback₂ hfiles₂ hentry₂ habsent hclear
    refine ⟨.ok (), f₃, lines, d₃, k, w₂, ?_, h₃, ?_⟩
    · simp only [RotatingFile.rotate, hflush, htemplate, hnext, hopen, hretire]
    · exact hgoes₁.trans ⟨hgoes₃.clear, hgoes₃.retains, hgoes₃.stored⟩

end RotatingFile

/-! ## Whatever is done -/

namespace Recorded

/-- The payload, if the rotating file accepts it. -/
def accepts (r : Recorded) : Use → List ByteArray
  | .write b =>
    match (r.sink.write b r.disk).1 with
    | .ok () => [b]
    | .error _ => []
  | .flush => []

def accepted (r : Recorded) : List Use → List ByteArray
  | [] => []
  | u :: us => r.accepts u ++ (r.use u).accepted us

variable {r : Recorded}

theorem use_goes (hp : p.Leads here name) (h : Fills p here name i w r.sink r.disk) (u : Use)
    (hu : r.Finds u) : ∃ j w', Fills p here name j w' (r.use u).sink (r.use u).disk ∧
      Goes here name i w r.disk (r.accepts u) j w' (r.use u).disk := by
  cases u with
  | flush =>
    obtain ⟨w', d', -, hflush, h', -, -, hgoes⟩ := h.flush
    refine ⟨i, w', ?_⟩
    simp only [use, RotatingFile.flush, hflush, accepts]
    exact ⟨h', hgoes⟩
  | write b =>
    by_cases hdue : r.sink.isDue b.size r.disk
    · -- a rotation that fails costs the payload, but nothing that was accepted
      obtain ⟨o, f₁, lines, d₁, j, w₁, hrotate, h₁, hgoes₁⟩ := h.rotate hp (hu hdue)
      cases o with
      | error e =>
        have hwrite := write_refused h.isOpen hdue hrotate
        refine ⟨j, w₁, ?_⟩
        simp only [use, accepts, hwrite, Outcome.fault]
        exact ⟨h₁, hgoes₁⟩
      | ok v =>
        obtain ⟨w₂, f₂, d₂, happend, h₂, hgoes₂⟩ := h₁.append b
        have hwrite := write_rotated h.isOpen hdue hrotate happend
        refine ⟨j, w₂, ?_⟩
        simp only [use, accepts, hwrite]
        exact ⟨h₂, hgoes₁.trans hgoes₂⟩
    · obtain ⟨w₁, f₁, d₁, happend, h₁, hgoes₁⟩ := h.append b
      have hwrite := write_on h.isOpen (Bool.eq_false_iff.2 hdue) happend
      refine ⟨i, w₁, ?_⟩
      simp only [use, accepts, hwrite]
      exact ⟨h₁, hgoes₁⟩

/-- **Whatever is done to a rotating file**, it goes on like this as long as its operations
return. -/
theorem run_goes (hp : p.Leads here name) : ∀ (us : List Use) (r : Recorded) (i : ℕ) (w : Writer),
    Fills p here name i w r.sink r.disk → r.Returns us →
      ∃ j w', Fills p here name j w' (r.run us).sink (r.run us).disk ∧
        Goes here name i w r.disk (r.accepted us) j w' (r.run us).disk := by
  intro us
  induction us with
  | nil => intro r i w h _; exact ⟨i, w, h, .refl here name i w r.disk⟩
  | cons u us ih =>
    intro r i w h hreturns
    obtain ⟨hu, hus⟩ := hreturns
    obtain ⟨j, w₁, h₁, hgoes₁⟩ := use_goes hp h u hu
    obtain ⟨k, w₂, h₂, hgoes₂⟩ := ih (r.use u) j w₁ h₁ hus
    exact ⟨k, w₂, h₂, hgoes₁.trans hgoes₂⟩

end Recorded

end Logging.Sink
