import Logging.Proofs.Rotation.Lasting
import Logging.Proofs.Rotation.Search
import Logging.Proofs.Rotation.Series

/-!
# A rotating file in any directory

The template may give a new name at every time, and anything may stand in the directories that it
leads to. The files of a series keep their bytes as none of them goes by the name of a temporary
file.

* `Regular`: how a series is kept that is cut by size only.
* `Apart`: the files of a series are there, and no temporary file is one of them.
* `Apart.opened`, `Apart.retired`: **opening the next file and retiring the current one leave the
  files of the series as they are.**
* `Packs`: the rotating file and its disk hold what `Chunks` says.
* `Packs.append`, `Packs.flush`, `Packs.rotate`: **writing to the current file, flushing it and
  beginning a new one keep this**, wherever the system lets a new file begin.
-/

namespace Logging.Sink.RotatingFile

open Disk

variable {pol : RotationPolicy} {m z : ℕ} {c : Chunks} {w w' : Writer} {old : List (Path × ℕ)}
  {f : RotatingFile} {d d' : Disk} {compress : Bool} {ns : List ℕ} {here : Location} {x : String}

/-! ## The template -/

/-- **A series that is cut by size only**, whose template gives paths that end with so many `z`s at
all times. -/
structure Regular (pol : RotationPolicy) (m z : ℕ) : Prop where
  bytes : pol.maxBytes = some m
  ageless : pol.maxAgeMillis = none
  expands : ∀ r : Time.Reading, ∃ text,
    Time.fill? pol.template r = some text ∧ (Path.ofText text).marks = z

theorem expandTemplate_regular (hr : Regular pol m z) (d : Disk) :
    ∃ p, expandTemplate pol.template d = (.ok p, d.tick) ∧ p.marks = z := by
  obtain ⟨text, ht, hz⟩ := hr.expands d.tick.reading
  exact ⟨.ofText text, by simp only [expandTemplate, ht], hz⟩

/-- **A template that can be filled in once** gives such paths at all times. -/
theorem expands_always {template text : String} {r : Time.Reading}
    (h : Time.fill? template r = some text) (r' : Time.Reading) :
    ∃ text', Time.fill? template r' = some text' ∧
      (Path.ofText text').marks = (Path.ofText text).marks := by
  obtain ⟨text', ht'⟩ := Time.fill?_isSome r' h
  exact ⟨text', ht', Path.marks_ofText (Time.fill?_marks ht' h)⟩

/-! ## The files of a series -/

/-- **Files of a series on a disk**: they are there, they are different, and where files are
compressed, they go by names of the series only. -/
structure Apart (compress : Bool) (z : ℕ) (ns : List ℕ) (d : Disk) : Prop where
  known : d.Known
  there : ∀ n ∈ ns, n < d.files.size
  distinct : ns.Nodup
  named : compress → ∀ n ∈ ns, ∀ l, d.node? l = some (.file n) →
    ∃ here x, l = here ++ [x] ∧ OfSeries z x

namespace Apart

theorem congr (h : Apart compress z ns d) (hnodes : d'.nodes = d.nodes)
    (hsize : d'.files.size = d.files.size) : Apart compress z ns d' where
  known := fun l k hl => by
    rw [hsize]
    exact h.known l k (by rwa [node?_congr hnodes] at hl)
  there := by rw [hsize]; exact h.there
  distinct := h.distinct
  named := fun hc n hn l hl => h.named hc n hn l (by rwa [node?_congr hnodes] at hl)

/-- **The next file is opened** under a free name of the series: it is one more file, and the others
are as they were. -/
theorem opened {q : Path} (h : Apart compress z ns d) (hfree : d.present q = false)
    (hq : q.Leads here x) (hx : OfSeries z x) (hopen : openLog q d = (.ok w, d')) :
    Apart compress z (ns ++ [w.file]) d' ∧ d'.file w.file = {} ∧
      ∀ n ∈ ns, d'.file n = d.file n := by
  obtain ⟨hnew, hlt, hempty, honly⟩ := openLog_fresh h.known hfree hopen
  have htouch := openLog_touches hopen
  refine ⟨⟨h.known.touches htouch fun _ => False.elim, fun n hn => ?_, ?_, fun hc n hn l hl => ?_⟩,
    hempty, fun n hn => htouch.same n (h.there n hn) id⟩
  · rcases List.mem_append.1 hn with hn | hn
    · exact Nat.lt_of_lt_of_le (h.there n hn) htouch.size
    · rw [List.mem_singleton.1 hn]
      exact hlt
  · rw [List.nodup_append]
    refine ⟨h.distinct, by simp, fun n hn k hk => ?_⟩
    -- the number of the new file is larger than those of the others
    have hn' := h.there n hn
    rw [List.mem_singleton.1 hk, hnew]
    omega
  · rcases List.mem_append.1 hn with hn | hn
    · exact h.named hc n hn l (htouch.name (h.there n hn) id hl)
    · rw [List.mem_singleton.1 hn] at hl
      exact ⟨here, x, by rw [honly l hl, hq.location], hx⟩

/-- **The current file is retired**: no file of the series is touched, as none goes by the name of
the temporary file. -/
theorem retired (h : Apart f.policy.compress z ns d) (hp : f.path.Leads here x) (hx : OfSeries z x)
    (next : Path) (w : Writer) : Apart f.policy.compress z ns (f.retire next w d).2.2 ∧
      ∀ n ∈ ns, (f.retire next w d).2.2.file n = d.file n := by
  have htouch := f.retire_touches next w d
  have hspared : ∀ n ∈ ns, ¬ (f.policy.compress ∧ d.At (temporaryPath f.path) n) := by
    rintro n hn ⟨hc, hat⟩
    obtain ⟨here', y, hl, hy⟩ := h.named hc n hn _ hat
    rw [temporaryPath, (temporary_leads hp).location] at hl
    obtain ⟨-, hlast⟩ := List.append_inj' hl rfl
    rw [List.cons.injEq] at hlast
    exact temporary_not_ofSeries hx (hlast.1 ▸ hy)
  have hknown : (f.retire next w d).2.2.Known :=
    h.known.touches htouch fun k hk => h.known _ k hk.2
  exact ⟨⟨hknown, fun n hn => Nat.lt_of_lt_of_le (h.there n hn) htouch.size, h.distinct,
    fun hc n hn l hl => h.named hc n hn l (htouch.name (h.there n hn) (hspared n hn) hl)⟩,
    fun n hn => htouch.same n (h.there n hn) (hspared n hn)⟩

end Apart

/-! ## What a rotating file holds -/

/-- The numbers of the files of a series. -/
def numbers (old : List (Path × ℕ)) (w : Writer) : List ℕ := old.map Prod.snd ++ [w.file]

theorem mem_numbers (w : Writer) (old : List (Path × ℕ)) : w.file ∈ numbers old w :=
  List.mem_append_right _ List.mem_cons_self

theorem old_mem_numbers (w : Writer) {e : Path × ℕ} (he : e ∈ old) : e.2 ∈ numbers old w :=
  List.mem_append_left _ (List.mem_map_of_mem he)

/-- **The rotating file holds what the files of its series have received**, in any directory: `c` is
what they have received, `w` the writer of the current one, and `old` are the full ones. -/
structure Packs (pol : RotationPolicy) (z : ℕ) (c : Chunks) (w : Writer) (old : List (Path × ℕ))
    (f : RotatingFile) (d : Disk) : Prop where
  policy : f.policy = pol
  isOpen : f.closed = false
  writer : f.writer = some w
  written : f.written = c.current.size
  path : ∃ here x, f.path.Leads here x ∧ OfSeries z x
  room : (d.file w.file).full = false
  total : (w.total d).unpacked = c.current
  contents : old.map (fun e => (d.file e.2).contents.unpacked) = c.full
  files : Apart pol.compress z (numbers old w) d

namespace Packs

theorem takes (h : Packs pol z c w old f d) : d.Takes w.file :=
  ⟨h.files.there _ (mem_numbers w old), h.room⟩

/-- The full files are not the current one. -/
theorem old_ne (h : Packs pol z c w old f d) {e : Path × ℕ} (he : e ∈ old) : e.2 ≠ w.file := by
  have hd := h.files.distinct
  rw [numbers, List.nodup_append] at hd
  exact hd.2.2 _ (List.mem_map_of_mem he) _ List.mem_cons_self

/-- Something happens in the current file only. -/
theorem congr (h : Packs pol z c w old f d) {c' : Chunks} {n : ℕ} (hfull : c'.full = c.full)
    (hw : w'.file = w.file) (ho : Only w.file d d') (ht : d'.Takes w.file)
    (hn : n = c'.current.size) (htotal : (w'.total d').unpacked = c'.current) :
    Packs pol z c' w' old { f with writer := some w', written := n } d' where
  policy := h.policy
  isOpen := h.isOpen
  writer := rfl
  written := hn
  path := h.path
  room := by rw [hw]; exact ht.room
  total := htotal
  contents := by
    rw [hfull, ← h.contents]
    exact List.map_congr_left fun e he => by rw [ho.others _ (h.old_ne he)]
  files := by rw [numbers, hw]; exact h.files.congr ho.nodes ho.size

/-- **A payload is written** to the current file. -/
theorem append (h : Packs pol z c w old f d) (b : ByteArray) : ∃ w' f' d',
    f.append b d = (.ok (), f', d') ∧ w'.file = w.file ∧ f'.path = f.path ∧
      Packs pol z { c with current := c.current ++ b } w' old f' d' := by
  obtain ⟨w', d', hw, hfile, ho, ht, htotal⟩ := Writer.write_works h.takes b
  refine ⟨w', { f with writer := some w', written := f.written + b.size }, d',
    by simp only [RotatingFile.append, h.writer, hw], hfile, rfl, h.congr rfl hfile ho ht ?_ ?_⟩
  · simp [h.written]
  · rw [htotal, unpacked_followed, h.total]

/-- **The current file is flushed.** -/
theorem flush (h : Packs pol z c w old f d) : ∃ f' d',
    f.flushWriter d = (.ok (), f', d') ∧ f'.path = f.path ∧
      (d'.file w.file).contents.unpacked = c.current ∧
      Packs pol z c { w with pending := .empty } old f' d' := by
  obtain ⟨d', hw, ho, ht, htotal⟩ := Writer.flush_works h.takes
  have hcont : (d'.file w.file).contents.unpacked = c.current := by rw [htotal, h.total]
  refine ⟨{ f with writer := some { w with pending := .empty } }, d',
    by simp only [flushWriter, h.writer, hw], rfl, hcont, h.congr rfl rfl ho ht h.written ?_⟩
  rw [Writer.total, Contents.followed_empty]
  exact hcont

/-- Time passes. -/
theorem still (h : Packs pol z c w old f d) (hfiles : d'.files = d.files)
    (hnodes : d'.nodes = d.nodes) : Packs pol z c w old f d' := by
  have hfile : ∀ n, d'.file n = d.file n := fun n => by simp [Disk.file, hfiles]
  exact
    { policy := h.policy, isOpen := h.isOpen, writer := h.writer, written := h.written
      path := h.path
      room := by rw [hfile]; exact h.room
      total := by rw [Writer.total, hfile]; exact h.total
      contents := by simpa only [hfile] using h.contents
      files := h.files.congr hnodes (by rw [hfiles]) }

/-- Whether a new file is due depends on the sizes only. -/
theorem isDue_eq (h : Packs pol z c w old f d) (hr : Regular pol m z) (n : ℕ) :
    f.isDue n d = c.crowded (some m) n := by
  have hold : f.isOld d = false := by simp [isOld, h.policy, hr.ageless]
  simp [isDue, isCrowded, Chunks.crowded, hold, h.policy, h.written, hr.bytes]

end Packs

/-! ## The next file -/

/-- **The system lets a new file begin**: once the current one is written out, some name is free and
the file of the name that is found can be opened. -/
def Serves (f : RotatingFile) (d : Disk) : Prop :=
  ∀ f₁ d₁ p d₂, f.flushWriter d = (.ok (), f₁, d₁) →
    expandTemplate f.policy.template d₁ = (.ok p, d₂) →
      f₁.HasName d₂ p ∧ ∃ w d₃, openLog (f₁.nextPath d₂ p).1 d₂ = (.ok w, d₃)

/-- What the system does shows whether it lets a new file begin. -/
theorem serves_of {f₁ : RotatingFile} {d₁ d₂ d₃ : Disk} {p : Path}
    (hflush : f.flushWriter d = (.ok (), f₁, d₁))
    (hexpand : expandTemplate f.policy.template d₁ = (.ok p, d₂)) (hname : f₁.HasName d₂ p)
    (hopen : openLog (f₁.nextPath d₂ p).1 d₂ = (.ok w, d₃)) : f.Serves d := by
  intro f₁' d₁' p' d₂' hflush' hexpand'
  rw [hflush] at hflush'
  cases hflush'
  rw [hexpand] at hexpand'
  cases hexpand'
  exact ⟨hname, w, d₃, hopen⟩

/-- What a rotating file has come to once the current file was retired. -/
theorem retire_fields (f : RotatingFile) (next : Path) (w : Writer) (d : Disk) :
    (f.retire next w d).1.policy = f.policy ∧ (f.retire next w d).1.closed = f.closed ∧
      (f.retire next w d).1.path = next ∧ (f.retire next w d).1.writer = some w ∧
      (f.retire next w d).1.written = d.size w.file :=
  ⟨rfl, rfl, rfl, rfl, rfl⟩

/-- **A new file begins**: the current one becomes a full one. -/
theorem Packs.rotate (h : Packs pol z c w old f d) (hr : Regular pol m z) (hs : f.Serves d) :
    ∃ w' f' lines d', f.rotate d = (.ok (), f', lines, d') ∧
      Packs pol z ⟨c.full ++ [c.current], .empty⟩ w' (old ++ [(f.path, w.file)]) f' d' := by
  -- first what is kept back goes to the full file
  obtain ⟨f₁, d₁, hflush, hpath₁, hcont₁, h₁⟩ := h.flush
  obtain ⟨p, hexpand, hp⟩ := expandTemplate_regular hr d₁
  have h₂ : Packs pol z c { w with pending := .empty } old f₁ d₁.tick := h₁.still rfl rfl
  -- then a free name is found, and the file of that name is new
  obtain ⟨hname, w', d₃, hopen⟩ := hs f₁ d₁ p d₁.tick hflush (by rw [h.policy]; exact hexpand)
  obtain ⟨hfree, hnext⟩ := nextPath_free hname
  have habsent : d₁.tick.present (f₁.nextPath d₁.tick p).1 = false := by
    simp only [isTaken, Bool.or_eq_false_iff] at hfree
    exact hfree.1
  obtain ⟨hends, hpending, -⟩ := openLog_any hopen
  obtain ⟨here, x, hleads, hx⟩ := next_ofSeries hnext hends
  rw [hp] at hx
  obtain ⟨hfiles₃, hempty₃, hsame₃⟩ := h₂.files.opened habsent hleads hx hopen
  -- and last the full file is retired
  have hrotate := rotate_eq hflush (by rw [h₁.policy]; exact hexpand) hopen
  obtain ⟨base, index, hkeeps⟩ := nextPath_keeps f₁ d₁.tick p
  set f₂ := (f₁.nextPath d₁.tick p).2
  set next := (f₁.nextPath d₁.tick p).1
  have hpolicy₂ : f₂.policy = pol := by rw [hkeeps]; exact h₁.policy
  have hclosed₂ : f₂.closed = false := by rw [hkeeps]; exact h₁.isOpen
  obtain ⟨here', x', hleads', hx'⟩ : ∃ here x, f₂.path.Leads here x ∧ OfSeries z x := by
    rw [hkeeps]
    exact h₁.path
  obtain ⟨hfiles₄, hsame₄⟩ :=
    Apart.retired (f := f₂) (by rw [hpolicy₂]; exact hfiles₃) hleads' hx' next w'
  obtain ⟨hpolicy, hclosed, hpath, hwriter, hwritten⟩ := f₂.retire_fields next w' d₃
  rcases hretire : f₂.retire next w' d₃ with ⟨f', lines, d'⟩
  rw [hretire] at hrotate hfiles₄ hsame₄ hpolicy hclosed hpath hwriter hwritten
  have hsame : ∀ n ∈ numbers old w, d'.file n = d₁.file n := by
    intro n hn
    rw [hsame₄ n (List.mem_append_left _ hn), hsame₃ n hn]
    rfl
  have hnew : d'.file w'.file = {} := by
    rw [hsame₄ _ (List.mem_append_right _ List.mem_cons_self), hempty₃]
  refine ⟨w', f', lines, d', hrotate, ?_⟩
  exact
    { policy := hpolicy.trans hpolicy₂, isOpen := hclosed.trans hclosed₂, writer := hwriter
      written := by
        rw [hwritten, Disk.size, hempty₃]
        rfl
      path := ⟨here, x, by rw [hpath]; exact hleads, hx⟩
      room := by rw [hnew]
      total := by
        rw [Writer.total, hnew, hpending]
        rfl
      contents := by
        rw [List.map_append, ← h₁.contents, List.map_singleton, hsame _ (mem_numbers w old), hcont₁]
        exact congrArg (· ++ _)
          (List.map_congr_left fun e he => by rw [hsame _ (old_mem_numbers w he)])
      files := by
        rw [hpolicy₂] at hfiles₄
        rw [numbers, List.map_append]
        exact hfiles₄ }

end Logging.Sink.RotatingFile
