import Logging.Proofs.Rotation.Archive

/-!
# Rotating files, one after the other

The next program goes on with the files that the last one has left: it appends to the first file of
the series, which gets its compressed form when it is full.

* `Life`: a rotating file that is opened, used and closed; `lives`: several of them.
* `new_fills`, `close_retains`: what opening and closing do.
* `Life.goes_on`: a lifetime leaves everything stored, if it finds the name of the first compressed
  form free, or stays with the first file.
* `archives_kept`: **so do any number of lifetimes, one after the other.**
* `archives_replaced`: without this, the second lifetime destroys what the first has archived.
-/

namespace Logging.Sink

open Disk RotatingFile Function

variable {p : Path} {here : Location} {name : String} {i : ℕ} {w : Writer} {f : RotatingFile}
  {d d' : Disk} {b : ByteArray}

/-! ## Opening and closing -/

/-- **A rotating file that was just opened** writes to the first file of its series. If it cannot be
opened, everything is as it was. -/
theorem new_fills {settings : Settings.Rotation} (hp : p.Leads here name)
    (hconstant : ∀ t, ∃ text, Time.fill? settings.template t = some text ∧
      .ofText text = p)
    (hcompress : settings.compress = true) (hall : settings.maxBackups = none)
    (ht : Tidy here name d) :
    (∃ e d', RotatingFile.new settings d = (.error e, d') ∧ d'.files = d.files ∧
      d'.entry here = d.entry here) ∨
    ∃ f w d', RotatingFile.new settings d = (.ok f, d') ∧ Fills p here name 0 w f d' ∧
      Retains here nothing d w.back d' ∧ (Clear here name 0 d → Clear here name 0 d') := by
  unfold RotatingFile.new
  split
  · exact .inl ⟨_, d, rfl, rfl, rfl⟩
  rw [expandTemplate_constant hconstant d]
  dsimp only
  have hfills : ∀ {w : Writer} {d' : Disk} {n : ℕ} {pol : RotationPolicy},
      pol = ⟨settings.template, settings.maxBytes, settings.maxAgeSeconds.map (· * 1000),
        settings.maxBackups, settings.compress⟩ →
      d'.entry here name = some w.file → Tidy here name d' →
        Fills p here name 0 w
          { policy := pol, writer := some w, path := p, written := n, base := p } d' := by
    rintro w d' n pol rfl hentry htidy
    exact
      { constant := hconstant, compress := hcompress, keepsAll := hall, base := rfl, isOpen := rfl
        index := Nat.one_pos, writer := rfl, path := rfl, current := hentry, tidy := htidy }
  rcases openLog_cases hp d.tick with ⟨e, d', hopen, hfiles, hentry⟩ |
    ⟨w, d', hopen, hback, ⟨hthere, hfiles, hentry⟩ | ⟨hnode, hnew, hfiles, hentry⟩⟩
  · rw [hopen]
    exact .inl ⟨e, d', rfl, hfiles, hentry⟩
  · -- the first file is there
    rw [hopen]
    have hext : Extends d d' := extends_of_files hfiles
    refine .inr ⟨_, w, d', rfl, hfills rfl (by rw [hentry]; exact hthere) (ht.congr hentry hext), ?_,
      clear_congr hentry⟩
    rw [Writer.back_empty hback]
    exact ht.retains hentry hext
  · -- the first file is new
    rw [hopen]
    have habsent : d.entry here (seriesName name 0) = none := by
      rw [hp.location] at hnode
      exact entry_of_absent hnode
    obtain ⟨htidy, hretains⟩ := ht.opened (i := 0) hp.1 hfiles habsent (by rw [hentry, hnew]; rfl)
    refine .inr ⟨_, w, d', rfl, hfills rfl (by rw [hentry, update_self]) htidy, ?_, fun hc => ?_⟩
    · rw [Writer.back_empty hback]
      exact hretains
    · have hne : seriesName name 0 ++ ".gz" ≠ name := packed_ne (j := 0) hp.1
      unfold Clear
      rw [hentry, update_of_ne hne]
      exact hc

/-- **A rotating file that is closed** keeps nothing back. -/
theorem close_retains {r : Recorded} (h : Fills p here name i w r.sink r.disk) :
    Tidy here name r.close.disk ∧ Retains here w.back r.disk nothing r.close.disk := by
  obtain ⟨w', d', hback, hflush, h', -, hretains, -⟩ := h.flush
  have hdisk : r.close.disk = d' := by
    simp only [Recorded.close, RotatingFile.close, h.isOpen, RotatingFile.flush, hflush,
      Bool.false_eq_true, if_false]
  rw [hdisk, ← Writer.back_empty hback]
  exact ⟨h'.tidy, hretains⟩

/-! ## Lifetimes -/

/-- A rotating file that is opened with these settings, used, and closed. -/
structure Life where
  settings : Settings.Rotation
  uses : List Use

namespace Life

def after (l : Life) (d : Disk) : Disk :=
  match RotatingFile.new l.settings d with
  | (.ok f, d) => ((Recorded.start f d).run l.uses).close.disk
  | (.error _, d) => d

def accepted (l : Life) (d : Disk) : List ByteArray :=
  match RotatingFile.new l.settings d with
  | (.ok f, d) => (Recorded.start f d).accepted l.uses
  | (.error _, _) => []

/-- **A lifetime that compresses what is full and removes nothing.** Its template gives the same
path at every time, and its operations return. -/
structure Compresses (p : Path) (l : Life) (d : Disk) : Prop where
  constant : ∀ t, ∃ text, Time.fill? l.settings.template t = some text ∧
    .ofText text = p
  compress : l.settings.compress = true
  keepsAll : l.settings.maxBackups = none
  returns : ∀ f d', RotatingFile.new l.settings d = (.ok f, d') →
    (Recorded.start f d').Returns l.uses

/-- **The first compressed form replaces no file**: none has its name when the rotating file is
opened, or the first file of the series stays the current one to the end. -/
def Spares (p : Path) (l : Life) (d : Disk) : Prop :=
  (∀ n, d.node? (packedPath p).location ≠ some (.file n)) ∨
    ∀ f d', RotatingFile.new l.settings d = (.ok f, d') →
      ((Recorded.start f d').run l.uses).sink.path = p

variable {l : Life}

theorem eq_zero_of_seriesPath (hp : p.Leads here name) (h : seriesPath p i = p) : i = 0 := by
  have hlocation := (seriesPath_leads hp i).location
  rw [h, hp.location, List.append_cancel_left_eq, List.cons.injEq] at hlocation
  exact (seriesName_inj (i := 0) hp.1 hlocation.1).symm

/-- **A lifetime leaves everything stored**, and what it accepts as well. -/
theorem goes_on (hp : p.Leads here name) (ht : Tidy here name d) (hl : l.Compresses p d)
    (hs : l.Spares p d) : Tidy here name (l.after d) ∧
      Retains here nothing d nothing (l.after d) ∧
        ∀ b ∈ l.accepted d, Stored here nothing (l.after d) b := by
  unfold after accepted
  rcases new_fills hp hl.constant hl.compress hl.keepsAll ht with ⟨e, d', hnew, hfiles, hentry⟩ |
    ⟨f, w, d₁, hnew, h₁, hretains₁, hclear₁⟩
  · have hext : Extends d d' := extends_of_files hfiles
    rw [hnew]
    exact ⟨ht.congr hentry hext, ht.retains hentry hext, by simp⟩
  · obtain ⟨j, w', h₂, hgoes⟩ :=
      Recorded.run_goes hp l.uses (Recorded.start f d₁) 0 w h₁ (hl.returns f d₁ hnew)
    obtain ⟨htidy, hretains₂⟩ := close_retains h₂
    -- either the name was free from the beginning on, or the first file has stayed the current one
    have hspared : j = 0 ∨ Clear here name 0 d₁ := by
      rcases hs with hfree | hfirst
      · right
        refine hclear₁ ?_
        unfold Clear
        cases hx : d.entry here (seriesName name 0 ++ ".gz") with
        | none => rfl
        | some n =>
          have hleads : (packedPath p).Leads here (seriesName name 0 ++ ".gz") := packed_leads hp
          rw [entry_eq_some, ← hleads.location] at hx
          exact absurd hx (hfree n)
      · left
        have hpath := hfirst f d₁ hnew
        rw [h₂.path] at hpath
        exact eq_zero_of_seriesPath hp hpath
    rw [hnew]
    refine ⟨htidy, hretains₁.trans ((hgoes.retains hspared).trans hretains₂), fun b hb => ?_⟩
    exact hretains₂ b (hgoes.stored hspared b hb)

end Life

/-- **Several lifetimes, one after the other**: the payloads that they accept, and the disk
afterwards. -/
def lives : List Life → Disk → List ByteArray × Disk
  | [], d => ([], d)
  | l :: ls, d =>
    let (bs, d') := lives ls (l.after d)
    (l.accepted d ++ bs, d')

/-- Each of several lifetimes is like that on the disk that it finds. -/
def Throughout (P : Life → Disk → Prop) : List Life → Disk → Prop
  | [], _ => True
  | l :: ls, d => P l d ∧ Throughout P ls (l.after d)

/-- **Archives are kept over any number of lifetimes**: whatever a file of the directory held before
the first one, and whatever any of them has accepted, stands in some file of the directory after the
last one. A compressed file counts by what it is unpacked. -/
theorem archives_kept (hp : p.Leads here name) : ∀ (ls : List Life) (d : Disk),
    Tidy here name d → Throughout (Life.Compresses p) ls d → Throughout (Life.Spares p) ls d →
      (∀ b, Stored here nothing d b → Stored here nothing (lives ls d).2 b) ∧
        ∀ b ∈ (lives ls d).1, Stored here nothing (lives ls d).2 b := by
  intro ls
  induction ls with
  | nil =>
    intro d _ _ _
    exact ⟨fun b hb => hb, by simp [lives]⟩
  | cons l ls ih =>
    rintro d ht ⟨hl, hls⟩ ⟨hs, hss⟩
    -- what the first lifetime has stored, the later ones find on their disk
    obtain ⟨ht', hretains, hstored⟩ := Life.goes_on hp ht hl hs
    obtain ⟨hrest, hlater⟩ := ih (l.after d) ht' hls hss
    refine ⟨fun b hb => hrest b (hretains b hb), fun b hb => ?_⟩
    rcases List.mem_append.1 hb with hb | hb
    · exact hrest b (hstored b hb)
    · exact hlater b hb

/-! ## With and without a free name -/

/-- Files of four bytes that are compressed. -/
def packedFiles : Settings.Rotation :=
  { template := "log/app.log", maxBytes := some 4, maxBackups := none, compress := true }

theorem compresses_packedFiles {us : List Use} (hnew : RotatingFile.new packedFiles d = (.ok f, d'))
    (hreturns : (Recorded.start f d').Returns us) :
    Life.Compresses (.ofText "log/app.log") ⟨packedFiles, us⟩ d where
  constant t := ⟨"log/app.log",
    Time.fill?_plain (show '%' ∉ "log/app.log".toList by decide) t, rfl⟩
  compress := rfl
  keepsAll := rfl
  returns f₁ d₁ h := by
    rw [hnew] at h
    cases h
    exact hreturns

theorem spares_packedFiles {us : List Use} (hnew : RotatingFile.new packedFiles d = (.ok f, d'))
    (hpath : ((Recorded.start f d').run us).sink.path = .ofText "log/app.log") :
    Life.Spares (.ofText "log/app.log") ⟨packedFiles, us⟩ d := by
  refine .inr fun f₁ d₁ h => ?_
  rw [hnew] at h
  cases h
  exact hpath

theorem leads_app : (Path.ofText "log/app.log").Leads ["log"] "app.log" :=
  ⟨ordinary_of_length (by decide), ["log"], rfl, rfl⟩

/-- A directory with one file. -/
def oneFile : Disk where
  nodes := [(["log"], .directory), (["log", "app.log"], .file 0)]
  files := #[{ contents := { plain := ⟨#[9]⟩ } }]

theorem tidy_oneFile : Tidy ["log"] "app.log" oneFile := by
  have hentry : ∀ x n, oneFile.entry ["log"] x = some n → x = "app.log" ∧ n = 0 := by
    intro x n hx
    simpa [oneFile] using mem_nodes_of_entry hx
  refine ⟨fun x n hx => ?_, fun i => ?_⟩
  · obtain ⟨rfl, rfl⟩ := hentry x n hx
    exact ⟨by decide, rfl⟩
  · cases hx : oneFile.entry ["log"] (seriesName "app.log" i ++ ".gz" ++ ".tmp") with
    | none => rfl
    | some n => exact absurd (hentry _ n hx).1 (temporary_ne (j := 0) leads_app.1).1

/-- The first lifetime stays with the first file, the second compresses it, and the third writes to a
new first file and stays with it. -/
theorem archives_kept_three_lives :
    let ls : List Life := [⟨packedFiles, [.write ⟨#[1]⟩]⟩,
      ⟨packedFiles, [.write ⟨#[2, 3, 4]⟩, .flush]⟩, ⟨packedFiles, [.write ⟨#[5]⟩]⟩]
    Tidy ["log"] "app.log" oneFile ∧
      Throughout (Life.Compresses (.ofText "log/app.log")) ls oneFile ∧
      Throughout (Life.Spares (.ofText "log/app.log")) ls oneFile ∧
      Stored ["log"] nothing (lives ls oneFile).2 ⟨#[9]⟩ ∧
      ∀ b ∈ [⟨#[1]⟩, ⟨#[2, 3, 4]⟩, ⟨#[5]⟩], Stored ["log"] nothing (lives ls oneFile).2 b := by
  intro ls
  have hcompresses : Throughout (Life.Compresses (.ofText "log/app.log")) ls oneFile :=
    ⟨compresses_packedFiles rfl ⟨fun h => absurd h (by decide), trivial⟩,
      compresses_packedFiles rfl ⟨fun _ => ⟨1, by decide, by decide, by decide⟩, trivial, trivial⟩,
      compresses_packedFiles rfl ⟨fun h => absurd h (by decide), trivial⟩, trivial⟩
  have hspares : Throughout (Life.Spares (.ofText "log/app.log")) ls oneFile :=
    ⟨.inl (by rintro n ⟨⟩), .inl (by rintro n ⟨⟩), spares_packedFiles rfl rfl, trivial⟩
  obtain ⟨hold, hnew⟩ := archives_kept leads_app ls oneFile tidy_oneFile hcompresses hspares
  exact ⟨tidy_oneFile, hcompresses, hspares, hold _ ⟨"app.log", 0, rfl, by decide⟩, hnew⟩

/-- **Where the name is not free, an archive is replaced**: the second lifetime fills the first file
again, and its compressed form replaces the one that the first lifetime has left. -/
theorem archives_replaced :
    ∃ (ls : List Life) (b : ByteArray),
      Tidy ["log"] "app.log" { nodes := [], files := #[] } ∧
      Throughout (Life.Compresses (.ofText "log/app.log")) ls { nodes := [], files := #[] } ∧
      b ∈ (lives ls { nodes := [], files := #[] }).1 ∧
      ¬ Stored ["log"] nothing (lives ls { nodes := [], files := #[] }).2 b := by
  refine ⟨[⟨packedFiles, [.write ⟨#[1, 2]⟩, .write ⟨#[3, 4, 5]⟩]⟩,
    ⟨packedFiles, [.write ⟨#[6, 7]⟩, .write ⟨#[8, 9, 10]⟩]⟩], ⟨#[1, 2]⟩, ?_, ?_,
    List.mem_cons_self, ?_⟩
  · have hentry : ∀ x, ({ nodes := [], files := #[] } : Disk).entry ["log"] x = none := fun _ => rfl
    exact ⟨fun x n hx => by simp [hentry] at hx, fun i => hentry _⟩
  · exact ⟨compresses_packedFiles rfl
        ⟨fun h => absurd h (by decide), fun _ => ⟨1, by decide, by decide, by decide⟩, trivial⟩,
      compresses_packedFiles rfl
        ⟨fun h => absurd h (by decide), fun _ => ⟨2, by decide, by decide, by decide⟩, trivial⟩,
      trivial⟩
  · -- the four names that are left lead to the files 1, 4 and 5, none of which has the bytes
    rintro ⟨x, n, hx, hb⟩
    have hmem : (["log", x], Node.file n) ∈ [(["log"], Node.directory),
        (["log", "app.1.log"], .file 1), (["log", "app.2.log"], .file 4),
        (["log", "app.log.gz"], .file 5)] := mem_nodes_of_entry hx
    have hn : n = 1 ∨ n = 4 ∨ n = 5 := by
      simp at hmem
      omega
    rcases hn with rfl | rfl | rfl <;> exact absurd hb (by decide)

end Logging.Sink
