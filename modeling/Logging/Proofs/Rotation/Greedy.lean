import Logging.Proofs.Rotation.Anywhere
import Logging.Proofs.Rotation.Cutting

/-!
# Files that are cut by size

A rotating file with a largest size and no age limit is written and flushed, whatever the clock says
and whatever its template gives then.

* `Recorded.runAt`: a rotating file that is used at certain times.
* `Recorded.Holds`, `Recorded.begins`: what can be seen of it.
* `Recorded.run_packing`: **whatever is done to it, its files receive what the rule of the sizes
  gives them.**
* `greedy_packing`: **a new file begins before a payload if and only if the current one is not empty
  and would become too large; so every file after the first is small enough or a single payload, and
  no payload is cut.**
-/

namespace Logging.Sink

open Disk RotatingFile

variable {pol : RotationPolicy} {m z : ℕ} {c : Chunks} {r : Recorded}

/-- Something that is done to a rotating file, and what the clock shows then. -/
structure Moment where
  reading : Time.Reading
  use : Use

/-- The payloads that are written. -/
def payloadsAt (us : List Moment) : List ByteArray := payloads (us.map Moment.use)

namespace Recorded

/-- The clock is set. -/
def clock (r : Recorded) (now : Time.Reading) : Recorded :=
  { r with disk := { r.disk with clock := fun _ => now } }

/-- Something is done to the rotating file at some time. -/
def useAt (r : Recorded) (u : Moment) : Recorded := (r.clock u.reading).use u.use

def runAt (r : Recorded) (us : List Moment) : Recorded := us.foldl useAt r

/-- How large the current file is, with what is kept back for it. -/
def currentSize (r : Recorded) : ℕ :=
  match r.sink.writer with
  | some w => r.disk.size w.file + w.pending.size
  | none => 0

/-- Whether another file is opened for this. -/
def begins (r : Recorded) (u : Moment) : Prop := (r.useAt u).opened.length = r.opened.length + 1

/-- The system lets a new file begin, if one is due. -/
def Serves (r : Recorded) : Use → Prop
  | .write b => r.sink.isDue b.size r.disk → r.sink.Serves r.disk
  | .flush => True

/-- It does so all the time. -/
def ServesAll (r : Recorded) : List Moment → Prop
  | [] => True
  | u :: us => (r.clock u.reading).Serves u.use ∧ (r.useAt u).ServesAll us

/-- **What can be seen of a rotating file**: nothing failed, its files are different ones, and in the
order in which they were opened they hold this. -/
structure Holds (c : Chunks) (r : Recorded) : Prop where
  outcomes : ∀ o ∈ r.outcomes, o = .ok ()
  distinct : (r.opened.map Prod.snd).Nodup
  contents : r.opened.map (fun e => (r.disk.file e.2).contents.unpacked) = c.all

/-! ## One use -/

/-- The rotating file holds what its files have received, and nothing has failed. -/
def Packing (pol : RotationPolicy) (z : ℕ) (c : Chunks) (r : Recorded) : Prop :=
  ∃ w old, Packs pol z c w old r.sink r.disk ∧ r.opened = old ++ [(r.sink.path, w.file)] ∧
    ∀ o ∈ r.outcomes, o = .ok ()

/-- The files that were opened are the full ones and the current one. -/
theorem packing_opened (h : r.Packing pol z c) : r.opened.length = c.full.length + 1 := by
  obtain ⟨w, old, hp, hopened, -⟩ := h
  have hlen := congrArg List.length hp.contents
  rw [List.length_map] at hlen
  rw [hopened, List.length_append, hlen]
  rfl

theorem packing_size (h : r.Packing pol z c) : r.currentSize = c.current.size := by
  obtain ⟨w, old, hp, -, -⟩ := h
  have hsize := congrArg ByteArray.size hp.total
  rw [Writer.total, unpacked_followed, ByteArray.size_append] at hsize
  simp only [currentSize, hp.writer]
  exact hsize

theorem packing_clock (h : r.Packing pol z c) (now : Time.Reading) :
    (r.clock now).Packing pol z c := by
  obtain ⟨w, old, hp, hopened, hok⟩ := h
  exact ⟨w, old, hp.still rfl rfl, hopened, hok⟩

/-- **A payload is written.** -/
theorem write_packing (h : r.Packing pol z c) (hr : Regular pol m z) {b : ByteArray}
    (hs : r.Serves (.write b)) : (r.use (.write b)).Packing pol z (c.append (some m) b) := by
  obtain ⟨w, old, hp, hopened, hok⟩ := h
  have hdue := hp.isDue_eq hr b.size
  unfold Chunks.append
  split
  · -- the payload is the first of a new file
    rename_i hcrowded
    rw [hcrowded] at hdue
    obtain ⟨w₁, f₁, lines, d₁, hrotate, h₁⟩ := hp.rotate hr (hs hdue)
    obtain ⟨w₂, f₂, d₂, happend, hfile, hpath, h₂⟩ := h₁.append b
    rw [ByteArray.empty_append] at h₂
    have hwrite := write_rotated hp.isOpen hdue hrotate happend
    have hne : w.file ≠ w₂.file :=
      h₂.old_ne (e := (r.sink.path, w.file)) (List.mem_append_right _ List.mem_cons_self)
    refine ⟨w₂, old ++ [(r.sink.path, w.file)], ?_, ?_, ?_⟩
    · simpa only [use, hwrite] using h₂
    · simp only [use, hwrite, hopened]
      exact listed_new h₂.writer hne
    · simp only [use, hwrite]
      exact all_ok_snoc hok
  · -- there is room for it in the current one
    rename_i hroom
    rw [Bool.not_eq_true] at hroom
    rw [hroom] at hdue
    obtain ⟨w₁, f₁, d₁, happend, hfile, hpath, h₁⟩ := hp.append b
    have hwrite := write_on hp.isOpen hdue happend
    refine ⟨w₁, old, ?_, ?_, ?_⟩
    · simpa only [use, hwrite] using h₁
    · simp only [use, hwrite, hopened]
      rw [← hpath, ← hfile]
      exact listed_same h₁.writer
    · simp only [use, hwrite]
      exact all_ok_snoc hok

theorem flush_packing (h : r.Packing pol z c) : (r.use .flush).Packing pol z c := by
  obtain ⟨w, old, hp, hopened, hok⟩ := h
  obtain ⟨f', d', hflush, hpath, -, h'⟩ := hp.flush
  have hf := flush_ok hflush
  refine ⟨{ w with pending := .empty }, old, ?_, ?_, ?_⟩
  · simpa only [use, hf] using h'
  · simp only [use, hf, hopened]
    rw [← hpath]
    exact listed_same (w := { w with pending := .empty }) h'.writer
  · simp only [use, hf]
    exact all_ok_snoc hok

/-- **Something is done to the rotating file** at some time. -/
theorem useAt_packing (h : r.Packing pol z c) (hr : Regular pol m z) {u : Moment}
    (hs : (r.clock u.reading).Serves u.use) :
    (r.useAt u).Packing pol z (c.appends (some m) (payloadsAt [u])) := by
  have hclock := packing_clock h u.reading
  obtain ⟨now, use⟩ := u
  cases use with
  | write b => exact write_packing hclock hr hs
  | flush => exact flush_packing hclock

/-! ## Many uses -/

theorem appends_cons (c : Chunks) (u : Moment) (us : List Moment) :
    c.appends (some m) (payloadsAt (u :: us)) =
      (c.appends (some m) (payloadsAt [u])).appends (some m) (payloadsAt us) := by
  obtain ⟨now, use⟩ := u
  cases use <;> rfl

/-- **Whatever is done to the rotating file**, its files receive what the rule of the sizes gives
them, as long as the system lets new files begin. -/
theorem run_packing (hr : Regular pol m z) : ∀ (us : List Moment) (c : Chunks) (r : Recorded),
    r.Packing pol z c → r.ServesAll us →
      (r.runAt us).Packing pol z (c.appends (some m) (payloadsAt us)) := by
  intro us
  induction us with
  | nil =>
    intro c r h _
    exact h
  | cons u us ih =>
    intro c r h hs
    rw [appends_cons]
    exact ih _ _ (useAt_packing h hr hs.1) hs.2

/-- The system lets new files begin in the first part of a time, and then in the rest. -/
theorem servesAll_append : ∀ (us vs : List Moment) (r : Recorded), r.ServesAll (us ++ vs) →
    r.ServesAll us ∧ (r.runAt us).ServesAll vs := by
  intro us
  induction us with
  | nil =>
    intro vs r h
    exact ⟨trivial, h⟩
  | cons u us ih =>
    intro vs r h
    obtain ⟨hu, hrest⟩ := h
    obtain ⟨hus, hvs⟩ := ih vs (r.useAt u) hrest
    exact ⟨⟨hu, hus⟩, hvs⟩

/-- **When a new file begins**: if the current one is not empty and would become too large. -/
theorem begins_iff (h : r.Packing pol z c) (hr : Regular pol m z) {now : Time.Reading}
    {b : ByteArray} (hs : (r.clock now).Serves (.write b)) : r.begins ⟨now, .write b⟩ ↔
      0 < r.currentSize ∧ m < r.currentSize + b.size := by
  have hafter := packing_opened (useAt_packing (u := ⟨now, .write b⟩) h hr hs)
  rw [begins, hafter, packing_opened h, packing_size h, ← Chunks.crowded_iff]
  show (c.append (some m) b).full.length + 1 = c.full.length + 1 + 1 ↔ _
  unfold Chunks.append
  cases c.crowded (some m) b.size <;> simp

/-- **A rotating file that is closed** leaves in its files what they have received. -/
theorem close_holds (h : r.Packing pol z c) : r.close.Holds c := by
  obtain ⟨w, old, hp, hopened, hok⟩ := h
  obtain ⟨f', d', hflush, -, hcont, h'⟩ := hp.flush
  have hclose := close_ok hp.isOpen hflush
  refine ⟨?_, ?_, ?_⟩
  · simp only [close, hclose]
    exact all_ok_snoc hok
  · simp only [close, hclose, hopened, List.map_append]
    exact hp.files.distinct
  · simp only [close, hclose, hopened, List.map_append, h'.contents, List.map_cons, List.map_nil,
      hcont]
    rfl

end Recorded

/-! ## From the first file on -/

/-- **A disk on which a series can begin** with that path: every name leads to a file that is there.
If there was a first file before, it takes bytes, and where files are compressed, it goes by no other
name. -/
structure Welcomes (compress : Bool) (p : Path) (d : Disk) : Prop where
  known : d.Known
  room : ∀ n, d.At p n → (d.file n).full = false
  alone : compress → ∀ n, d.At p n → ∀ l, d.node? l = some (.file n) → l = p.location

/-- What the first file held before. -/
def initially (p : Path) (d : Disk) : ByteArray :=
  ((d.contents? p).map Contents.unpacked).getD .empty

section Opening

variable {settings : Settings.Rotation} {d₀ d : Disk} {f : RotatingFile} {p : Path} {w : Writer}

/-- Where nothing stands after directories were made, nothing stood before. -/
theorem absent_before {d₁ : Disk} {l : Location} (h : SameFiles d d₁) (hl : d₁.node? l = none) :
    d.node? l = none := by
  cases hx : d.node? l with
  | none => rfl
  | some x =>
    cases x with
    | directory =>
      rw [h.directories l hx] at hl
      cases hl
    | file n =>
      rw [(h.names l n).2 hx] at hl
      cases hl

/-- **The first file of a series** was there, or is new and empty. -/
theorem first_file {compress : Bool} {here : Location} {x : String} (hd : Welcomes compress p d₀)
    (hopen : openLog p d₀ = (.ok w, d)) (hp : p.Leads here x) (hx : OfSeries z x) :
    (d.file w.file).full = false ∧ (d.file w.file).contents.unpacked = initially p d₀ ∧
      Apart compress z [w.file] d := by
  obtain ⟨-, -, d₁, hsame, ⟨hat, rfl⟩ | ⟨hnone, -, -⟩⟩ := openLog_any hopen
  · have hfile : d.file w.file = d₀.file w.file := by simp [Disk.file, hsame.files]
    refine ⟨by rw [hfile]; exact hd.room _ hat, ?_, ?_⟩
    · have hnode : d₀.node? p.location = some (.file w.file) := hat
      simp [initially, Disk.contents?, Disk.opened, Disk.present, Disk.read, hnode, hp.endsInName,
        Except.toOption, hfile]
    · refine ⟨hd.known.touches hsame.touches fun _ => False.elim, fun n hn => ?_, by simp,
        fun hc n hn l hl => ?_⟩
      · rw [List.mem_singleton.1 hn, hsame.files]
        exact hd.known _ _ hat
      · rw [List.mem_singleton.1 hn] at hl
        have hloc := hd.alone hc _ hat l ((hsame.names l _).1 hl)
        exact ⟨here, x, by rw [hloc, hp.location], hx⟩
  · have hbefore := absent_before hsame hnone
    have hfree : d₀.present p = false := by simp [Disk.present, hbefore]
    have hnothing : Apart compress z [] d₀ :=
      ⟨hd.known, fun n hn => by simp at hn, List.nodup_nil, fun _ n hn => by simp at hn⟩
    obtain ⟨hfiles, hempty, -⟩ := hnothing.opened hfree hp hx hopen
    refine ⟨by rw [hempty], ?_, hfiles⟩
    rw [hempty]
    simp [initially, Disk.contents?, Disk.opened, hbefore, Contents.unpacked]

/-- **A rotating file that was just opened** holds what its first file held before. -/
theorem new_packing (hnew : RotatingFile.new settings d₀ = (.ok f, d))
    (hbytes : settings.maxBytes = some m) (hage : settings.maxAgeSeconds = none)
    (hd : Welcomes settings.compress f.path d₀) : ∃ pol z, Regular pol m z ∧
      (Recorded.start f d).Packing pol z ⟨[], initially f.path d₀⟩ := by
  obtain ⟨text, w, htext, hopen, rfl⟩ := RotatingFile.new_ok hnew
  set p := Path.ofText text with hp
  have hregular : Regular ⟨settings.template, settings.maxBytes,
      settings.maxAgeSeconds.map (· * 1000), settings.maxBackups, settings.compress⟩ m p.marks :=
    ⟨hbytes, by simp [hage], fun now => by rw [hp]; exact expands_always htext now⟩
  -- the first file stands under that name
  obtain ⟨hends, hpending, -⟩ := openLog_any hopen
  obtain ⟨here, x, hleads, hx⟩ := next_ofSeries (q := p) (p := p) (.inl rfl) hends
  have hticked : Welcomes settings.compress p d₀.tick := ⟨hd.known, hd.room, hd.alone⟩
  obtain ⟨hroom, hcont, hfiles⟩ := first_file hticked hopen hleads hx
  have hinit : initially p d₀.tick = initially p d₀ := rfl
  rw [hinit] at hcont
  refine ⟨_, _, hregular, w, [], ?_, by simp [Recorded.start, Recorded.listed],
    by simp [Recorded.start]⟩
  exact
    { policy := rfl, isOpen := rfl, writer := rfl
      written := congrArg ByteArray.size hcont
      path := ⟨here, x, hleads, hx⟩
      room := hroom
      total := by
        rw [Writer.total, hpending, Contents.followed_empty]
        exact hcont
      contents := rfl
      files := hfiles }

end Opening

variable {settings : Settings.Rotation} {d₀ d : Disk} {f : RotatingFile}

/-- **Files are cut by size as the rule says.** A rotating file with a largest size and no age limit
is opened on a file that may hold something, on a disk that may hold anything else, and is written
and flushed at any times. Wherever the system lets new files begin, every operation succeeds, and:

* a new file begins before a payload if and only if the current one is not empty and would become
  larger than it should;
* once the rotating file is closed, its files hold what this rule gives them;
* so every file but the first is no larger than it should be, or is a single payload that is too
  large; no payload is cut; and no file is left that is empty. -/
theorem greedy_packing (us : List Moment) (hnew : RotatingFile.new settings d₀ = (.ok f, d))
    (hbytes : settings.maxBytes = some m) (hage : settings.maxAgeSeconds = none)
    (hd : Welcomes settings.compress f.path d₀) (hs : (Recorded.start f d).ServesAll us) :
    (∀ before now b after, us = before ++ ⟨now, .write b⟩ :: after →
      (((Recorded.start f d).runAt before).begins ⟨now, .write b⟩ ↔
        0 < ((Recorded.start f d).runAt before).currentSize ∧
          m < ((Recorded.start f d).runAt before).currentSize + b.size)) ∧
    ((Recorded.start f d).runAt us).close.Holds
      ((⟨[], initially f.path d₀⟩ : Chunks).appends (some m) (payloadsAt us)) ∧
    Chunks.Greedy m (initially f.path d₀) (payloadsAt us)
      ((⟨[], initially f.path d₀⟩ : Chunks).appends (some m) (payloadsAt us)) := by
  obtain ⟨pol, z, hregular, hpacking⟩ := new_packing hnew hbytes hage hd
  refine ⟨?_, Recorded.close_holds (Recorded.run_packing hregular us _ _ hpacking hs),
    Chunks.appends_greedy _ _ _⟩
  rintro before now b after rfl
  -- the first part of the time leads to where the payload is written
  obtain ⟨hbefore, hrest⟩ := Recorded.servesAll_append _ _ _ hs
  exact Recorded.begins_iff (Recorded.run_packing hregular before _ _ hpacking hbefore) hregular
    hrest.1

/-- Files of four bytes that are compressed, one of which is kept, named for the second in which
they begin. -/
def secondFiles : Settings.Rotation :=
  { template := "log/app-%S.log", maxBytes := some 4, maxBackups := some 1, compress := true }

/-- The first file holds three bytes before. -/
def begunDisk : Disk where
  nodes := [(["log"], .directory), (["log", "app-00.log"], .file 0)]
  files := #[{ contents := { plain := ⟨#[1, 2, 3]⟩ } }]

/-- The rotating file that goes on with it. -/
def begunFile : RotatingFile where
  policy := ⟨"log/app-%S.log", some 4, none, some 1, true⟩
  writer := some { file := 0 }
  path := .ofText "log/app-00.log"
  written := 3
  base := .ofText "log/app-00.log"

/-- A clock at so many seconds, in a zone that is two hours ahead. -/
def secondsIn (n : ℕ) : Time.Reading where
  instant := ⟨n, 0⟩
  ahead := 7200
  whole := Nat.succ_pos _

/-- What is done within two seconds. -/
def twoSeconds : List Moment :=
  [⟨secondsIn 0, .write ⟨#[4]⟩⟩, ⟨secondsIn 0, .write ⟨#[]⟩⟩, ⟨secondsIn 0, .flush⟩,
    ⟨secondsIn 1, .write ⟨#[5, 6, 7, 8, 9]⟩⟩, ⟨secondsIn 1, .flush⟩]

/-- A payload for which there is just room, an empty one, and one that is too large for any file: two
files. -/
theorem greedy_packing_two_seconds :
    RotatingFile.new secondFiles begunDisk = (.ok begunFile, begunDisk.tick) ∧
      Welcomes secondFiles.compress begunFile.path begunDisk ∧
      (Recorded.start begunFile begunDisk.tick).ServesAll twoSeconds ∧
      ((Recorded.start begunFile begunDisk.tick).runAt twoSeconds).close.Holds
        ⟨[⟨#[1, 2, 3, 4]⟩], ⟨#[5, 6, 7, 8, 9]⟩⟩ := by
  have hnew : RotatingFile.new secondFiles begunDisk = (.ok begunFile, begunDisk.tick) := rfl
  have hnode : ∀ l n, begunDisk.node? l = some (.file n) → n = 0 ∧ l = ["log", "app-00.log"] := by
    intro l n hl
    have hne : l ≠ [] := by
      rintro rfl
      cases hl
    simpa [begunDisk, and_comm] using mem_nodes hne hl
  have hd : Welcomes secondFiles.compress begunFile.path begunDisk := by
    refine ⟨fun l n hl => ?_, fun n hn => ?_, fun _ n _ l hl => (hnode l n hl).2⟩
    · rw [(hnode l n hl).1]
      decide
    · rw [(hnode _ n hn).1]
      rfl
  have hs : (Recorded.start begunFile begunDisk.tick).ServesAll twoSeconds := by
    -- the last payload is the only one for which a new file is due, and its name is a new one
    exact ⟨fun h => absurd h (by decide), fun h => absurd h (by decide), trivial,
      fun _ => serves_of rfl rfl (.inl ⟨by decide, by decide⟩) rfl, trivial, trivial⟩
  exact ⟨hnew, hd, hs, (greedy_packing twoSeconds hnew rfl rfl hd hs).2.1⟩

end Logging.Sink
