import Mathlib.Data.List.Nodup
import Logging.Proofs.Rotation.Tracks

/-!
# A rotating file that is used

* `Recorded.Sound`, `Recorded.run_sound`: **whatever is done to a rotating file, it follows its
  series**, and every operation returns as long as the numbers suffice.
* `Recorded.Lossless`, `Recorded.Stands`: what can be seen of it, and of its directory.
* `Recorded.sound_seen`: a rotating file that follows its series looks so, open and closed.
-/

namespace Logging.Sink

open Disk RotatingFile

/-- The last ones of a list, so many at most. -/
def newest {α : Type} (most : Option ℕ) (l : List α) : List α :=
  match most with
  | some n => l.drop (l.length - n)
  | none => l

theorem newest_eq {α : Type} (most : Option ℕ) (l : List α) :
    newest most l = l.drop (lowest most l.length) := by
  cases most <;> rfl

variable {s : Place} {pol : RotationPolicy} {c : Chunks} {r : Recorded}

namespace Recorded

/-- The rotating file follows its series, and nothing has failed. -/
def Sound (s : Place) (pol : RotationPolicy) (c : Chunks) (r : Recorded) : Prop :=
  ∃ w old, Tracks s pol c w old r.sink r.disk ∧
    r.opened = old ++ [(s.file c.full.length, w.file)] ∧ (∀ o ∈ r.outcomes, o = .ok ()) ∧
    r.reports = []

section Listed

variable {f : RotatingFile} {w : Writer} {l : List (Path × ℕ)}

theorem listed_same (hw : f.writer = some w) : listed f (l ++ [(f.path, w.file)]) =
    l ++ [(f.path, w.file)] := by
  simp [listed, hw]

theorem listed_new (hw : f.writer = some w) {p : Path} {n : ℕ} (hn : n ≠ w.file) :
    listed f (l ++ [(p, n)]) = l ++ [(p, n)] ++ [(f.path, w.file)] := by
  simp [listed, hw, hn]

end Listed

/-- One more operation succeeds. -/
theorem all_ok_snoc {os : List Outcome} (h : ∀ o ∈ os, o = .ok ()) :
    ∀ o ∈ os ++ [.ok ()], o = .ok () :=
  List.forall_mem_append.2 ⟨h, List.forall_mem_singleton.2 rfl⟩

/-- **The search for a name ends** as long as the numbers suffice. -/
theorem finds_iff (h : r.Sound s pol c) (hs : Steady s pol) (u : Use) :
    r.Finds u ↔ (c.appends pol.maxBytes (payloads [u])).full.length ≤ indexLimit := by
  obtain ⟨w, old, ht, -⟩ := h
  cases u with
  | flush =>
    have := ht.limit
    simpa [Finds, payloads, Chunks.appends] using this
  | write b =>
    simp only [Finds, ht.isDue_eq hs, ht.finds_iff hs, payloads, List.filterMap_cons,
      List.filterMap_nil, Chunks.appends, List.foldl_cons, List.foldl_nil, Chunks.append]
    cases hc : c.crowded pol.maxBytes b.size with
    | true => simp
    | false =>
      have := ht.limit
      simpa using this

/-- **A payload is written.** -/
theorem write_sound (h : r.Sound s pol c) (hs : Steady s pol) {b : ByteArray}
    (hfits : Fits s (c.append pol.maxBytes b).full.length)
    (hlimit : (c.append pol.maxBytes b).full.length ≤ indexLimit) :
    (r.use (.write b)).Sound s pol (c.append pol.maxBytes b) := by
  obtain ⟨w, old, ht, hopened, hok, hquiet⟩ := h
  unfold Chunks.append at hfits hlimit ⊢
  cases hc : c.crowded pol.maxBytes b.size with
  | true =>
    rw [hc] at hfits hlimit
    simp only [if_true, List.length_append, List.length_singleton] at hfits hlimit ⊢
    obtain ⟨w₁, f₁, d₁, hrotate, h₁⟩ := ht.rotate hs hlimit hfits
    obtain ⟨w₂, f₂, d₂, happend, hfile, h₂⟩ := h₁.append b
    -- the current file is crowded: the payload is the first of the next one
    have hdue : r.sink.isDue b.size r.disk = true := by rw [ht.isDue_eq hs, hc]
    have hwrite := write_rotated ht.isOpen hdue hrotate happend
    have hne : w.file ≠ w₂.file :=
      (h₂.oldKnown (s.file c.full.length, w.file) (List.mem_append_right _ List.mem_cons_self)).2
    rw [ByteArray.empty_append] at h₂
    refine ⟨w₂, old ++ [(s.file c.full.length, w.file)], ?_, ?_, ?_, ?_⟩
    · simpa only [use, hwrite] using h₂
    · simp only [use, hwrite, hopened]
      rw [listed_new h₂.writer hne, h₂.path]
    · simp only [use, hwrite]
      exact all_ok_snoc hok
    · simp [use, hwrite, hquiet]
  | false =>
    rw [hc] at hfits hlimit
    simp only [Bool.false_eq_true, if_false] at hfits hlimit ⊢
    obtain ⟨w₁, f₁, d₁, happend, hfile, h₁⟩ := ht.append b
    -- there is room in the current file
    have hdue : r.sink.isDue b.size r.disk = false := by rw [ht.isDue_eq hs, hc]
    have hwrite := write_on ht.isOpen hdue happend
    refine ⟨w₁, old, ?_, ?_, ?_, ?_⟩
    · simpa only [use, hwrite] using h₁
    · simp only [use, hwrite, hopened]
      rw [← hfile, ← h₁.path]
      exact listed_same h₁.writer
    · simp only [use, hwrite]
      exact all_ok_snoc hok
    · simp [use, hwrite, hquiet]

theorem flush_sound (h : r.Sound s pol c) : (r.use .flush).Sound s pol c := by
  obtain ⟨w, old, ht, hopened, hok, hquiet⟩ := h
  obtain ⟨f', d', hflush, h'⟩ := ht.flush
  have hf := flush_ok hflush
  refine ⟨{ w with pending := .empty }, old, ?_, ?_, ?_, ?_⟩
  · simpa only [use, hf] using h'
  · simp only [use, hf, hopened]
    rw [← h'.path]
    exact listed_same (w := { w with pending := .empty }) h'.writer
  · simp only [use, hf]
    exact all_ok_snoc hok
  · simp [use, hf, hquiet]

/-- **Whatever is done to a rotating file**, it follows its series, and every operation returns as
long as the numbers suffice. -/
theorem run_sound (hs : Steady s pol) : ∀ (us : List Use) (c : Chunks) (r : Recorded),
    r.Sound s pol c → Fits s (c.appends pol.maxBytes (payloads us)).full.length →
      (r.Returns us ↔ (c.appends pol.maxBytes (payloads us)).full.length ≤ indexLimit) ∧
        (r.Returns us → (r.run us).Sound s pol (c.appends pol.maxBytes (payloads us))) := by
  intro us
  induction us with
  | nil =>
    intro c r h _
    obtain ⟨w, old, ht, hrest⟩ := h
    exact ⟨⟨fun _ => ht.limit, fun _ => trivial⟩, fun _ => ⟨w, old, ht, hrest⟩⟩
  | cons u us ih =>
    intro c r h hfits
    have hsplit : c.appends pol.maxBytes (payloads (u :: us)) =
        (c.appends pol.maxBytes (payloads [u])).appends pol.maxBytes (payloads us) := by
      cases u <;> rfl
    rw [hsplit] at hfits ⊢
    have hmore := Chunks.full_appends pol.maxBytes (payloads us)
      (c.appends pol.maxBytes (payloads [u]))
    have hfinds := finds_iff h hs u
    -- where the search ends, the use keeps the invariant
    have hstep : r.Finds u → (r.use u).Sound s pol (c.appends pol.maxBytes (payloads [u])) := by
      intro hu
      cases u with
      | flush => exact flush_sound h
      | write b =>
        exact write_sound h hs (fun i hi => hfits i (Nat.le_trans hi hmore)) (hfinds.1 hu)
    constructor
    · constructor
      · rintro ⟨hu, hus⟩
        exact ((ih _ _ (hstep hu) hfits).1).1 hus
      · intro hlimit
        have hu := hfinds.2 (Nat.le_trans hmore hlimit)
        exact ⟨hu, (ih _ _ (hstep hu) hfits).1.2 hlimit⟩
    · rintro ⟨hu, hus⟩
      exact (ih _ _ (hstep hu) hfits).2 hus

/-- The path of a full file, as it is kept. -/
def keptAs (compress : Bool) (p : Path) : Path := if compress then packedPath p else p

/-! ## The files behind the invariant -/

section Files

variable {w : Writer} {old : List (Path × ℕ)} {f : RotatingFile} {d : Disk}

theorem unpacked_plain (b : ByteArray) : ({ plain := b } : Contents).unpacked = b := by
  simp [Contents.unpacked]

/-- The current file holds plain bytes, and what is kept back comes behind them. -/
theorem current_contents (h : Tracks s pol c w old f d) :
    (d.file w.file).contents.unpacked ++ w.pending = c.current := by
  have htotal := h.total
  simp only [Writer.total, Contents.followed, Contents.mk.injEq] at htotal
  rw [Contents.unpacked, htotal.1, Option.getD_none, ByteArray.empty_append, htotal.2]

theorem old_contents (h : Tracks s pol c w old f d) :
    old.map (fun e => (d.file e.2).contents.unpacked) = c.full := by
  have := congrArg (List.map Contents.unpacked) h.oldContents
  simpa [unpacked_plain, Function.comp_def] using this

/-- **The files have received everything**, up to what is kept back. -/
theorem received_eq (h : Tracks s pol c w old f d) :
    joined ((old ++ [(s.file c.full.length, w.file)]).map fun e =>
      (d.file e.2).contents.unpacked) ++ w.pending = joined c.all := by
  simp only [List.map_append, old_contents h, List.map_cons, List.map_nil, joined_append,
    joined_cons, joined_nil, ByteArray.append_empty, ByteArray.append_assoc, current_contents h,
    Chunks.all]

theorem numbers_nodup (h : Tracks s pol c w old f d) :
    ((old ++ [(s.file c.full.length, w.file)]).map Prod.snd).Nodup := by
  rw [List.map_append, List.nodup_append]
  refine ⟨h.oldNumbers, by simp, fun m hm m' hm' => ?_⟩
  obtain ⟨e, he, rfl⟩ := List.mem_map.1 hm
  obtain rfl : m' = w.file := by simpa using hm'
  exact (h.oldKnown e he).2

theorem old_length (h : Tracks s pol c w old f d) : old.length = c.full.length := by
  simpa using congrArg List.length h.oldPaths

/-- The paths of the newest full files. -/
theorem newest_paths (h : Tracks s pol c w old f d) :
    (newest pol.maxBackups old).map Prod.fst =
      (List.range' (lowest pol.maxBackups c.full.length)
        (c.full.length - lowest pol.maxBackups c.full.length)).map s.file := by
  rw [newest_eq, List.map_drop, h.oldPaths, old_length h, ← List.map_drop, List.range_eq_range',
    List.drop_range']
  simp

/-- **The kept files are the newest ones.** -/
theorem backups_eq (h : Tracks s pol c w old f d) :
    f.backups = (newest pol.maxBackups old).map fun e => keptAs s.compress e.1 := by
  have := congrArg (List.map (keptAs s.compress)) (newest_paths h)
  rw [List.map_map, List.map_map] at this
  rw [h.backups]
  exact this.symm

/-- A full file that is kept has a number of the series, and holds what it received. -/
theorem newest_getElem (h : Tracks s pol c w old f d) {e : Path × ℕ}
    (he : e ∈ newest pol.maxBackups old) : ∃ i b, lowest pol.maxBackups c.full.length ≤ i ∧
      c.full[i]? = some b ∧ e.1 = s.file i ∧ (d.file e.2).contents = { plain := b } := by
  -- both lists go by the same numbers
  rw [newest_eq, old_length h] at he
  obtain ⟨j, hj⟩ := List.mem_iff_getElem?.1 he
  rw [List.getElem?_drop] at hj
  set i := lowest pol.maxBackups c.full.length + j with hi
  have hcont := congrArg (fun l => l[i]?) h.oldContents
  have hpath := congrArg (fun l => l[i]?) h.oldPaths
  simp only [List.getElem?_map, hj, Option.map_some] at hcont hpath
  cases hb : c.full[i]? with
  | none => simp [hb] at hcont
  | some b =>
    have hlt : i < c.full.length := (List.getElem?_eq_some_iff.1 hb).1
    rw [List.getElem?_range hlt] at hpath
    rw [hb] at hcont
    exact ⟨i, b, by omega, hb, by simpa using hpath, by simpa using hcont⟩

end Files

/-! ## What can be seen -/

/-- What is kept back until the next flush. -/
def keptBack (r : Recorded) : ByteArray :=
  match r.sink.writer with
  | some w => w.pending
  | none => .empty

/-- **What can be seen of a rotating file** that was opened on a file with that content, after such
uses. -/
structure Lossless (settings : Settings.Rotation) (init : ByteArray) (us : List Use)
    (r : Recorded) : Prop where
  /-- Every operation succeeds, and nothing is reported. -/
  outcomes : ∀ o ∈ r.outcomes, o = .ok ()
  reports : r.reports = []
  /-- Each of its files is opened once. -/
  files : (r.opened.map Prod.snd).Nodup
  /-- In the order in which they were opened, the files have received what was there before and all
  payloads, in order, up to what is kept back. -/
  received : joined (r.opened.map fun e => (r.disk.file e.2).contents.unpacked) ++ r.keptBack =
    init ++ joined (payloads us)
  /-- The newest full files are listed as backups, the oldest first. -/
  backups : r.sink.backups =
    (newest settings.maxBackups r.opened.dropLast).map fun e => keptAs settings.compress e.1
  path : r.opened.getLast?.map Prod.fst = some r.sink.path

/-- **What stands in the directory** of a rotating file that was closed. -/
structure Stands (settings : Settings.Rotation) (here : Location) (c : Chunks) (r : Recorded) :
    Prop where
  /-- Nothing is kept back, and each file has received what it had room for. -/
  handedOver : r.keptBack = .empty
  cut : r.opened.map (fun e => (r.disk.file e.2).contents.unpacked) = c.all
  /-- The current file holds what it has received. -/
  current : ∀ e, r.opened.getLast? = some e → r.disk.contents? e.1 = some (r.disk.file e.2).contents
  /-- So does each backup, perhaps compressed. -/
  backups : ∀ e ∈ newest settings.maxBackups r.opened.dropLast,
    r.disk.contents? (keptAs settings.compress e.1) = some
      (if settings.compress then (r.disk.file e.2).contents.pack else (r.disk.file e.2).contents)
  /-- They are different files, and nothing else is there. -/
  distinct : ((r.sink.path :: r.sink.backups).map Path.location).Nodup
  others : ∀ way, way ≠ [] → r.disk.node? (here ++ way) ≠ none →
    ∃ q ∈ r.sink.path :: r.sink.backups, q.location = here ++ way

section Seen

variable {w : Writer} {old : List (Path × ℕ)} {f : RotatingFile} {d : Disk}
  {settings : Settings.Rotation} {init : ByteArray} {us : List Use}

/-- What is recorded is what the rotating file has come to. -/
structure Shows (r : Recorded) (files : List (Path × ℕ)) (f : RotatingFile) (d : Disk) : Prop where
  opened : r.opened = files
  disk : r.disk = d
  path : r.sink.path = f.path
  backups : r.sink.backups = f.backups

theorem lossless_of (h : Tracks s pol c w old f d)
    (hr : r.Shows (old ++ [(s.file c.full.length, w.file)]) f d)
    (hmost : pol.maxBackups = settings.maxBackups) (hcompress : s.compress = settings.compress)
    (hok : ∀ o ∈ r.outcomes, o = .ok ()) (hquiet : r.reports = []) (hback : r.keptBack = w.pending)
    (hall : joined c.all = init ++ joined (payloads us)) : r.Lossless settings init us where
  outcomes := hok
  reports := hquiet
  files := by rw [hr.opened]; exact numbers_nodup h
  received := by rw [hr.opened, hr.disk, hback, ← hall]; exact received_eq h
  backups := by
    rw [hr.opened, hr.backups, List.dropLast_concat, ← hmost, ← hcompress]
    exact backups_eq h
  path := by rw [hr.opened, hr.path, h.path]; simp

theorem stands_of (h : Tracks s pol c w old f d)
    (hr : r.Shows (old ++ [(s.file c.full.length, w.file)]) f d)
    (hmost : pol.maxBackups = settings.maxBackups) (hcompress : s.compress = settings.compress)
    (hpending : w.pending = .empty) (hback : r.keptBack = .empty) :
    r.Stands settings s.here c := by
  obtain ⟨t, hshelf⟩ := h.shelf
  refine ⟨hback, ?_, fun e he => ?_, fun e he => ?_, ?_, fun way hway hnode => ?_⟩
  · have hcurrent := current_contents h
    rw [hpending, ByteArray.append_empty] at hcurrent
    rw [hr.opened, hr.disk, List.map_append, old_contents h, List.map_singleton, hcurrent]
    rfl
  · rw [hr.opened, List.getLast?_concat, Option.some.injEq] at he
    subst he
    rw [hr.disk]
    exact hshelf.folder.contents? (s.file_leads _) hshelf.current
  · rw [hr.opened, List.dropLast_concat, ← hmost] at he
    obtain ⟨i, b, hlo, hb, hpath, hcont⟩ := newest_getElem h he
    obtain ⟨n, hn, -, -, hkept⟩ := hshelf.kept i b hlo hb
    have hcontents := hshelf.folder.contents? (s.kept_leads i) hn
    rw [hr.disk, hpath, hcont, ← hcompress]
    show d.contents? (s.kept i) = _
    simpa only [hkept, Place.stored] using hcontents
  · rw [hr.path, hr.backups, h.path, h.backups, List.map_cons, List.nodup_cons]
    constructor
    · intro hm
      rw [List.map_map] at hm
      obtain ⟨i, hi, he⟩ := List.mem_map.1 hm
      have hlt : i < c.full.length := by
        have := List.mem_range'_1.1 hi
        have := hshelf.low
        omega
      simp only [Function.comp_apply, (s.kept_leads i).location, (s.file_leads _).location,
        List.append_cancel_left_eq, List.cons.injEq, and_true] at he
      exact Place.keptName_ne_fileName (.inr (by omega)) he
    · rw [List.map_map]
      refine List.Nodup.map (fun i j he => ?_) List.nodup_range'
      simp only [Function.comp_apply, (s.kept_leads _).location, List.append_cancel_left_eq,
        List.cons.injEq, and_true] at he
      exact Place.keptName_inj he
  · rw [hr.disk] at hnode
    obtain ⟨x, rest, rfl⟩ := List.exists_cons_of_ne_nil hway
    have hrest : rest = [] := by
      by_contra hne
      exact hnode (hshelf.folder.below x rest hne)
    subst hrest
    have ht : t x ≠ none := by
      intro hx
      rw [hshelf.folder.files, hx] at hnode
      exact hnode rfl
    rw [hr.path, hr.backups, h.path, h.backups]
    rcases hshelf.only x ht with rfl | ⟨i, hlo, hi, rfl⟩
    · exact ⟨_, List.mem_cons_self, (s.file_leads _).location⟩
    · refine ⟨s.kept i, List.mem_cons_of_mem _ (List.mem_map_of_mem ?_), (s.kept_leads i).location⟩
      rw [List.mem_range'_1]
      omega

/-- **A rotating file that follows its series** has lost nothing; nor has it once it is closed, and
then its directory holds what it should. -/
theorem sound_seen (h : r.Sound s pol c) (hmost : pol.maxBackups = settings.maxBackups)
    (hcompress : s.compress = settings.compress)
    (hall : joined c.all = init ++ joined (payloads us)) :
    r.Lossless settings init us ∧ r.close.Lossless settings init us ∧
      r.close.Stands settings s.here c := by
  obtain ⟨w, old, ht, hopened, hok, hquiet⟩ := h
  obtain ⟨f', d', hflush, h'⟩ := ht.flush
  have hback : r.keptBack = w.pending := by simp [keptBack, ht.writer]
  have hclose : r.close = ⟨{ f' with writer := none, closed := true }, d', r.opened,
      r.outcomes ++ [.ok ()], r.reports⟩ := by
    simp only [close, close_ok ht.isOpen hflush]
  have hshows : r.close.Shows (old ++ [(s.file c.full.length, w.file)]) f' d' := by
    rw [hclose]; exact ⟨hopened, rfl, rfl, rfl⟩
  have hback' : r.close.keptBack = .empty := by rw [hclose]; rfl
  refine ⟨lossless_of ht ⟨hopened, rfl, rfl, rfl⟩ hmost hcompress hok hquiet hback hall,
    lossless_of h' hshows hmost hcompress ?_ ?_ hback' hall,
    stands_of h' hshows hmost hcompress rfl hback'⟩
  · rw [hclose]
    exact all_ok_snoc hok
  · rw [hclose]; exact hquiet

end Seen

end Recorded

end Logging.Sink
