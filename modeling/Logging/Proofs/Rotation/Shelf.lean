import Logging.Proofs.Disk.Folder
import Logging.Proofs.Rotation.Names

/-!
# The directory of a rotating file

* `Shelf`: the directory holds the current file and the kept ones, and nothing else.
* `Shelf.next`, `Shelf.packed`: a new file is opened, and the file before it is kept as it is or
  compressed.
* `Shelf.prune`: **the oldest files are removed until no more are left than may be.**
-/

namespace Logging.Sink

open Disk Function

variable {d d' : Disk} {here : Location} {t : String → Option ℕ} {p q : Path} {x : String}

/-- **Opening a log file** in a directory that is there makes an empty file. -/
theorem openLog_new (hf : Folder d here t) (hq : q.Leads here x) (hb : badName? q.location = none)
    (hx : t x = none) : ∃ d', openLog q d = (.ok { file := d.files.size }, d') ∧
      Folder d' here (update t x (some d.files.size)) ∧ d'.files = d.files.push {} := by
  obtain ⟨d', hc, hf', hfiles⟩ := hf.create hq hb hx
  refine ⟨d', ?_, hf', hfiles⟩
  rcases hq.parent? with ⟨hp, -⟩ | ⟨r, hp, hr⟩
  · simp [openLog, hp, hc]
  · have hb' : badName? r.location = none := by
      rw [hq.location] at hb
      rw [hr]
      exact (badName?_append.1 hb).1
    have hm : d.makeDirectories r = .ok d := by
      simp only [makeDirectories, hb']
      rw [hr]
      exact makeDirectoriesFrom_there here [] hf.ways
    simp [openLog, hp, hm, hc]

namespace RotatingFile

/-- **Compressing a file** puts its compressed form beside it, and leaves no temporary file. -/
theorem packFile_works {n : ℕ} (hf : Folder d here t) (hp : p.Leads here x) (hn : t x = some n)
    (hlt : n < d.files.size) (hgz : t (x ++ ".gz") = none) (htmp : t (x ++ ".gz" ++ ".tmp") = none)
    (hb : badName? ((packedPath p).suffixed ".tmp").location = none) :
    ∃ d', packFile p d = (.ok (), d') ∧
      Folder d' here (update t (x ++ ".gz") (some d.files.size)) ∧ Extends d d' ∧
      d.files.size < d'.files.size ∧
      (d'.file d.files.size).contents = (d.file n).contents.pack := by
  have hne : x ++ ".gz" ≠ x ++ ".gz" ++ ".tmp" := by
    intro h
    have := congrArg String.length h
    simp at this
  obtain ⟨d₁, hcreate, hf₁, hfiles₁⟩ := hf.createEmpty (temporary_leads hp) hb htmp
  set d₂ := d₁.setFile d.files.size { contents := (d.file n).contents.pack } with hd₂
  have hf₂ : Folder d₂ here (update t (x ++ ".gz" ++ ".tmp") (some d.files.size)) := hf₁.congr rfl
  obtain ⟨d', hrename, hf', hfiles'⟩ := hf₂.rename (temporary_leads hp) (packed_leads hp)
    (update_self _ _ _) (by rw [update_of_ne hne]; exact hgz)
  have hsize : d.files.size < d₁.files.size := by simp [hfiles₁]
  have hold : ∀ m, d'.file m = d₂.file m := fun m => by simp [Disk.file, hfiles']
  have hext : Extends d d₂ := by
    refine ⟨by simp [hd₂, setFile, hfiles₁], fun m hm => ?_⟩
    rw [hd₂, file_setFile_ne (by omega), file_push_lt hfiles₁ hm]
  refine ⟨d', ?_, ?_, hext.trans (extends_of_files hfiles'), ?_, ?_⟩
  · -- what is read is what the full file holds
    have hread : d₁.file n = d.file n := file_push_lt hfiles₁ hlt
    simp only [packFile, hf.opened hp hn, hcreate, Disk.read, hread, ← hd₂, hrename]
  · -- the temporary name is free again
    have hgone : update t (x ++ ".gz" ++ ".tmp") none = t := update_eq_self_iff.2 htmp.symm
    rw [update_idem, hgone] at hf'
    exact hf'
  · rw [hfiles', hd₂]; simpa [setFile] using hsize
  · rw [hold, hd₂, file_setFile_self hsize]

/-- Of one file more, each is one of those before or the last. -/
theorem getElem?_snoc {bs : List ByteArray} {b b' : ByteArray} {i : ℕ}
    (h : (bs ++ [b])[i]? = some b') :
    (i < bs.length ∧ bs[i]? = some b') ∨ (i = bs.length ∧ b' = b) := by
  rcases Nat.lt_trichotomy i bs.length with hlt | rfl | hgt
  · rw [List.getElem?_append_left hlt] at h
    exact .inl ⟨hlt, h⟩
  · exact .inr ⟨rfl, by simpa using h.symm⟩
  · rw [List.getElem?_eq_none (by simp; omega)] at h
    cases h

/-- Where a series of files is kept, and whether the full ones are compressed. -/
structure Place where
  path : Path
  here : Location
  name : String
  compress : Bool
  leads : path.Leads here name

namespace Place

variable (s : Place)

/-- The file with that number. -/
def file (i : ℕ) : Path := seriesPath s.path i

def fileName (i : ℕ) : String := seriesName s.name i

/-- The file with that number, as it is kept when it is full. -/
def kept (i : ℕ) : Path := if s.compress then packedPath (s.file i) else s.file i

def keptName (i : ℕ) : String := if s.compress then s.fileName i ++ ".gz" else s.fileName i

/-- What it holds then. -/
def stored (c : Contents) : Contents := if s.compress then c.pack else c

theorem file_leads (i : ℕ) : (s.file i).Leads s.here (s.fileName i) := seriesPath_leads s.leads i

theorem kept_leads (i : ℕ) : (s.kept i).Leads s.here (s.keptName i) := by
  unfold kept keptName
  split
  · exact packed_leads (s.file_leads i)
  · exact s.file_leads i

variable {s} {i j : ℕ}

theorem fileName_inj (h : s.fileName i = s.fileName j) : i = j := seriesName_inj s.leads.1 h

theorem keptName_inj (h : s.keptName i = s.keptName j) : i = j := by
  unfold keptName at h
  split at h
  · exact packed_inj s.leads.1 h
  · exact fileName_inj h

theorem keptName_ne_fileName (h : s.compress ∨ i ≠ j) : s.keptName i ≠ s.fileName j := by
  unfold keptName
  split
  · exact packed_ne s.leads.1
  · rename_i hc
    exact fun he => h.elim hc fun hij => hij (fileName_inj he)

theorem temporary_ne_fileName : s.fileName i ++ ".gz" ++ ".tmp" ≠ s.fileName j :=
  (temporary_ne s.leads.1).1

theorem temporary_ne_keptName : s.fileName i ++ ".gz" ++ ".tmp" ≠ s.keptName j := by
  unfold keptName
  split
  · exact (temporary_ne s.leads.1).2
  · exact temporary_ne_fileName

end Place

/-! ## What stands there -/

variable {s : Place} {lo cur : ℕ} {full : List ByteArray}

/-- **The directory of a rotating file**, by names and file numbers: the current file, and the full
ones from a certain one on. -/
structure Shelf (s : Place) (d : Disk) (t : String → Option ℕ) (lo : ℕ) (full : List ByteArray)
    (cur : ℕ) : Prop where
  folder : Folder d s.here t
  current : t (s.fileName full.length) = some cur
  kept : ∀ i b, lo ≤ i → full[i]? = some b → ∃ n, t (s.keptName i) = some n ∧
    n < d.files.size ∧ n ≠ cur ∧ (d.file n).contents = s.stored { plain := b }
  only : ∀ x, t x ≠ none →
    x = s.fileName full.length ∨ ∃ i, lo ≤ i ∧ i < full.length ∧ x = s.keptName i
  low : lo ≤ full.length

namespace Shelf

/-- Every other name is free. -/
theorem free (h : Shelf s d t lo full cur) (hx : x ≠ s.fileName full.length)
    (hk : ∀ i, i < full.length → x ≠ s.keptName i) : t x = none := by
  by_contra hne
  rcases h.only x hne with rfl | ⟨i, -, hi, rfl⟩
  · exact hx rfl
  · exact hk i hi rfl

/-- The name of the next file is free. -/
theorem next_free (h : Shelf s d t lo full cur) : t (s.fileName (full.length + 1)) = none := by
  refine h.free (fun he => ?_) fun i hi he => ?_
  · have := Place.fileName_inj he
    omega
  · exact Place.keptName_ne_fileName (.inr (by omega)) he.symm

/-- **The next file is not taken**, nor is its compressed form. -/
theorem next_not_taken (h : Shelf s d t lo full cur) {f : RotatingFile}
    (hf : f.policy.compress = s.compress) :
    f.isTaken d (s.file (full.length + 1)) = false := by
  unfold isTaken
  rw [h.folder.present (s.file_leads _), h.next_free, hf]
  cases hc : s.compress with
  | false => rfl
  | true =>
    have hpacked : t (s.fileName (full.length + 1) ++ ".gz") = none := by
      -- with compression the packed name is the one under which the file will be kept
      have hname : s.fileName (full.length + 1) ++ ".gz" = s.keptName (full.length + 1) := by
        simp [Place.keptName, hc]
      rw [hname]
      refine h.free (Place.keptName_ne_fileName (.inl hc)) fun i hi he => ?_
      have := Place.keptName_inj he
      omega
    rw [h.folder.present (packed_leads (s.file_leads _)), hpacked]
    rfl

/-- What happens in the current file only. -/
theorem congr (h : Shelf s d t lo full cur) (ho : Only cur d d') : Shelf s d' t lo full cur := by
  refine ⟨h.folder.congr ho.nodes, h.current, fun i b hi hb => ?_, h.only, h.low⟩
  obtain ⟨n, hn, hlt, hne, hc⟩ := h.kept i b hi hb
  exact ⟨n, hn, by rw [ho.size]; exact hlt, hne, by rw [ho.others n hne]; exact hc⟩

/-! ## A file becomes a backup -/

/-- A new file stands beside the others. -/
theorem opened (h : Shelf s d t lo full cur)
    (hb : badName? (s.file (full.length + 1)).location = none) :
    ∃ d', openLog (s.file (full.length + 1)) d = (.ok { file := d.files.size }, d') ∧
      Folder d' s.here (update t (s.fileName (full.length + 1)) (some d.files.size)) ∧
      d'.files = d.files.push {} :=
  openLog_new h.folder (s.file_leads _) hb h.next_free

/-- **A full file is kept as it is.** -/
theorem next (h : Shelf s d t lo full cur) {b : ByteArray} (hc : s.compress = false)
    (hcur : cur < d.files.size) (hcont : (d.file cur).contents = { plain := b })
    (hf : Folder d' s.here (update t (s.fileName (full.length + 1)) (some d.files.size)))
    (hfiles : d'.files = d.files.push {}) :
    Shelf s d' (update t (s.fileName (full.length + 1)) (some d.files.size)) lo (full ++ [b])
      d.files.size := by
  have hsize : d'.files.size = d.files.size + 1 := by simp [hfiles]
  have hlen : (full ++ [b]).length = full.length + 1 := by simp
  have hname : s.keptName full.length = s.fileName full.length := by simp [Place.keptName, hc]
  refine ⟨hf, by simp [hlen], fun i b' hi hb' => ?_, fun x hx => ?_, by have := h.low; omega⟩
  · have hcases := getElem?_snoc hb'
    rw [update_of_ne (Place.keptName_ne_fileName (.inr (by omega)))]
    rcases hcases with ⟨-, hb'⟩ | ⟨rfl, rfl⟩
    · obtain ⟨n, hn, hlt', -, hcont'⟩ := h.kept i b' hi hb'
      exact ⟨n, hn, by omega, by omega, by rw [file_push_lt hfiles hlt']; exact hcont'⟩
    · refine ⟨cur, by rw [hname]; exact h.current, by omega, by omega, ?_⟩
      rw [file_push_lt hfiles hcur, hcont]
      simp [Place.stored, hc]
  · by_cases hxn : x = s.fileName (full.length + 1)
    · exact .inl (by rw [hlen]; exact hxn)
    · rw [update_of_ne hxn] at hx
      rcases h.only x hx with rfl | ⟨i, hlo, hi, rfl⟩
      · exact .inr ⟨full.length, h.low, by omega, hname.symm⟩
      · exact .inr ⟨i, hlo, by omega, rfl⟩

/-- **A full file is compressed**, and its own name goes. -/
theorem packed (h : Shelf s d t lo full cur) {b : ByteArray} (hc : s.compress = true)
    (hcur : cur < d.files.size) (hcont : (d.file cur).contents = { plain := b })
    (hf : Folder d' s.here (update t (s.fileName (full.length + 1)) (some d.files.size)))
    (hfiles : d'.files = d.files.push {})
    (hb : badName? ((packedPath (s.file full.length)).suffixed ".tmp").location = none) :
    ∃ d'' t', compressBackup (s.file full.length) d' = (packedPath (s.file full.length), [], d'') ∧
      Shelf s d'' t' lo (full ++ [b]) d.files.size ∧ Extends d' d'' := by
  have hgz : s.fileName full.length ++ ".gz" = s.keptName full.length := by
    simp [Place.keptName, hc]
  have hlen : (full ++ [b]).length = full.length + 1 := by simp
  have hsize : d'.files.size = d.files.size + 1 := by simp [hfiles]
  have hnext : s.fileName full.length ≠ s.fileName (full.length + 1) := fun he => by
    have := Place.fileName_inj he
    omega
  have hkn : ∀ i j, s.keptName i ≠ s.fileName j := fun i j => Place.keptName_ne_fileName (.inl hc)
  have hkfree : t (s.keptName full.length) = none := by
    refine h.free (hkn _ _) fun i hi he => ?_
    have := Place.keptName_inj he
    omega
  have htfree : t (s.fileName full.length ++ ".gz" ++ ".tmp") = none :=
    h.free Place.temporary_ne_fileName fun i _ => Place.temporary_ne_keptName
  obtain ⟨d₁, hpack, hf₁, hext₁, hlt₁, hcont₁⟩ := packFile_works hf (s.file_leads full.length)
    (n := cur) (by rw [update_of_ne hnext]; exact h.current) (by omega)
    (by rw [hgz, update_of_ne (hkn _ _)]; exact hkfree)
    (by rw [update_of_ne Place.temporary_ne_fileName]; exact htfree) hb
  -- the file under its own name goes when the packed one stands
  obtain ⟨d₂, hremove, hf₂, hfiles₂⟩ := hf₁.remove (n := cur) (s.file_leads full.length) (by
    rw [hgz, update_of_ne (hkn _ _).symm, update_of_ne hnext]; exact h.current)
  have hext : Extends d d₂ :=
    ((extends_push hfiles).trans hext₁).trans (extends_of_files hfiles₂)
  have hfile₂ : ∀ m, d₂.file m = d₁.file m := fun m => by simp [Disk.file, hfiles₂]
  refine ⟨d₂, _, by simp only [compressBackup, hpack, hremove], ⟨hf₂, ?_, fun i b' hi hb' => ?_,
    fun x hx => ?_, by have := h.low; omega⟩, hext₁.trans (extends_of_files hfiles₂)⟩
  · rw [hlen, update_of_ne hnext.symm, hgz, update_of_ne (hkn _ _).symm, update_self]
  · rw [update_of_ne (hkn _ _), hgz]
    rcases getElem?_snoc hb' with ⟨hlt, hb'⟩ | ⟨rfl, rfl⟩
    · obtain ⟨n, hn, hlt', -, hcont'⟩ := h.kept i b' hi hb'
      have hne : s.keptName i ≠ s.keptName full.length := fun he => by
        have := Place.keptName_inj he
        omega
      have hle := hext.size
      refine ⟨n, ?_, by omega, by omega, by rw [hext.old n hlt']; exact hcont'⟩
      rw [update_of_ne hne, update_of_ne (hkn _ _)]
      exact hn
    · refine ⟨d'.files.size, update_self _ _ _, by rw [hfiles₂]; exact hlt₁, by omega, ?_⟩
      rw [hfile₂, hcont₁, file_push_lt hfiles hcur, hcont]
      simp [Place.stored, hc]
  · by_cases hxk : x = s.fileName full.length
    · rw [hxk, update_self] at hx
      exact absurd rfl hx
    · rw [update_of_ne hxk, hgz] at hx
      by_cases hxg : x = s.keptName full.length
      · exact .inr ⟨full.length, h.low, by omega, hxg⟩
      · rw [update_of_ne hxg] at hx
        by_cases hxn : x = s.fileName (full.length + 1)
        · exact .inl (by rw [hlen]; exact hxn)
        · rw [update_of_ne hxn] at hx
          rcases h.only x hx with he | ⟨i, hlo, hi, rfl⟩
          · exact absurd he hxk
          · exact .inr ⟨i, hlo, by omega, rfl⟩

/-- **A full file is kept**, as it is or compressed. -/
theorem retired (h : Shelf s d t lo full cur) {b : ByteArray} (hcur : cur < d.files.size)
    (hcont : (d.file cur).contents = { plain := b })
    (hf : Folder d' s.here (update t (s.fileName (full.length + 1)) (some d.files.size)))
    (hfiles : d'.files = d.files.push {})
    (hb : s.compress →
      badName? ((packedPath (s.file full.length)).suffixed ".tmp").location = none) :
    ∃ d'' t', (if s.compress then compressBackup (s.file full.length) d'
        else (s.file full.length, [], d')) = (s.kept full.length, [], d'') ∧
      Shelf s d'' t' lo (full ++ [b]) d.files.size ∧ Extends d' d'' := by
  cases hc : s.compress with
  | false =>
    exact ⟨d', _, by simp [Place.kept, hc], h.next hc hcur hcont hf hfiles,
      extends_of_files rfl⟩
  | true =>
    obtain ⟨d'', t', hpack, h', hext⟩ := h.packed hc hcur hcont hf hfiles (hb hc)
    exact ⟨d'', t', by simp [Place.kept, hc, hpack], h', hext⟩

/-! ## The oldest backups go -/

/-- The oldest kept file is removed. -/
theorem drop (h : Shelf s d t lo full cur) (hlt : lo < full.length) :
    ∃ d', d.remove (s.kept lo) = .ok d' ∧
      Shelf s d' (update t (s.keptName lo) none) (lo + 1) full cur ∧ d'.files = d.files := by
  obtain ⟨n, hn, -⟩ := h.kept lo full[lo] (Nat.le_refl _) (List.getElem?_eq_getElem hlt)
  obtain ⟨d', hremove, hf', hfiles⟩ := h.folder.remove (s.kept_leads lo) hn
  refine ⟨d', hremove, ⟨hf', ?_, fun i b hi hb => ?_, fun x hx => ?_, hlt⟩, hfiles⟩
  · rw [update_of_ne (Place.keptName_ne_fileName (.inr (by omega))).symm]
    exact h.current
  · obtain ⟨m, hm, hms, hne, hcont⟩ := h.kept i b (by omega) hb
    have hnames : s.keptName i ≠ s.keptName lo := fun he => by
      have := Place.keptName_inj he
      omega
    refine ⟨m, by rw [update_of_ne hnames]; exact hm, by rw [hfiles]; exact hms, hne, ?_⟩
    simpa [Disk.file, hfiles] using hcont
  · by_cases hxk : x = s.keptName lo
    · rw [hxk, update_self] at hx
      exact absurd rfl hx
    · rw [update_of_ne hxk] at hx
      rcases h.only x hx with he | ⟨i, hlo, hi, rfl⟩
      · exact .inl he
      · have : i ≠ lo := by
          rintro rfl
          exact hxk rfl
        exact .inr ⟨i, by omega, hi, rfl⟩

/-- **The oldest files are removed** until no more are left than may be. -/
theorem prune (most : ℕ) : ∀ (n lo : ℕ) (d : Disk) (t : String → Option ℕ),
    Shelf s d t lo full cur → lo + n = full.length →
      ∃ d' t', Sink.prune most ((List.range' lo n).map s.kept) d =
          ((List.range' (lo + (n - most)) (n - (n - most))).map s.kept, [], d') ∧
        Shelf s d' t' (lo + (n - most)) full cur ∧ d'.files = d.files := by
  intro n
  induction n with
  | zero => intro lo d t h _; exact ⟨d, t, by simp [Sink.prune], by simpa using h, rfl⟩
  | succ n ih =>
    intro lo d t h hn
    rw [List.range'_succ, List.map_cons]
    -- no more are left than may be, or the oldest goes and the others follow
    by_cases hm : n < most
    · have hzero : n + 1 - most = 0 := by omega
      refine ⟨d, t, ?_, by rw [hzero]; exact h, rfl⟩
      simp [Sink.prune, hm, hzero, List.range'_succ]
    · obtain ⟨d₁, hremove, h₁, hfiles₁⟩ := h.drop (by omega)
      obtain ⟨d', t', hprune, h', hfiles'⟩ := ih (lo + 1) d₁ _ h₁ (by omega)
      have hlo : lo + 1 + (n - most) = lo + (n + 1 - most) := by omega
      have hleft : n - (n - most) = n + 1 - (n + 1 - most) := by omega
      rw [hlo, hleft] at hprune
      rw [hlo] at h'
      refine ⟨d', t', ?_, h', hfiles'.trans hfiles₁⟩
      simp [Sink.prune, hm, hremove, hprune]

end Shelf

end RotatingFile

end Logging.Sink
