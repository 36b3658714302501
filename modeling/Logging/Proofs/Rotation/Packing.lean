import Logging.Proofs.Disk.Entries
import Logging.Proofs.Rotation.Lossless

/-!
# Compressing a file in a directory of others

A full file is packed into a temporary file, which then gets the name of the compressed form, and the
full file goes. Whatever had that name is replaced.

* `openLog_cases`: opening a log file, with what becomes of the directory.
* `packFile_cases`: the compressed form stands beside the file, or the directory is as it was.
* `Tidy`: a directory in which a series may be kept.
* `Tidy.compress`: **where the name of the compressed form is free, everything stays stored.**
-/

namespace Logging.Sink

open Disk Function

variable {d d' : Disk} {here : Location} {p q : Path} {x y : String} {n m : ℕ}

/-! ## Entries and operations -/

theorem opened_entry (hp : p.Leads here x) (hx : d.entry here x = some n) :
    d.opened p = .ok (.file n) := by
  have hnode := entry_eq_some.1 hx
  rw [← hp.location] at hnode
  simp [opened, present, hnode, hp.endsInName]

theorem remove_entry (hp : p.Leads here x) (hx : d.entry here x = some n) :
    ∃ d', d.remove p = .ok d' ∧ d'.files = d.files ∧
      d'.entry here = update (d.entry here) x none := by
  refine ⟨d.erase p.location, by simp [remove, opened_entry hp hx], rfl, ?_⟩
  rw [hp.location, entry_erase]

/-- **A file that is renamed** takes the name of whatever file had it; a directory is not
replaced. -/
theorem rename_entry (hp : p.Leads here x) (hq : q.Leads here y) (hx : d.entry here x = some n) :
    (∃ e, d.rename p q = .error e) ∨ ∃ d', d.rename p q = .ok d' ∧ d'.files = d.files ∧
      d'.entry here = update (update (d.entry here) x none) y (some n) := by
  have hnode := entry_eq_some.1 hx
  rw [← hp.location] at hnode
  set d₁ := (d.erase p.location).put q.location (.file n) with hd₁
  have hput : d₁.entry here = update (update (d.entry here) x none) y (some n) := by
    rw [hd₁, hp.location, hq.location, entry_put, entry_erase]
  cases ht : d.node? q.location with
  | none => exact .inr ⟨d₁, by simp [rename, hnode, ht, hd₁], rfl, hput⟩
  | some k =>
    cases k with
    | directory => exact .inl ⟨.isDirectory, by simp [rename, hnode, ht]⟩
    | file j => exact .inr ⟨d₁, by simp [rename, hnode, ht, hd₁], rfl, hput⟩

theorem createEmpty_new (hp : p.Leads here x) (hx : d.entry here x = none)
    (h : d.createEmpty p = .ok (n, d')) : n = d.files.size ∧ d'.files = d.files.push {} ∧
      d'.entry here = update (d.entry here) x (some n) := by
  unfold createEmpty at h
  split at h
  · cases h
  rename_i n' d₁ hcreate
  obtain ⟨-, ⟨hnode, -⟩ | ⟨-, rfl, rfl⟩⟩ := create_ok hcreate
  · rw [hp.location, ← entry_eq_some, hx] at hnode
    cases hnode
  simp only [Except.ok.injEq, Prod.mk.injEq] at h
  obtain ⟨rfl, rfl⟩ := h
  have hput : (({ d with files := d.files.push {} } : Disk).put p.location
      (.file d.files.size)).entry here = update (d.entry here) x (some d.files.size) := by
    rw [hp.location, entry_put]
    rfl
  have hfile : (({ d with files := d.files.push {} } : Disk).put p.location
      (.file d.files.size)).file d.files.size = {} :=
    file_push_last rfl
  rw [hfile]
  refine ⟨rfl, ?_, hput⟩
  exact Array.toList_inj.1 (by simp [setFile, put])

/-- A file that could not be opened is not there, but its directory may be. -/
theorem openLog_error {e : Fault} (h : openLog p d = (.error e, d')) :
    d' = d ∨ ∃ q, p.parent? = some q ∧ d.makeDirectories q = .ok d' := by
  unfold openLog at h
  cases hq : p.parent? with
  | none =>
    simp only [hq] at h
    split at h
    · cases h
    · cases h
      exact .inl rfl
  | some q =>
    simp only [hq] at h
    cases hm : d.makeDirectories q with
    | error r =>
      simp only [hm] at h
      cases h
      exact .inl rfl
    | ok d₁ =>
      simp only [hm] at h
      split at h
      · cases h
      · cases h
        exact .inr ⟨q, rfl, hm⟩

/-- **Opening a log file**: it was there, or it is new and empty, or the directory is as it was. -/
theorem openLog_cases (hp : p.Leads here x) (d : Disk) :
    (∃ e d', openLog p d = (.error e, d') ∧ d'.files = d.files ∧ d'.entry here = d.entry here) ∨
    ∃ w d', openLog p d = (.ok w, d') ∧ w.pending = .empty ∧
      ((d.entry here x = some w.file ∧ d'.files = d.files ∧ d'.entry here = d.entry here) ∨
        (d.node? p.location = none ∧ w.file = d.files.size ∧ d'.files = d.files.push {} ∧
          d'.entry here = update (d.entry here) x (some w.file))) := by
  -- the directories on the way are none of the entries
  have hmade : ∀ {d₁ : Disk}, ((p.parent? = none ∧ d₁ = d) ∨
      ∃ q, p.parent? = some q ∧ d.makeDirectories q = .ok d₁) →
        d₁.files = d.files ∧ (∀ y, d₁.node? (here ++ [y]) = d.node? (here ++ [y])) := by
    intro d₁ h
    obtain ⟨hfiles, -, hothers⟩ := directories_made hp h
    exact ⟨hfiles, fun y => hothers _ (not_prefix_self here y [])⟩
  cases ho : openLog p d with
  | mk o d' =>
    cases o with
    | error e =>
      refine .inl ⟨e, d', rfl, ?_⟩
      rcases openLog_error ho with rfl | hq
      · exact ⟨rfl, rfl⟩
      · obtain ⟨hfiles, hnodes⟩ := hmade (.inr hq)
        exact ⟨hfiles, entry_congr hnodes⟩
    | ok w =>
      obtain ⟨d₁, hm, hcreate, hpending⟩ := openLog_ok ho
      obtain ⟨hfiles, hnodes⟩ := hmade hm
      have hentry := entry_congr hnodes
      refine .inr ⟨w, d', rfl, hpending, ?_⟩
      obtain ⟨-, ⟨hnode, rfl⟩ | ⟨hnode, hw, rfl⟩⟩ := create_ok hcreate
      · rw [hp.location, ← entry_eq_some, hentry] at hnode
        exact .inl ⟨hnode, hfiles, hentry⟩
      · rw [hp.location, hnodes, ← hp.location] at hnode
        refine .inr ⟨hnode, by rw [hw, hfiles], by simp [put, hfiles], ?_⟩
        rw [hp.location, entry_put, ← hentry]
        rfl

namespace RotatingFile

/-! ## Compressing -/

/-- **Packing a file** puts its compressed form beside it, or leaves the directory as it was. -/
theorem packFile_cases (hp : p.Leads here x) (hx : d.entry here x = some n)
    (hlt : n < d.files.size) (htmp : d.entry here (x ++ ".gz" ++ ".tmp") = none) :
    (∃ e d', packFile p d = (.error e, d') ∧ Extends d d' ∧ d'.entry here = d.entry here) ∨
    ∃ m d', packFile p d = (.ok (), d') ∧ Extends d d' ∧ d'.Takes m ∧
      (d'.file m).contents = (d.file n).contents.pack ∧
      d'.entry here = update (d.entry here) (x ++ ".gz") (some m) := by
  have hleads := temporary_leads hp
  unfold packFile
  rw [opened_entry hp hx]
  dsimp only
  cases hc : d.createEmpty ((packedPath p).suffixed ".tmp") with
  | error r => exact .inl ⟨_, d, rfl, extends_of_files rfl, rfl⟩
  | ok r =>
    obtain ⟨m, d₁⟩ := r
    obtain ⟨rfl, hfiles₁, hentry₁⟩ := createEmpty_new hleads htmp hc
    have hread : d₁.file n = d.file n := file_push_lt hfiles₁ hlt
    have hsize : d.files.size < d₁.files.size := by simp [hfiles₁]
    simp only [Disk.read, hread]
    set d₂ := d₁.setFile d.files.size { contents := (d.file n).contents.pack } with hd₂
    have hentry₂ : d₂.entry here = update (d.entry here) (x ++ ".gz" ++ ".tmp")
        (some d.files.size) := hentry₁
    have hext : Extends d d₂ := by
      refine ⟨by simp [hd₂, setFile, hfiles₁], fun k hk => ?_⟩
      rw [hd₂, file_setFile_ne (by omega), file_push_lt hfiles₁ hk]
    have hthere : d₂.entry here (x ++ ".gz" ++ ".tmp") = some d.files.size := by
      rw [hentry₂, update_self]
    -- the temporary name is free again, whatever becomes of the packed one
    have hgone : update (d₂.entry here) (x ++ ".gz" ++ ".tmp") none = d.entry here := by
      rw [hentry₂, update_idem]
      exact update_eq_self_iff.2 htmp.symm
    rcases rename_entry hleads (packed_leads hp) hthere with ⟨e, he⟩ | ⟨d₃, he, hfiles₃, hentry₃⟩
    · obtain ⟨d₃, hremove, hfiles₃, hentry₃⟩ := remove_entry hleads hthere
      rw [he]
      dsimp only
      rw [hremove]
      exact .inl ⟨_, d₃, rfl, hext.trans (extends_of_files hfiles₃), by rw [hentry₃, hgone]⟩
    · have hfile : d₃.file d.files.size = { contents := (d.file n).contents.pack } := by
        have hsame : d₃.file d.files.size = d₂.file d.files.size := by simp [Disk.file, hfiles₃]
        rw [hsame, hd₂, file_setFile_self hsize]
      refine .inr ⟨d.files.size, d₃, by rw [he], hext.trans (extends_of_files hfiles₃), ?_, ?_, ?_⟩
      · exact ⟨by rw [hfiles₃]; simpa [hd₂, setFile] using hsize, by rw [hfile]⟩
      · rw [hfile]
      · rw [hentry₃, hgone]

/-- **Compressing a full file** replaces its name by that of its compressed form, or leaves the
directory as it was. -/
theorem compressBackup_cases (hp : p.Leads here x) (hx : d.entry here x = some n)
    (hlt : n < d.files.size) (htmp : d.entry here (x ++ ".gz" ++ ".tmp") = none) :
    ∃ q lines d', compressBackup p d = (q, lines, d') ∧ Extends d d' ∧
      (d'.entry here = d.entry here ∨ ∃ m, d'.Takes m ∧
        (d'.file m).contents = (d.file n).contents.pack ∧
        d'.entry here = update (update (d.entry here) (x ++ ".gz") (some m)) x none) := by
  unfold compressBackup
  rcases packFile_cases hp hx hlt htmp with ⟨e, d₁, he, hext, hentry⟩ |
    ⟨m, d₁, he, hext, htakes, hcont, hentry⟩
  · rw [he]
    exact ⟨_, _, d₁, rfl, hext, .inl hentry⟩
  · have hne : x ≠ x ++ ".gz" := by
      intro h
      have := congrArg String.length h
      simp at this
    have hx₁ : d₁.entry here x = some n := by rw [hentry, update_of_ne hne, hx]
    obtain ⟨d₂, hremove, hfiles₂, hentry₂⟩ := remove_entry hp hx₁
    have hfile : ∀ k, d₂.file k = d₁.file k := fun k => by simp [Disk.file, hfiles₂]
    rw [he]
    dsimp only
    rw [hremove]
    refine ⟨_, _, d₂, rfl, hext.trans (extends_of_files hfiles₂), .inr ⟨m, ?_, ?_, ?_⟩⟩
    · exact ⟨by rw [hfiles₂]; exact htakes.known, by rw [hfile]; exact htakes.room⟩
    · rw [hfile, hcont]
    · rw [hentry₂, hentry]

/-- **A directory in which a series may be kept**: its files take bytes, and none of them has the
name of a temporary file of the series. -/
structure Tidy (here : Location) (name : String) (d : Disk) : Prop where
  takes : ∀ x n, d.entry here x = some n → d.Takes n
  noTemporary : ∀ i, d.entry here (seriesName name i ++ ".gz" ++ ".tmp") = none

variable {name : String} {i : ℕ}

theorem takes_of_extends (h : d.Takes n) (hext : Extends d d') : d'.Takes n :=
  ⟨Nat.lt_of_lt_of_le h.known hext.size, by rw [hext.old n h.known]; exact h.room⟩

theorem Tidy.congr (h : Tidy here name d) (hentry : d'.entry here = d.entry here)
    (hext : Extends d d') : Tidy here name d' where
  takes y m hy := takes_of_extends (h.takes y m (by rw [← hentry]; exact hy)) hext
  noTemporary i := by rw [hentry]; exact h.noTemporary i

/-- Where the entries stay, everything stays stored. -/
theorem Tidy.retains (h : Tidy here name d) (hentry : d'.entry here = d.entry here)
    (hext : Extends d d') : Retains here nothing d nothing d' :=
  retains_of_extends (fun y m hy => (h.takes y m hy).known)
    (fun y m hy => by rw [hentry]; exact hy) hext

/-- A new file of the series takes bytes, and everything stays stored. -/
theorem Tidy.opened (h : Tidy here name d) (hn : Ordinary name) (hfiles : d'.files = d.files.push {})
    (habsent : d.entry here (seriesName name i) = none)
    (hentry : d'.entry here = update (d.entry here) (seriesName name i) (some d.files.size)) :
    Tidy here name d' ∧ Retains here nothing d nothing d' := by
  have hext : Extends d d' := extends_push hfiles
  have hother : ∀ y, y ≠ seriesName name i → d'.entry here y = d.entry here y :=
    fun y hy => by rw [hentry, update_of_ne hy]
  refine ⟨⟨fun y m hy => ?_, fun j => ?_⟩, ?_⟩
  · by_cases hyi : y = seriesName name i
    · rw [hentry, hyi, update_self, Option.some_inj] at hy
      subst hy
      exact ⟨by rw [hfiles]; simp, by rw [file_push_last hfiles]⟩
    · rw [hother y hyi] at hy
      exact takes_of_extends (h.takes y m hy) hext
  · rw [hother _ (temporary_ne hn).1]
    exact h.noTemporary j
  · refine retains_of_extends (fun y m hy => (h.takes y m hy).known) (fun y m hy => ?_) hext
    have hyi : y ≠ seriesName name i := by
      rintro rfl
      rw [habsent] at hy
      cases hy
    rw [hother y hyi]
    exact hy

/-- **A full file is compressed**: nothing else is touched, and everything stays stored unless a
file has the name that the compressed form gets. -/
theorem Tidy.compress (h : Tidy here name d) (hn : Ordinary name)
    (hp : p.Leads here (seriesName name i)) (hx : d.entry here (seriesName name i) = some n) :
    ∃ q lines d', compressBackup p d = (q, lines, d') ∧ Tidy here name d' ∧ Extends d d' ∧
      (∀ y, y ≠ seriesName name i → y ≠ seriesName name i ++ ".gz" →
        d'.entry here y = d.entry here y) ∧
      (d.entry here (seriesName name i ++ ".gz") = none → Retains here nothing d nothing d') := by
  have hknown : ∀ y m, d.entry here y = some m → m < d.files.size :=
    fun y m hy => (h.takes y m hy).known
  obtain ⟨q, lines, d', hc, hext, hsame | ⟨m, htakes, hcont, hentry⟩⟩ :=
    compressBackup_cases hp hx (hknown _ _ hx) (h.noTemporary i)
  · exact ⟨q, lines, d', hc, h.congr hsame hext, hext, fun y _ _ => by rw [hsame],
      fun _ => h.retains hsame hext⟩
  · have hother : ∀ y, y ≠ seriesName name i → y ≠ seriesName name i ++ ".gz" →
        d'.entry here y = d.entry here y := fun y h₁ h₂ => by
      rw [hentry, update_of_ne h₁, update_of_ne h₂]
    have hpacked : d'.entry here (seriesName name i ++ ".gz") = some m := by
      rw [hentry, update_of_ne (packed_ne hn), update_self]
    refine ⟨q, lines, d', hc, ⟨fun y k hy => ?_, fun j => ?_⟩, hext, hother, fun hfree => ?_⟩
    · by_cases h₁ : y = seriesName name i
      · rw [hentry, h₁, update_self] at hy
        cases hy
      · by_cases h₂ : y = seriesName name i ++ ".gz"
        · rw [h₂, hpacked, Option.some_inj] at hy
          exact hy ▸ htakes
        · rw [hother y h₁ h₂] at hy
          exact takes_of_extends (h.takes y k hy) hext
    · obtain ⟨h₁, h₂⟩ := temporary_ne (i := j) (j := i) hn
      rw [hother _ h₁ h₂]
      exact h.noTemporary j
    · -- the bytes of the full file are those of the packed one
      refine retains_of fun y k hy => ?_
      by_cases h₁ : y = seriesName name i
      · obtain rfl : n = k := Option.some_inj.1 (hx.symm.trans (h₁ ▸ hy))
        exact ⟨_, m, .empty, hpacked, by simp [hcont, unpacked_pack, nothing]⟩
      · have h₂ : y ≠ seriesName name i ++ ".gz" := by
          rintro rfl
          rw [hfree] at hy
          cases hy
        refine ⟨y, k, .empty, by rw [hother y h₁ h₂]; exact hy, ?_⟩
        rw [hext.old k (hknown y k hy), ByteArray.append_empty]

end RotatingFile

end Logging.Sink
