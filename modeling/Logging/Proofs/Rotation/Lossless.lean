import Logging.Proofs.Rotation.Run

/-!
# Rotation loses nothing but what is removed on purpose

* `Suited`: settings and a disk on which a rotating file can work.
* `new_sound`: a rotating file that was just opened follows its series.
* `rotation_loses_nothing`: **its files receive what was there before and all payloads, in order,
  and its directory holds the newest of them and nothing else.**
-/

namespace Logging.Sink

open Disk RotatingFile Function

/-! ## The first file -/

section Opening

variable {d d' : Disk} {p : Path} {here : Location} {name : String} {n : ℕ} {w : Writer}

/-- A file that could be opened was there, or is new and empty. -/
theorem create_ok (h : d.create p = .ok (n, d')) : p.endsInName ∧
    ((d.node? p.location = some (.file n) ∧ d' = d) ∨
      (d.node? p.location = none ∧ n = d.files.size ∧
        d' = { d with files := d.files.push {} }.put p.location (.file n))) := by
  simp only [Disk.create] at h
  cases hb : badName? p.location with
  | some r => simp [hb] at h
  | none =>
    simp only [hb] at h
    cases hnode : d.node? p.location with
    | none =>
      simp only [hnode] at h
      cases hdir : d.noDirectory? p.location with
      | some r => simp [hdir] at h
      | none =>
        simp only [hdir] at h
        split at h
        · rename_i hp
          cases h
          exact ⟨hp, .inr ⟨rfl, rfl, rfl⟩⟩
        · cases h
    | some x =>
      cases x with
      | directory => simp [hnode] at h
      | file m =>
        simp only [hnode] at h
        split at h
        · rename_i hp
          cases h
          exact ⟨hp, .inl ⟨rfl, rfl⟩⟩
        · cases h

/-- Opening a log file makes the directory around it and then the file. -/
theorem openLog_ok (h : openLog p d = (.ok w, d')) : ∃ d₁,
    ((p.parent? = none ∧ d₁ = d) ∨ ∃ q, p.parent? = some q ∧ d.makeDirectories q = .ok d₁) ∧
      d₁.create p = .ok (w.file, d') ∧ w.pending = .empty := by
  unfold openLog at h
  cases hq : p.parent? with
  | none =>
    simp only [hq] at h
    split at h
    · rename_i hc
      cases h
      exact ⟨d, .inl ⟨rfl, rfl⟩, hc, rfl⟩
    · cases h
  | some q =>
    simp only [hq] at h
    cases hm : d.makeDirectories q with
    | error e => simp [hm] at h
    | ok d₁ =>
      simp only [hm] at h
      split at h
      · rename_i hc
        cases h
        exact ⟨d₁, .inr ⟨q, rfl, hm⟩, hc, rfl⟩
      · cases h

/-- Making the directory around a file changes nothing else. -/
theorem directories_made {d₁ : Disk} (hp : p.Leads here name)
    (h : (p.parent? = none ∧ d₁ = d) ∨ ∃ q, p.parent? = some q ∧ d.makeDirectories q = .ok d₁) :
    d₁.files = d.files ∧ (∀ way, way <+: here → d₁.node? way = some .directory) ∧
      ∀ l, ¬ l <+: here → d₁.node? l = d.node? l := by
  rcases h with ⟨hq, rfl⟩ | ⟨q, hq, hm⟩
  · rcases hp.parent? with ⟨-, rfl⟩ | ⟨q, hq', -⟩
    · refine ⟨rfl, fun way hw => ?_, fun _ _ => rfl⟩
      rw [List.prefix_nil.1 hw]
      rfl
    · simp [hq] at hq'
  · rcases hp.parent? with ⟨hq', -⟩ | ⟨q', hq', rfl⟩
    · simp [hq] at hq'
    · obtain rfl : q = q' := by simpa [hq] using hq'
      unfold makeDirectories at hm
      split at hm
      · cases hm
      · exact makeDirectoriesFrom_spec _ _ _ hm fun w hw => by
          rw [List.prefix_nil.1 hw]
          rfl

/-- **The first file of a series** is the only thing in its directory, and is there with what it
held, or is new. -/
theorem openLog_first (h : openLog p d = (.ok w, d'))
    (halone : ∀ way, way ≠ [] → p.location.dropLast ++ way ≠ p.location →
      d.node? (p.location.dropLast ++ way) = none) :
    ∃ here name, p.Leads here name ∧ Folder d' here (update (fun _ => none) name (some w.file)) ∧
      w.pending = .empty ∧
      ((d.node? p.location = some (.file w.file) ∧ d'.files = d.files) ∨
        (d.node? p.location = none ∧ w.file = d.files.size ∧ d'.files = d.files.push {})) := by
  obtain ⟨d₁, hmade, hcreate, hw⟩ := openLog_ok h
  obtain ⟨hends, hcases⟩ := create_ok hcreate
  obtain ⟨here, name, hp, -⟩ := Path.leads_of_endsInName hends
  obtain ⟨hfiles, hways, hothers⟩ := directories_made hp hmade
  have hloc := hp.location
  have hdrop : p.location.dropLast = here := by rw [hloc]; exact List.dropLast_concat
  rw [hdrop] at halone
  have hnode : ∀ x rest, d₁.node? (here ++ x :: rest) = d.node? (here ++ x :: rest) :=
    fun x rest => hothers _ (not_prefix_self here x rest)
  have hempty : ∀ x, x ≠ name → d₁.node? (here ++ [x]) = none := fun x hx => by
    rw [hnode]
    exact halone [x] (by simp) (by rw [hloc]; simpa using hx)
  have hbelow : ∀ x rest, rest ≠ [] → d₁.node? (here ++ x :: rest) = none := fun x rest hr => by
    rw [hnode]
    exact halone _ (by simp) (by rw [hloc]; simp [hr])
  rcases hcases with ⟨hthere, rfl⟩ | ⟨hnew, hn, rfl⟩
  · refine ⟨here, name, hp, ⟨hways, fun x => ?_, hbelow⟩, hw, .inl ⟨?_, hfiles⟩⟩
    · by_cases hx : x = name
      · subst hx
        rw [← hloc, hthere]; simp
      · rw [hempty x hx]; simp [hx]
    · rw [← hthere, hloc, hnode]
  · have hf : Folder { d₁ with files := d₁.files.push {} } here fun _ => none := by
      refine ⟨hways, fun x => ?_, hbelow⟩
      by_cases hx : x = name
      · subst hx
        exact (hloc ▸ hnew : d₁.node? (here ++ [x]) = none)
      · exact hempty x hx
    refine ⟨here, name, hp, ?_, hw, .inr ⟨?_, by rw [hn, hfiles], ?_⟩⟩
    · rw [hloc]; exact hf.put name w.file
    · rw [← hnew, hloc, hnode]
    · show d₁.files.push {} = d.files.push {}
      rw [hfiles]

/-- **A rotating file that could be opened** writes to the file that the template names. -/
theorem RotatingFile.new_ok {settings : Settings.Rotation} {f : RotatingFile}
    (h : RotatingFile.new settings d = (.ok f, d')) : ∃ text w,
      Time.fill? settings.template d.tick.reading = some text ∧
        openLog (.ofText text) d.tick = (.ok w, d') ∧
        f = { policy := ⟨settings.template, settings.maxBytes,
                settings.maxAgeSeconds.map (· * 1000), settings.maxBackups, settings.compress⟩
              writer := some w, path := .ofText text, written := d'.size w.file
              base := .ofText text } := by
  unfold RotatingFile.new at h
  split at h
  · cases h
  unfold expandTemplate at h
  dsimp only at h
  cases ht : Time.fill? settings.template d.tick.reading with
  | none =>
    rw [ht] at h
    cases h
  | some text =>
    rw [ht] at h
    dsimp only at h
    split at h
    · cases h
    · rename_i w d₁ hopen
      cases h
      exact ⟨text, w, rfl, hopen, rfl⟩

end Opening

/-! ## A rotating file from its opening on -/

/-- **Settings and a disk on which a rotating file can work**, for a series that comes to so many
full files. -/
structure Suited (settings : Settings.Rotation) (p : Path) (init : ByteArray) (k : ℕ) (d : Disk) :
    Prop where
  /-- The template gives this path at every time. -/
  constant : ∀ t, ∃ text, Time.fill? settings.template t = some text ∧ .ofText text = p
  ageless : settings.maxAgeSeconds = none
  /-- The directory is empty, except perhaps for the first file. -/
  alone : ∀ way, way ≠ [] → p.location.dropLast ++ way ≠ p.location →
    d.node? (p.location.dropLast ++ way) = none
  /-- The first file takes bytes and holds these, if it is there. -/
  first : ∀ n, d.node? p.location = some (.file n) →
    d.Takes n ∧ (d.file n).contents = { plain := init }
  absent : d.node? p.location = none → init = .empty
  /-- The system takes the names of the files. -/
  names : ∀ i, i ≤ k → i ≤ indexLimit → badName? (seriesPath p i).location = none ∧
    (settings.compress →
      badName? ((packedPath (seriesPath p i)).suffixed ".tmp").location = none)

variable {settings : Settings.Rotation} {d₀ d : Disk} {f : RotatingFile} {p : Path}
  {init : ByteArray} {k : ℕ}

/-- **A rotating file that was just opened** follows its series. -/
theorem new_sound (hnew : RotatingFile.new settings d₀ = (.ok f, d))
    (hs : Suited settings p init k d₀) : ∃ (s : Place) (pol : RotationPolicy),
      s.path = p ∧ s.here = p.location.dropLast ∧ s.compress = settings.compress ∧ Steady s pol ∧
        pol.maxBytes = settings.maxBytes ∧ pol.maxBackups = settings.maxBackups ∧
        (Recorded.start f d).Sound s pol ⟨[], init⟩ := by
  obtain ⟨text, w, htext, hopen, rfl⟩ := RotatingFile.new_ok hnew
  obtain rfl : .ofText text = p := by
    obtain ⟨text', htext', hp⟩ := hs.constant d₀.tick.reading
    obtain rfl : text = text' := Option.some.inj (htext.symm.trans htext')
    exact hp
  obtain ⟨here, name, hleads, hfolder, hpending, hcases⟩ := openLog_first hopen hs.alone
  have hhere : here = (Path.ofText text).location.dropLast := by
    rw [hleads.location]; exact List.dropLast_concat.symm
  -- the first file holds what was there before
  obtain ⟨htakes, hcontents⟩ : d.Takes w.file ∧ (d.file w.file).contents = { plain := init } := by
    rcases hcases with ⟨hthere, hfiles⟩ | ⟨hnew, hn, hfiles⟩
    · obtain ⟨ht, hc⟩ := hs.first w.file hthere
      have hfile : d.file w.file = d₀.file w.file := by
        simp only [Disk.file, hfiles]; rfl
      rw [hfile]
      exact ⟨⟨by rw [hfiles]; exact ht.known, by rw [hfile]; exact ht.room⟩, hc⟩
    · have hfile : d.file w.file = {} := by rw [hn]; exact file_push_last hfiles
      refine ⟨⟨by rw [hn, hfiles]; simp, by rw [hfile]⟩, ?_⟩
      rw [hfile, hs.absent hnew]
  refine ⟨⟨.ofText text, here, name, settings.compress, hleads⟩, ⟨settings.template, settings.maxBytes,
    settings.maxAgeSeconds.map (· * 1000), settings.maxBackups, settings.compress⟩, rfl, hhere, rfl,
    ⟨rfl, by simp [hs.ageless], hs.constant⟩, rfl, rfl, w, [], ?_, ?_,
    by simp [Recorded.start], rfl⟩
  · exact
      { policy := rfl, base := rfl, isOpen := rfl, path := rfl, index := rfl
        limit := Nat.zero_le _, writer := rfl, takes := htakes, oldPaths := rfl
        oldContents := rfl, oldKnown := by simp, oldNumbers := by simp
        written := by simp [Disk.size, Recorded.start, hcontents, Contents.unpacked]
        total := by simp [Writer.total, Recorded.start, hcontents, hpending]
        backups := by simp [Recorded.start]
        shelf := by
          refine ⟨_, hfolder, by simp [Place.fileName, seriesName], by simp, fun x hx => ?_, ?_⟩
          · by_cases hxn : x = name
            · exact .inl hxn
            · simp [hxn] at hx
          · simp [lowest]
            split <;> simp }
  · simp [Recorded.start, Recorded.listed, Place.file, seriesPath]

/-- **Rotation loses nothing but what is removed on purpose.** Whatever is written to a rotating
file, and whenever it is flushed: every operation returns as long as the full files can be numbered,
and as long as they do, the files receive what was there before and all payloads, in order, the
newest full ones are listed as backups, and once the rotating file is closed, its directory holds
these and the current file and nothing else. -/
theorem rotation_loses_nothing (us : List Use) (hnew : RotatingFile.new settings d₀ = (.ok f, d))
    (hs : Suited settings p init
      ((⟨[], init⟩ : Chunks).appends settings.maxBytes (payloads us)).full.length d₀) :
    ((Recorded.start f d).Returns us ↔
      ((⟨[], init⟩ : Chunks).appends settings.maxBytes (payloads us)).full.length ≤ indexLimit) ∧
    ((Recorded.start f d).Returns us →
      ((Recorded.start f d).run us).Lossless settings init us ∧
      ((Recorded.start f d).run us).close.Lossless settings init us ∧
      ((Recorded.start f d).run us).close.Stands settings p.location.dropLast
        ((⟨[], init⟩ : Chunks).appends settings.maxBytes (payloads us))) := by
  obtain ⟨s, pol, hpath, hhere, hcompress, hsteady, hbytes, hmost, hsound⟩ := new_sound hnew hs
  have hfits : Fits s
      ((⟨[], init⟩ : Chunks).appends pol.maxBytes (payloads us)).full.length := by
    rw [hbytes]
    intro i hi hlimit
    rw [Place.file, hpath, hcompress]
    exact hs.names i hi hlimit
  obtain ⟨hreturns, hrun⟩ := Recorded.run_sound hsteady us _ _ hsound hfits
  rw [hbytes] at hreturns hrun
  refine ⟨hreturns, fun hr => ?_⟩
  rw [← hhere]
  refine Recorded.sound_seen (hrun hr) hmost hcompress ?_
  rw [Chunks.joined_appends]
  simp [Chunks.all]

/-- Files of four bytes that are compressed, one of which is kept. -/
def smallFiles : Settings.Rotation :=
  { template := "log/app.log", maxBytes := some 4, maxBackups := some 1, compress := true }

/-- Three full files, of which the first two are removed. -/
theorem rotation_loses_nothing_four_files : ∃ f d,
    RotatingFile.new smallFiles { nodes := [], files := #[] } = (.ok f, d) ∧
      Suited smallFiles (.ofText "log/app.log") .empty 3 { nodes := [], files := #[] } ∧
      ((Recorded.start f d).run [.write ⟨#[1, 2]⟩, .write ⟨#[3]⟩, .flush, .write ⟨#[4, 5]⟩,
        .write ⟨#[]⟩, .write ⟨#[6, 7, 8, 9, 10]⟩, .write ⟨#[11]⟩]).close.Lossless smallFiles .empty
          [.write ⟨#[1, 2]⟩, .write ⟨#[3]⟩, .flush, .write ⟨#[4, 5]⟩, .write ⟨#[]⟩,
            .write ⟨#[6, 7, 8, 9, 10]⟩, .write ⟨#[11]⟩] := by
  have hnew : RotatingFile.new smallFiles { nodes := [], files := #[] } = (.ok _, _) := rfl
  have hs : Suited smallFiles (.ofText "log/app.log") .empty 3 { nodes := [], files := #[] } := by
    refine ⟨fun t => ⟨_, Time.fill?_plain (by decide) t, rfl⟩, rfl, fun way hway _ => ?_,
      fun n hn => ?_, fun _ => rfl, fun i hi _ => ?_⟩
    · simp [Disk.node?, hway]
    · simp [Disk.node?] at hn
    · have hcases : i = 0 ∨ i = 1 ∨ i = 2 ∨ i = 3 := by omega
      rcases hcases with rfl | rfl | rfl | rfl <;> decide
  have hall := rotation_loses_nothing [.write ⟨#[1, 2]⟩, .write ⟨#[3]⟩, .flush,
    .write ⟨#[4, 5]⟩, .write ⟨#[]⟩, .write ⟨#[6, 7, 8, 9, 10]⟩, .write ⟨#[11]⟩] hnew hs
  exact ⟨_, _, hnew, hs, (hall.2 (hall.1.2 (by decide))).2.1⟩

end Logging.Sink
