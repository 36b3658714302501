import Mathlib.Data.List.Basic
import Logging.Disk.Writer

/-!
# Files that take bytes, and their writers

* `joined`: byte arrays one behind the other.
* `Disk.Only`: two disks differ in one file at most.
* `Writer.total`: what a file will hold once its writer has handed over everything.
* `Writer.flush_works`, `Writer.write_works`: **on a file that takes bytes, flushing changes nothing
  of this, and writing puts the payload behind it.**
-/

namespace Logging

open Disk

/-- Byte arrays one behind the other. -/
def joined (bs : List ByteArray) : ByteArray := bs.foldr (· ++ ·) .empty

@[simp] theorem joined_nil : joined [] = .empty := rfl

@[simp] theorem joined_cons (b : ByteArray) (bs : List ByteArray) :
    joined (b :: bs) = b ++ joined bs := rfl

@[simp] theorem joined_append (bs cs : List ByteArray) :
    joined (bs ++ cs) = joined bs ++ joined cs := by
  induction bs with
  | nil => simp
  | cons b bs ih => simp [ih, ByteArray.append_assoc]

namespace Disk

variable {d d' d'' : Disk} {n m : ℕ}

@[simp] theorem file_setFile_self (h : n < d.files.size) (f : FileData) :
    (d.setFile n f).file n = f := by
  simp [file, setFile, h]

theorem file_setFile_ne (h : m ≠ n) (f : FileData) : (d.setFile n f).file m = d.file m := by
  simp [file, setFile, Array.getElem?_setIfInBounds_ne h.symm]

theorem file_push_lt {f : FileData} (h : d'.files = d.files.push f) (hm : m < d.files.size) :
    d'.file m = d.file m := by
  simp [file, h, Array.getElem?_push_lt hm, hm]

theorem file_push_last {f : FileData} (h : d'.files = d.files.push f) :
    d'.file d.files.size = f := by
  simp [file, h]

/-- Two disks differ in the file with that number at most. -/
structure Only (n : ℕ) (d d' : Disk) : Prop where
  nodes : d'.nodes = d.nodes
  size : d'.files.size = d.files.size
  others : ∀ m, m ≠ n → d'.file m = d.file m

theorem Only.refl (n : ℕ) (d : Disk) : Only n d d := ⟨rfl, rfl, fun _ _ => rfl⟩

theorem Only.trans (h : Only n d d') (h' : Only n d' d'') : Only n d d'' :=
  ⟨h'.nodes.trans h.nodes, h'.size.trans h.size,
    fun m hm => (h'.others m hm).trans (h.others m hm)⟩

theorem only_setFile (n : ℕ) (f : FileData) (d : Disk) : Only n d (d.setFile n f) :=
  ⟨rfl, by simp [setFile], fun _ hm => file_setFile_ne hm f⟩

/-- Every file of a disk is as it was; there may be new ones. -/
structure Extends (d d' : Disk) : Prop where
  size : d.files.size ≤ d'.files.size
  old : ∀ m, m < d.files.size → d'.file m = d.file m

theorem Extends.trans (h : Extends d d') (h' : Extends d' d'') : Extends d d'' :=
  ⟨Nat.le_trans h.size h'.size, fun m hm =>
    (h'.old m (Nat.lt_of_lt_of_le hm h.size)).trans (h.old m hm)⟩

theorem extends_of_files (h : d'.files = d.files) : Extends d d' :=
  ⟨Nat.le_of_eq (by rw [h]), fun m _ => by simp [file, h]⟩

theorem extends_push {f : FileData} (h : d'.files = d.files.push f) : Extends d d' :=
  ⟨by simp [h], fun _ hm => file_push_lt h hm⟩

/-- Bytes behind the others. -/
def Contents.followed (c : Contents) (b : ByteArray) : Contents := { c with plain := c.plain ++ b }

@[simp] theorem Contents.followed_empty (c : Contents) : c.followed .empty = c := by
  simp [followed]

@[simp] theorem Contents.followed_followed (c : Contents) (b b' : ByteArray) :
    (c.followed b).followed b' = c.followed (b ++ b') := by
  simp [followed, ByteArray.append_assoc]

/-- A file that exists and takes bytes. -/
structure Takes (d : Disk) (n : ℕ) : Prop where
  known : n < d.files.size
  room : (d.file n).full = false

/-- Appending changes that file only. -/
theorem append_only (h : d.append n b = .ok d') : Only n d d' := by
  unfold append at h
  dsimp only at h
  split at h
  · cases h
    exact .refl n _
  · split at h
    · cases h
    · cases h
      exact only_setFile _ _ _

/-- A file that takes bytes has them behind the others. -/
theorem append_works (h : d.Takes n) (b : ByteArray) : ∃ d', d.append n b = .ok d' ∧
    Only n d d' ∧ d'.Takes n ∧ (d'.file n).contents = (d.file n).contents.followed b := by
  by_cases hb : b.isEmpty
  · have he : b = .empty := by simpa [ByteArray.isEmpty] using hb
    refine ⟨d, by simp [append, hb], .refl n d, h, ?_⟩
    rw [he, Contents.followed_empty]
  · refine ⟨d.setFile n { d.file n with contents := (d.file n).contents.followed b, age := 0 },
      by simp [append, hb, h.room, Contents.followed], only_setFile _ _ _,
      ⟨by simpa [setFile] using h.known, ?_⟩, ?_⟩
    · rw [file_setFile_self h.known]; exact h.room
    · rw [file_setFile_self h.known]

end Disk

namespace Disk.Writer

variable {d : Disk} {w : Writer}

/-- **What the file will hold** once the writer has handed over everything. -/
def total (w : Writer) (d : Disk) : Contents := (d.file w.file).contents.followed w.pending

/-- Flushing changes that file only, whether it works or not. -/
theorem flush_only (w : Writer) (d : Disk) : Only w.file d (w.flush d).2.2 := by
  unfold flush
  split
  · rename_i happend
    exact append_only happend
  · exact .refl _ _

/-- **Flushing** leaves that as it is, and nothing is kept back. -/
theorem flush_works (h : d.Takes w.file) : ∃ d',
    w.flush d = (.ok (), { w with pending := .empty }, d') ∧ Only w.file d d' ∧ d'.Takes w.file ∧
      (d'.file w.file).contents = w.total d := by
  obtain ⟨d', ha, ho, ht, hc⟩ := append_works h w.pending
  exact ⟨d', by simp [flush, ha], ho, ht, hc⟩

/-- **Writing** puts the payload behind everything that was written before. -/
theorem write_works (h : d.Takes w.file) (b : ByteArray) : ∃ w' d',
    w.write b d = (.ok (), w', d') ∧ w'.file = w.file ∧ Only w.file d d' ∧ d'.Takes w.file ∧
      w'.total d' = (w.total d).followed b := by
  -- first room is made, if there is not enough
  obtain ⟨w₁, d₁, hm, hf, ho, ht, hc, he⟩ : ∃ w₁ d₁, w.makeRoom b.size d = (.ok (), w₁, d₁) ∧
      w₁.file = w.file ∧ Only w.file d d₁ ∧ d₁.Takes w.file ∧ w₁.total d₁ = w.total d ∧
      (room ≤ b.size → w₁.pending = .empty) := by
    unfold makeRoom
    split
    · obtain ⟨d', ha, ho, ht, hc⟩ := flush_works h
      exact ⟨_, d', ha, rfl, ho, ht, by simp [total, hc], fun _ => rfl⟩
    · refine ⟨w, d, rfl, rfl, .refl _ d, h, rfl, fun hb => ?_⟩
      have : w.pending.size = 0 := by omega
      exact ByteArray.size_eq_zero_iff.1 this
  unfold write
  simp only [hm]
  split
  · -- a large payload goes to the file at once
    rename_i hb
    obtain ⟨d', ha, ho', ht', hc'⟩ := append_works ht b
    refine ⟨w₁, d', by simp only [hf, ha], hf, ho.trans ho', ht', ?_⟩
    simp only [total, hf, hc', he hb, Contents.followed_empty] at hc ⊢
    rw [hc]
  · refine ⟨_, d₁, rfl, hf, ho, ht, ?_⟩
    rw [← hc]
    simp [total]

end Disk.Writer

end Logging
