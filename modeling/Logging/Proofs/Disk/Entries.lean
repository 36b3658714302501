import Mathlib.Data.List.Infix
import Logging.Proofs.Disk.Folder

/-!
# What the files of a directory hold

Files come and go by their names, and are written by way of writers that keep bytes back. What
matters for those who look for bytes is whether some file has them.

* `Disk.entry`: the file of that name in a directory, which may hold anything else besides.
* `Stored`: some file of a directory has these bytes, together with what is kept back for it.
* `Retains`: whatever was stored before is stored afterwards, perhaps elsewhere.
* `retains_written`: writing behind what a file holds leaves everything stored.
-/

namespace Logging.Disk

open Function

variable {d d' d'' : Disk} {here : Location} {x : String} {n : ℕ} {b c : ByteArray}

/-! ## Bytes among others -/

/-- Bytes stand somewhere among others, one after the other. -/
def Within (b c : ByteArray) : Prop := b.data.toList <:+: c.data.toList

instance (b c : ByteArray) : Decidable (Within b c) := inferInstanceAs (Decidable (_ <:+: _))

theorem Within.append (h : Within b c) (e : ByteArray) : Within b (c ++ e) := by
  unfold Within
  rw [ByteArray.data_append, Array.toList_append]
  exact h.trans (List.prefix_append _ _).isInfix

theorem within_append (b c : ByteArray) : Within b (c ++ b) := by
  unfold Within
  rw [ByteArray.data_append, Array.toList_append]
  exact (List.suffix_append _ _).isInfix

/-! ## Entries -/

/-- The number of the file of that name. -/
def entry (d : Disk) (here : Location) (x : String) : Option ℕ :=
  match d.node? (here ++ [x]) with
  | some (.file n) => some n
  | _ => none

theorem entry_eq_some : d.entry here x = some n ↔ d.node? (here ++ [x]) = some (.file n) := by
  unfold entry
  split
  · rename_i m h
    rw [h, Option.some_inj, Option.some_inj, Node.file.injEq]
  · rename_i h
    simpa using h n

theorem mem_nodes {l : Location} {k : Node} (hl : l ≠ []) (h : d.node? l = some k) :
    (l, k) ∈ d.nodes := by
  simp only [node?, if_neg hl] at h
  obtain ⟨l₁, l₂, hnodes, -⟩ := List.lookup_eq_some_iff.1 h
  simp [hnodes]

theorem mem_nodes_of_entry (h : d.entry here x = some n) : (here ++ [x], .file n) ∈ d.nodes :=
  mem_nodes (by simp) (entry_eq_some.1 h)

theorem entry_of_absent (h : d.node? (here ++ [x]) = none) : d.entry here x = none := by
  simp [entry, h]

theorem entry_congr (h : ∀ x, d'.node? (here ++ [x]) = d.node? (here ++ [x])) :
    d'.entry here = d.entry here := by
  funext x
  simp [entry, h]

theorem Only.entry (ho : Only n d d') (here : Location) : d'.entry here = d.entry here :=
  entry_congr fun _ => node?_congr ho.nodes _

theorem entry_put (d : Disk) (here : Location) (x : String) (n : ℕ) :
    (d.put (here ++ [x]) (.file n)).entry here = update (d.entry here) x (some n) := by
  funext y
  unfold entry
  rw [node?_put (by simp)]
  by_cases hy : y = x <;> simp [hy]

theorem entry_erase (d : Disk) (here : Location) (x : String) :
    (d.erase (here ++ [x])).entry here = update (d.entry here) x none := by
  funext y
  unfold entry
  rw [node?_erase (by simp)]
  by_cases hy : y = x <;> simp [hy]

/-! ## What is stored -/

/-- **Some file of the directory has these bytes**, together with what is kept back for it. -/
def Stored (here : Location) (back : ℕ → ByteArray) (d : Disk) (b : ByteArray) : Prop :=
  ∃ x n, d.entry here x = some n ∧ Within b ((d.file n).contents.unpacked ++ back n)

/-- Nothing is kept back. -/
def nothing : ℕ → ByteArray := fun _ => .empty

/-- What a writer keeps back for each file. -/
def Writer.back (w : Writer) (n : ℕ) : ByteArray := if n = w.file then w.pending else .empty

theorem Writer.back_empty {w : Writer} (h : w.pending = .empty) : w.back = nothing := by
  funext n
  simp [Writer.back, h, nothing]

/-- **Whatever was stored before is stored afterwards**, perhaps in another file. -/
def Retains (here : Location) (back : ℕ → ByteArray) (d : Disk) (back' : ℕ → ByteArray)
    (d' : Disk) : Prop :=
  ∀ b, Stored here back d b → Stored here back' d' b

variable {back back' back'' : ℕ → ByteArray}

theorem Retains.refl (here : Location) (back : ℕ → ByteArray) (d : Disk) :
    Retains here back d back d := fun _ h => h

theorem Retains.trans (h : Retains here back d back' d') (h' : Retains here back' d' back'' d'') :
    Retains here back d back'' d'' := fun b hb => h' b (h b hb)

/-- The bytes of every file are in some file afterwards, with others behind them. -/
theorem retains_of (h : ∀ x n, d.entry here x = some n → ∃ y m e, d'.entry here y = some m ∧
    (d'.file m).contents.unpacked ++ back' m = (d.file n).contents.unpacked ++ back n ++ e) :
    Retains here back d back' d' := by
  rintro b ⟨x, n, hx, hb⟩
  obtain ⟨y, m, e, hy, he⟩ := h x n hx
  exact ⟨y, m, hy, he ▸ hb.append e⟩

/-- Entries that stay lead to the same bytes as long as the files are as they were. -/
theorem retains_of_extends (hknown : ∀ x n, d.entry here x = some n → n < d.files.size)
    (hentry : ∀ x n, d.entry here x = some n → d'.entry here x = some n) (hext : Extends d d') :
    Retains here nothing d nothing d' := by
  refine retains_of fun x n hx => ⟨x, n, .empty, hentry x n hx, ?_⟩
  rw [hext.old n (hknown x n hx), ByteArray.append_empty]

/-! ## Writing -/

theorem unpacked_followed (c : Contents) (b : ByteArray) :
    (c.followed b).unpacked = c.unpacked ++ b := by
  simp [Contents.unpacked, Contents.followed, ByteArray.append_assoc]

theorem unpacked_pack (c : Contents) : c.pack.unpacked = c.unpacked := by
  simp [Contents.unpacked, Contents.pack]

variable {w w' : Writer}

theorem unpacked_total (w : Writer) (d : Disk) :
    (w.total d).unpacked = (d.file w.file).contents.unpacked ++ w.back w.file := by
  simp [Writer.total, unpacked_followed, Writer.back]

/-- **Bytes that are written behind what a file holds** leave everything stored. -/
theorem retains_written (hfile : w'.file = w.file) (ho : Only w.file d d')
    (ht : w'.total d' = (w.total d).followed b) : Retains here w.back d w'.back d' := by
  have hentry := ho.entry here
  refine retains_of fun x n hx => ?_
  by_cases hn : n = w.file
  · -- what is kept back counts as the end of its file, so it does not matter whether it is flushed
    subst hn
    refine ⟨x, w.file, b, by rw [hentry]; exact hx, ?_⟩
    calc (d'.file w.file).contents.unpacked ++ w'.back w.file
        = (w'.total d').unpacked := by rw [unpacked_total, hfile]
      _ = (d.file w.file).contents.unpacked ++ w.back w.file ++ b := by
        rw [ht, unpacked_followed, unpacked_total]
  · refine ⟨x, n, .empty, by rw [hentry]; exact hx, ?_⟩
    simp [ho.others n hn, Writer.back, hfile, hn]

theorem stored_written (hx : d.entry here x = some w.file) (hfile : w'.file = w.file)
    (ho : Only w.file d d') (ht : w'.total d' = (w.total d).followed b) :
    Stored here w'.back d' b := by
  have hentry := ho.entry here
  refine ⟨x, w.file, by rw [hentry]; exact hx, ?_⟩
  rw [← hfile, ← unpacked_total, ht, unpacked_followed]
  exact within_append _ _

end Logging.Disk
