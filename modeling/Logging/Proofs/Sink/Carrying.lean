import Mathlib.Data.List.Perm.Subperm
import Logging.Sink.Trial

/-!
# Pieces in writes

Buffers join what is written to them, and workers may write a piece more than once. What arrives is
compared with what was sent by these two relations.

* `Carries`: pieces are parts of writes, each in a place of its own.
* `Carries.part`: **a piece that has bytes is a part of some write.**
* `offered`: the payloads of the writes among calls.
-/

namespace Logging.Sink

/-- Pieces are parts of writes, and no part of a write stands for two of them. -/
inductive Carries : List ByteArray → List ByteArray → Prop
  /-- There may be more writes, in any order. -/
  | sub {ws ps : List ByteArray} : ps.Subperm ws → Carries ws ps
  /-- A write holds two pieces, one behind the other. -/
  | cut (p q : ByteArray) (ws : List ByteArray) : Carries ((p ++ q) :: ws) (p :: q :: ws)
  /-- A piece without bytes needs no write. -/
  | empty (ws : List ByteArray) : Carries ws (.empty :: ws)
  | trans {ws ps qs : List ByteArray} : Carries ws ps → Carries ps qs → Carries ws qs

namespace Carries

variable {ws ws' ps ps' : List ByteArray} {p q : ByteArray}

theorem refl (ws : List ByteArray) : Carries ws ws := .sub (.refl ws)

theorem perm (h : ps.Perm ws) : Carries ws ps := .sub h.subperm

theorem append_right (h : Carries ws ps) (qs : List ByteArray) : Carries (ws ++ qs) (ps ++ qs) := by
  induction h with
  | sub h => exact .sub ((List.subperm_append_right qs).2 h)
  | cut p q ws => exact .cut p q (ws ++ qs)
  | empty ws => exact .empty (ws ++ qs)
  | trans _ _ ih ih' => exact ih.trans ih'

theorem append_left (qs : List ByteArray) (h : Carries ws ps) : Carries (qs ++ ws) (qs ++ ps) :=
  (perm List.perm_append_comm).trans ((h.append_right qs).trans (perm List.perm_append_comm))

/-- Two pieces that were joined. -/
theorem joined (p q : ByteArray) : Carries [p ++ q] [p, q] := .cut p q []

theorem nil_empty : Carries [] [.empty] := .empty []

theorem nil (ws : List ByteArray) : Carries ws [] := .sub List.nil_subperm

/-- A write in one of two places is a write in the one or in the other. -/
theorem comm (ws ws' : List ByteArray) : Carries (ws ++ ws') (ws' ++ ws) :=
  perm List.perm_append_comm

/-- The piece is a part of one of the writes. -/
def Part (p : ByteArray) (ws : List ByteArray) : Prop :=
  ∃ w ∈ ws, ∃ front back, w = front ++ p ++ back

/-- **A piece that has bytes is a part of some write.** -/
theorem part (h : Carries ws ps) : p ∈ ps → p ≠ .empty → Part p ws := by
  induction h generalizing p with
  | sub h => exact fun hp _ => ⟨p, h.subset hp, .empty, .empty, by simp⟩
  | cut p' q ws =>
    intro hp hne
    rcases List.mem_cons.1 hp with rfl | hp
    · exact ⟨_, List.mem_cons_self, .empty, q, by simp⟩
    rcases List.mem_cons.1 hp with rfl | hp
    · exact ⟨_, List.mem_cons_self, p', .empty, by simp⟩
    · exact ⟨p, List.mem_cons_of_mem _ hp, .empty, .empty, by simp⟩
  | empty ws =>
    intro hp hne
    rcases List.mem_cons.1 hp with rfl | hp
    · exact absurd rfl hne
    · exact ⟨p, hp, .empty, .empty, by simp⟩
  | trans _ _ ih ih' =>
    intro hp hne
    obtain ⟨q, hq, front, back, rfl⟩ := ih' hp hne
    -- a part of a part is a part
    have hq' : front ++ p ++ back ≠ .empty := by
      intro he
      refine hne ?_
      have hsize := congrArg ByteArray.size he
      simp only [ByteArray.size_append, ByteArray.size_empty] at hsize
      exact ByteArray.size_eq_zero_iff.1 (by omega)
    obtain ⟨w, hw, front', back', rfl⟩ := ih hq hq'
    exact ⟨_, hw, front' ++ front, back ++ back', by simp [ByteArray.append_assoc]⟩

end Carries

/-- The payload of a write. -/
def Call.payload? : Call → Option ByteArray
  | write p => some p
  | _ => none

/-- The payloads of the writes among calls, in order. -/
def offered (cs : List (Call × Outcome)) : List ByteArray := cs.filterMap fun c => c.1.payload?

@[simp] theorem offered_nil : offered [] = [] := rfl

@[simp] theorem offered_append (cs cs' : List (Call × Outcome)) :
    offered (cs ++ cs') = offered cs ++ offered cs' :=
  List.filterMap_append

end Logging.Sink
