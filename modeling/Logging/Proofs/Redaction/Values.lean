import Logging.Proofs.Redaction.Masks
import Logging.Proofs.Redaction.Matching

/-!
# Values do not show

The first sweep looks no further than the next white space (`sweep_spaced`). Between white space an
assignment either takes all that is left, whatever the value is, or takes nothing (`hit_run`). So
after the first sweep nothing is left of a value, and the later sweeps do not see it.

* `OpenEnded`, `Unspaced`, `Spaced`: what may stand in front of a secret, the secret, and what may
  follow it.
* `value_hidden`: **what is assigned to the name of a secret does not show.**
-/

namespace Logging.Secret

open Pattern

/-! ## What stands around a secret -/

/-- A text that is empty or ends in a character that is none of a word. -/
def OpenEnded (u : String) : Prop := inWord u.toList.getLast? = false

/-- A text without white space that is not empty. -/
def Unspaced (s : String) : Prop := s ≠ "" ∧ ∀ c ∈ s.toList, Text.isSpace c = false

/-- A text that is empty or begins with white space. -/
def Spaced (v : String) : Prop := v.toList.head?.all Text.isSpace = true

instance (u : String) : Decidable (OpenEnded u) := inferInstanceAs (Decidable (_ = _))

instance (s : String) : Decidable (Unspaced s) := inferInstanceAs (Decidable (_ ∧ _))

instance (v : String) : Decidable (Spaced v) := inferInstanceAs (Decidable (_ = _))

theorem Spaced.stops {v : String} (hv : Spaced v) : Stops solid.contains v.toList := by
  intro c hc
  rw [Spaced, hc] at hv
  have hspace : Text.isSpace c = true := hv
  rw [contains_solid, hspace, Bool.not_true]

theorem Unspaced.isValue {s v : String} (hs : Unspaced s) (hv : Spaced v) :
    IsValue s.toList v.toList where
  ne_nil := by simpa using hs.1
  solid c hc := by rw [contains_solid, hs.2 c hc, Bool.not_false]
  stops := hv.stops

/-! ## White space -/

variable {p : Option Char} {cs tail : List Char}

theorem IsName.solid {name : List Char} (h : IsName name) :
    ∀ c ∈ name, Secret.solid.contains c = true := by
  have htoken : ∀ n ∈ names, ∀ x ∈ n.toList, ∀ c ∈ x :: Text.otherCases x,
      token.contains c = true := by decide
  obtain ⟨n, hn, hspells⟩ := h
  exact forall_of_spells hspells fun x hx c hc =>
    solid_of_token (htoken n hn x hx c (List.mem_cons.2 hc))

/-- Assignments look no further than white space. -/
theorem hit_spaced (htail : Stops solid.contains tail) (p : Option Char) (cs : List Char) :
    assigned.hit? p (cs ++ tail) = assigned.hit? p cs := by
  ext h
  simp only [assigned_hit]
  refine and_congr_right fun _ => ⟨?_, ?_⟩
  · rintro ⟨name, v, rest, ⟨hname, ⟨hne, hsolid, hstops⟩, htext⟩, rfl⟩
    have hrun : ∀ c ∈ name ++ '=' :: v, solid.contains c = true :=
      List.forall_mem_append.2 ⟨hname.solid, List.forall_mem_cons.2 ⟨by decide, hsolid⟩⟩
    have hsplit : cs ++ tail = (name ++ '=' :: v) ++ rest := by rw [htext]; simp
    obtain ⟨rest', rfl, rfl⟩ := split_run hrun htail hsplit
    exact ⟨name, v, rest', ⟨hname, ⟨hne, hsolid, hstops.of_append⟩, by simp⟩, rfl⟩
  · rintro ⟨name, v, rest, ⟨hname, ⟨hne, hsolid, hstops⟩, rfl⟩, rfl⟩
    exact ⟨name, v, rest ++ tail, ⟨hname, ⟨hne, hsolid, hstops.append htail⟩, by simp⟩, rfl⟩

/-- **The first sweep looks no further than white space.** -/
theorem sweep_spaced (htail : Stops solid.contains tail) (p : Option Char) (cs : List Char) :
    assigned.sweep p (cs ++ tail) = assigned.sweep p cs ++ assigned.sweep none tail := by
  rw [Rule.sweep_append (hit_spaced htail), masks_assigned.sweep_stops htail _ none]

/-! ## Values -/

theorem split_equals (d : List Char) : ∃ name more, '=' ∉ name ∧ more ⊆ '=' :: d ∧
    ∀ s, d ++ '=' :: s = name ++ '=' :: (more ++ s) := by
  by_cases hd : '=' ∈ d
  · obtain ⟨name, more, rfl, hname⟩ := List.eq_append_cons_of_mem hd
    refine ⟨name, more ++ ['='], hname, fun c hc => ?_, fun s => by simp⟩
    rcases List.mem_append.1 hc with hc | hc
    · simp [hc]
    · simp [List.mem_singleton.1 hc]
  · exact ⟨d, [], hd, List.nil_subset _, fun s => rfl⟩

/-- **An assignment that goes on up to the value takes the value**, whatever it is, or there is
none. -/
theorem hit_run {d : List Char} (hd : ∀ c ∈ d, solid.contains c = true) (p : Option Char) :
    (∃ put, ∀ s v, IsValue s v →
      assigned.hit? p (d ++ '=' :: (s ++ v)) = some ⟨d ++ '=' :: s, put⟩) ∨
    ∀ s v, IsValue s v → assigned.hit? p (d ++ '=' :: (s ++ v)) = none := by
  obtain ⟨name, more, hname, hmore, hsplit⟩ := split_equals d
  have hequals : ∀ c ∈ more, solid.contains c = true := by
    have hall : ∀ c ∈ '=' :: d, solid.contains c = true := List.forall_mem_cons.2 ⟨by decide, hd⟩
    exact fun c hc => hall c (hmore hc)
  by_cases h : inWord p = false ∧ IsName name
  · refine .inl ⟨name ++ "=***".toList, fun s v hv => ?_⟩
    refine assigned_hit.2 ⟨h.1, name, more ++ s, v, ?_, ?_⟩
    · refine ⟨h.2, ⟨?_, ?_, hv.stops⟩, by rw [hsplit, List.append_assoc]⟩
      · exact List.append_ne_nil_of_right_ne_nil _ hv.ne_nil
      · exact List.forall_mem_append.2 ⟨hequals, hv.solid⟩
    · rw [hsplit]
  · refine .inr fun s v hv => ?_
    cases hh : assigned.hit? p (d ++ '=' :: (s ++ v)) with
    | none => rfl
    | some hit =>
      obtain ⟨hp, name', v', rest, hassign, -⟩ := assigned_hit.1 hh
      have hsame := congrArg (List.takeWhile (· != '=')) ((hsplit _).symm.trans hassign.text)
      rw [takeWhile_name hname, takeWhile_name hassign.isName.equals_notMem] at hsame
      exact absurd ⟨hp, hsame ▸ hassign.isName⟩ h

/-- Between white space the first sweep leaves nothing of a value. -/
theorem sweep_run {run name : List Char} (hrun : ∀ c ∈ run, solid.contains c = true)
    (hname : IsName name) (hopen : inWord (run.getLast?.or p) = false) :
    ∃ out, ∀ s v, IsValue s v → assigned.sweep p (run ++ (name ++ '=' :: (s ++ v))) =
      out ++ assigned.sweep none v := by
  induction run generalizing p with
  | nil =>
    refine ⟨name ++ "=***".toList, fun s v hv => ?_⟩
    have hhit : assigned.hit? p ((name ++ '=' :: s) ++ v) = some ⟨name ++ '=' :: s, _⟩ :=
      assigned_hit.2 ⟨hopen, name, s, v, ⟨hname, hv, by simp⟩, rfl⟩
    have hsweep := Rule.sweep_put hhit
    rw [masks_assigned.sweep_stops hv.stops _ none] at hsweep
    rw [← hsweep]
    simp
  | cons c run ih =>
    have hd : ∀ x ∈ c :: run ++ name, solid.contains x = true :=
      List.forall_mem_append.2 ⟨hrun, hname.solid⟩
    rcases hit_run hd p with ⟨put, hhit⟩ | hmiss
    · refine ⟨put, fun s v hv => ?_⟩
      have hh := hhit s v hv
      have htext : c :: run ++ name ++ '=' :: (s ++ v) = (c :: run ++ name ++ '=' :: s) ++ v := by
        simp
      rw [htext] at hh
      have hsweep := Rule.sweep_put hh
      rw [masks_assigned.sweep_stops hv.stops _ none, ← htext, List.append_assoc] at hsweep
      exact hsweep
    · rw [getLast?_cons_or] at hopen
      obtain ⟨out, hout⟩ := ih (fun x hx => hrun x (List.mem_cons_of_mem c hx)) hopen
      refine ⟨c :: out, fun s v hv => ?_⟩
      have hh := hmiss s v hv
      rw [List.append_assoc] at hh
      rw [List.cons_append] at hh ⊢
      rw [Rule.sweep_copy hh, hout s v hv, List.cons_append]

/-- Case does not matter for names. -/
theorem alike_toLower (c : Char) : Text.Alike c c.toLower := by
  have hcapitals : ∀ n ∈ List.range' 0x41 26, Text.Alike (Char.ofNat n) (Char.ofNat n).toLower := by
    decide +kernel
  by_cases hc : c.val ≥ 'A'.val ∧ c.val ≤ 'Z'.val
  · have hcode : c.toNat ∈ List.range' 0x41 26 := by
      simp only [ge_iff_le, UInt32.le_iff_toNat_le, Char.toNat_val, Char.reduceToNat] at hc
      rw [List.mem_range'_1]
      omega
    have hcapital := hcapitals _ hcode
    rwa [Char.ofNat_toNat] at hcapital
  · have hsame : c.toLower = c := by
      unfold Char.toLower
      rw [dif_neg hc]
    rw [hsame]
    exact Text.alike_refl c

theorem isName_of_toLower {name : String} (h : name.toLower ∈ names) : IsName name.toList := by
  refine ⟨name.toLower, h, ?_⟩
  have htext : name.toLower.toList = name.toList.map Char.toLower := String.toList_map
  rw [Spells, htext, List.forall₂_map_right_iff, List.forall₂_same]
  exact fun c _ => alike_toLower c

/-- A text without white space, or the last white space of a text. -/
theorem split_last_space (u : List Char) : (∀ c ∈ u, solid.contains c = true) ∨
    ∃ front w run, u = front ++ w :: run ∧ solid.contains w = false ∧
      ∀ c ∈ run, solid.contains c = true := by
  induction u with
  | nil => exact .inl fun _ hc => by cases hc
  | cons c u ih =>
    rcases ih with hu | ⟨front, w, run, rfl, hw, hrun⟩
    · cases hc : solid.contains c with
      | true => exact .inl (List.forall_mem_cons.2 ⟨hc, hu⟩)
      | false => exact .inr ⟨[], c, u, rfl, hc, hu⟩
    · exact .inr ⟨c :: front, w, run, rfl, hw, hrun⟩

/-- The first sweep leaves nothing of a value. -/
theorem sweep_value {u name : List Char} (hu : inWord u.getLast? = false) (hname : IsName name) :
    ∃ out, ∀ s v, IsValue s v → assigned.sweep none (u ++ (name ++ '=' :: (s ++ v))) =
      out ++ assigned.sweep none v := by
  rcases split_last_space u with hrun | ⟨front, w, run, rfl, hw, hrun⟩
  · exact sweep_run hrun hname (by rwa [Option.or_none])
  · have hlast := getLast?_cons_or none w run
    rw [Option.or_none] at hlast
    rw [List.getLast?_append_of_ne_nil _ (List.cons_ne_nil w run), hlast] at hu
    obtain ⟨out, hout⟩ := sweep_run hrun hname hu
    refine ⟨assigned.sweep none front ++ w :: out, fun s v hv => ?_⟩
    rw [List.append_assoc, List.cons_append, sweep_spaced (stops_cons hw _),
      masks_assigned.sweep_cons (notMem_initials_of_stop hw), hout s v hv, List.append_assoc,
      List.cons_append]

/-- **What is assigned to the name of a secret does not show.** -/
theorem value_hidden : ∃ chain, RedactorChain.commonSecrets = .ok chain ∧
    ∀ u name s s' v : String, OpenEnded u → name.toLower ∈ names → Unspaced s → Unspaced s' →
      Spaced v →
      chain.redact (u ++ name ++ "=" ++ s ++ v) = chain.redact (u ++ name ++ "=" ++ s' ++ v) := by
  refine ⟨preset, commonSecrets_eq, fun u name s s' v hu hname hs hs' hv => ?_⟩
  obtain ⟨out, hout⟩ := sweep_value hu (isName_of_toLower hname)
  have htext : ∀ s : String, (u ++ name ++ "=" ++ s ++ v).toList =
      u.toList ++ (name.toList ++ '=' :: (s.toList ++ v.toList)) := by
    intro s
    simp [String.toList_append]
  rw [redact_preset, redact_preset, htext, htext, hout _ _ (hs.isValue hv),
    hout _ _ (hs'.isValue hv)]

/-- One value holds an equals sign and the text in front of the name is not empty. -/
theorem value_hidden_login : ∃ chain, RedactorChain.commonSecrets = .ok chain ∧
    chain.redact ("user=ann " ++ "PassWord" ++ "=" ++ "a=b" ++ " ok") =
      chain.redact ("user=ann " ++ "PassWord" ++ "=" ++ "xyz" ++ " ok") := by
  obtain ⟨chain, hchain, h⟩ := value_hidden
  exact ⟨chain, hchain, h "user=ann " "PassWord" "a=b" "xyz" " ok" (by decide) (by decide +kernel)
    (by decide) (by decide) (by decide)⟩

end Logging.Secret
