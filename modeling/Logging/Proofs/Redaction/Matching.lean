import Logging.Proofs.Redaction.Fold
import Logging.Proofs.Redaction.Rules

/-!
# Patterns for common secrets

Each of the three patterns begins at the edge of a word and spells a text out from there, with
greedy runs that never have to give anything back. So it matches wherever its rule takes something,
and takes and puts the same.

* `follows_edge`: a pattern that begins at the edge of a word follows a rule of that kind.
* `follows_assigned`, `follows_bearer`, `follows_accessKey`: the three patterns and their rules.
* `commonSecrets_eq`: the chain for common secrets can be built.
* `redact_preset`: **what it makes of a text is the sweep of the three rules, one after the other.**
-/

namespace Logging.Secret

open Pattern

/-! ## Patterns that begin at the edge of a word -/

/-- A place with no choice and no group kept. -/
def cleared (s : Spot) : Spot := { s with marks := [], groups := [] }

theorem cleared_pass (s : Spot) (cs : List Char) : cleared (s.pass cs) = (cleared s).pass cs := by
  induction cs generalizing s with
  | nil => rfl
  | cons c cs ih => exact ih (s.take c s.rest.tail)

/-- A match that ends behind what is taken. -/
theorem lands_of_cleared {p : Pattern} {template : String} {s e : Spot} {h : Hit}
    (hne : h.taken ≠ []) (hfront : h.taken <+: s.rest)
    (he : cleared e = (cleared s).pass h.taken)
    (hput : ∀ text, text.drop s.index = s.rest → filled p template text s e = h.put) :
    Lands p template s h e where
  index := by
    have hindex := congrArg Spot.index he
    rwa [Spot.index_pass] at hindex
  previous := by
    have hprevious := congrArg Spot.previous he
    rwa [Spot.previous_pass _ hne] at hprevious
  rest := by
    obtain ⟨rest, hrest⟩ := hfront
    have hends := congrArg Spot.rest he
    rw [Spot.rest_pass (s := cleared s) hrest.symm] at hends
    rw [← hrest]
    exact congrArg _ hends.symm
  put := hput

theorem filled_plain {p : Pattern} {template : String} {cs : List Char}
    (h : Template.parse template = cs.map .char) (text : List Char) (s e : Spot) :
    filled p template text s e = cs := by
  simp only [filled, Template.fill, h, List.flatMap_map]
  exact List.flatMap_singleton' cs

theorem rel_imp {α β : Type} {R S : α → β → Prop} (h : ∀ {x y}, R x y → S x y) {a : Option α}
    {b : Option β} : Option.Rel R a b → Option.Rel S a b
  | .none => .none
  | .some hxy => .some (h hxy)

theorem rel_map {α β γ : Type} {R : α → β → Prop} {S : γ → β → Prop} {f : α → γ} {a : Option α}
    {b : Option β} (h : ∀ {x y}, a = some x → R x y → S (f x) y) (hrel : Option.Rel R a b) :
    Option.Rel S (a.map f) b := by
  cases hrel with
  | none => exact .none
  | some hxy => exact .some (h rfl hxy)

theorem rel_findSome? {ι α β : Type} {R : α → β → Prop} {f : ι → Option α} {g : ι → Option β}
    {l : List ι} (h : ∀ i ∈ l, Option.Rel R (f i) (g i)) :
    Option.Rel R (l.findSome? f) (l.findSome? g) := by
  induction l with
  | nil => exact .none
  | cons i l ih =>
    have hi := h i List.mem_cons_self
    rw [List.findSome?_cons, List.findSome?_cons]
    cases hf : f i with
    | none =>
      rw [hf] at hi
      cases hg : g i with
      | none => exact ih fun j hj => h j (List.mem_cons_of_mem _ hj)
      | some y => rw [hg] at hi; cases hi
    | some x =>
      rw [hf] at hi
      cases hg : g i with
      | none => rw [hg] at hi; cases hi
      | some y => rw [hg] at hi; exact hi

theorem rel_boundary {α β : Type} {R : α → β → Prop} {s : Spot} {a : Option α} {b : Option β}
    (hrel : Option.Rel R a b) (hword : ∀ x, a = some x → inWord s.rest.head? = true) :
    Option.Rel R (if inWord s.previous then none else a)
      (if s.holds (.wordBoundary false) then b else none) := by
  have hholds : s.holds (.wordBoundary false) = (inWord s.previous != inWord s.rest.head?) := rfl
  cases hrel with
  | none => rw [ite_self, ite_self]; exact .none
  | some hxy =>
    rw [hholds, hword _ rfl]
    cases inWord s.previous with
    | true => exact .none
    | false => exact .some hxy

/-- A pattern that begins at the edge of a word follows a rule of that kind. -/
theorem follows_edge {p : Pattern} {template : String} {r : Rule} (t : Term)
    (f : List Char → Option Hit) (hr : ∀ q cs, r.hit? q cs = if inWord q then none else f cs)
    (hterm : ∀ s, p.term.ends s = (Term.cat (.look (.wordBoundary false)) t).ends s)
    (hrel : ∀ s : Spot, s.marks = [] → s.groups = [] →
      Option.Rel (Lands p template s) (f s.rest) (t.ends s).head?)
    (hword : ∀ {cs h}, f cs = some h → inWord cs.head? = true) :
    Follows p template r := by
  intro s
  have hends : p.term.matchAt? s =
      if s.holds (.wordBoundary false) then (t.ends (cleared s)).head? else none := by
    show (p.term.ends (cleared s)).head? = _
    have hsame : (cleared s).holds (.wordBoundary false) = s.holds (.wordBoundary false) := rfl
    rw [hterm, Term.head?_ends_cat, ← hsame]
    by_cases h : (cleared s).holds (.wordBoundary false) = true
    · simp [Term.ends, h]
    · simp [Term.ends, h]
  rw [hends, hr]
  refine rel_boundary ?_ fun h hh => hword hh
  exact rel_imp (fun hl => ⟨hl.index, hl.previous, hl.rest, hl.put⟩) (hrel (cleared s) rfl rfl)

/-! ## The three patterns -/

/-- The name in two parts. -/
def jointTerm : Term :=
  .behind (spelled "api") (.cat (.alt 5 (.set joint) .empty) (.word (spelled "key")))

/-- The name of a secret, in the form in which it is matched. -/
def nameTerm : Term :=
  .choice 0 (["password", "passwd", "pwd", "secret", "token"].map spelled) jointTerm

/-- What follows the name. -/
def valueTerm : Term := .behind [letter '=', solid] (.star 6 true (.set solid))

def assignedTerm : Term :=
  .cat .empty (.cat (.look (.wordBoundary false)) (.cat (.group 1 nameTerm) valueTerm))

/-- A token with the equals signs behind it. -/
def paddedTerm : Term :=
  .cat (.cat (.set token) (.star 1 true (.set token))) (.star 2 true (.set (letter '=')))

/-- The word, white space, and a token behind it. -/
def tokenTerm : Term :=
  .behind (spelled "bearer") (.cat (.cat (.set .space) (.star 0 true (.set .space))) paddedTerm)

def bearerTerm : Term := .cat .empty (.cat (.look (.wordBoundary false)) tokenTerm)

/-- The front of an access key, what follows it, and the end of the word. -/
def keyTerm : Term :=
  .behind ("AKIA".toList.map .single)
    (.cat (.word (List.replicate 16 keySet)) (.look (.wordBoundary false)))

def accessKeyTerm : Term := .cat (.look (.wordBoundary false)) keyTerm

open RedactorChain in
theorem compile?_assignedSecret :
    Pattern.compile? assignedSecret = some ⟨assignedSecret, assignedTerm, []⟩ := rfl

open RedactorChain in
theorem compile?_bearerToken :
    Pattern.compile? bearerToken = some ⟨bearerToken, bearerTerm, []⟩ := rfl

theorem compile?_accessKey : Pattern.compile? RedactorChain.accessKey =
    some ⟨RedactorChain.accessKey, accessKeyTerm, []⟩ := rfl

/-! ### Names -/

theorem eq_of_contains_joint {c : Char} (h : joint.contains c = true) : c = '_' ∨ c = '-' := by
  rw [contains_joint, Bool.or_eq_true, contains_sign (by decide), contains_sign (by decide)] at h
  exact h

/-- Either sign stands between the two parts of a name. -/
theorem filterMap_joint (s : Spot) (w : List CharSet) :
    [joint :: w].filterMap s.passWord? =
      [letter '_' :: w, letter '-' :: w].filterMap s.passWord? := by
  simp only [List.filterMap_cons, List.filterMap_nil, Spot.passWord?_cons]
  cases hr : s.rest with
  | nil => simp [Spot.step?, hr]
  | cons c rest =>
    have hone : ¬ ((letter '_').contains c = true ∧ (letter '-').contains c = true) := by
      rw [contains_sign (by decide), contains_sign (by decide)]
      rintro ⟨rfl, h⟩
      cases h
    simp only [Spot.step?, hr, contains_joint]
    cases h₁ : (letter '_').contains c <;> cases h₂ : (letter '-').contains c
    · rfl
    · rfl
    · cases (s.take c rest).passWord? w <;> rfl
    · exact absurd ⟨h₁, h₂⟩ hone

theorem marks_of_passWord? {s e : Spot} {w : List CharSet} (hw : w ≠ [])
    (h : s.passWord? w = some e) : e.marks = [] := by
  rw [Spot.passWord?_eq] at h
  split at h
  · rename_i hfits
    cases h
    exact Spot.marks_pass s (take_ne_nil_of_fits hw hfits)
  · cases h

theorem ends_jointTerm (s : Spot) : jointTerm.ends s =
    ["api_key", "api-key", "apikey"].filterMap fun n => s.passWord? (spelled n) := by
  have hkey : ∀ c rest, joint.contains c = true → fits (spelled "key") (c :: rest) = false := by
    intro c rest hc
    have hk : ∀ c ∈ ['_', '-'], (letter 'k').contains c = false := by decide
    have hc := hk c (by simpa using eq_of_contains_joint hc)
    show ((letter 'k').contains c && _) = false
    rw [hc, Bool.false_and]
  have hnames : (["api_key", "api-key", "apikey"].filterMap fun n => s.passWord? (spelled n)) =
      [letter '_' :: spelled "key", letter '-' :: spelled "key", spelled "key"].filterMap
        fun w => (s.passWord? (spelled "api")).bind (·.passWord? w) := by
    simp only [← Spot.passWord?_append]
    rfl
  rw [jointTerm, Term.ends_behind, hnames]
  cases he : s.passWord? (spelled "api") with
  | none => rfl
  | some e =>
    have hmarks : 5 ∉ e.marks := by
      rw [marks_of_passWord? (by decide) he]
      exact List.not_mem_nil
    have hsigns := filterMap_joint e (spelled "key")
    show (Term.cat _ _).ends e = List.filterMap e.passWord?
      ([letter '_' :: spelled "key", letter '-' :: spelled "key"] ++ [spelled "key"])
    rw [Term.ends_optional (by decide) hmarks hkey, List.filterMap_append, ← hsigns,
      ← List.filterMap_append]
    rfl

/-- **The places behind the name of a secret**, in order of preference. -/
theorem ends_nameTerm {s : Spot} (hs : s.marks = []) :
    nameTerm.ends s = names.filterMap fun n => s.passWord? (spelled n) := by
  have hfresh : ∀ (s : Spot) (m : Nat), jointTerm.ends (s.mark m) = jointTerm.ends s := by
    intro s m
    rw [jointTerm, Term.ends_behind, Term.ends_behind, Spot.passWord?_mark (by decide)]
  rw [nameTerm, Term.ends_choice (by decide) hfresh (by rw [hs]; simp), ends_jointTerm,
    List.filterMap_map]
  exact (List.filterMap_append (l := ["password", "passwd", "pwd", "secret", "token"])).symm

/-! ### Words behind the edge -/

theorem inWord_of_fits {x : Char} {w : List CharSet} {cs : List Char}
    (hx : Text.isAsciiLetter x = true) (h : fits (letter x :: w) cs = true) :
    inWord cs.head? = true := by
  cases cs with
  | nil => cases h
  | cons c cs =>
    have hc := (Bool.and_eq_true_iff.1 h).1
    exact Text.isWord_of_alike hx ((contains_letter (.inl hx)).1 hc)

theorem names_begin :
    ∀ n ∈ names, ∃ x w, spelled n = letter x :: w ∧ Text.isAsciiLetter x = true := by
  simp only [names, List.forall_mem_cons, List.not_mem_nil, false_implies, implies_true, and_true]
  exact ⟨⟨_, _, rfl, by decide⟩, ⟨_, _, rfl, by decide⟩, ⟨_, _, rfl, by decide⟩,
    ⟨_, _, rfl, by decide⟩, ⟨_, _, rfl, by decide⟩, ⟨_, _, rfl, by decide⟩, ⟨_, _, rfl, by decide⟩,
    ⟨_, _, rfl, by decide⟩⟩

/-! ### Values -/

theorem head?_valueTerm (s : Spot) :
    Option.Rel (fun v e => cleared e = (cleared s).pass v ∧ e.groups = s.groups)
      (value? s.rest) (valueTerm.ends s).head? := by
  rw [valueTerm, Term.ends_behind, Spot.passWord?_eq, value?]
  by_cases hfits : fits [letter '=', solid] s.rest = true
  case neg => simp [hfits]
  have hrest : (s.pass (s.rest.take 2)).rest = s.rest.drop 2 :=
    Spot.rest_pass (List.take_append_drop _ _).symm
  have hmarks : (s.pass (s.rest.take 2)).marks = [] :=
    Spot.marks_pass s (take_ne_nil_of_fits (by decide : [letter '=', solid] ≠ []) hfits)
  obtain ⟨es, hes, -⟩ := Term.ends_star_set (m := 6) solid (hmarks ▸ List.not_mem_nil)
  simp only [hfits, if_true, Option.elim_some, List.length_cons, List.length_nil, hes,
    List.head?_cons]
  refine .some ⟨?_, ?_⟩
  · rw [Spot.pass_append, ← cleared_pass, ← hrest, ← cleared_pass]
    rfl
  · rw [Spot.groups_mark, Spot.groups_pass, Spot.groups_pass]

/-- The match behind a name. -/
theorem rel_nameHit? {s : Spot} (hg : s.groups = []) (n : String) :
    Option.Rel (Lands ⟨RedactorChain.assignedSecret, assignedTerm, []⟩ "$1=***" s)
      (nameHit? s.rest n)
      ((s.passWord? (spelled n)).bind fun e => (valueTerm.ends (e.keep 1 s.index)).head?) := by
  rw [nameHit?, Spot.passWord?_eq]
  generalize spelled n = w
  by_cases hfits : fits w s.rest = true
  case neg => simp [hfits]
  simp only [hfits, if_true, Option.bind_some]
  set name := s.rest.take w.length with hname
  set e := (s.pass name).keep 1 s.index with he
  have hrest : e.rest = s.rest.drop w.length :=
    Spot.rest_pass (s := s) (List.take_append_drop _ _).symm
  have hvalue := head?_valueTerm e
  rw [hrest] at hvalue
  refine rel_map (fun {v f} hv hf => ?_) hvalue
  refine lands_of_cleared ?_ ?_ ?_ fun text htext => ?_
  · exact List.append_ne_nil_of_right_ne_nil _ (value?_ne_nil hv)
  · exact prefix_of_take (value?_front hv)
  · rw [hf.1, Spot.pass_append, ← cleared_pass s]
    rfl
  · have hgroups : f.groups = [(1, s.index, s.index + name.length)] := by
      have hindex : e.index = s.index + name.length := Spot.index_pass s name
      rw [hf.2, ← hindex]
      show (1, s.index, e.index) :: (s.pass name).groups = _
      rw [Spot.groups_pass, hg]
    have hgroup : groupText text s f 1 = name := by
      simp only [groupText, hgroups]
      simp [htext, hname]
    have hparts : Template.parse "$1=***" =
        .number 1 :: ("=***".toList.map Template.Part.char) := by decide
    simp only [filled, Template.fill, hparts, List.flatMap_cons, hgroup]
    rfl

theorem findSome?_filterMap {ι α β : Type} (f : ι → Option α) (g : α → Option β) (l : List ι) :
    (l.filterMap f).findSome? g = l.findSome? fun i => (f i).bind g := by
  induction l with
  | nil => rfl
  | cons i l ih =>
    rw [List.findSome?_cons]
    cases hf : f i with
    | none => rw [List.filterMap_cons_none hf, ih]; rfl
    | some a => rw [List.filterMap_cons_some hf, List.findSome?_cons, ih]; rfl

theorem follows_assigned :
    Follows ⟨RedactorChain.assignedSecret, assignedTerm, []⟩ "$1=***" assigned := by
  refine follows_edge (.cat (.group 1 nameTerm) valueTerm) (fun cs => names.findSome? (nameHit? cs))
    (fun _ _ => rfl) (fun s => ?_) (fun s hm hg => ?_) fun {cs h} hh => ?_
  · exact Term.ends_cat_of_single rfl
  · have hgroup : (Term.group 1 nameTerm).ends s =
        (names.filterMap fun n => s.passWord? (spelled n)).map fun e => e.keep 1 s.index := by
      rw [Term.ends, ends_nameTerm hm]
    rw [Term.head?_ends_cat, hgroup, List.findSome?_map, findSome?_filterMap]
    exact rel_findSome? fun n _ => rel_nameHit? hg n
  · obtain ⟨n, hn, hh⟩ := List.exists_of_findSome?_eq_some hh
    obtain ⟨x, w, hw, hx⟩ := names_begin n hn
    have hfits := (nameHit?_some hh).1
    rw [hw] at hfits
    exact inWord_of_fits hx hfits

/-! ### Tokens -/

theorem head?_paddedTerm (s : Spot) :
    Option.Rel (fun v e => cleared e = (cleared s).pass v)
      (padded? s.rest) (paddedTerm.ends s).head? := by
  rw [padded?, paddedTerm]
  set tok := s.rest.takeWhile token.contains with htok
  by_cases hnone : tok = []
  case pos => simp [hnone, Term.ends_cat_of_nil (Term.ends_plus_set_nil (htok ▸ hnone))]
  have hrest : (s.pass tok).rest = s.rest.dropWhile token.contains :=
    Spot.rest_pass List.takeWhile_append_dropWhile.symm
  have hmarks : 2 ∉ ((s.pass tok).mark 1).marks := by
    show 2 ∉ 1 :: (s.pass tok).marks
    rw [Spot.marks_pass s hnone]
    decide
  obtain ⟨es, hes, -⟩ := Term.ends_plus_set (m := 1) (htok ▸ hnone)
  obtain ⟨fs, hfs, -⟩ := Term.ends_star_set (letter '=') hmarks
  rw [Spot.rest_mark, hrest] at hfs
  rw [← htok] at hes
  simp only [hnone, if_false, Term.head?_ends_cat, hes, List.findSome?_cons, hfs, List.head?_cons]
  refine .some ?_
  rw [Spot.pass_append, ← cleared_pass, ← cleared_pass]
  exact (cleared_pass _ _).trans (cleared_pass (s.pass tok) _).symm

/-- No token begins with white space. -/
theorem ends_paddedTerm_space {e : Spot} (h : Term.Within .space e) : paddedTerm.ends e = [] := by
  obtain ⟨c, hc, hspace⟩ := h
  obtain ⟨cs, hcs⟩ := List.head?_eq_some_iff.1 hc
  apply Term.ends_cat_of_nil
  apply Term.ends_plus_set_nil
  rw [hcs, List.takeWhile_cons_of_neg (by simp [token_of_space hspace])]

/-- The match behind the edge of a word. -/
theorem rel_tokenHit? (s : Spot) :
    Option.Rel (Lands ⟨RedactorChain.bearerToken, bearerTerm, []⟩ "Bearer ***" s) (tokenHit? s.rest)
      (tokenTerm.ends s).head? := by
  simp only [tokenTerm, tokenHit?, Term.ends_behind, Spot.passWord?_eq]
  generalize spelled "bearer" = w
  by_cases hfits : fits w s.rest = true
  case neg => simp [hfits]
  have hrest : (s.pass (s.rest.take w.length)).rest = s.rest.drop w.length :=
    Spot.rest_pass (List.take_append_drop _ _).symm
  simp only [hfits, true_and, if_true, Option.elim_some,
    Term.head?_ends_plus_cat fun _ => ends_paddedTerm_space, hrest]
  set gap := (s.rest.drop w.length).takeWhile CharSet.space.contains with hgap
  by_cases hnone : gap = []
  case pos => simp [hnone]
  set e := ((s.pass (s.rest.take w.length)).pass gap).mark 0 with he
  have herest : e.rest = (s.rest.drop w.length).dropWhile CharSet.space.contains := by
    apply Spot.rest_pass
    rw [hrest, hgap, List.takeWhile_append_dropWhile]
  have hparts : Template.parse "Bearer ***" = "Bearer ***".toList.map .char := by decide
  have htoken := head?_paddedTerm e
  rw [herest] at htoken
  simp only [hnone, ne_eq, not_false_eq_true, if_true, if_false]
  refine rel_map (fun {v f} hv hf => ?_) htoken
  refine lands_of_cleared ?_ ?_ ?_ fun text _ => filled_plain hparts text s f
  · exact List.append_ne_nil_of_right_ne_nil _ (List.append_ne_nil_of_left_ne_nil hnone v)
  · exact prefix_of_take (prefix_of_takeWhile (padded?_front hv))
  · have hcleared : cleared e = ((cleared s).pass (s.rest.take w.length)).pass gap := by
      rw [← cleared_pass, ← cleared_pass]
      rfl
    rw [hf, hcleared, Spot.pass_append, Spot.pass_append]

theorem follows_bearer :
    Follows ⟨RedactorChain.bearerToken, bearerTerm, []⟩ "Bearer ***" bearer := by
  refine follows_edge tokenTerm tokenHit? (fun _ _ => rfl) (fun s => ?_)
    (fun s _ _ => rel_tokenHit? s) fun {cs h} hh => ?_
  · exact Term.ends_cat_of_single rfl
  · exact inWord_of_fits (by decide) (tokenHit?_some hh).1

/-! ### Access keys -/

theorem rel_keyHit? (s : Spot) :
    Option.Rel (Lands ⟨RedactorChain.accessKey, accessKeyTerm, []⟩ "AKIA****************" s)
      (keyHit? s.rest) (keyTerm.ends s).head? := by
  have hends : (keyTerm.ends s).head? = (s.passWord? keyWord).bind fun e =>
      if e.holds (.wordBoundary false) then some e else none := by
    rw [keyTerm, Term.ends_behind, keyWord, Spot.passWord?_append]
    cases s.passWord? ("AKIA".toList.map .single) with
    | none => rfl
    | some e =>
      simp only [Option.elim_some, Option.bind_some]
      rw [Term.head?_ends_cat, Term.ends_word (by decide)]
      cases e.passWord? (List.replicate 16 keySet) with
      | none => rfl
      | some f =>
        rw [Option.toList_some, List.findSome?_singleton, Term.ends]
        by_cases h : f.holds (.wordBoundary false) = true <;> simp [h]
  rw [hends, Spot.passWord?_eq, keyHit?]
  by_cases hfits : fits keyWord s.rest = true
  case neg => simp [hfits]
  set key := s.rest.take keyWord.length with hkey
  have hne : key ≠ [] := take_ne_nil_of_fits (by decide) hfits
  have hrest : (s.pass key).rest = s.rest.drop keyWord.length :=
    Spot.rest_pass (List.take_append_drop _ _).symm
  have hlast : inWord (s.pass key).previous = true := by
    rw [Spot.previous_pass s hne, List.getLast?_eq_some_getLast hne]
    exact isWord_of_keyWord hfits (List.getLast_mem hne)
  have hholds : (s.pass key).holds (.wordBoundary false) =
      !inWord (s.rest.drop keyWord.length).head? := by
    show (inWord (s.pass key).previous != inWord (s.pass key).rest.head?) = _
    rw [hlast, hrest, Bool.true_bne]
  simp only [hfits, Bool.true_and, if_true, Option.bind_some, hholds]
  split
  · have hparts : Template.parse "AKIA****************" =
        "AKIA****************".toList.map .char := by decide
    exact .some (lands_of_cleared hne (List.take_prefix _ _) (cleared_pass s key)
      fun text _ => filled_plain hparts text s (s.pass key))
  · exact .none

theorem follows_accessKey : Follows ⟨RedactorChain.accessKey, accessKeyTerm, []⟩
    "AKIA****************" accessKey := by
  refine follows_edge keyTerm keyHit? (fun _ _ => rfl) (fun _ => rfl) (fun s _ _ => rel_keyHit? s)
    fun {cs h} hh => ?_
  simp only [keyHit?] at hh
  split at hh
  · rename_i hfits
    have hfits := (Bool.and_eq_true_iff.1 hfits).1
    have hne : cs.take keyWord.length ≠ [] := take_ne_nil_of_fits (by decide) hfits
    have hhead : cs.head? = (cs.take keyWord.length).head? := by
      rw [List.head?_take, if_neg (by decide)]
    rw [hhead, List.head?_eq_some_head hne]
    exact isWord_of_keyWord hfits (List.head_mem hne)
  · cases hh

/-! ## The chain -/

/-- The chain for common secrets. -/
def preset : RedactorChain :=
  ⟨[.rule ⟨RedactorChain.assignedSecret, assignedTerm, []⟩ "$1=***",
    .rule ⟨RedactorChain.bearerToken, bearerTerm, []⟩ "Bearer ***",
    .rule ⟨RedactorChain.accessKey, accessKeyTerm, []⟩ "AKIA****************"]⟩

theorem commonSecrets_eq : RedactorChain.commonSecrets = .ok preset := by
  simp only [RedactorChain.commonSecrets, RedactorChain.secretRules, List.foldlM_cons,
    List.foldlM_nil, RedactorChain.addRule, RedactorChain.rule, compile?_assignedSecret,
    compile?_bearerToken, compile?_accessKey]
  rfl

/-- A rule by a pattern that follows a rule of the text. -/
theorem text_replace {p : Pattern} {template : String} {r : Rule} (h : Follows p template r)
    (text : String) :
    (Redactor.replace p template text).text = String.ofList (r.sweep none text.toList) := by
  rw [← h.getD_replaceAll?, Redactor.replace]
  cases p.replaceAll? template text <;> rfl

/-- **Masking common secrets** sweeps the text three times. -/
theorem redact_preset (text : String) : preset.redact text =
    String.ofList (accessKey.sweep none (bearer.sweep none (assigned.sweep none text.toList))) := by
  rw [Redactor.commonSecrets_eq_fold commonSecrets_eq]
  simp only [Redactor.fold, preset, List.foldl_cons, List.foldl_nil, Redactor.rewrite]
  rw [text_replace follows_assigned, text_replace follows_bearer, text_replace follows_accessKey,
    String.toList_ofList, String.toList_ofList]

end Logging.Secret
