import Logging.Proofs.Json.Lexing

/-!
# JSON text is read back

* `Readable`: the values that their text determines, up to a depth.
* `Builds`: what a reader makes of the tokens of a value, wherever the value stands.
* `read?_render`: **the compact text of a value is read as this value.**
-/

namespace Logging.Json

/-- Values that nest at most so deeply and in which every number is a whole number of 64 bits, with
or without sign. -/
inductive Readable : ℕ → Json → Prop where
  | null (depth : ℕ) : Readable depth null
  | bool (depth : ℕ) (b : Bool) : Readable depth (bool b)
  | int (depth : ℕ) {n : ℤ} (hlow : -0x8000000000000000 ≤ n) (hhigh : n < 0x10000000000000000) :
    Readable depth (int n)
  | string (depth : ℕ) (s : String) : Readable depth (string s)
  | array {depth : ℕ} {items : List Json} (h : ∀ v ∈ items, Readable depth v) :
    Readable (depth + 1) (array items)
  | object {depth : ℕ} {members : List (String × Json)} (h : ∀ e ∈ members, Readable depth e.2) :
    Readable (depth + 1) (object members)

/-! ## Texts in parts -/

section Parts

variable {cs cs' : List Char} {ts ts' : List Token}

theorem lexes_nil : Lexes [] [] := by
  intro rest _
  cases h : Mode.between.tokens? rest <;> simp [h]

theorem Lexes.comma (h : Lexes cs ts) (h' : Lexes cs' ts') :
    Lexes (cs ++ ',' :: cs') (ts ++ .comma :: ts') := by
  intro rest hrest
  have hcomma : Mode.between.step ',' = some ([.comma], .between) := rfl
  rw [List.append_assoc, List.cons_append, h _ (.inr ⟨',', _, rfl, .inl rfl⟩), tokens?_cons hcomma,
    h' rest hrest]
  simp [Function.comp_def]

theorem Lexes.member (k : String) (h : Lexes cs ts) :
    Lexes (renderString k ++ ':' :: cs) (.string (some k) :: .colon :: ts) := by
  intro rest hrest
  have hcolon : Mode.between.step ':' = some ([.colon], .between) := rfl
  rw [List.append_assoc, tokens?_string, List.cons_append, tokens?_cons hcolon, h rest hrest]
  simp [Function.comp_def]

theorem Lexes.enclosed {first last : Char} {t t' : Token}
    (hfirst : Mode.start first = some ([t], .between))
    (hlast : Mode.start last = some ([t'], .between)) (hclose : last = ']' ∨ last = '\x7d')
    (h : Lexes cs ts) : Lexes (first :: cs ++ [last]) (t :: ts ++ [t']) := by
  intro rest _
  rw [List.cons_append, List.cons_append, List.append_assoc,
    tokens?_cons (m := .between) hfirst, List.singleton_append,
    h _ (.inr ⟨last, _, rfl, .inr hclose⟩), tokens?_cons (m := .between) hlast]
  simp [Function.comp_def]

end Parts

/-! ## Tokens in parts -/

/-- A value may come next. -/
def Reader.AwaitsValue (r : Reader) : Prop := r.expect = .value ∨ r.expect = .itemOrClose

/-- A member may come next, behind those that are complete. -/
def Reader.AwaitsMember (r : Reader) (members : List (Option String × Tree)) : Prop :=
  r.expect = .nameOrClose members ∨ r.expect = .name members

/-- Tokens are put together to a tree by whatever reader takes a value next. -/
def Builds (ts : List Token) (t : Tree) : Prop :=
  ∀ r : Reader, r.AwaitsValue → ts.foldlM Reader.step r = some (r.take t)

/-- Tokens are put together to the items of an array. -/
def BuildsItems (ts : List Token) (trees : List Tree) : Prop :=
  ∀ (r : Reader) (items : List Tree) (fs : List Frame), r.AwaitsValue →
    r.frames = .array items :: fs →
    ts.foldlM Reader.step r = some ⟨.array (trees.reverse ++ items) :: fs, .commaOrClose, none⟩

/-- Tokens are put together to the members of an object. -/
def BuildsMembers (ts : List Token) (trees : List (Option String × Tree)) : Prop :=
  ∀ (r : Reader) (members : List (Option String × Tree)), r.AwaitsMember members →
    ∃ name, ts.foldlM Reader.step r =
      some ⟨.object (trees.reverse ++ members) name :: r.frames, .commaOrClose, none⟩

theorem Reader.step_begin {r : Reader} {t : Token} (h : r.AwaitsValue) (ht : t ≠ .closeArray) :
    r.step t = r.begin t := by
  unfold Reader.step
  rcases h with h | h <;> simp [h, ht]

theorem builds_token {tok : Token} {t : Tree} (hne : tok ≠ .closeArray)
    (h : ∀ r : Reader, r.begin tok = some (r.take t)) : Builds [tok] t := by
  intro r hr
  simp [List.foldlM, Reader.step_begin hr hne, h r]

theorem builds_emptyArray : Builds [.openArray, .closeArray] (.array []) := by
  intro r hr
  have hopen : r.step .openArray = some ⟨.array [] :: r.frames, .itemOrClose, none⟩ :=
    Reader.step_begin hr (by simp)
  rw [List.foldlM_cons, hopen]
  rfl

theorem BuildsItems.builds {ts : List Token} {trees : List Tree} (h : BuildsItems ts trees) :
    Builds (.openArray :: ts ++ [.closeArray]) (.array trees) := by
  intro r hr
  have hopen : r.step .openArray = some ⟨.array [] :: r.frames, .itemOrClose, none⟩ :=
    Reader.step_begin hr (by simp)
  have hitems := h ⟨.array [] :: r.frames, .itemOrClose, none⟩ [] r.frames (.inr rfl) rfl
  rw [List.cons_append, List.foldlM_cons, hopen, Option.bind_eq_bind, Option.bind_some,
    List.foldlM_append, hitems]
  simp [Reader.step, Reader.take]

theorem builds_emptyObject : Builds [.openObject, .closeObject] (.object []) := by
  intro r hr
  have hopen : r.step .openObject = some ⟨r.frames, .nameOrClose [], none⟩ :=
    Reader.step_begin hr (by simp)
  rw [List.foldlM_cons, hopen]
  rfl

theorem BuildsMembers.builds {ts : List Token} {trees : List (Option String × Tree)}
    (h : BuildsMembers ts trees) : Builds (.openObject :: ts ++ [.closeObject]) (.object trees) := by
  intro r hr
  have hopen : r.step .openObject = some ⟨r.frames, .nameOrClose [], none⟩ :=
    Reader.step_begin hr (by simp)
  obtain ⟨name, hmembers⟩ := h ⟨r.frames, .nameOrClose [], none⟩ [] (.inl rfl)
  rw [List.cons_append, List.foldlM_cons, hopen, Option.bind_eq_bind, Option.bind_some,
    List.foldlM_append, hmembers]
  simp [Reader.step, Reader.take]

theorem Builds.item {ts : List Token} {t : Tree} (h : Builds ts t) : BuildsItems ts [t] := by
  intro r items fs hr hframes
  rw [h r hr]
  simp [Reader.take, hframes]

theorem BuildsItems.append {ts ts' : List Token} {trees trees' : List Tree}
    (h : BuildsItems ts trees) (h' : BuildsItems ts' trees') :
    BuildsItems (ts ++ .comma :: ts') (trees ++ trees') := by
  intro r items fs hr hframes
  have hcomma : Reader.step ⟨.array (trees.reverse ++ items) :: fs, .commaOrClose, none⟩ .comma =
      some ⟨.array (trees.reverse ++ items) :: fs, .value, none⟩ := rfl
  rw [List.foldlM_append, h r items fs hr hframes, Option.bind_eq_bind, Option.bind_some,
    List.foldlM_cons, hcomma, Option.bind_eq_bind, Option.bind_some, h' _ _ _ (.inl rfl) rfl]
  simp

theorem Builds.member {ts : List Token} {t : Tree} (k : String) (h : Builds ts t) :
    BuildsMembers (.string (some k) :: .colon :: ts) [(some k, t)] := by
  intro r members hr
  have hname : r.step (.string (some k)) = some ⟨.object members (some k) :: r.frames, .colon, none⟩ := by
    unfold Reader.step
    rcases hr with hr | hr <;> simp [hr]
  have hcolon : Reader.step ⟨.object members (some k) :: r.frames, .colon, none⟩ .colon =
      some ⟨.object members (some k) :: r.frames, .value, none⟩ := rfl
  refine ⟨some k, ?_⟩
  rw [List.foldlM_cons, hname, Option.bind_eq_bind, Option.bind_some, List.foldlM_cons, hcolon,
    Option.bind_eq_bind, Option.bind_some, h _ (.inl rfl)]
  simp [Reader.take]

theorem BuildsMembers.append {ts ts' : List Token} {trees trees' : List (Option String × Tree)}
    (h : BuildsMembers ts trees) (h' : BuildsMembers ts' trees') :
    BuildsMembers (ts ++ .comma :: ts') (trees ++ trees') := by
  intro r members hr
  obtain ⟨name, hfirst⟩ := h r members hr
  have hcomma : Reader.step ⟨.object (trees.reverse ++ members) name :: r.frames, .commaOrClose, none⟩
      .comma = some ⟨r.frames, .name (trees.reverse ++ members), none⟩ := rfl
  obtain ⟨name', hmore⟩ := h' ⟨r.frames, .name (trees.reverse ++ members), none⟩ _ (.inr rfl)
  refine ⟨name', ?_⟩
  rw [List.foldlM_append, hfirst, Option.bind_eq_bind, Option.bind_some, List.foldlM_cons, hcomma,
    Option.bind_eq_bind, Option.bind_some, hmore]
  simp

/-! ## Values -/

/-- The text of a value is split into tokens that are put together to a tree with this value. -/
def Reads (depth : ℕ) (v : Json) : Prop :=
  ∃ ts t, Lexes v.chars ts ∧ Builds ts t ∧ t.value? depth = some v

theorem reads_int {depth : ℕ} {n : ℤ} (hlow : -0x8000000000000000 ≤ n)
    (hhigh : n < 0x10000000000000000) : Reads depth (int n) :=
  ⟨_, _, lexes_int n, builds_token (t := .number (.ofInt n)) (by simp) fun _ => rfl, by
    rw [Tree.value?, Numeral.number?_ofInt hlow hhigh]
    rfl⟩

theorem reads_bool (depth : ℕ) (b : Bool) : Reads depth (bool b) := by
  refine ⟨_, .bool b, lexes_bool b, builds_token (by cases b <;> simp) fun _ => ?_, ?_⟩
  · cases b <;> rfl
  · rw [Tree.value?]

/-- The items of an array are read if each is. -/
theorem reads_items {depth : ℕ} {items : List Json} (hne : items ≠ [])
    (h : ∀ v ∈ items, Reads depth v) :
    ∃ ts trees, Lexes (charsItems items) ts ∧ BuildsItems ts trees ∧
      Tree.values? depth trees = some items := by
  induction items with
  | nil => exact absurd rfl hne
  | cons v rest ih =>
    obtain ⟨ts, t, hlex, hbuild, hvalue⟩ := h v List.mem_cons_self
    rcases rest with _ | ⟨v', rest⟩
    · exact ⟨ts, [t], hlex, hbuild.item, by simp [Tree.values?, hvalue]⟩
    · obtain ⟨ts', trees, hlex', hbuild', hvalues⟩ :=
        ih (by simp) fun w hw => h w (List.mem_cons_of_mem _ hw)
      exact ⟨_, t :: trees, hlex.comma hlex', hbuild.item.append hbuild',
        by simp [Tree.values?, hvalue, hvalues]⟩

/-- The members of an object are read if the value of each is. -/
theorem reads_members {depth : ℕ} {members : List (String × Json)} (hne : members ≠ [])
    (h : ∀ e ∈ members, Reads depth e.2) :
    ∃ ts trees, Lexes (charsMembers members) ts ∧ BuildsMembers ts trees ∧
      Tree.members? depth trees = some members := by
  induction members with
  | nil => exact absurd rfl hne
  | cons e rest ih =>
    obtain ⟨k, v⟩ := e
    obtain ⟨ts, t, hlex, hbuild, hvalue⟩ := h (k, v) List.mem_cons_self
    rcases rest with _ | ⟨e', rest⟩
    · exact ⟨_, [(some k, t)], hlex.member k, hbuild.member k, by simp [Tree.members?, hvalue]⟩
    · obtain ⟨ts', trees, hlex', hbuild', hvalues⟩ :=
        ih (by simp) fun w hw => h w (List.mem_cons_of_mem _ hw)
      exact ⟨_, (some k, t) :: trees, (hlex.member k).comma hlex',
        (hbuild.member k).append hbuild', by simp [Tree.members?, hvalue, hvalues]⟩

theorem reads_array {depth : ℕ} {items : List Json} (h : ∀ v ∈ items, Reads depth v) :
    Reads (depth + 1) (array items) := by
  have henclosed : ∀ {cs ts}, Lexes cs ts → Lexes ('[' :: cs ++ [']']) _ :=
    fun hlex => hlex.enclosed rfl rfl (.inl rfl)
  by_cases hne : items = []
  · subst hne
    exact ⟨_, _, henclosed lexes_nil, builds_emptyArray, rfl⟩
  · obtain ⟨ts, trees, hlex, hbuild, hvalues⟩ := reads_items hne h
    exact ⟨_, _, henclosed hlex, hbuild.builds, by rw [Tree.value?, hvalues]; rfl⟩

theorem reads_object {depth : ℕ} {members : List (String × Json)}
    (h : ∀ e ∈ members, Reads depth e.2) : Reads (depth + 1) (object members) := by
  have henclosed : ∀ {cs ts}, Lexes cs ts → Lexes ('\x7b' :: cs ++ ['\x7d']) _ :=
    fun hlex => hlex.enclosed rfl rfl (.inr rfl)
  by_cases hne : members = []
  · subst hne
    exact ⟨_, _, henclosed lexes_nil, builds_emptyObject, rfl⟩
  · obtain ⟨ts, trees, hlex, hbuild, hvalues⟩ := reads_members hne h
    exact ⟨_, _, henclosed hlex, hbuild.builds, by rw [Tree.value?, hvalues]; rfl⟩

theorem Readable.reads {depth : ℕ} {v : Json} (h : v.Readable depth) : Reads depth v := by
  induction h with
  | null depth => exact ⟨_, _, lexes_null, builds_token (by simp) fun _ => rfl, by rw [Tree.value?]⟩
  | bool depth b => exact reads_bool depth b
  | int depth hlow hhigh => exact reads_int hlow hhigh
  | string depth s =>
    exact ⟨_, _, lexes_string s, builds_token (by simp) fun _ => rfl, by rw [Tree.value?]; rfl⟩
  | array _ ih => exact reads_array ih
  | object _ ih => exact reads_object ih

/-- **The compact text of a value is read as this value**, unless it nests too deeply or holds a
number that is no whole number of 64 bits. -/
theorem read?_render {v : Json} (h : v.Readable nestingLimit) : read? v.render = some v := by
  obtain ⟨ts, t, hlex, hbuild, hvalue⟩ := h.reads
  have htokens : tokens? v.render = some ts := by
    have := hlex [] (.inl rfl)
    simpa [tokens?, render, Mode.tokens?, Mode.finish] using this
  have hparse : Tree.parse? v.render = some t := by
    simp [Tree.parse?, htokens, hbuild ⟨[], .value, none⟩ (.inl rfl), Reader.take]
  rw [read?, hparse]
  exact hvalue

end Logging.Json
