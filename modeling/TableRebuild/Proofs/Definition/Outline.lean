import TableRebuild.Proofs.Definition.Depth

/-!
# The grammar of an outline

    CREATE [TEMP | TEMPORARY] TABLE [IF NOT EXISTS] [schema .] name ( body ) [options] [;]

This line is a grammar, and here it is one: `Outline.Written o ts` says that the tokens `ts` are a
statement of this form whose parts are those of `o`. The readers go over the tokens from the front
and ask at each place for one token or another. What they find is described word by word, a relation
for each part of the line and an equivalence for each reader, and put together at the end:
`Outline.read_eq_ok_iff`.

Since reading has one outcome, an outline is written in one way only for given tokens
(`Outline.Written.unique`); nobody has to argue about the grammar for that. There are two places
where the grammar by itself would leave a choice, and the readers make it: a bare `IF` behind
`TABLE` is never a name, and a dot behind a name is never left for what follows.
-/

namespace TableRebuild

theorem Except.bind_eq_ok_iff {ε α β : Type} {x : Except ε α} {f : α → Except ε β} {b : β} :
    (x >>= f) = .ok b ↔ ∃ a, x = .ok a ∧ f a = .ok b := by
  cases x <;> simp [bind, Except.bind]

theorem Except.mapError_eq_ok_iff {ε ε' α : Type} {x : Except ε α} {f : ε → ε'} {a : α} :
    x.mapError f = .ok a ↔ x = .ok a := by
  cases x with
  | error e =>
    show (Except.error (f e) : Except ε' α) = .ok a ↔ _
    simp
  | ok b =>
    show (Except.ok b : Except ε' α) = .ok a ↔ _
    simp

/-! ## Steps of reading -/

namespace Reading

/-- What there is to read where the words stand in front. -/
def before (words : List Token) (r : Reading) : Reading := ⟨words ++ r.tokens, r.stop⟩

variable {r r' : Reading} {t : Token} {test : Token → Bool}

@[simp] theorem tokens_before (words : List Token) (r : Reading) :
    (r.before words).tokens = words ++ r.tokens := rfl

theorem before_append (as bs : List Token) (r : Reading) :
    r.before (as ++ bs) = (r.before bs).before as := by
  simp [before]

/-- A token is taken off if it passes the test. -/
theorem next?_eq_some_iff_before :
    r.next? test = some (t, r') ↔ test t = true ∧ r = r'.before [t] := by
  rw [next?_eq_some_iff]
  refine and_congr_right fun _ => ?_
  obtain ⟨tokens, stop⟩ := r
  simp [before]

theorem expect_eq_ok_iff_before {expected : Expected} :
    r.expect expected test = .ok (t, r') ↔ test t = true ∧ r = r'.before [t] :=
  expect_eq_ok_iff.trans next?_eq_some_iff_before

theorem next?_before_cons (t : Token) (words : List Token) (r : Reading) :
    (r.before (t :: words)).next? test = if test t then some (t, r.before words) else none := rfl

end Reading

/-! ## The header -/

namespace Header

/-- The word that says whether a table is temporary, or nothing. -/
inductive TemporaryWord : Bool → List Token → Prop
  | absent : TemporaryWord false []
  | present {t : Token} (h : t.isKeyword .temp = true ∨ t.isKeyword .temporary = true) :
      TemporaryWord true [t]

/-- The words `IF NOT EXISTS`, or nothing. -/
inductive ExistsWords : Bool → List Token → Prop
  | absent : ExistsWords false []
  | present {t u v : Token} (hif : t.isKeyword .if_ = true) (hnot : u.isKeyword .not = true)
      (hexists : v.isKeyword .exists_ = true) : ExistsWords true [t, u, v]

/-- One word for the table, or two with a dot between them for the schema and the table. -/
inductive NameWords : Option Token → Token → List Token → Prop
  | plain {name : Token} (h : name.isWord = true) : NameWords none name [name]
  | qualified {schema dot name : Token} (hschema : schema.isWord = true)
      (hdot : dot.isDelimiter .dot = true) (hname : name.isWord = true) :
      NameWords (some schema) name [schema, dot, name]

/-- The words of a header. Where `IF NOT EXISTS` is not there, the name does not begin with a bare
    `IF`. -/
inductive Written (header : Header) : List Token → Prop
  | intro {create table : Token} {temporary ifNotExists name : List Token}
      (hcreate : create.isKeyword .create = true)
      (htemporary : TemporaryWord header.temporary temporary)
      (htable : table.isKeyword .table = true)
      (hexists : ExistsWords header.ifNotExists ifNotExists)
      (hname : NameWords header.schema header.name name)
      (hif : header.ifNotExists = false → name.head?.any (·.isKeyword .if_) = false) :
      Written header (create :: (temporary ++ table :: (ifNotExists ++ name)))

variable {r r' : Reading} {b : Bool}

theorem readTemporary_eq_iff : readTemporary r = (b, r') ↔
    ∃ words, TemporaryWord b words ∧ r = r'.before words ∧
      (b = false → r'.next? (fun t => t.isKeyword .temp || t.isKeyword .temporary) = none) := by
  unfold readTemporary
  constructor
  · intro h
    split at h
    · rename_i t r₁ h₁
      obtain ⟨rfl, rfl⟩ := Prod.mk.inj h
      obtain ⟨ht, rfl⟩ := Reading.next?_eq_some_iff_before.1 h₁
      exact ⟨[t], .present (Bool.or_eq_true_iff.1 ht), rfl, fun hb => absurd hb (by simp)⟩
    · rename_i h₁
      obtain ⟨rfl, rfl⟩ := Prod.mk.inj h
      exact ⟨[], .absent, rfl, fun _ => h₁⟩
  · rintro ⟨words, hwords, rfl, hnone⟩
    cases hwords with
    | absent => rw [Reading.before, List.nil_append, hnone rfl]
    | present ht => rw [Reading.next?_before_cons, if_pos (Bool.or_eq_true_iff.2 ht)]; rfl

theorem readIfNotExists_eq_ok_iff : readIfNotExists r = .ok (b, r') ↔
    ∃ words, ExistsWords b words ∧ r = r'.before words ∧
      (b = false → r'.keyword? .if_ = none) := by
  unfold readIfNotExists
  constructor
  · intro h
    split at h
    · rename_i t r₁ h₁
      obtain ⟨⟨u, r₂⟩, h₂, h⟩ := Except.bind_eq_ok_iff.1 h
      obtain ⟨⟨v, r₃⟩, h₃, h⟩ := Except.bind_eq_ok_iff.1 h
      simp only [pure, Except.pure, Except.ok.injEq, Prod.mk.injEq] at h
      obtain ⟨rfl, rfl⟩ := h
      obtain ⟨ht, rfl⟩ := Reading.next?_eq_some_iff_before.1 h₁
      obtain ⟨hu, rfl⟩ := Reading.expect_eq_ok_iff_before.1 h₂
      obtain ⟨hv, rfl⟩ := Reading.expect_eq_ok_iff_before.1 h₃
      exact ⟨[t, u, v], .present ht hu hv, rfl, fun hb => absurd hb (by simp)⟩
    · rename_i h₁
      simp only [Except.ok.injEq, Prod.mk.injEq] at h
      obtain ⟨rfl, rfl⟩ := h
      exact ⟨[], .absent, rfl, fun _ => h₁⟩
  · rintro ⟨words, hwords, rfl, hnone⟩
    cases hwords with
    | absent => rw [Reading.before, List.nil_append, hnone rfl]
    | present ht hu hv =>
      rw [Reading.keyword?, Reading.next?_before_cons, if_pos ht]
      exact Except.bind_eq_ok_iff.2 ⟨_, Reading.expect_eq_ok_iff_before.2 ⟨hu, rfl⟩,
        Except.bind_eq_ok_iff.2 ⟨_, Reading.expect_eq_ok_iff_before.2 ⟨hv, rfl⟩, rfl⟩⟩

theorem readName_eq_ok_iff {schema : Option Token} {name : Token} :
    readName r = .ok (schema, name, r') ↔ ∃ words, NameWords schema name words ∧
      r = r'.before words ∧ (schema = none → r'.delimiter? .dot = none) := by
  unfold readName
  constructor
  · intro hread
    obtain ⟨⟨first, r₁⟩, h₁, h⟩ := Except.bind_eq_ok_iff.1 hread
    obtain ⟨hfirst, rfl⟩ := Reading.expect_eq_ok_iff_before.1 h₁
    simp only at h
    split at h
    · rename_i dot r₂ h₂
      obtain ⟨⟨second, r₃⟩, h₃, h⟩ := Except.bind_eq_ok_iff.1 h
      simp only [pure, Except.pure, Except.ok.injEq, Prod.mk.injEq] at h
      obtain ⟨rfl, rfl, rfl⟩ := h
      obtain ⟨hdot, rfl⟩ := Reading.next?_eq_some_iff_before.1 h₂
      obtain ⟨hsecond, rfl⟩ := Reading.expect_eq_ok_iff_before.1 h₃
      exact ⟨[first, dot, second], .qualified hfirst hdot hsecond, rfl,
        fun hs => absurd hs (by simp)⟩
    · rename_i h₂
      simp only [pure, Except.pure, Except.ok.injEq, Prod.mk.injEq] at h
      obtain ⟨rfl, rfl, rfl⟩ := h
      exact ⟨[first], .plain hfirst, rfl, fun _ => h₂⟩
  · rintro ⟨words, hwords, rfl, hnone⟩
    cases hwords with
    | plain hname =>
      refine Except.bind_eq_ok_iff.2 ⟨_, Reading.expect_eq_ok_iff_before.2 ⟨hname, rfl⟩, ?_⟩
      simp only [hnone rfl]
      rfl
    | @qualified schema dot name hschema hdot hname =>
      refine Except.bind_eq_ok_iff.2
        ⟨(schema, r'.before [dot, name]), Reading.expect_eq_ok_iff_before.2 ⟨hschema, rfl⟩, ?_⟩
      simp only [Reading.delimiter?, Reading.next?_before_cons, hdot, ↓reduceIte]
      exact Except.bind_eq_ok_iff.2 ⟨_, Reading.expect_eq_ok_iff_before.2 ⟨hname, rfl⟩, rfl⟩

/-- What begins with a word does not begin with a keyword that its first word is not. -/
theorem keyword?_before_nameWords {schema : Option Token} {name : Token} {words : List Token}
    (h : NameWords schema name words) (r : Reading) (k : Keyword) :
    (r.before words).keyword? k = none ↔ words.head?.any (·.isKeyword k) = false := by
  cases h <;> simp [Reading.keyword?, Reading.next?_before_cons]

/-- **The reader takes a header**, and where there is no schema, no dot is left behind it. -/
theorem read_eq_ok_iff {header : Header} : read r = .ok (header, r') ↔
    ∃ words, header.Written words ∧ r = r'.before words ∧
      (header.schema = none → r'.delimiter? .dot = none) := by
  unfold read
  constructor
  · intro h
    obtain ⟨⟨create, r₁⟩, h₁, h⟩ := Except.bind_eq_ok_iff.1 h
    obtain ⟨⟨table, r₂⟩, h₂, h⟩ := Except.bind_eq_ok_iff.1 h
    obtain ⟨⟨b, r₃⟩, h₃, h⟩ := Except.bind_eq_ok_iff.1 h
    obtain ⟨⟨schema, name, r₄⟩, h₄, h⟩ := Except.bind_eq_ok_iff.1 h
    simp only [pure, Except.pure, Except.ok.injEq, Prod.mk.injEq] at h
    obtain ⟨rfl, rfl⟩ := h
    obtain ⟨hcreate, rfl⟩ := Reading.expect_eq_ok_iff_before.1 h₁
    obtain ⟨temporary, htemporary, hr₁, -⟩ := readTemporary_eq_iff.1 (Eq.refl (readTemporary r₁))
    obtain ⟨htable, hr₂⟩ := Reading.expect_eq_ok_iff_before.1 h₂
    obtain ⟨ifNotExists, hexists, rfl, hif⟩ := readIfNotExists_eq_ok_iff.1 h₃
    obtain ⟨names, hname, rfl, hdot⟩ := readName_eq_ok_iff.1 h₄
    refine ⟨_, .intro hcreate htemporary htable hexists hname ?_, ?_, hdot⟩
    · exact fun hb => (keyword?_before_nameWords hname r₄ .if_).1 (hif hb)
    · rw [hr₁, hr₂]
      simp [Reading.before]
  · rintro ⟨_, hwritten, rfl, hdot⟩
    cases hwritten with
    | @intro create table temporary ifNotExists names hcreate htemporary htable hexists hname hif =>
      -- What is left behind each of the words in front of the name.
      set behindTable := r'.before (ifNotExists ++ names)
      set behindCreate := (behindTable.before [table]).before temporary
      have hcreateRead : Reading.keyword .create (behindCreate.before [create]) =
          .ok (create, behindCreate) := Reading.expect_eq_ok_iff_before.2 ⟨hcreate, rfl⟩
      have htemporaryRead : readTemporary behindCreate =
          (header.temporary, behindTable.before [table]) := by
        refine readTemporary_eq_iff.2 ⟨temporary, htemporary, rfl, ?_⟩
        intro _
        simp [Reading.next?_before_cons, Token.isKeyword, eq_of_beq htable]
      have htableRead : Reading.keyword .table (behindTable.before [table]) =
          .ok (table, behindTable) := Reading.expect_eq_ok_iff_before.2 ⟨htable, rfl⟩
      have hexistsRead : readIfNotExists behindTable =
          .ok (header.ifNotExists, r'.before names) := by
        refine readIfNotExists_eq_ok_iff.2
          ⟨ifNotExists, hexists, Reading.before_append _ _ _, ?_⟩
        intro hb
        exact (keyword?_before_nameWords hname r' .if_).2 (hif hb)
      have hnameRead : readName (r'.before names) = .ok (header.schema, header.name, r') :=
        readName_eq_ok_iff.2 ⟨names, hname, rfl, hdot⟩
      have hwhole : r'.before (create :: (temporary ++ table :: (ifNotExists ++ names))) =
          behindCreate.before [create] := by
        simp [behindCreate, behindTable, Reading.before]
      rw [hwhole]
      refine Except.bind_eq_ok_iff.2 ⟨_, hcreateRead, ?_⟩
      simp only [htemporaryRead]
      refine Except.bind_eq_ok_iff.2 ⟨_, htableRead, ?_⟩
      refine Except.bind_eq_ok_iff.2 ⟨_, hexistsRead, ?_⟩
      exact Except.bind_eq_ok_iff.2 ⟨_, hnameRead, rfl⟩

/-- The header `CREATE TABLE "name"`. -/
theorem written_plain {create table name : Token} (hcreate : create.isKeyword .create = true)
    (htable : table.isKeyword .table = true) (hname : name.kind = .quotedName) :
    Written { temporary := false, ifNotExists := false, schema := none, name }
      [create, table, name] := by
  have hword : name.isWord = true := by simp [Token.isWord, hname, Kind.isWord]
  have hif : name.isKeyword .if_ = false := by simp [Token.isKeyword, hname]
  show Written _ (create :: ([] ++ table :: ([] ++ [name])))
  refine .intro hcreate .absent htable .absent (.plain hword) ?_
  intro _
  simpa using hif

end Header

/-! ## The options -/

namespace Options

/-- One table option. -/
inductive Single : List Token → Prop
  | withoutRowid {without rowid : Token} (hw : without.isKeyword .without = true)
      (hr : rowid.isKeyword .rowid = true) : Single [without, rowid]
  | strict {strict : Token} (hs : strict.isKeyword .strict = true) : Single [strict]

/-- Table options with commas between them, at least one. -/
inductive Listed : List Token → Prop
  | last {ts : List Token} (h : Single ts) : Listed ts
  | comma {ts more : List Token} {comma : Token} (h : Single ts)
      (hc : comma.isDelimiter .comma = true) (hmore : Listed more) : Listed (ts ++ comma :: more)

theorem single_unplaced {ts us : List Token} (h : Single ts)
    (hsame : us.map Token.unplaced = ts.map Token.unplaced) : Single us := by
  cases h with
  | @withoutRowid w r hw hr =>
    obtain ⟨a, us, rfl, ha, hsame⟩ := List.map_eq_cons_iff.1 hsame
    obtain ⟨b, us, rfl, hb, hsame⟩ := List.map_eq_cons_iff.1 hsame
    obtain rfl := List.map_eq_nil_iff.1 hsame
    rw [← Token.isKeyword_unplaced, ← ha, Token.isKeyword_unplaced] at hw
    rw [← Token.isKeyword_unplaced, ← hb, Token.isKeyword_unplaced] at hr
    exact .withoutRowid hw hr
  | @strict s hs =>
    obtain ⟨a, us, rfl, ha, hsame⟩ := List.map_eq_cons_iff.1 hsame
    obtain rfl := List.map_eq_nil_iff.1 hsame
    rw [← Token.isKeyword_unplaced, ← ha, Token.isKeyword_unplaced] at hs
    exact .strict hs

/-- Whether tokens are table options does not depend on their places. -/
theorem listed_unplaced {ts us : List Token} (h : Listed ts)
    (hsame : us.map Token.unplaced = ts.map Token.unplaced) : Listed us := by
  induction h generalizing us with
  | last h => exact .last (single_unplaced h hsame)
  | @comma ts more comma h hc _ ih =>
    rw [List.map_append, List.map_cons, List.map_eq_append_iff] at hsame
    obtain ⟨us₁, us₂, rfl, h₁, h₂⟩ := hsame
    obtain ⟨c, us₃, rfl, hcomma, h₃⟩ := List.map_eq_cons_iff.1 h₂
    refine .comma (single_unplaced h h₁) ?_ (ih h₃)
    rw [← Token.isDelimiter_unplaced, hcomma]
    exact hc

theorem readOne_eq_ok_iff {r r' : Reading} {ts : List Token} :
    readOne r = .ok (ts, r') ↔ Single ts ∧ r = r'.before ts := by
  constructor
  · intro hread
    unfold readOne at hread
    split at hread
    · rename_i without r₁ h₁
      obtain ⟨hw, rfl⟩ := Reading.next?_eq_some_iff_before.1 h₁
      obtain ⟨⟨rowid, r₂⟩, h₂, h⟩ := Except.bind_eq_ok_iff.1 hread
      obtain ⟨hr, rfl⟩ := Reading.expect_eq_ok_iff_before.1 h₂
      simp only [pure, Except.pure, Except.ok.injEq, Prod.mk.injEq] at h
      obtain ⟨rfl, rfl⟩ := h
      exact ⟨.withoutRowid hw hr, rfl⟩
    · split at hread
      · rename_i strict r₁ h₁
        obtain ⟨hs, rfl⟩ := Reading.next?_eq_some_iff_before.1 h₁
        simp only [Except.ok.injEq, Prod.mk.injEq] at hread
        obtain ⟨rfl, rfl⟩ := hread
        exact ⟨.strict hs, rfl⟩
      · split at hread <;> exact absurd hread (by simp)
  · rintro ⟨h, rfl⟩
    cases h with
    | @withoutRowid w r hw hr =>
      rw [readOne, Reading.keyword?, Reading.next?_before_cons, if_pos hw]
      exact Except.bind_eq_ok_iff.2 ⟨(r, r'), Reading.expect_eq_ok_iff_before.2 ⟨hr, rfl⟩, rfl⟩
    | @strict s hs =>
      have hw : s.isKeyword .without = false := by simp [Token.isKeyword, eq_of_beq hs]
      simp only [readOne, Reading.keyword?, Reading.next?_before_cons, hw, hs, ↓reduceIte,
        Bool.false_eq_true]
      rfl

/-- An option begins with a word. -/
theorem head?_of_single {ts : List Token} (h : Single ts) :
    ∃ t more, ts = t :: more ∧ ∀ d, t.isDelimiter d = false := by
  cases h with
  | @withoutRowid w r hw _ =>
    exact ⟨w, [r], rfl, fun d => by simp [Token.isDelimiter, eq_of_beq hw]⟩
  | @strict s hs => exact ⟨s, [], rfl, fun d => by simp [Token.isDelimiter, eq_of_beq hs]⟩

theorem head?_of_listed {ts : List Token} (h : Listed ts) :
    ∃ t more, ts = t :: more ∧ ∀ d, t.isDelimiter d = false := by
  cases h with
  | last h => exact head?_of_single h
  | @comma ts rest comma h _ _ =>
    obtain ⟨t, more, rfl, ht⟩ := head?_of_single h
    exact ⟨t, more ++ comma :: rest, rfl, ht⟩

/-- One option, and then what there is behind a comma. -/
theorem readSome_eq (r : Reading) : readSome r = readOne r >>= fun (ts, r₁) =>
    match r₁.delimiter? .comma with
    | none => .ok (ts, r₁)
    | some (comma, r₂) => (readSome r₂).map fun (more, r₃) => (ts ++ comma :: more, r₃) := by
  rw [readSome]
  split
  · rename_i e h
    rw [h]
    rfl
  · rename_i ts r₁ h
    conv_rhs => rw [h]
    simp only [bind, Except.bind]
    split <;> rename_i h₁
    · rw [h₁]
    · conv_rhs => rw [h₁]

theorem readSome_of_last {r r' : Reading} {ts : List Token} (h : readOne r = .ok (ts, r'))
    (hnone : r'.delimiter? .comma = none) : readSome r = .ok (ts, r') := by
  rw [readSome_eq, h]
  simp only [bind, Except.bind, hnone]

theorem readSome_of_comma {r r₁ r₂ r' : Reading} {ts more : List Token} {comma : Token}
    (h : readOne r = .ok (ts, r₁)) (hcomma : r₁.delimiter? .comma = some (comma, r₂))
    (hmore : readSome r₂ = .ok (more, r')) : readSome r = .ok (ts ++ comma :: more, r') := by
  rw [readSome_eq, h]
  simp only [bind, Except.bind, hcomma, hmore]
  rfl

/-- **The reader of options takes a list of options**, and as many as there are: no comma is left
    behind. -/
theorem readSome_eq_ok_iff {r r' : Reading} {ts : List Token} : readSome r = .ok (ts, r') ↔
    Listed ts ∧ r = r'.before ts ∧ r'.delimiter? .comma = none := by
  constructor
  · intro h
    fun_induction readSome r generalizing ts r' with
    | case1 r e he => exact absurd h (by simp)
    | case2 r ts₁ r₁ h₁ hcomma =>
      obtain ⟨rfl, rfl⟩ := Prod.mk.inj (Except.ok.inj h)
      obtain ⟨hsingle, rfl⟩ := readOne_eq_ok_iff.1 h₁
      exact ⟨.last hsingle, rfl, hcomma⟩
    | case3 r ts₁ r₁ h₁ comma r₂ hcomma hlt ih =>
      obtain ⟨hsingle, hr⟩ := readOne_eq_ok_iff.1 h₁
      obtain ⟨hc, hr₁⟩ := Reading.next?_eq_some_iff_before.1 hcomma
      cases hmore : readSome r₂ with
      | error e => exact absurd h (by simp [hmore, Except.map])
      | ok found =>
        obtain ⟨more, r₃⟩ := found
        simp only [hmore, Except.map, Except.ok.injEq, Prod.mk.injEq] at h
        obtain ⟨rfl, rfl⟩ := h
        obtain ⟨hlisted, hr₂, hnone⟩ := ih hmore
        refine ⟨.comma hsingle hc hlisted, ?_, hnone⟩
        rw [hr, hr₁, hr₂, Reading.before_append]
        rfl
  · rintro ⟨h, rfl, hnone⟩
    induction h with
    | last h => exact readSome_of_last (readOne_eq_ok_iff.2 ⟨h, rfl⟩) hnone
    | @comma ts more comma h hc _ ih =>
      have hone : readOne (r'.before (ts ++ comma :: more)) =
          .ok (ts, r'.before (comma :: more)) :=
        readOne_eq_ok_iff.2 ⟨h, Reading.before_append _ _ _⟩
      have hcomma : (r'.before (comma :: more)).delimiter? .comma =
          some (comma, r'.before more) := Reading.next?_eq_some_iff_before.2 ⟨hc, rfl⟩
      exact readSome_of_comma hone hcomma ih

/-- What options a statement may have: none, or a list. -/
def Allowed (ts : List Token) : Prop := ts = [] ∨ Listed ts

theorem allowed_unplaced {ts us : List Token} (h : Allowed ts)
    (hsame : us.map Token.unplaced = ts.map Token.unplaced) : Allowed us := by
  rcases h with rfl | h
  · exact .inl (by simpa using hsame)
  · exact .inr (listed_unplaced h hsame)

/-- What may stand behind the options: one semicolon or nothing. -/
inductive Finish : List Token → Prop
  | absent : Finish []
  | semicolon {t : Token} (h : t.isDelimiter .semicolon = true) : Finish [t]

theorem finish_eq_ok_iff {r : Reading} : finish r = .ok () ↔ Finish r.tokens := by
  obtain ⟨tokens, stop⟩ := r
  cases tokens with
  | nil => simp [finish, Reading.delimiter?, Reading.next?, Finish.absent]
  | cons t rest =>
    unfold finish
    by_cases hsemi : t.isDelimiter .semicolon = true
    · simp only [Reading.delimiter?, Reading.next?, hsemi, ↓reduceIte]
      cases rest with
      | nil => exact ⟨fun _ => .semicolon hsemi, fun _ => rfl⟩
      | cons u rest =>
        constructor
        · intro h
          exact absurd h (by simp)
        · intro h
          cases h
    · simp only [Reading.delimiter?, Reading.next?, hsemi, ↓reduceIte, Bool.false_eq_true]
      constructor
      · intro h
        split at h <;> exact absurd h (by simp)
      · intro h
        cases h with
        | semicolon h => exact absurd h hsemi

/-- **What stands behind the column list**: options, and then one semicolon at most. -/
theorem exists_read_iff {r : Reading} {ts : List Token} :
    (∃ r', read r = .ok (ts, r') ∧ finish r' = .ok ()) ↔
      Allowed ts ∧ ∃ rest, Finish rest ∧ r.tokens = ts ++ rest := by
  simp only [finish_eq_ok_iff]
  constructor
  · rintro ⟨r', hread, hfinish⟩
    unfold read at hread
    split at hread
    · simp only [Except.ok.injEq, Prod.mk.injEq] at hread
      obtain ⟨rfl, rfl⟩ := hread
      exact ⟨.inl rfl, r.tokens, hfinish, rfl⟩
    · obtain ⟨hlisted, rfl, -⟩ := readSome_eq_ok_iff.1 hread
      exact ⟨.inr hlisted, r'.tokens, hfinish, rfl⟩
  · rintro ⟨hallowed, rest, hfinish, htokens⟩
    obtain ⟨tokens, stop⟩ := r
    simp only at htokens
    subst htokens
    rcases hallowed with rfl | hlisted
    · refine ⟨⟨rest, stop⟩, ?_, hfinish⟩
      cases hfinish with
      | absent => rfl
      | semicolon h => simp [read, Reading.delimiter?, Reading.next?, h]
    · refine ⟨⟨rest, stop⟩, ?_, hfinish⟩
      obtain ⟨t, more, rfl, ht⟩ := head?_of_listed hlisted
      rw [read, if_neg (by simp [Reading.delimiter?, Reading.next?, ht])]
      refine readSome_eq_ok_iff.2 ⟨hlisted, rfl, ?_⟩
      cases hfinish with
      | absent => rfl
      | semicolon h =>
        simp [Reading.delimiter?, Reading.next?, Token.isDelimiter, eq_of_beq h]

end Options

/-! ## The column list -/

theorem Body.read_eq_ok_iff {r r' : Reading} {body : Body} : read r = .ok (body, r') ↔
    body.opening.isDelimiter .leftParen = true ∧ Nesting.Balanced 0 body.inner ∧
      body.closing.isDelimiter .rightParen = true ∧
        r = r'.before (body.opening :: (body.inner ++ [body.closing])) := by
  rw [← Nesting.balanced_eq_true_iff]
  unfold read
  constructor
  · intro hread
    obtain ⟨⟨opening, r₁⟩, h₁, h⟩ := Except.bind_eq_ok_iff.1 hread
    obtain ⟨hopening, rfl⟩ := Reading.expect_eq_ok_iff_before.1 h₁
    simp only at h
    split at h
    · rename_i inner closing rest hclosing
      simp only [pure, Except.pure, Except.ok.injEq, Prod.mk.injEq] at h
      obtain ⟨rfl, rfl⟩ := h
      obtain ⟨hinner, hclose, hbal⟩ := Nesting.closing_eq_some_iff.1 hclosing
      exact ⟨hopening, hbal, hclose, by simp [Reading.before, hinner]⟩
    · exact absurd h (by simp [throw, throwThe, MonadExceptOf.throw])
  · rintro ⟨hopening, hbal, hclose, rfl⟩
    have hclosing : Nesting.closing 0 (body.inner ++ body.closing :: r'.tokens) =
        some (body.inner, body.closing, r'.tokens) :=
      Nesting.closing_eq_some_iff.2 ⟨rfl, hclose, hbal⟩
    refine Except.bind_eq_ok_iff.2 ⟨(body.opening, r'.before (body.inner ++ [body.closing])),
      Reading.expect_eq_ok_iff_before.2 ⟨hopening, rfl⟩, ?_⟩
    simp only [Reading.tokens_before, List.append_assoc, List.singleton_append, hclosing]
    rfl

/-! ## The whole -/

namespace Outline

/-- The tokens are a statement whose parts are those of the outline. -/
inductive Written (o : Outline) : List Token → Prop
  | intro {front rest : List Token} (hheader : o.header.Written front)
      (hopening : o.body.opening.isDelimiter .leftParen = true)
      (hinner : Nesting.Balanced 0 o.body.inner)
      (hclosing : o.body.closing.isDelimiter .rightParen = true)
      (hoptions : Options.Allowed o.options) (hrest : Options.Finish rest) :
      Written o (front ++ o.body.opening :: (o.body.inner ++
        o.body.closing :: (o.options ++ rest)))

/-- **The outline that is read is the one that is written**, and a statement without an outline is
    not read. -/
theorem read_eq_ok_iff {r : Reading} {o : Outline} : read r = .ok o ↔ o.Written r.tokens := by
  unfold read
  constructor
  · intro hread
    obtain ⟨⟨header, r₁⟩, h₁, h⟩ := Except.bind_eq_ok_iff.1 hread
    obtain ⟨⟨body, r₂⟩, h₂, h⟩ := Except.bind_eq_ok_iff.1 h
    obtain ⟨⟨options, r₃⟩, h₃, h⟩ := Except.bind_eq_ok_iff.1 h
    obtain ⟨_, h₄, h⟩ := Except.bind_eq_ok_iff.1 h
    simp only [pure, Except.pure, Except.ok.injEq] at h
    subst h
    obtain ⟨front, hheader, rfl, -⟩ := Header.read_eq_ok_iff.1 h₁
    obtain ⟨hopening, hinner, hclosing, rfl⟩ := Body.read_eq_ok_iff.1 h₂
    obtain ⟨hoptions, rest, hrest, htokens⟩ := Options.exists_read_iff.1 ⟨r₃, h₃, h₄⟩
    have hwritten := Written.intro (o := ⟨header, body, options⟩) hheader hopening hinner hclosing
      hoptions hrest
    simpa [htokens] using hwritten
  · intro hwritten
    obtain ⟨tokens, stop⟩ := r
    simp only at hwritten
    cases hwritten with
    | @intro front rest hheader hopening hinner hclosing hoptions hrest =>
      obtain ⟨r₃, h₃, h₄⟩ := Options.exists_read_iff (r := ⟨o.options ++ rest, stop⟩).2
        ⟨hoptions, rest, hrest, rfl⟩
      have hdot : o.body.opening.isDelimiter .dot = false := by
        simp [Token.isDelimiter, eq_of_beq hopening]
      set behind : Reading := ⟨o.options ++ rest, stop⟩
      set list : Reading :=
        behind.before (o.body.opening :: (o.body.inner ++ [o.body.closing])) with hlist
      have hheaderRead : Header.read (list.before front) = .ok (o.header, list) := by
        refine Header.read_eq_ok_iff.2 ⟨front, hheader, rfl, ?_⟩
        intro _
        simp [hlist, Reading.delimiter?, Reading.next?_before_cons, hdot]
      have hbodyRead : Body.read list = .ok (o.body, behind) :=
        Body.read_eq_ok_iff.2 ⟨hopening, hinner, hclosing, rfl⟩
      have hwhole : (⟨front ++ o.body.opening :: (o.body.inner ++
          o.body.closing :: (o.options ++ rest)), stop⟩ : Reading) = list.before front := by
        simp [hlist, behind, Reading.before]
      rw [hwhole]
      refine Except.bind_eq_ok_iff.2 ⟨_, hheaderRead, ?_⟩
      refine Except.bind_eq_ok_iff.2 ⟨_, hbodyRead, ?_⟩
      refine Except.bind_eq_ok_iff.2 ⟨_, h₃, ?_⟩
      exact Except.bind_eq_ok_iff.2 ⟨_, h₄, rfl⟩

/-- The column list and the options are stretches of the statement. -/
theorem Written.isInfix {o : Outline} {ts : List Token} (h : o.Written ts) :
    o.body.inner <:+: ts ∧ o.options <:+: ts := by
  cases h with
  | @intro front rest =>
    constructor
    · exact ⟨front ++ [o.body.opening], o.body.closing :: (o.options ++ rest), by simp⟩
    · exact ⟨front ++ o.body.opening :: (o.body.inner ++ [o.body.closing]), rest, by simp⟩

theorem Written.balanced {o : Outline} {ts : List Token} (h : o.Written ts) :
    Nesting.Balanced 0 o.body.inner := by
  cases h
  assumption

theorem Written.allowed {o : Outline} {ts : List Token} (h : o.Written ts) :
    Options.Allowed o.options := by
  cases h
  assumption

/-- A statement can be cut into an outline in one way only. -/
theorem Written.unique {o o' : Outline} {ts : List Token} (h : o.Written ts)
    (h' : o'.Written ts) : o = o' := by
  have hread : read ⟨ts, 0⟩ = .ok o := read_eq_ok_iff.2 h
  have hread' : read ⟨ts, 0⟩ = .ok o' := read_eq_ok_iff.2 h'
  exact Except.ok.inj (hread.symm.trans hread')

/-- The outline of `CREATE TABLE "name" ( … ) options`. -/
theorem written_plain {create table name opening closing : Token} {inner options : List Token}
    (hcreate : create.isKeyword .create = true) (htable : table.isKeyword .table = true)
    (hname : name.kind = .quotedName) (hopening : opening.isDelimiter .leftParen = true)
    (hinner : Nesting.balanced 0 inner = true) (hclosing : closing.isDelimiter .rightParen = true)
    (hoptions : Options.Allowed options) :
    Written {
      header := { temporary := false, ifNotExists := false, schema := none, name }
      body := { opening, inner, closing }
      options } (create :: table :: name :: opening :: (inner ++ closing :: options)) := by
  have hheader := Header.written_plain hcreate htable hname
  have hwritten := Written.intro (o := ⟨_, ⟨opening, inner, closing⟩, options⟩) hheader hopening
    (Nesting.balanced_eq_true_iff.1 hinner) hclosing hoptions .absent
  simpa using hwritten

theorem ofText_eq_ok_iff {text : String} {o : Outline} : ofText text = .ok o ↔
    ∃ ts, tokenize text = .ok ts ∧ o.Written ts := by
  simp only [ofText, Except.bind_eq_ok_iff, Except.mapError_eq_ok_iff, read_eq_ok_iff]

end Outline
end TableRebuild
