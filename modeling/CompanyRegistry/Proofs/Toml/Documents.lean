import CompanyRegistry.Proofs.Toml.Values

/-!
# TOML documents, read back

A document of sections, each a header with lines of a key and a value, is read as a table of tables with
these keys and values (`parse?_document`). A text is read line by line: `Yields` says what a draft becomes
when all of a text has been added to it, and there is a lemma for each kind of line that goes in front of a
text.
-/

namespace CompanyRegistry.Toml

variable {rest : List Char} {fuel : Nat} {d d' e : Draft} {name key : String} {v : Toml}
  {entries before : Entries}

/-! ### Adding to tables -/

/-- No entry has the key. -/
def Free (key : String) (entries : Entries) : Prop := ∀ p ∈ entries, p.1 ≠ key

theorem free_of_nodup {keys : List String} (h : (entries.map (·.1) ++ key :: keys).Nodup) :
    Free key entries := by
  obtain ⟨-, -, hdisjoint⟩ := List.nodup_append.mp h
  intro p hp
  exact hdisjoint p.1 (List.mem_map_of_mem hp) key List.mem_cons_self

theorem alter_of_free (h : Free key entries) (f : Option Toml → Option Toml) :
    alter key f entries = (f none).map fun v => entries ++ [(key, v)] := by
  induction entries with
  | nil => rfl
  | cons p entries ih =>
    obtain ⟨k, v⟩ := p
    have hk : k ≠ key := h _ List.mem_cons_self
    rw [alter, if_neg hk, ih fun p hp => h p (List.mem_cons_of_mem _ hp), Option.map_map]
    rfl

theorem alter_last (h : Free key entries) (f : Option Toml → Option Toml) (v : Toml) :
    alter key f (entries ++ [(key, v)]) = (f (some v)).map fun v' => entries ++ [(key, v')] := by
  induction entries with
  | nil => simp [alter]
  | cons p entries ih =>
    obtain ⟨k, v⟩ := p
    have hk : k ≠ key := h _ List.mem_cons_self
    rw [List.cons_append, alter, if_neg hk, ih fun p hp => h p (List.mem_cons_of_mem _ hp),
      Option.map_map]
    rfl

theorem openTable_of_free (h : Free name entries) :
    openTable [name] entries = some (entries ++ [(name, .table .header [])]) := by
  show alter name _ entries = _
  rw [alter_of_free h]
  rfl

/-- A new key goes to the end of the table that is open. -/
theorem add_of_free (hname : Free name before) (hkey : Free key entries) (v : Toml) :
    (Draft.mk (before ++ [(name, .table .header entries)]) [name]).add [key] v =
      some ⟨before ++ [(name, .table .header (entries ++ [(key, v)]))], [name]⟩ := by
  have hinsert : insertAt [key] v .header entries = some (entries ++ [(key, v)]) := by
    show insertNew key v entries = _
    rw [insertNew, alter_of_free hkey]
    rfl
  unfold Draft.add
  show (alter name _ _).map _ = _
  rw [alter_last hname]
  simp [within, hinsert]

/-! ### Keys -/

/-- A key that needs no quotes. -/
def Bare (key : String) : Prop := key.toList ≠ [] ∧ key.toList.all isBare = true

instance (key : String) : Decidable (Bare key) :=
  inferInstanceAs (Decidable (key.toList ≠ [] ∧ key.toList.all isBare = true))

theorem ne_of_isBare {c x : Char} (hc : isBare c = true) (hx : isBare x = false) : c ≠ x := by
  rintro rfl
  rw [hc] at hx
  cases hx

theorem isSpace_of_isBare {c : Char} (hc : isBare c = true) : isSpace c = false := by
  have hblank := ne_of_isBare hc (show isBare ' ' = false by decide)
  have htab := ne_of_isBare hc (show isBare '\t' = false by decide)
  simp [isSpace, hblank, htab]

theorem skipSpace_cons {c : Char} (hc : isSpace c = false) (r : List Char) :
    skipSpace (c :: r) = c :: r :=
  List.dropWhile_cons_of_neg (by simp [hc])

theorem Bare.exists_cons (h : Bare key) :
    ∃ c r, key.toList = c :: r ∧ isBare c = true := by
  obtain ⟨hne, hbare⟩ := h
  cases hkey : key.toList with
  | nil => exact absurd hkey hne
  | cons c r =>
    rw [hkey] at hbare
    exact ⟨c, r, rfl, (Bool.and_eq_true_iff.mp hbare).1⟩

theorem readSimpleKey?_bare (h : Bare key) {c : Char} (hc : isBare c = false) (r : List Char) :
    readSimpleKey? (key.toList ++ c :: r) = some (key, c :: r) := by
  obtain ⟨x, after, hhead, hx⟩ := h.exists_cons
  have hbare : (key.toList ++ c :: r).takeWhile isBare = key.toList := by
    rw [List.takeWhile_append_of_pos (List.all_eq_true.mp h.2)]
    simp [hc]
  unfold readSimpleKey?
  split
  · rename_i heq
    rw [hhead] at heq
    exact absurd (List.cons.inj heq).1 (ne_of_isBare hx (by decide))
  · rename_i heq
    rw [hhead] at heq
    exact absurd (List.cons.inj heq).1 (ne_of_isBare hx (by decide))
  · dsimp only
    rw [hbare, if_neg h.1, String.ofList_toList, List.drop_left]

theorem readKeys?_bare (h : Bare key) {c x : Char} {r after : List Char} (hc : isBare c = false)
    (hafter : skipSpace (c :: r) = x :: after) (hx : x ≠ '.') :
    readKeys? (fuel + 1) (key.toList ++ c :: r) = some ([key], x :: after) := by
  obtain ⟨y, more, hhead, hy⟩ := h.exists_cons
  have hskip : skipSpace (key.toList ++ c :: r) = key.toList ++ c :: r := by
    rw [hhead]
    exact skipSpace_cons (isSpace_of_isBare hy) _
  simp only [readKeys?, hskip, readSimpleKey?_bare h hc, hafter]
  simp [hx]

/-! ### Lines -/

/-- A text adds to a draft what makes it another one. -/
def Yields (d : Draft) (text : List Char) (e : Draft) : Prop :=
  ∀ fuel, text.length < fuel → readLines? fuel d text = some e

theorem yields_nil (d : Draft) : Yields d [] d := by
  intro fuel hfuel
  obtain ⟨fuel, rfl⟩ := Nat.exists_eq_add_of_lt hfuel
  rfl

theorem readLineEnd?_newline (rest : List Char) : readLineEnd? ('\n' :: rest) = some rest := rfl

theorem Yields.blank (h : Yields d rest e) : Yields d ('\n' :: rest) e := by
  intro fuel hfuel
  rw [List.length_cons] at hfuel
  obtain ⟨fuel, rfl⟩ : ∃ n, fuel = n + 1 := ⟨fuel - 1, by omega⟩
  exact h fuel (by omega)

theorem readHeader?_bare (hname : Bare name) {root : Entries}
    (hopen : openTable [name] d.root = some root) :
    readHeader? d (name.toList ++ ']' :: '\n' :: rest) = some (⟨root, [name]⟩, rest) := by
  have hkeys : readKeys? ((name.toList ++ ']' :: '\n' :: rest).length + 1)
      (name.toList ++ ']' :: '\n' :: rest) = some ([name], ']' :: '\n' :: rest) :=
    readKeys?_bare hname (by decide) (skipSpace_cons (by decide) _) (by decide)
  refine bind_of_some hkeys ?_
  simp [readMark?, hopen, readLineEnd?_newline]

theorem Yields.header (hname : Bare name) {root : Entries} (hopen : openTable [name] d.root = some root)
    (h : Yields ⟨root, [name]⟩ rest e) : Yields d (headerLine name ++ rest) e := by
  intro fuel hfuel
  have hchars : headerLine name ++ rest = '[' :: (name.toList ++ ']' :: '\n' :: rest) := by
    simp [headerLine]
  rw [hchars] at hfuel ⊢
  rw [List.length_cons, List.length_append, List.length_cons, List.length_cons] at hfuel
  obtain ⟨fuel, rfl⟩ : ∃ n, fuel = n + 1 := ⟨fuel - 1, by omega⟩
  obtain ⟨c, r, hhead, hc⟩ := hname.exists_cons
  rw [readLines?, skipSpace_cons (by decide)]
  split
  · rename_i heq
    cases heq
  · rename_i heq
    rw [hhead] at heq
    have hbracket := (List.cons.inj (List.cons.inj heq).2).1
    exact absurd hbracket (ne_of_isBare hc (by decide))
  · rename_i heq
    cases heq
    exact bind_of_some (readHeader?_bare hname hopen) (h fuel (by omega))
  · rename_i hother heq
    exact (hother (List.cons.inj heq).1.symm).elim

theorem readPair?_bare (hkey : Bare key) {text : List Char} (hread : ReadsAs 0 text v)
    (hhead : ∃ c r, text = c :: r ∧ isSpace c = false) (hadd : d.add [key] v = some d') :
    readPair? d (line key text ++ rest) = some (d', rest) := by
  obtain ⟨c, r, rfl, hc⟩ := hhead
  have hchars : line key (c :: r) ++ rest = key.toList ++ ' ' :: '=' :: ' ' :: (c :: r ++ '\n' :: rest) := by
    simp [line]
  have hkeys : readKeys? ((key.toList ++ ' ' :: '=' :: ' ' :: (c :: r ++ '\n' :: rest)).length + 1)
      (key.toList ++ ' ' :: '=' :: ' ' :: (c :: r ++ '\n' :: rest)) =
        some ([key], '=' :: ' ' :: (c :: r ++ '\n' :: rest)) :=
    readKeys?_bare hkey (by decide) rfl (by decide)
  have hblank : skipSpace (' ' :: (c :: r ++ '\n' :: rest)) = c :: r ++ '\n' :: rest :=
    (List.dropWhile_cons_of_pos rfl).trans (skipSpace_cons hc _)
  have hvalue := hread (2 * (c :: r ++ '\n' :: rest).length + 2) ('\n' :: rest)
    (by simp; omega) ⟨'\n', rest, rfl, Or.inl rfl⟩
  rw [hchars]
  refine bind_of_some hkeys (bind_of_some (b := some (d', rest)) rfl ?_)
  dsimp only
  rw [hblank]
  refine bind_of_some hvalue ?_
  simp [hadd, readLineEnd?_newline]

theorem Yields.pair (hkey : Bare key) {text : List Char} (hread : ReadsAs 0 text v)
    (hhead : ∃ c r, text = c :: r ∧ isSpace c = false) (hadd : d.add [key] v = some d')
    (h : Yields d' rest e) : Yields d (line key text ++ rest) e := by
  intro fuel hfuel
  have hpair : readPair? d (line key text ++ rest) = some (d', rest) :=
    readPair?_bare hkey hread hhead hadd
  obtain ⟨c, r, hkeyHead, hc⟩ := hkey.exists_cons
  have hchars : line key text ++ rest = c :: (r ++ " = ".toList ++ text ++ '\n' :: rest) := by
    simp [line, hkeyHead]
  rw [hchars] at hpair hfuel ⊢
  rw [List.length_cons, List.length_append, List.length_cons] at hfuel
  obtain ⟨fuel, rfl⟩ : ∃ n, fuel = n + 1 := ⟨fuel - 1, by omega⟩
  have hother : ∀ x, isBare x = false → c ≠ x := fun x => ne_of_isBare hc
  rw [readLines?, skipSpace_cons (isSpace_of_isBare hc)]
  split
  · rename_i heq
    cases heq
  · rename_i heq
    exact absurd (List.cons.inj heq).1 (hother _ (by decide))
  · rename_i heq
    exact absurd (List.cons.inj heq).1 (hother _ (by decide))
  · rename_i heq
    cases heq
    rw [if_neg]
    · exact bind_of_some hpair (h fuel (by omega))
    · rintro (rfl | rfl | rfl)
      · cases hc
      · cases hc
      · cases hc

/-! ### Sections -/

/-- A line that is written: its key, the text of its value, and the value. -/
structure Pair where
  key : String
  text : List Char
  value : Toml

/-- Lines that are written below a header. -/
structure Section where
  name : String
  pairs : List Pair

/-- A line is written so that it can be read. -/
structure Pair.Plain (p : Pair) : Prop where
  bare : Bare p.key
  reads : ReadsAs 0 p.text p.value
  head : ∃ c r, p.text = c :: r ∧ isSpace c = false

/-- A section is written so that it can be read. -/
structure Section.Plain (s : Section) : Prop where
  bare : Bare s.name
  pairs : ∀ p ∈ s.pairs, p.Plain
  keys : (s.pairs.map (·.key)).Nodup

/-- The text of a section. -/
def Section.chars (s : Section) : List Char :=
  headerLine s.name ++ s.pairs.flatMap fun p => line p.key p.text

/-- The entries of lines. -/
def entriesOf (pairs : List Pair) : Entries := pairs.map fun p => (p.key, p.value)

/-- The entry of a section. -/
def Section.entry (s : Section) : String × Toml := (s.name, .table .header (entriesOf s.pairs))

theorem Yields.pairs {pairs : List Pair} (hplain : ∀ p ∈ pairs, p.Plain)
    (hname : Free name before) (hkeys : (entries.map (·.1) ++ pairs.map (·.key)).Nodup)
    (h : Yields ⟨before ++ [(name, .table .header (entries ++ entriesOf pairs))], [name]⟩ rest e) :
    Yields ⟨before ++ [(name, .table .header entries)], [name]⟩
      (pairs.flatMap (fun p => line p.key p.text) ++ rest) e := by
  induction pairs generalizing entries with
  | nil =>
    rw [entriesOf, List.map_nil, List.append_nil] at h
    exact h
  | cons p pairs ih =>
    obtain ⟨hbare, hreads, hhead⟩ := hplain p List.mem_cons_self
    have hfree : Free p.key entries := free_of_nodup hkeys
    rw [List.flatMap_cons, List.append_assoc]
    refine .pair hbare hreads hhead (add_of_free hname hfree p.value) ?_
    refine ih (fun q hq => hplain q (List.mem_cons_of_mem p hq)) ?_ ?_
    · rw [List.map_append, List.append_assoc]
      exact hkeys
    · rw [List.append_assoc]
      exact h

theorem Yields.section {s : Section} (hs : s.Plain) (hname : Free s.name entries)
    (h : Yields ⟨entries ++ [s.entry], [s.name]⟩ rest e) {current : List String} :
    Yields ⟨entries, current⟩ (s.chars ++ rest) e := by
  rw [Section.chars, List.append_assoc]
  refine .header hs.bare (openTable_of_free hname) ?_
  exact .pairs hs.pairs hname hs.keys h

/-- Sections with an empty line between them. -/
def document (sections : List Section) : List Char := ['\n'].intercalate (sections.map Section.chars)

theorem document_cons_cons (s t : Section) (sections : List Section) :
    document (s :: t :: sections) = s.chars ++ '\n' :: document (t :: sections) := by
  simp [document, List.intercalate]

theorem yields_document {sections : List Section} (hplain : ∀ s ∈ sections, s.Plain)
    (hnames : (entries.map (·.1) ++ sections.map (·.name)).Nodup) (current : List String) :
    ∃ current', Yields ⟨entries, current⟩ (document sections)
      ⟨entries ++ sections.map Section.entry, current'⟩ := by
  induction sections generalizing entries current with
  | nil =>
    rw [List.map_nil, List.append_nil]
    exact ⟨current, yields_nil _⟩
  | cons s sections ih =>
    have hfree : Free s.name entries := free_of_nodup hnames
    have hmore : ((entries ++ [s.entry]).map (·.1) ++ sections.map (·.name)).Nodup := by
      rw [List.map_append, List.append_assoc]
      exact hnames
    obtain ⟨current', hrest⟩ :=
      ih (fun t ht => hplain t (List.mem_cons_of_mem s ht)) hmore [s.name]
    rw [List.append_assoc] at hrest
    refine ⟨current', ?_⟩
    cases sections with
    | nil =>
      have hdocument : document [s] = s.chars ++ document [] := by
        simp [document, List.intercalate]
      rw [hdocument]
      exact .section (hplain s List.mem_cons_self) hfree hrest
    | cons t sections =>
      rw [document_cons_cons]
      exact .section (hplain s List.mem_cons_self) hfree hrest.blank

/-- A document begins with a bracket and not with a byte order mark. -/
theorem skipMark_document (sections : List Section) :
    skipMark (document sections) = document sections := by
  have hbracket : ∀ r, skipMark ('[' :: r) = '[' :: r := fun r => rfl
  cases sections with
  | nil => rfl
  | cons s sections =>
    cases sections with
    | nil =>
      simp only [document, List.map_cons, List.map_nil, List.intercalate, List.intersperse,
        List.flatten_cons, Section.chars, headerLine, List.cons_append, hbracket]
    | cons t sections =>
      rw [document_cons_cons]
      simp only [Section.chars, headerLine, List.cons_append, hbracket]

/-- **A document of sections is read as their entries.** -/
theorem parse?_document {sections : List Section} (hplain : ∀ s ∈ sections, s.Plain)
    (hnames : (sections.map (·.name)).Nodup) :
    parse? (String.ofList (document sections)) = some (sections.map Section.entry) := by
  have hstart : (([] : Entries).map (·.1) ++ sections.map (·.name)).Nodup := hnames
  obtain ⟨current, hyields⟩ := yields_document hplain hstart []
  unfold parse?
  rw [String.toList_ofList]
  dsimp only
  rw [skipMark_document, hyields _ (Nat.lt_succ_self _)]
  rfl

end CompanyRegistry.Toml
