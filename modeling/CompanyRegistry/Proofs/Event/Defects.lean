import CompanyRegistry.Proofs.Event.Templates
import Mathlib.Data.List.Induction

/-!
# Where key templates are defective

A text that is no template is told its first defect. `DoubledAt` says where a defect can be: at a doubled brace,
before which the text is a template, and still is one with the first of the two braces, so that no doubled brace
begins further left. `Defect.StandsIn` says of each defect what stands there and what follows. A text has no more
than one such defect, and is told it (`parse_eq_error_iff`).

That a defect which stands in a text is told is read off the scan: what was read of a template is read of it
before any other text (`scan_before`). That nothing else is told goes by one character more at a time
(`isTemplate_or_defect`): a template stays one, or its last character was a brace and is doubled now; an open
pair of braces stays open, or is closed and holds a name or not; the other defects stay.
-/

namespace CompanyRegistry.KeyTemplate

/-! ### Templates as texts -/

/-- A text is a template. -/
def IsTemplate (cs : List Char) : Prop := ∃ t, parse (String.ofList cs) = .ok t

variable {cs before rest : List Char} {c : Char}

theorem isTemplate_iff_scan : IsTemplate cs ↔ ∃ segments, scan 0 (.plain []) cs = .ok segments := by
  simp only [IsTemplate, parse, map_eq_ok_iff, String.toList_ofList]
  constructor
  · rintro ⟨-, segments, hscan, -⟩
    exact ⟨segments, hscan⟩
  · rintro ⟨segments, hscan⟩
    exact ⟨_, segments, hscan, rfl⟩

theorem isTemplate_iff_pieces : IsTemplate cs ↔
    ∃ pieces : List Piece, Proper (pieces.map Piece.segment) ∧ cs = pieces.flatMap Piece.written := by
  constructor
  · rintro ⟨t, hparse⟩
    obtain ⟨-, hproper, pieces, hmap, hwritten⟩ := parse_eq_ok_iff.mp hparse
    rw [String.toList_ofList] at hwritten
    exact ⟨pieces, hmap ▸ hproper, hwritten⟩
  · rintro ⟨pieces, hproper, rfl⟩
    exact ⟨⟨_, pieces.map Piece.segment⟩,
      parse_eq_ok_iff.mpr ⟨rfl, hproper, pieces, rfl, String.toList_ofList⟩⟩

theorem octets_eq_utf8ByteSize (cs : List Char) : octets cs = (String.ofList cs).utf8ByteSize := by
  induction cs with
  | nil => rfl
  | cons c cs ih =>
    have hcons : String.ofList (c :: cs) = String.singleton c ++ String.ofList cs := by
      rw [String.singleton_eq_ofList, ← String.ofList_append]
      rfl
    rw [octets_cons, ih, hcons, String.utf8ByteSize_append, String.utf8ByteSize_singleton]

/-! ### The plain text at the end of a template -/

theorem Proper.snoc_iff {segments : List Segment} {s : Segment} :
    Proper (segments ++ [s]) ↔
      Proper segments ∧ s.Sound ∧ ∀ last ∈ segments.getLast?, last.Adjoins s := by
  constructor
  · rintro ⟨hsound, hadjoin⟩
    obtain ⟨hchain, -, hlast⟩ := List.isChain_append.mp hadjoin
    refine ⟨⟨fun a ha => hsound a (List.mem_append_left _ ha), hchain⟩, hsound s (by simp), ?_⟩
    intro last hmem
    exact hlast last hmem s rfl
  · rintro ⟨hproper, hs, hlast⟩
    refine ⟨?_, List.isChain_append.mpr ⟨hproper.adjoin, List.isChain_singleton s, ?_⟩⟩
    · intro a ha
      rcases List.mem_append.mp ha with ha | ha
      · exact hproper.sound a ha
      · rw [List.mem_singleton.mp ha]
        exact hs
    · intro last hmem b hb
      cases hb
      exact hlast last hmem

/-- Pieces behind which plain text may stand. -/
def Placed (pieces : List Piece) : Prop :=
  Proper (pieces.map Piece.segment) ∧ ∀ text, ∀ last ∈ (pieces.map Piece.segment).getLast?,
    last.Adjoins (.literal text)

theorem Placed.isTemplate {pieces : List Piece} {plain : List Char} (h : Placed pieces)
    (hplain : Undoubled plain) : IsTemplate (pieces.flatMap Piece.written ++ plain) := by
  rw [isTemplate_iff_pieces]
  by_cases hempty : plain = []
  · rw [hempty, List.append_nil]
    exact ⟨pieces, h.1, rfl⟩
  · refine ⟨pieces ++ [.literal plain], ?_, by simp [Piece.written]⟩
    rw [List.map_append, List.map_singleton]
    exact Proper.snoc_iff.mpr ⟨h.1, ⟨hempty, undoubled_iff.mp hplain⟩, h.2 plain⟩

theorem IsTemplate.exists_placed (h : IsTemplate cs) : ∃ pieces plain, Placed pieces ∧ Undoubled plain ∧
    cs = pieces.flatMap Piece.written ++ plain := by
  obtain ⟨pieces, hproper, rfl⟩ := isTemplate_iff_pieces.mp h
  rcases List.eq_nil_or_concat pieces with rfl | ⟨pieces, piece, rfl⟩
  · exact ⟨[], [], ⟨hproper, by simp⟩, List.isChain_nil, rfl⟩
  · cases piece with
    | literal plain =>
      rw [List.concat_eq_append, List.map_append] at hproper
      obtain ⟨hpieces, hsound, hlast⟩ := Proper.snoc_iff.mp hproper
      refine ⟨pieces, plain, ⟨hpieces, ?_⟩, undoubled_iff.mpr hsound.2, by simp [Piece.written]⟩
      -- whether a literal may follow does not depend on its text
      intro text last hmem
      have hadjoins := hlast last hmem
      cases last with
      | literal _ => exact hadjoins.elim
      | company => trivial
      | eventType => trivial
    | placeholder p before after =>
      refine ⟨pieces.concat (.placeholder p before after), [], ⟨hproper, ?_⟩, List.isChain_nil, by simp⟩
      intro text last hmem
      rw [List.concat_eq_append, List.map_append, List.map_singleton, List.getLast?_concat] at hmem
      cases hmem
      cases p with
      | company => trivial
      | eventType => trivial

/-- A template with one more character is a template, or the character is a brace and doubles the last one, which
belongs to plain text. -/
theorem IsTemplate.concat_cases (h : IsTemplate cs) (c : Char) :
    IsTemplate (cs ++ [c]) ∨
      (c = '\x7b' ∨ c = '\x7d') ∧ ∃ before, cs = before ++ [c] ∧ IsTemplate before := by
  obtain ⟨pieces, plain, hplaced, hplain, rfl⟩ := h.exists_placed
  by_cases hmore : Undoubled (plain ++ [c])
  · rw [List.append_assoc]
    exact Or.inl (hplaced.isTemplate hmore)
  · right
    obtain ⟨d, hd, hbrace⟩ : ∃ d ∈ plain.getLast?, ¬ Apart d c := by
      by_contra hnone
      push Not at hnone
      refine hmore (hplain.append (List.isChain_singleton c) ?_)
      intro d hd e he
      cases he
      exact hnone d hd
    have hsame : d = c ∧ (c = '\x7b' ∨ c = '\x7d') := by
      unfold Apart at hbrace
      by_cases hopen : d = '\x7b' ∧ c = '\x7b'
      · exact ⟨hopen.1.trans hopen.2.symm, Or.inl hopen.2⟩
      · have hclose : d = '\x7d' ∧ c = '\x7d' := by
          by_contra hclose
          exact hbrace ⟨hopen, hclose⟩
        exact ⟨hclose.1.trans hclose.2.symm, Or.inr hclose.2⟩
    obtain ⟨rfl, hc⟩ := hsame
    obtain ⟨plain, rfl⟩ := List.getLast?_eq_some_iff.mp hd
    refine ⟨hc, _, (List.append_assoc _ plain [d]).symm, hplaced.isTemplate ?_⟩
    exact hplain.left_of_append

/-! ### Scanning on behind a template -/

/-- What is read of a text is read of it before any other text, if its last character and the first of the other
are read one by one. -/
theorem scan_before {position : Nat} {place : Place} {segments : List Segment}
    (h : scan position place cs = .ok segments)
    (hc : ∃ more, scan position place (cs ++ [c]) = .ok more) :
    ∃ (read : List Char) (f : List Segment → List Segment), ∀ rest,
      scan position place (cs ++ c :: rest) =
        (scan (position + octets cs) (.plain read) (c :: rest)).map f := by
  fun_induction scan position place cs generalizing segments with
  | case1 position read r ih =>
    obtain ⟨inner, hinner, -⟩ := bind_eq_ok_iff.mp h
    obtain ⟨more, hmore⟩ := hc
    simp only [List.cons_append] at hmore
    rw [scan_open, map_eq_ok_iff] at hmore
    obtain ⟨more, hmore, -⟩ := hmore
    obtain ⟨read', f, hf⟩ := ih hinner ⟨more, hmore⟩
    refine ⟨read', withLiteral read ∘ f, ?_⟩
    intro rest
    rw [List.cons_append, List.cons_append, scan_open, hf rest, map_map, octets_doubled (by decide),
      Nat.add_assoc]
  | case2 => cases h
  | case3 position read d r hopen hclose ih =>
    -- the next character is one of the text or, at its end, the one behind it
    have hnext : ∀ rest, ∀ e ∈ (r ++ c :: rest).head?, Apart d e := by
      intro rest e he
      cases r with
      | nil =>
        cases he
        obtain ⟨more, hmore⟩ := hc
        refine ⟨?_, ?_⟩
        · rintro ⟨rfl, rfl⟩
          rw [List.singleton_append, scan_open] at hmore
          cases hmore
        · rintro ⟨rfl, rfl⟩
          cases hmore
      | cons e' r =>
        cases he
        exact apart_head hopen hclose _ rfl
    obtain ⟨more, hmore⟩ := hc
    rw [List.cons_append, scan_plain_cons (hnext [])] at hmore
    obtain ⟨read', f, hf⟩ := ih h ⟨more, hmore⟩
    refine ⟨read', f, ?_⟩
    intro rest
    rw [List.cons_append, scan_plain_cons (hnext rest), hf rest, octets_cons, Nat.add_assoc]
  | case4 position read =>
    refine ⟨read, id, ?_⟩
    intro rest
    exact (congrFun Except.map_id _).symm
  | case5 position opened read r ih =>
    obtain ⟨s, hfield, h⟩ := bind_eq_ok_iff.mp h
    obtain ⟨inner, hinner, -⟩ := bind_eq_ok_iff.mp h
    obtain ⟨more, hmore⟩ := hc
    simp only [List.cons_append] at hmore
    rw [scan_close hfield, map_eq_ok_iff] at hmore
    obtain ⟨more, hmore, -⟩ := hmore
    obtain ⟨read', f, hf⟩ := ih hinner ⟨more, hmore⟩
    refine ⟨read', (s :: ·) ∘ f, ?_⟩
    intro rest
    rw [List.cons_append, List.cons_append, scan_close hfield, hf rest, map_map,
      octets_doubled (by decide), Nat.add_assoc]
  | case6 position opened read d r hclose ih =>
    cases r with
    | nil => cases h
    | cons e r =>
      have hnext : ∀ rest, ¬ (d = '\x7d' ∧ (e :: r ++ rest).head? = some '\x7d') := by
        rintro rest ⟨rfl, he⟩
        cases he
        exact hclose r rfl rfl
      obtain ⟨more, hmore⟩ := hc
      rw [List.cons_append, scan_inside_cons (hnext [c])] at hmore
      obtain ⟨read', f, hf⟩ := ih h ⟨more, hmore⟩
      refine ⟨read', f, ?_⟩
      intro rest
      rw [List.cons_append, scan_inside_cons (hnext _), hf rest, octets_cons d, Nat.add_assoc]
  | case7 => cases h

/-! ### Defects -/

/-- A doubled brace stands in a text, and it is the first one that is not a placeholder's: the text before it is a
template, with the first of the two braces as well. -/
structure DoubledAt (brace : Char) (before rest cs : List Char) : Prop where
  split : cs = before ++ brace :: brace :: rest
  accepted : IsTemplate before
  first : IsTemplate (before ++ [brace])

/-- What a defect says of a text. Positions count the octets before them. -/
def Defect.StandsIn (cs : List Char) : Defect → Prop
  | .unclosed n => ∃ before rest, DoubledAt '\x7b' before rest cs ∧
      (String.ofList before).utf8ByteSize = n ∧ ¬ ['\x7d', '\x7d'] <:+: rest
  | .unexpectedClose n => ∃ before rest, DoubledAt '\x7d' before rest cs ∧
      (String.ofList before).utf8ByteSize = n
  | .unknownField name => ∃ before inner rest,
      DoubledAt '\x7b' before (inner ++ '\x7d' :: '\x7d' :: rest) cs ∧
      ¬ ['\x7d', '\x7d'] <:+: inner ++ ['\x7d'] ∧
      name = String.ofList (Text.trim inner) ∧ ∀ p : Placeholder, Text.trim inner ≠ p.name

theorem field_eq_error_iff {inner : List Char} {d : Defect} : field inner = .error d ↔
    d = .unknownField (String.ofList (Text.trim inner)) ∧ ∀ p : Placeholder, Text.trim inner ≠ p.name := by
  unfold field
  dsimp only
  split_ifs with hcompany hkind
  · simp only [false_iff, not_and]
    intro _ hname
    exact hname .company hcompany
  · simp only [false_iff, not_and]
    intro _ hname
    exact hname .eventType hkind
  · rw [Except.error.injEq]
    constructor
    · rintro rfl
      refine ⟨rfl, ?_⟩
      intro p
      cases p with
      | company => exact hcompany
      | eventType => exact hkind
    · rintro ⟨rfl, -⟩
      rfl

namespace DoubledAt

variable {brace : Char} {more inner : List Char}

theorem scan_eq (h : DoubledAt brace before rest cs) :
    ∃ (read : List Char) (f : List Segment → List Segment),
      scan 0 (.plain []) cs =
        (scan (String.ofList before).utf8ByteSize (.plain read) (brace :: brace :: rest)).map f := by
  obtain ⟨segments, hbefore⟩ := isTemplate_iff_scan.mp h.accepted
  obtain ⟨read, f, hf⟩ := scan_before hbefore (isTemplate_iff_scan.mp h.first)
  refine ⟨read, f, ?_⟩
  rw [h.split, hf, Nat.zero_add, octets_eq_utf8ByteSize]

theorem append (h : DoubledAt brace before rest cs) (more : List Char) :
    DoubledAt brace before (rest ++ more) (cs ++ more) :=
  ⟨by simp [h.split], h.accepted, h.first⟩

theorem scan_unclosed (h : DoubledAt '\x7b' before rest cs) (hrest : ¬ ['\x7d', '\x7d'] <:+: rest) :
    scan 0 (.plain []) cs = .error (.unclosed (String.ofList before).utf8ByteSize) := by
  obtain ⟨read, f, hscan⟩ := h.scan_eq
  have hinner : ¬ ['\x7d', '\x7d'] <:+: rest ++ List.take 1 [] := by
    rwa [List.take_nil, List.append_nil]
  rw [hscan, scan_open, ← List.append_nil rest, scan_inner hinner]
  rfl

theorem scan_unexpectedClose (h : DoubledAt '\x7d' before rest cs) :
    scan 0 (.plain []) cs = .error (.unexpectedClose (String.ofList before).utf8ByteSize) := by
  obtain ⟨read, f, hscan⟩ := h.scan_eq
  rw [hscan]
  rfl

theorem scan_unknownField {d : Defect}
    (h : DoubledAt '\x7b' before (inner ++ '\x7d' :: '\x7d' :: rest) cs)
    (hinner : ¬ ['\x7d', '\x7d'] <:+: inner ++ ['\x7d']) (hfield : field inner = .error d) :
    scan 0 (.plain []) cs = .error d := by
  obtain ⟨read, f, hscan⟩ := h.scan_eq
  rw [hscan, scan_open, scan_inner hinner, List.append_nil, scan, List.reverse_reverse, hfield]
  rfl

theorem isTemplate_of_field {s : Segment} (h : DoubledAt '\x7b' before (inner ++ ['\x7d', '\x7d']) cs)
    (hinner : ¬ ['\x7d', '\x7d'] <:+: inner ++ ['\x7d']) (hfield : field inner = .ok s) :
    IsTemplate cs := by
  obtain ⟨read, f, hscan⟩ := h.scan_eq
  have hclosed : field (inner.reverse ++ []).reverse = .ok s := by
    rwa [List.append_nil, List.reverse_reverse]
  rw [isTemplate_iff_scan, hscan, scan_open, scan_inner hinner, scan_close hclosed]
  exact ⟨_, rfl⟩

/-- An open pair of braces in a text with one more character: it stays open, or that character closes it and what
stands inside is judged. -/
theorem concat_cases (h : DoubledAt '\x7b' before rest cs) (hrest : ¬ ['\x7d', '\x7d'] <:+: rest)
    (c : Char) : IsTemplate (cs ++ [c]) ∨ ∃ d : Defect, d.StandsIn (cs ++ [c]) := by
  by_cases hmore : ['\x7d', '\x7d'] <:+: rest ++ [c]
  · obtain ⟨inner, rfl, rfl⟩ : ∃ inner, rest = inner ++ ['\x7d'] ∧ c = '\x7d' := by
      rcases List.infix_concat_iff.mp hmore with hsuffix | hinfix
      · obtain ⟨inner, hsplit⟩ := hsuffix
        have hsplit' : (inner ++ ['\x7d']) ++ ['\x7d'] = rest ++ [c] := by
          rw [← hsplit, List.append_assoc]
          rfl
        obtain ⟨hrest, hc⟩ := List.append_inj' hsplit' rfl
        exact ⟨inner, hrest.symm, (List.singleton_inj.mp hc).symm⟩
      · exact absurd hinfix hrest
    have hclosed : DoubledAt '\x7b' before (inner ++ ['\x7d', '\x7d']) (cs ++ ['\x7d']) := by
      have hdoubled := h.append ['\x7d']
      rwa [List.append_assoc] at hdoubled
    cases hfield : field inner with
    | ok s => exact Or.inl (hclosed.isTemplate_of_field hrest hfield)
    | error d =>
      obtain ⟨rfl, hname⟩ := field_eq_error_iff.mp hfield
      exact Or.inr ⟨.unknownField _, before, inner, [], hclosed, hrest, rfl, hname⟩
  · exact Or.inr ⟨.unclosed _, before, rest ++ [c], h.append [c], rfl, hmore⟩

end DoubledAt

theorem isTemplate_or_defect (cs : List Char) : IsTemplate cs ∨ ∃ d : Defect, d.StandsIn cs := by
  induction cs using List.reverseRecOn with
  | nil => exact Or.inl ⟨⟨"", []⟩, rfl⟩
  | append_singleton cs c ih =>
    rcases ih with h | ⟨d, h⟩
    · rcases h.concat_cases c with hmore | ⟨hbrace, before, rfl, hbefore⟩
      · exact Or.inl hmore
      · have hdoubled : DoubledAt c before [] (before ++ [c] ++ [c]) :=
          ⟨List.append_assoc before [c] [c], hbefore, h⟩
        rcases hbrace with rfl | rfl
        · exact Or.inr ⟨.unclosed _, before, [], hdoubled, rfl, by simp⟩
        · exact Or.inr ⟨.unexpectedClose _, before, [], hdoubled, rfl⟩
    · cases d with
      | unclosed n =>
        obtain ⟨before, rest, hdoubled, -, hrest⟩ := h
        exact hdoubled.concat_cases hrest c
      | unexpectedClose n =>
        obtain ⟨before, rest, hdoubled, hn⟩ := h
        exact Or.inr ⟨.unexpectedClose n, before, _, hdoubled.append [c], hn⟩
      | unknownField name =>
        obtain ⟨before, inner, rest, hdoubled, hinner, hname⟩ := h
        have hmore := hdoubled.append [c]
        rw [List.append_assoc] at hmore
        exact Or.inr ⟨.unknownField name, before, inner, rest ++ [c], hmore, hinner, hname⟩

theorem Defect.StandsIn.scan_eq {d : Defect} (h : d.StandsIn cs) :
    scan 0 (.plain []) cs = .error d := by
  cases d with
  | unclosed n =>
    obtain ⟨before, rest, hdoubled, rfl, hrest⟩ := h
    exact hdoubled.scan_unclosed hrest
  | unexpectedClose n =>
    obtain ⟨before, rest, hdoubled, rfl⟩ := h
    exact hdoubled.scan_unexpectedClose
  | unknownField name =>
    obtain ⟨before, inner, rest, hdoubled, hinner, rfl, hname⟩ := h
    exact hdoubled.scan_unknownField hinner (field_eq_error_iff.mpr ⟨rfl, hname⟩)

theorem parse_eq_error_iff {source : String} {d : Defect} :
    parse source = .error d ↔ d.StandsIn source.toList := by
  have hparse : ∀ e, scan 0 (.plain []) source.toList = .error e → parse source = .error e := by
    intro e he
    rw [parse, he]
    rfl
  constructor
  · intro h
    rcases isTemplate_or_defect source.toList with ⟨t, ht⟩ | ⟨e, he⟩
    · rw [String.ofList_toList, h] at ht
      cases ht
    · rw [hparse e he.scan_eq] at h
      cases h
      exact he
  · intro h
    exact hparse d h.scan_eq

/-- **A defect stands where it is told.** A text is refused with one of three defects, and each of them exactly if

* doubled braces open at its position, no doubled braces close behind them;
* doubled braces close at its position;
* doubled braces open, and what stands in them up to the next doubled braces that close is, without the blanks on
  its sides, its name and the name of no placeholder;

and the text before these braces is a template, also with the first of them, so that it is the first defect of
the text. -/
theorem defects_stand_where_told (source : String) :
    (∀ n, parse source = .error (.unclosed n) ↔ ∃ before rest,
      DoubledAt '\x7b' before rest source.toList ∧
      (String.ofList before).utf8ByteSize = n ∧ ¬ ['\x7d', '\x7d'] <:+: rest) ∧
    (∀ n, parse source = .error (.unexpectedClose n) ↔ ∃ before rest,
      DoubledAt '\x7d' before rest source.toList ∧ (String.ofList before).utf8ByteSize = n) ∧
    ∀ name, parse source = .error (.unknownField name) ↔ ∃ before inner rest,
      DoubledAt '\x7b' before (inner ++ '\x7d' :: '\x7d' :: rest) source.toList ∧
      ¬ ['\x7d', '\x7d'] <:+: inner ++ ['\x7d'] ∧
      name = String.ofList (Text.trim inner) ∧ ∀ p : Placeholder, Text.trim inner ≠ p.name := by
  refine ⟨?_, ?_, ?_⟩
  · intro n
    exact parse_eq_error_iff
  · intro n
    exact parse_eq_error_iff
  · intro name
    exact parse_eq_error_iff

end CompanyRegistry.KeyTemplate
