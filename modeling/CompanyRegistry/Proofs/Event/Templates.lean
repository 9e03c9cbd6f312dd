import CompanyRegistry.Event.KeyTemplate
import CompanyRegistry.Proofs.Outcome
import CompanyRegistry.Proofs.Text.Blanks
import Mathlib.Algebra.GroupWithZero.Nat
import Mathlib.Data.List.Chain

/-!
# What key templates are read

`Piece` is a part of a template as it is written, with the blanks inside the braces; `Proper` says which
segments can be told apart when they are written one after another. A text is a template exactly if it is
written by proper pieces, and its segments are theirs (`parse_eq_ok_iff`).

Doubled braces are looked at from the left, so a run of three belongs to whatever its first two make. The two
directions meet in `Undoubled`, which is kept while plain text is read: `scan_literal` goes over plain text
that has no doubled brace even with what follows it, and `pieces_of_scan` keeps the same of what was read.
-/

namespace CompanyRegistry.KeyTemplate

/-! ### Templates as they are written -/

/-- What a template can leave open. -/
inductive Placeholder
  | company
  | eventType
  deriving DecidableEq

namespace Placeholder

/-- The name that stands inside the braces. -/
def name : Placeholder → List Char
  | .company => ".Company".toList
  | .eventType => ".EventType".toList

def segment : Placeholder → Segment
  | .company => .company
  | .eventType => .eventType

end Placeholder

/-- Blanks, or nothing. -/
abbrev Blanks := { cs : List Char // ∀ c ∈ cs, Text.isBlank c = true }

/-- A part of a template as it is written. -/
inductive Piece
  | literal (text : List Char)
  | placeholder (p : Placeholder) (before after : Blanks)

namespace Piece

/-- The text of a piece: that of a placeholder has its name between doubled braces, blanks on both sides. -/
def written : Piece → List Char
  | .literal text => text
  | .placeholder p before after =>
    '\x7b' :: '\x7b' :: (before.val ++ (p.name ++ after.val)) ++ ['\x7d', '\x7d']

def segment : Piece → Segment
  | .literal text => .literal text
  | .placeholder p _ _ => p.segment

/-- A piece with an id and a kind put into their places. -/
def filled (id : String) (kind : EventKind) : Piece → List Char
  | .literal text => text
  | .placeholder .company _ _ => id.toList
  | .placeholder .eventType _ _ => kind.label.toList

end Piece

/-- A literal segment is some text without doubled braces. -/
def Segment.Sound : Segment → Prop
  | .literal text => text ≠ [] ∧ ¬ ['\x7b', '\x7b'] <:+: text ∧ ¬ ['\x7d', '\x7d'] <:+: text
  | _ => True

/-- Two segments may be neighbours: never two literals, and no literal ends in an opening brace before a
placeholder. -/
def Segment.Adjoins : Segment → Segment → Prop
  | .literal _, .literal _ => False
  | .literal text, _ => ¬ ['\x7b'] <:+ text
  | _, _ => True

/-- Segments that can be told apart when they are written one after another. -/
structure Proper (segments : List Segment) : Prop where
  sound : ∀ s ∈ segments, s.Sound
  adjoin : segments.IsChain Segment.Adjoins

instance : DecidablePred Segment.Sound
  | .literal text => inferInstanceAs (Decidable (text ≠ [] ∧ ¬ _ <:+: text ∧ ¬ _ <:+: text))
  | .company | .eventType => .isTrue trivial

instance : DecidableRel Segment.Adjoins
  | .literal _, .literal _ => .isFalse id
  | .literal text, .company | .literal text, .eventType => inferInstanceAs (Decidable (¬ _ <:+ text))
  | .company, _ | .eventType, _ => .isTrue trivial

instance (segments : List Segment) : Decidable (Proper segments) :=
  decidable_of_iff ((∀ s ∈ segments, s.Sound) ∧ segments.IsChain Segment.Adjoins)
    ⟨fun h => ⟨h.1, h.2⟩, fun h => ⟨h.sound, h.adjoin⟩⟩

/-! ### Doubled braces -/

/-- The two characters are no doubled brace. -/
def Apart (a b : Char) : Prop := ¬ (a = '\x7b' ∧ b = '\x7b') ∧ ¬ (a = '\x7d' ∧ b = '\x7d')

/-- A text has no doubled brace. -/
def Undoubled (cs : List Char) : Prop := cs.IsChain Apart

theorem undoubled_iff {cs : List Char} :
    Undoubled cs ↔ ¬ ['\x7b', '\x7b'] <:+: cs ∧ ¬ ['\x7d', '\x7d'] <:+: cs := by
  rw [Undoubled, List.isChain_iff_forall_rel_of_append_cons_cons]
  constructor
  · intro h
    refine ⟨?_, ?_⟩
    · rintro ⟨before, after, rfl⟩
      exact (h (List.append_assoc before _ after)).1 ⟨rfl, rfl⟩
    · rintro ⟨before, after, rfl⟩
      exact (h (List.append_assoc before _ after)).2 ⟨rfl, rfl⟩
  · rintro ⟨hopen, hclose⟩ a b before after rfl
    refine ⟨?_, ?_⟩
    · rintro ⟨rfl, rfl⟩
      exact hopen ⟨before, after, List.append_assoc before _ after⟩
    · rintro ⟨rfl, rfl⟩
      exact hclose ⟨before, after, List.append_assoc before _ after⟩

/-! ### Going over a text -/

/-- The length of a text in octets. -/
def octets (cs : List Char) : Nat := (cs.map Char.utf8Size).sum

theorem octets_cons (c : Char) (cs : List Char) : octets (c :: cs) = c.utf8Size + octets cs := by
  rw [octets, List.map_cons, List.sum_cons, octets]

theorem octets_append (cs ds : List Char) : octets (cs ++ ds) = octets cs + octets ds := by
  rw [octets, List.map_append, List.sum_append, octets, octets]

theorem octets_doubled {brace : Char} (h : brace.utf8Size = 1) (cs : List Char) :
    octets (brace :: brace :: cs) = 2 + octets cs := by
  rw [octets_cons, octets_cons, h]
  omega

section
variable {position opened : Nat} {read cs rest : List Char} {c : Char}

/-- What keeps two characters of plain text from being doubled braces. -/
theorem apart_head (hopen : ∀ r, c = '\x7b' → cs = '\x7b' :: r → False)
    (hclose : ∀ r, c = '\x7d' → cs = '\x7d' :: r → False) : ∀ d ∈ cs.head?, Apart c d := by
  intro d hd
  obtain ⟨r, rfl⟩ := List.head?_eq_some_iff.mp hd
  refine ⟨?_, ?_⟩
  · rintro ⟨rfl, rfl⟩
    exact hopen r rfl rfl
  · rintro ⟨rfl, rfl⟩
    exact hclose r rfl rfl

theorem scan_plain_cons (h : ∀ d ∈ cs.head?, Apart c d) :
    scan position (.plain read) (c :: cs) =
      scan (position + c.utf8Size) (.plain (c :: read)) cs := by
  rw [scan]
  · rintro r rfl rfl
    exact (h _ rfl).1 ⟨rfl, rfl⟩
  · rintro r rfl rfl
    exact (h _ rfl).2 ⟨rfl, rfl⟩

theorem scan_open : scan position (.plain read) ('\x7b' :: '\x7b' :: cs) =
    (scan (position + 2) (.inside position []) cs).map (withLiteral read) := by
  rw [scan]
  cases scan (position + 2) (.inside position []) cs with
  | error e => rfl
  | ok segments => rfl

theorem scan_inside_cons (h : ¬ (c = '\x7d' ∧ cs.head? = some '\x7d')) :
    scan position (.inside opened read) (c :: cs) =
      scan (position + c.utf8Size) (.inside opened (c :: read)) cs := by
  rw [scan]
  rintro r rfl rfl
  exact h ⟨rfl, rfl⟩

theorem scan_close {s : Segment} (h : field read.reverse = .ok s) :
    scan position (.inside opened read) ('\x7d' :: '\x7d' :: cs) =
      (scan (position + 2) (.plain []) cs).map (s :: ·) := by
  rw [scan, h]
  cases scan (position + 2) (.plain []) cs with
  | error e => rfl
  | ok segments => rfl

theorem head?_append_take_one (cs ds : List Char) : (cs ++ ds.take 1).head? = (cs ++ ds).head? := by
  cases cs with
  | nil => cases ds <;> rfl
  | cons c cs => rfl

/-- Plain text is gone over if there is no doubled brace in it, nor one that it shares with what follows. -/
theorem scan_literal {text : List Char} (h : Undoubled (text ++ rest.take 1)) :
    scan position (.plain read) (text ++ rest) =
      scan (position + octets text) (.plain (text.reverse ++ read)) rest := by
  induction text generalizing position read with
  | nil => rfl
  | cons c text ih =>
    rw [List.cons_append] at h
    obtain ⟨hnext, htail⟩ := List.isChain_cons.mp h
    rw [head?_append_take_one] at hnext
    rw [List.cons_append, scan_plain_cons hnext, ih htail, octets_cons, List.reverse_cons, List.append_assoc, Nat.add_assoc]
    rfl

/-- What stands inside braces is gone over if nothing in it closes them, nor anything that it shares with what
follows. -/
theorem scan_inner {inner : List Char} (h : ¬ ['\x7d', '\x7d'] <:+: inner ++ rest.take 1) :
    scan position (.inside opened read) (inner ++ rest) =
      scan (position + octets inner) (.inside opened (inner.reverse ++ read)) rest := by
  induction inner generalizing position read with
  | nil => rfl
  | cons c inner ih =>
    rw [List.cons_append, List.infix_cons_iff, not_or] at h
    have hnext : ¬ (c = '\x7d' ∧ (inner ++ rest).head? = some '\x7d') := by
      rintro ⟨rfl, hhead⟩
      rw [← head?_append_take_one] at hhead
      obtain ⟨ds, hds⟩ := List.head?_eq_some_iff.mp hhead
      rw [hds] at h
      exact h.1 (List.prefix_append _ ds)
    rw [List.cons_append, scan_inside_cons hnext, ih h.2, octets_cons, List.reverse_cons, List.append_assoc, Nat.add_assoc]
    rfl

end

/-! ### Placeholders -/

theorem isBlank_name {p : Placeholder} {c : Char} (h : c ∈ p.name) : Text.isBlank c = false := by
  have hnames : (p.name.all fun c => !Text.isBlank c) = true := by
    cases p <;> decide
  simpa using List.all_eq_true.mp hnames c h

theorem field_eq_ok_iff {inner : List Char} {s : Segment} :
    field inner = .ok s ↔ ∃ (p : Placeholder) (before after : Blanks),
      s = p.segment ∧ inner = before.val ++ (p.name ++ after.val) := by
  constructor
  · intro h
    obtain ⟨before, after, hbefore, hafter, hinner⟩ := Text.exists_trim inner
    unfold field at h
    by_cases hcompany : Text.trim inner = ".Company".toList
    · rw [if_pos hcompany] at h
      refine ⟨.company, ⟨before, hbefore⟩, ⟨after, hafter⟩, (Except.ok.inj h).symm, ?_⟩
      rwa [hcompany] at hinner
    · rw [if_neg hcompany] at h
      by_cases hkind : Text.trim inner = ".EventType".toList
      · rw [if_pos hkind] at h
        refine ⟨.eventType, ⟨before, hbefore⟩, ⟨after, hafter⟩, (Except.ok.inj h).symm, ?_⟩
        rwa [hkind] at hinner
      · rw [if_neg hkind] at h
        cases h
  · rintro ⟨p, ⟨before, hbefore⟩, ⟨after, hafter⟩, rfl, rfl⟩
    unfold field
    rw [Text.trim_padded hbefore hafter fun c hc => isBlank_name hc]
    cases p with
    | company => rfl
    | eventType => rfl

theorem not_mem_inner (p : Placeholder) (before after : Blanks) :
    '\x7d' ∉ before.val ++ (p.name ++ after.val) := by
  have hbrace : Text.isBlank '\x7d' = false := by decide
  have hblanks : ∀ blanks : Blanks, '\x7d' ∉ blanks.val := by
    intro blanks hmem
    have hblank := blanks.property _ hmem
    rw [hbrace] at hblank
    cases hblank
  have hname : '\x7d' ∉ p.name := by
    cases p with
    | company => decide
    | eventType => decide
  simp only [List.mem_append, not_or]
  exact ⟨hblanks before, hname, hblanks after⟩

theorem not_doubled_of_not_mem {x : Char} {cs : List Char} (h : x ∉ cs) :
    ¬ [x, x] <:+: cs ++ [x] := by
  intro hinfix
  have hcount := hinfix.sublist.count_le x
  rw [List.count_append, List.count_eq_zero_of_not_mem h] at hcount
  simp at hcount

/-! ### What is written is read -/

theorem Proper.tail {s : Segment} {segments : List Segment} (h : Proper (s :: segments)) :
    Proper segments where
  sound := fun s hs => h.sound s (List.mem_cons_of_mem _ hs)
  adjoin := h.adjoin.tail

theorem Proper.of_withLiteral {read : List Char} {segments : List Segment}
    (h : Proper (withLiteral read segments)) : Proper segments := by
  unfold withLiteral at h
  by_cases hread : read = []
  · rwa [if_pos hread] at h
  · rw [if_neg hread] at h
    exact h.tail

theorem scan_placeholder (p : Placeholder) (before after : Blanks) (position : Nat)
    (read rest : List Char) :
    scan position (.plain read) ((Piece.placeholder p before after).written ++ rest) =
      (scan (position + octets (Piece.placeholder p before after).written) (.plain []) rest).map
        fun segments => withLiteral read (p.segment :: segments) := by
  have hfield : field (before.val ++ (p.name ++ after.val)) = .ok p.segment :=
    field_eq_ok_iff.mpr ⟨p, before, after, rfl, rfl⟩
  have hwritten : (Piece.placeholder p before after).written ++ rest =
      '\x7b' :: '\x7b' :: ((before.val ++ (p.name ++ after.val)) ++ '\x7d' :: '\x7d' :: rest) := by
    simp [Piece.written]
  have hposition : position + octets (Piece.placeholder p before after).written =
      position + 2 + octets (before.val ++ (p.name ++ after.val)) + 2 := by
    have hbraces : octets ['\x7d', '\x7d'] = 2 := by decide
    rw [Piece.written, octets_append, octets_doubled (by decide), hbraces]
    omega
  rw [hwritten, scan_open, scan_inner (not_doubled_of_not_mem (not_mem_inner p before after)),
    List.append_nil, scan_close (s := p.segment) (by rw [List.reverse_reverse, hfield]), hposition]
  cases scan _ (.plain []) rest with
  | error e => rfl
  | ok segments => rfl

theorem withLiteral_reverse {text : List Char} (h : text ≠ []) (segments : List Segment) :
    withLiteral text.reverse segments = .literal text :: segments := by
  rw [withLiteral, if_neg (by simpa using h), List.reverse_reverse]

/-- No doubled brace begins in a literal that may stand before these pieces. -/
theorem Proper.undoubled {text : List Char} {pieces : List Piece}
    (h : Proper (.literal text :: pieces.map Piece.segment)) :
    Undoubled (text ++ (pieces.flatMap Piece.written).take 1) := by
  obtain ⟨-, hopen, hclose⟩ := h.sound _ List.mem_cons_self
  have htext : Undoubled text := undoubled_iff.mpr ⟨hopen, hclose⟩
  cases pieces with
  | nil =>
    rw [List.flatMap_nil, List.take_nil, List.append_nil]
    exact htext
  | cons piece pieces =>
    have hadjoins := (List.isChain_cons_cons.mp h.adjoin).1
    cases piece with
    | literal _ => exact hadjoins.elim
    | placeholder p before after =>
      have hend : ¬ ['\x7b'] <:+ text := by
        cases p with
        | company => exact hadjoins
        | eventType => exact hadjoins
      refine htext.append (List.isChain_singleton _) ?_
      intro a ha b hb
      cases hb
      refine ⟨?_, ?_⟩
      · rintro ⟨rfl, -⟩
        exact hend (List.singleton_suffix_iff_getLast?_eq_some.mpr ha)
      · rintro ⟨-, hbrace⟩
        cases hbrace

/-- What proper pieces write is read as their segments, after the plain text that was read before. -/
theorem scan_pieces {pieces : List Piece} {read : List Char} (position : Nat)
    (h : Proper (withLiteral read (pieces.map Piece.segment))) :
    scan position (.plain read) (pieces.flatMap Piece.written) =
      .ok (withLiteral read (pieces.map Piece.segment)) := by
  induction pieces generalizing read position with
  | nil => rfl
  | cons piece pieces ih =>
    rw [List.flatMap_cons, List.map_cons]
    rw [List.map_cons] at h
    cases piece with
    | placeholder p before after =>
      have hrest : Proper (withLiteral [] (pieces.map Piece.segment)) := h.of_withLiteral.tail
      rw [scan_placeholder, ih _ hrest]
      rfl
    | literal text =>
      by_cases hread : read = []
      · subst hread
        have hproper : Proper (.literal text :: pieces.map Piece.segment) := h
        obtain ⟨htext, -⟩ := h.sound _ List.mem_cons_self
        show scan position (.plain []) (text ++ pieces.flatMap Piece.written) = _
        rw [scan_literal hproper.undoubled, List.append_nil]
        have hread := withLiteral_reverse htext (pieces.map Piece.segment)
        rw [← hread] at hproper
        exact (ih _ hproper).trans (congrArg Except.ok hread)
      · -- two literals never stand side by side
        rw [withLiteral, if_neg hread] at h
        exact (List.isChain_cons_cons.mp h.adjoin).1.elim

/-! ### What is read was written -/

/-- What was read before a place, as far as it is in no segment yet. -/
def Place.begun : Place → List Char
  | .plain read => read.reverse
  | .inside _ read => '\x7b' :: '\x7b' :: read.reverse

/-- The next character makes no doubled brace with the plain text before it, in which there is none. -/
def Place.Fresh (next : List Char) : Place → Prop
  | .plain read => Undoubled (read.reverse ++ next)
  | .inside _ _ => True

/-- The segments read from a place on can stand behind any literal if the place is inside braces. -/
def Place.Leads (segments : List Segment) : Place → Prop
  | .plain _ => True
  | .inside _ _ => ∃ (p : Placeholder) (rest : List Segment), segments = p.segment :: rest

theorem undoubled_take_one (cs : List Char) : Undoubled (cs.take 1) := by
  cases cs with
  | nil => exact List.IsChain.nil
  | cons c cs => exact List.isChain_singleton c

theorem adjoins_placeholder {a : Segment} {p : Placeholder}
    (h : ∀ text, a = .literal text → ¬ ['\x7b'] <:+ text) : a.Adjoins p.segment := by
  cases a with
  | literal text =>
    have hend := h text rfl
    cases p with
    | company => exact hend
    | eventType => exact hend
  | company => trivial
  | eventType => trivial

theorem Proper.placeholder {segments : List Segment} (h : Proper segments) (p : Placeholder) :
    Proper (p.segment :: segments) where
  sound := by
    intro s hs
    rcases List.mem_cons.mp hs with rfl | hs
    · cases p with
      | company => trivial
      | eventType => trivial
    · exact h.sound s hs
  adjoin := by
    apply h.adjoin.cons
    intro s _
    cases p with
    | company => trivial
    | eventType => trivial

/-- Plain text that was read is a literal of its own before the end of the text and before a
placeholder. -/
theorem Proper.withLiteral {read next : List Char} {segments : List Segment} (h : Proper segments)
    (hfresh : Undoubled (read.reverse ++ next))
    (hnext : segments = [] ∨ next = ['\x7b'] ∧ (Place.inside 0 []).Leads segments) :
    Proper (withLiteral read segments) := by
  by_cases hread : read = []
  · rwa [KeyTemplate.withLiteral, if_pos hread]
  · rw [KeyTemplate.withLiteral, if_neg hread]
    have hsound : Segment.Sound (.literal read.reverse) :=
      ⟨by simpa using hread, undoubled_iff.mp hfresh.left_of_append⟩
    refine ⟨?_, h.adjoin.cons ?_⟩
    · intro s hs
      rcases List.mem_cons.mp hs with rfl | hs
      · exact hsound
      · exact h.sound s hs
    · rcases hnext with rfl | ⟨rfl, p, rest, rfl⟩
      · intro s hs
        cases hs
      · intro s hs
        cases hs
        apply adjoins_placeholder
        rintro text heq hend
        cases heq
        -- the brace at its end would be doubled with the first of the placeholder
        have hlast := List.singleton_suffix_iff_getLast?_eq_some.mp hend
        obtain ⟨-, -, hapart⟩ := List.isChain_append.mp hfresh
        exact (hapart _ hlast _ rfl).1 ⟨rfl, rfl⟩

theorem exists_pieces_withLiteral (read : List Char) (pieces : List Piece) :
    ∃ pieces' : List Piece,
      withLiteral read (pieces.map Piece.segment) = pieces'.map Piece.segment ∧
      read.reverse ++ pieces.flatMap Piece.written = pieces'.flatMap Piece.written := by
  by_cases hread : read = []
  · refine ⟨pieces, if_pos hread, ?_⟩
    rw [hread]
    rfl
  · exact ⟨.literal read.reverse :: pieces, if_neg hread, rfl⟩

/-- Segments that are read were written by pieces, and are proper. -/
theorem pieces_of_scan {position : Nat} {place : Place} {cs : List Char} {segments : List Segment}
    (hfresh : place.Fresh (cs.take 1)) (h : scan position place cs = .ok segments) :
    Proper segments ∧ place.Leads segments ∧ ∃ pieces : List Piece,
      segments = pieces.map Piece.segment ∧ place.begun ++ cs = pieces.flatMap Piece.written := by
  fun_induction scan position place cs generalizing segments with
  | case1 position read r ih =>
    -- the braces of a placeholder end the plain text
    obtain ⟨inner, hinner, hsegments⟩ := bind_eq_ok_iff.mp h
    obtain ⟨hproper, hleads, pieces, rfl, hwritten⟩ := ih trivial hinner
    obtain ⟨pieces', hmap, hpieces⟩ := exists_pieces_withLiteral read pieces
    cases hsegments
    refine ⟨hproper.withLiteral hfresh (Or.inr ⟨rfl, hleads⟩), trivial, pieces', hmap, ?_⟩
    rw [← hpieces, ← hwritten]
    rfl
  | case2 => cases h
  | case3 position read c r hopen hclose ih =>
    -- one more character of plain text, which makes no doubled brace with the next one
    have hnext : ∀ d ∈ (r.take 1).head?, Apart c d := by
      rw [← List.nil_append (r.take 1), head?_append_take_one]
      exact apart_head hopen hclose
    have hfresh' : Undoubled ((c :: read).reverse ++ r.take 1) := by
      rw [List.reverse_cons]
      refine List.IsChain.append hfresh (undoubled_take_one r) ?_
      intro a ha
      rw [List.getLast?_concat] at ha
      cases ha
      exact hnext
    obtain ⟨hproper, hleads, pieces, hmap, hwritten⟩ := ih hfresh' h
    refine ⟨hproper, hleads, pieces, hmap, ?_⟩
    rw [← hwritten]
    simp [Place.begun]
  | case4 position read =>
    -- the text ends, and the plain text with it
    obtain ⟨pieces', hmap, hpieces⟩ := exists_pieces_withLiteral read []
    have hnil : Proper [] := ⟨by simp, List.IsChain.nil⟩
    cases h
    exact ⟨hnil.withLiteral hfresh (Or.inl rfl), trivial, pieces', hmap, hpieces⟩
  | case5 position opened read r ih =>
    -- a placeholder is closed; plain text begins anew
    obtain ⟨s, hfield, h⟩ := bind_eq_ok_iff.mp h
    obtain ⟨rest, hrest, hsegments⟩ := bind_eq_ok_iff.mp h
    obtain ⟨p, before, after, rfl, hinner⟩ := field_eq_ok_iff.mp hfield
    obtain ⟨hproper, -, pieces, rfl, hwritten⟩ := ih (undoubled_take_one r) hrest
    cases hsegments
    refine ⟨hproper.placeholder p, ⟨p, _, rfl⟩, .placeholder p before after :: pieces, rfl, ?_⟩
    rw [List.flatMap_cons, ← hwritten]
    simp [Place.begun, Piece.written, hinner]
  | case6 position opened read c r hclose ih =>
    -- one more character between the braces
    obtain ⟨hproper, hleads, pieces, hmap, hwritten⟩ := ih trivial h
    refine ⟨hproper, hleads, pieces, hmap, ?_⟩
    rw [← hwritten]
    simp [Place.begun]
  | case7 => cases h

/-! ### Templates and their keys -/

/-- A text is a template exactly if proper segments are written in it, and these are its segments. -/
theorem parse_eq_ok_iff {source : String} {t : KeyTemplate} :
    parse source = .ok t ↔ t.source = source ∧ Proper t.segments ∧ ∃ pieces : List Piece,
      pieces.map Piece.segment = t.segments ∧ source.toList = pieces.flatMap Piece.written := by
  rw [parse, map_eq_ok_iff]
  constructor
  · rintro ⟨segments, hscan, rfl⟩
    have hfresh : (Place.plain []).Fresh (source.toList.take 1) := undoubled_take_one source.toList
    obtain ⟨hproper, -, pieces, hmap, hwritten⟩ := pieces_of_scan hfresh hscan
    exact ⟨rfl, hproper, pieces, hmap.symm, hwritten⟩
  · rintro ⟨rfl, hproper, pieces, hmap, hwritten⟩
    refine ⟨t.segments, ?_, rfl⟩
    rw [hwritten, ← hmap]
    have hwhole : Proper (withLiteral [] (pieces.map Piece.segment)) := hmap ▸ hproper
    exact scan_pieces 0 hwhole

theorem text_segment (id : String) (kind : EventKind) (piece : Piece) :
    piece.segment.text id.toList kind = piece.filled id kind := by
  cases piece with
  | literal text => rfl
  | placeholder p before after =>
    cases p with
    | company => rfl
    | eventType => rfl

theorem render_eq {t : KeyTemplate} {pieces : List Piece}
    (h : pieces.map Piece.segment = t.segments) (id : String) (kind : EventKind) :
    (t.render id kind).toList = pieces.flatMap (Piece.filled id kind) := by
  rw [render, String.toList_ofList, ← h, List.flatMap_map]
  congr 1
  funext piece
  exact text_segment id kind piece

/-- **Templates are what proper pieces write.** Pieces whose segments are proper, with any blanks inside the
braces, write a template that has just these segments. Every text that is a template is written so, and its key
for an id and a kind is the same text with these in place of the placeholders. -/
theorem templates_are_written_pieces :
    (∀ pieces : List Piece, Proper (pieces.map Piece.segment) →
      let source := String.ofList (pieces.flatMap Piece.written)
      parse source = .ok ⟨source, pieces.map Piece.segment⟩) ∧
    ∀ (source : String) (t : KeyTemplate), parse source = .ok t →
      t.source = source ∧ Proper t.segments ∧ ∃ pieces : List Piece,
        pieces.map Piece.segment = t.segments ∧
        source = String.ofList (pieces.flatMap Piece.written) ∧
        ∀ id kind, t.render id kind = String.ofList (pieces.flatMap (Piece.filled id kind)) := by
  constructor
  · intro pieces hproper source
    exact parse_eq_ok_iff.mpr ⟨rfl, hproper, pieces, rfl, String.toList_ofList⟩
  · intro source t hparse
    obtain ⟨hsource, hproper, pieces, hmap, hwritten⟩ := parse_eq_ok_iff.mp hparse
    refine ⟨hsource, hproper, pieces, hmap, ?_, ?_⟩
    · rw [← hwritten, String.ofList_toList]
    · intro id kind
      rw [← render_eq hmap, String.ofList_toList]

/-! A sample with braces on all sides: the text before the first placeholder has braces of its own, the text
behind it begins with one, and so does the id. -/

def samplePieces : List Piece := [
  .literal "\x7ba\x7d".toList,
  .placeholder .company ⟨[' '], List.forall_mem_singleton.mpr (by decide)⟩ ⟨[], by simp⟩,
  .literal "\x7dx".toList,
  .placeholder .eventType ⟨['\u00a0'], List.forall_mem_singleton.mpr (by decide)⟩ ⟨[], by simp⟩]

def sampleSource : String := "\x7ba\x7d\x7b\x7b .Company\x7d\x7d\x7dx\x7b\x7b\u00a0.EventType\x7d\x7d"

def sampleTemplate : KeyTemplate := ⟨sampleSource, samplePieces.map Piece.segment⟩

/-- The sample is a template with four segments, and an id that looks like a placeholder is put in as it is. -/
theorem sample_is_written :
    parse sampleSource = .ok sampleTemplate ∧
    (∃ pieces : List Piece, pieces.map Piece.segment = sampleTemplate.segments ∧
      sampleSource = String.ofList (pieces.flatMap Piece.written)) ∧
    sampleTemplate.render "\x7b\x7b.EventType\x7d\x7d" .created =
      "\x7ba\x7d\x7b\x7b.EventType\x7d\x7d\x7dxcreated" := by
  obtain ⟨hread, hwritten⟩ := templates_are_written_pieces
  have hsource : String.ofList (samplePieces.flatMap Piece.written) = sampleSource := by decide
  have hparse : parse sampleSource = .ok sampleTemplate := by
    have h := hread samplePieces (by decide)
    rwa [hsource] at h
  obtain ⟨-, -, pieces, hmap, hpieces, -⟩ := hwritten _ _ hparse
  exact ⟨hparse, ⟨pieces, hmap, hpieces⟩, by decide⟩

end CompanyRegistry.KeyTemplate
