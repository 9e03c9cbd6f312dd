import CompanyRegistry.Event.Basic

/-!
# Key templates

The key of a message is a text with two placeholders, one for the company and one for the kind of the
change, each between doubled braces with blanks allowed inside. `parse` splits a template into its
segments in one pass; `render` puts an event's id and kind in their places and copies all other text.
-/

namespace CompanyRegistry

namespace KeyTemplate

/-- A part of a template. -/
inductive Segment where
  | literal (text : List Char)
  | company
  | eventType
  deriving DecidableEq, Repr

/-- Why a text is no template; positions count octets. -/
inductive Defect where
  | unclosed (position : Nat)
  | unexpectedClose (position : Nat)
  | unknownField (name : String)
  deriving DecidableEq, Repr

/-- The text of a defect. -/
def Defect.message : Defect → String
  | .unclosed n => "unclosed action starting at byte " ++ toString n
  | .unexpectedClose n => "unexpected '\x7d\x7d' at byte " ++ toString n
  | .unknownField s => "unknown field '" ++ s ++ "' (expected .Company or .EventType)"

/-- Where the reader is: in plain text, or inside braces that opened at a position. What was read
there is kept in reverse. -/
inductive Place where
  | plain (read : List Char)
  | inside (opened : Nat) (read : List Char)

/-- The segment of what stands inside braces. -/
def field (inner : List Char) : Except Defect Segment :=
  let name := Text.trim inner
  if name = ".Company".toList then .ok .company
  else if name = ".EventType".toList then .ok .eventType
  else .error (.unknownField (String.ofList name))

/-- Puts plain text before segments, unless it is empty. -/
def withLiteral (read : List Char) (segments : List Segment) : List Segment :=
  if read = [] then segments else .literal read.reverse :: segments

/-- The segments of a text from a place on; `position` counts the octets before it. -/
def scan (position : Nat) : Place → List Char → Except Defect (List Segment)
  | .plain read, '\x7b' :: '\x7b' :: r => do
    return withLiteral read (← scan (position + 2) (.inside position []) r)
  | .plain _, '\x7d' :: '\x7d' :: _ => .error (.unexpectedClose position)
  | .plain read, c :: r => scan (position + c.utf8Size) (.plain (c :: read)) r
  | .plain read, [] => .ok (withLiteral read [])
  | .inside _ read, '\x7d' :: '\x7d' :: r => do
    let segment ← field read.reverse
    return segment :: (← scan (position + 2) (.plain []) r)
  | .inside opened read, c :: r => scan (position + c.utf8Size) (.inside opened (c :: read)) r
  | .inside opened _, [] => .error (.unclosed opened)

/-- The text of a segment for an id and a kind. -/
def Segment.text (id : List Char) (kind : EventKind) : Segment → List Char
  | .literal t => t
  | .company => id
  | .eventType => kind.label.toList

end KeyTemplate

/-- A template: its text and its parts. -/
structure KeyTemplate where
  source : String
  segments : List KeyTemplate.Segment
  deriving DecidableEq

namespace KeyTemplate

/-- Reads a template. -/
def parse (source : String) : Except Defect KeyTemplate :=
  (scan 0 (.plain []) source.toList).map fun segments => ⟨source, segments⟩

/-- The key for an id and a kind. -/
def render (t : KeyTemplate) (id : String) (kind : EventKind) : String :=
  String.ofList (t.segments.flatMap (Segment.text id.toList kind))

/-- The message of an event; an empty key is no key. -/
def message (t : KeyTemplate) (e : Event) : Message :=
  let key := t.render e.entity e.kind
  ⟨if key = "" then none else some (Bytes.utf8 key), e.payload⟩

/-- The template used where none is configured. -/
def usual : String := "company.\x7b\x7b.Company\x7d\x7d.event.\x7b\x7b.EventType\x7d\x7d"

end KeyTemplate

end CompanyRegistry
