/-!
# Statsd.Prefix — the text in front of every metric name

A client puts one prefix in front of all the names it sends. The line format
has no escaping, so a prefix must hold no delimiter and no control character;
that is checked once, where the prefix is read, and then kept by the type:

* `Prefix.parse` reads a prefix and reports the first offending character;
* `Prefix.join` puts one prefix behind another, with a dot between two that
  are not empty, and needs no further check;
* `Prefix.joinAll` is a whole chain of joins.
-/

namespace Statsd

/-- Why a text is no prefix. -/
inductive PrefixError where
  /-- The text holds a character that separates the parts of a line. -/
  | reservedDelimiter (c : Char)
  /-- The text holds a control character. -/
  | controlChar
deriving DecidableEq, Repr

/-- The wording of a prefix error. -/
def PrefixError.message : PrefixError → String
  | .reservedDelimiter c => "reserved statsd delimiter char: " ++ c.toString
  | .controlChar => "control char is not allowed"

/-- The characters that separate name, value, type and rate in a line. -/
def isDelimiter (c : Char) : Bool :=
  c == ':' || c == '|' || c == '@'

/-- The control characters of Unicode (general category Cc): U+0000 to U+001F
and U+007F to U+009F. -/
def isControl (c : Char) : Bool :=
  c.val ≤ 0x1f || (0x7f ≤ c.val && c.val ≤ 0x9f)

/-- What is wrong with a single character of a prefix, if anything. -/
def charFault? (c : Char) : Option PrefixError :=
  if isDelimiter c then some (.reservedDelimiter c)
  else if isControl c then some .controlChar
  else none

/-- The fault of the first offending character, in the order of the text. -/
def firstFault? (s : String) : Option PrefixError :=
  s.toList.findSome? charFault?

/-- A checked prefix: no character of it has a fault. -/
structure Prefix where
  /-- The prefix as it stands in front of a name. -/
  text : String
  /-- The check has been made. -/
  clean : firstFault? text = none
deriving DecidableEq

namespace Prefix

/-- The prefix that adds nothing. -/
def empty : Prefix := ⟨"", rfl⟩

/-- Whether the prefix adds nothing to a name. -/
def isEmpty (p : Prefix) : Bool := p.text.isEmpty

/-- Accept a text without faults unchanged, and report the first fault of any other. -/
def parse (s : String) : Except PrefixError Prefix :=
  match h : firstFault? s with
  | some e => .error e
  | none => .ok ⟨s, h⟩

/-- A dot between two clean texts leaves them clean. -/
theorem firstFault?_dotted {a b : String} (ha : firstFault? a = none) (hb : firstFault? b = none) :
    firstFault? (a ++ "." ++ b) = none := by
  simp only [firstFault?, String.toList_append, List.findSome?_append] at *
  rw [ha, hb]
  rfl

/-- Put `sub` behind `p`, with a dot in between if both are not empty. -/
def join (p sub : Prefix) : Prefix :=
  if sub.isEmpty then p
  else if p.isEmpty then sub
  else ⟨p.text ++ "." ++ sub.text, firstFault?_dotted p.clean sub.clean⟩

/-- Join the parts behind `p` one after the other. -/
def joinAll (p : Prefix) (parts : List Prefix) : Prefix :=
  parts.foldl join p

end Prefix

end Statsd
