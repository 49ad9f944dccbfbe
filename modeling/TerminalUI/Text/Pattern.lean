/-!
# Patterns

A pattern describes stretches of text: the start or the end of the text, a character of a class, a
run of such characters, two patterns one after another, a choice of two, and a group, which
captures what it matches. At a place of a text a pattern may match in several ways. They are listed
in order of preference: a run takes as many characters as it can, and of a choice the first pattern
is preferred. A search takes the most preferred way at the first place of the text at which there
is one.
-/

namespace TerminalUI

/-- A description of stretches of text. -/
inductive Pattern where
  /-- Nothing, at the start of the text. -/
  | start
  /-- Nothing, at the end of the text. -/
  | stop
  /-- A character of a class. -/
  | one (set : Char → Bool)
  /-- Any number of characters of a class. -/
  | run (set : Char → Bool)
  /-- One pattern and then another. -/
  | seq (first second : Pattern)
  /-- One pattern or else another. -/
  | either (first second : Pattern)
  /-- What a pattern matches, captured. -/
  | group (inside : Pattern)

namespace Pattern

/-- A place of a text that a match has come to. -/
structure Place where
  /-- The characters before it, last first. -/
  before : List Char
  after : List Char
  /-- What the group has captured, between the text before it and the text after it. -/
  captured : Option (List Char × List Char × List Char) := none
  deriving DecidableEq, Repr

/-- The places that a run leads to, the farthest one first. -/
def runs (set : Char → Bool) (captured : Option (List Char × List Char × List Char)) :
    List Char → List Char → List Place
  | before, [] => [⟨before, [], captured⟩]
  | before, c :: after =>
    (if set c then runs set captured (c :: before) after else []) ++
      [⟨before, c :: after, captured⟩]

/-- The place after the group, which has captured what is between two places. -/
def Place.capture (start stop : Place) : Place :=
  { stop with
    captured := some (start.before.reverse,
      (stop.before.take (stop.before.length - start.before.length)).reverse, stop.after) }

/-- The places that a match leads to from a place, the most preferred one first. -/
def ways : Pattern → Place → List Place
  | .start, p => if p.before.isEmpty then [p] else []
  | .stop, p => if p.after.isEmpty then [p] else []
  | .one set, p =>
    match p.after with
    | [] => []
    | c :: after => if set c then [⟨c :: p.before, after, p.captured⟩] else []
  | .run set, p => runs set p.captured p.before p.after
  | .seq first second, p => (first.ways p).flatMap second.ways
  | .either first second, p => first.ways p ++ second.ways p
  | .group inside, p => (inside.ways p).map p.capture

/-- The end of the most preferred match at the first place, from a place on, that has one. -/
def searchFrom (pattern : Pattern) : List Char → List Char → Option Place
  | before, [] => (pattern.ways ⟨before, [], none⟩).head?
  | before, c :: after =>
    match (pattern.ways ⟨before, c :: after, none⟩).head? with
    | some p => some p
    | none => searchFrom pattern (c :: before) after

/-- What the group captures when a text is searched for the pattern, between the text before it and
the text after it. -/
def capture? (pattern : Pattern) (s : String) : Option (String × String × String) :=
  ((pattern.searchFrom [] s.toList).bind Place.captured).map fun (before, inside, after) =>
    (String.ofList before, String.ofList inside, String.ofList after)

end Pattern

end TerminalUI
