/-!
# Patterns

What a text has to look like: characters of some sets, one after the other, by choice, or repeated. A pattern
prefers some ways to read a text to others: the first of two choices, and more or fewer turns of a
repetition, as it says. The way that it prefers to all others is the only one that counts.
-/
namespace JsonService.Text

inductive Charset where
  | none
  | range (first last : Char)
  | union (a b : Charset)
  | inter (a b : Charset)
  /-- What is in the first and not in the second. -/
  | minus (a b : Charset)
  /-- What is in one of the two and not in the other. -/
  | either (a b : Charset)
  | complement (a : Charset)
  /-- What is in the set in small or in large letters; only the letters of ASCII have both. -/
  | anyCase (a : Charset)
  deriving DecidableEq, Repr

namespace Charset

def single (c : Char) : Charset := .range c c

def ofRanges (rs : List (Char × Char)) : Charset := rs.foldr (fun r s => .union (.range r.1 r.2) s) .none

def has : Charset → Char → Bool
  | .none, _ => false
  | .range first last, c => first ≤ c ∧ c ≤ last
  | .union a b, c => a.has c || b.has c
  | .inter a b, c => a.has c && b.has c
  | .minus a b, c => a.has c && !b.has c
  | .either a b, c => a.has c != b.has c
  | .complement a, c => !a.has c
  | .anyCase a, c => a.has c || a.has c.toLower || a.has c.toUpper

end Charset

/-- What a text has to look like. -/
inductive Pattern where
  /-- Nothing at all. -/
  | empty
  | char (s : Charset)
  | textStart
  | textEnd
  | lineStart
  | lineEnd
  | seq (p q : Pattern)
  /-- One of two, the first one rather than the second. -/
  | choice (p q : Pattern)
  /-- Any number of turns, more rather than fewer if it is greedy. -/
  | many (greedy : Bool) (p : Pattern)
  deriving DecidableEq, Repr

namespace Pattern

def optional (greedy : Bool) (p : Pattern) : Pattern := if greedy then .choice p .empty else .choice .empty p

def atLeastOnce (greedy : Bool) (p : Pattern) : Pattern := .seq p (.many greedy p)

/-- A place in a text: the character before it, and what follows. -/
structure Place where
  before : Option Char
  rest : List Char
  deriving DecidableEq

/-- The place itself, if something is the case there. -/
def Place.provided (p : Place) (holds : Bool) : List Place := if holds then [p] else []

/-- Where the turns of a repetition end, at most `fuel` of them; `turn` tells where one of them ends. A turn
that takes nothing is the last one. -/
def turns (turn : Place → List Place) (greedy : Bool) : Nat → Place → List Place
  | 0, p => [p]
  | fuel + 1, p =>
    let further := (turn p).flatMap fun q =>
      if q.rest.length < p.rest.length then turns turn greedy fuel q else [q]
    (if greedy then further ++ [p] else p :: further).eraseDups

/-- Where a pattern may end that begins at a place, the preferred ends first. A turn of a repetition that is
not its last takes a character, so those that follow the place are as many turns as there can be. -/
def ends : Pattern → Place → List Place
  | .empty, p => [p]
  | .char s, p => match p.rest with
    | c :: cs => if s.has c then [⟨some c, cs⟩] else []
    | [] => []
  | .textStart, p => p.provided p.before.isNone
  | .textEnd, p => p.provided p.rest.isEmpty
  | .lineStart, p => p.provided (p.before.all (· = '\n'))
  | .lineEnd, p => p.provided (p.rest.head?.all (· = '\n'))
  | .seq a b, p => ((a.ends p).flatMap b.ends).eraseDups
  | .choice a b, p => (a.ends p ++ b.ends p).eraseDups
  | .many greedy a, p => turns a.ends greedy (p.rest.length + 1) p

/-- Whether a whole text looks like a pattern, read in the way that the pattern prefers. -/
def covers (p : Pattern) (s : String) : Bool :=
  ((p.ends ⟨none, s.toList⟩).head?).any (·.rest.isEmpty)

end Pattern

end JsonService.Text
