import JsonService.Text.Alphanumeric
import JsonService.Text.Blank
import JsonService.Text.Digits
import JsonService.Text.Pattern

/-!
# Spelling of patterns

Patterns as they are written: most characters stand for themselves, a point for any of them, brackets for a
set, `*`, `+` and `?` repeat what stands before them, `|` divides choices and parentheses group. What needs
to know the letters of every script is refused: the classes of digits, blanks and letters, word bounds, and
ignoring case, unless a group asks for ASCII. So is a count in braces.
-/
namespace JsonService.Text.Pattern

/-- How the spelling of a pattern is read. A group may change it with flags. -/
structure Style where
  /-- Small and large letters are the same. -/
  anyCase : Bool := false
  /-- The marks of start and end mean those of a line. -/
  lines : Bool := false
  /-- The point stands for the end of a line as well. -/
  dotAll : Bool := false
  /-- Repetitions prefer few turns, and many if a question mark follows. -/
  fewTurns : Bool := false
  /-- Blanks and remarks after a hash do not count. -/
  spaced : Bool := false
  /-- Letters, digits and blanks are those of ASCII. -/
  ascii : Bool := false

/-- What is left to read, and how. -/
structure Source where
  style : Style
  rest : List Char

abbrev Reader (α : Type) := Source → Option (α × Source)

namespace Style

def flag? (style : Style) (on : Bool) (flag : Char) : Option Style :=
  if flag = 'i' then some { style with anyCase := on }
  else if flag = 'm' then some { style with lines := on }
  else if flag = 's' then some { style with dotAll := on }
  else if flag = 'U' then some { style with fewTurns := on }
  else if flag = 'x' then some { style with spaced := on }
  else if flag = 'u' then some { style with ascii := !on }
  else none

/-- What is left without blanks and remarks before it; `remark` says whether a remark is open. -/
def skipFrom (remark : Bool) : List Char → List Char
  | [] => []
  | c :: cs =>
    if remark then skipFrom (c ≠ '\n') cs
    else if isBlank c then skipFrom false cs
    else if c = '#' then skipFrom true cs
    else c :: cs

/-- What is left without what does not count before it. -/
def skip (style : Style) (cs : List Char) : List Char := if style.spaced then skipFrom false cs else cs

/-- A set in this style. Which letters of other scripts than ASCII are the same is not known. -/
def charset? (style : Style) (s : Charset) : Option Charset :=
  if !style.anyCase then some s else if style.ascii then some (.anyCase s) else none

/-! ## Escapes -/

/-- What an escape stands for. -/
inductive Escape where
  | literal (c : Char)
  | set (s : Charset)
  | textStart
  | textEnd

/-- How many hexadecimal digits follow the letter of an escape. -/
def hexLength? (c : Char) : Option Nat :=
  if c = 'x' then some 2 else if c = 'u' then some 4 else if c = 'U' then some 8 else none

/-- What a letter stands for after a backslash, if that does not depend on the style. -/
def letterEscape? (c : Char) : Option Escape :=
  if c = 'a' then some (.literal '\x07')
  else if c = 'f' then some (.literal '\x0c')
  else if c = 't' then some (.literal '\t')
  else if c = 'n' then some (.literal '\n')
  else if c = 'r' then some (.literal '\r')
  else if c = 'v' then some (.literal '\x0b')
  else if c = 'A' then some .textStart
  else if c = 'z' then some .textEnd
  else none

/-- The digits, blanks or letters of ASCII, by the letter that stands for them. -/
def asciiSet? (c : Char) : Option Charset :=
  if c = 'd' then some (.range '0' '9')
  else if c = 's' then some (.union (.range '\t' '\r') (.single ' '))
  else if c = 'w' then some (.ofRanges [('0', '9'), ('A', 'Z'), ('a', 'z'), ('_', '_')])
  else none

/-- An escape, after its backslash. Other marks of ASCII than angle brackets may be escaped, whether or not
they mean something. -/
def escape? (style : Style) : List Char → Option (Escape × List Char)
  | [] => none
  | c :: cs =>
    match hexLength? c with
    | some n => do
      let code ← if (cs.take n).length = n then hexadecimal? (cs.take n) else none
      if code.isValidChar ∧ (code < 128 ∨ !style.ascii ∨ c ≠ 'x') then
        some (.literal (Char.ofNat code), cs.drop n)
      else none
    | none =>
      match letterEscape? c with
      | some e => some (e, cs)
      | none =>
        if c.isAlphanum then
          if style.ascii then (asciiSet? c).map fun s => (.set s, cs) else none
        else if c.toNat < 128 ∧ c ≠ '<' ∧ c ≠ '>' then some (.literal c, cs)
        else none

/-! ## Sets -/

/-- The sets of ASCII that have names. -/
def namedSets : List (String × List (Char × Char)) :=
  [("alnum", [('0', '9'), ('A', 'Z'), ('a', 'z')]), ("alpha", [('A', 'Z'), ('a', 'z')]),
   ("ascii", [('\x00', '\x7f')]), ("blank", [('\t', '\t'), (' ', ' ')]),
   ("cntrl", [('\x00', '\x1f'), ('\x7f', '\x7f')]), ("digit", [('0', '9')]), ("graph", [('!', '~')]),
   ("lower", [('a', 'z')]), ("print", [(' ', '~')]),
   ("punct", [('!', '/'), (':', '@'), ('[', '\x60'), ('\x7b', '~')]),
   ("space", [('\t', '\r'), (' ', ' ')]), ("upper", [('A', 'Z')]),
   ("word", [('0', '9'), ('A', 'Z'), ('a', 'z'), ('_', '_')]),
   ("xdigit", [('0', '9'), ('A', 'F'), ('a', 'f')])]

/-- A named set after its bracket: a name between colons, after a caret for what is not in the set. -/
def namedSet? : List Char → Option (Charset × List Char)
  | ':' :: cs =>
    let (negated, cs) := match cs with
      | '^' :: cs => (true, cs)
      | cs => (false, cs)
    let name := cs.takeWhile (· ≠ ':')
    match cs.drop name.length with
    | ':' :: ']' :: rest => (namedSets.find? (·.1.toList = name)).map fun (_, rs) =>
        (if negated then .complement (.ofRanges rs) else .ofRanges rs, rest)
    | _ => none
  | _ => none

/-- A character or an escape within a set. -/
def member? (style : Style) : List Char → Option (Escape × List Char)
  | [] => none
  | '\\' :: cs => style.escape? cs
  | c :: cs => some (.literal c, cs)

/-- One character, an escape, or a range, within a set. A hyphen before the end of the set or another hyphen
makes no range. -/
def range? (style : Style) (cs : List Char) : Option (Charset × List Char) := do
  let (first, cs) ← style.member? cs
  match first, style.skip cs with
  | .literal a, '-' :: rest =>
    if (style.skip rest).head? = some ']' ∨ (style.skip rest).head? = some '-' then some (.single a, '-' :: rest)
    else match ← style.member? (style.skip rest) with
      | (.literal b, rest) => if a ≤ b then some (.range a b, rest) else none
      | _ => none
  | .literal a, cs => some (.single a, cs)
  | .set s, '-' :: rest =>
    if (style.skip rest).head? = some ']' ∨ (style.skip rest).head? = some '-' then some (s, '-' :: rest)
    else none
  | .set s, cs => some (s, cs)
  | _, _ => none

mutual

/-- A set after its bracket. Hyphens at the start stand for themselves, and so does a bracket that would end
the set before anything is in it. -/
def set? (style : Style) : Nat → List Char → Option (Charset × List Char)
  | 0, _ => none
  | fuel + 1, cs => do
    let (negated, cs) := match style.skip cs with
      | '^' :: cs => (true, style.skip cs)
      | cs => (false, cs)
    let hyphens := cs.takeWhile (· = '-')
    let start : Charset := if hyphens.isEmpty then .none else .single '-'
    let (s, cs) ← match hyphens.isEmpty, cs.drop hyphens.length with
      | true, ']' :: rest => style.members? id (.single ']') fuel rest
      | _, rest => style.members? id start fuel rest
    if negated then if style.ascii then none else some (.complement s, cs)
    else some (s, cs)

/-- The rest of a set. `current` is what has been read since the last mark that joins two sets, and `join`
joins that to what came before. -/
def members? (style : Style) (join : Charset → Charset) (current : Charset) :
    Nat → List Char → Option (Charset × List Char)
  | 0, _ => none
  | fuel + 1, cs =>
    match style.skip cs with
    | ']' :: rest => some (join current, rest)
    | '&' :: '&' :: rest => style.members? (.inter (join current)) .none fuel rest
    | '-' :: '-' :: rest => style.members? (.minus (join current)) .none fuel rest
    | '~' :: '~' :: rest => style.members? (.either (join current)) .none fuel rest
    | '[' :: rest => do
      let (s, rest) ← match namedSet? rest with
        | some (s, rest) => (style.charset? s).map (·, rest)
        | none => style.set? fuel rest
      style.members? join (.union current s) fuel rest
    | cs => do
      let (s, rest) ← style.range? cs
      style.members? join (.union current (← style.charset? s)) fuel rest

end

/-! ## Groups -/

/-- What stands after the parenthesis and the question mark of a group. -/
inductive Opening where
  /-- A group, in a style of its own. -/
  | group (style : Style)
  /-- No group, only a style for what follows. -/
  | flags (style : Style)

/-- Flags, those after a hyphen off, and the mark that ends them. No flag is set twice, and a hyphen has
flags after it. -/
def flags? (style : Style) (on : Bool) (seen : List Char) : List Char → Option (Opening × List Char)
  | [] => none
  | c :: cs =>
    let ended := on || seen.head? ≠ some '-'
    if c = ':' then if ended then some (.group style, cs) else none
    else if c = ')' then if ended ∧ !seen.isEmpty then some (.flags style, cs) else none
    else if seen.contains c then none
    else if c = '-' then style.flags? false (c :: seen) cs
    else match style.flag? on c with
      | some style => style.flags? on (c :: seen) cs
      | none => none

def isName : List Char → Bool
  | [] => false
  | c :: cs => (c = '_' || (isAlphanumeric c && !c.isDigit)) &&
      cs.all fun c => isAlphanumeric c || ['_', '.', '[', ']'].contains c

/-- The start of a group after its question mark: a name between angle brackets, or flags. -/
def opening? (style : Style) (cs : List Char) : Option (Opening × List Char) :=
  let named := match cs with
    | 'P' :: '<' :: rest | '<' :: rest => some rest
    | _ => none
  match named with
  | some rest =>
    let name := rest.takeWhile (· ≠ '>')
    if isName name ∧ name.length < rest.length then some (.group style, rest.drop (name.length + 1)) else none
  | none => style.flags? true [] cs

/-! ## Patterns -/

/-- What is repeated as often as the marks after it say. A question mark after such a mark turns what is
preferred. -/
def repeated (style : Style) (p : Pattern) : List Char → Pattern × List Char
  | '*' :: '?' :: cs => style.repeated (.many style.fewTurns p) cs
  | '*' :: cs => style.repeated (.many (!style.fewTurns) p) cs
  | '+' :: '?' :: cs => style.repeated (.atLeastOnce style.fewTurns p) cs
  | '+' :: cs => style.repeated (.atLeastOnce (!style.fewTurns) p) cs
  | '?' :: '?' :: cs => style.repeated (.optional style.fewTurns p) cs
  | '?' :: cs => style.repeated (.optional (!style.fewTurns) p) cs
  | cs => (p, cs)

/-- One character, a set, an escape, or the mark of a start or an end. -/
def atom? (style : Style) : List Char → Option (Pattern × List Char)
  | [] => none
  | '.' :: cs =>
    if style.ascii then none
    else some (.char (.complement (if style.dotAll then .none else .single '\n')), cs)
  | '^' :: cs => some (if style.lines then .lineStart else .textStart, cs)
  | '$' :: cs => some (if style.lines then .lineEnd else .textEnd, cs)
  | '[' :: cs => (style.set? (2 * cs.length + 2) cs).map fun (s, rest) => (.char s, rest)
  | '\\' :: cs => do
    match ← style.escape? cs with
    | (.literal c, rest) => return (.char (← style.charset? (.single c)), rest)
    | (.set s, rest) => return (.char s, rest)
    | (.textStart, rest) => return (.textStart, rest)
    | (.textEnd, rest) => return (.textEnd, rest)
  | c :: cs =>
    if ['*', '+', '?', '\x7b'].contains c then none
    else (style.charset? (.single c)).map fun s => (.char s, cs)

end Style

mutual

def choices? : Nat → Reader Pattern
  | 0, _ => none
  | fuel + 1, src => do
    let (p, src) ← items? fuel src
    match src.rest with
    | '|' :: rest =>
      let (q, src) ← choices? fuel { src with rest }
      return (.choice p q, src)
    | _ => return (p, src)

/-- What stands one after the other, up to the end of a choice. -/
def items? : Nat → Reader Pattern
  | 0, _ => none
  | fuel + 1, src =>
    let rest := src.style.skip src.rest
    match rest with
    | [] | '|' :: _ | ')' :: _ => some (.empty, { src with rest })
    | _ => do
      let (p, src) ← item? fuel { src with rest }
      let (q, src) ← items? fuel src
      return (.seq p q, src)

/-- A group, flags, or anything else, with the marks that repeat it. Flags count up to the end of the group
they stand in. -/
def item? : Nat → Reader Pattern
  | 0, _ => none
  | fuel + 1, src => do
    match src.rest with
    | '(' :: rest =>
      let (opening, rest) ← match rest with
        | '?' :: rest => src.style.opening? rest
        | _ => some (.group src.style, rest)
      match opening with
      | .flags style => return (.empty, { style, rest })
      | .group style =>
        let (p, inner) ← choices? fuel { style, rest }
        match inner.rest with
        | ')' :: rest =>
          let (p, rest) := src.style.repeated p (src.style.skip rest)
          return (p, { src with rest })
        | _ => none
    | _ =>
      let (p, rest) ← src.style.atom? src.rest
      let (p, rest) := src.style.repeated p (src.style.skip rest)
      return (p, { src with rest })

end

/-- Reads a pattern. Every character takes at most three steps down. -/
def parse? (s : String) : Option Pattern :=
  match choices? (3 * s.length + 3) ⟨{}, s.toList⟩ with
  | some (p, ⟨_, []⟩) => some p
  | _ => none

end JsonService.Text.Pattern
