import JsonService.Decimal.Parts
import JsonService.Text.Utf8
import JsonService.Json.Fault
import JsonService.Json.Value

/-!
# JSON tokens

A text as a list of tokens, each with the places where it begins and ends. A string or number whose
spelling is well-formed and whose value is not carries its fault with it, so that only a reader that wants
the value sees it. Spelling that no reader accepts makes a last token, `broken`. What makes a token, and
which faults wait for a reader, is as `serde_json` has it.
-/
namespace JsonService.Json

open Text.Utf8 (Symbol)

inductive Token.Kind where
  | openList | closeList | openObject | closeObject | comma | colon
  | null
  | bool (b : Bool)
  | number (value : Except Located Number)
  | text (value : Except Located String)
  /-- Not a token: whether it begins with a quote, the fault that a reader of the value reports, and that of a
  reader that skips it. -/
  | broken (quoted : Bool) (reading skipping : Located)

/-- A token, and the numbers of bytes before its first byte and up to its last. -/
structure Token where
  kind : Token.Kind
  first : Nat
  last : Nat

namespace Token

def width : List Symbol → Nat
  | [] => 0
  | s :: ss => s.size + width ss

/-! ## Strings -/

/-- What a scan of a string finds: what it spells up to the closing quote, the first fault that only a reader
of the value reports, and where the string ends or why it does not. -/
structure TextScan where
  content : List Symbol
  fault : Option Located
  ending : Except Located (Nat × List Symbol)
  /-- How much further a reader of the value has come than one that skips it when both give up. -/
  further : Nat

def TextScan.closed (place : Nat) (rest : List Symbol) : TextScan := ⟨[], none, .ok (place, rest), 0⟩

def TextScan.broken (e : Located) (further : Nat) : TextScan := ⟨[], none, .error e, further⟩

def TextScan.cons (symbol : Symbol) (s : TextScan) : TextScan := { s with content := symbol :: s.content }

def TextScan.fail (f : Fault) (place : Nat) (s : TextScan) : TextScan := { s with fault := some ⟨f, place⟩ }

def hexDigit? : Symbol → Option Nat
  | .char c => Text.hexDigit? c
  | .broken _ => none

def hexCode? (a b c d : Symbol) : Option Nat := do
  return (((← hexDigit? a) * 16 + (← hexDigit? b)) * 16 + (← hexDigit? c)) * 16 + (← hexDigit? d)

/-- The character that a short escape stands for. -/
def unescape? (c : Char) : Option Char :=
  if c = '"' ∨ c = '\\' ∨ c = '/' then some c
  else if c = 'b' then some '\x08'
  else if c = 'f' then some '\x0c'
  else if c = 'n' then some '\n'
  else if c = 'r' then some '\r'
  else if c = 't' then some '\t'
  else none

/-- Whether a code is the first half of a pair. -/
def isLeading (n : Nat) : Bool := 0xD800 ≤ n ∧ n ≤ 0xDBFF

/-- Whether a code is the second half of a pair. -/
def isTrailing (n : Nat) : Bool := 0xDC00 ≤ n ∧ n ≤ 0xDFFF

/-- The character of a pair of halves. -/
def pair (leading trailing : Nat) : Char :=
  Char.ofNat ((leading - 0xD800) * 0x400 + (trailing - 0xDC00) + 0x10000)

/-- Four digits that are not: cut off by the end of the text, or wrong. -/
def hexFault (place : Nat) (ss : List Symbol) : TextScan :=
  if width ss < 4 then .broken ⟨.endInString, place + width ss⟩ 0
  else .broken ⟨.invalidEscape, place + 4⟩ 0

/-- Scans the symbols of a string after its opening quote. `half` is the first half of a pair that the
symbols just before have spelled. -/
def scanText (half : Option Nat) (place : Nat) : List Symbol → TextScan
  | [] => .broken ⟨.endInString, place⟩ 0
  | .char '\\' :: .char 'u' :: a :: b :: c :: d :: rest =>
    match hexCode? a b c d with
    | none => hexFault (place + 2) (a :: b :: c :: d :: rest)
    | some n =>
      match half with
      | some h =>
        if isTrailing n then (scanText none (place + 6) rest).cons (.char (pair h n))
        else (scanText none (place + 6) rest).fail .loneSurrogate (place + 6)
      | none =>
        if isTrailing n then (scanText none (place + 6) rest).fail .loneSurrogate (place + 6)
        else if isLeading n then scanText (some n) (place + 6) rest
        else (scanText none (place + 6) rest).cons (.char (Char.ofNat n))
  | .char '\\' :: .char 'u' :: rest => hexFault (place + 2) rest
  | .char '\\' :: .char c :: rest =>
    let scan := match unescape? c with
      | some x => (scanText none (place + 2) rest).cons (.char x)
      | none => .broken ⟨.invalidEscape, place + 2⟩ 0
    if half.isSome then scan.fail .endOfEscape (place + 2) else scan
  | .char '\\' :: .broken _ :: _ =>
    let scan : TextScan := .broken ⟨.invalidEscape, place + 2⟩ 0
    if half.isSome then scan.fail .endOfEscape (place + 2) else scan
  | [.char '\\'] => .broken ⟨.endInString, place + 1⟩ 0
  | .char c :: rest =>
    let scan :=
      if c = '"' then .closed (place + 1) rest
      else if c.toNat < 0x20 then .broken ⟨.controlCharacter, place⟩ 1
      else (scanText none (place + c.utf8Size) rest).cons (.char c)
    if half.isSome then scan.fail .endOfEscape (place + 1) else scan
  | .broken n :: rest =>
    let scan := (scanText none (place + n) rest).cons (.broken n)
    if half.isSome then scan.fail .endOfEscape (place + 1) else scan

/-- The text of a scanned string that ends at `last`. A stretch without a character is looked for once the
whole string is known, so its place is counted back from the end, and an escape counts for what it spells. -/
def TextScan.value (last : Nat) (s : TextScan) : Except Located String :=
  match s.fault, s.content.mapM Symbol.char? with
  | some e, _ => .error e
  | none, some cs => .ok (String.ofList cs)
  | none, none => .error ⟨.invalidCharacter, last - width (s.content.dropWhile (·.char?.isSome))⟩

/-- The token of a scanned string that begins at `first`, and the symbols after it. -/
def ofTextScan (first : Nat) (s : TextScan) : Token × List Symbol :=
  match s.ending with
  | .ok (last, rest) => (⟨.text (s.value last), first, last⟩, rest)
  | .error e => (⟨.broken true (s.fault.getD ⟨e.fault, e.place + s.further⟩) e, first, first⟩, [])

/-! ## Numbers -/

def digit? : Symbol → Option Nat
  | .char c => if c.isDigit then some (c.toNat - 48) else none
  | .broken _ => none

def takeDigits : List Symbol → List Nat
  | [] => []
  | s :: ss => match digit? s with
    | some d => d :: takeDigits ss
    | none => []

/-- As many digits as fit a number below `2 ^ 64`, taken one by one after `n`: the number, how many
digits it took, and whether one was left. -/
def accumulate (n : Nat) : List Nat → Nat × Nat × Bool
  | [] => (n, 0, false)
  | d :: ds =>
    if n * 10 + d < UInt64.size then
      let (m, count, more) := accumulate (n * 10 + d) ds
      (m, count + 1, more)
    else (n, 0, true)

/-- The digits of an exponent as a number, or how many of them it takes to exceed `2 ^ 31 - 1`. -/
def exponentValue (n count : Nat) : List Nat → Except Nat Nat
  | [] => .ok n
  | d :: ds =>
    if n * 10 + d < UInt32.size / 2 then exponentValue (n * 10 + d) (count + 1) ds
    else .error (count + 1)

/-- The spelling of a number: its sign, the digits before the point, those after it and those of the
exponent. -/
structure Spelling where
  negative : Bool
  whole : List Nat
  fraction : Option (List Nat)
  exponent : Option (Bool × List Nat)

/-- Where a spelling of a number goes wrong. -/
inductive Misspelling where
  /-- The text ends here. -/
  | ends (place : Nat)
  | wrong (place : Nat)

def exponentSign : List Symbol → Bool × List Symbol
  | .char '+' :: rest => (false, rest)
  | .char '-' :: rest => (true, rest)
  | ss => (false, ss)

/-- The exponent at the start of some symbols, if there is one, with its end and what follows. -/
def spellExponent (place : Nat) :
    List Symbol → Except Misspelling (Option (Bool × List Nat) × Nat × List Symbol)
  | .char c :: rest =>
    if c = 'e' ∨ c = 'E' then
      let (negative, after) := exponentSign rest
      let place := place + 1 + (rest.length - after.length)
      match takeDigits after with
      | [] => .error (if after.isEmpty then .ends place else .wrong (place + 1))
      | ds => .ok (some (negative, ds), place + ds.length, after.drop ds.length)
    else .ok (none, place, .char c :: rest)
  | ss => .ok (none, place, ss)

/-- The fraction at the start of some symbols, if there is one, with its end and what follows. -/
def spellFraction (place : Nat) : List Symbol → Except Misspelling (Option (List Nat) × Nat × List Symbol)
  | .char '.' :: rest =>
    match takeDigits rest with
    | [] => .error (if rest.isEmpty then .ends (place + 1) else .wrong (place + 2))
    | ds => .ok (some ds, place + 1 + ds.length, rest.drop ds.length)
  | ss => .ok (none, place, ss)

/-- The digits before the point. A zero stands alone. -/
def spellWhole (place : Nat) (ss : List Symbol) : Except Misspelling (List Nat × Nat × List Symbol) :=
  match takeDigits ss with
  | [] => .error (if ss.isEmpty then .ends place else .wrong (place + 1))
  | 0 :: _ :: _ => .error (.wrong (place + 2))
  | ds => .ok (ds, place + ds.length, ss.drop ds.length)

/-- The number at the start of some symbols, with its end and what follows. -/
def spellNumber (negative : Bool) (place : Nat) (ss : List Symbol) :
    Except Misspelling (Spelling × Nat × List Symbol) := do
  let (whole, place, ss) ← spellWhole place ss
  let (fraction, place, ss) ← spellFraction place ss
  let (exponent, place, ss) ← spellExponent place ss
  return ({ negative, whole, fraction, exponent }, place, ss)

/-- A magnitude with its sign. -/
def signed (negative : Bool) (x : Float) : Number := .double (if negative then -x else x)

/-- The number that a spelling stands for, if it has one. `last` is where the spelling ends. A whole number
that its width cannot hold, a negative zero, and whatever has a fraction or an exponent is a double. -/
def Spelling.value (s : Spelling) (last : Nat) : Except Located Number :=
  let (n, taken, long) := accumulate 0 s.whole
  let dropped : Int := s.whole.length - taken
  let (n, exponent) : Nat × Int := match s.fraction with
    | none => (n, dropped)
    | some ds =>
      let (n, taken, _) := accumulate n ds
      (n, dropped - taken)
  let double := fun (exponent : Int) => match Decimal.toDouble? (UInt64.ofNat n) exponent with
    | some x => .ok (signed s.negative x)
    | none => .error ⟨.numberOutOfRange, last⟩
  match s.exponent with
  | some (below, ds) =>
    match exponentValue 0 0 ds with
    | .ok e =>
      let limit : Int := (UInt32.size / 2 : Nat)
      double (max (-limit) (min (limit - 1) (if below then exponent - e else exponent + e)))
    | .error count =>
      if n ≠ 0 ∧ !below then .error ⟨.numberOutOfRange, last - ds.length + count⟩
      else .ok (signed s.negative 0)
  | none =>
    if s.fraction.isSome ∨ long then double exponent
    else if !s.negative then .ok (.whole n)
    else if 0 < n ∧ n ≤ UInt64.size / 2 then .ok (.whole (-n))
    else .ok (signed true (UInt64.ofNat n).toFloat)

/-- The token of the number that begins at `first`, its sign before `place` and `ss`. -/
def ofNumber (negative : Bool) (first place : Nat) (ss : List Symbol) : Token × List Symbol :=
  match spellNumber negative place ss with
  | .ok (s, last, rest) => (⟨.number (s.value last), first, last⟩, rest)
  | .error (.ends p) => (⟨.broken false ⟨.endInValue, p⟩ ⟨.invalidNumber, p⟩, first, first⟩, [])
  | .error (.wrong p) => (⟨.broken false ⟨.invalidNumber, p⟩ ⟨.invalidNumber, p⟩, first, first⟩, [])

/-! ## Words and marks -/

/-- A token that no reader accepts. -/
def refused (first : Nat) (e : Located) : Token × List Symbol := (⟨.broken false e e, first, first⟩, [])

def ofWord (kind : Kind) (first place : Nat) : List Char → List Symbol → Token × List Symbol
  | [], rest => (⟨kind, first, place⟩, rest)
  | _ :: _, [] => refused first ⟨.endInValue, place⟩
  | c :: cs, s :: rest =>
    if s = .char c then ofWord kind first (place + 1) cs rest
    else refused first ⟨.expectedWord, place + 1⟩

def isSpace (c : Char) : Bool := c = ' ' ∨ c = '\n' ∨ c = '\t' ∨ c = '\r'

/-- The token that begins with the character `c`, and the symbols after it. -/
def ofChar (first : Nat) (c : Char) (rest : List Symbol) : Token × List Symbol :=
  if c = '[' then (⟨.openList, first, first + 1⟩, rest)
  else if c = ']' then (⟨.closeList, first, first + 1⟩, rest)
  else if c = '\x7b' then (⟨.openObject, first, first + 1⟩, rest)
  else if c = '\x7d' then (⟨.closeObject, first, first + 1⟩, rest)
  else if c = ',' then (⟨.comma, first, first + 1⟩, rest)
  else if c = ':' then (⟨.colon, first, first + 1⟩, rest)
  else if c = 'n' then ofWord .null first (first + 1) "ull".toList rest
  else if c = 't' then ofWord (.bool true) first (first + 1) "rue".toList rest
  else if c = 'f' then ofWord (.bool false) first (first + 1) "alse".toList rest
  else if c = '"' then ofTextScan first (scanText none (first + 1) rest)
  else if c = '-' then ofNumber true first (first + 1) rest
  else if c.isDigit then ofNumber false first first (.char c :: rest)
  else refused first ⟨.expectedValue, first + 1⟩

/-- The tokens of some symbols that begin at `place`, looking at most `fuel` symbols far. -/
def scan : Nat → Nat → List Symbol → List Token
  | 0, _, _ => []
  | _, _, [] => []
  | fuel + 1, place, .char c :: rest =>
    if isSpace c then scan fuel (place + 1) rest
    else
      let (token, after) := ofChar place c rest
      token :: scan fuel token.last after
  | _ + 1, place, .broken _ :: _ => [(refused place ⟨.expectedValue, place + 1⟩).1]

end Token

/-- The tokens of a text. Each takes at least one symbol, so the symbols' number is fuel enough. -/
def tokens (bs : List UInt8) : List Token :=
  let ss := Text.Utf8.symbols bs
  Token.scan ss.length 0 ss

end JsonService.Json
