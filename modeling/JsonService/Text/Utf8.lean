/-!
# UTF-8

Bytes and the characters they spell. `symbols` reads any bytes at all: each symbol is a character or a
stretch that spells none, and the stretches are the longest that could still have become a character. A
character that has begun is the state of the reader, so reading is structural on the bytes.
-/
namespace JsonService.Text.Utf8

/-- The bytes of a text. -/
def encode (cs : List Char) : List UInt8 := cs.flatMap String.utf8EncodeChar

def bytes (s : String) : List UInt8 := encode s.toList

/-- A piece of a byte sequence. -/
inductive Symbol where
  | char (c : Char)
  /-- This many bytes that spell no character. -/
  | broken (size : Nat)
  deriving DecidableEq, Repr

def Symbol.size : Symbol → Nat
  | .char c => c.utf8Size
  | .broken n => n

/-- A character that has begun: its bits so far, how many bytes they took, how many are owed, and the
least and the greatest byte that may come next. -/
structure Begun where
  code : Nat
  taken : Nat
  owed : Nat
  least : UInt8 := 0x80
  greatest : UInt8 := 0xBF

/-- What a byte between characters means. -/
inductive Opening where
  | char (c : Char)
  | begins (begun : Begun)
  | stray

/-- The first byte of a character: one that needs no other, or the lead of two, three or four. The second
byte is bounded where a wider range would spell a character twice, a surrogate, or nothing. -/
def opening (b : UInt8) : Opening :=
  if b < 0x80 then .char (Char.ofNat b.toNat)
  else if b < 0xC2 then .stray
  else if b < 0xE0 then .begins { code := b.toNat % 32, taken := 1, owed := 1 }
  else if b = 0xE0 then .begins { code := 0, taken := 1, owed := 2, least := 0xA0 }
  else if b = 0xED then .begins { code := 13, taken := 1, owed := 2, greatest := 0x9F }
  else if b < 0xF0 then .begins { code := b.toNat % 16, taken := 1, owed := 2 }
  else if b = 0xF0 then .begins { code := 0, taken := 1, owed := 3, least := 0x90 }
  else if b < 0xF4 then .begins { code := b.toNat % 8, taken := 1, owed := 3 }
  else if b = 0xF4 then .begins { code := 4, taken := 1, owed := 3, greatest := 0x8F }
  else .stray

/-- A byte between characters: the symbols it completes, and the character it begins. -/
def start (b : UInt8) : List Symbol × Option Begun :=
  match opening b with
  | .char c => ([.char c], none)
  | .begins begun => ([], some begun)
  | .stray => ([.broken 1], none)

/-- One byte further. A byte that cannot continue the character ends it broken and starts afresh. -/
def step (state : Option Begun) (b : UInt8) : List Symbol × Option Begun :=
  match state with
  | none => start b
  | some s =>
    if s.least ≤ b ∧ b ≤ s.greatest then
      let code := s.code * 64 + b.toNat % 64
      if s.owed ≤ 1 then ([.char (Char.ofNat code)], none)
      else ([], some { code, taken := s.taken + 1, owed := s.owed - 1 })
    else
      let (out, next) := start b
      (.broken s.taken :: out, next)

/-- The symbols of the bytes that follow a character begun. -/
def symbolsFrom (state : Option Begun) : List UInt8 → List Symbol
  | [] => match state with
    | none => []
    | some s => [.broken s.taken]
  | b :: rest => (step state b).1 ++ symbolsFrom (step state b).2 rest

/-- The characters and broken stretches of a byte sequence, in order. -/
def symbols (bs : List UInt8) : List Symbol := symbolsFrom none bs

def Symbol.char? : Symbol → Option Char
  | .char c => some c
  | .broken _ => none

/-- The text that the bytes spell, if they spell one throughout. -/
def decode? (bs : List UInt8) : Option (List Char) := (symbols bs).mapM Symbol.char?

/-- The text that the bytes spell, with the replacement character for each broken stretch. -/
def decodeLossy (bs : List UInt8) : List Char :=
  (symbols bs).map fun s => s.char?.getD '\uFFFD'

end JsonService.Text.Utf8
