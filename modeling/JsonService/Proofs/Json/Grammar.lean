import JsonService.Json.Token

/-!
# The grammar of JSON texts

Which texts write a document. A document keeps what its text says: members stand in the order of the text,
and a repeated key stands as often as the text repeats it. Blanks, the escapes of a string and the spelling
of a number leave no trace in it.
-/
namespace JsonService.Json

open Token (Kind Spelling)

def Blanks (t : List Char) : Prop := ∀ c ∈ t, Token.isSpace c

/-- The code that four hexadecimal digits spell. -/
def code? (a b c d : Char) : Option Nat := Token.hexCode? (.char a) (.char b) (.char c) (.char d)

/-- What may stand between quotes, and the characters that it spells. -/
inductive Spells : List Char → List Char → Prop
  | nil : Spells [] []
  | plain : c ≠ '"' → c ≠ '\\' → 0x20 ≤ c.toNat → Spells t s → Spells (c :: t) (c :: s)
  | short : Token.unescape? e = some c → Spells t s → Spells ('\\' :: e :: t) (c :: s)
  | code : code? a b c d = some n → Token.isLeading n = false → Token.isTrailing n = false → Spells t s →
      Spells ('\\' :: 'u' :: a :: b :: c :: d :: t) (Char.ofNat n :: s)
  | pair : code? a b c d = some n → Token.isLeading n = true →
      code? a' b' c' d' = some m → Token.isTrailing m = true → Spells t s →
      Spells ('\\' :: 'u' :: a :: b :: c :: d :: '\\' :: 'u' :: a' :: b' :: c' :: d' :: t)
        (Token.pair n m :: s)

/-! ## Numbers -/

/-- Decimal digits, at least one, and their values. -/
structure Digits (t : List Char) (ds : List Nat) : Prop where
  isDigit : ∀ c ∈ t, c.isDigit = true
  values : ds = t.map fun c => c.toNat - 48
  nonempty : t ≠ []

inductive Fraction : List Char → Option (List Nat) → Prop
  | none : Fraction [] none
  | some : Digits t ds → Fraction ('.' :: t) (some ds)

inductive Sign : List Char → Bool → Prop
  | none : Sign [] false
  | plus : Sign ['+'] false
  | minus : Sign ['-'] true

inductive Exponent : List Char → Option (Bool × List Nat) → Prop
  | none : Exponent [] none
  | some : c = 'e' ∨ c = 'E' → Sign sg below → Digits t ds → Exponent (c :: sg ++ t) (some (below, ds))

/-- A number without its sign. A zero before the point stands alone. -/
inductive Magnitude (negative : Bool) : List Char → Spelling → Prop
  | mk : Digits w whole → (whole.head? = some 0 → whole = [0]) → Fraction f fraction → Exponent e exponent →
      Magnitude negative (w ++ f ++ e) { negative, whole, fraction, exponent }

inductive Numeral : List Char → Spelling → Prop
  | unsigned : Magnitude false t s → Numeral t s
  | negative : Magnitude true t s → Numeral ('-' :: t) s

/-! ## Values -/

/-- What a stretch of a text may write. -/
inductive Part where
  | value (v : Json)
  /-- A value with blanks around it. -/
  | element (v : Json)
  /-- Elements with commas between them. -/
  | elements (vs : List Json)
  | member (key : String) (v : Json)
  | members (ms : List (String × Json))

/-- The text `t` writes a part of a document. -/
inductive Written : Part → (t : List Char) → Prop
  | null : Written (.value .null) "null".toList
  | true : Written (.value (.bool true)) "true".toList
  | false : Written (.value (.bool false)) "false".toList
  | number : Numeral t s → s.value 0 = .ok n → Written (.value (.number n)) t
  | text : Spells t s → Written (.value (.text (String.ofList s))) ('"' :: t ++ ['"'])
  | emptyList : Blanks b → Written (.value (.list [])) ('[' :: b ++ [']'])
  | list : Written (.elements vs) t → Written (.value (.list vs)) ('[' :: t ++ [']'])
  | emptyObject : Blanks b → Written (.value (.object [])) ('\x7b' :: b ++ ['\x7d'])
  | object : Written (.members ms) t → Written (.value (.object ms)) ('\x7b' :: t ++ ['\x7d'])
  | element : Blanks b → Written (.value v) t → Blanks b' → Written (.element v) (b ++ t ++ b')
  | lastElement : Written (.element v) t → Written (.elements [v]) t
  | elements : Written (.element v) t → Written (.elements (w :: vs)) ts →
      Written (.elements (v :: w :: vs)) (t ++ ',' :: ts)
  | member : Blanks b → Spells k key → Blanks b' → Written (.element v) t →
      Written (.member (String.ofList key) v) (b ++ ('"' :: k ++ ['"']) ++ b' ++ ':' :: t)
  | lastMember : Written (.member key v) t → Written (.members [(key, v)]) t
  | members : Written (.member key v) t → Written (.members (m :: ms)) ts →
      Written (.members ((key, v) :: m :: ms)) (t ++ ',' :: ts)

/-! ## Tokens -/

mutual

/-- The kinds of the tokens of a document. -/
def kinds : Json → List Kind
  | .null => [.null]
  | .bool b => [.bool b]
  | .number n => [.number (.ok n)]
  | .text s => [.text (.ok s)]
  | .list vs => .openList :: kindsOfItems vs ++ [.closeList]
  | .object ms => .openObject :: kindsOfMembers ms ++ [.closeObject]

def kindsOfItems : List Json → List Kind
  | [] => []
  | [v] => kinds v
  | v :: w :: vs => kinds v ++ .comma :: kindsOfItems (w :: vs)

def kindsOfMembers : List (String × Json) → List Kind
  | [] => []
  | [(key, v)] => .text (.ok key) :: .colon :: kinds v
  | (key, v) :: m :: ms => (.text (.ok key) :: .colon :: kinds v) ++ .comma :: kindsOfMembers (m :: ms)

end

def Part.kinds : Part → List Kind
  | .value v | .element v => v.kinds
  | .elements vs => kindsOfItems vs
  | .member key v => .text (.ok key) :: .colon :: v.kinds
  | .members ms => kindsOfMembers ms

/-! ## Depth -/

mutual

def depth : Json → Nat
  | .list vs => depthOfItems vs + 1
  | .object ms => depthOfMembers ms + 1
  | _ => 0

def depthOfItems : List Json → Nat
  | [] => 0
  | v :: vs => max (depth v) (depthOfItems vs)

def depthOfMembers : List (String × Json) → Nat
  | [] => 0
  | (_, v) :: ms => max (depth v) (depthOfMembers ms)

end

end JsonService.Json
