import JsonService.Text.Digits

/-!
# Socket addresses

A host and the number of one of its ports, and their text: four octets between points, or eight groups of
sixteen bits between colons, where a run of groups that are zero may be left out.
-/
namespace JsonService

structure Octets where
  first : UInt8
  second : UInt8
  third : UInt8
  fourth : UInt8
  deriving DecidableEq, Repr

structure Groups where
  groups : List UInt16
  length_groups : groups.length = 8
  deriving DecidableEq, Repr

inductive Host where
  | octets (ip : Octets)
  /-- Groups, and the number of the network on which they count; zero: any. -/
  | groups (ip : Groups) (scope : UInt32)
  deriving DecidableEq, Repr

structure Address where
  host : Host
  /-- Which of the ports of the host. -/
  portNumber : UInt16
  deriving DecidableEq, Repr

/-- Whether a host stands for the machine itself: the one that means any of its addresses, or one at which
only the machine reaches itself. -/
def Host.isOwn : Host → Bool
  | .octets ip => ip = ⟨0, 0, 0, 0⟩ || ip.first = 127
  | .groups ip _ => ip.groups.take 7 = List.replicate 7 0 && ip.groups.all (· ≤ 1)

def Octets.toGroups (ip : Octets) : List UInt16 :=
  [ip.first.toUInt16 * 256 + ip.second.toUInt16, ip.third.toUInt16 * 256 + ip.fourth.toUInt16]

def Octets.ofGroups (upper lower : UInt16) : Octets :=
  ⟨(upper / 256).toUInt8, upper.toUInt8, (lower / 256).toUInt8, lower.toUInt8⟩

/-! ## Writing -/

def Octets.render (ip : Octets) : String :=
  String.intercalate "." ([ip.first, ip.second, ip.third, ip.fourth].map fun b => toString b.toNat)

namespace Groups

def digits (g : UInt16) : String := String.ofList (Nat.toDigits 16 g.toNat)

def joined (gs : List UInt16) : String := String.intercalate ":" (gs.map digits)

/-- How many groups are zero from a place on. -/
def zerosFrom (gs : List UInt16) (i : Nat) : Nat := ((gs.drop i).takeWhile (· = 0)).length

/-- The start and the length of the longest run of zeros, the first one of several. -/
def longestZeros (gs : List UInt16) : Nat × Nat :=
  (List.range gs.length).foldl
    (fun best i => if best.2 < zerosFrom gs i then (i, zerosFrom gs i) else best) (0, 0)

/-- Eight groups; the longest run of at least two zeros is left out. Groups that hold octets end in
octets. -/
def render (ip : Groups) : String :=
  match ip.groups with
  | [0, 0, 0, 0, 0, 0xFFFF, upper, lower] => "::ffff:" ++ (Octets.ofGroups upper lower).render
  | gs =>
    let (start, length) := longestZeros gs
    if 1 < length then joined (gs.take start) ++ "::" ++ joined (gs.drop (start + length)) else joined gs

end Groups

def Address.render (a : Address) : String :=
  match a.host with
  | .octets ip => s!"{ip.render}:{a.portNumber.toNat}"
  | .groups ip scope =>
    let zone := if scope = 0 then "" else s!"%{scope.toNat}"
    s!"[{ip.render}{zone}]:{a.portNumber.toNat}"

/-! ## Reading -/

namespace Address

/-- Reads something from the start of a text and leaves the rest. -/
abbrev Reader (α : Type) := List Char → Option (α × List Char)

def mark (c : Char) : Reader Unit
  | [] => none
  | d :: rest => if d = c then some ((), rest) else none

def number (limit : Nat) : Reader Nat := fun cs =>
  let ds := cs.takeWhile Char.isDigit
  (Text.decimalBelow? limit ds).map (·, cs.drop ds.length)

/-- A decimal number of one octet, without zeros before it. -/
def octet : Reader UInt8 := fun cs =>
  match cs with
  | '0' :: d :: _ => if d.isDigit then none else some (0, cs.drop 1)
  | _ => (number 256 cs).map fun (n, rest) => (UInt8.ofNat n, rest)

def octets : Reader Octets := fun cs => do
  let (first, cs) ← octet cs
  let ((), cs) ← mark '.' cs
  let (second, cs) ← octet cs
  let ((), cs) ← mark '.' cs
  let (third, cs) ← octet cs
  let ((), cs) ← mark '.' cs
  let (fourth, cs) ← octet cs
  return (⟨first, second, third, fourth⟩, cs)

def group : Reader UInt16 := fun cs =>
  let ds := cs.takeWhile fun c => (Text.hexDigit? c).isSome
  if ds.isEmpty ∨ 4 < ds.length then none
  else (Text.hexadecimal? ds).map fun n => (UInt16.ofNat n, cs.drop ds.length)

/-- What comes after a colon, or without one if it is the first. -/
def after (first : Bool) (reader : Reader α) : Reader α := fun cs =>
  if first then reader cs
  else do
    let ((), cs) ← mark ':' cs
    reader cs

/-- As many groups as there are, up to a limit, and whether the last two were written as octets. -/
def someGroups : Nat → Bool → List Char → List UInt16 × Bool × List Char
  | 0, _, cs => ([], false, cs)
  | room + 1, first, cs =>
    match if room = 0 then none else after first octets cs with
    | some (ip, rest) => (ip.toGroups, true, rest)
    | none =>
      match after first group cs with
      | none => ([], false, cs)
      | some (g, rest) =>
        let (gs, ended, rest) := someGroups room false rest
        (g :: gs, ended, rest)

/-- Eight groups, of which some may be left out. -/
def eightGroups : Reader Groups := fun cs =>
  match someGroups 8 true cs with
  | (head, ended, rest) =>
    if h : head.length = 8 then some (⟨head, h⟩, rest)
    else if ended then none
    else do
      let ((), rest) ← mark ':' rest
      let ((), rest) ← mark ':' rest
      let (tail, _, rest) := someGroups (7 - head.length) true rest
      let gs := head ++ List.replicate (8 - head.length - tail.length) 0 ++ tail
      if h : gs.length = 8 then some (⟨gs, h⟩, rest) else none

/-- The number of a network after a percent sign, or zero if there is none. -/
def scope : List Char → UInt32 × List Char := fun cs =>
  match mark '%' cs >>= fun (_, cs) => number UInt32.size cs with
  | some (n, rest) => (UInt32.ofNat n, rest)
  | none => (0, cs)

def portPart : Reader UInt16 := fun cs => do
  let ((), cs) ← mark ':' cs
  let (n, cs) ← number UInt16.size cs
  return (UInt16.ofNat n, cs)

def withOctets : Reader Address := fun cs => do
  let (ip, cs) ← octets cs
  let (portNumber, cs) ← portPart cs
  return (⟨.octets ip, portNumber⟩, cs)

/-- An address with groups between brackets. -/
def withGroups : Reader Address := fun cs => do
  let ((), cs) ← mark '[' cs
  let (ip, cs) ← eightGroups cs
  let (scope, cs) := scope cs
  let ((), cs) ← mark ']' cs
  let (portNumber, cs) ← portPart cs
  return (⟨.groups ip scope, portNumber⟩, cs)

def parse? (s : String) : Option Address :=
  match withOctets s.toList <|> withGroups s.toList with
  | some (a, []) => some a
  | _ => none

end Address

end JsonService
