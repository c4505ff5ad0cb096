import JsonService.Proofs.Text.Runs
import JsonService.Proofs.Text.Symbols
import JsonService.Request
import Mathlib.Data.List.Forall2

/-!
# Queries read back

A list of keys and values is written as the query of a URI: pairs divided by `&`, key and value by `=`, and every byte of
their texts as itself, a blank as `+`, or as `%` and two digits (`Escaped`). Which bytes are escaped beyond those that
have to be, and in which case, is up to whoever writes. `encode` is the usual way: all bytes are escaped but those of
letters, digits and `*-._`.

**Results.**
* `decodeBytes_escaped`, `decode_written`: what is written is read back, however it is escaped.
* `written_encode`, `parse_encode`: the usual text writes the pairs, and it is the query of a target that ends with it.
* `query_reads_back`: so a request finds the first value of every key.
-/
namespace JsonService.Text.Form

/-! ## Writing -/

/-- The digits that stand for a number below sixteen, small and large. -/
def hexBytes (d : Nat) : List UInt8 := [d.digitChar, d.digitChar.toUpper].map fun c => UInt8.ofNat c.toNat

/-- Bytes with escapes, and the bytes they stand for. What divides pairs and keys, begins an escape or stands for a
blank does not stand for itself. -/
inductive Escaped : List UInt8 → List UInt8 → Prop
  | nil : Escaped [] []
  | itself {b : UInt8} (free : b ∉ [0x25, 0x26, 0x2B, 0x3D]) {ts bs : List UInt8} (rest : Escaped ts bs) :
    Escaped (b :: ts) (b :: bs)
  | blank {ts bs : List UInt8} (rest : Escaped ts bs) : Escaped (0x2B :: ts) (0x20 :: bs)
  | escape {b high low : UInt8} (hhigh : high ∈ hexBytes (b.toNat / 16)) (hlow : low ∈ hexBytes (b.toNat % 16))
      {ts bs : List UInt8} (rest : Escaped ts bs) : Escaped (0x25 :: high :: low :: ts) (b :: bs)

/-- A key and its value with `=` between them. -/
def PairWritten (p : String × String) (part : List UInt8) : Prop :=
  ∃ key value, part = key ++ 0x3D :: value ∧ Escaped key (Utf8.bytes p.1) ∧ Escaped value (Utf8.bytes p.2)

/-- Pairs with `&` between them. -/
def Written (pairs : List (String × String)) (text : String) : Prop :=
  ∃ parts, Utf8.bytes text = List.intercalate [0x26] parts ∧ List.Forall₂ PairWritten pairs parts

/-- Whether a byte is left as it is in the usual text. -/
def unreserved (b : UInt8) : Bool :=
  let c := Char.ofNat b.toNat
  c.isAlphanum || ['*', '-', '.', '_'].contains c

def encodeByte (b : UInt8) : List Char :=
  if b = 0x20 then ['+']
  else if unreserved b then [Char.ofNat b.toNat]
  else ['%', (b.toNat / 16).digitChar.toUpper, (b.toNat % 16).digitChar.toUpper]

def encodePart (s : String) : List Char := (Utf8.bytes s).flatMap encodeByte

def encodePair (p : String × String) : List Char := encodePart p.1 ++ '=' :: encodePart p.2

/-- The usual text of some pairs. -/
def encode (pairs : List (String × String)) : String :=
  String.ofList (List.intercalate ['&'] (pairs.map encodePair))

/-! ## Reading back -/

theorem hexDigit?_of_mem {d : Nat} (hd : d < 16) {h : UInt8} (hh : h ∈ hexBytes d) :
    hexDigit? h = some (UInt8.ofNat d) := by
  have all : ∀ d < 16, ∀ h ∈ hexBytes d, hexDigit? h = some (UInt8.ofNat d) := by decide +kernel
  exact all d hd h hh

theorem decodeBytes_cons {b : UInt8} (hb : b ≠ 0x25) (rest : List UInt8) :
    decodeBytes (b :: rest) = plain b :: decodeBytes rest := by
  match rest with
  | [] | [_] => rfl
  | h :: l :: rest => rw [decodeBytes, escape?, if_neg hb]

theorem decodeBytes_escape {b high low : UInt8} (hhigh : high ∈ hexBytes (b.toNat / 16))
    (hlow : low ∈ hexBytes (b.toNat % 16)) (rest : List UInt8) :
    decodeBytes (0x25 :: high :: low :: rest) = b :: decodeBytes rest := by
  have byte : UInt8.ofNat (b.toNat / 16) * 16 + UInt8.ofNat (b.toNat % 16) = b := by
    have := b.toNat_lt
    rw [← UInt8.toNat_inj]
    simp
    omega
  rw [decodeBytes, escape?, if_pos rfl, hexDigit?_of_mem (by have := b.toNat_lt; omega) hhigh,
    hexDigit?_of_mem (by omega) hlow]
  simp only [byte]

theorem decodeBytes_escaped {ts bs : List UInt8} (h : Escaped ts bs) : decodeBytes ts = bs := by
  induction h with
  | nil => rfl
  | @itself b free ts bs _ ih =>
    simp only [List.mem_cons, List.not_mem_nil, or_false, not_or] at free
    rw [decodeBytes_cons free.1, ih, plain, if_neg free.2.2.1]
  | blank _ ih =>
    rw [decodeBytes_cons (by decide), ih]
    rfl
  | escape hhigh hlow _ ih => rw [decodeBytes_escape hhigh hlow, ih]

theorem Escaped.undivided {ts bs : List UInt8} (h : Escaped ts bs) : ∀ t ∈ ts, t ≠ 0x26 ∧ t ≠ 0x3D := by
  have digit : ∀ d < 16, ∀ t ∈ hexBytes d, t ≠ 0x26 ∧ t ≠ 0x3D := by decide +kernel
  induction h with
  | nil => exact List.forall_mem_nil _
  | itself free _ ih =>
    simp only [List.mem_cons, List.not_mem_nil, or_false, not_or] at free
    exact List.forall_mem_cons.mpr ⟨⟨free.2.1, free.2.2.2⟩, ih⟩
  | blank _ ih => exact List.forall_mem_cons.mpr ⟨by decide, ih⟩
  | @escape b _ _ hhigh hlow _ _ _ ih =>
    have high := digit _ (by have := b.toNat_lt; omega) _ hhigh
    have low := digit _ (by omega) _ hlow
    exact List.forall_mem_cons.mpr ⟨by decide, List.forall_mem_cons.mpr ⟨high, List.forall_mem_cons.mpr ⟨low, ih⟩⟩⟩

theorem decodePart_escaped {s : String} {ts : List UInt8} (h : Escaped ts (Utf8.bytes s)) : decodePart ts = s := by
  have chars : (s.toList.map Utf8.Symbol.char).map (fun x => x.char?.getD '\uFFFD') = s.toList := by
    rw [List.map_map]
    exact List.map_id _
  rw [decodePart, decodeBytes_escaped h, Utf8.decodeLossy, Utf8.bytes, Utf8.symbols_encode, chars, String.ofList_toList]

theorem decodePair_written {p : String × String} {part : List UInt8} (h : PairWritten p part) :
    decodePair part = p := by
  obtain ⟨key, value, rfl, hkey, hvalue⟩ := h
  have before : ∀ t ∈ key, decide (t ≠ 0x3D) = true := fun t ht => decide_eq_true (hkey.undivided t ht).2
  rw [decodePair, List.takeWhile_append_of_pos before, List.dropWhile_append_of_pos before,
    List.takeWhile_cons_of_neg (by decide), List.dropWhile_cons_of_neg (by decide), List.append_nil,
    List.drop_succ_cons, List.drop_zero, decodePart_escaped hkey, decodePart_escaped hvalue]

theorem PairWritten.undivided {p : String × String} {part : List UInt8} (h : PairWritten p part) :
    part ≠ [] ∧ ∀ t ∈ part, t ≠ 0x26 := by
  obtain ⟨key, value, rfl, hkey, hvalue⟩ := h
  refine ⟨by simp, fun t ht => ?_⟩
  rcases List.mem_append.mp ht with ht | ht
  · exact (hkey.undivided t ht).1
  · rcases List.mem_cons.mp ht with rfl | ht
    · decide
    · exact (hvalue.undivided t ht).1

theorem splitBytes_intercalate {sep : UInt8} {part : List UInt8} {parts : List (List UInt8)}
    (undivided : ∀ q ∈ part :: parts, ∀ t ∈ q, t ≠ sep) :
    splitBytes sep (List.intercalate [sep] (part :: parts)) = part :: parts := by
  have alone : ∀ {q : List UInt8}, (∀ t ∈ q, t ≠ sep) → splitBytes sep q = [q] := by
    intro q hq
    induction q with
    | nil => rfl
    | cons t q ih =>
      obtain ⟨ht, hq⟩ := List.forall_mem_cons.mp hq
      rw [splitBytes, if_neg ht, ih hq]
  have first : ∀ {q : List UInt8} (rest : List UInt8), (∀ t ∈ q, t ≠ sep) →
      splitBytes sep (q ++ sep :: rest) = q :: splitBytes sep rest := by
    intro q rest hq
    induction q with
    | nil => rw [List.nil_append, splitBytes, if_pos rfl]
    | cons t q ih =>
      obtain ⟨ht, hq⟩ := List.forall_mem_cons.mp hq
      rw [List.cons_append, splitBytes, if_neg ht, ih hq]
  induction parts generalizing part with
  | nil =>
    rw [List.intercalate_singleton]
    exact alone (undivided part List.mem_cons_self)
  | cons q parts ih =>
    obtain ⟨hpart, hparts⟩ := List.forall_mem_cons.mp undivided
    rw [List.intercalate_cons_cons, List.append_assoc, List.singleton_append, first _ hpart, ih hparts]

theorem written_parts {pairs : List (String × String)} {parts : List (List UInt8)}
    (h : List.Forall₂ PairWritten pairs parts) :
    parts.map decodePair = pairs ∧ ∀ part ∈ parts, part ≠ [] ∧ ∀ t ∈ part, t ≠ 0x26 := by
  induction h with
  | nil => exact ⟨rfl, List.forall_mem_nil _⟩
  | cons written _ ih =>
    refine ⟨?_, List.forall_mem_cons.mpr ⟨written.undivided, ih.2⟩⟩
    rw [List.map_cons, decodePair_written written, ih.1]

theorem decode_written {pairs : List (String × String)} {text : String} (h : Written pairs text) :
    decode (Utf8.bytes text) = pairs := by
  obtain ⟨parts, bytes, written⟩ := h
  obtain ⟨read, undivided⟩ := written_parts written
  rw [bytes, decode, ← read]
  cases parts with
  | nil => rfl
  | cons part parts =>
    rw [splitBytes_intercalate fun q hq => (undivided q hq).2, List.filter_eq_self.mpr]
    exact fun q hq => by simpa using (undivided q hq).1

/-! ## The usual text -/

theorem encodeByte_cases (b : UInt8) :
    (b = 0x20 ∧ Utf8.encode (encodeByte b) = [0x2B]) ∨
    (b ∉ [0x25, 0x26, 0x2B, 0x3D] ∧ Utf8.encode (encodeByte b) = [b]) ∨
    ∃ high ∈ hexBytes (b.toNat / 16), ∃ low ∈ hexBytes (b.toNat % 16),
      Utf8.encode (encodeByte b) = [0x25, high, low] := by
  have all : ∀ n < 256, let b := UInt8.ofNat n
      (b = 0x20 ∧ Utf8.encode (encodeByte b) = [0x2B]) ∨
      (b ∉ [0x25, 0x26, 0x2B, 0x3D] ∧ Utf8.encode (encodeByte b) = [b]) ∨
      ∃ high ∈ hexBytes (b.toNat / 16), ∃ low ∈ hexBytes (b.toNat % 16),
        Utf8.encode (encodeByte b) = [0x25, high, low] := by decide +kernel
  simpa using all b.toNat b.toNat_lt

theorem escaped_encode (bs : List UInt8) : Escaped (Utf8.encode (bs.flatMap encodeByte)) bs := by
  induction bs with
  | nil => exact .nil
  | cons b bs ih =>
    rw [List.flatMap_cons, Utf8.encode_append]
    rcases encodeByte_cases b with ⟨rfl, h⟩ | ⟨free, h⟩ | ⟨high, hhigh, low, hlow, h⟩
    · rw [h]
      exact .blank ih
    · rw [h]
      exact .itself free ih
    · rw [h]
      exact .escape hhigh hlow ih

theorem pairWritten_encodePair (p : String × String) : PairWritten p (Utf8.encode (encodePair p)) := by
  have divider : String.utf8EncodeChar '=' = [0x3D] := by decide
  refine ⟨Utf8.encode (encodePart p.1), Utf8.encode (encodePart p.2), ?_, escaped_encode _, escaped_encode _⟩
  rw [encodePair, Utf8.encode_append, Utf8.encode_cons, divider, List.singleton_append]

theorem encode_intercalate (parts : List (List Char)) :
    Utf8.encode (List.intercalate ['&'] parts) = List.intercalate [0x26] (parts.map Utf8.encode) := by
  have divider : Utf8.encode ['&'] = [0x26] := by decide
  match parts with
  | [] => rfl
  | [part] => simp only [List.map_cons, List.map_nil, List.intercalate_singleton]
  | part :: next :: parts =>
    rw [List.intercalate_cons_cons, Utf8.encode_append, Utf8.encode_append, encode_intercalate (next :: parts), divider]
    exact (List.intercalate_cons_cons ..).symm

theorem written_encode (pairs : List (String × String)) : Written pairs (encode pairs) := by
  refine ⟨(pairs.map encodePair).map Utf8.encode, ?_, ?_⟩
  · rw [encode, Utf8.bytes_ofList, encode_intercalate]
  · rw [List.forall₂_map_right_iff, List.forall₂_map_right_iff, List.forall₂_same]
    exact fun p _ => pairWritten_encodePair p

/-- Nothing in the usual text ends a query. -/
theorem mem_encode_ne {pairs : List (String × String)} : ∀ c ∈ (encode pairs).toList, c ≠ '#' := by
  have all : (List.range 256).all (fun n => (encodeByte (UInt8.ofNat n)).all (· ≠ '#')) = true := by decide +kernel
  have byte : ∀ n < 256, ∀ c ∈ encodeByte (UInt8.ofNat n), c ≠ '#' := fun n hn c hc =>
    of_decide_eq_true (List.all_eq_true.mp (List.all_eq_true.mp all n (List.mem_range.mpr hn)) c hc)
  have part : ∀ s, ∀ c ∈ encodePart s, c ≠ '#' := by
    intro s c hc
    obtain ⟨b, -, hb⟩ := List.mem_flatMap.mp hc
    exact byte b.toNat b.toNat_lt c (by simpa using hb)
  rw [encode, String.toList_ofList]
  refine forall_mem_intercalate (List.forall_mem_singleton.mpr (by decide)) fun q hq => ?_
  obtain ⟨p, -, rfl⟩ := List.mem_map.mp hq
  intro c hc
  rcases List.mem_append.mp hc with hc | hc
  · exact part _ c hc
  · rcases List.mem_cons.mp hc with rfl | hc
    · decide
    · exact part _ c hc

theorem parse_encode {path : String} (rooted : path.toList.head? = some '/')
    (free : ∀ c ∈ path.toList, c ≠ '?' ∧ c ≠ '#') (pairs : List (String × String)) :
    Target.parse (path ++ "?" ++ encode pairs) = ⟨"", path, some (encode pairs)⟩ := by
  have kept : Target.upTo (· = '#') (path ++ "?" ++ encode pairs).toList =
      path.toList ++ '?' :: (encode pairs).toList := by
    have chars : (path ++ "?" ++ encode pairs).toList = path.toList ++ '?' :: (encode pairs).toList := by simp
    rw [chars, Target.upTo, List.takeWhile_eq_self_iff]
    intro c hc
    rcases List.mem_append.mp hc with hc | hc
    · simpa using (free c hc).2
    · rcases List.mem_cons.mp hc with rfl | hc
      · rfl
      · simpa using mem_encode_ne c hc
  have before : ∀ c ∈ path.toList, decide (c ≠ '?') = true := fun c hc => decide_eq_true (free c hc).1
  obtain ⟨rest, hrest⟩ := List.head?_eq_some_iff.mp rooted
  have origin : Target.parse (path ++ "?" ++ encode pairs) =
      Target.ofPath [] (path.toList ++ '?' :: (encode pairs).toList) := by
    simp only [Target.parse, kept, hrest, List.cons_append]
  have front : Target.upTo (· = '?') (path.toList ++ '?' :: (encode pairs).toList) = path.toList := by
    rw [Target.upTo, List.takeWhile_append_of_pos fun c hc => by simpa using (free c hc).1]
    simp
  have back : (path.toList ++ '?' :: (encode pairs).toList).dropWhile (· ≠ '?') = '?' :: (encode pairs).toList := by
    rw [List.dropWhile_append_of_pos before, List.dropWhile_cons_of_neg (by decide)]
  rw [origin, Target.ofPath, front, back]
  simp only [String.ofList_toList]

/-! ## Requests -/

variable {pairs : List (String × String)} {text : String} {r : Request}

/-- A request with the pairs for its query has the first value of a key. -/
theorem queryParam_written (written : Written pairs text) (asks : r.target.query = some text) (key : String) :
    r.queryParam key = lookup key pairs := by
  simp only [Request.queryParam, Target.pairs, asks, decode_written written]

theorem lookup_first {key value : String} {before after : List (String × String)} (others : ∀ p ∈ before, p.1 ≠ key) :
    lookup key (before ++ (key, value) :: after) = some value := by
  have skipped : before.find? (·.1 = key) = none := List.find?_eq_none.mpr fun p hp => by simpa using others p hp
  rw [lookup, List.find?_append, skipped, Option.none_or, List.find?_cons_of_pos (by simp)]
  rfl

theorem lookup_absent {key : String} (others : ∀ p ∈ pairs, p.1 ≠ key) : lookup key pairs = none := by
  rw [lookup, List.find?_eq_none.mpr fun p hp => by simpa using others p hp]
  rfl

/-- **Queries are read back.** Any pairs of texts have a usual text, and with it after a path and a question mark that
text is the query of a target. A request whose query is that text, or any other that writes the pairs, has for every key
the value of the first pair with that key, and nothing if there is none; in place of nothing and of an empty value it
has a default. -/
theorem query_reads_back (pairs : List (String × String)) :
    Written pairs (encode pairs) ∧
    (∀ path : String, path.toList.head? = some '/' → (∀ c ∈ path.toList, c ≠ '?' ∧ c ≠ '#') →
      (Target.parse (path ++ "?" ++ encode pairs)).query = some (encode pairs)) ∧
    ∀ (text : String) (r : Request), Written pairs text → r.target.query = some text → ∀ key : String,
      (∀ before value after, pairs = before ++ (key, value) :: after → (∀ p ∈ before, p.1 ≠ key) →
        r.queryParam key = some value ∧ ∀ default, r.query key default = if value = "" then default else value) ∧
      ((∀ p ∈ pairs, p.1 ≠ key) → r.queryParam key = none ∧ ∀ default, r.query key default = default) := by
  refine ⟨written_encode pairs, fun path rooted free => ?_, fun text r written asks key => ⟨?_, fun absent => ?_⟩⟩
  · rw [parse_encode rooted free]
  · rintro before value after rfl others
    have found : r.queryParam key = some value := by rw [queryParam_written written asks, lookup_first others]
    refine ⟨found, fun default => ?_⟩
    simp only [Request.query, found, String.isEmpty_iff]
  · have missing : r.queryParam key = none := by rw [queryParam_written written asks, lookup_absent absent]
    refine ⟨missing, fun default => ?_⟩
    simp only [Request.query, missing]

def dividers : List (String × String) := [("a&b", "=+% é"), ("page", ""), ("page", "2")]

theorem query_reads_back_dividers : ∃ r : Request, Written dividers (encode dividers) ∧
    r.target.query = some (encode dividers) ∧ r.queryParam "a&b" = some "=+% é" ∧ r.queryParam "page" = some "" ∧
    r.query "page" "1" = "1" ∧ r.queryParam "size" = none := by
  obtain ⟨written, parsed, read⟩ := query_reads_back dividers
  have asks := parsed "/v1/beers" (by decide) (by simp)
  obtain ⟨r, hr⟩ : ∃ r : Request, r.target = .parse ("/v1/beers" ++ "?" ++ encode dividers) :=
    ⟨{ method := .get, target := _ }, rfl⟩
  rw [← hr] at asks
  obtain ⟨divided, -⟩ := read (encode dividers) r written asks "a&b"
  obtain ⟨page, -⟩ := read (encode dividers) r written asks "page"
  obtain ⟨-, size⟩ := read (encode dividers) r written asks "size"
  obtain ⟨empty, default⟩ := page [("a&b", "=+% é")] "" [("page", "2")] rfl (by decide)
  exact ⟨r, written, asks, (divided [] _ _ rfl (by decide)).1, empty, default "1", (size (by decide)).1⟩

example : encode dividers = "a%26b=%3D%2B%25+%C3%A9&page=&page=2" := by decide +kernel

end JsonService.Text.Form
