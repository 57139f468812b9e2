import ElevatorFleet.Json.Value

/-!
Reading JSON strictly.

* `Json.parse?` reads one value that makes up a whole text: no comments, no trailing commas, no
  leading zeros or plus signs, and no characters but blanks around it.
* Every rule returns what is left of the text. The rules for values, items and members call each
  other, each call being handed one unit less of fuel than its caller got. Of any two calls in a
  row one has read a character, so twice as much fuel as there are characters is always enough.
-/

namespace ElevatorFleet

namespace Json

/-- Blanks: space, tab, line feed and carriage return. -/
def isBlank (c : Char) : Bool := c = ' ' || c = '\t' || c = '\n' || c = '\r'

/-- The text after its leading blanks. -/
def skipBlanks (cs : List Char) : List Char := cs.dropWhile isBlank

/-- The rest of a text after a word it has to start with. -/
def after? : List Char → List Char → Option (List Char)
  | [], cs => some cs
  | w :: ws, c :: cs => if w = c then after? ws cs else none
  | _ :: _, [] => none

/-- A hexadecimal digit. -/
def hexDigit? (c : Char) : Option Nat :=
  if '0' ≤ c ∧ c ≤ '9' then some (c.toNat - '0'.toNat)
  else if 'a' ≤ c ∧ c ≤ 'f' then some (c.toNat - 'a'.toNat + 10)
  else if 'A' ≤ c ∧ c ≤ 'F' then some (c.toNat - 'A'.toNat + 10)
  else none

/-- Four hexadecimal digits, which spell a sixteen-bit unit. -/
def unit? : List Char → Option (Nat × List Char)
  | a :: b :: c :: d :: cs => do
      let a ← hexDigit? a
      let b ← hexDigit? b
      let c ← hexDigit? c
      let d ← hexDigit? d
      pure (((a * 16 + b) * 16 + c) * 16 + d, cs)
  | _ => none

/-- The character behind a backslash, where it stands for itself or for one control character. -/
def escaped? : Char → Option Char
  | '"' => some '"'
  | '\\' => some '\\'
  | '/' => some '/'
  | 'b' => some '\x08'
  | 'f' => some '\x0c'
  | 'n' => some '\n'
  | 'r' => some '\r'
  | 't' => some '\t'
  | _ => none

/-- The contents of a string as sixteen-bit escapes and plain characters. -/
inductive Piece where
  | plain (c : Char)
  | unit (n : Nat)

/-- The pieces of a string up to its closing quote, and what follows that quote. Control characters
have to be escaped. -/
def pieces? : Nat → List Char → Option (List Piece × List Char)
  | 0, _ => none
  | _, [] => none
  | _ + 1, '"' :: cs => some ([], cs)
  | fuel + 1, '\\' :: 'u' :: cs => do
      let (n, cs) ← unit? cs
      let (ps, rest) ← pieces? fuel cs
      pure (.unit n :: ps, rest)
  | fuel + 1, '\\' :: c :: cs => do
      let c ← escaped? c
      let (ps, rest) ← pieces? fuel cs
      pure (.plain c :: ps, rest)
  | fuel + 1, c :: cs =>
      if c.toNat < 32 then none
      else do
        let (ps, rest) ← pieces? fuel cs
        pure (.plain c :: ps, rest)

/-- The characters that pieces spell. A high surrogate and a low one together make a character;
either of them alone makes none, and no text. -/
def spell? : List Piece → Option (List Char)
  | [] => some []
  | .plain c :: ps => (spell? ps).map (c :: ·)
  | .unit n :: ps =>
      if 0xD800 ≤ n ∧ n < 0xDC00 then
        match ps with
        | .unit m :: ps =>
            if 0xDC00 ≤ m ∧ m < 0xE000 then
              (spell? ps).map (Char.ofNat (0x10000 + (n - 0xD800) * 0x400 + (m - 0xDC00)) :: ·)
            else none
        | _ => none
      else if 0xDC00 ≤ n ∧ n < 0xE000 then none
      else (spell? ps).map (Char.ofNat n :: ·)

/-- A string behind its opening quote. -/
def string? (cs : List Char) : Option (Option String × List Char) :=
  (pieces? (cs.length + 1) cs).map fun (ps, rest) => ((spell? ps).map String.ofList, rest)

/-- The fraction of a number: a point and at least one digit, or nothing. -/
def fraction? : List Char → Option (List Nat × List Char)
  | '.' :: cs =>
      match Numeral.digits cs with
      | ([], _) => none
      | (ds, rest) => some (ds, rest)
  | cs => some ([], cs)

/-- A number. Its whole part is one digit or does not start with a zero. -/
def number? (cs : List Char) : Option (Numeral × List Char) := do
  let (negative, cs) := match cs with
    | '-' :: cs => (true, cs)
    | cs => (false, cs)
  let (whole, cs) := Numeral.digits cs
  match whole with
  | [] => none
  | 0 :: _ :: _ => none
  | _ =>
      let (fraction, cs) ← fraction? cs
      let (exponent, cs) ← Numeral.exponent? cs
      pure (⟨negative, whole, fraction, exponent⟩, cs)

mutual

/-- A value at the start of a text, blanks before it skipped. -/
def readValue? : Nat → List Char → Option (Json × List Char)
  | 0, _ => none
  | fuel + 1, cs =>
      match skipBlanks cs with
      | [] => none
      | '"' :: cs => (string? cs).map fun (s, rest) => (.string s, rest)
      | '[' :: cs =>
          match skipBlanks cs with
          | ']' :: rest => some (.array [], rest)
          | cs => (readItems? fuel cs).map fun (js, rest) => (.array js, rest)
      | '{' :: cs =>
          match skipBlanks cs with
          | '}' :: rest => some (.object [], rest)
          | cs => (readMembers? fuel cs).map fun (ms, rest) => (.object ms, rest)
      | 'n' :: cs => (after? ['u', 'l', 'l'] cs).map (Json.null, ·)
      | 't' :: cs => (after? ['r', 'u', 'e'] cs).map (Json.bool true, ·)
      | 'f' :: cs => (after? ['a', 'l', 's', 'e'] cs).map (Json.bool false, ·)
      | cs => (number? cs).map fun (n, rest) => (.number n, rest)

/-- The items of an array up to its closing bracket, at least one. -/
def readItems? : Nat → List Char → Option (List Json × List Char)
  | 0, _ => none
  | fuel + 1, cs =>
      match readValue? fuel cs with
      | none => none
      | some (j, cs) =>
          match skipBlanks cs with
          | ']' :: rest => some ([j], rest)
          | ',' :: cs => (readItems? fuel cs).map fun (js, rest) => (j :: js, rest)
          | _ => none

/-- The members of an object up to its closing brace, at least one. -/
def readMembers? : Nat → List Char → Option (List (Option String × Json) × List Char)
  | 0, _ => none
  | fuel + 1, cs =>
      match skipBlanks cs with
      | '"' :: cs =>
          match string? cs with
          | none => none
          | some (key, cs) =>
              match skipBlanks cs with
              | ':' :: cs =>
                  match readValue? fuel cs with
                  | none => none
                  | some (j, cs) =>
                      match skipBlanks cs with
                      | '}' :: rest => some ([(key, j)], rest)
                      | ',' :: cs =>
                          (readMembers? fuel cs).map fun (ms, rest) => ((key, j) :: ms, rest)
                      | _ => none
              | _ => none
      | _ => none

end

/-- The value that makes up a whole text. -/
def parse? (s : String) : Option Json :=
  let cs := s.toList
  match readValue? (2 * cs.length + 2) cs with
  | some (j, rest) => if (skipBlanks rest).isEmpty then some j else none
  | none => none

end Json

end ElevatorFleet
