import FleetCache.Value.Access

set_option autoImplicit false

namespace FleetCache.Json

open FleetCache.Text FleetCache.Number

/-- A value read from the front of a text, and the rest of the text. -/
abbrev Parsed (α : Type) := Except Fault (α × List Char)

def malformed {α : Type} : Except Fault α :=
  .error .badJson

def isJsonSpace (c : Char) : Bool :=
  c == ' ' || c == '\t' || c == '\n' || c == '\r'

def skipSpace (text : List Char) : List Char :=
  text.dropWhile isJsonSpace

def takeUnit : List Char → Option (Nat × List Char)
  | a :: b :: c :: d :: rest => do
    let a ← hexValue? a
    let b ← hexValue? b
    let c ← hexValue? c
    let d ← hexValue? d
    return (((a * 16 + b) * 16 + c) * 16 + d, rest)
  | _ => none

def shortEscape? (c : Char) : Option Char :=
  if c = '"' ∨ c = '\\' ∨ c = '/' then some c
  else if c = 'n' then some '\n'
  else if c = 'r' then some '\r'
  else if c = 't' then some '\t'
  else if c = 'b' then some (Char.ofNat 8)
  else if c = 'f' then some (Char.ofNat 12)
  else none

/-- The character of an escape by code units; the second half of a pair is read with the first. Half a pair on its own
is kept as it stands by the reader that this follows. It is no character, so here it becomes the replacement character,
and two texts with different halves in them can be read alike. -/
def takeEscaped (text : List Char) : Option (Char × List Char) := do
  let (high, rest) ← takeUnit text
  if 0xD800 ≤ high ∧ high < 0xDC00 then
    match rest with
    | '\\' :: 'u' :: more =>
      match takeUnit more with
      | some (low, after) =>
        if 0xDC00 ≤ low ∧ low < 0xE000 then
          return (Char.ofNat (0x10000 + (high - 0xD800) * 0x400 + (low - 0xDC00)), after)
        else return (Char.ofNat 0xFFFD, rest)
      | none => return (Char.ofNat 0xFFFD, rest)
    | _ => return (Char.ofNat 0xFFFD, rest)
  else if 0xDC00 ≤ high ∧ high < 0xE000 then return (Char.ofNat 0xFFFD, rest)
  else return (Char.ofNat high, rest)

def parseChars : Nat → List Char → Parsed (List Char)
  | 0, _ => malformed
  | _ + 1, [] => malformed
  | _ + 1, '"' :: rest => .ok ([], rest)
  | fuel + 1, '\\' :: 'u' :: rest =>
    match takeEscaped rest with
    | none => malformed
    | some (c, rest) => (parseChars fuel rest).map (fun (cs, rest) => (c :: cs, rest))
  | fuel + 1, '\\' :: e :: rest =>
    match shortEscape? e with
    | none => malformed
    | some c => (parseChars fuel rest).map (fun (cs, rest) => (c :: cs, rest))
  | fuel + 1, c :: rest =>
    if c.toNat < 0x20 ∨ c = '\\' then malformed
    else (parseChars fuel rest).map (fun (cs, rest) => (c :: cs, rest))

def parseString (text : List Char) : Parsed String :=
  (parseChars (text.length + 1) text).map (fun (cs, rest) => (String.ofList cs, rest))

def isAsciiDigit (c : Char) : Bool :=
  '0' ≤ c && c ≤ '9'

def takeExponent (text : List Char) : Int × List Char × Bool :=
  match text with
  | e :: rest =>
    if e = 'e' ∨ e = 'E' then
      let (negative, body) := signed rest
      let digits := body.takeWhile isAsciiDigit
      if digits.isEmpty then (0, text, false)
      else
        let n : Int := digitsValue digits
        (if negative then -n else n, body.dropWhile isAsciiDigit, true)
    else (0, text, false)
  | [] => (0, [], false)

def takeFractionDigits (text : List Char) : List Char × List Char :=
  match text with
  | '.' :: rest =>
    let digits := rest.takeWhile isAsciiDigit
    if digits.isEmpty then ([], text) else (digits, rest.dropWhile isAsciiDigit)
  | _ => ([], text)

/-- The digits of a whole number at the front of a text; a leading zero stands alone. -/
def takeWhole : List Char → List Char
  | '0' :: _ => ['0']
  | text => text.takeWhile isAsciiDigit

def parseNumber (negative : Bool) (text : List Char) : Parsed Value :=
  let whole := takeWhole text
  let (fraction, afterFraction) := takeFractionDigits (text.drop whole.length)
  let (exponent, rest, hasExponent) := takeExponent afterFraction
  if whole.isEmpty then malformed
  else if fraction.isEmpty && !hasExponent then
    if whole.length > maxDigits then .error (.longInteger whole.length)
    else
      let n : Int := digitsValue whole
      .ok (.int (if negative then -n else n), rest)
  else if exponent.natAbs > 400 then malformed
  else .ok (.decimal (.ofLiteral negative whole fraction exponent), rest)

def takeWord (word : String) (v : Value) (text : List Char) : Parsed Value :=
  if word.toList.isPrefixOf text then .ok (v, text.drop word.length) else malformed

mutual
def parseValue : Nat → List Char → Parsed Value
  | 0, _ => malformed
  | fuel + 1, text =>
    match text with
    | '"' :: rest => (parseString rest).map (fun (s, rest) => (.str s, rest))
    | '[' :: rest =>
      match skipSpace rest with
      | ']' :: rest => .ok (.list [], rest)
      | rest => (parseItems fuel rest).map (fun (items, rest) => (.list items, rest))
    | '\x7b' :: rest =>
      match skipSpace rest with
      | '\x7d' :: rest => .ok (.object [], rest)
      | rest => (parseMembers fuel rest).map (fun (pairs, rest) => (.object (Attributes.ofPairs pairs), rest))
    | '-' :: rest => parseNumber true rest
    | 't' :: _ => takeWord "true" (.bool true) text
    | 'f' :: _ => takeWord "false" (.bool false) text
    | 'n' :: _ => takeWord "null" .null text
    | _ => parseNumber false text

def parseItems : Nat → List Char → Parsed (List Value)
  | 0, _ => malformed
  | fuel + 1, text =>
    (parseValue fuel text).bind (fun (v, rest) =>
      match skipSpace rest with
      | ']' :: rest => .ok ([v], rest)
      | ',' :: rest => (parseItems fuel (skipSpace rest)).map (fun (items, rest) => (v :: items, rest))
      | _ => malformed)

def parseMembers : Nat → List Char → Parsed (List (Atom × Value))
  | 0, _ => malformed
  | fuel + 1, text =>
    match text with
    | '"' :: rest =>
      (parseString rest).bind (fun (name, rest) =>
        match skipSpace rest with
        | ':' :: rest =>
          (parseValue fuel (skipSpace rest)).bind (fun (v, rest) =>
            match skipSpace rest with
            | '\x7d' :: rest => .ok ([(.str name, v)], rest)
            | ',' :: rest =>
              (parseMembers fuel (skipSpace rest)).map (fun (pairs, rest) => ((.str name, v) :: pairs, rest))
            | _ => malformed)
        | _ => malformed)
    | _ => malformed
end

def parse (text : List Char) : Except Fault Value :=
  (parseValue (text.length + 1) (skipSpace text)).bind (fun (v, rest) =>
    if (skipSpace rest).isEmpty then .ok v else malformed)

def parseText (s : String) : Except Fault Value :=
  parse s.toList

end FleetCache.Json
