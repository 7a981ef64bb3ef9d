import Vissr.Text

/-! JSON texts as `encoding/json` scans them. A `Raw` keeps all of a text but the space between its
elements, and carries the proof that it is written correctly. -/

namespace Vissr.Json

variable (c : Char)

def isSpace : Bool := c = ' ' || c = '\t' || c = '\r' || c = '\n'

variable (s : Str)

def skipSpace : Str := s.dropWhile isSpace

def isHex : Bool :=
  isDigit c || (decide ('a' ≤ c) && decide (c ≤ 'f')) || (decide ('A' ≤ c) && decide (c ≤ 'F'))

abbrev HexDigit := {c : Char // isHex c = true}

def isPlain : Bool := c ≠ '"' && c ≠ '\\' && decide (0x20 ≤ c.toNat)

def isShort : Bool :=
  c = '"' || c = '\\' || c = '/' || c = 'b' || c = 'f' || c = 'n' || c = 'r' || c = 't'

inductive Elem where
  | plain (c : {c : Char // isPlain c = true})
  | short (c : {c : Char // isShort c = true})
  | unicode (a b c d : HexDigit)
  deriving DecidableEq

def Elem.render : Elem → Str
  | .plain c => [c.1]
  | .short c => ['\\', c.1]
  | .unicode a b c d => ['\\', 'u', a.1, b.1, c.1, d.1]

def renderElems (es : List Elem) : Str := es.flatMap Elem.render

def quoted (es : List Elem) : Str := '"' :: renderElems es ++ ['"']

def isNumChar : Bool := isDigit c || c = '-' || c = '+' || c = '.' || c = 'e' || c = 'E'

def expOk : Str → Bool
  | [] => true
  | c :: s =>
    (c = 'e' || c = 'E') &&
      (match s with
       | '+' :: s | '-' :: s | s => s ≠ [] && s.all isDigit)

def fracOk : Str → Bool
  | '.' :: s => (match s with | c :: _ => isDigit c | [] => false) && expOk (s.dropWhile isDigit)
  | s => expOk s

def intOk : Str → Bool
  | '0' :: s => fracOk s
  | c :: s => isDigit c && fracOk (s.dropWhile isDigit)
  | [] => false

/-- The grammar of a JSON number. -/
def isNumber : Str → Bool
  | '-' :: s => intOk s
  | s => intOk s

abbrev NumLit := {s : Str // s.all isNumChar = true ∧ isNumber s = true}

inductive Raw where
  | null
  | bool (b : Bool)
  | num (lit : NumLit)
  | str (es : List Elem)
  | arr (xs : List Raw)
  | obj (ms : List (List Elem × Raw))

def scanString : Str → Option (List Elem × Str)
  | [] => none
  | c :: s =>
    if c = '"' then some ([], s)
    else if c = '\\' then
      match s with
      | 'u' :: h1 :: h2 :: h3 :: h4 :: s =>
        if hex : isHex h1 = true ∧ isHex h2 = true ∧ isHex h3 = true ∧ isHex h4 = true then
          (scanString s).map fun p =>
            (.unicode ⟨h1, hex.1⟩ ⟨h2, hex.2.1⟩ ⟨h3, hex.2.2.1⟩ ⟨h4, hex.2.2.2⟩ :: p.1, p.2)
        else none
      | e :: s =>
        if short : isShort e = true then
          (scanString s).map fun p => (.short ⟨e, short⟩ :: p.1, p.2)
        else none
      | [] => none
    else if plain : isPlain c = true then
      (scanString s).map fun p => (.plain ⟨c, plain⟩ :: p.1, p.2)
    else none

/-- A number runs as far as its characters do. -/
def scanNumber : Option (NumLit × Str) :=
  if number : isNumber (s.takeWhile isNumChar) = true then
    some (⟨s.takeWhile isNumChar, List.all_takeWhile, number⟩, s.dropWhile isNumChar)
  else none

def scanWord (word : Str) (value : Raw) (s : Str) : Option (Raw × Str) :=
  if word.isPrefixOf s then some (value, s.drop word.length) else none

mutual

/-- `depth` is what is left of the nesting limit; `fuel` bounds the calls, and the length of the
text is enough. -/
def parseValue : Nat → Nat → Str → Option (Raw × Str)
  | 0, _, _ => none
  | fuel + 1, depth, s =>
    match skipSpace s with
    | [] => none
    | c :: s =>
      if c = '"' then (scanString s).map fun p => (.str p.1, p.2)
      else if c = '[' then
        match depth with
        | 0 => none
        | depth + 1 =>
          match skipSpace s with
          | ']' :: s => some (.arr [], s)
          | s => (parseElems fuel depth s).map fun p => (.arr p.1, p.2)
      else if c = '\x7b' then
        match depth with
        | 0 => none
        | depth + 1 =>
          match skipSpace s with
          | '\x7d' :: s => some (.obj [], s)
          | s => (parseMembers fuel depth s).map fun p => (.obj p.1, p.2)
      else if c = 't' then scanWord "rue" (.bool true) s
      else if c = 'f' then scanWord "alse" (.bool false) s
      else if c = 'n' then scanWord "ull" .null s
      else (scanNumber (c :: s)).map fun p => (.num p.1, p.2)

def parseElems : Nat → Nat → Str → Option (List Raw × Str)
  | 0, _, _ => none
  | fuel + 1, depth, s =>
    match parseValue fuel depth s with
    | none => none
    | some (x, s) =>
      match skipSpace s with
      | ',' :: s => (parseElems fuel depth s).map fun p => (x :: p.1, p.2)
      | ']' :: s => some ([x], s)
      | _ => none

def parseMembers : Nat → Nat → Str → Option (List (List Elem × Raw) × Str)
  | 0, _, _ => none
  | fuel + 1, depth, s =>
    match skipSpace s with
    | '"' :: s =>
      match scanString s with
      | none => none
      | some (k, s) =>
        match skipSpace s with
        | ':' :: s =>
          match parseValue fuel depth s with
          | none => none
          | some (v, s) =>
            match skipSpace s with
            | ',' :: s => (parseMembers fuel depth s).map fun p => ((k, v) :: p.1, p.2)
            | '\x7d' :: s => some ([(k, v)], s)
            | _ => none
        | _ => none
    | _ => none

end

/-- The nesting `encoding/json` allows. -/
def maxNestingDepth : Nat := 10000

/-- The first value, as a stream decoder reads it, and what follows. -/
def parse : Option (Raw × Str) := parseValue s.length maxNestingDepth s

/-- A text that is one value, as `json.Unmarshal` wants it. -/
def parseAll : Option Raw :=
  match parse s with
  | some (w, rest) => if skipSpace rest = [] then some w else none
  | none => none

mutual

def Raw.render : Raw → Str
  | .null => "null"
  | .bool true => "true"
  | .bool false => "false"
  | .num lit => lit.1
  | .str es => quoted es
  | .arr [] => "[]"
  | .arr (x :: xs) => '[' :: x.render ++ renderRest xs
  | .obj [] => "\x7b\x7d"
  | .obj ((k, v) :: ms) => '\x7b' :: quoted k ++ ':' :: v.render ++ renderMore ms

def renderRest : List Raw → Str
  | [] => [']']
  | x :: xs => ',' :: x.render ++ renderRest xs

def renderMore : List (List Elem × Raw) → Str
  | [] => ['\x7d']
  | (k, v) :: ms => ',' :: quoted k ++ ':' :: v.render ++ renderMore ms

end

example : (parseAll "\x7b \"a\" : [1, -2.5e3 ,true] \x7d ").map Raw.render =
    some "\x7b\"a\":[1,-2.5e3,true]\x7d" := by decide +kernel

end Vissr.Json
