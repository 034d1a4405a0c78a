import BasRelief.Document.Json.Token

/-!
# TOML texts

The four ways to write a text. Each reader starts after the opening quotes and gives the text
together with what follows the closing quotes.
-/

namespace BasRelief.Document.Toml

def isPlain (c : Char) : Bool := c = '\t' || (0x20 ≤ c.toNat && c.toNat ≠ 0x7F)

def skipBlanks (cs : List Char) : List Char := cs.dropWhile fun c => c = ' ' || c = '\t'

def lineEnd? : List Char → Option (List Char)
  | '\n' :: rest => some rest
  | '\r' :: '\n' :: rest => some rest
  | _ => none

def skipBlankLines : List Char → List Char
  | ' ' :: rest => skipBlankLines rest
  | '\t' :: rest => skipBlankLines rest
  | '\n' :: rest => skipBlankLines rest
  | '\r' :: '\n' :: rest => skipBlankLines rest
  | rest => rest

/-! ### Escapes -/

def hexNumber? (cs : List Char) : Option Nat :=
  cs.foldlM (fun n c => (Json.hexValue? c).map fun d => 16 * n + d) 0

def charOf? (n : Nat) : Option Char :=
  if n < 0xD800 ∨ (0xDFFF < n ∧ n < 0x110000) then some (Char.ofNat n) else none

def escape? : List Char → Option (Char × List Char)
  | 'b' :: rest => some ('\x08', rest)
  | 't' :: rest => some ('\t', rest)
  | 'n' :: rest => some ('\n', rest)
  | 'f' :: rest => some ('\x0c', rest)
  | 'r' :: rest => some ('\r', rest)
  | '"' :: rest => some ('"', rest)
  | '\\' :: rest => some ('\\', rest)
  | 'u' :: rest =>
    if rest.length < 4 then none
    else ((hexNumber? (rest.take 4)).bind charOf?).map fun c => (c, rest.drop 4)
  | 'U' :: rest =>
    if rest.length < 8 then none
    else ((hexNumber? (rest.take 8)).bind charOf?).map fun c => (c, rest.drop 8)
  | _ => none

/-! ### Texts on one line -/

/-- A text with escapes; every step takes a character, so the length of the input is enough fuel. -/
def basic : Nat → List Char → Option (List Char × List Char)
  | 0, _ => none
  | _, [] => none
  | fuel + 1, c :: cs =>
    if c = '"' then some ([], cs)
    else if c = '\\' then
      (escape? cs).bind fun (d, rest) =>
        (basic fuel rest).map fun (text, rest) => (d :: text, rest)
    else if isPlain c then (basic fuel cs).map fun (text, rest) => (c :: text, rest)
    else none

def literal (cs : List Char) : Option (List Char × List Char) :=
  let text := cs.takeWhile fun c => c ≠ '\'' && isPlain c
  match cs.drop text.length with
  | '\'' :: rest => some (text, rest)
  | _ => none

/-! ### Texts over several lines -/

def withoutFirstLineEnd (cs : List Char) : List Char := (lineEnd? cs).getD cs

/-- The closing quotes: three, with up to two more before them that belong to the text. -/
def closing? (quote : Char) (cs : List Char) : Option (List Char × List Char) :=
  if cs.take 3 = [quote, quote, quote] then
    match cs.drop 3 with
    | a :: b :: rest =>
      if a = quote then
        if b = quote then some ([quote, quote], rest) else some ([quote], b :: rest)
      else some ([], a :: b :: rest)
    | [a] => if a = quote then some ([quote], []) else some ([], [a])
    | [] => some ([], [])
  else none

/-- The text goes on after a backslash at the end of a line, its line end and all blanks. -/
def afterContinuation? (cs : List Char) : Option (List Char) :=
  (lineEnd? (skipBlanks cs)).map skipBlankLines

def multiBasic : Nat → List Char → Option (List Char × List Char)
  | 0, _ => none
  | _, [] => none
  | fuel + 1, c :: cs =>
    match closing? '"' (c :: cs), lineEnd? (c :: cs) with
    | some result, _ => some result
    | none, some rest => (multiBasic fuel rest).map fun (text, rest) => ('\n' :: text, rest)
    | none, none =>
      if c = '\\' then
        match afterContinuation? cs with
        | some rest => multiBasic fuel rest
        | none => (escape? cs).bind fun (d, rest) =>
          (multiBasic fuel rest).map fun (text, rest) => (d :: text, rest)
      else if isPlain c then (multiBasic fuel cs).map fun (text, rest) => (c :: text, rest)
      else none

def multiLiteral : Nat → List Char → Option (List Char × List Char)
  | 0, _ => none
  | _, [] => none
  | fuel + 1, c :: cs =>
    match closing? '\'' (c :: cs), lineEnd? (c :: cs) with
    | some result, _ => some result
    | none, some rest => (multiLiteral fuel rest).map fun (text, rest) => ('\n' :: text, rest)
    | none, none =>
      if isPlain c then (multiLiteral fuel cs).map fun (text, rest) => (c :: text, rest)
      else none

def text? (cs : List Char) : Option (List Char × List Char) :=
  match cs with
  | '"' :: '"' :: '"' :: rest => multiBasic cs.length (withoutFirstLineEnd rest)
  | '"' :: rest => basic cs.length rest
  | '\'' :: '\'' :: '\'' :: rest => multiLiteral cs.length (withoutFirstLineEnd rest)
  | '\'' :: rest => literal rest
  | _ => none

end BasRelief.Document.Toml
