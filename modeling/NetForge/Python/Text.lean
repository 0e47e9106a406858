import NetForge.Python.Error
import Mathlib.Algebra.Order.Field.Rat

/-! # Text operations

The `str` methods the program uses, and the crossing between integers and their
decimal text with the interpreter's limit on its length.
-/

namespace NetForge.Python

def stripChar (c : Char) (s : String) : String :=
  String.ofList (((s.toList.dropWhile (· = c)).reverse.dropWhile (· = c)).reverse)

def splitList (sep : Char) : List Char → List (List Char)
  | [] => [[]]
  | c :: cs =>
      if c = sep then [] :: splitList sep cs
      else
        match splitList sep cs with
        | [] => [[c]]
        | piece :: pieces => (c :: piece) :: pieces

/-- `s.split(sep)` for one character. -/
def splitChar (sep : Char) (s : String) : List String :=
  (splitList sep s.toList).map String.ofList

/-- The characters whose lowercase form has an ASCII letter in it. -/
def lowerChar (c : Char) : List Char :=
  if c = '\u212A' then ['k']
  else if c = '\u0130' then ['i', '\u0307']
  else [c.toLower]

/-- `s.lower()`; further letters beyond ASCII are left as they are. -/
def lower (s : String) : String := String.ofList (s.toList.flatMap lowerChar)

def isSubtext (piece : List Char) : List Char → Bool
  | [] => piece.isEmpty
  | c :: cs => piece.isPrefixOf (c :: cs) || isSubtext piece cs

def containsText (piece s : String) : Bool := isSubtext piece.toList s.toList

/-- One character of `repr(s)` inside the quotes `quote`. -/
def reprChar (quote c : Char) : List Char :=
  if c = '\\' ∨ c = quote then ['\\', c]
  else if c = '\n' then ['\\', 'n']
  else if c = '\r' then ['\\', 'r']
  else if c = '\t' then ['\\', 't']
  else if c.toNat < 0x20 ∨ c.toNat = 0x7f then
    ['\\', 'x', Nat.digitChar (c.toNat / 16), Nat.digitChar (c.toNat % 16)]
  else [c]

/-- `repr(s)`; characters beyond ASCII are taken as printable. -/
def strRepr (s : String) : String :=
  let quote := if '\'' ∈ s.toList ∧ '"' ∉ s.toList then '"' else '\''
  String.ofList ([quote] ++ s.toList.flatMap (reprChar quote) ++ [quote])

/-! ## Integers as text -/

/-- `sys.int_info.default_max_str_digits`. -/
def maxStrDigits : Nat := 4300

/-- The code points of decimal value zero; the nine that follow each are the
other digits of that script. -/
def decimalZeros : List Nat :=
  [0x30, 0x660, 0x6f0, 0x7c0, 0x966, 0x9e6, 0xa66, 0xae6, 0xb66, 0xbe6, 0xc66, 0xce6, 0xd66,
    0xde6, 0xe50, 0xed0, 0xf20, 0x1040, 0x1090, 0x17e0, 0x1810, 0x1946, 0x19d0, 0x1a80, 0x1a90,
    0x1b50, 0x1bb0, 0x1c40, 0x1c50, 0xa620, 0xa8d0, 0xa900, 0xa9d0, 0xa9f0, 0xaa50, 0xabf0,
    0xff10, 0x104a0, 0x10d30, 0x11066, 0x110f0, 0x11136, 0x111d0, 0x112f0, 0x11450, 0x114d0,
    0x11650, 0x116c0, 0x11730, 0x118e0, 0x11950, 0x11c50, 0x11d50, 0x11da0, 0x16a60, 0x16ac0,
    0x16b50, 0x1d7ce, 0x1d7d8, 0x1d7e2, 0x1d7ec, 0x1d7f6, 0x1e140, 0x1e2f0, 0x1e950, 0x1fbf0]

def decimalValue (c : Char) : Option Nat :=
  (decimalZeros.find? fun z => z ≤ c.toNat ∧ c.toNat < z + 10).map (c.toNat - ·)

/-- The digits that are no decimal digits: superscripts, circled numbers and the like, as first
and last code points of their runs. -/
def digitRanges : List (Nat × Nat) :=
  [(0xb2, 0xb3), (0xb9, 0xb9), (0x1369, 0x1371), (0x19da, 0x19da), (0x2070, 0x2070),
    (0x2074, 0x2079), (0x2080, 0x2089), (0x2460, 0x2468), (0x2474, 0x247c), (0x2488, 0x2490),
    (0x24ea, 0x24ea), (0x24f5, 0x24fd), (0x24ff, 0x24ff), (0x2776, 0x277e), (0x2780, 0x2788),
    (0x278a, 0x2792), (0x10a40, 0x10a43), (0x10e60, 0x10e68), (0x11052, 0x1105a),
    (0x1f100, 0x1f10a)]

/-- `s.isdigit()`. -/
def isDigitText (s : String) : Bool :=
  s ≠ "" && s.toList.all fun c =>
    (decimalValue c).isSome || digitRanges.any fun r => r.1 ≤ c.toNat && c.toNat ≤ r.2

/-- `s.lstrip(c)` for one character. -/
def lstripChar (c : Char) (s : String) : String := String.ofList (s.toList.dropWhile (· = c))

/-- What `int` skips around a literal. -/
def isIntSpace (c : Char) : Bool :=
  let n := c.toNat
  (9 ≤ n && n ≤ 13) || n == 0x20 || n == 0x85 || n == 0xa0 || n == 0x1680 ||
    (0x2000 ≤ n && n ≤ 0x200a) || n == 0x2028 || n == 0x2029 || n == 0x202f || n == 0x205f ||
    n == 0x3000

/-- What `str.strip` removes at both ends: the separators of ASCII as well. -/
def isSpace (c : Char) : Bool := isIntSpace c || (0x1c ≤ c.toNat && c.toNat ≤ 0x1f)

def strip (s : String) : String :=
  String.ofList (((s.toList.dropWhile isSpace).reverse.dropWhile isSpace).reverse)

/-- The digits of a literal; one underscore may stand between two digits. -/
def digitsOf : List Char → Option (List Nat)
  | [] => some []
  | '_' :: c :: cs => do
      let d ← decimalValue c
      let ds ← digitsOf cs
      return d :: ds
  | c :: cs => do
      let d ← decimalValue c
      let ds ← digitsOf cs
      return d :: ds

def unsignedLiteral (cs : List Char) : Option (List Nat) :=
  match cs with
  | [] => none
  | '_' :: _ => none
  | cs => digitsOf cs

def ofDigits (ds : List Nat) : Nat := ds.foldl (fun n d => n * 10 + d) 0

def signedLiteral : List Char → Option (Bool × List Nat)
  | '-' :: cs => (unsignedLiteral cs).map (true, ·)
  | '+' :: cs => (unsignedLiteral cs).map (false, ·)
  | cs => (unsignedLiteral cs).map (false, ·)

def int (s : String) : Except PyError Int :=
  let body := ((s.toList.dropWhile isIntSpace).reverse.dropWhile isIntSpace).reverse
  match signedLiteral body with
  | none => .error (.valueError "invalid literal for int() with base 10")
  | some (negative, ds) =>
      if maxStrDigits < ds.length then
        .error (.valueError "Exceeds the limit (4300 digits) for integer string conversion")
      else .ok (if negative then -(ofDigits ds : Int) else ofDigits ds)

def str (v : Int) : Except PyError String :=
  if 10 ^ maxStrDigits ≤ v.natAbs then
    .error (.valueError "Exceeds the limit (4300 digits) for integer string conversion")
  else .ok (toString v)

/-! ## Decimal fractions -/

/-- Digits before or after the point, where there may be none. -/
def optionalDigits (cs : List Char) : Option (List Nat) :=
  if cs = [] then some [] else unsignedLiteral cs

/-- An unsigned decimal literal without exponent: its digits and how many of them
stand after the point. -/
def mantissa (cs : List Char) : Option (List Nat × Nat) := do
  let whole := cs.takeWhile (· ≠ '.')
  let fraction := (cs.dropWhile (· ≠ '.')).drop 1
  let ds ← optionalDigits whole
  let fs ← optionalDigits fraction
  if ds = [] ∧ fs = [] then none else some (ds ++ fs, fs.length)

def exponentOf (cs : List Char) : Option Int :=
  match cs with
  | [] => some 0
  | _ :: digits =>
      (signedLiteral digits).map fun (negative, ds) =>
        if negative then -(ofDigits ds : Int) else ofDigits ds

def unsignedDecimal (cs : List Char) : Option Rat := do
  let isMark (c : Char) : Bool := c = 'e' || c = 'E'
  let (ds, fractionDigits) ← mantissa (cs.takeWhile (! isMark ·))
  let e ← exponentOf (cs.dropWhile (! isMark ·))
  return (ofDigits ds : Rat) * 10 ^ (e - (fractionDigits : Int))

/-- `float(s)`; the texts of infinities and of not-a-number are refused. -/
def floatOfText (s : String) : Except PyError Rat :=
  let body := ((s.toList.dropWhile isIntSpace).reverse.dropWhile isIntSpace).reverse
  let value :=
    match body with
    | '-' :: cs => (unsignedDecimal cs).map (- ·)
    | '+' :: cs => unsignedDecimal cs
    | cs => unsignedDecimal cs
  match value with
  | some q => .ok q
  | none => .error (.valueError "could not convert string to float")

example : floatOfText "-1.5e1" = .ok (-15) ∧ floatOfText "." ≠ .ok 0 := by decide +kernel

example : int " -1_0 " = .ok (-10) ∧ splitChar '.' "1..3" = ["1", "", "3"] := by decide +kernel

end NetForge.Python
