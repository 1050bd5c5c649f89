import EnvLayers.Number.Binary64

/-
Module: EnvLayers.Yaml.Plain
Purpose: The kind of value that a scalar without quotes stands for: null, a truth value, an integer,
  a floating point number, and otherwise a text.
Main exports: Plain, Plain.read, Plain.isText
-/

namespace EnvLayers.Yaml

open Number (Binary64)

/-- The value of a scalar without quotes. An integer beyond 64 bits that still fits into 128 is told
apart, because documents cannot hold it. -/
inductive Plain where
  | null
  | bool (value : Bool)
  | int (value : Int)
  | wideInt
  | float (value : Binary64)
  | text
deriving Repr, DecidableEq, Inhabited

namespace Plain

def isNullWord (s : String) : Bool := ["null", "Null", "NULL", "~"].contains s

def boolWord? (s : String) : Option Bool :=
  if ["true", "True", "TRUE"].contains s then some true
  else if ["false", "False", "FALSE"].contains s then some false
  else none

/-- The value of a digit in a base up to sixteen. -/
def digit? (base : Nat) (c : Char) : Option Nat :=
  let value :=
    if c.isDigit then c.toNat - '0'.toNat
    else if 'a' ≤ c ∧ c ≤ 'f' then c.toNat - 'a'.toNat + 10
    else if 'A' ≤ c ∧ c ≤ 'F' then c.toNat - 'A'.toNat + 10
    else base
  if value < base then some value else none

/-- The number that digits after `start` stand for. -/
def readDigits (base start : Nat) : List Char → Option Nat
  | [] => some start
  | c :: rest => (digit? base c).bind fun d => readDigits base (start * base + d) rest

/-- A number of at least one digit. -/
def readNatural (base : Nat) (cs : List Char) : Option Nat :=
  if cs.isEmpty then none else readDigits base 0 cs

/-- Digits that are no number: more than one, the first of them a zero, after at most one sign. -/
def isPaddedDigits (cs : List Char) : Bool :=
  let unsigned :=
    match cs with
    | '-' :: rest => rest
    | '+' :: rest => rest
    | rest => rest
  1 < unsigned.length && unsigned.head? == some '0' && unsigned.all Char.isDigit

/-- The absolute value of an integer without its sign, in the base that its first characters name.
-/
def magnitude? (cs : List Char) : Option Nat :=
  match cs with
  | '0' :: 'x' :: rest => readNatural 16 rest
  | '0' :: 'o' :: rest => readNatural 8 rest
  | '0' :: 'b' :: rest => readNatural 2 rest
  | rest => if isPaddedDigits rest then none else readNatural 10 rest

/-- The integer that a scalar stands for. Numbers beyond 128 bits are none. -/
def integer? (cs : List Char) : Option Plain :=
  match cs with
  | '-' :: rest =>
    (magnitude? rest).bind fun n =>
      if n ≤ Nat.pow 2 63 then some (.int (-n))
      else if n ≤ Nat.pow 2 127 then some .wideInt
      else none
  | _ =>
    let rest :=
      match cs with
      | '+' :: rest => rest
      | rest => rest
    (magnitude? rest).bind fun n =>
      if n < Nat.pow 2 64 then some (.int n)
      else if n < Nat.pow 2 128 then some .wideInt
      else none

/-- The power of ten of a decimal number: an `e`, a sign that may be missing, and digits, or nothing
at all. -/
def exponent? (cs : List Char) : Option Int :=
  match cs with
  | [] => some 0
  | mark :: rest =>
    if mark == 'e' || mark == 'E' then
      match rest with
      | '-' :: digits => (readNatural 10 digits).map fun n => -(n : Int)
      | '+' :: digits => (readNatural 10 digits).map fun n => (n : Int)
      | digits => (readNatural 10 digits).map fun n => (n : Int)
    else none

/-- The decimal number without a sign that a scalar stands for, if it is finite. -/
def decimal? (negative : Bool) (cs : List Char) : Option Binary64 :=
  let whole := cs.takeWhile Char.isDigit
  let rest := cs.dropWhile Char.isDigit
  let (fraction, rest) :=
    match rest with
    | '.' :: rest => (rest.takeWhile Char.isDigit, rest.dropWhile Char.isDigit)
    | rest => ([], rest)
  (readNatural 10 (whole ++ fraction)).bind fun digits =>
    (exponent? rest).bind fun power =>
      let value := Binary64.ofDecimal negative digits (power - fraction.length)
      if value.isFinite then some value else none

/-- The floating point number that a scalar stands for. -/
def float? (s : String) : Option Binary64 :=
  if [".inf", ".Inf", ".INF", "+.inf", "+.Inf", "+.INF"].contains s then some (.infinite false)
  else if ["-.inf", "-.Inf", "-.INF"].contains s then some (.infinite true)
  else if [".nan", ".NaN", ".NAN"].contains s then some .nan
  else
    match s.toList with
    | '-' :: rest => decimal? true rest
    | '+' :: rest => decimal? false rest
    | rest => decimal? false rest

/-- The kind and value of a scalar without quotes. -/
def read (s : String) : Plain :=
  if s = "" || isNullWord s then .null
  else
    match boolWord? s with
    | some b => .bool b
    | none =>
      match integer? s.toList with
      | some plain => plain
      | none =>
        if isPaddedDigits s.toList then .text
        else
          match float? s with
          | some x => .float x
          | none => .text

/-- The scalar stands for its own characters. -/
def isText (s : String) : Bool := read s == .text

end Plain

end EnvLayers.Yaml
