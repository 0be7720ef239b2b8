import NinjaPlan.Posix.Script.Syntax
import NinjaPlan.Posix.Text.Number

/-! # Expressions

The arithmetic of scripts: whole numbers of 64 bits that wrap around, variables that may be
assigned, and the operators of the usual precedence.  An expression is read from a text as a
whole and then evaluated; where its variables come from is left open.

A fault in the text becomes a part of the expression: what stands before it still has its effect,
and a fault is one even in a part whose value is not needed. -/

namespace NinjaPlan.Script

/-- An operator between two numbers. -/
inductive BinaryOp where
  | mul | div | rem | add | sub | shiftLeft | shiftRight | less | lessEqual | greater
  | greaterEqual | equal | notEqual | bitAnd | bitXor | bitOr
deriving DecidableEq

/-- An operator before a number. -/
inductive UnaryOp where
  | minus | not | complement
deriving DecidableEq

/-- An arithmetic expression. -/
inductive Expr where
  | number (n : Int)
  | var (name : Text)
  | unary (op : UnaryOp) (e : Expr)
  | binary (op : BinaryOp) (a b : Expr)
  | both (a b : Expr)
  | either (a b : Expr)
  | conditional (test yes no : Expr)
  /-- Assigns a value, or what an operator makes of the old value and another. -/
  | assign (name : Text) (op : Option BinaryOp) (e : Expr)
  /-- A place where something else was expected. -/
  | fault (expected : Text)
  /-- An expression, and a place behind it where something else was expected. -/
  | broken (e : Expr) (expected : Text)
deriving DecidableEq

namespace Expr

/-- The numbers of 64 bits, by which all others are taken. -/
def wrap (n : Int) : Int := n.bmod (Nat.pow 2 64)

def maxNumber : Int := Int.pow 2 63 - 1

/-- The number that a text spells, perhaps between blanks and with a sign; a blank text spells
zero.  A number that does not fit is none. -/
def ofText? (s : Text) : Option Int :=
  let (value, rest) := (Number.integerAt? s).getD (0, s)
  if rest.all Number.isSpace ∧ -maxNumber - 1 ≤ value ∧ value ≤ maxNumber then some value
  else none

/-! ### Tokens -/

/-- A token of an expression. -/
inductive Lexeme where
  | number (n : Int)
  | name (name : Text)
  | op (op : BinaryOp)
  | assign (op : Option BinaryOp)
  | bang
  | tilde
  | leftParen
  | rightParen
  | question
  | colon
  | bothOf
  | eitherOf
  /-- A character without a meaning. -/
  | stray
deriving DecidableEq

/-- How the operators are written, the longer before the shorter. -/
def spellings : List (String × Lexeme) := [
  ("<<=", .assign (some .shiftLeft)), (">>=", .assign (some .shiftRight)),
  ("*=", .assign (some .mul)), ("/=", .assign (some .div)), ("%=", .assign (some .rem)),
  ("+=", .assign (some .add)), ("-=", .assign (some .sub)), ("&=", .assign (some .bitAnd)),
  ("^=", .assign (some .bitXor)), ("|=", .assign (some .bitOr)), ("<<", .op .shiftLeft),
  (">>", .op .shiftRight), ("<=", .op .lessEqual), (">=", .op .greaterEqual),
  ("==", .op .equal), ("!=", .op .notEqual), ("&&", .bothOf), ("||", .eitherOf),
  ("*", .op .mul), ("/", .op .div), ("%", .op .rem), ("+", .op .add), ("-", .op .sub),
  ("<", .op .less), (">", .op .greater), ("&", .op .bitAnd), ("^", .op .bitXor),
  ("|", .op .bitOr), ("=", .assign none), ("!", .bang), ("~", .tilde), ("(", .leftParen),
  (")", .rightParen), ("?", .question), (":", .colon)]

/-- The operators, the longer before the shorter. -/
def operators : List (Text × Lexeme) := spellings.map fun (s, l) => (s.toList, l)

/-- The tokens of a text; the number bounds how many there are. -/
def lexemes : Nat → Text → List Lexeme
  | 0, _ => []
  | _, [] => []
  | fuel + 1, c :: cs =>
    if c = ' ' ∨ c = '\t' ∨ c = '\n' then lexemes fuel cs
    else if c.isDigit then
      let (n, rest) := Number.naturalAt (c :: cs)
      .number (min n maxNumber) :: lexemes fuel rest
    else if isNameStart c then
      .name ((c :: cs).takeWhile isNameChar) :: lexemes fuel ((c :: cs).dropWhile isNameChar)
    else
      match operators.find? fun o => o.1.isPrefixOf (c :: cs) with
      | some (text, l) => l :: lexemes fuel ((c :: cs).drop text.length)
      | none => .stray :: lexemes fuel cs

/-! ### Reading -/

/-- The rank of an operator; those of lower rank bind first. -/
def rank : BinaryOp → Nat
  | .mul | .div | .rem => 0
  | .add | .sub => 1
  | .shiftLeft | .shiftRight => 2
  | .less | .lessEqual | .greater | .greaterEqual => 3
  | .equal | .notEqual => 4
  | .bitAnd => 5
  | .bitXor => 6
  | .bitOr => 7

def lastRank : Nat := 7

/-- A reader of expressions: the expression at the start and the tokens behind it, of which there
are none behind a fault. -/
abbrev ExprReader := List Lexeme → Expr × List Lexeme

def noPrimary : Expr × List Lexeme := (.fault "expecting primary", [])

/-- Changes the expression that has been read. -/
def andThen (f : Expr → Expr) (found : Expr × List Lexeme) : Expr × List Lexeme :=
  (f found.1, found.2)

/-- Reads an expression without operators between numbers. -/
def primary (whole : ExprReader) : Nat → ExprReader
  | 0, _ => noPrimary
  | fuel + 1, tokens =>
    match tokens with
    | .leftParen :: rest =>
      match whole rest with
      | (e, .rightParen :: rest) => (e, rest)
      | (e, _) => (.broken e "expecting ')'", [])
    | .number n :: rest => (.number n, rest)
    | .name x :: rest => (.var x, rest)
    | .op .add :: rest => primary whole fuel rest
    | .op .sub :: rest => andThen (.unary .minus) (primary whole fuel rest)
    | .bang :: rest => andThen (.unary .not) (primary whole fuel rest)
    | .tilde :: rest => andThen (.unary .complement) (primary whole fuel rest)
    | _ => noPrimary

/-- Goes on with operators of a rank, whose operands `operand` reads. -/
def continueRank (operand : ExprReader) (r : Nat) : Nat → Expr → ExprReader
  | 0, a, tokens => (a, tokens)
  | fuel + 1, a, tokens =>
    match tokens with
    | .op op :: rest =>
      if rank op = r then
        let (b, rest) := operand rest
        continueRank operand r fuel (.binary op a b) rest
      else (a, tokens)
    | _ => (a, tokens)

/-- Reads an expression of operators below a rank. -/
def ofRank (whole : ExprReader) : Nat → ExprReader
  | 0, tokens => primary whole (tokens.length + 1) tokens
  | r + 1, tokens =>
    let (a, rest) := ofRank whole r tokens
    continueRank (ofRank whole r) r (rest.length + 1) a rest

def conjunction (whole : ExprReader) : Nat → ExprReader
  | 0, _ => noPrimary
  | fuel + 1, tokens =>
    match ofRank whole (lastRank + 1) tokens with
    | (a, .bothOf :: rest) => andThen (.both a) (conjunction whole fuel rest)
    | found => found

def disjunction (whole : ExprReader) : Nat → ExprReader
  | 0, _ => noPrimary
  | fuel + 1, tokens =>
    match conjunction whole (tokens.length + 1) tokens with
    | (a, .eitherOf :: rest) => andThen (.either a) (disjunction whole fuel rest)
    | found => found

def choice (whole : ExprReader) : Nat → ExprReader
  | 0, _ => noPrimary
  | fuel + 1, tokens =>
    match disjunction whole (tokens.length + 1) tokens with
    | (test, .question :: rest) =>
      match whole rest with
      | (yes, .colon :: rest) => andThen (.conditional test yes) (choice whole fuel rest)
      | (yes, _) => (.conditional test yes (.fault "expecting ':'"), [])
    | found => found

/-- Reads an expression; the fuel bounds the depth of parentheses. -/
def expression : Nat → ExprReader
  | 0, _ => noPrimary
  | fuel + 1, tokens =>
    match tokens with
    | .name x :: .assign op :: rest => andThen (.assign x op) (expression fuel rest)
    | _ => choice (expression fuel) (tokens.length + 1) tokens

/-- The expression that a text spells. -/
def parse (s : Text) : Expr :=
  let tokens := lexemes s.length s
  match expression (tokens.length + 1) tokens with
  | (e, []) => e
  | (e, _) => .broken e "expecting EOF"

/-! ### Values -/

/-- The number that stands for a truth. -/
def ofBool (b : Bool) : Int := if b then 1 else 0

/-- What an operator makes of two numbers; nothing comes of a division by zero. -/
def BinaryOp.apply? (op : BinaryOp) (a b : Int) : Option Int :=
  let bits (f : Nat → Nat → Nat) : Int :=
    wrap (f (a % Int.pow 2 64).toNat (b % Int.pow 2 64).toNat)
  let places : Nat := (b % 64).toNat
  match op with
  | .mul => some (wrap (a * b))
  | .div => if b = 0 then none else some (wrap (a.tdiv b))
  | .rem => if b = 0 then none else some (wrap (a.tmod b))
  | .add => some (wrap (a + b))
  | .sub => some (wrap (a - b))
  | .shiftLeft => some (wrap (a * Int.pow 2 places))
  | .shiftRight => some (a / Int.pow 2 places)
  | .less => some (ofBool (decide (a < b)))
  | .lessEqual => some (ofBool (decide (a ≤ b)))
  | .greater => some (ofBool (decide (b < a)))
  | .greaterEqual => some (ofBool (decide (b ≤ a)))
  | .equal => some (ofBool (decide (a = b)))
  | .notEqual => some (ofBool (decide (a ≠ b)))
  | .bitAnd => some (bits (· &&& ·))
  | .bitXor => some (bits (· ^^^ ·))
  | .bitOr => some (bits (· ||| ·))

/-- What an operator makes of a number. -/
def UnaryOp.apply (op : UnaryOp) (a : Int) : Int :=
  match op with
  | .minus => wrap (-a)
  | .not => ofBool (a == 0)
  | .complement => -a - 1

/-- Where an expression finds and leaves its variables. -/
structure Store (m : Type → Type) where
  read : Text → m Int
  write : Text → Int → m Unit
  /-- What a fault leads to. -/
  fail : Text → m Int

/-- The first fault in the text of an expression. -/
def firstFault : Expr → Option Text
  | fault expected => some expected
  | number _ | var _ => none
  | unary _ e | assign _ _ e => e.firstFault
  | binary _ a b | both a b | either a b => a.firstFault.or b.firstFault
  | conditional test yes no => (test.firstFault.or yes.firstFault).or no.firstFault
  | broken e expected => e.firstFault.or (some expected)

/-- Leaves out an expression whose value is not needed, unless there is a fault in it. -/
def leaveOut {m : Type → Type} [Monad m] (store : Store m) (e : Expr) (value : Int) : m Int :=
  match e.firstFault with
  | none => pure value
  | some expected => store.fail expected

/-- The value of an operation. -/
def operate {m : Type → Type} [Monad m] (store : Store m) (op : BinaryOp) (a b : Int) : m Int :=
  match BinaryOp.apply? op a b with
  | some n => pure n
  | none => store.fail "division by zero"

/-- The value of an expression. -/
def eval {m : Type → Type} [Monad m] (store : Store m) : Expr → m Int
  | number n => pure n
  | var x => store.read x
  | unary op e => return UnaryOp.apply op (← eval store e)
  | binary op a b => do
    let x ← eval store a
    let y ← eval store b
    operate store op x y
  | both a b => do
    if (← eval store a) == 0 then leaveOut store b 0
    else return ofBool ((← eval store b) != 0)
  | either a b => do
    if (← eval store a) != 0 then leaveOut store b 1
    else return ofBool ((← eval store b) != 0)
  | conditional test yes no => do
    if (← eval store test) != 0 then
      let n ← eval store yes
      leaveOut store no n
    else
      let _ ← leaveOut store yes 0
      eval store no
  | assign x op e => do
    let n ← eval store e
    let n ← match op with
      | none => pure n
      | some op => do operate store op (← store.read x) n
    store.write x n
    pure n
  | fault expected => store.fail expected
  | broken e expected => do
    let _ ← eval store e
    store.fail expected

end Expr
end NinjaPlan.Script
