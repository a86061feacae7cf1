import RandExpr.Document.Yaml.Token

/-!
# Reading the tokens of YAML

The tokens of a YAML text, among them those that only the columns tell: where a block collection
starts and ends, and which scalars and collections are keys.

## The model

The machine (`Lexer`) keeps the columns of the open block collections, innermost first, and a level
(`Level`) for the text outside flow collections and for each open flow collection. A token that
stands to the left of a column ends the block collection of that column, unless a flow collection is
open. Whatever may turn out to be a key is remembered as the candidate of its level, together with
the tokens behind it: a `:` on the same line, at most `maxKeyBytes` farther, makes it a key, and
anything else gives it up. A candidate in the column of a block mapping has to be a key.

Keys and items of block collections may start at the start of a line and behind `-`, `?` and a `:`
with no key before it (`keyAllowed`). There, tabs are no white space, since columns count.
-/

namespace RandExpr.Yaml

/-- How many bytes there may be from the start of a key to its `:`. -/
def maxKeyBytes : Nat := 1024

/-- What may turn out to be a key. -/
structure Candidate where
  /-- Where it starts. -/
  start : Placed
  /-- Whether it has to be a key. -/
  required : Bool
  deriving DecidableEq, Repr

/-- Whether a `:` makes a candidate a key. -/
def Candidate.reaches (c : Candidate) (colon : Placed) : Bool :=
  colon.line == c.start.line && decide (colon.offset ≤ c.start.offset + maxKeyBytes)

/-- The tokens read outside flow collections, or inside one of them. -/
structure Level where
  /-- The tokens before the candidate, last first. -/
  tokens : List Token := []
  /-- What may turn out to be a key. -/
  candidate : Option Candidate := none
  /-- The tokens from the candidate on, last first. -/
  since : List Token := []
  deriving DecidableEq, Repr

namespace Level

/-- All tokens of a level, last first. -/
def all (l : Level) : List Token := l.since ++ l.tokens

/-- A level with further tokens, given last first. -/
def extend (l : Level) (ts : List Token) : Level :=
  match l.candidate with
  | none => { l with tokens := ts ++ l.tokens }
  | some _ => { l with since := ts ++ l.since }

/-- A level with a further token. -/
def emit (l : Level) (t : Token) : Level := l.extend [t]

/-- A level whose candidate is given up. -/
def settle? (l : Level) : Option Level :=
  if l.candidate.any Candidate.required then none else some { tokens := l.all }

end Level

/-- The machine that reads tokens. -/
structure Lexer where
  /-- The level that is being read. -/
  level : Level := {}
  /-- The levels around it, innermost first. -/
  outer : List Level := []
  /-- The columns of the open block collections, innermost first. -/
  columns : List Nat := []
  /-- Whether a key may start here. -/
  keyAllowed : Bool := true
  deriving DecidableEq, Repr

namespace Lexer

/-- Whether a flow collection is open. -/
def inFlow (s : Lexer) : Bool := !s.outer.isEmpty

/-- How far the further lines of a plain scalar are indented, at least. -/
def indent (s : Lexer) : Nat :=
  match s.columns with
  | [] => 0
  | col :: _ => col + 1

/-- The machine with a further token. -/
def emit (s : Lexer) (t : Token) : Lexer := { s with level := s.level.emit t }

/-- Gives the candidate up. -/
def settle? (s : Lexer) : Option Lexer := s.level.settle?.map fun level => { s with level }

/-- Ends the block collections to the right of a column, or all. -/
def unwind (s : Lexer) (limit : Option Nat) : Lexer :=
  let beyond (col : Nat) : Bool := limit.all (· < col)
  if s.inFlow then s
  else { s with
    level := s.level.extend ((s.columns.takeWhile beyond).map fun _ => .blockEnd)
    columns := s.columns.dropWhile beyond }

/-- Whether a block collection starts in a column. -/
def startsBlock (s : Lexer) (col : Nat) : Bool := !s.inFlow && s.columns.head?.all (· < col)

/-- Starts a block collection in a column, if none stands there. -/
def startBlock (s : Lexer) (col : Nat) (t : Token) : Lexer :=
  if s.startsBlock col then { s.emit t with columns := col :: s.columns } else s

/-- Makes what starts here the candidate, where a key may start. -/
def save? (s : Lexer) (p : Placed) : Option Lexer :=
  if s.keyAllowed then s.level.settle?.map fun level =>
    { s with level := { level with
        candidate := some ⟨p, !s.inFlow && s.columns.head? == some p.col⟩ } }
  else some s

/-- Reads a mark of a document. -/
def documentMark (s : Lexer) (t : Token) : Option Lexer :=
  (s.unwind none).settle?.map fun s => { s with keyAllowed := false }.emit t

/-- Reads the opening of a flow collection. -/
def openFlow (s : Lexer) (p : Placed) (t : Token) : Option Lexer :=
  (s.save? p).map fun s =>
    { s with level := {}, outer := s.level.emit t :: s.outer, keyAllowed := true }

/-- Reads the closing of a flow collection. -/
def closeFlow (s : Lexer) (t : Token) : Option Lexer :=
  s.settle?.map fun s =>
    match s.outer with
    | [] => { s with keyAllowed := false }.emit t
    | level :: outer =>
      { s with level := level.extend (t :: s.level.tokens), outer, keyAllowed := false }

/-- Reads the comma behind an item of a flow collection. -/
def comma (s : Lexer) : Option Lexer :=
  s.settle?.map fun s => { s with keyAllowed := true }.emit .comma

/-- Reads the mark of an item of a block sequence. -/
def dash (s : Lexer) (p : Placed) : Option Lexer :=
  if s.inFlow ∨ s.keyAllowed then
    (s.startBlock p.col .blockSequence).settle?.map fun s =>
      { s with keyAllowed := true }.emit .dash
  else none

/-- Reads a `?` before a key. -/
def key (s : Lexer) (p : Placed) : Option Lexer :=
  if s.inFlow ∨ s.keyAllowed then
    (s.startBlock p.col .blockMapping).settle?.map fun s =>
      { s with keyAllowed := !s.inFlow }.emit .key
  else none

/-- Reads a `:` that makes the candidate a key. -/
def valueOf (s : Lexer) (c : Candidate) : Lexer :=
  let starts := s.startsBlock c.start.col
  { s with
    level := { tokens := .value :: (s.level.since ++
      .key :: ((if starts then [.blockMapping] else []) ++ s.level.tokens)) }
    columns := if starts then c.start.col :: s.columns else s.columns
    keyAllowed := false }

/-- Reads a `:` behind which something stands under a key. -/
def value (s : Lexer) (p : Placed) : Option Lexer :=
  match s.level.candidate.filter fun c => c.reaches p with
  | some c => some (s.valueOf c)
  | none => do
    let s ← s.settle?
    if s.inFlow then some ({ s with keyAllowed := false }.emit .value)
    else if s.keyAllowed then some ((s.startBlock p.col .blockMapping).emit .value)
    else none

/-- Reads the token that starts here. -/
def step (s : Lexer) (p : Placed) (ps : List Placed) : Option (Lexer × List Placed) :=
  if markAhead '-' (p :: ps) then (s.documentMark .documentStart).map (·, ps.drop 2)
  else if markAhead '.' (p :: ps) then (s.documentMark .documentEnd).map (·, ps.drop 2)
  else if p.char = '[' then (s.openFlow p .openSequence).map (·, ps)
  else if p.char = '\x7b' then (s.openFlow p .openMapping).map (·, ps)
  else if p.char = ']' then (s.closeFlow .closeSequence).map (·, ps)
  else if p.char = '\x7d' then (s.closeFlow .closeMapping).map (·, ps)
  else if p.char = ',' then s.comma.map (·, ps)
  else if p.char = '-' ∧ gapAhead ps then (s.dash p).map (·, ps)
  else if p.char = '?' ∧ (s.inFlow ∨ gapAhead ps) then (s.key p).map (·, ps)
  else if p.char = ':' ∧ (s.inFlow ∨ gapAhead ps) then (s.value p).map (·, ps)
  else if p.char = '\'' ∨ p.char = '"' then do
    let s ← s.save? p
    let (scalar, rest) ← if p.char = '"' then doubleQuoted [] .empty .none ps
      else singleQuoted [] .empty ps
    some ({ s with keyAllowed := false }.emit (.scalar scalar), rest)
  else if startsPlain s.inFlow p.char ps then do
    let s ← s.save? p
    let plain ← plainScalar s.inFlow s.indent [] .empty (p :: ps)
    some ({ s with keyAllowed := plain.broken }.emit (.scalar ⟨false, plain.chars⟩), plain.rest)
  else none

/-- The tokens, when the text ends here. -/
def finish (s : Lexer) : Option (List Token) :=
  if s.inFlow then none else (s.unwind none).level.settle?.map fun level => level.tokens.reverse

/-- Skips white space, comments and line breaks up to the next token, and says whether a key may
start there. A byte order mark may start a line. -/
def toToken (flow : Bool) : (keyAllowed comment : Bool) → List Placed → Bool × List Placed
  | keyAllowed, _, [] => (keyAllowed, [])
  | keyAllowed, comment, p :: ps =>
    if isBreak p.char then toToken flow (keyAllowed || !flow) false ps
    else if comment then toToken flow keyAllowed true ps
    else if p.char = ' ' ∨ (p.char = '\t' ∧ (flow ∨ !keyAllowed)) ∨
        (p.char = '\ufeff' ∧ p.col = 0) then
      toToken flow keyAllowed false ps
    else if p.char = '#' then toToken flow keyAllowed true ps
    else (keyAllowed, p :: ps)

/-- Reads at most `steps` tokens. -/
def run : (steps : Nat) → Lexer → List Placed → Option (List Token)
  | 0, _, _ => none
  | steps + 1, s, ps =>
    let (keyAllowed, rest) := toToken s.inFlow s.keyAllowed false ps
    let s := { s with keyAllowed }
    match rest with
    | [] => s.finish
    | p :: ps => do
      let (s, rest) ← (s.unwind (some p.col)).step p ps
      run steps s rest

end Lexer

/-- The tokens of a YAML text. -/
def Token.ofText? (text : String) : Option (List Token) :=
  let chars := text.toList
  if chars.all isAllowed then Lexer.run (chars.length + 1) {} (place 0 0 0 chars) else none

end RandExpr.Yaml
