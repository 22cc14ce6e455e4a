import Ebnf.Regex.ClassParser

/-!
# Reading regular expressions

Reads a whole text as a regular expression.

* `Level`: a group that is being read;
* `Ast.parse`: the expression that a text is, unless it is none or nests too deeply.
-/

namespace Ebnf.Regex

/-! ## 1. Groups in the making -/

/-- What a group is for. -/
inductive GroupKind where
  /-- The match is remembered. -/
  | capture
  /-- The group has flags of its own. -/
  | flags (items : List FlagItem)

/-- A group that is being read. -/
structure Level where
  /-- What the group is for. -/
  kind : GroupKind
  /-- Whether blanks and comments were passed over before the group. -/
  outerVerbose : Bool
  /-- The alternatives that are finished, the last one first. -/
  branches : List Ast := []
  /-- The parts of the alternative at hand, the last one first. -/
  parts : List Ast := []

namespace Level

/-- The alternative at hand. -/
def branch (l : Level) : Ast :=
  match l.parts with
  | [] => .empty
  | [part] => part
  | parts => .concat parts.reverse

/-- What has been read. -/
def content (l : Level) : Ast :=
  match l.branches with
  | [] => l.branch
  | branches => .alternation (branches.reverse ++ [l.branch])

/-- The group with one more part. -/
def push (l : Level) (part : Ast) : Level :=
  { l with parts := part :: l.parts }

/-- The group with another alternative begun. -/
def alternate (l : Level) : Level :=
  { l with branches := l.branch :: l.branches, parts := [] }

/-- The finished group. -/
def close (l : Level) : Ast :=
  match l.kind with
  | .capture => .capture l.content
  | .flags items => .group items l.content

/-- The group without its last part, and that part, if it can be repeated. -/
def popRepeatable (l : Level) : Parse (Level × Ast) :=
  match l.parts with
  | [] => throw .nothingToRepeat
  | .empty :: _ => throw .nothingToRepeat
  | .flags _ :: _ => throw .nothingToRepeat
  | part :: parts => return ({ l with parts }, part)

end Level

namespace Parser

open Input

/-! ## 2. Flags -/

/-- The flag that a letter stands for. -/
def flag? (c : Char) : Option Flag :=
  match c with
  | 'i' => some .ignoreCase
  | 'm' => some .multiLine
  | 's' => some .dotAll
  | 'U' => some .swapGreed
  | 'u' => some .unicode
  | 'R' => some .crlf
  | 'x' => some .verbose
  | _ => none

/-- Reads flags up to the end of their list. `negated` says whether a dash was passed, `dangling`
    whether it was the last character. Every step passes over a character. -/
def readFlags (items : List FlagItem) (negated dangling : Bool) : Nat → Parse (List FlagItem)
  | 0 => throw .badFlags
  | fuel + 1 => do
    let c ← peek .badFlags
    if c = ':' ∨ c = ')' then
      if dangling then throw .badFlags
      return items.reverse
    else if c = '-' then
      if negated then throw .badFlags
      bump
      readFlags items true true fuel
    else
      let some flag := flag? c | throw .badFlags
      if items.any (·.flag = flag) then throw .badFlags
      bump
      readFlags ({ flag, on := !negated } :: items) negated false fuel

/-- The last setting of a flag in a list. -/
def setting? (flag : Flag) (items : List FlagItem) : Option Bool :=
  (items.find? (·.flag = flag)).map FlagItem.on

/-! ## 3. Groups -/

/-- Whether a character may stand in the name of a group, at its start or later. -/
def isNameChar (atStart : Bool) (c : Char) : Bool :=
  if atStart then c = '_' || Unicode.isAlphabetic c
  else c = '_' || c = '.' || c = '[' || c = ']' || Unicode.isAlphanumeric c

/-- Reads the name of a group, which no other group may have. -/
def groupName : Parse Unit := do
  let i ← get
  let name := i.rest.takeWhile (· ≠ '>')
  if name.length = i.rest.length then throw .badGroupName
  match name with
  | [] => throw .badGroupName
  | c :: cs =>
    if !(isNameChar true c && cs.all (isNameChar false)) then throw .badGroupName
  if i.groupNames.contains name then throw .duplicateGroupName
  set { i with rest := i.rest.drop (name.length + 1), groupNames := name :: i.groupNames }

/-- What an opening bracket begins. -/
inductive Opening where
  /-- Flags for the rest of the group around. -/
  | flags (items : List FlagItem)
  /-- A group. -/
  | group (kind : GroupKind)

/-- Reads what begins a group; the cursor is at the bracket. -/
def opening : Parse Opening := do
  next
  for sign in ["?=", "?!", "?<=", "?<!"] do
    if ← accept sign then throw .notSupported
  if (← accept "?P<") || (← accept "?<") then
    groupName
    return .group .capture
  else if ← accept "?" then
    let items ← readFlags [] false false ((← get).rest.length + 1)
    let c ← peek .unclosedGroup
    bump
    if c = ')' then
      -- a list of flags may not be empty unless a group follows
      if items.isEmpty then throw .nothingToRepeat
      return .flags items
    else return .group (.flags items)
  else return .group .capture

/-! ## 4. Repetitions -/

/-- Reads a decimal number of 32 bits, with blanks around it. -/
def decimal : Parse Nat := do
  modify fun i => { i with rest := i.rest.dropWhile Unicode.isBlank }
  let digits ← Input.takeWhile Char.isDigit
  let _ ← Input.takeWhile Unicode.isBlank
  if digits.isEmpty then throw .badRepetition
  let n := number 10 Unicode.CharSet.hexDigit? digits
  if n < 4294967296 then return n else throw .badRepetition

/-- Reads the mark of a lazy repetition, and says whether it is there. -/
def lazyMark : Parse Bool := do
  if (← peek?) = some '?' then
    bump
    return true
  else return false

/-- Reads the bounds of a repetition; the cursor is at the bracket. -/
def bounds : Parse (Nat × Option Nat) := do
  nextOr .badRepetition
  let min ← decimal
  let c ← peek .badRepetition
  if c = ',' then
    nextOr .badRepetition
    if (← peek?) = some '\x7d' then return (min, none)
    let max ← decimal
    if max < min then throw .badRepetition
    return (min, some max)
  else return (min, some min)

/-- Reads a repetition with bounds; the cursor is at the bracket. -/
def counted : Parse Repetition := do
  let (min, max) ← bounds
  if (← peek?) ≠ some '\x7d' then throw .badRepetition
  next
  return { min, max, greedy := !(← lazyMark) }

/-- Reads a repetition written with one sign. -/
def signed (min : Nat) (max : Option Nat) : Parse Repetition := do
  bump
  return { min, max, greedy := !(← lazyMark) }

/-! ## 5. The whole text -/

/-- Reads something that is not made of parts. -/
def primitive : Parse Ast := do
  let c ← peek .unexpectedEnd
  match c with
  | '\\' =>
    match ← Escape.parse with
    | .literal l => return .literal l
    | .item i => return .charClass i
    | .assertion a => return .assertion a
  | '.' =>
    bump
    return .dot
  | '^' =>
    bump
    return .assertion .lineStart
  | '$' =>
    bump
    return .assertion .lineEnd
  | _ =>
    bump
    return .literal { char := c }

/-- Switches the passing over of blanks. -/
def setVerbose (verbose : Bool) : Parse Unit :=
  modify fun i => { i with verbose }

/-- Reads on in the group `level`, which stands in the groups `outer`, the innermost first. Every
    step passes over a character, so `fuel` may be one more than the length of the text. -/
def readParts (outer : List Level) (level : Level) : Nat → Parse Ast
  | 0 => throw .unexpectedEnd
  | fuel + 1 => do
    skipBlanks
    let some c ← peek?
      | if outer.isEmpty then return level.content else throw .unclosedGroup
    match c with
    | '(' =>
      let old := (← get).verbose
      match ← opening with
      | .flags items =>
        setVerbose ((setting? .verbose items).getD old)
        readParts outer (level.push (.flags items)) fuel
      | .group kind =>
        let items := match kind with
          | .capture => []
          | .flags items => items
        setVerbose ((setting? .verbose items).getD old)
        readParts (level :: outer) { kind, outerVerbose := old } fuel
    | ')' =>
      match outer with
      | [] => throw .unopenedGroup
      | around :: outer =>
        setVerbose level.outerVerbose
        bump
        readParts outer (around.push level.close) fuel
    | '|' =>
      bump
      readParts outer level.alternate fuel
    | '[' => readParts outer (level.push (.charClass (← parseClass))) fuel
    | '?' => repeatLast outer level fuel (signed 0 (some 1))
    | '*' => repeatLast outer level fuel (signed 0 none)
    | '+' => repeatLast outer level fuel (signed 1 none)
    | '\x7b' => repeatLast outer level fuel counted
    | _ => readParts outer (level.push (← primitive)) fuel
where
  /-- Repeats the last part and reads on. -/
  repeatLast (outer : List Level) (level : Level) (fuel : Nat) (read : Parse Repetition) :
      Parse Ast := do
    let (level, part) ← level.popRepeatable
    let r ← read
    readParts outer (level.push (.repeated r part)) fuel

end Parser

/-- How deep the parts of an expression may be nested. -/
def maxDepth : Nat := 250

/-- The expression that a text is. -/
def Ast.parse (text : String) : Except PatternError Ast := do
  let input : Input := { rest := text.toList }
  let level : Level := { kind := .capture, outerVerbose := false }
  let (ast, _) ← (Parser.readParts [] level (input.rest.length + 1)).run input
  if maxDepth < ast.depth then throw .tooNested
  return ast

end Ebnf.Regex
