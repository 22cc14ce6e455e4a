/-!
# What can be wrong with a regular expression

`PatternError` lists the causes, with what is said about each.
-/

namespace Ebnf.Regex

/-- Why a text is no regular expression. -/
inductive PatternError where
  /-- The text ends too early. -/
  | unexpectedEnd
  /-- A group is not closed. -/
  | unclosedGroup
  /-- A closing bracket belongs to no group. -/
  | unopenedGroup
  /-- A class is not closed. -/
  | unclosedClass
  /-- Neither looking around nor referring back is possible. -/
  | notSupported
  /-- There is nothing to be repeated. -/
  | nothingToRepeat
  /-- The bounds of a repetition are missing, malformed or out of order. -/
  | badRepetition
  /-- The name of a group is malformed. -/
  | badGroupName
  /-- Two groups have one name. -/
  | duplicateGroupName
  /-- The flags of a group are malformed. -/
  | badFlags
  /-- There is no such escape. -/
  | badEscape
  /-- The bounds of a range are no characters, or out of order. -/
  | badRange
  /-- There is no such property of characters. -/
  | unknownProperty
  /-- What is asked for could match a part of a character, as it does without Unicode. -/
  | notCharacters
  /-- Groups, repetitions and classes are nested too deeply. -/
  | tooNested
  /-- The expression needs too much room. -/
  | tooLarge
deriving DecidableEq, Repr

/-- What is said about an error. -/
def PatternError.message : PatternError → String
  | unexpectedEnd => "the pattern ends too early"
  | unclosedGroup => "unclosed group"
  | unopenedGroup => "unopened group"
  | unclosedClass => "unclosed character class"
  | notSupported => "look-around and backreferences are not supported"
  | nothingToRepeat => "repetition operator missing expression"
  | badRepetition => "malformed repetition bounds"
  | badGroupName => "malformed group name"
  | duplicateGroupName => "duplicate group name"
  | badFlags => "malformed flags"
  | badEscape => "unrecognized escape sequence"
  | badRange => "invalid character class range"
  | unknownProperty => "unknown character property"
  | notCharacters => "the pattern could match invalid text"
  | tooNested => "the pattern is nested too deeply"
  | tooLarge => "the compiled pattern is too large"

end Ebnf.Regex
