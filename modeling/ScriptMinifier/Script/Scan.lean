import ScriptMinifier.Text.Basic

/-!
# Lengths of literals and comments

Each function measures the stretch of a script that a delimiter has just opened:
it takes the text behind the delimiter and counts the characters that still
belong to the stretch, the closing delimiter included.
-/

namespace ScriptMinifier.Script

/-- A string ends with its own quote, in front of a line feed, or with the text.
A backslash takes the next character along, whatever it is. -/
def stringLength (quote : Char) : Text → Nat
  | [] => 0
  | c :: cs =>
      if c = '\\' then
        match cs with
        | [] => 1
        | _ :: rest => stringLength quote rest + 2
      else if c = '\n' then 0
      else if c = quote then 1
      else stringLength quote cs + 1

def templateLength : Text → Nat
  | [] => 0
  | c :: cs =>
      if c = '\\' then
        match cs with
        | [] => 1
        | _ :: rest => templateLength rest + 2
      else if c = '`' then 1
      else templateLength cs + 1

def lineCommentLength (s : Text) : Nat := (s.takeWhile (· != '\n')).length

/-- A block comment ends with the first `*/`, and is none without it. -/
def blockCommentLength? : Text → Option Nat
  | [] => none
  | c :: cs =>
      if c = '*' ∧ cs.head? = some '/' then some 2
      else (blockCommentLength? cs).map (· + 1)

def isLineBreak (c : Char) : Bool := c == '\n' || c == '\r'

def isFlagChar (c : Char) : Bool := c.isAlphanum || c == '_' || c == '$'

/-- A regular expression ends with a slash outside of brackets and the flags
behind it. It stays within one line: a line break or the end of the text comes
too early. -/
def regexLength? (inClass : Bool) : Text → Option Nat
  | [] => none
  | c :: cs =>
      if c = '\\' then
        match cs with
        | [] => none
        | e :: rest =>
            if isLineBreak e then none
            else (regexLength? inClass rest).map (· + 2)
      else if isLineBreak c then none
      else if c = '/' ∧ inClass = false then
        some ((cs.takeWhile isFlagChar).length + 1)
      else (regexLength? (c = '[' || inClass && c != ']') cs).map (· + 1)

end ScriptMinifier.Script
