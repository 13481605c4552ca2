import TableCalc.Expression.Operator
import TableCalc.Text.Blank
import TableCalc.Text.Uppercase

/-!
# Lexemes

The normal form of an expression has no white space and is in upper case. An expression is cut at
its operators into lexemes: each operator is one, and so is each non-empty run of characters between
operators. Nothing is lost in the cut, and a lexeme need not be a valid token.
-/

namespace TableCalc.Expression

/-- The normal form of a list of characters. -/
def normalizeChars (cs : List Char) : List Char :=
  (cs.filter fun c => !Text.isBlank c).flatMap Text.uppercase

/-- The normal form of an expression: white space removed, then every character in upper case. -/
def normalize (source : String) : String := String.ofList (normalizeChars source.toList)

/-- Puts a character that is no operator in front of lexemes: it joins a first lexeme that is no
operator either. -/
def prependToLexemes (c : Char) : List (List Char) → List (List Char)
  | [] => [[c]]
  | [] :: rest => [c] :: rest
  | (d :: ds) :: rest =>
    if Operator.isSymbol d then [c] :: (d :: ds) :: rest else (c :: d :: ds) :: rest

/-- The lexemes of a list of characters. -/
def lexemes : List Char → List (List Char)
  | [] => []
  | c :: cs => if Operator.isSymbol c then [c] :: lexemes cs else prependToLexemes c (lexemes cs)

/-- The lexemes of an expression, from left to right. -/
def tokenize (source : String) : List String := (lexemes source.toList).map String.ofList

end TableCalc.Expression
