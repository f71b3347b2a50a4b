import Rech.Text.Place

/-!
# Tokens

A token is a kind, a text and a place. Source text yields the named kinds
only, and `comment` never; a stream of tokens made by hand may have any.
-/

namespace Rech

inductive Token.Kind where
  | letWord
  | ifWord
  | elseWord
  | printWord
  | returnWord
  | nullWord
  | math
  | comparison
  | assign
  | bang
  | leftParen
  | rightParen
  | leftBrace
  | rightBrace
  | semicolon
  | comment
  | number
  | string
  | identifier
  | endOfFile
  | other (name : String)
deriving DecidableEq, Repr

namespace Token.Kind

def name : Token.Kind → String
  | .letWord => "LET"
  | .ifWord => "IF"
  | .elseWord => "ELSE"
  | .printWord => "PRINT"
  | .returnWord => "RETURN"
  | .nullWord => "NULL"
  | .math => "MATH"
  | .comparison => "COMPARISON"
  | .assign => "ASSIGN"
  | .bang => "BANG"
  | .leftParen => "LPAREN"
  | .rightParen => "RPAREN"
  | .leftBrace => "LBRACE"
  | .rightBrace => "RBRACE"
  | .semicolon => "SEMICOLON"
  | .comment => "COMMENT"
  | .number => "NUMBER"
  | .string => "STRING"
  | .identifier => "IDENT"
  | .endOfFile => "EOF"
  | .other name => name

def named : List Token.Kind :=
  [letWord, ifWord, elseWord, printWord, returnWord, nullWord, math, comparison, assign, bang,
    leftParen, rightParen, leftBrace, rightBrace, semicolon, comment, number, string, identifier,
    endOfFile]

def ofName (name : String) : Token.Kind :=
  (named.find? (·.name = name)).getD (.other name)

end Token.Kind

structure Token where
  kind : Token.Kind
  text : String
  place : Place
deriving DecidableEq, Repr

/-- How a list of tokens shows one: its kind with its text, and the end bare. -/
def Token.inspect (token : Token) : String :=
  if token.kind = .endOfFile then token.kind.name else s!"{token.kind.name}({token.text})"

end Rech
