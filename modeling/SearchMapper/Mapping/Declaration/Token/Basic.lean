namespace SearchMapper.Declaration

inductive Token
  | name (text : List Char)
  | lifetime (text : List Char)
  | literal (text : List Char)
  | mark (text : List Char)
  | enclosed (text : List Char)
deriving DecidableEq

namespace Token

def text : Token → List Char
  | name t | lifetime t | literal t | mark t | enclosed t => t

def textOf (tokens : List Token) : List Char :=
  tokens.flatMap text

end Token

def keywords : List String :=
  ["_", "abstract", "as", "async", "await", "become", "box", "break", "const", "continue", "crate",
    "do", "dyn", "else", "enum", "extern", "false", "final", "fn", "for", "if", "impl", "in", "let",
    "loop", "macro", "match", "mod", "move", "mut", "override", "priv", "pub", "ref", "return",
    "Self", "self", "static", "struct", "super", "trait", "true", "try", "type", "typeof", "unsafe",
    "unsized", "use", "virtual", "where", "while", "yield"]

def isKeyword (name : List Char) : Bool :=
  String.ofList name ∈ keywords

end SearchMapper.Declaration
