import FieldedSearch.Token

namespace FieldedSearch.Glob

inductive Matches : List Token → Text → Prop where
  | done : Matches [] []
  | wildcard {tokens : List Token} {run rest : Text} : '\n' ∉ run → Matches tokens rest →
      Matches (.wildcard :: tokens) (run ++ rest)
  | literal {tokens : List Token} {text rest : Text} : Matches tokens rest →
      Matches (.literal text :: tokens) (text ++ rest)

-- Tables are aligned with the suffixes of the text, the whole text first.

def endTable : Text → List Bool
  | [] => [true]
  | _ :: s => false :: endTable s

def literalEntry : Text → Text → List Bool → Bool
  | [],_,entry :: _ => entry
  | c :: text,d :: s,_ :: after => c = d && literalEntry text s after
  | _,_,_ => false

def literalTable (text : Text) : Text → List Bool → List Bool
  | d :: s,entry :: after => literalEntry text (d :: s) (entry :: after) :: literalTable text s after
  | s,after => [literalEntry text s after]

def wildcardTable : Text → List Bool → List Bool
  | d :: s,entry :: after =>
      let rest := wildcardTable s after
      (entry || (d ≠ '\n' && rest.headD false)) :: rest
  | _,after => after

def table : List Token → Text → List Bool
  | [],s => endTable s
  | .wildcard :: tokens,s => wildcardTable s (table tokens s)
  | .literal text :: tokens,s => literalTable text s (table tokens s)

def accepts (tokens : List Token) (s : Text) : Bool := (table tokens s).headD false

end FieldedSearch.Glob
