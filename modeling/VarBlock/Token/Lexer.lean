import VarBlock.Token

/-!
# Reading tokens

    source (String) ──tokenize──▶ tokens (List Token)

Blanks separate tokens and are dropped. A word is a letter and the longest run of letters and
digits after it; any other character is a token by itself. Letters and digits are the ASCII ones,
so a letter of another script is a token of kind `unknown`.
-/

namespace VarBlock

/-- The characters that may stand between tokens. -/
def isBlank (c : Char) : Bool := c = ' ' || c = '\t' || c = '\r' || c = '\n'

namespace Token

/-- The tokens of `cs`, where `offset` characters come before `cs`. -/
def scan (offset : Nat) : List Char → List Token
  | [] => []
  | c :: cs =>
    if isBlank c then scan (offset + 1) cs
    else if c.isAlpha then
      let word := c :: cs.takeWhile Char.isAlphanum
      ⟨.ofWord (String.ofList word), String.ofList word, offset⟩ ::
        scan (offset + word.length) (cs.dropWhile Char.isAlphanum)
    else ⟨.ofSymbol c, String.singleton c, offset⟩ :: scan (offset + 1) cs
termination_by cs => cs.length
decreasing_by
  · exact Nat.lt_succ_self _
  · exact Nat.lt_succ_of_le (List.dropWhile_sublist _).length_le
  · exact Nat.lt_succ_self _

end Token

/-- The tokens of a source text, in order. -/
def tokenize (source : String) : List Token := Token.scan 0 source.toList

end VarBlock
