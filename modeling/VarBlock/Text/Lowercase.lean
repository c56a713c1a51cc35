import VarBlock.Text.Casing
import VarBlock.Text.Ranges

/-!
# Lower case

Text in lower case by the full Unicode mapping: each character by its partner, the capital I with
dot above by two characters, and a capital sigma at the end of a word by the final sigma.
-/

namespace VarBlock.Text

/-- A character in lower case, where it stands alone. -/
def lowerChar (c : Char) : List Char :=
  if c.toNat = 0x130 then [Char.ofNat 0x69, Char.ofNat 0x307]
  else
    match lowerRuns.find? fun r =>
      r.first ≤ c.toNat && c.toNat ≤ r.last && (c.toNat - r.first) % r.stride = 0 with
    | some r => [Char.ofNat (c.toNat + r.shift).toNat]
    | none => [c]

/-- Whether a letter with a case comes next, characters that do not matter for case aside. -/
def beforeCased (cs : List Char) : Bool :=
  match cs.dropWhile (inRanges caseIgnorableRanges) with
  | [] => false
  | c :: _ => inRanges casedRanges c

/-- Lower case, where the characters `before` come before the text, the nearest first. A capital
sigma that ends a word, one letter or more before it and none after, becomes a final sigma. -/
def lowerChars (before : List Char) : List Char → List Char
  | [] => []
  | c :: cs =>
    let image :=
      if c.toNat = 0x3A3 then
        [Char.ofNat (if beforeCased before && !beforeCased cs then 0x3C2 else 0x3C3)]
      else lowerChar c
    image ++ lowerChars (c :: before) cs

/-- A text in lower case. -/
def lowercase (s : String) : String := String.ofList (lowerChars [] s.toList)

end VarBlock.Text
