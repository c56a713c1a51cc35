import VarBlock.State
import VarBlock.Text.Quoted

/-!
# Languages of messages

Every message can be given in English and in Russian. A language is chosen by its code, in
whichever case the code is written.
-/

namespace VarBlock

/-- A language that messages are written in. -/
inductive Language
  | english
  | russian
deriving DecidableEq, Repr

namespace Language

/-- The languages in the order in which they are offered. -/
def all : List Language := [english, russian]

/-- The code by which a language is chosen. -/
def code : Language → String
  | english => "en"
  | russian => "ru"

/-- The language of a code, whatever the case of its ASCII letters. -/
def ofCode? (s : String) : Option Language :=
  let lowered := s.toList.map Char.toLower
  all.find? fun l => l.code.toList = lowered

/-- The refusal of a code that names no language. -/
def unknownCode (s : String) : String :=
  "unknown language '" ++ s ++ "' (available: " ++ ", ".intercalate (all.map code) ++ ")"

/-- What may come next, in words. -/
def expectation : Language → Expectation → String
  | english, .varKeyword => "keyword 'var'"
  | english, .identifier => "identifier"
  | english, .colonOrDelimiter => "colon or semicolon"
  | english, .type => "variable type"
  | english, .semicolon => "semicolon"
  | russian, .varKeyword => "ключевое слово 'var'"
  | russian, .identifier => "идентификатор"
  | russian, .colonOrDelimiter => "двоеточие или точка с запятой"
  | russian, .type => "тип переменной"
  | russian, .semicolon => "точка с запятой"

/-- The message on a token that does not fit. -/
def unexpectedToken (l : Language) (m : Mismatch) (text : String) : String :=
  let expected := l.expectation m.expected
  let found := "<" ++ m.found.name ++ "> " ++ Text.quoted text
  match l with
  | english => "expected " ++ expected ++ ", got " ++ found
  | russian => "Ожидал: " ++ expected ++ ", получил: " ++ found

/-- The message on a block that ends too early. -/
def unterminated : Language → String
  | english => "variable declaration is not terminated"
  | russian => "Декларация переменных не завершена"

/-- The message on a valid block. -/
def success : Language → String
  | english => "no errors found"
  | russian => "Ошибок не обнаружено"

end Language

end VarBlock
