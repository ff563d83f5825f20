import Pagelet.Text.Blank
import Pagelet.Text.Numeral
import Pagelet.Text.Quoted

/-!
# Lexemes of expressions and what can go wrong with an expression

An expression is read as a list of lexemes: numbers, quoted texts, names and
operator signs, with blanks between them.  `Fault` lists every reason for which
an expression has no value, in reading as well as in evaluation.
-/

namespace Pagelet
namespace Script

/-- The smallest meaningful piece of an expression. -/
inductive Lexeme
  /-- A decimal integer. -/
  | number (value : Int64)
  /-- A quoted text, with its escapes undone. -/
  | text (content : String)
  /-- A name, `true` and `false` among them. -/
  | name (spelling : String)
  | plus
  | minus
  | star
  | slash
  | bang
  | openParen
  | closeParen
  /-- `==` or `===`. -/
  | equal
  /-- `!=` or `!==`. -/
  | notEqual
deriving DecidableEq, Repr

/-- Why an expression has no value. -/
inductive Fault
  /-- A character that begins no lexeme. -/
  | unexpectedChar (c : Char)
  /-- A quoted text without its closing mark. -/
  | unterminatedText
  /-- A numeral beyond the 64-bit range. -/
  | numeralOutOfRange (digits : String)
  /-- A lexeme where the grammar has no place for it. -/
  | unexpectedLexeme (lexeme : Lexeme)
  /-- The expression stops where an operand or a parenthesis is due. -/
  | unexpectedEnd
  /-- A text without a numeric reading stands in arithmetic. -/
  | notANumber (text : String)
  | divisionByZero
  /-- The exact result lies outside the 64-bit range. -/
  | overflow
  /-- More nesting than a reader follows. -/
  | tooDeep
deriving DecidableEq, Repr

/-- The lexeme as messages show it. -/
def Lexeme.shown : Lexeme → String
  | number value => toString value.toInt
  | text content => Text.quoted content
  | name spelling => spelling
  | plus => "+"
  | minus => "-"
  | star => "*"
  | slash => "/"
  | bang => "!"
  | openParen => "("
  | closeParen => ")"
  | equal => "=="
  | notEqual => "!="

/-- The wording of a fault. -/
def Fault.message : Fault → String
  | unexpectedChar c => "unexpected character `" ++ c.toString ++ "`"
  | unterminatedText => "unterminated string literal"
  | numeralOutOfRange digits => "integer literal `" ++ digits ++ "` is out of range"
  | unexpectedLexeme lexeme => "unexpected token `" ++ lexeme.shown ++ "`"
  | unexpectedEnd => "unexpected end of expression"
  | notANumber text => "`" ++ text ++ "` is not a number"
  | divisionByZero => "division by zero"
  | overflow => "integer overflow"
  | tooDeep => "expression nested too deeply"

/-- An ASCII letter, `_` or `$`. -/
def isNameStart (c : Char) : Bool :=
  c.isAlpha || c == '_' || c == '$'

/-- An ASCII letter or digit, `_` or `$`. -/
def isNameChar (c : Char) : Bool :=
  c.isAlphanum || c == '_' || c == '$'

/-- The name a text begins with, and the rest of the text. -/
def splitName? : List Char → Option (List Char × List Char)
  | [] => none
  | c :: rest =>
      if isNameStart c then
        some (c :: rest.takeWhile isNameChar, rest.dropWhile isNameChar)
      else none

/-- A name is cut off the front of the text. -/
theorem eq_append_of_splitName? {cs name behind : List Char}
    (h : splitName? cs = some (name, behind)) : cs = name ++ behind := by
  cases cs with
  | nil => simp [splitName?] at h
  | cons c rest =>
      rw [splitName?] at h
      split at h
      · simp only [Option.some.injEq, Prod.mk.injEq] at h
        obtain ⟨rfl, rfl⟩ := h
        simp
      · simp at h

/-- A name has at least one character. -/
theorem length_lt_of_splitName? {cs name behind : List Char}
    (h : splitName? cs = some (name, behind)) : behind.length < cs.length := by
  cases cs with
  | nil => simp [splitName?] at h
  | cons c rest =>
      rw [splitName?] at h
      split at h
      · simp only [Option.some.injEq, Prod.mk.injEq] at h
        have := (List.dropWhile_suffix (l := rest) isNameChar).length_le
        simp only [← h.2, List.length_cons]
        omega
      · simp at h

namespace Lexeme

/-- The character that a backslash and `c` stand for. -/
def unescape (c : Char) : Char :=
  if c = 'n' then '\n' else if c = 't' then '\t' else c

/-- Reads a quoted text after its opening mark: the content, and the rest after
the closing mark. -/
def readText? (mark : Char) : List Char → Option (List Char × List Char)
  | [] => none
  | '\\' :: [] => none
  | '\\' :: c :: rest =>
      (readText? mark rest).map fun (content, behind) => (unescape c :: content, behind)
  | c :: rest =>
      if c = mark then some ([], rest)
      else (readText? mark rest).map fun (content, behind) => (c :: content, behind)

/-- Drops the third sign of `===` and `!==`. -/
def dropEqualSign : List Char → List Char
  | '=' :: rest => rest
  | cs => cs

/-- Reads the lexeme that begins with `c`, which is no blank. -/
def next (c : Char) (rest : List Char) : Except Fault (Lexeme × List Char) :=
  match c with
  | '+' => .ok (plus, rest)
  | '-' => .ok (minus, rest)
  | '*' => .ok (star, rest)
  | '/' => .ok (slash, rest)
  | '(' => .ok (openParen, rest)
  | ')' => .ok (closeParen, rest)
  | '=' =>
      match rest with
      | '=' :: more => .ok (equal, dropEqualSign more)
      | _ => .error (.unexpectedChar '=')
  | '!' =>
      match rest with
      | '=' :: more => .ok (notEqual, dropEqualSign more)
      | _ => .ok (bang, rest)
  | _ =>
      if c = '\'' || c = '"' then
        match readText? c rest with
        | some (content, behind) => .ok (text (String.ofList content), behind)
        | none => .error .unterminatedText
      else if c.isDigit then
        let digits := c :: rest.takeWhile Char.isDigit
        match Text.int64? digits with
        | some value => .ok (number value, rest.dropWhile Char.isDigit)
        | none => .error (.numeralOutOfRange (String.ofList digits))
      else
        match splitName? (c :: rest) with
        | some (spelling, behind) => .ok (name (String.ofList spelling), behind)
        | none => .error (.unexpectedChar c)

/-- Reading a quoted text consumes at least the closing mark. -/
theorem length_lt_of_readText? {mark : Char} {cs content behind : List Char}
    (h : readText? mark cs = some (content, behind)) : behind.length < cs.length := by
  fun_induction readText? mark cs generalizing content with
  | case1 => simp at h
  | case2 => simp at h
  | case3 c rest ih =>
      obtain ⟨⟨inner, back⟩, found, parts⟩ := Option.map_eq_some_iff.1 h
      simp only [Prod.mk.injEq] at parts
      obtain ⟨-, rfl⟩ := parts
      have := ih found
      simp only [List.length_cons]
      omega
  | case4 rest =>
      simp only [Option.some.injEq, Prod.mk.injEq] at h
      simp [h.2]
  | case5 c rest _ _ _ ih =>
      obtain ⟨⟨inner, back⟩, found, parts⟩ := Option.map_eq_some_iff.1 h
      simp only [Prod.mk.injEq] at parts
      obtain ⟨-, rfl⟩ := parts
      have := ih found
      simp only [List.length_cons]
      omega

/-- Dropping a sign never lengthens a text. -/
theorem length_dropEqualSign_le (cs : List Char) :
    (dropEqualSign cs).length ≤ cs.length := by
  unfold dropEqualSign
  split <;> simp

/-- A lexeme takes its characters from the front of the text. -/
theorem length_le_of_next {c : Char} {rest behind : List Char} {lexeme : Lexeme}
    (h : next c rest = .ok (lexeme, behind)) : behind.length ≤ rest.length := by
  unfold next at h
  split at h
  all_goals try
    simp only [Except.ok.injEq, Prod.mk.injEq] at h
    simp [← h.2]
  · split at h
    · simp only [Except.ok.injEq, Prod.mk.injEq] at h
      have := length_dropEqualSign_le ‹List Char›
      simp only [← h.2, List.length_cons]
      omega
    · simp at h
  · split at h
    · simp only [Except.ok.injEq, Prod.mk.injEq] at h
      have := length_dropEqualSign_le ‹List Char›
      simp only [← h.2, List.length_cons]
      omega
    · simp only [Except.ok.injEq, Prod.mk.injEq] at h
      simp [← h.2]
  · split at h
    · split at h
      · next found =>
        simp only [Except.ok.injEq, Prod.mk.injEq] at h
        rw [← h.2]
        exact Nat.le_of_lt (length_lt_of_readText? found)
      · simp at h
    · split at h
      · simp only at h
        split at h
        · simp only [Except.ok.injEq, Prod.mk.injEq] at h
          rw [← h.2]
          exact (List.dropWhile_suffix _).length_le
        · simp at h
      · split at h
        · next found =>
          simp only [Except.ok.injEq, Prod.mk.injEq] at h
          have := length_lt_of_splitName? found
          simp only [← h.2]
          simp only [List.length_cons] at this
          omega
        · simp at h

/-- The lexemes of a text, in order; the first fault wins. -/
def scan : List Char → Except Fault (List Lexeme)
  | [] => .ok []
  | c :: rest =>
      if Text.isBlank c then scan rest
      else
        match _read : next c rest with
        | .error fault => .error fault
        | .ok (lexeme, behind) => (scan behind).map (lexeme :: ·)
termination_by cs => cs.length
decreasing_by
  · simp
  · have := length_le_of_next _read
    simp only [List.length_cons]
    omega

end Lexeme

end Script
end Pagelet
