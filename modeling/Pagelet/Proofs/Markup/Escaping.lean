import Pagelet.Markup.Reference

/-!
# Escaped text

A character that would end a text, or begin a reference in it, is written as the
reference of its name.  Decoding gives back every text that is written so.
-/

namespace Pagelet
namespace Markup
namespace Reference

/-- Characters that are written by name wherever they occur. -/
structure EscapeTable where
  /-- The characters, each with its name. -/
  names : List (Char × String)
  /-- Every name stands for its character. -/
  named_of_mem : ∀ pair ∈ names, (pair.2, pair.1) ∈ named := by decide
  /-- An ampersand is never written as it is. -/
  escapes_ampersand : (names.lookup '&').isSome = true := by decide

namespace EscapeTable

/-- The characters that may not stand in a run of text. -/
def inText : EscapeTable where
  names := [('&', "amp"), ('<', "lt")]

/-- The characters that may not stand in a value between double quotes. -/
def inQuotes : EscapeTable where
  names := [('&', "amp"), ('"', "quot")]

/-- A character as it is written. -/
def escapeChar (table : EscapeTable) (c : Char) : List Char :=
  match table.names.lookup c with
  | some name => '&' :: name.toList ++ [';']
  | none => [c]

/-- A text as it is written. -/
def escape (table : EscapeTable) (cs : List Char) : List Char :=
  cs.flatMap table.escapeChar

variable (table : EscapeTable) {c : Char} {name : String} {cs : List Char}

theorem escape_cons (c : Char) (cs : List Char) :
    table.escape (c :: cs) = table.escapeChar c ++ table.escape cs :=
  List.flatMap_cons

/-- No character is escaped to nothing. -/
theorem escapeChar_ne_nil (c : Char) : table.escapeChar c ≠ [] := by
  unfold escapeChar
  split <;> simp

theorem escape_ne_nil (notEmpty : cs ≠ []) : table.escape cs ≠ [] := by
  obtain ⟨c, rest, rfl⟩ := List.exists_cons_of_ne_nil notEmpty
  rw [escape_cons]
  exact List.append_ne_nil_of_left_ne_nil (table.escapeChar_ne_nil c) _

theorem named_of_lookup (found : table.names.lookup c = some name) : (name, c) ∈ named := by
  obtain ⟨front, back, split, -⟩ := List.lookup_eq_some_iff.1 found
  exact table.named_of_mem (c, name) (by simp [split])

/-- A character that is written by name and that no reference holds does not occur in
a written text. -/
theorem not_mem_escape {mark : Char} (listed : (table.names.lookup mark).isSome = true)
    (sign : mark ∉ ['&', ';'] ∧ ∀ entry ∈ named, mark ∉ entry.1.toList) :
    mark ∉ table.escape cs := by
  intro member
  obtain ⟨c, -, inside⟩ := List.mem_flatMap.1 member
  unfold escapeChar at inside
  cases found : table.names.lookup c with
  | some name =>
      have letters := sign.2 _ (table.named_of_lookup found)
      simp only [found, List.cons_append, List.mem_cons, List.mem_append,
        List.not_mem_nil, or_false] at inside
      simp only [List.mem_cons, List.not_mem_nil, or_false, not_or] at sign
      rcases inside with ampersand | inName | semicolon
      · exact sign.1.1 ampersand
      · exact letters inName
      · exact sign.1.2 semicolon
  | none =>
      simp only [found, List.mem_singleton] at inside
      rw [inside, found] at listed
      exact absurd listed (by simp)

end EscapeTable

/-- A character that begins no reference stays as it is. -/
theorem decode_cons {c : Char} (plain : c ≠ '&') (rest : List Char) :
    decode (c :: rest) = c :: decode rest := by
  rw [decode, if_neg plain]

/-- A reference that is read is decoded to its character. -/
theorem decode_reference {c : Char} {cs behind : List Char}
    (found : read? cs = some (c, behind)) : decode ('&' :: cs) = c :: decode behind := by
  rw [decode, if_pos rfl]
  split
  · next decoded after same =>
    rw [found] at same
    simp only [Option.some.injEq, Prod.mk.injEq] at same
    rw [same.1, same.2]
  · next missing => simp [found] at missing

/-- A character is read back from its name, whatever follows. -/
theorem read?_named {c : Char} {name : String} (member : (name, c) ∈ named)
    (rest : List Char) : read? (name.toList ++ ';' :: rest) = some (c, rest) := by
  simp only [named, List.mem_cons, Prod.mk.injEq, List.not_mem_nil, or_false] at member
  rcases member with ⟨rfl, rfl⟩ | ⟨rfl, rfl⟩ | ⟨rfl, rfl⟩ | ⟨rfl, rfl⟩ | ⟨rfl, rfl⟩ | ⟨rfl, rfl⟩
  all_goals rfl

/-- An escaped character is decoded to itself, whatever comes behind it. -/
theorem decode_escapeChar (table : EscapeTable) (c : Char) (rest : List Char) :
    decode (table.escapeChar c ++ rest) = c :: decode rest := by
  unfold EscapeTable.escapeChar
  cases found : table.names.lookup c with
  | some name =>
      have back := read?_named (table.named_of_lookup found) rest
      have shape : '&' :: name.toList ++ [';'] ++ rest = '&' :: (name.toList ++ ';' :: rest) := by
        simp
      simp only [shape]
      exact decode_reference back
  | none =>
      refine decode_cons ?_ rest
      rintro rfl
      exact absurd table.escapes_ampersand (by simp [found])

/-- Decoding gives back the text that was written. -/
theorem decode_escape (table : EscapeTable) (cs : List Char) :
    decode (table.escape cs) = cs := by
  induction cs with
  | nil => exact decode.eq_1
  | cons c rest ih => rw [table.escape_cons, decode_escapeChar, ih]

end Reference
end Markup
end Pagelet
