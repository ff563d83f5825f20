import Mathlib
import Pagelet.Proofs.Encoding.Declarations

/-!
# The window of the search

The search for a declared encoding sees the first bytes of a page alone, and takes their
end for the end of the text.  The label found is the one that the whole page declares
exactly if that end leaves nothing open: no quote in front that the page closes further on,
and no bare label that goes on.
-/

namespace Pagelet
namespace Encoding

open Text (trimStart)

namespace Utf8

variable {pending : Option Pending} {front rest : List UInt8}

/-- The characters that bytes complete, and the one that they have begun. -/
def run : Option Pending → List UInt8 → List Char × Option Pending
  | pending, [] => ([], pending)
  | pending, byte :: rest =>
      let step := next pending byte
      let further := run step.2 rest
      (step.1 ++ further.1, further.2)

theorem decodeFrom_nil (pending : Option Pending) :
    decodeFrom pending [] = pending.toList.map fun _ => replacement := by
  cases pending <;> rfl

/-- Decoding a byte gives what it completes and goes on with what stays pending. -/
theorem decodeFrom_cons (pending : Option Pending) (byte : UInt8) (rest : List UInt8) :
    decodeFrom pending (byte :: rest) =
      (next pending byte).1 ++ decodeFrom (next pending byte).2 rest := by
  cases pending <;> rfl

/-- The first bytes complete their characters whatever follows. -/
theorem decodeFrom_append (pending : Option Pending) (front rest : List UInt8) :
    decodeFrom pending (front ++ rest) =
      (run pending front).1 ++ decodeFrom (run pending front).2 rest := by
  induction front generalizing pending with
  | nil => rfl
  | cons byte front ih =>
      rw [List.cons_append, decodeFrom_cons, ih, run, List.append_assoc]

end Utf8

variable {bytes : List UInt8} {label : List Char}

/-- The characters that are whole within the window. -/
def inside (bytes : List UInt8) : List Char :=
  (Utf8.run none (bytes.take window)).1

/-- What the window shows of a character that its edge cuts. -/
def edge (bytes : List UInt8) : List Char :=
  Utf8.decodeFrom (Utf8.run none (bytes.take window)).2 []

/-- The text from the edge on, with the character that the edge cuts. -/
def beyond (bytes : List UInt8) : List Char :=
  Utf8.decodeFrom (Utf8.run none (bytes.take window)).2 (bytes.drop window)

/-- The window shows the characters inside it and what the edge leaves of a cut one. -/
theorem decode_take_window (bytes : List UInt8) :
    Utf8.decode (bytes.take window) = inside bytes ++ edge bytes := by
  have parts := Utf8.decodeFrom_append none (bytes.take window) []
  rwa [List.append_nil] at parts

/-- The page shows the characters inside the window and goes on beyond. -/
theorem decode_eq_append (bytes : List UInt8) :
    Utf8.decode bytes = inside bytes ++ beyond bytes := by
  have parts := Utf8.decodeFrom_append none (bytes.take window) (bytes.drop window)
  rwa [List.take_append_drop] at parts

/-- The edge shows nothing, or a replacement for one character. -/
theorem edge_eq (bytes : List UInt8) : edge bytes = [] ∨ edge bytes = [replacement] := by
  rw [edge, Utf8.decodeFrom_nil]
  cases (Utf8.run none (bytes.take window)).2 with
  | none => exact .inl rfl
  | some pending => exact .inr rfl

/-- The edge cuts one character at most. -/
theorem length_edge_le (bytes : List UInt8) : (edge bytes).length ≤ 1 := by
  rcases edge_eq bytes with empty | cut
  · rw [empty]
    exact Nat.zero_le 1
  · rw [cut]
    rfl

/-- A cut character shows as a replacement. -/
theorem eq_replacement_of_mem_edge {c : Char} (member : c ∈ edge bytes) : c = replacement := by
  rcases edge_eq bytes with empty | cut
  · rw [empty] at member
    cases member
  · rw [cut] at member
    exact List.mem_singleton.1 member

/-- The edge ends no label. -/
theorem takeWhile_edge (bytes : List UInt8) :
    (edge bytes).takeWhile (!endsLabel ·) = edge bytes := by
  refine List.takeWhile_eq_self_iff.2 fun c member => ?_
  rw [eq_replacement_of_mem_edge member]
  decide

/-- The window shows the declarations that are whole in it. -/
theorem sniffLabel?_eq_findSome? (bytes : List UInt8) :
    sniffLabel? bytes =
      (declarations (inside bytes)).findSome? fun behind => label? (behind ++ edge bytes) := by
  have foreign : ∀ c ∈ edge bytes, c.toLower ∉ keyword := by
    intro c member
    rw [eq_replacement_of_mem_edge member, keyword_eq_cons]
    decide
  rw [sniffLabel?, decode_take_window, declaredLabel?_eq_findSome?,
    declarations_append_of_foreign foreign, List.findSome?_map]
  rfl

/-- The page goes on behind the same declarations. -/
theorem declaredLabel?_decode (bytes : List UInt8) :
    ∃ later, declaredLabel? (Utf8.decode bytes) =
      ((declarations (inside bytes)).findSome? fun behind => label? (behind ++ beyond bytes)).or
        later := by
  obtain ⟨later, whole⟩ := declarations_append (inside bytes) (beyond bytes)
  refine ⟨later.findSome? label?, ?_⟩
  rw [decode_eq_append, declaredLabel?_eq_findSome?, whole, List.findSome?_append,
    List.findSome?_map]
  rfl

variable {behind earlier : List Char}

/-- A label that begins in the window is read in the whole page too, and is the same unless
it goes on behind the edge. -/
theorem exists_label?_beyond (begins : trimStart behind ≠ [])
    (read : label? (behind ++ edge bytes) = some label) :
    ∃ full, label? (behind ++ beyond bytes) = some full ∧
      (full = label ↔
        (RunsOn behind → (beyond bytes).takeWhile (!endsLabel ·) = edge bytes)) := by
  rcases settled_or_opensQuote_or_runsOn begins with settled | ⟨mark, opens⟩ | runsOn
  · refine ⟨label, ?_, iff_of_true rfl fun runsOn => absurd settled runsOn.not_settled⟩
    rwa [label?_append_of_settled settled] at read ⊢
  · obtain ⟨quote, rest, front, unclosed⟩ := opens
    rw [label?_append_of_opensQuote quote front unclosed] at read
    split at read
    · next closed =>
      rw [eq_replacement_of_mem_edge closed] at quote
      exact absurd quote (by decide)
    · cases read
  · rw [label?_append_of_runsOn runsOn, takeWhile_edge] at read
    obtain rfl := Option.some.inj read
    refine ⟨_, label?_append_of_runsOn runsOn _, ?_⟩
    rw [List.append_right_inj]
    exact ⟨fun same _ => same, fun same => same runsOn⟩

/-- A declaration that reads no label in the window reads none in the whole page, unless it
opens a quote that the page closes. -/
theorem label?_beyond_eq_none (precedes : Precedes earlier behind)
    (none' : label? (earlier ++ edge bytes) = none)
    (unclosed : ∀ mark, OpensQuote mark earlier → mark ∉ beyond bytes) :
    label? (earlier ++ beyond bytes) = none := by
  rcases settled_or_opensQuote_or_runsOn precedes.begins with settled | ⟨mark, opens⟩ | runsOn
  · rwa [label?_append_of_settled settled] at none' ⊢
  · have absent := unclosed mark opens
    obtain ⟨quote, rest, front, inside⟩ := opens
    rw [label?_append_of_opensQuote quote front inside, if_neg absent]
  · rw [label?_append_of_runsOn runsOn] at none'
    cases none'

/-- A bare label that begins behind the edge is the replacement that the window shows. -/
theorem eq_replacement_of_label? (blank : trimStart behind = [])
    (read : label? (behind ++ edge bytes) = some label) : label = [replacement] := by
  have front : trimStart (behind ++ edge bytes) = trimStart (edge bytes) :=
    Text.trimStart_append (List.dropWhile_eq_nil_iff.1 blank) _
  have shown : label? (edge bytes) = some label := by rwa [label?, front] at read
  rcases edge_eq bytes with empty | cut
  · rw [empty] at shown
    cases shown
  · rw [cut] at shown
    have same : label? [replacement] = some [replacement] := by decide
    rw [same] at shown
    exact (Option.some.inj shown).symm

/-- The declaration that the window honours: the first one whole in it that reads a label
there. -/
structure Honours (bytes : List UInt8) (label : List Char) (earlier : List (List Char))
    (behind : List Char) : Prop where
  /-- It is one of the declarations of the window. -/
  declared : ∃ later, declarations (inside bytes) = earlier ++ behind :: later
  /-- Those in front of it read no label. -/
  passed : ∀ front ∈ earlier, label? (front ++ edge bytes) = none
  /-- It reads the label. -/
  read : label? (behind ++ edge bytes) = some label

/-- The edge of the window leaves nothing open that the page takes further. -/
structure LeavesNothingOpen (bytes : List UInt8) (earlier : List (List Char))
    (behind : List Char) : Prop where
  /-- No quote that an earlier declaration opens is closed behind the edge. -/
  quotes : ∀ front ∈ earlier, ∀ mark, OpensQuote mark front → mark ∉ beyond bytes
  /-- A bare label that nothing ends in the window ends at the edge. -/
  bare : RunsOn behind → (beyond bytes).takeWhile (!endsLabel ·) = edge bytes

/-- Every label that is found is honoured behind some declaration. -/
theorem exists_honours (found : sniffLabel? bytes = some label) :
    ∃ earlier behind, Honours bytes label earlier behind := by
  rw [sniffLabel?_eq_findSome?] at found
  obtain ⟨earlier, behind, later, parts, read, passed⟩ := List.findSome?_eq_some_iff.1 found
  exact ⟨earlier, behind, ⟨later, parts⟩, passed, read⟩

section Honours

variable {front : List Char} {earlier : List (List Char)} {behind : List Char}

/-- Declarations in front of the honoured one precede it in the text. -/
theorem Honours.precedes (honours : Honours bytes label earlier behind) (member : front ∈ earlier) :
    Precedes front behind := by
  obtain ⟨later, parts⟩ := honours.declared
  have ordered := pairwise_declarations (inside bytes)
  rw [parts, List.pairwise_append] at ordered
  exact ordered.2.2 front member behind List.mem_cons_self

/-- In the whole page an earlier declaration reads a label only if the page closes its quote,
and then it is not the label that the window shows. -/
theorem Honours.label?_beyond_ne (honours : Honours bytes label earlier behind)
    (member : front ∈ earlier) : label? (front ++ beyond bytes) ≠ some label := by
  intro same
  have closes : ∃ mark, OpensQuote mark front ∧ mark ∈ beyond bytes := by
    by_contra unclosed
    have none' := label?_beyond_eq_none (honours.precedes member) (honours.passed front member)
      fun mark opens closed => unclosed ⟨mark, opens, closed⟩
    rw [none'] at same
    cases same
  obtain ⟨mark, opens, closed⟩ := closes
  obtain ⟨longer, read, more⟩ := exists_label?_append (honours.precedes member) opens closed
    honours.read (length_edge_le bytes)
  obtain rfl := Option.some.inj (same.symm.trans read)
  exact Nat.lt_irrefl _ more

end Honours

/-- The label that the window shows is the one that the whole page declares exactly if the
edge leaves nothing open.  A label that does not begin in the window is the replacement of a
character that the edge cuts. -/
theorem declaredLabel?_decode_eq_iff (found : sniffLabel? bytes = some label) :
    ∃ earlier behind, Honours bytes label earlier behind ∧
      (trimStart behind ≠ [] →
        (declaredLabel? (Utf8.decode bytes) = some label ↔
          LeavesNothingOpen bytes earlier behind)) ∧
      (trimStart behind = [] → label = [replacement]) := by
  obtain ⟨earlier, behind, honours⟩ := exists_honours found
  refine ⟨earlier, behind, honours, fun begins => ?_,
    fun blank => eq_replacement_of_label? blank honours.read⟩
  obtain ⟨full, read, same⟩ := exists_label?_beyond begins honours.read
  obtain ⟨later, parts⟩ := honours.declared
  obtain ⟨others, whole⟩ := declaredLabel?_decode bytes
  rw [whole, parts, List.findSome?_append, List.findSome?_cons, read]
  constructor
  · intro declared
    cases first : earlier.findSome? fun front => label? (front ++ beyond bytes) with
    | none =>
        rw [first] at declared
        refine ⟨fun front member mark opens closed => ?_, same.1 (Option.some.inj declared)⟩
        obtain ⟨longer, read', -⟩ := exists_label?_append (honours.precedes member) opens closed
          honours.read (length_edge_le bytes)
        rw [List.findSome?_eq_none_iff.1 first front member] at read'
        cases read'
    | some other =>
        -- a label from in front of the honoured one is longer, so it is not the same
        rw [first] at declared
        obtain rfl := Option.some.inj declared
        obtain ⟨front, member, read'⟩ := List.exists_of_findSome?_eq_some first
        exact absurd read' (honours.label?_beyond_ne member)
  · rintro ⟨quotes, bare⟩
    have none' : (earlier.findSome? fun front => label? (front ++ beyond bytes)) = none :=
      List.findSome?_eq_none_iff.2 fun front member => label?_beyond_eq_none
        (honours.precedes member) (honours.passed front member) (quotes front member)
    rw [none', same.2 bare]
    rfl

/-- Spaces are decoded one by one. -/
theorem decodeFrom_spaces (count : Nat) (bytes : List UInt8) :
    Utf8.decode (List.replicate count 0x20 ++ bytes) =
      List.replicate count ' ' ++ Utf8.decode bytes := by
  induction count with
  | zero => rfl
  | succ count ih =>
      rw [List.replicate_succ, List.cons_append, Utf8.decode, Utf8.decodeFrom_cons]
      exact congrArg (' ' :: ·) ih

theorem declaredLabel?_spaces (count : Nat) (cs : List Char) :
    declaredLabel? (List.replicate count ' ' ++ cs) = declaredLabel? cs := by
  have other : ∀ c ∈ List.replicate count ' ', c.toLower ≠ 'c' := by
    intro c member
    rw [List.eq_of_mem_replicate member]
    decide
  rw [declaredLabel?_eq_findSome?, declarations_append_of_ne other, declaredLabel?_eq_findSome?]

/-- A page in which the edge of the window cuts the last character off a label. -/
def cutPage : List UInt8 :=
  List.replicate 8168 0x20 ++
    "<meta charset=iso-8859-15>¤".toList.flatMap String.utf8EncodeChar

theorem sniffLabel?_cutPage : sniffLabel? cutPage = some "iso-8859-1".toList := by
  have shown : cutPage.take window = List.replicate 8168 0x20 ++
      "<meta charset=iso-8859-1".toList.flatMap String.utf8EncodeChar := by
    rw [cutPage, window, List.take_append, List.length_replicate, List.take_of_length_le]
    · rfl
    · rw [List.length_replicate]
      decide
  rw [sniffLabel?, shown, decodeFrom_spaces, declaredLabel?_spaces]
  decide

theorem declaredLabel?_decode_eq_iff_cutPage :
    sniffLabel? cutPage = some "iso-8859-1".toList ∧
      ∃ earlier behind, Honours cutPage "iso-8859-1".toList earlier behind ∧
        (trimStart behind ≠ [] →
          (declaredLabel? (Utf8.decode cutPage) = some "iso-8859-1".toList ↔
            LeavesNothingOpen cutPage earlier behind)) ∧
        (trimStart behind = [] → "iso-8859-1".toList = [replacement]) :=
  ⟨sniffLabel?_cutPage, declaredLabel?_decode_eq_iff sniffLabel?_cutPage⟩

/-- The window honours the label without its last character. -/
theorem cutPage_truncated :
    sniffLabel? cutPage = some "iso-8859-1".toList ∧
      declaredLabel? (Utf8.decode cutPage) = some "iso-8859-15".toList ∧
      sniffLabel? cutPage ≠ declaredLabel? (Utf8.decode cutPage) := by
  have whole : declaredLabel? (Utf8.decode cutPage) = some "iso-8859-15".toList := by
    rw [cutPage, decodeFrom_spaces, declaredLabel?_spaces]
    decide
  refine ⟨sniffLabel?_cutPage, whole, ?_⟩
  rw [sniffLabel?_cutPage, whole]
  decide

end Encoding
end Pagelet
