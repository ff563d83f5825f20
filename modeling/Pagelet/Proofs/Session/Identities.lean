import Pagelet.Proofs.Document.Identities
import Pagelet.Proofs.Session.Operations

/-!
# Identities in a session

Whatever a caller and its scripts do, in whatever order, the elements that they add are
numbered one after the other, each can be found by its number or by its id, and none of
them ever changes its identity or its place.
-/

namespace Pagelet
namespace Session

open Document (Draft ElementId Numbered Identified maxNumber)

variable (limits : Script.Limits) (session : Session)

/-- The drafts of the elements that several operations add. -/
def draftsOf (operations : List Operation) : List Draft :=
  (session.changesOf limits operations).filterMap (·.draft?)

/-- Every operation keeps the numbering, with the drafts that it adds. -/
theorem numbered_step (limits : Script.Limits) {session : Session} {drafts : List Draft}
    (numbered : Numbered drafts session.document) (operation : Operation) :
    Numbered (drafts ++ (session.changes limits operation).filterMap (·.draft?))
      (session.step limits operation).document := by
  rcases session.document_step limits operation with changed | ⟨unchanged, id, handle, bound⟩
  · exact changed ▸ numbered.replay _
  · rw [unchanged, List.filterMap_nil, List.append_nil]
    exact numbered.congr (Document.cores_bind? bound) (Document.nextNumber_bind? bound)

theorem numbered_after (limits : Script.Limits) {session : Session} {drafts : List Draft}
    (numbered : Numbered drafts session.document) (operations : List Operation) :
    Numbered (drafts ++ session.draftsOf limits operations)
      (session.after limits operations).document := by
  induction operations generalizing session drafts with
  | nil => simpa [draftsOf, changesOf, after] using numbered
  | cons operation rest ih =>
      have later := ih (numbered_step limits numbered operation)
      rwa [List.append_assoc, draftsOf, ← List.filterMap_append] at later

/-- No operation changes an identity or a place. -/
theorem cores_isPrefix_step (operation : Operation) :
    session.document.cores <+: (session.step limits operation).document.cores := by
  rcases session.document_step limits operation with changed | ⟨-, id, handle, bound⟩
  · exact changed ▸ Document.cores_isPrefix_replay ..
  · exact Document.cores_bind? bound ▸ List.prefix_rfl

theorem cores_isPrefix_after (operations : List Operation) :
    session.document.cores <+: (session.after limits operations).document.cores :=
  session.after_induction limits (P := (session.document.cores <+: ·.document.cores))
    List.prefix_rfl (fun earlier operation kept =>
      kept.trans (cores_isPrefix_step limits earlier operation)) operations

variable {session}

/-- Elements are added and never removed, moved or given another identity.  As long as
there are no more of them than numbers, those of a document that began empty are numbered
in document order without a gap, and they are found by number and by id. -/
theorem identified_after (isNew : session.document = .fresh ∨ session.document = .unnumbered)
    (operations : List Operation) :
    (∀ further, (session.after limits operations).document.cores <+:
      ((session.after limits operations).after limits further).document.cores) ∧
    ((session.after limits operations).document.size ≤ maxNumber →
      Identified (session.draftsOf limits operations)
        (session.after limits operations).document) := by
  have numbered := numbered_after limits (.nil isNew) operations
  exact ⟨cores_isPrefix_after limits _, numbered.identified⟩

/-- A caller and a script add elements in turn, two of them under one id. -/
def guestOperations : List Operation :=
  [.edit (.add { kind := .tag "p" }),
    .edit (.add { kind := .tag "b", explicitId := some "guest" }),
    .run [⟨0⟩] "if (1) \x7b document.write('one') \x7d",
    .edit (.add { kind := .tag "i", explicitId := some "guest" }),
    .bind (.generated 2) "label",
    .run [] "document.write('two'); document.getElementById('guest').innerText = 'seen'",
    .edit (.append 1 "more" true)]

theorem identified_after_guestOperations :
    (after {} { document := .unnumbered } guestOperations).document.size ≤ maxNumber ∧
      Identified (draftsOf {} { document := .unnumbered } guestOperations)
        (after {} { document := .unnumbered } guestOperations).document ∧
      (after {} { document := .unnumbered } guestOperations).document.numbers = [1, 2, 3] := by
  obtain ⟨-, identified⟩ :=
    @identified_after {} { document := .unnumbered } (.inr rfl) guestOperations
  have facts :
      (after {} { document := .unnumbered } guestOperations).document.size ≤ maxNumber ∧
        (after {} { document := .unnumbered } guestOperations).document.numbers = [1, 2, 3] := by
    decide +kernel
  exact ⟨facts.1, identified facts.1, facts.2⟩

end Session
end Pagelet
