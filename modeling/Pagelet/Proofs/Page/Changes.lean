import Pagelet.Proofs.Document.Captions
import Pagelet.Proofs.Page.Chains
import Pagelet.Proofs.Run.Changes

/-!
# The changes that markup and clicks make

While a page is read its document changes in no other way than by single changes, so no
listener is bound to any of its elements.  A click makes the changes of the handler that it
runs, and sets the texts that these set.
-/

namespace Pagelet
namespace Page

open Document (Change ElementId Framed)
open Markup (Token)

namespace Assembly

variable (assembly : Assembly)

/-- Text that is added is told by changes of the document. -/
theorem exists_replay_addText (text : String) :
    ∃ changes, (assembly.addText text).document = assembly.document.replay changes := by
  rw [addText]
  split
  · exact ⟨[], rfl⟩
  · dsimp only
    split
    · exact ⟨[], rfl⟩
    · exact ⟨[.append _ _ _], rfl⟩

theorem exists_replay_closeElement (name : String) :
    ∃ changes, (assembly.closeElement name).document = assembly.document.replay changes := by
  rw [closeElement]
  split
  · exact ⟨[], rfl⟩
  · split
    · dsimp only
      split
      · exact ⟨[.add _], rfl⟩
      · exact ⟨[], rfl⟩
    · exact ⟨[], rfl⟩

theorem exists_replay_useScript (settings : Settings) (source : String) :
    ∃ changes, (useScript settings assembly source).document =
      assembly.document.replay changes := by
  rw [useScript]
  split
  · exact ⟨_, Script.document_run source assembly.environment assembly.document⟩
  · exact ⟨[], rfl⟩

/-- A token changes the document by single changes. -/
theorem exists_replay_take (settings : Settings) (token : Token) :
    ∃ changes, (take settings assembly token).document = assembly.document.replay changes := by
  cases token with
  | start name attributes selfClosing =>
      simp only [take, startTag]
      repeat' split
      all_goals first
        | exact ⟨[], rfl⟩
        | exact ⟨[.add _], rfl⟩
  | finish name =>
      simp only [take, endTag]
      repeat' split
      all_goals first
        | exact exists_replay_closeElement assembly name
        | exact ⟨[], rfl⟩
        | exact exists_replay_useScript { assembly with mode := .markup } settings _
  | text content =>
      simp only [take, takeText]
      split
      · exact exists_replay_addText assembly content
      all_goals exact ⟨[], rfl⟩

/-- Whatever the tokens, what they do to the document is told by changes. -/
theorem exists_replay_foldl_take (settings : Settings) (tokens : List Token) :
    ∃ changes, (tokens.foldl (take settings) assembly).document =
      assembly.document.replay changes := by
  induction tokens generalizing assembly with
  | nil => exact ⟨[], rfl⟩
  | cons token rest ih =>
      obtain ⟨first, taken⟩ := exists_replay_take assembly settings token
      obtain ⟨others, later⟩ := ih (take settings assembly token)
      exact ⟨first ++ others, by rw [List.foldl_cons, later, taken, Document.replay_append]⟩

end Assembly

/-- No listener is bound to an element of a page that has been read. -/
theorem listenerAt_parse (settings : Settings) (markup : String) (index : Nat) :
    (parse settings markup).document.listenerAt index = none := by
  obtain ⟨changes, written⟩ :=
    Assembly.exists_replay_foldl_take {} settings (Token.ofMarkup markup)
  have whole : (parse settings markup).document = Document.fresh.replay changes := written
  rw [whole, Document.listenerAt_replay]
  rfl

variable (page : Page) (id : ElementId)

/-- The changes that a click makes to the document.  Where there is nothing to run it makes
none. -/
def clickChanges : List Change :=
  match page.document.find? id with
  | none => []
  | some element =>
      match element.clickHandler? with
      | none => []
      | some handler =>
          Script.changes ⟨page.limits, element.chain⟩ handler page.environment page.document

/-- The texts that a click sets on the first element with an id of its own, in order. -/
def textsSet (name : String) : List String :=
  match page.document.indexOf? (.explicit name) with
  | none => []
  | some index => Document.textsOn index (page.document.eventsOf (page.clickChanges id))

/-- A click makes its changes and does nothing else to the document. -/
theorem document_afterClick :
    (page.afterClick id).document = page.document.replay (page.clickChanges id) := by
  rw [afterClick, click, clickChanges]
  cases page.document.find? id with
  | none => rfl
  | some element =>
      cases unhandled : element.clickHandler? with
      | none => simp [unhandled]
      | some handler =>
          simpa [unhandled, runScript] using
            Script.document_run handler page.environment page.document

/-- A click leaves all of the document but what scripts may change. -/
theorem exists_framed_afterClick :
    ∃ chain, Framed chain page.document (page.document.replay (page.clickChanges id)) := by
  rw [clickChanges]
  cases page.document.find? id with
  | none => exact ⟨[], .refl [] page.document⟩
  | some element =>
      cases unhandled : element.clickHandler? with
      | none => exact ⟨[], by simpa [unhandled] using Framed.refl [] page.document⟩
      | some handler =>
          refine ⟨element.chain, ?_⟩
          simp only [unhandled, ← Script.document_run]
          exact Script.run_framed ⟨page.limits, element.chain⟩ handler page.environment
            page.document

end Page
end Pagelet
