import CodeTint.Proofs.Document.Edit

/-!
Changes that take each other back. Main statement: what is inserted can be deleted at the same
position, what is deleted can be inserted there again, and the characters that a replacement takes
away can be put back in the place of the new ones; each time the document is what it was.
-/

set_option autoImplicit false
set_option relaxedAutoImplicit false

namespace CodeTint

private theorem Spliced.take_drop {start : Nat} {gone put old new : List Token}
    (h : Spliced start gone put old new) : (old.drop start).take gone.length = gone := by
  obtain ⟨left, right, rfl, rfl, -⟩ := h
  rw [List.append_assoc, List.drop_left, List.take_left]

namespace Document

variable {d : Document} {content : List Node} (version : Nat)

private theorem deleteNode_inserted {pos : Nat} {n : Node}
    (done : d.insertNode pos n = .ok content) :
    deleteNode ⟨content, version⟩ pos = .ok (d.content, n) := by
  obtain ⟨p, place, before, after⟩ := insertNode_eq_ok_iff.mp done
  exact deleteNode_eq_ok_iff.mpr ⟨p, place, after, before⟩

private theorem insertNode_deleted {pos : Nat} {n : Node}
    (done : d.deleteNode pos = .ok (content, n)) :
    insertNode ⟨content, version⟩ pos n = .ok d.content := by
  obtain ⟨p, place, before, after⟩ := deleteNode_eq_ok_iff.mp done
  exact insertNode_eq_ok_iff.mpr ⟨p, place, after, before⟩

private theorem replaceText_replaced {start stop : Nat} {new : String}
    (done : d.replaceText start stop new = .ok content) :
    ∃ gone : String, gone.toList.map .char = (d.tokens.drop start).take (stop - start) ∧
      replaceText ⟨content, version⟩ start (start + new.length) gone = .ok d.content := by
  obtain ⟨ordered, p, old, put, retyped, before, after⟩ := replaceText_eq_ok_iff.mp done
  obtain ⟨gone, length, spliced, back⟩ := retyped.exists_gone ordered p
  refine ⟨gone, ?_, replaceText_eq_ok_iff.mpr ⟨Nat.le_add_right _ _, p, put, old, back, after,
    before⟩⟩
  have there := spliced.take_drop
  rw [List.length_map, String.length_toList, length] at there
  rw [tokens, before, there]

/-- Each change can be taken back by one of the opposite kind at the same position, whatever version
the changed document has. -/
theorem changes_undone (d : Document) (version : Nat) :
    (∀ pos n content, d.insertNode pos n = .ok content →
      deleteNode ⟨content, version⟩ pos = .ok (d.content, n)) ∧
    (∀ pos n content, d.deleteNode pos = .ok (content, n) →
      insertNode ⟨content, version⟩ pos n = .ok d.content) ∧
    ∀ start stop new content, d.replaceText start stop new = .ok content →
      ∃ gone : String, gone.toList.map .char = (d.tokens.drop start).take (stop - start) ∧
        replaceText ⟨content, version⟩ start (start + new.length) gone = .ok d.content :=
  ⟨fun _ _ _ => deleteNode_inserted version, fun _ _ _ => insertNode_deleted version,
    fun _ _ _ _ => replaceText_replaced version⟩

/-! A rule in an empty block quote two levels deep, that block quote itself, and a letter of two
bytes beside it. -/

namespace Nested

def document : Document :=
  ⟨[.blockquote [.blockquote [], .codeBlock {} "año"], .paragraph "text"], 1⟩

def quoted : List Node :=
  [.blockquote [.blockquote [.horizontalRule], .codeBlock {} "año"], .paragraph "text"]

def unquoted : List Node := [.blockquote [.codeBlock {} "año"], .paragraph "text"]

def spelled : List Node :=
  [.blockquote [.blockquote [], .codeBlock {} "anyo"], .paragraph "text"]

theorem changes_undone_nested :
    document.insertNode 2 .horizontalRule = .ok quoted ∧
      deleteNode ⟨quoted, 2⟩ 2 = .ok (document.content, .horizontalRule) ∧
    document.deleteNode 1 = .ok (unquoted, .blockquote []) ∧
      insertNode ⟨unquoted, 2⟩ 1 (.blockquote []) = .ok document.content ∧
    document.replaceText 5 6 "ny" = .ok spelled ∧
      ∃ gone : String, gone.toList.map Token.char = (document.tokens.drop 5).take 1 ∧
        replaceText ⟨spelled, 2⟩ 5 7 gone = .ok document.content := by
  obtain ⟨inserted, deleted, replaced⟩ := changes_undone document 2
  have one : document.insertNode 2 .horizontalRule = .ok quoted := rfl
  have two : document.deleteNode 1 = .ok (unquoted, .blockquote []) := rfl
  have three : document.replaceText 5 6 "ny" = .ok spelled := rfl
  exact ⟨one, inserted 2 .horizontalRule quoted one, two, deleted 1 (.blockquote []) unquoted two,
    three, replaced 5 6 "ny" spelled three⟩

end Nested

end Document

end CodeTint
