import LineEditor.Line.Whole
import LineEditor.Line.WordEdit
import LineEditor.Proofs.Line.Span

/-!
# Deleting from a line

What an operation that deletes leaves of the text are characters of it in their order, wherever the
cursor and the mark stand. Most of these operations delete a span, others a single character, and
some keep one end of the line.
-/

namespace LineEditor

namespace Text

theorem trimLeft_sublist (s : List Char) : (trimLeft s).Sublist s :=
  List.dropWhile_sublist _

theorem trimRight_sublist (s : List Char) : (trimRight s).Sublist s := by
  have h := (List.dropWhile_sublist isBlank (l := s.reverse)).reverse
  rw [List.reverse_reverse] at h
  exact h

theorem trim_sublist (s : List Char) : (trim s).Sublist s :=
  (trimLeft_sublist (trimRight s)).trans (trimRight_sublist s)

end Text

namespace Line

/-- Killing a span deletes it, whatever becomes of the cursor and the mark. -/
theorem kill_sublist (s : Span) (line : Line) : (line.kill s).text.Sublist line.text :=
  s.replace_nil_sublist line.text

theorem cut_sublist (line : Line) : line.cut.text.Sublist line.text :=
  line.region.replace_nil_sublist line.text

theorem delete_sublist (line : Line) : line.delete.text.Sublist line.text :=
  List.eraseIdx_sublist _ _

theorem deleteBack_sublist (line : Line) : line.deleteBack.text.Sublist line.text := by
  unfold deleteBack
  split
  · exact List.Sublist.refl _
  · exact List.eraseIdx_sublist _ _

theorem removeAfter_sublist (line : Line) : line.removeAfter.text.Sublist line.text :=
  Span.replace_nil_sublist _ line.text

theorem truncateBy_sublist (amount : Int) (line : Line) :
    (line.truncateBy amount).text.Sublist line.text :=
  List.take_sublist _ _

theorem trim_sublist (line : Line) : line.trim.text.Sublist line.text :=
  Text.trim_sublist line.text

end Line

end LineEditor
