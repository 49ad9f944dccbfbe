import TerminalUI.Proofs.View.Bounds

/-!
# Drawing on a machine of words

What is drawn is the frame of a view, unless a number overflows on the way (`View.draw_computes`). A
code area has one such number, the room for its right prompt, so it is drawn without a failure at
every width that is a signed word (`CodeLayout.draw_eq`).
-/

namespace TerminalUI

namespace CodeLayout

variable {v : CodeLayout} {width : Nat} {w : Writer}

theorem drawRightPrompt_computes (v : CodeLayout) (width : Nat) (w : Writer) :
    Computes (v.drawRightPrompt width w) (v.writeRightPrompt width w) := by
  have hroom := signedSubAll_computes (signedWord width) [w.column, v.rightPrompt.width]
  rw [subAll_pair] at hroom
  unfold drawRightPrompt writeRightPrompt
  split
  · exact .ok w
  · exact hroom.bind (.ok _)

theorem draw_computes (v : CodeLayout) (width height : Nat) :
    Computes (v.draw width height) (v.render width height) := by
  rw [draw, render, fullFrame]
  exact (v.drawRightPrompt_computes width (v.writeCode width)).bind (.ok _)

/-- At half the range of words there is an overflow. -/
example : ({ rightPrompt := .plain ">" } : CodeLayout).draw signedLimit 1 = .error .overflow := by
  rfl

end CodeLayout

namespace View

theorem drawBeside_computes (left right : Frame) :
    Computes (drawBeside left right) (left.beside right) :=
  (checkWord_computes _).bind (.ok _)

theorem drawRows_computes {rest : List View} (focus width : Nat) (height : Int) (n i : Nat)
    (above : Frame)
    (hrest : ∀ v ∈ rest, ∀ width height, Computes (v.draw width height) (v.render width height)) :
    Computes (drawRows rest focus width height n i above)
      (renderRows rest focus width height n i above) := by
  induction rest generalizing i above with
  | nil => exact .ok above
  | cons row rest ih =>
    obtain ⟨hrow, hrest⟩ := List.forall_mem_cons.mp hrest
    have hroom : Computes (signedSubAll height [above.lines.length, n, i, 1])
        (budget height above.lines.length n i) := signedSubAll_computes _ _
    rw [drawRows, renderRows_cons]
    refine hroom.bind ?_
    split
    · exact .ok above
    · exact (hrow _ _).bind (ih (i + 1) _ hrest)

theorem drawColumns_computes {rest : List View} (each height : Nat) (left : Frame)
    (hrest : ∀ v ∈ rest, ∀ width height, Computes (v.draw width height) (v.render width height)) :
    Computes (drawColumns rest each height left) (renderColumns rest each height left) := by
  induction rest generalizing left with
  | nil => exact .ok left
  | cons column rest ih =>
    obtain ⟨hcolumn, hrest⟩ := List.forall_mem_cons.mp hrest
    rw [drawColumns, renderColumns_cons]
    exact (hcolumn _ _).bind ((drawBeside_computes _ _).bind (ih _ hrest))

theorem drawFlexible_computes {rest : List View} (gap width height : Nat) (isFirst : Bool)
    (left : Frame)
    (hrest : ∀ v ∈ rest, ∀ width height, Computes (v.draw width height) (v.render width height)) :
    Computes (drawFlexible rest gap width height isFirst left)
      (renderFlexible rest gap width height isFirst left) := by
  induction rest generalizing isFirst left with
  | nil => exact .ok left
  | cons column rest ih =>
    obtain ⟨hcolumn, hrest⟩ := List.forall_mem_cons.mp hrest
    rw [drawFlexible, renderFlexible_cons]
    refine (checkWord_computes _).bind ((checkWord_computes _).bind ((hcolumn _ _).bind ?_))
    cases isFirst with
    | true => exact (Computes.ok _).bind ((drawBeside_computes _ _).bind (ih false _ hrest))
    | false =>
      exact (checkWord_computes _).bind ((drawBeside_computes _ _).bind (ih false _ hrest))

/-- **What is drawn is the frame**, unless a number overflows, for every nesting of views. -/
theorem draw_computes (v : View) (width height : Nat) :
    Computes (v.draw width height) (v.render width height) := by
  induction v using nested_induction generalizing width height with
  | empty => exact .ok _
  | text spans dotAfter => exact .ok _
  | code layout => exact layout.draw_computes width height
  | rows children focus ih =>
    cases children with
    | nil => exact .ok _
    | cons first rest =>
      obtain ⟨hfirst, hrest⟩ := List.forall_mem_cons.mp ih
      have hroom := signedSubAll_computes (signedWord height) [rest.length + 1, 1]
      rw [subAll_pair] at hroom
      rw [draw, render_rows_cons]
      exact hroom.bind ((hfirst _ _).bind (drawRows_computes focus width _ _ 1 _ hrest))
  | columns children focus ih =>
    cases children with
    | nil => exact .ok _
    | cons first rest =>
      obtain ⟨hfirst, hrest⟩ := List.forall_mem_cons.mp ih
      rw [draw, render_columns_cons]
      exact (hfirst _ _).bind (drawColumns_computes _ height _ hrest)
  | flexible children focus gap ih =>
    rw [draw, render_flexible]
    exact drawFlexible_computes gap width height true _ ih

end View

end TerminalUI
