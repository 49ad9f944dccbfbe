import TerminalUI.Proofs.Program.Running
import TerminalUI.Proofs.Terminal.Screen
import TerminalUI.Terminal.Inline

/-!
# Inline drawing is faithful

What the commands for one frame after another leave on the screen. The rows are counted from the one
on which the first frame is started; the terminal knows only on which line of the frame before it
left the cursor.

* `Screen.shows_drawLines` : lines printed on cleared rows are shown there, one below the other.
* `Screen.displays_draw` : one frame, drawn from the row the cursor was left on, replaces all that is
  on the screen from the first row on.
* `Inline.drawAll_displays` : **after every call of any run of calls, the screen shows the last frame
  and nothing else, above it everything is as it was, and the cursor is at the dot.**

The invariant of a run is `Inline.Drawn`: the screen displays the frame given last, and the line that
the terminal remembers is that of the cursor.
-/

namespace TerminalUI

/-- Cursor commands can reach every line and the dot of the frame. -/
structure Frame.Drawable (f : Frame) : Prop where
  height : f.height ≤ 65535
  column : f.dot.column ≤ 65535

instance (f : Frame) : Decidable f.Drawable :=
  decidable_of_iff (f.height ≤ 65535 ∧ f.dot.column ≤ 65535)
    ⟨fun h => ⟨h.1, h.2⟩, fun h => ⟨h.height, h.column⟩⟩

namespace Screen

/-- From the row on which the cursor was at the start, the screen shows these lines and nothing else,
each cell in its own style. The rows above are those of the start. -/
structure Shows (start : Screen) (lines : List (List Cell)) (s : Screen) : Prop where
  above : ∀ r < start.row, ∀ j, s.slots r j = start.slots r j
  lines : ∀ (i j : Nat),
    s.slots (start.row + i) j = (Slot.ofLine (lines.getD i [])).getD j .blank

/-- The screen shows a frame, and the cursor is at its dot, or on its last line. -/
structure Displays (start : Screen) (f : Frame) (s : Screen) : Prop
    extends Shows start f.lines s where
  row : s.row = start.row + (min f.dot.line (f.height - 1) : Nat)
  column : s.column = f.dot.column
  visible : s.visible = true

/-! ### Drawing a frame -/

theorem put_slots_of_ne (s : Screen) (text : List Slot) {r : Int} (h : r ≠ s.row) (j : Nat) :
    (s.put text).slots r j = s.slots r j := by
  simp [put, h]

theorem put_slots_of_blank {s : Screen} (hcolumn : s.column = 0)
    (hblank : ∀ j, s.slots s.row j = .blank) (text : List Slot) (j : Nat) :
    (s.put text).slots s.row j = text.getD j .blank := by
  simp [put, hcolumn, hblank]

theorem shows_nil {s : Screen} (hblank : ∀ r j, s.row ≤ r → s.slots r j = .blank) :
    Shows s [] s where
  above _ _ _ := rfl
  lines i j := by simpa using hblank (s.row + i) j (by omega)

/-- A line is shown above others, if it is there when they are started on the next row. -/
theorem Shows.cons {start below s : Screen} {line : List Cell} {rest : List (List Cell)}
    (h : Shows below rest s) (hrow : below.row = start.row + 1)
    (hfirst : ∀ j, below.slots start.row j = (Slot.ofLine line).getD j .blank)
    (habove : ∀ r < start.row, ∀ j, below.slots r j = start.slots r j) :
    Shows start (line :: rest) s where
  above r hr j := (h.above r (by omega) j).trans (habove r hr j)
  lines i j := by
    cases i with
    | zero =>
      have hi : start.row + ((0 : Nat) : Int) = start.row := by omega
      rw [hi, h.above start.row (by omega) j, hfirst j]
      rfl
    | succ i =>
      have hi : start.row + ((i + 1 : Nat) : Int) = below.row + i := by omega
      rw [hi, h.lines i j]
      rfl

/-- **Lines printed on cleared rows are shown there, one below the other**, and the cursor is left
on the last of them. -/
theorem shows_drawLines {s : Screen} {current : Option Style} (hcurrent : s.Agrees current)
    (hcolumn : s.column = 0) (hblank : ∀ r j, s.row ≤ r → s.slots r j = .blank)
    (lines : List (List Cell)) :
    Shows s lines (s.run (Drawing.drawLines current lines)) ∧
      (s.run (Drawing.drawLines current lines)).row = s.row + (lines.length - 1 : Nat) := by
  induction lines generalizing s current with
  | nil => exact ⟨shows_nil hblank, by simp [Drawing.drawLines]⟩
  | cons line rest ih =>
    obtain ⟨style, hrun, hagrees⟩ := run_drawLine s hcurrent line
    -- the line break leaves the first row as it is, and the rows from the next one on are clear
    let below : Screen := ({ s.put (Slot.ofLine line) with style } : Screen).exec .lineBreak
    have hrow : below.row = s.row + 1 := rfl
    have hfirst : ∀ j, below.slots s.row j = (Slot.ofLine line).getD j .blank :=
      put_slots_of_blank hcolumn (fun j => hblank s.row j (Int.le_refl _)) (Slot.ofLine line)
    have hother : ∀ r j, r ≠ s.row → below.slots r j = s.slots r j :=
      fun r j hr => put_slots_of_ne s _ hr j
    have habove : ∀ r < s.row, ∀ j, below.slots r j = s.slots r j :=
      fun r hr j => hother r j (Int.ne_of_lt hr)
    have hclear : ∀ r j, below.row ≤ r → below.slots r j = .blank := by
      intro r j hr
      rw [hother r j (by omega)]
      exact hblank r j (by omega)
    cases rest with
    | nil =>
      simp only [Drawing.drawLines]
      rw [hrun]
      have hnothing : Shows below [] { s.put (Slot.ofLine line) with style } :=
        ⟨fun _ _ _ => rfl, (shows_nil hclear).lines⟩
      exact ⟨hnothing.cons hrow hfirst habove, by simp [put]⟩
    | cons next rest =>
      have hnext : below.Agrees (Drawing.styleAfter current line) := hagrees
      obtain ⟨hshows, hend⟩ := ih hnext rfl hclear
      rw [Drawing.drawLines, run_append, hrun, run_cons]
      refine ⟨hshows.cons hrow hfirst habove, ?_⟩
      rw [hend, hrow]
      simp only [List.length_cons]
      omega

/-- The screen with nothing left from so many rows above the cursor on, where the cursor goes. -/
def clearedFrom (s : Screen) (lines : Nat) : Screen :=
  { s with
    slots := fun r j => if s.row - lines ≤ r then .blank else s.slots r j
    row := s.row - lines
    column := 0
    visible := false }

theorem run_clear (s : Screen) {line : Nat} (h : line ≤ Drawing.farthest) :
    s.run (.cursor false :: (Drawing.moveUp line ++ [.column 0, .clearBelow])) =
      s.clearedFrom line := by
  rw [run_cons, run_append, run_moveUp _ h]
  simp only [run_cons, run_nil, exec, clearedFrom, mk.injEq, and_true]
  funext r j
  have hiff : (s.row - line < r ∨ r = s.row - line ∧ 0 ≤ j) ↔ s.row - line ≤ r := by omega
  simp only [hiff]

/-- Placing the cursor changes nothing that is shown. -/
theorem run_place (s : Screen) {f : Frame} (hf : f.Drawable) :
    s.run (.reset :: (Drawing.moveUp (f.lines.length - 1 - Drawing.cursorLine f) ++
        [.column (min f.dot.column Drawing.farthest), .cursor true])) =
      { s with
        row := s.row - (f.lines.length - 1 - Drawing.cursorLine f : Nat)
        column := f.dot.column
        style := {}
        visible := true } := by
  have hheight : f.lines.length ≤ 65535 := hf.height
  have hup : f.lines.length - 1 - Drawing.cursorLine f ≤ Drawing.farthest := by
    unfold Drawing.farthest
    omega
  have hcolumn : min f.dot.column Drawing.farthest = f.dot.column := Nat.min_eq_left hf.column
  rw [run_cons, run_append, run_moveUp _ hup, hcolumn]
  rfl

/-- **A frame replaces all that is shown from the first row on**, when it is drawn while the cursor
is as many lines below that row as the terminal remembers. -/
theorem displays_draw {start s : Screen} {line : Nat} {f : Frame} (hf : f.Drawable)
    (hline : line ≤ Drawing.farthest) (hrow : s.row = start.row + line)
    (habove : ∀ r < start.row, ∀ j, s.slots r j = start.slots r j) :
    Displays start f (s.run (Drawing.draw line f)) := by
  have hdraw : Drawing.draw line f =
      .cursor false :: (Drawing.moveUp line ++ [.column 0, .clearBelow]) ++
        (Drawing.drawLines none f.lines ++
          .reset :: (Drawing.moveUp (f.lines.length - 1 - Drawing.cursorLine f) ++
            [.column (min f.dot.column Drawing.farthest), .cursor true])) := by
    simp [Drawing.draw]
  rw [hdraw, run_append, run_clear s hline, run_append, run_place _ hf]
  have hfirst : (s.clearedFrom line).row = start.row := by
    simp only [clearedFrom]
    omega
  have hblank : ∀ r j, (s.clearedFrom line).row ≤ r → (s.clearedFrom line).slots r j = .blank :=
    fun r j hr => if_pos hr
  have hkept : ∀ r < start.row, ∀ j, (s.clearedFrom line).slots r j = start.slots r j := by
    intro r hr j
    have hr' : ¬ s.row - line ≤ r := by omega
    exact (if_neg hr').trans (habove r hr j)
  have hnone : (s.clearedFrom line).Agrees none := fun _ h => nomatch h
  obtain ⟨hshows, hend⟩ := shows_drawLines hnone rfl hblank f.lines
  refine ⟨⟨fun r hr j => ?_, fun i j => ?_⟩, ?_, rfl, rfl⟩
  · exact (hshows.above r (by omega) j).trans (hkept r hr j)
  · rw [← hfirst]
    exact hshows.lines i j
  · have hle : Drawing.cursorLine f ≤ f.lines.length - 1 := Nat.min_le_right _ _
    have hdot : min f.dot.line (f.height - 1) = Drawing.cursorLine f := rfl
    simp only [hend, hdot]
    omega

end Screen

/-! ### Runs of an inline terminal -/

namespace Inline

/-- Shows frames one after another, each given with the one before. -/
def drawAll (previous : Option Frame) : List (Frame × Bool) → Device Inline Unit
  | [] => return ()
  | (frame, full) :: calls => do
    draw previous frame full
    drawAll (some frame) calls

/-- The frame given last, in calls after `previous` was given. -/
def given (previous : Option Frame) (calls : List (Frame × Bool)) : Option Frame :=
  calls.foldl (fun _ call => some call.1) previous

/-- The commands so far have left the frame given last on the screen, and the cursor on the line
that the terminal remembers. -/
def Drawn (start : Screen) : Option Frame → Inline → Prop
  | none, t => t.line = 0 ∧ t.output = []
  | some f, t =>
    f.Drawable ∧ t.line = Drawing.cursorLine f ∧ start.Displays f (start.run t.output)

variable {start : Screen} {previous : Option Frame} {t : Inline}

/-- Where the next frame is drawn from. -/
theorem Drawn.placed (h : Drawn start previous t) :
    t.line ≤ Drawing.farthest ∧ (start.run t.output).row = start.row + t.line ∧
      ∀ r < start.row, ∀ j, (start.run t.output).slots r j = start.slots r j := by
  cases previous with
  | none =>
    obtain ⟨hline, houtput⟩ := h
    simp [hline, houtput, Screen.run]
  | some f =>
    obtain ⟨hf, hline, hdisplays⟩ := h
    have hheight : f.lines.length ≤ 65535 := hf.height
    refine ⟨?_, ?_, hdisplays.above⟩
    · rw [hline]
      unfold Drawing.cursorLine Drawing.farthest
      omega
    · rw [hline]
      exact hdisplays.row

/-- **One call keeps the invariant**: it draws the frame where the one before was, or leaves it
there because it is the same. -/
theorem exists_draw (h : Drawn start previous t) {f : Frame} (hf : f.Drawable) (full : Bool) :
    ∃ t', (draw previous f full).run t = (.ok (), t') ∧ Drawn start (some f) t' := by
  by_cases hskip : full = false ∧ previous = some f
  · obtain ⟨rfl, rfl⟩ := hskip
    exact ⟨t, by simp [draw]; rfl, h⟩
  · obtain ⟨hline, hrow, habove⟩ := h.placed
    have hdrawn := Screen.displays_draw hf hline hrow habove
    refine ⟨{ t with
        output := t.output ++ Drawing.draw t.line f, line := Drawing.cursorLine f }, ?_, hf, rfl, ?_⟩
    · have hcond : (full || decide (previous ≠ some f)) = true := by
        cases full <;> simp_all
      simp only [draw, hcond]
      rfl
    · rwa [Screen.run_append]

/-- A run of calls keeps the invariant, by induction over the calls. -/
theorem exists_drawAll (h : Drawn start previous t) {calls : List (Frame × Bool)}
    (hcalls : ∀ call ∈ calls, call.1.Drawable) :
    ∃ t', (drawAll previous calls).run t = (.ok (), t') ∧ Drawn start (given previous calls) t' := by
  induction calls generalizing previous t with
  | nil => exact ⟨t, rfl, h⟩
  | cons call calls ih =>
    obtain ⟨f, full⟩ := call
    obtain ⟨t₁, hrun₁, hdrawn₁⟩ := exists_draw h (hcalls _ List.mem_cons_self) full
    obtain ⟨t₂, hrun₂, hdrawn₂⟩ := ih hdrawn₁ fun call hmem => hcalls call (.tail _ hmem)
    refine ⟨t₂, ?_, hdrawn₂⟩
    rw [← hrun₂]
    exact run_bind_of_ok hrun₁

/-- **After every call of any run of calls on a fresh terminal, the screen shows the last frame and
nothing else**: from the row on which the first frame was started, its lines, each cell in exactly
its own style, with nothing beside or below them; above that row, everything as it was; the cursor
on the dot's line, or the last one, in the dot's column. -/
theorem drawAll_displays (start : Screen) (size : Size) (input : List Input)
    (calls : List (Frame × Bool)) (f : Frame) (full : Bool)
    (h : ∀ call ∈ calls ++ [(f, full)], call.1.Drawable) :
    ∃ t, (drawAll none (calls ++ [(f, full)])).run { size, input } = (.ok (), t) ∧
      start.Displays f (start.run t.output) := by
  have hfresh : Drawn start none { size, input } := ⟨rfl, rfl⟩
  obtain ⟨t, hrun, hdrawn⟩ := exists_drawAll hfresh h
  have hlast : given none (calls ++ [(f, full)]) = some f := by simp [given]
  rw [hlast] at hdrawn
  exact ⟨t, hrun, hdrawn.2.2⟩

/-- Three lines with the dot on the second, the same again, no line at all, and one line with a wide
cluster: the last is where the first was, and nothing is left of the other lines below it. -/
theorem drawAll_displays_heights :
    let tall : Frame := ⟨8, [[⟨"a", {}⟩], [⟨"b", { foreground := some .red }⟩], []], ⟨1, 1⟩⟩
    let wide : Frame := ⟨8, [[⟨"界", Style.plain.withAttribute .inverse⟩]], ⟨4, 2⟩⟩
    let start : Screen := ⟨fun _ _ => .cluster "$" {}, 7, 3, {}, true⟩
    ∃ t, (drawAll none ([(tall, true), (tall, false), (⟨8, [], {}⟩, false)] ++
        [(wide, false)])).run { size := ⟨24, 8⟩, input := [] } = (.ok (), t) ∧
      (start.run t.output).slots 6 0 = .cluster "$" {} ∧
      (start.run t.output).slots 7 0 = .cluster "界" (Style.plain.withAttribute .inverse) ∧
      (start.run t.output).slots 7 1 = .rest ∧
      (∀ j, (start.run t.output).slots 8 j = .blank) ∧
      (start.run t.output).row = 7 ∧ (start.run t.output).column = 2 := by
  intro tall wide start
  obtain ⟨t, hrun, hdisplays⟩ := drawAll_displays start ⟨24, 8⟩ []
    [(tall, true), (tall, false), (⟨8, [], {}⟩, false)] wide false (by decide)
  have hline : Slot.ofLine (wide.lines.getD 0 []) =
      [.cluster "界" (Style.plain.withAttribute .inverse), .rest] := by decide +kernel
  refine ⟨t, hrun, hdisplays.above 6 (by decide) 0, ?_, ?_, fun j => hdisplays.lines 1 j,
    hdisplays.row, hdisplays.column⟩
  · have h := hdisplays.lines 0 0
    rwa [hline] at h
  · have h := hdisplays.lines 0 1
    rwa [hline] at h

end Inline

end TerminalUI
