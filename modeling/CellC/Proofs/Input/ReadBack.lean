import CellC.Proofs.Input.Feeding
import CellC.Proofs.Output.Prints

/-!
# Output as input

What a program prints can be read by another one. Each integer stands on a line of its own, in
decimal, and is a word of the text; so a source that is made from the text gives the integers back,
the least one of all cells as well as any other, in the order in which they were printed.

## Main definitions

* `Config.readCalls`: calls in a row that read an integer each

## Main results

* `Config.returns_readCall`: a call that reads an integer yields the next reading of the source
* `printed_integers_read_back`: which integers are read from output
-/

namespace CellC

/-! ### Sources that offer integers -/

namespace Input

variable {input : Input} {cells : List Cell}

/-- A source that offers integers gives them one after the other, and nothing from then on. -/
theorem map_value?_readMany (offers : input.upcoming = cells.map .value) (k : Nat) :
    (input.readMany k).1.map Reading.value? = (List.range k).map (cells[·]?) := by
  rw [readMany_eq, offers, List.map_map]
  refine List.map_congr_left fun i _ => ?_
  simp only [Function.comp, List.getD_eq_getElem?_getD, List.getElem?_map]
  cases cells[i]? <;> rfl

/-- A text of integers, each on its line, offers these integers. -/
theorem upcoming_ofText {text : String} (linesOf : LinesOf (cells.map Cell.text) text) :
    (ofText text).upcoming = cells.map .value := by
  have words : words text = cells.map Cell.text := by
    rw [linesOf.words_eq, List.flatMap_map]
    exact (List.flatMap_congr fun cell _ => words_text cell).trans (List.map_eq_flatMap).symm
  show (CellC.words text).map Reading.ofWord = _
  rw [words, List.map_map]
  exact List.map_congr_left fun cell _ => Reading.ofWord_text cell

end Input

/-! ### Calls that read an integer -/

/-- Calls in a row that read an integer each. -/
def Config.readCalls (config : Config) (type : TypeId) : Nat → Action (List Value)
  | 0 => pure []
  | k + 1 => do
    let value ← config.primitiveCall .read [] type
    let values ← config.readCalls type k
    pure (value :: values)

namespace Config

variable (config : Config) (type : TypeId)

/-- A call that reads an integer yields the next reading of the source, or zero if that is no
integer. -/
theorem returns_readCall (s : State) :
    ∃ t, (config.primitiveCall .read [] type).Returns s
      (.ok (config.types.view type (s.input.read.1.value?.getD 0))) t ∧
      t.input = s.input.read.2 := by
  have read (s : State) : ∃ t, (config.readValue type).Returns s
      (.ok (config.types.view type (s.input.read.1.value?.getD 0))) t ∧
      t.input = s.input.read.2 := by
    unfold Action.Returns readValue Action.readInteger
    rw [EStateM.run_bind, EStateM.run_bind, EStateM.run_modifyGet]
    dsimp only
    cases s.input.read.1 with
    | value n => exact ⟨_, rfl, rfl⟩
    | malformed word error => exact ⟨_, rfl, rfl⟩
    | unavailable => exact ⟨_, rfl, rfl⟩
  obtain ⟨t, returned, rest⟩ := read { s with printer := s.printer.prompted config.prompt }
  rw [primitiveCall_read]
  exact ⟨t, Action.returns_bind_iff.mpr (.inl ⟨(), s, rfl,
    Action.returns_bind_iff.mpr (.inl ⟨(), _, rfl, returned⟩)⟩), rest⟩

theorem returns_readCalls (k : Nat) (s : State) :
    ∃ t, (config.readCalls type k).Returns s
      (.ok ((s.input.readMany k).1.map fun reading =>
        config.types.view type (reading.value?.getD 0))) t := by
  induction k generalizing s with
  | zero => exact ⟨s, rfl⟩
  | succ k ih =>
    obtain ⟨t, first, rest⟩ := config.returns_readCall type s
    obtain ⟨u, others⟩ := ih t
    refine ⟨u, Action.returns_bind_iff.mpr (.inl ⟨_, t, first, ?_⟩)⟩
    refine Action.returns_bind_iff.mpr (.inl ⟨_, u, others, ?_⟩)
    rw [rest]
    rfl

end Config

/-- **Printed integers read back.** Let the output of a program be kept, and let it have no lines
that ask for integers, whatever the program was asked for. Then its lines are the integers that were
printed, in their order. A source that is made from this text gives these integers one after the
other and nothing from then on. So do calls in a row that read an integer each, which take zero once
there is none, and so do the calls in the course of any request whose source the text is. The text
may also be pushed piece by piece, with readings in between: if each piece consists of whole lines
and no reading comes before its line, the integers are the same. -/
theorem printed_integers_read_back {program : Program} {settings : Settings}
    {interpreter : Interpreter} (started : Interpreter.start program settings = .ok interpreter)
    (keeps : settings.channel = .buffer) {past : List Exchange} {t : State}
    (session : interpreter.config.Session interpreter.state past t)
    (unasked : promptLine ∉ t.printer.lines) {cells : List Cell}
    (printed : interpreter.config.prints t.journal = cells) :
    let text := t.printer.captured
    LinesOf (cells.map Cell.text) text ∧
    (∀ k, ((Input.ofText text).readMany k).1.map Reading.value? =
      (List.range k).map (cells[·]?)) ∧
    (∀ (config : Config) type k s, s.input = .ofText text → ∃ u,
      (config.readCalls type k).Returns s
        (.ok ((List.range k).map fun i => config.types.view type (cells[i]?.getD 0))) u) ∧
    (∀ (config : Config) levels request s result u, s.input = .ofText text →
      (config.carryOut levels request).Returns s result u →
        let taken := (config.operations levels request s).readings
        taken.map Reading.value? = (List.range taken.length).map (cells[·]?)) ∧
    ∀ feeds : List Feed, Feed.pushed feeds = text → Feed.WholeLines feeds → Feed.InTime feeds →
      ((Input.ofText "").feed feeds).map Reading.value? =
        (List.range (feeds.count .read)).map (cells[·]?) := by
  have linesOf : LinesOf (cells.map Cell.text) t.printer.captured :=
    printed ▸ (Config.Session.prints started keeps session).captured unasked
  have values := Input.map_value?_readMany (Input.upcoming_ofText linesOf)
  refine ⟨linesOf, values, fun config type k s source => ?_,
    fun config levels request s result u source returned => ?_,
    fun feeds pushed whole inTime => ?_⟩
  · obtain ⟨u, returned⟩ := config.returns_readCalls type k s
    have results := congrArg (List.map fun value? : Option Cell =>
      config.types.view type (value?.getD 0)) (values k)
    rw [List.map_map, List.map_map, ← source] at results
    exact ⟨u, results ▸ returned⟩
  · have taken := congrArg Prod.fst (config.readMany_operations returned)
    intro readings
    rw [source] at taken
    rw [← values, taken]
  · have filled (line : String) (member : line ∈ cells.map Cell.text) : words line ≠ [] := by
      obtain ⟨cell, -, rfl⟩ := List.mem_map.mp member
      rw [words_text]
      exact List.cons_ne_nil _ _
    rw [Input.feed_eq_of_wholeLines whole inTime (pushed ▸ linesOf) filled, pushed]
    exact values _

/-- A program that prints the greatest of all cells and, as the number after it, the least one. -/
def printedExtremes : Program where
  names := ⟨⟨#["", "PRINT", "main"]⟩⟩
  exprs := #[⟨.intLit 9223372036854775807, .int⟩, ⟨.intLit 1, .int⟩, ⟨.binary .add ⟨0⟩ ⟨1⟩, .int⟩,
    ⟨.call ⟨0⟩ [⟨0⟩], .void⟩, ⟨.call ⟨0⟩ [⟨2⟩], .void⟩]
  stmts := #[.expr ⟨3⟩, .expr ⟨4⟩, .compound [⟨0⟩, ⟨1⟩]]
  vars := #[⟨⟨0⟩, .int, none⟩]
  funcs := #[⟨⟨1⟩, [⟨0⟩], .void, none⟩, ⟨⟨2⟩, [], .int, some ⟨2⟩⟩]
  topLevel := #[.function ⟨0⟩, .function ⟨1⟩]

/-- The first line is pushed and read, and then the second one, after which nothing is left. -/
theorem printed_integers_read_back_printedExtremes : ∃ interpreter t,
    Interpreter.start printedExtremes { channel := .buffer } = .ok interpreter ∧
      interpreter.config.Session interpreter.state [⟨9, .run, .ok (.int 0)⟩] t ∧
      t.printer.captured = "9223372036854775807\n-9223372036854775808\n" ∧
      ((Input.ofText t.printer.captured).readMany 3).1.map Reading.value? =
        [some 9223372036854775807, some (-9223372036854775808), none] ∧
      ((Input.ofText "").feed [.push "9223372036854775807\n", .read,
        .push "-9223372036854775808\n", .read, .read]).map Reading.value? =
        [some 9223372036854775807, some (-9223372036854775808), none] := by
  have ran : ∃ interpreter t,
      Interpreter.start printedExtremes { channel := .buffer } = .ok interpreter ∧
      (interpreter.config.run 9).Returns interpreter.state (.ok (.int 0)) t ∧
      interpreter.config.prints t.journal = [9223372036854775807, -9223372036854775808] ∧
      t.printer.captured = "9223372036854775807\n-9223372036854775808\n" ∧
      t.printer.lines = #["9223372036854775807", "-9223372036854775808"] :=
    ⟨_, _, rfl, rfl, by decide, by decide, by decide⟩
  obtain ⟨interpreter, t, started, returned, printed, captured, lines⟩ := ran
  have session : interpreter.config.Session interpreter.state [⟨9, .run, .ok (.int 0)⟩] t :=
    .exchange ⟨9, .run, .ok (.int 0)⟩ .start trivial returned
  obtain ⟨-, values, -, -, fed⟩ :=
    printed_integers_read_back started (by rfl) session (by simp [lines, promptLine]) printed
  have whole : Feed.WholeLines [.push "9223372036854775807\n", .read,
      .push "-9223372036854775808\n", .read, .read] := by
    intro piece member
    obtain rfl | rfl : piece = "9223372036854775807\n" ∨ piece = "-9223372036854775808\n" := by
      simpa using member
    · exact ⟨["9223372036854775807"], by decide, by decide⟩
    · exact ⟨["-9223372036854775808"], by decide, by decide⟩
  exact ⟨interpreter, t, started, session, captured, values 3,
    fed _ (by rw [captured]; decide) whole (by decide)⟩

end CellC
