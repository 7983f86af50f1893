import CellC.Proofs.Input.Numerals
import CellC.Proofs.Input.Sources
import Mathlib.Algebra.BigOperators.Group.List.Basic

/-!
# Sources that are fed

A text need not be there as a whole before the first integer is read. It may be pushed piece by
piece, with readings in between. As long as pieces end where lines end and no reading comes before
the text that it needs, the readings are those of the whole text.

## Main definitions

* `Feed`, `Input.feed`: what is done with a source, and the readings that it gives
* `Feed.pushed`, `Feed.WholeLines`: the text that is pushed, and pieces that consist of lines
* `Feed.InTime`: no reading comes before its line

## Main results

* `Input.feed_eq`: the readings of a source that is fed in time
* `Feed.words_pushed_of_append`: the words that were pushed at some time
-/

namespace CellC

/-- What is done with a source that is fed. -/
inductive Feed
  /-- More text is appended. -/
  | push (piece : String)
  /-- An integer is read. -/
  | read
deriving DecidableEq

/-- The readings of a source that is fed. -/
def Input.feed : Input → List Feed → List Reading
  | _, [] => []
  | input, .push piece :: feeds => (input.append piece).feed feeds
  | input, .read :: feeds => input.read.1 :: input.read.2.feed feeds

namespace Feed

/-- The text that is appended. -/
def text : Feed → String
  | push piece => piece
  | read => ""

/-- The text that is pushed in the course of all feeds. -/
def pushed (feeds : List Feed) : String := String.join (feeds.map text)

/-- The pieces consist of whole lines. -/
def WholeLines (feeds : List Feed) : Prop :=
  ∀ piece, push piece ∈ feeds → ∃ lines, LinesOf lines piece

/-- No reading comes before its line: before each one fewer integers have been read than lines have
been pushed, unless everything has been pushed. -/
def InTime (feeds : List Feed) : Prop :=
  ∀ before after, feeds = before ++ read :: after →
    before.count read < (pushed before).toList.count '\n' ∨ pushed after = ""

/-- The words that are pushed, piece by piece. -/
def offered (feeds : List Feed) : List String := feeds.flatMap fun feed => words feed.text

variable {feeds before after : List Feed}

theorem pushed_cons (feed : Feed) (feeds : List Feed) :
    pushed (feed :: feeds) = feed.text ++ pushed feeds := by
  simp [pushed]

theorem pushed_append (before after : List Feed) :
    pushed (before ++ after) = pushed before ++ pushed after := by
  simp [pushed, String.join_append]

/-- Whether readings come in time can be told by looking at each of them. -/
theorem inTime_iff : InTime feeds ↔ ∀ i < feeds.length, feeds[i]? = some read →
    (feeds.take i).count read < (pushed (feeds.take i)).toList.count '\n' ∨
      pushed (feeds.drop (i + 1)) = "" := by
  constructor
  · intro inTime i bound reads
    obtain ⟨_, here⟩ := List.getElem?_eq_some_iff.mp reads
    refine inTime _ _ ?_
    rw [← here, ← List.drop_eq_getElem_cons bound, List.take_append_drop]
  · rintro each before after rfl
    simpa using each before.length (by simp) (by simp)

instance : Decidable (InTime feeds) := decidable_of_iff _ inTime_iff.symm

end Feed

open Feed

/-! ### In time -/

/-- If no reading finds the source empty before everything has been pushed, then the readings are
those that the source gives which has everything from the start. -/
theorem Input.feed_eq {pending : List String} {feeds : List Feed}
    (inTime : ∀ before after, feeds = before ++ .read :: after →
      before.count .read < pending.length + (offered before).length ∨ offered after = []) :
    (Input.text pending).feed feeds =
      ((Input.text (pending ++ offered feeds)).readMany (feeds.count .read)).1 := by
  induction feeds generalizing pending with
  | nil => rfl
  | cons feed feeds ih =>
    cases feed with
    | push piece =>
      have whole : pending ++ offered (.push piece :: feeds) =
          pending ++ words piece ++ offered feeds := (List.append_assoc ..).symm
      rw [whole, List.count_cons_of_ne (by simp)]
      refine ih fun before after split => ?_
      refine (inTime (.push piece :: before) after (congrArg _ split)).imp_left fun enough => ?_
      rw [List.count_cons_of_ne (by simp)] at enough
      have more : (offered (.push piece :: before)).length =
          (words piece).length + (offered before).length := List.length_append
      rw [List.length_append]
      omega
    | read =>
      have same : offered (.read :: feeds) = offered feeds := rfl
      rw [same, List.count_cons_self]
      cases pending with
      | cons word pending =>
        refine congrArg (Reading.ofWord word :: ·) (ih fun before after split => ?_)
        refine (inTime (.read :: before) after (congrArg _ split)).imp_left fun enough => ?_
        rw [List.count_cons_self, List.length_cons] at enough
        have as : offered (.read :: before) = offered before := rfl
        rw [as] at enough
        omega
      | nil =>
        have none : offered feeds = [] := by
          obtain enough | none := inTime [] feeds rfl
          · exact absurd enough (Nat.not_lt_zero _)
          · exact none
        rw [none] at ih ⊢
        refine congrArg (Reading.unavailable :: ·) (ih fun before after split => .inr ?_)
        have parts : offered before ++ offered (.read :: after) = [] := by
          rw [← none, split]
          exact List.flatMap_append.symm
        exact (List.append_eq_nil_iff.mp parts).2

/-! ### Whole lines -/

namespace Feed

variable {feeds before after : List Feed}

theorem WholeLines.of_append (whole : WholeLines (before ++ after)) :
    WholeLines before ∧ WholeLines after :=
  ⟨fun piece member => whole piece (List.mem_append_left _ member),
    fun piece member => whole piece (List.mem_append_right _ member)⟩

/-- The lines of the pieces are those of the whole text, and offer its words. -/
theorem WholeLines.exists_linesOf (whole : WholeLines feeds) :
    ∃ lines, LinesOf lines (pushed feeds) ∧ offered feeds = lines.flatMap words := by
  induction feeds with
  | nil => exact ⟨[], ⟨rfl, by simp⟩, rfl⟩
  | cons feed feeds ih =>
    have here : ∃ lines, LinesOf lines feed.text := by
      cases feed with
      | push piece => exact whole piece List.mem_cons_self
      | read => exact ⟨[], rfl, by simp⟩
    obtain ⟨first, linesOf⟩ := here
    obtain ⟨rest, linesOf', same⟩ := ih fun piece member =>
      whole piece (List.mem_cons_of_mem _ member)
    refine ⟨first ++ rest, pushed_cons feed feeds ▸ linesOf.append linesOf', ?_⟩
    rw [List.flatMap_append, ← same, ← linesOf.words_eq]
    rfl

end Feed

/-- Where every line has a word, there are no fewer words than lines. -/
theorem length_le_flatMap_words {lines : List String} (filled : ∀ line ∈ lines, words line ≠ []) :
    lines.length ≤ (lines.flatMap words).length := by
  rw [List.length_flatMap]
  refine Nat.le_trans (Nat.le_of_eq (List.length_map _).symm)
    (List.length_le_sum_of_one_le _ fun count member => ?_)
  obtain ⟨line, there, rfl⟩ := List.mem_map.mp member
  exact List.length_pos_of_ne_nil (filled line there)

/-- If the pieces consist of whole lines, none of which is blank, and no reading comes before its
line, then the readings are those of the whole text. -/
theorem Input.feed_eq_of_wholeLines {feeds : List Feed} {lines : List String}
    (whole : WholeLines feeds) (inTime : InTime feeds) (linesOf : LinesOf lines (pushed feeds))
    (filled : ∀ line ∈ lines, words line ≠ []) :
    (ofText "").feed feeds = ((ofText (pushed feeds)).readMany (feeds.count .read)).1 := by
  have all : ofText (pushed feeds) = .text ([] ++ offered feeds) := by
    obtain ⟨lines', linesOf', offers⟩ := whole.exists_linesOf
    rw [offers, ← linesOf'.words_eq]
    rfl
  rw [all]
  refine feed_eq fun before after split => ?_
  obtain ⟨earlier, later⟩ := WholeLines.of_append (split ▸ whole)
  obtain ⟨first, linesOf₁, offers₁⟩ := earlier.exists_linesOf
  obtain ⟨rest, linesOf₂, offers₂⟩ := later.exists_linesOf
  have both := linesOf₁.append linesOf₂
  rw [← pushed_append, ← split] at both
  obtain rfl := linesOf.unique both
  obtain enough | nothing := inTime before after split
  · left
    have long : first.length ≤ (offered before).length := by
      rw [offers₁]
      exact length_le_flatMap_words fun line member => filled line (List.mem_append_left _ member)
    rw [linesOf₁.count_eq] at enough
    exact Nat.lt_of_lt_of_le enough (Nat.le_trans long (Nat.le_add_left _ _))
  · right
    have empty : LinesOf [] (pushed (.read :: after)) := ⟨nothing, by simp⟩
    obtain rfl := linesOf₂.unique empty
    exact offers₂

end CellC
